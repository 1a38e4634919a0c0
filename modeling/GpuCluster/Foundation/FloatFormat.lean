import Mathlib

/-! # Changing the format of a floating-point number

`f32` and `f64` are Lean's `Float32` and `Float`, whose kernel models are bit
patterns with an unpacked view. A conversion unpacks, rounds to the target
format (nearest, ties to even, overflow to infinity) and packs. Widening a
finite binary32 number to binary64 is exact, so narrowing it again gives the
number back.
-/

namespace GpuCluster.Foundation.FloatFormat

open Float.Model UnpackedFloat

/-- Round an unpacked number to a format; special values are kept. -/
def convert (spec : Format) : UnpackedFloat → UnpackedFloat
  | .finite sign mantissa exponent _ => UnpackedFloat.round spec sign mantissa exponent
  | other => other

/-- The conversion `x as f64` of an `f32`. -/
def f32ToF64 (x : Float32) : Float := .ofModel (.pack (convert .binary64 x.toModel.unpack))

/-- The conversion `x as f32` of an `f64`. -/
def f64ToF32 (x : Float) : Float32 := .ofModel (.pack (convert .binary32 x.toModel.unpack))

theorem log2_shiftLeft (n k : Nat) (hn : n ≠ 0) : (n <<< k).log2 = n.log2 + k := by
  have hlow : 2 ^ n.log2 ≤ n := Nat.log2_self_le hn
  have hhigh : n < 2 ^ (n.log2 + 1) := Nat.lt_log2_self
  have hpos : 0 < 2 ^ k := Nat.two_pow_pos k
  rw [Nat.shiftLeft_eq, Nat.log2_eq_iff (by positivity)]
  constructor
  · rw [Nat.pow_add]
    exact Nat.mul_le_mul_right _ hlow
  · rw [show n.log2 + k + 1 = (n.log2 + 1) + k by omega, Nat.pow_add]
    exact Nat.mul_lt_mul_of_pos_right hhigh hpos

/-- Shifting out zero bits loses nothing. -/
theorem shiftRight_shiftLeft (n k : Nat) :
    (⟨n <<< k, false, false⟩ : ExtendedMantissa) >>> k = ⟨n, false, false⟩ := by
  induction k generalizing n with
  | zero => rfl
  | succ k ih =>
      change ExtendedMantissa.shiftRightOne
        ((⟨n <<< (k + 1), false, false⟩ : ExtendedMantissa) >>> k) = _
      rw [show n <<< (k + 1) = (2 * n) <<< k by
        simp only [Nat.shiftLeft_eq, Nat.pow_succ]
        ring, ih]
      simp [ExtendedMantissa.shiftRightOne]

/-- A mantissa with enough trailing zeros is carried to its target exponent
without rounding. -/
theorem roundWithAccuracy_exact (spec : Format) (sign : Sign) (n k : Nat) (hn : 0 < n)
    (exponent : Int)
    (hshift : spec.targetExponent (totalExponent (n <<< k) exponent) = exponent + k)
    (hcanonical : spec.targetExponent (totalExponent n (exponent + k)) = exponent + k) :
    roundWithAccuracy spec sign (n <<< k) exponent .exact =
      .finite sign n (exponent + k) hn := by
  have hfirst : shiftToTargetExponent spec (n <<< k) exponent .exact =
      (⟨n, false, false⟩, exponent + k) := by
    have hamount : (exponent + k - exponent).toNat = k := by omega
    simp only [shiftToTargetExponent, shiftToExponent, hshift, hamount,
      ExtendedMantissa.ofMantissaAndAccuracy, shiftRight_shiftLeft]
  have hsecond : shiftToTargetExponent spec n (exponent + k) .exact =
      (⟨n, false, false⟩, exponent + k) := by
    simp only [shiftToTargetExponent, shiftToExponent, hcanonical, Int.sub_self,
      Int.toNat_zero, ExtendedMantissa.ofMantissaAndAccuracy, Nat.cast_zero, Int.add_zero]
    rfl
  simp only [roundWithAccuracy, hfirst, ExtendedMantissa.roundedMantissa,
    ExtendedMantissa.accuracy, Accuracy.roundToNearestEven, hsecond]
  rw [dif_neg (Nat.ne_of_gt hn)]

/-- The exponents a finite binary32 number unpacks to. -/
structure Representable32 (mantissa : Nat) (exponent : Int) : Prop where
  pos : 0 < mantissa
  canonical : Format.binary32.targetExponent (totalExponent mantissa exponent) = exponent
  bounded : exponent ≤ 104

theorem targetExponent32 (mantissa : Nat) (exponent : Int) :
    Format.binary32.targetExponent (totalExponent mantissa exponent) =
      max (mantissa.log2 + exponent - 23) (-149) := by
  simp only [Format.targetExponent, totalExponent, Format.mantissaBits, Format.minExponent]
  norm_num
  omega

theorem targetExponent64 (mantissa : Nat) (exponent : Int) :
    Format.binary64.targetExponent (totalExponent mantissa exponent) =
      max (mantissa.log2 + exponent - 52) (-1074) := by
  simp only [Format.targetExponent, totalExponent, Format.mantissaBits, Format.minExponent]
  norm_num
  omega

theorem Representable32.log2_le {mantissa : Nat} {exponent : Int}
    (hrep : Representable32 mantissa exponent) : mantissa.log2 ≤ 23 ∧ -149 ≤ exponent := by
  have hcanonical := hrep.canonical
  rw [targetExponent32] at hcanonical
  omega

/-- Widening shifts the mantissa to 53 bits and rounds nothing off. -/
theorem round_binary64 (sign : Sign) {mantissa : Nat} {exponent : Int}
    (hrep : Representable32 mantissa exponent) :
    UnpackedFloat.round .binary64 sign mantissa exponent =
      .finite sign (mantissa <<< (52 - mantissa.log2)) (exponent - (52 - mantissa.log2 : Nat))
        (Nat.shiftLeft_pos_iff.mpr hrep.pos) := by
  obtain ⟨hlog, hexp⟩ := hrep.log2_le
  have hne : mantissa ≠ 0 := Nat.ne_of_gt hrep.pos
  have hlog' := log2_shiftLeft mantissa (52 - mantissa.log2) hne
  have htarget : Format.binary64.targetExponent (totalExponent mantissa exponent) =
      exponent - (52 - mantissa.log2 : Nat) := by
    rw [targetExponent64]
    omega
  have hamount : (exponent - (exponent - (52 - mantissa.log2 : Nat))).toNat =
      52 - mantissa.log2 := by omega
  simp only [UnpackedFloat.round, htarget, decreaseExponent, hamount]
  have hexact := roundWithAccuracy_exact .binary64 sign (mantissa <<< (52 - mantissa.log2)) 0
    (Nat.shiftLeft_pos_iff.mpr hrep.pos)
    (exponent - (52 - mantissa.log2 : Nat))
    (by rw [targetExponent64, Nat.shiftLeft_zero, hlog']; omega)
    (by rw [targetExponent64, hlog']; omega)
  simpa using hexact

/-- Narrowing the widened mantissa shifts the added zeros out again. -/
theorem round_binary32 (sign : Sign) {mantissa : Nat} {exponent : Int}
    (hrep : Representable32 mantissa exponent) :
    UnpackedFloat.round .binary32 sign (mantissa <<< (52 - mantissa.log2))
      (exponent - (52 - mantissa.log2 : Nat)) = .finite sign mantissa exponent hrep.pos := by
  obtain ⟨hlog, hexp⟩ := hrep.log2_le
  have hne : mantissa ≠ 0 := Nat.ne_of_gt hrep.pos
  have hlog' := log2_shiftLeft mantissa (52 - mantissa.log2) hne
  have hcanonical := hrep.canonical
  rw [targetExponent32] at hcanonical
  have htarget : Format.binary32.targetExponent (totalExponent (mantissa <<< (52 - mantissa.log2))
      (exponent - (52 - mantissa.log2 : Nat))) = exponent := by
    rw [targetExponent32, hlog']
    omega
  have hamount : (exponent - (52 - mantissa.log2 : Nat) - exponent).toNat = 0 := by omega
  simp only [UnpackedFloat.round, htarget, decreaseExponent, hamount, Nat.shiftLeft_zero,
    Nat.cast_zero, Int.sub_zero]
  have hexact := roundWithAccuracy_exact .binary32 sign mantissa (52 - mantissa.log2) hrep.pos
    (exponent - (52 - mantissa.log2 : Nat))
    (by rw [htarget]; omega)
    (by rw [Int.sub_add_cancel]; exact hrep.canonical)
  simpa using hexact

theorem unpackSign_packComponents {spec : Format} (sign : Sign)
    (exponent : BitVec spec.exponentBits) (mantissa : BitVec spec.mantissaBitsWithoutImplicit) :
    unpackSign (packComponents spec sign exponent mantissa) = sign.toBitVec := by
  ext i hi
  obtain rfl : i = 0 := by omega
  simp [unpackSign, packComponents, BitVec.getLsbD_append, BitVec.getElem_append]

/-- A bit pattern is made of its own three fields. -/
theorem packComponents_unpack {spec : Format} (bits : BitVec spec.numBits) :
    packComponents spec (Sign.ofBitVec (unpackSign bits)) (unpackExponent bits)
      (unpackMantissa bits) = bits := by
  have hsign : (Sign.ofBitVec (unpackSign bits)).toBitVec = unpackSign bits := by
    unfold Sign.ofBitVec
    rcases BitVec.eq_zero_or_eq_one (unpackSign bits) with h | h <;> rw [h] <;> rfl
  rw [packComponents, hsign]
  ext i hi
  have hi' : i < 1 + spec.exponentBits + spec.mantissaBitsWithoutImplicit := hi
  simp only [BitVec.getElem_append, unpackMantissa, unpackExponent, unpackSign,
    BitVec.getElem_cast, BitVec.extractLsb, BitVec.getElem_extractLsb']
  rw [← BitVec.getLsbD_eq_getElem hi]
  split
  · rw [Nat.zero_add]
  · split <;> congr 1 <;> omega

theorem toNat_implicit_pos {width : Nat} (mantissa : BitVec width) :
    0 < (1#1 ++ mantissa).toNat := by
  have hbit : 2 ^ width ≤ 1 <<< width ||| mantissa.toNat := by
    rw [Nat.one_shiftLeft]
    exact Nat.left_le_or
  rw [BitVec.toNat_append]
  exact Nat.lt_of_lt_of_le (Nat.two_pow_pos width) hbit

/-- Packing keeps the sign, the biased exponent and the mantissa without its
implicit bit. -/
theorem unpack_packComponents_normal {spec : Format} (sign : Sign)
    (exponent : BitVec spec.exponentBits) (mantissa : BitVec spec.mantissaBitsWithoutImplicit)
    (hlow : exponent ≠ 0#_) (hhigh : exponent ≠ -1#_) :
    UnpackedFloat.unpack spec (packComponents spec sign exponent mantissa) =
      .finite sign (1#1 ++ mantissa).toNat
        (exponent.toNat - (spec.exponentBias + spec.mantissaBitsWithoutImplicit))
        (toNat_implicit_pos mantissa) := by
  have hsign : Sign.ofBitVec sign.toBitVec = sign := by cases sign <;> rfl
  simp only [UnpackedFloat.unpack, unpackExponent_packComponents, unpackMantissa_packComponents,
    unpackSign_packComponents, hsign]
  rw [if_neg hhigh, if_neg hlow]

theorem toNat_implicit_append (bits mantissa : Nat) (hle : 2 ^ bits ≤ mantissa)
    (hlt : mantissa < 2 ^ (bits + 1)) : (1#1 ++ BitVec.ofNat bits mantissa).toNat = mantissa := by
  have hpow : 2 ^ (bits + 1) = 2 * 2 ^ bits := by rw [Nat.pow_succ]; omega
  have hmod : mantissa % 2 ^ bits = mantissa - 2 ^ bits := by
    rw [Nat.mod_eq_sub_mod hle, Nat.mod_eq_of_lt (by omega)]
  have hdisjoint := Nat.two_pow_add_eq_or_of_lt (b := mantissa % 2 ^ bits)
    (Nat.mod_lt _ (Nat.two_pow_pos bits)) 1
  simp only [BitVec.toNat_append, BitVec.toNat_ofNat, Nat.shiftLeft_eq]
  norm_num at hdisjoint ⊢
  omega

/-- A normal binary64 number survives packing. -/
theorem unpack_pack64 (sign : Sign) (mantissa : Nat) (exponent : Int) (hpos : 0 < mantissa)
    (hlog : mantissa.log2 = 52) (hlow : -1074 ≤ exponent) (hhigh : exponent ≤ 970) :
    (Float.Model.pack (.finite sign mantissa exponent hpos)).unpack =
      .finite sign mantissa exponent hpos := by
  obtain ⟨hle, hlt⟩ := (Nat.log2_eq_iff (Nat.ne_of_gt hpos)).mp hlog
  obtain ⟨biased, hbiased⟩ : ∃ biased : Nat, (biased : Int) = exponent + 1075 :=
    ⟨(exponent + 1075).toNat, by omega⟩
  have hexponent : exponent = biased - 1075 := by omega
  subst hexponent
  -- the exponent is in the normal range, so packing only adds the bias
  have hpack : UnpackedFloat.pack .binary64 (.finite sign mantissa (biased - 1075) hpos) =
      packComponents .binary64 sign (BitVec.ofNat 11 biased) (BitVec.ofNat 52 mantissa) := by
    have hraw : ((biased : Int) - 1075 + (2 ^ (11 - 1) - 1 : Nat) + (52 : Nat)).toNat = biased := by
      norm_num
      omega
    simp only [UnpackedFloat.pack, Format.exponentBias, Format.mantissaBits, hlog, hraw]
    rw [if_neg (by norm_num; omega), if_pos (by norm_num)]
  have hnat : (BitVec.ofNat 11 biased).toNat = biased :=
    Nat.mod_eq_of_lt (by norm_num; omega)
  unfold Float.Model.unpack Float.Model.pack
  simp only [hpack]
  rw [unpack_packComponents_normal]
  · congr 1
    · exact toNat_implicit_append 52 mantissa hle hlt
    · simp only [Format.exponentBias, hnat]
      norm_num
  · intro hzero
    have := congrArg BitVec.toNat hzero
    rw [hnat] at this
    simp at this
    omega
  · intro hones
    have := congrArg BitVec.toNat hones
    rw [hnat] at this
    simp at this
    omega

theorem unpack32_subnormal (sign : Sign) (mantissa : BitVec 23) (hmantissa : mantissa ≠ 0#23) :
    UnpackedFloat.unpack .binary32 (packComponents .binary32 sign 0#8 mantissa) =
      .finite sign mantissa.toNat (-149)
        (by simpa [BitVec.toNat_pos, BitVec.pos_iff_ne_zero] using hmantissa) := by
  have hsign : Sign.ofBitVec sign.toBitVec = sign := by cases sign <;> rfl
  simp only [UnpackedFloat.unpack, unpackExponent_packComponents, unpackMantissa_packComponents,
    unpackSign_packComponents, hsign]
  rw [if_neg (by decide), if_pos trivial, dif_neg hmantissa]
  rfl

theorem unpack32_zero (sign : Sign) :
    UnpackedFloat.unpack .binary32 (packComponents .binary32 sign 0#8 0#23) = .zero sign := by
  cases sign <;> rfl

theorem not_isFinite_unpack32 (sign : Sign) (mantissa : BitVec 23) :
    (UnpackedFloat.unpack .binary32
      (packComponents .binary32 sign (-1#8) mantissa)).isFinite = false := by
  simp only [UnpackedFloat.unpack, unpackExponent_packComponents, unpackMantissa_packComponents,
    if_true]
  split <;> rfl

theorem pack32 (sign : Sign) (mantissa : Nat) (exponent : Int) (hpos : 0 < mantissa) (biased : Nat)
    (hbiased : (exponent + 150).toNat = biased) (hhigh : biased < 255) :
    UnpackedFloat.pack .binary32 (.finite sign mantissa exponent hpos) =
      if mantissa.log2 = 23 then
        packComponents .binary32 sign (BitVec.ofNat 8 biased) (BitVec.ofNat 23 mantissa)
      else packComponents .binary32 sign 0#8 (BitVec.ofNat 23 mantissa) := by
  have hraw : (exponent + (2 ^ (8 - 1) - 1 : Nat) + (23 : Nat)).toNat = biased := by
    norm_num
    omega
  simp only [UnpackedFloat.pack, Format.exponentBias, Format.mantissaBits, hraw]
  rw [if_neg (by norm_num; omega)]
  exact if_congr (by omega) rfl rfl

/-- A finite binary32 pattern unpacks to a zero, or to a representable number
that packs to the same pattern. -/
theorem unpack32_cases (bits : BitVec Format.binary32.numBits)
    (hfinite : (UnpackedFloat.unpack .binary32 bits).isFinite) :
    (∃ sign, UnpackedFloat.unpack .binary32 bits = .zero sign ∧
      UnpackedFloat.pack .binary32 (.zero sign) = bits) ∨
    ∃ sign mantissa exponent, ∃ hrep : Representable32 mantissa exponent,
      UnpackedFloat.unpack .binary32 bits = .finite sign mantissa exponent hrep.pos ∧
      UnpackedFloat.pack .binary32 (.finite sign mantissa exponent hrep.pos) = bits := by
  obtain ⟨sign, expBits, manBits, rfl⟩ : ∃ sign expBits manBits,
      packComponents .binary32 sign expBits manBits = bits := ⟨_, _, _, packComponents_unpack bits⟩
  have hman : manBits.toNat < 2 ^ 23 := manBits.isLt
  have hexp : expBits.toNat < 2 ^ 8 := expBits.isLt
  have hofNat : BitVec.ofNat 23 manBits.toNat = manBits := by simp
  by_cases hones : expBits = -1#8
  · subst hones
    rw [not_isFinite_unpack32] at hfinite
    exact absurd hfinite (by decide)
  by_cases hzero : expBits = 0#8
  · subst hzero
    by_cases hmzero : manBits = 0#23
    · subst hmzero
      exact Or.inl ⟨sign, unpack32_zero sign, rfl⟩
    · right
      have hpos : 0 < manBits.toNat := by
        simpa [BitVec.toNat_pos, BitVec.pos_iff_ne_zero] using hmzero
      have hlog : manBits.toNat.log2 < 23 := (Nat.log2_lt (Nat.ne_of_gt hpos)).mpr hman
      have hrep : Representable32 manBits.toNat (-149) :=
        ⟨hpos, by rw [targetExponent32]; omega, by omega⟩
      refine ⟨sign, manBits.toNat, -149, hrep, unpack32_subnormal sign manBits hmzero, ?_⟩
      rw [pack32 sign _ _ _ 1 (by norm_num) (by omega), if_neg (by omega), hofNat]
  · right
    have hlow : expBits.toNat ≠ 0 := fun h => hzero (BitVec.eq_of_toNat_eq (by simpa using h))
    have hhigh : expBits.toNat ≠ 255 := fun h => hones (BitVec.eq_of_toNat_eq (by simpa using h))
    have hm : BitVec.ofNat 23 (2 ^ 23 + manBits.toNat) = manBits :=
      BitVec.eq_of_toNat_eq (by simp only [BitVec.toNat_ofNat]; omega)
    have happend := toNat_implicit_append 23 (2 ^ 23 + manBits.toNat) (by omega) (by omega)
    rw [hm] at happend
    have hlog : (2 ^ 23 + manBits.toNat).log2 = 23 :=
      (Nat.log2_eq_iff (by omega)).mpr (by omega)
    have hrep : Representable32 (2 ^ 23 + manBits.toNat) (expBits.toNat - 150) :=
      ⟨by omega, by rw [targetExponent32, hlog]; omega, by omega⟩
    refine ⟨sign, _, _, hrep, ?_, ?_⟩
    · rw [unpack_packComponents_normal sign expBits manBits hzero hones]
      congr 1
    · rw [pack32 sign _ _ _ expBits.toNat (by omega) (by omega), if_pos hlog, hm]
      simp

/-- Widening a finite `f32` and narrowing it again gives the number back. -/
theorem f64ToF32_f32ToF64 (x : Float32) (hfinite : x.isFinite) :
    f64ToF32 (f32ToF64 x) = x := by
  obtain ⟨⟨bits, hvalid⟩⟩ := x
  have hpacked : ∀ unpacked, UnpackedFloat.pack .binary32 unpacked = bits.toBitVec →
      Float32.ofModel (.pack unpacked) = ⟨⟨bits, hvalid⟩⟩ := by
    intro unpacked hpack
    simp only [Float32.Model.pack, hpack, UInt32.ofBitVec_toBitVec]
  rcases unpack32_cases bits.toBitVec hfinite with ⟨sign, hunpack, hpack⟩ |
    ⟨sign, mantissa, exponent, hrep, hunpack, hpack⟩
  · have hwide : (Float.Model.pack (.zero sign)).unpack = .zero sign := by cases sign <;> rfl
    simp only [f64ToF32, f32ToF64, Float32.Model.unpack, hunpack, convert, hwide]
    exact hpacked _ hpack
  · obtain ⟨hlog, hexp⟩ := hrep.log2_le
    have hbound := hrep.bounded
    have hne : mantissa ≠ 0 := Nat.ne_of_gt hrep.pos
    have hwide := unpack_pack64 sign (mantissa <<< (52 - mantissa.log2))
      (exponent - (52 - mantissa.log2 : Nat)) (Nat.shiftLeft_pos_iff.mpr hrep.pos)
      (by rw [log2_shiftLeft _ _ hne]; omega) (by omega) (by omega)
    simp only [f64ToF32, f32ToF64, Float32.Model.unpack, hunpack, convert,
      round_binary64 sign hrep, hwide, round_binary32 sign hrep]
    exact hpacked _ hpack

end GpuCluster.Foundation.FloatFormat
