import GpuCluster.Foundation.IpAddr
import Mathlib.Algebra.Ring.Nat

/-! # Percent encoding

A component of a URL is written with escapes for the bytes of most characters,
and read by taking each escape for its byte. What is read is a text only if its
bytes are UTF-8.
-/

namespace GpuCluster.Foundation

/-! ## Writing -/

/-- An upper-case hexadecimal digit. -/
def hexDigit (n : ℕ) : Char := "0123456789ABCDEF".toList.getD n '0'

def escapeByte (byte : UInt8) : List Char :=
  ['%', hexDigit (byte.toNat / 16), hexDigit (byte.toNat % 16)]

def escapeChar (keeps : Char → Bool) (c : Char) : List Char :=
  if keeps c then [c] else (String.utf8EncodeChar c).flatMap escapeByte

/-- A text with escapes for the characters that are not kept. -/
def percentEncode (keeps : Char → Bool) (s : String) : String :=
  .ofList (s.toList.flatMap (escapeChar keeps))

/-- What `encodeURIComponent` keeps. -/
def isUriMark (c : Char) : Bool := c.isAlphanum || c ∈ "-_.!~*'()".toList

/-- `encodeURIComponent`. -/
def encodeURIComponent (s : String) : String := percentEncode isUriMark s

/-! ## Reading -/

/-- The bytes of a text, each escape taken for its byte. -/
def percentBytes : List Char → List UInt8
  | '%' :: high :: low :: rest =>
      if digitValue high < 16 ∧ digitValue low < 16 then
        .ofNat (16 * digitValue high + digitValue low) :: percentBytes rest
      else String.utf8EncodeChar '%' ++ percentBytes (high :: low :: rest)
  | c :: rest => String.utf8EncodeChar c ++ percentBytes rest
  | [] => []

def percentDecode (s : String) : Option String :=
  String.fromUTF8? (percentBytes s.toList).toByteArray

/-! ## What is written is read back -/

theorem digitValue_hexDigit {n : ℕ} (hn : n < 16) : digitValue (hexDigit n) = n := by
  have hdigits : ∀ n : Fin 16, digitValue (hexDigit n.val) = n := by decide
  exact hdigits ⟨n, hn⟩

theorem percentBytes_escapeByte (byte : UInt8) (rest : List Char) :
    percentBytes (escapeByte byte ++ rest) = byte :: percentBytes rest := by
  have hbyte : byte.toNat < 256 := byte.toNat_lt
  have hhigh := digitValue_hexDigit (by omega : byte.toNat / 16 < 16)
  have hlow := digitValue_hexDigit (by omega : byte.toNat % 16 < 16)
  have hboth : byte.toNat / 16 < 16 ∧ byte.toNat % 16 < 16 := by omega
  rw [escapeByte, List.cons_append, List.cons_append, List.cons_append, List.nil_append,
    percentBytes, hhigh, hlow, if_pos hboth, Nat.div_add_mod, UInt8.ofNat_toNat]

theorem percentBytes_escapeBytes (bytes : List UInt8) (rest : List Char) :
    percentBytes (bytes.flatMap escapeByte ++ rest) = bytes ++ percentBytes rest := by
  induction bytes with
  | nil => rfl
  | cons byte more ih =>
      rw [List.flatMap_cons, List.append_assoc, percentBytes_escapeByte, ih, List.cons_append]

/-- A character that is not a percent sign stands for itself. -/
theorem percentBytes_cons_of_ne {c : Char} (hc : c ≠ '%') (rest : List Char) :
    percentBytes (c :: rest) = String.utf8EncodeChar c ++ percentBytes rest := by
  rw [percentBytes]
  intro high low more hsign
  exact absurd hsign hc

section RoundTrip

variable {keeps : Char → Bool} (hkeeps : keeps '%' = false)

include hkeeps

theorem percentBytes_escapeChar (c : Char) (rest : List Char) :
    percentBytes (escapeChar keeps c ++ rest) = String.utf8EncodeChar c ++ percentBytes rest := by
  unfold escapeChar
  split
  next hkeep =>
    have hc : c ≠ '%' := by
      rintro rfl
      rw [hkeeps] at hkeep
      cases hkeep
    exact percentBytes_cons_of_ne hc rest
  next => exact percentBytes_escapeBytes _ rest

theorem percentBytes_escapeChars (chars : List Char) :
    percentBytes (chars.flatMap (escapeChar keeps)) =
      chars.flatMap String.utf8EncodeChar := by
  induction chars with
  | nil => rfl
  | cons c rest ih => rw [List.flatMap_cons, percentBytes_escapeChar hkeeps, ih, List.flatMap_cons]

/-- Every text is read back. -/
theorem percentDecode_percentEncode (s : String) :
    percentDecode (percentEncode keeps s) = some s := by
  have hbytes : (percentBytes (percentEncode keeps s).toList).toByteArray = s.toByteArray := by
    rw [percentEncode, String.toList_ofList, percentBytes_escapeChars hkeeps]
    exact congrArg String.toByteArray s.ofList_toList
  rw [percentDecode, hbytes]
  exact dif_pos s.isValidUTF8

theorem percentEncode_injective : Function.Injective (percentEncode keeps) := by
  intro s t heq
  have hread := percentDecode_percentEncode hkeeps s
  rw [heq, percentDecode_percentEncode hkeeps, Option.some.injEq] at hread
  exact hread.symm

end RoundTrip

theorem percentDecode_encodeURIComponent (s : String) :
    percentDecode (encodeURIComponent s) = some s :=
  percentDecode_percentEncode (by decide) s

/-! ## The characters of an encoded text -/

theorem hexDigit_isAlphanum (n : ℕ) : (hexDigit n).isAlphanum = true := by
  have hdigits : ∀ n : Fin 16, (hexDigit n.val).isAlphanum = true := by decide
  by_cases hn : n < 16
  · exact hdigits ⟨n, hn⟩
  · have hzero : hexDigit n = '0' := by
      have hlength : "0123456789ABCDEF".toList.length = 16 := rfl
      rw [hexDigit, List.getD_eq_getElem?_getD, List.getElem?_eq_none (by omega)]
      rfl
    rw [hzero]
    rfl

/-- A kept character stays, and an escape has only digits after its sign. -/
theorem mem_escapeChar {keeps : Char → Bool} {original c : Char}
    (hc : c ∈ escapeChar keeps original) :
    c = original ∧ keeps c = true ∨ c.isAlphanum = true ∨ c = '%' := by
  unfold escapeChar at hc
  split at hc
  next hkeep =>
    obtain rfl := List.mem_singleton.mp hc
    exact .inl ⟨rfl, hkeep⟩
  next =>
    obtain ⟨byte, -, hc⟩ := List.mem_flatMap.mp hc
    simp only [escapeByte, List.mem_cons, List.not_mem_nil, or_false] at hc
    rcases hc with rfl | rfl | rfl
    · exact .inr (.inr rfl)
    · exact .inr (.inl (hexDigit_isAlphanum _))
    · exact .inr (.inl (hexDigit_isAlphanum _))

theorem isUriMark_of_isAlphanum {c : Char} (hc : c.isAlphanum = true) : isUriMark c = true := by
  rw [isUriMark, hc, Bool.true_or]

/-- Only marks, and the percent sign. -/
theorem mem_encodeURIComponent {s : String} {c : Char} (hc : c ∈ (encodeURIComponent s).toList) :
    isUriMark c = true ∨ c = '%' := by
  rw [encodeURIComponent, percentEncode, String.toList_ofList, List.mem_flatMap] at hc
  obtain ⟨original, -, hc⟩ := hc
  rcases mem_escapeChar hc with ⟨-, hkeep⟩ | hdigit | hsign
  · exact .inl hkeep
  · exact .inl (isUriMark_of_isAlphanum hdigit)
  · exact .inr hsign

/-- A text of marks is encoded as it is. -/
theorem encodeURIComponent_of_marks {s : String} (hs : ∀ c ∈ s.toList, isUriMark c = true) :
    encodeURIComponent s = s := by
  have hchars : s.toList.flatMap (escapeChar isUriMark) = s.toList.flatMap fun c => [c] :=
    List.flatMap_congr fun c hc => if_pos (hs c hc)
  rw [encodeURIComponent, percentEncode, hchars, List.flatMap_singleton', String.ofList_toList]

end GpuCluster.Foundation
