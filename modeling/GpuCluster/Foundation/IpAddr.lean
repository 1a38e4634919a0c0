import Mathlib.Data.List.Basic

/-! # IP addresses as text

The standard display of an address: dotted decimal octets, or hexadecimal
groups with the longest run of zero groups written `::`. The parsers read any
text of the address grammar; reading a display gives the address back.
-/

namespace GpuCluster.Foundation

/-! ## Numerals -/

/-- The value of a digit, of either case. -/
def digitValue (c : Char) : ℕ :=
  if '0' ≤ c ∧ c ≤ '9' then c.toNat - '0'.toNat
  else if 'a' ≤ c ∧ c ≤ 'f' then c.toNat - 'a'.toNat + 10
  else if 'A' ≤ c ∧ c ≤ 'F' then c.toNat - 'A'.toNat + 10
  else 16

theorem digitValue_le (c : Char) : digitValue c ≤ 16 := by
  unfold digitValue
  split
  next h =>
    have hhigh : c.toNat ≤ '9'.toNat := h.2
    have hnine : '9'.toNat = 57 := rfl
    have hzero : '0'.toNat = 48 := rfl
    omega
  next =>
    split
    next h =>
      have hhigh : c.toNat ≤ 'f'.toNat := h.2
      have hf : 'f'.toNat = 102 := rfl
      have ha : 'a'.toNat = 97 := rfl
      omega
    next =>
      split
      next h =>
        have hhigh : c.toNat ≤ 'F'.toNat := h.2
        have hf : 'F'.toNat = 70 := rfl
        have ha : 'A'.toNat = 65 := rfl
        omega
      next => exact Nat.le_refl _

/-- A text of digits of a base. -/
def numeral? (base : ℕ) (text : List Char) : Option ℕ :=
  text.foldlM (fun n c => if digitValue c < base then some (base * n + digitValue c) else none) 0

theorem digitValue_digitChar {n : ℕ} (hn : n < 16) : digitValue n.digitChar = n := by
  have hdigits : ∀ n : Fin 16, digitValue n.val.digitChar = n := by decide
  exact hdigits ⟨n, hn⟩

theorem numeral?_toDigits {base : ℕ} (hlow : 1 < base) (hhigh : base ≤ 16) (n : ℕ) :
    numeral? base (Nat.toDigits base n) = some n := by
  induction n using Nat.base_induction base hlow with
  | single n hn =>
      have hvalue := digitValue_digitChar (Nat.lt_of_lt_of_le hn hhigh)
      simp [numeral?, Nat.toDigits_of_lt_base hn, hvalue, hn]
  | digit n k hk hn ih =>
      have hvalue := digitValue_digitChar (Nat.lt_of_lt_of_le hk hhigh)
      rw [numeral?] at ih
      rw [numeral?, ← Nat.toDigits_append_toDigits hlow hn hk, List.foldlM_append, ih,
        Nat.toDigits_of_lt_base hk]
      simp [hvalue, hk]

/-- A numeral has nothing but digits. -/
theorem digitValue_lt_of_numeral? {base : ℕ} {text : List Char} {n : ℕ}
    (htext : numeral? base text = some n) {c : Char} (hc : c ∈ text) : digitValue c < base := by
  unfold numeral? at htext
  generalize 0 = start at htext
  induction text generalizing start with
  | nil => cases hc
  | cons first rest ih =>
      rw [List.foldlM_cons] at htext
      split at htext
      next hfirst =>
        rcases List.mem_cons.mp hc with rfl | hrest
        · exact hfirst
        · exact ih hrest _ htext
      next => cases htext

/-- A character that is not a hexadecimal digit is in no numeral. -/
theorem not_mem_toDigits {base : ℕ} (hlow : 1 < base) (hhigh : base ≤ 16) {c : Char}
    (hc : digitValue c = 16) (n : ℕ) : c ∉ Nat.toDigits base n := by
  intro hmem
  have hlt := digitValue_lt_of_numeral? (numeral?_toDigits hlow hhigh n) hmem
  omega

/-! ## IPv4 -/

structure Ipv4 where
  a : UInt8
  b : UInt8
  c : UInt8
  d : UInt8
  deriving DecidableEq

/-- Pieces joined by a separator. -/
abbrev joined (separator : Char) (pieces : List (List Char)) : List Char :=
  [separator].intercalate pieces

theorem not_mem_joined {separator c : Char} (hc : c ≠ separator) {pieces : List (List Char)}
    (hpieces : ∀ piece ∈ pieces, c ∉ piece) : c ∉ joined separator pieces := by
  induction pieces with
  | nil => simp
  | cons piece rest ih =>
      have hpiece := hpieces piece (List.mem_cons_self ..)
      have hrest := ih fun other hother => hpieces other (List.mem_cons_of_mem _ hother)
      cases rest with
      | nil => simpa [joined] using hpiece
      | cons next rest =>
          rw [joined, List.intercalate_cons_cons]
          simp only [List.mem_append, List.mem_singleton, not_or]
          exact ⟨⟨hpiece, hc⟩, hrest⟩

def Ipv4.text (ip : Ipv4) : List Char :=
  joined '.' ([ip.a, ip.b, ip.c, ip.d].map fun octet => Nat.toDigits 10 octet.toNat)

/-- `dec-octet`: a number up to 255, without leading zeros. -/
def octet? (piece : List Char) : Option UInt8 := do
  let n ← numeral? 10 piece
  if n < 256 ∧ piece = Nat.toDigits 10 n then some (.ofNat n) else none

/-- `IPv4address`. -/
def Ipv4.parse (text : List Char) : Option Ipv4 :=
  match text.splitOn '.' with
  | [a, b, c, d] => do
      let a ← octet? a
      let b ← octet? b
      let c ← octet? c
      let d ← octet? d
      return { a, b, c, d }
  | _ => none

theorem octet?_toDigits (octet : UInt8) : octet? (Nat.toDigits 10 octet.toNat) = some octet := by
  have hlt : octet.toNat < 256 := octet.toNat_lt
  simp [octet?, numeral?_toDigits, hlt]

theorem Ipv4.parse_text (ip : Ipv4) : Ipv4.parse ip.text = some ip := by
  have hsplit : ip.text.splitOn '.' =
      [ip.a, ip.b, ip.c, ip.d].map fun octet => Nat.toDigits 10 octet.toNat := by
    apply List.splitOn_intercalate
    · intro piece hpiece
      obtain ⟨octet, -, rfl⟩ := List.mem_map.mp hpiece
      exact not_mem_toDigits (by decide) (by decide) (by decide) _
    · simp
  simp [Ipv4.parse, hsplit, octet?_toDigits]

/-- The text of an IPv4 address is made of decimal digits and dots. -/
theorem Ipv4.not_mem_text (ip : Ipv4) {c : Char} (hdot : c ≠ '.') (hc : digitValue c = 16) :
    c ∉ ip.text := by
  apply not_mem_joined hdot
  intro piece hpiece
  obtain ⟨octet, -, rfl⟩ := List.mem_map.mp hpiece
  exact not_mem_toDigits (by decide) (by decide) hc _

/-! ## IPv6 -/

/-- Eight groups of 16 bits. -/
abbrev Ipv6 := {groups : List UInt16 // groups.length = 8}

def hexGroup (group : UInt16) : List Char := Nat.toDigits 16 group.toNat

def hexGroups (groups : List UInt16) : List Char := joined ':' (groups.map hexGroup)

/-- A run of groups. -/
structure Span where
  start : ℕ
  len : ℕ

/-- The loop over the groups: the first longest run of zeros, from the run that
ends at the current group and the longest one so far. -/
def longestZeros : List UInt16 → ℕ → Span → Span → Span
  | [], _, _, longest => longest
  | group :: rest, index, current, longest =>
      if group = 0 then
        let current := ⟨if current.len = 0 then index else current.start, current.len + 1⟩
        longestZeros rest (index + 1) current
          (if longest.len < current.len then current else longest)
      else longestZeros rest (index + 1) ⟨0, 0⟩ longest

/-- The embedded address of an IPv4-mapped one. -/
def mapped? : List UInt16 → Option Ipv4
  | [0, 0, 0, 0, 0, 0xffff, high, low] => some
      { a := .ofNat (high.toNat / 256), b := .ofNat (high.toNat % 256),
        c := .ofNat (low.toNat / 256), d := .ofNat (low.toNat % 256) }
  | _ => none

def Ipv6.text (ip : Ipv6) : List Char :=
  match mapped? ip.val with
  | some ipv4 => "::ffff:".toList ++ ipv4.text
  | none =>
      let zeros := longestZeros ip.val 0 ⟨0, 0⟩ ⟨0, 0⟩
      if 1 < zeros.len then
        hexGroups (ip.val.take zeros.start) ++ ':' :: ':' ::
          hexGroups (ip.val.drop (zeros.start + zeros.len))
      else hexGroups ip.val

/-- `h16`: one to four hexadecimal digits. -/
def hexGroup? (piece : List Char) : Option UInt16 :=
  if piece ≠ [] ∧ piece.length ≤ 4 then (numeral? 16 piece).map .ofNat else none

/-- Groups in front of a `::`. -/
def headGroups? (pieces : List (List Char)) : Option (List UInt16) := pieces.mapM hexGroup?

/-- Groups at the end of an address; an IPv4 address may stand for the last two. -/
def tailGroups? : List (List Char) → Option (List UInt16)
  | [] => some []
  | [piece] =>
      match Ipv4.parse piece with
      | some ip => some
          [.ofNat (ip.a.toNat * 256 + ip.b.toNat), .ofNat (ip.c.toNat * 256 + ip.d.toNat)]
      | none => (hexGroup? piece).map ([·])
  | piece :: rest => do
      let group ← hexGroup? piece
      let groups ← tailGroups? rest
      return group :: groups

/-- The text around the first `::`. -/
def splitDouble : List Char → Option (List Char × List Char)
  | [] => none
  | c :: rest =>
      match c, rest with
      | ':', ':' :: after => some ([], after)
      | _, _ => (splitDouble rest).map fun (before, after) => (c :: before, after)

/-- The pieces of a text between colons; the empty text has none. -/
def colonPieces (text : List Char) : List (List Char) :=
  if text = [] then [] else text.splitOn ':'

/-- `IPv6address`: eight groups, or fewer around a `::`. -/
def Ipv6.parse (text : List Char) : Option Ipv6 :=
  match splitDouble text with
  | none => do
      let groups ← tailGroups? (colonPieces text)
      if h : groups.length = 8 then some ⟨groups, h⟩ else none
  | some (before, after) => do
      let left ← headGroups? (colonPieces before)
      let right ← tailGroups? (colonPieces after)
      if h : left.length + right.length < 8 then
        some ⟨left ++ List.replicate (8 - left.length - right.length) 0 ++ right, by
          simp only [List.length_append, List.length_replicate]
          omega⟩
      else none

/-! ### Reading groups back -/

theorem not_mem_hexGroup {c : Char} (hc : digitValue c = 16) (group : UInt16) :
    c ∉ hexGroup group :=
  not_mem_toDigits (by decide) (by decide) hc _

@[simp] theorem hexGroup?_hexGroup (group : UInt16) : hexGroup? (hexGroup group) = some group := by
  have hlength : (hexGroup group).length ≤ 4 :=
    (Nat.length_toDigits_le_iff (by decide) (by decide)).mpr group.toNat_lt
  rw [hexGroup?, if_pos ⟨Nat.toDigits_ne_nil, hlength⟩, hexGroup,
    numeral?_toDigits (by decide) (by decide), Option.map_some, UInt16.ofNat_toNat]

theorem headGroups?_map (groups : List UInt16) :
    headGroups? (groups.map hexGroup) = some groups := by
  unfold headGroups?
  induction groups with
  | nil => rfl
  | cons group rest ih =>
      rw [List.map_cons, List.mapM_cons, hexGroup?_hexGroup, ih]
      rfl

/-- A group is not an IPv4 address: it has no dot. -/
theorem Ipv4.parse_hexGroup (group : UInt16) : Ipv4.parse (hexGroup group) = none := by
  rw [Ipv4.parse, List.splitOn_eq_singleton (not_mem_hexGroup (by decide) group)]

theorem tailGroups?_map (groups : List UInt16) :
    tailGroups? (groups.map hexGroup) = some groups := by
  induction groups with
  | nil => rfl
  | cons group rest ih =>
      cases rest with
      | nil => simp [tailGroups?, Ipv4.parse_hexGroup]
      | cons next rest =>
          rw [List.map_cons, List.map_cons, tailGroups?, hexGroup?_hexGroup, ← List.map_cons, ih]
          · rfl
          · simp

theorem hexGroups_cons_cons (group next : UInt16) (rest : List UInt16) :
    hexGroups (group :: next :: rest) = hexGroup group ++ ':' :: hexGroups (next :: rest) := by
  simp [hexGroups, joined, List.intercalate_cons_cons]

/-- Groups start with a digit. -/
theorem hexGroups_cons (group : UInt16) (rest : List UInt16) :
    ∃ digit text, digit ≠ ':' ∧ hexGroups (group :: rest) = digit :: text := by
  cases hgroup : hexGroup group with
  | nil => exact absurd hgroup Nat.toDigits_ne_nil
  | cons digit text =>
      have hdigit : digit ≠ ':' := by
        rintro rfl
        exact not_mem_hexGroup (by decide) group (hgroup ▸ List.mem_cons_self ..)
      cases rest with
      | nil => exact ⟨digit, text, hdigit, by simp [hexGroups, joined, hgroup]⟩
      | cons next rest =>
          exact ⟨digit, _, hdigit, by rw [hexGroups_cons_cons, hgroup]; rfl⟩

theorem colonPieces_hexGroups (groups : List UInt16) :
    colonPieces (hexGroups groups) = groups.map hexGroup := by
  cases groups with
  | nil => rfl
  | cons group rest =>
      obtain ⟨digit, text, -, htext⟩ := hexGroups_cons group rest
      rw [colonPieces, if_neg (by simp [htext])]
      apply List.splitOn_intercalate
      · intro piece hpiece
        obtain ⟨other, -, rfl⟩ := List.mem_map.mp hpiece
        exact not_mem_hexGroup (by decide) other
      · simp

theorem splitDouble_cons {c : Char} (hc : c ≠ ':') (rest : List Char) :
    splitDouble (c :: rest) =
      (splitDouble rest).map fun (before, after) => (c :: before, after) := by
  rw [splitDouble]
  intro after hcolon
  exact absurd hcolon hc

theorem splitDouble_piece {piece : List Char} (hpiece : ':' ∉ piece) (rest : List Char) :
    splitDouble (piece ++ rest) =
      (splitDouble rest).map fun (before, after) => (piece ++ before, after) := by
  induction piece with
  | nil => simp
  | cons c piece ih =>
      rw [List.mem_cons, not_or] at hpiece
      rw [List.cons_append, splitDouble_cons (Ne.symm hpiece.1), ih hpiece.2, Option.map_map]
      rfl

/-- Groups hold no double colon and do not end with a colon. -/
theorem splitDouble_hexGroups (groups : List UInt16) (rest : List Char) :
    splitDouble (hexGroups groups ++ rest) =
      (splitDouble rest).map fun (before, after) => (hexGroups groups ++ before, after) := by
  induction groups with
  | nil => simp [hexGroups]
  | cons group groups ih =>
      have hgroup := not_mem_hexGroup (c := ':') (by decide) group
      cases groups with
      | nil => simpa [hexGroups, joined] using splitDouble_piece hgroup rest
      | cons next groups =>
          obtain ⟨digit, text, hdigit, htext⟩ := hexGroups_cons next groups
          have hcolon : splitDouble (':' :: (hexGroups (next :: groups) ++ rest)) =
              (splitDouble (hexGroups (next :: groups) ++ rest)).map
                fun (before, after) => (':' :: before, after) := by
            rw [htext, List.cons_append, splitDouble]
            intro after _ hnext
            exact absurd (List.cons.inj hnext).1 hdigit
          rw [hexGroups_cons_cons, List.append_assoc, List.cons_append,
            splitDouble_piece hgroup, hcolon, ih, Option.map_map, Option.map_map]
          congr 1
          funext around
          simp

/-- The groups of a span are all zero. -/
def Span.IsZero (span : Span) (groups : List UInt16) : Prop :=
  ∃ left right, groups = left ++ List.replicate span.len 0 ++ right ∧ left.length = span.start

/-- What the loop keeps: the longest run so far, and the run it is in. -/
theorem longestZeros_isZero {seen rest : List UInt16} {current longest : Span}
    (hcurrent : ∃ left, seen = left ++ List.replicate current.len 0 ∧
      (current.len ≠ 0 → left.length = current.start))
    (hlongest : longest.IsZero seen) :
    (longestZeros rest seen.length current longest).IsZero (seen ++ rest) := by
  induction rest generalizing seen current longest with
  | nil => simpa [longestZeros] using hlongest
  | cons group rest ih =>
      have hseen : seen ++ group :: rest = (seen ++ [group]) ++ rest := by simp
      have hwider : longest.IsZero (seen ++ [group]) := by
        obtain ⟨left, right, rfl, hstart⟩ := hlongest
        exact ⟨left, right ++ [group], by simp, hstart⟩
      have hlength : (seen ++ [group]).length = seen.length + 1 := List.length_append ..
      rw [longestZeros, hseen, ← hlength]
      split
      next hzero =>
        subst hzero
        obtain ⟨left, hleft, hstart⟩ := hcurrent
        have hrun : seen ++ [0] = left ++ List.replicate (current.len + 1) 0 := by
          rw [hleft, List.replicate_succ', List.append_assoc]
        have hnext : left.length = if current.len = 0 then seen.length else current.start := by
          split
          next hempty => simp [hleft, hempty]
          next hsome => exact hstart hsome
        refine ih ⟨left, hrun, fun _ => hnext⟩ ?_
        by_cases hlonger : longest.len < current.len + 1
        · rw [if_pos hlonger]
          exact ⟨left, [], by simpa using hrun, hnext⟩
        · rw [if_neg hlonger]
          exact hwider
      next => exact ih ⟨seen ++ [group], by simp, fun h => absurd rfl h⟩ hwider

/-- The run that is left out of the text is one of zeros. -/
theorem eq_of_longestZeros (groups : List UInt16) :
    let zeros := longestZeros groups 0 ⟨0, 0⟩ ⟨0, 0⟩
    groups = groups.take zeros.start ++ List.replicate zeros.len 0 ++
      groups.drop (zeros.start + zeros.len) := by
  intro zeros
  have hzero : zeros.IsZero ([] ++ groups) :=
    longestZeros_isZero ⟨[], rfl, fun h => absurd rfl h⟩ ⟨[], [], rfl, rfl⟩
  obtain ⟨left, right, hgroups, hstart⟩ := hzero
  rw [List.nil_append] at hgroups
  have htake : groups.take zeros.start = left := by
    rw [hgroups, ← hstart, List.append_assoc, List.take_left]
  have hdrop : groups.drop (zeros.start + zeros.len) = right := by
    rw [hgroups, ← hstart]
    exact List.drop_left' (by simp)
  rw [htake, hdrop, ← hgroups]

/-! ### The round trip -/

theorem mapped?_eq_some {groups : List UInt16} {ipv4 : Ipv4}
    (hmapped : mapped? groups = some ipv4) :
    groups = [0, 0, 0, 0, 0, 0xffff, .ofNat (ipv4.a.toNat * 256 + ipv4.b.toNat),
      .ofNat (ipv4.c.toNat * 256 + ipv4.d.toNat)] := by
  unfold mapped? at hmapped
  split at hmapped
  next high low =>
    cases hmapped
    have hbytes : ∀ group : UInt16, UInt16.ofNat ((UInt8.ofNat (group.toNat / 256)).toNat * 256 +
        (UInt8.ofNat (group.toNat % 256)).toNat) = group := by
      intro group
      have hlt : group.toNat < 65536 := group.toNat_lt
      have hhigh : (UInt8.ofNat (group.toNat / 256)).toNat = group.toNat / 256 :=
        UInt8.toNat_ofNat_of_lt' (show _ < 256 by omega)
      have hlow : (UInt8.ofNat (group.toNat % 256)).toNat = group.toNat % 256 :=
        UInt8.toNat_ofNat_of_lt' (show _ < 256 by omega)
      rw [hhigh, hlow, Nat.div_add_mod', UInt16.ofNat_toNat]
    rw [hbytes, hbytes]
  next => cases hmapped

theorem Ipv6.parse_mapped (ipv4 : Ipv4) :
    (Ipv6.parse ("::ffff:".toList ++ ipv4.text)).map (·.val) =
      some [0, 0, 0, 0, 0, 0xffff, .ofNat (ipv4.a.toNat * 256 + ipv4.b.toNat),
        .ofNat (ipv4.c.toNat * 256 + ipv4.d.toNat)] := by
  have hsplit : splitDouble ("::ffff:".toList ++ ipv4.text) =
      some ([], "ffff:".toList ++ ipv4.text) := rfl
  have hpieces : colonPieces ("ffff:".toList ++ ipv4.text) = ["ffff".toList, ipv4.text] := by
    have hjoined : "ffff:".toList ++ ipv4.text = joined ':' ["ffff".toList, ipv4.text] := by
      simp [joined]
    rw [colonPieces, if_neg (by simp), hjoined]
    apply List.splitOn_intercalate
    · intro piece hpiece
      rcases List.mem_pair.mp hpiece with rfl | rfl
      · decide
      · exact ipv4.not_mem_text (by decide) (by decide)
    · simp
  have htail : tailGroups? ["ffff".toList, ipv4.text] =
      some [0xffff, .ofNat (ipv4.a.toNat * 256 + ipv4.b.toNat),
        .ofNat (ipv4.c.toNat * 256 + ipv4.d.toNat)] := by
    have hffff : hexGroup? "ffff".toList = some 0xffff := by decide
    rw [tailGroups?, hffff, tailGroups?, Ipv4.parse_text]
    · rfl
    · simp
  rw [Ipv6.parse, hsplit]
  simp only [hpieces, htail]
  rfl

/-- Every address is read back from its display. -/
theorem Ipv6.parse_text (ip : Ipv6) : Ipv6.parse ip.text = some ip := by
  obtain ⟨groups, hlength⟩ := ip
  unfold Ipv6.text
  cases hmapped : mapped? groups with
  | some ipv4 =>
      have hparse := Ipv6.parse_mapped ipv4
      rw [← mapped?_eq_some hmapped, Option.map_eq_some_iff] at hparse
      obtain ⟨ip, hip, hgroups⟩ := hparse
      rw [hip]
      exact congrArg some (Subtype.ext hgroups)
  | none =>
      dsimp only
      have hzeros := eq_of_longestZeros groups
      generalize longestZeros groups 0 ⟨0, 0⟩ ⟨0, 0⟩ = zeros at hzeros ⊢
      dsimp only at hzeros
      split
      next hlong =>
        generalize groups.take zeros.start = left at hzeros ⊢
        generalize groups.drop (zeros.start + zeros.len) = right at hzeros ⊢
        subst hzeros
        have hsplit : splitDouble (hexGroups left ++ ':' :: ':' :: hexGroups right) =
            some (hexGroups left, hexGroups right) := by
          rw [splitDouble_hexGroups]
          simp [splitDouble]
        simp only [List.length_append, List.length_replicate] at hlength
        have hcount : 8 - left.length - right.length = zeros.len := by omega
        simp [Ipv6.parse, hsplit, colonPieces_hexGroups, headGroups?_map, tailGroups?_map, hcount]
        omega
      next =>
        have hsplit : splitDouble (hexGroups groups) = none := by
          have hnone := splitDouble_hexGroups groups []
          rwa [List.append_nil] at hnone
        simp [Ipv6.parse, hsplit, colonPieces_hexGroups, tailGroups?_map, hlength]

/-! ### Characters of a text that is read -/

theorem Ipv4.eq_text_of_parse {text : List Char} {ip : Ipv4} (hparse : Ipv4.parse text = some ip) :
    text = ip.text := by
  have hoctet : ∀ {piece octet}, octet? piece = some octet →
      piece = Nat.toDigits 10 octet.toNat := by
    intro piece octet hpiece
    obtain ⟨n, -, hn⟩ := Option.bind_eq_some_iff.mp hpiece
    split at hn
    next hcanonical =>
      cases hn
      rw [UInt8.toNat_ofNat_of_lt' (show n < 256 from hcanonical.1)]
      exact hcanonical.2
    next => cases hn
  unfold Ipv4.parse at hparse
  split at hparse
  next a b c d hsplit =>
    simp only [Option.bind_eq_bind, Option.bind_eq_some_iff, Option.pure_def,
      Option.some.injEq] at hparse
    obtain ⟨a', ha, b', hb, c', hc, d', hd, rfl⟩ := hparse
    have hjoin : ['.'].intercalate (text.splitOn '.') = text := List.intercalate_splitOn '.'
    rw [← hjoin, hsplit, hoctet ha, hoctet hb, hoctet hc, hoctet hd]
    rfl
  next => cases hparse

theorem digitValue_lt_of_hexGroup? {piece : List Char} {group : UInt16}
    (hpiece : hexGroup? piece = some group) {c : Char} (hc : c ∈ piece) : digitValue c < 16 := by
  unfold hexGroup? at hpiece
  split at hpiece
  next =>
    obtain ⟨n, hn, -⟩ := Option.map_eq_some_iff.mp hpiece
    exact digitValue_lt_of_numeral? hn hc
  next => cases hpiece

theorem headGroups?_chars {pieces : List (List Char)} {groups : List UInt16}
    (hpieces : headGroups? pieces = some groups) {piece : List Char} (hpiece : piece ∈ pieces)
    {c : Char} (hc : c ∈ piece) : digitValue c < 16 := by
  unfold headGroups? at hpieces
  induction pieces generalizing groups with
  | nil => cases hpiece
  | cons first rest ih =>
      rw [List.mapM_cons] at hpieces
      simp only [Option.bind_eq_bind, Option.bind_eq_some_iff] at hpieces
      obtain ⟨group, hgroup, groups', hgroups, -⟩ := hpieces
      rcases List.mem_cons.mp hpiece with rfl | hrest
      · exact digitValue_lt_of_hexGroup? hgroup hc
      · exact ih hgroups hrest

theorem tailGroups?_chars {pieces : List (List Char)} {groups : List UInt16}
    (hpieces : tailGroups? pieces = some groups) {piece : List Char} (hpiece : piece ∈ pieces)
    {c : Char} (hc : c ∈ piece) : c = '.' ∨ digitValue c < 16 := by
  fun_induction tailGroups? pieces generalizing groups with
  | case1 => cases hpiece
  | case2 only ip hip =>
      rw [List.mem_singleton.mp hpiece, Ipv4.eq_text_of_parse hip] at hc
      by_contra hother
      rw [not_or] at hother
      refine ip.not_mem_text hother.1 ?_ hc
      have hle : digitValue c ≤ 16 := digitValue_le c
      omega
  | case3 only hip =>
      obtain ⟨group, hgroup, -⟩ := Option.map_eq_some_iff.mp hpieces
      rw [List.mem_singleton.mp hpiece] at hc
      exact .inr (digitValue_lt_of_hexGroup? hgroup hc)
  | case4 first rest _ ih =>
      simp only [Option.bind_eq_bind, Option.bind_eq_some_iff] at hpieces
      obtain ⟨group, hgroup, groups', hgroups, -⟩ := hpieces
      rcases List.mem_cons.mp hpiece with rfl | hrest
      · exact .inr (digitValue_lt_of_hexGroup? hgroup hc)
      · exact ih hgroups hrest

theorem mem_colonPieces {text : List Char} {c : Char} (hc : c ∈ text) :
    c = ':' ∨ ∃ piece ∈ colonPieces text, c ∈ piece := by
  by_contra hother
  simp only [not_or, not_exists, not_and] at hother
  have hne : text ≠ [] := List.ne_nil_of_mem hc
  rw [colonPieces, if_neg hne] at hother
  have hjoined := not_mem_joined hother.1 hother.2
  rw [joined, List.intercalate_splitOn] at hjoined
  exact hjoined hc

theorem eq_append_of_splitDouble {text before after : List Char}
    (hsplit : splitDouble text = some (before, after)) :
    text = before ++ ':' :: ':' :: after := by
  fun_induction splitDouble text generalizing before with
  | case1 => cases hsplit
  | case2 => cases hsplit; rfl
  | case3 c rest _ ih =>
      obtain ⟨⟨before', after'⟩, hrest, heq⟩ := Option.map_eq_some_iff.mp hsplit
      cases heq
      rw [ih hrest]
      rfl

theorem Ipv6.chars_of_parse {text : List Char} {ip : Ipv6} (hparse : Ipv6.parse text = some ip)
    {c : Char} (hc : c ∈ text) : c = '.' ∨ c = ':' ∨ digitValue c < 16 := by
  unfold Ipv6.parse at hparse
  split at hparse
  next =>
    obtain ⟨groups, hgroups, -⟩ := Option.bind_eq_some_iff.mp hparse
    rcases mem_colonPieces hc with hcolon | ⟨piece, hpiece, hc⟩
    · exact .inr (.inl hcolon)
    · exact (tailGroups?_chars hgroups hpiece hc).imp_right .inr
  next before after hsplit =>
    obtain ⟨left, hleft, hparse⟩ := Option.bind_eq_some_iff.mp hparse
    obtain ⟨right, hright, -⟩ := Option.bind_eq_some_iff.mp hparse
    rw [eq_append_of_splitDouble hsplit] at hc
    simp only [List.mem_append, List.mem_cons] at hc
    rcases hc with hc | hcolon | hcolon | hc
    · rcases mem_colonPieces hc with hcolon | ⟨piece, hpiece, hc⟩
      · exact .inr (.inl hcolon)
      · exact .inr (.inr (headGroups?_chars hleft hpiece hc))
    · exact .inr (.inl hcolon)
    · exact .inr (.inl hcolon)
    · rcases mem_colonPieces hc with hcolon | ⟨piece, hpiece, hc⟩
      · exact .inr (.inl hcolon)
      · exact (tailGroups?_chars hright hpiece hc).imp_right .inr

/-- Every IPv6 address is written with a colon. -/
theorem Ipv6.colon_mem_of_parse {text : List Char} {ip : Ipv6}
    (hparse : Ipv6.parse text = some ip) : ':' ∈ text := by
  unfold Ipv6.parse at hparse
  split at hparse
  next =>
    obtain ⟨groups, hgroups, hlength⟩ := Option.bind_eq_some_iff.mp hparse
    by_contra hcolon
    have hshort : groups.length ≤ 2 := by
      unfold colonPieces at hgroups
      split at hgroups
      next =>
        cases hgroups
        exact Nat.zero_le _
      next =>
        rw [List.splitOn_eq_singleton hcolon, tailGroups?] at hgroups
        split at hgroups
        next =>
          cases hgroups
          exact Nat.le_refl _
        next =>
          obtain ⟨group, -, rfl⟩ := Option.map_eq_some_iff.mp hgroups
          exact Nat.le_succ _
    split at hlength
    next height => omega
    next => cases hlength
  next before after hsplit =>
    rw [eq_append_of_splitDouble hsplit]
    simp

/-! ## Addresses of either family -/

inductive IpAddr
  | v4 (ip : Ipv4)
  | v6 (ip : Ipv6)
  deriving DecidableEq

def IpAddr.isIpv4 : IpAddr → Bool
  | .v4 _ => true
  | .v6 _ => false

def IpAddr.text : IpAddr → List Char
  | .v4 ip => ip.text
  | .v6 ip => ip.text

/-- Any text of an address. -/
def IpAddr.parse (text : List Char) : Option IpAddr :=
  match Ipv4.parse text with
  | some ip => some (.v4 ip)
  | none => (Ipv6.parse text).map .v6

theorem IpAddr.parse_eq_v4 {text : List Char} {ip : Ipv4} :
    IpAddr.parse text = some (.v4 ip) ↔ text = ip.text := by
  unfold IpAddr.parse
  constructor
  · intro hparse
    split at hparse
    next hip =>
      cases hparse
      exact Ipv4.eq_text_of_parse hip
    next =>
      obtain ⟨_, -, hv6⟩ := Option.map_eq_some_iff.mp hparse
      cases hv6
  · rintro rfl
    rw [Ipv4.parse_text]

theorem IpAddr.parse_eq_v6 {text : List Char} {ip : Ipv6} :
    IpAddr.parse text = some (.v6 ip) ↔ Ipv6.parse text = some ip := by
  unfold IpAddr.parse
  constructor
  · intro hparse
    split at hparse
    next => cases hparse
    next =>
      obtain ⟨_, hip, hv6⟩ := Option.map_eq_some_iff.mp hparse
      cases hv6
      exact hip
  · intro hparse
    cases hv4 : Ipv4.parse text with
    | some ipv4 =>
        -- a dotted text has no colon
        have hcolon := Ipv6.colon_mem_of_parse hparse
        rw [Ipv4.eq_text_of_parse hv4] at hcolon
        exact absurd hcolon (ipv4.not_mem_text (by decide) (by decide))
    | none => rw [hparse]; rfl

/-- Every address is read back from its display. -/
theorem IpAddr.parse_text (ip : IpAddr) : IpAddr.parse ip.text = some ip := by
  cases ip with
  | v4 ip => exact IpAddr.parse_eq_v4.mpr rfl
  | v6 ip => exact IpAddr.parse_eq_v6.mpr ip.parse_text

/-- An address is written with hexadecimal digits, dots and colons. -/
theorem IpAddr.not_mem_of_parse {text : List Char} {address : IpAddr}
    (hparse : IpAddr.parse text = some address) {c : Char} (hdot : c ≠ '.') (hcolon : c ≠ ':')
    (hc : digitValue c = 16) : c ∉ text := by
  cases address with
  | v4 ip =>
      rw [IpAddr.parse_eq_v4.mp hparse]
      exact ip.not_mem_text hdot hc
  | v6 ip =>
      intro hmem
      rcases Ipv6.chars_of_parse (IpAddr.parse_eq_v6.mp hparse) hmem with h | h | h
      · exact hdot h
      · exact hcolon h
      · omega

theorem IpAddr.ne_nil_of_parse {text : List Char} {address : IpAddr}
    (hparse : IpAddr.parse text = some address) : text ≠ [] := by
  rintro rfl
  cases hparse

/-- `IpAddr::to_string`. -/
def IpAddr.display (ip : IpAddr) : String := .ofList ip.text

end GpuCluster.Foundation
