import GpuCluster.Foundation.IpAddr
import Mathlib.Algebra.GroupWithZero.Nat

/-! # UUIDs as texts

A UUID is 32 hexadecimal digits. Its text has them in lower case and in five groups,
with hyphens between the groups; it is read back from this text in either case.
-/

namespace GpuCluster.Foundation

/-! ## Digits in groups -/

def hexChar (digit : Fin 16) : Char := digit.val.digitChar

def hexDigit? (c : Char) : Option (Fin 16) :=
  if h : digitValue c < 16 then some ⟨digitValue c, h⟩ else none

theorem hexDigit?_hexChar (digit : Fin 16) : hexDigit? (hexChar digit) = some digit := by
  have hvalue := digitValue_digitChar digit.isLt
  simp only [hexDigit?, hexChar, hvalue, digit.isLt, dif_pos, Fin.eta]

theorem mapM_hexDigit? (digits : List (Fin 16)) :
    (digits.map hexChar).mapM hexDigit? = some digits := by
  induction digits with
  | nil => rfl
  | cons digit rest ih =>
      rw [List.map_cons, List.mapM_cons, hexDigit?_hexChar, ih]
      rfl

/-- Groups of these sizes, and what is left as the last one. -/
def groupText : List ℕ → List (Fin 16) → List Char
  | [], digits => digits.map hexChar
  | size :: rest, digits =>
      (digits.take size).map hexChar ++ '-' :: groupText rest (digits.drop size)

def groupDigits? : List ℕ → List Char → Option (List (Fin 16))
  | [], chars => chars.mapM hexDigit?
  | size :: rest, chars =>
      match chars.drop size with
      | '-' :: later => do
          let group ← (chars.take size).mapM hexDigit?
          let others ← groupDigits? rest later
          return group ++ others
      | _ => none

theorem groupDigits?_groupText {sizes : List ℕ} {digits : List (Fin 16)}
    (hsizes : sizes.sum ≤ digits.length) :
    groupDigits? sizes (groupText sizes digits) = some digits := by
  induction sizes generalizing digits with
  | nil => exact mapM_hexDigit? digits
  | cons size rest ih =>
      rw [List.sum_cons] at hsizes
      have hgroup : ((digits.take size).map hexChar).length = size := by
        rw [List.length_map, List.length_take]
        omega
      have hlater : rest.sum ≤ (digits.drop size).length := by
        rw [List.length_drop]
        omega
      let later := '-' :: groupText rest (digits.drop size)
      have hdrop : ((digits.take size).map hexChar ++ later).drop size = later :=
        List.drop_left' hgroup
      have htake : ((digits.take size).map hexChar ++ later).take size =
          (digits.take size).map hexChar :=
        List.take_left' hgroup
      simp only [groupDigits?, groupText, later, hdrop, htake, mapM_hexDigit?, ih hlater,
        Option.bind_eq_bind, Option.bind_some, List.take_append_drop, Option.pure_def]

theorem mem_groupText {sizes : List ℕ} {digits : List (Fin 16)} {c : Char}
    (hc : c ∈ groupText sizes digits) : c = '-' ∨ ∃ digit, c = hexChar digit := by
  induction sizes generalizing digits with
  | nil =>
      obtain ⟨digit, -, rfl⟩ := List.mem_map.mp hc
      exact .inr ⟨digit, rfl⟩
  | cons size rest ih =>
      rcases List.mem_append.mp hc with hgroup | hc
      · obtain ⟨digit, -, rfl⟩ := List.mem_map.mp hgroup
        exact .inr ⟨digit, rfl⟩
      · rcases List.mem_cons.mp hc with rfl | hlater
        · exact .inl rfl
        · exact ih hlater

/-! ## UUIDs -/

structure UuidDigits where
  digits : List (Fin 16)
  length : digits.length = 32
  deriving DecidableEq

namespace UuidDigits

/-- The first four of five groups. -/
def groups : List ℕ := [8, 4, 4, 4]

def text (uuid : UuidDigits) : String := .ofList (groupText groups uuid.digits)

/-- The hyphenated text, in either case. -/
def parse (text : String) : Option UuidDigits :=
  (groupDigits? groups text.toList).bind fun digits =>
    if h : digits.length = 32 then some ⟨digits, h⟩ else none

theorem parse_text (uuid : UuidDigits) : parse uuid.text = some uuid := by
  have hgroups : groups.sum ≤ uuid.digits.length := by
    rw [uuid.length]
    decide
  rw [parse, text, String.toList_ofList, groupDigits?_groupText hgroups, Option.bind_some,
    dif_pos uuid.length]

theorem not_mem_text (uuid : UuidDigits) {c : Char} (hhyphen : c ≠ '-')
    (hdigit : ∀ digit, c ≠ hexChar digit) : c ∉ uuid.text.toList := by
  rw [text, String.toList_ofList]
  intro hc
  rcases mem_groupText hc with rfl | ⟨digit, rfl⟩
  · exact hhyphen rfl
  · exact hdigit digit rfl

end UuidDigits

end GpuCluster.Foundation
