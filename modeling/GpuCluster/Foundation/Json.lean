import GpuCluster.Foundation.FloatFormat
import Mathlib.Data.List.Basic

/-! # JSON values and derived decoders

JSON documents in memory, the insertion and lookup operations on objects, and
the decoders that a derived deserializer is assembled from: scalars with their
range checks, optional values, sequences, unit enums and structs whose missing
fields fall back to a default. A decoder answers `none` where deserialization
reports an error; the error's text is not modelled.
-/

namespace GpuCluster.Foundation

/-- The three internal number representations. Negative integers are never
stored as `posInt`. -/
inductive JsonNumber
  | posInt (n : UInt64)
  | negInt (n : Int64)
  | float (x : Float)
  deriving DecidableEq

inductive Json
  | null
  | bool (b : Bool)
  | number (n : JsonNumber)
  | string (s : String)
  | array (items : List Json)
  | object (fields : List (String × Json))

namespace Json

/-- The value an object holds under a key; anything else holds nothing. -/
def get? : Json → String → Option Json
  | .object fields, key => fields.lookup key
  | _, _ => none

def asStr? : Json → Option String
  | .string s => some s
  | _ => none

def asBool? : Json → Option Bool
  | .bool b => some b
  | _ => none

def asArray? : Json → Option (List Json)
  | .array items => some items
  | _ => none

/-- An integer in the signed range. -/
def asI64? : Json → Option Int64
  | .number (.posInt n) => if n.toNat < 2 ^ 63 then some (.ofNat n.toNat) else none
  | .number (.negInt n) => some n
  | _ => none

/-- The text an object holds under a key. -/
def str? (document : Json) (key : String) : Option String := (document.get? key).bind asStr?

theorem str?_eq_some {document : Json} {key s : String} :
    document.str? key = some s ↔ document.get? key = some (.string s) := by
  rw [str?, Option.bind_eq_some_iff]
  constructor
  · intro ⟨value, hget, hvalue⟩
    cases value with
    | string text =>
        cases hvalue
        exact hget
    | _ => cases hvalue
  · intro hget
    exact ⟨_, hget, rfl⟩

/-- Insert into an object, replacing the value the key had. Documents that are
not objects are left alone. -/
def insert : Json → String → Json → Json
  | .object fields, key, value =>
      .object ((key, value) :: fields.filter fun field => field.1 != key)
  | other, _, _ => other

def ofU32 (n : UInt32) : Json := .number (.posInt n.toUInt64)

def ofU64 (n : UInt64) : Json := .number (.posInt n)

def ofI32 (n : Int32) : Json :=
  if n < 0 then .number (.negInt n.toInt64) else .number (.posInt n.toInt64.toUInt64)

def ofI64 (n : Int64) : Json :=
  if n < 0 then .number (.negInt n) else .number (.posInt n.toUInt64)

/-- Floats are stored in double precision; a number JSON cannot express becomes `null`. -/
def ofF32 (x : Float32) : Json :=
  if x.isFinite then .number (.float (FloatFormat.f32ToF64 x)) else .null

def ofStrings (items : List String) : Json := .array (items.map .string)

/-- An absent value is written as `null`. -/
def ofOption {α : Type} (encode : α → Json) : Option α → Json
  | none => .null
  | some value => encode value

/-- The entry of a field that is left out when it has no value. -/
def unlessNone {α : Type} (key : String) (encode : α → Json) (value : Option α) :
    List (String × Json) :=
  (value.map fun held => (key, encode held)).toList

/-- An optional text reads back as it was written. -/
@[simp] theorem asStr?_ofOption (value : Option String) :
    (ofOption .string value).asStr? = value := by
  cases value <;> rfl

@[simp] theorem lookup_cons_ne {key name : String} (hne : key ≠ name) (value : Json)
    (rest : List (String × Json)) : ((name, value) :: rest).lookup key = rest.lookup key := by
  have hkey : (key == name) = false := by simpa using hne
  simp [List.lookup_cons, hkey]

@[simp] theorem lookup_unlessNone_self {α : Type} (key : String) (encode : α → Json)
    (value : Option α) : (unlessNone key encode value).lookup key = value.map encode := by
  cases value <;> simp [unlessNone]

@[simp] theorem lookup_unlessNone_ne {α : Type} {name key : String} (hne : name ≠ key)
    (encode : α → Json) (value : Option α) : (unlessNone key encode value).lookup name = none := by
  cases value <;> simp [unlessNone, hne]

theorem lookup_filter_ne {name key : String} (hne : name ≠ key) (fields : List (String × Json)) :
    (fields.filter fun field => field.1 != key).lookup name = fields.lookup name := by
  induction fields with
  | nil => rfl
  | cons field rest ih =>
      obtain ⟨other, stored⟩ := field
      by_cases hother : other = key
      · subst hother
        rw [List.filter_cons_of_neg (by simp), lookup_cons_ne hne, ih]
      · rw [List.filter_cons_of_pos (by simpa using hother), List.lookup_cons,
          List.lookup_cons, ih]

theorem get?_insert_ne {name key : String} (hne : name ≠ key) (document value : Json) :
    (document.insert key value).get? name = document.get? name := by
  cases document with
  | object fields => rw [insert, get?, get?, lookup_cons_ne hne, lookup_filter_ne hne]
  | _ => rfl

/-- Only an object holds anything, so one that does takes the insertion. -/
theorem get?_insert_self {document : Json} {name : String} {held : Json}
    (hheld : document.get? name = some held) (key : String) (value : Json) :
    (document.insert key value).get? key = some value := by
  cases document with
  | object fields => simp [insert, get?]
  | _ => cases hheld

end Json

/-- A derived deserializer; `none` is a deserialization error. -/
abbrev Decoder (α : Type) := Json → Option α

namespace Decoder

def string : Decoder String
  | .string s => some s
  | _ => none

def bool : Decoder Bool
  | .bool b => some b
  | _ => none

def u64 : Decoder UInt64
  | .number (.posInt n) => some n
  | _ => none

/-- Integers out of range are refused, not truncated. -/
def u32 : Decoder UInt32
  | .number (.posInt n) => if n.toNat < 2 ^ 32 then some n.toUInt32 else none
  | _ => none

def i32 : Decoder Int32
  | .number (.posInt n) => if n.toNat < 2 ^ 31 then some (.ofNat n.toNat) else none
  | .number (.negInt n) => if -2 ^ 31 ≤ n.toInt then some n.toInt32 else none
  | _ => none

/-- Any number is accepted and rounded to single precision. -/
def f32 : Decoder Float32
  | .number (.posInt n) => some n.toFloat32
  | .number (.negInt n) => some n.toFloat32
  | .number (.float x) => some (FloatFormat.f64ToF32 x)
  | _ => none

def option {α : Type} (decode : Decoder α) : Decoder (Option α)
  | .null => some none
  | value => (decode value).map some

def seq {α : Type} (decode : Decoder α) : Decoder (List α)
  | .array items => items.mapM decode
  | _ => none

/-- An enum of unit variants: the variant's name, or an object whose only key
is that name with the value `null`. -/
def unitEnum {α : Type} (variants : List (String × α)) : Decoder α
  | .string name => variants.lookup name
  | .object [(name, .null)] => variants.lookup name
  | _ => none

/-- How a derived struct visitor finds its fields: by name in an object, by
position in an array with no surplus elements. -/
def fieldsOf (arity : Nat) : Json → Option (String → Nat → Option Json)
  | .object fields => some fun name _ => fields.lookup name
  | .array items => if items.length ≤ arity then some fun _ position => items[position]? else none
  | _ => none

/-- How the visitor of a struct without defaults finds its fields: an array has them all,
and no name of one may occur twice in an object. -/
def exactFieldsOf (names : List String) : Json → Option (String → Nat → Option Json)
  | .object fields =>
      if ((fields.map Prod.fst).filter (· ∈ names)).Nodup then
        some fun name _ => fields.lookup name
      else none
  | .array items =>
      if items.length = names.length then some fun _ position => items[position]? else none
  | _ => none

/-- A field that falls back to its default when it is missing. -/
def orDefault {α : Type} (default : α) (decode : Decoder α) : Option Json → Option α
  | none => some default
  | some value => decode value

@[simp] theorem fieldsOf_object (arity : Nat) (fields : List (String × Json)) :
    fieldsOf arity (.object fields) = some fun name _ => fields.lookup name := rfl

@[simp] theorem orDefault_some {α : Type} (default : α) (decode : Decoder α) (value : Json) :
    orDefault default decode (some value) = decode value := rfl

/-- A key that is left out when there is no text for it. -/
theorem orDefault_string {found : Option Json} {value : Option String}
    (hfound : found = value.map Json.string) :
    orDefault none (option string) found = some value := by
  subst hfound
  cases value <;> rfl

/-- A key that is written as `null` when there is no text for it. -/
theorem orDefault_ofOption {found : Option Json} {value : Option String}
    (hfound : found = some (.ofOption Json.string value)) :
    orDefault none (option string) found = some value := by
  subst hfound
  cases value <;> rfl

@[simp] theorem string_string (s : String) : string (.string s) = some s := rfl

@[simp] theorem bool_bool (b : Bool) : bool (.bool b) = some b := rfl

@[simp] theorem u64_ofU64 (n : UInt64) : u64 (.ofU64 n) = some n := rfl

@[simp] theorem u32_ofU32 (n : UInt32) : u32 (.ofU32 n) = some n := by
  have hlt : n.toNat < 2 ^ 32 := n.toNat_lt
  simp only [Json.ofU32, u32, UInt32.toNat_toUInt64, if_pos hlt, UInt32.toUInt32_toUInt64]

@[simp] theorem i32_ofI32 (n : Int32) : i32 (.ofI32 n) = some n := by
  have hlow : -2 ^ 31 ≤ n.toInt := n.le_toInt
  have hhigh : n.toInt < 2 ^ 31 := n.toInt_lt
  have hint : n.toInt64.toInt = n.toInt := n.toInt_toInt64
  unfold Json.ofI32
  split
  next => simp only [i32, hint, if_pos hlow, Int32.toInt32_toInt64]
  next hpos =>
    have hzero : 0 ≤ n.toInt := by
      have hle := Int32.le_iff_toInt_le.mp (Int32.not_lt.mp hpos)
      simpa using hle
    -- a number that is not negative has the same bits with and without a sign
    have hnat : n.toInt64.toUInt64.toNat = n.toInt.toNat := by
      change n.toInt64.toBitVec.toInt = n.toInt at hint
      have hbits := n.toInt64.toBitVec.isLt
      rw [BitVec.toInt_eq_toNat_cond] at hint
      change n.toInt64.toBitVec.toNat = n.toInt.toNat
      split at hint <;> omega
    have hlt : n.toInt.toNat < 2 ^ 31 := by omega
    simp only [i32, hnat, if_pos hlt, Option.some.injEq]
    apply Int32.toInt.inj
    rw [Int32.toInt_ofNat_of_lt hlt, Int.toNat_of_nonneg hzero]

theorem f32_ofF32 (x : Float32) (hfinite : x.isFinite) : f32 (.ofF32 x) = some x := by
  rw [Json.ofF32, if_pos hfinite, f32, FloatFormat.f64ToF32_f32ToF64 x hfinite]

theorem f32_ofF32_none (x : Float32) (hinfinite : ¬ x.isFinite) : f32 (.ofF32 x) = none := by
  rw [Json.ofF32, if_neg hinfinite]
  rfl

theorem seq_map {α β : Type} (decode : Decoder β) (encode : α → Json) (image : α → β)
    (items : List α) (hitems : ∀ item ∈ items, decode (encode item) = some (image item)) :
    seq decode (.array (items.map encode)) = some (items.map image) := by
  simp only [seq]
  induction items with
  | nil => rfl
  | cons item rest ih =>
      have hhead := hitems item (List.mem_cons_self ..)
      have htail := ih fun other hother => hitems other (List.mem_cons_of_mem _ hother)
      simp [hhead, htail]

/-- One element that is refused has the whole sequence refused. -/
theorem seq_map_none {α β : Type} (decode : Decoder β) (encode : α → Json) {items : List α}
    {item : α} (hitem : item ∈ items) (hnone : decode (encode item) = none) :
    seq decode (.array (items.map encode)) = none := by
  simp only [seq]
  induction items with
  | nil => cases hitem
  | cons head rest ih =>
      rw [List.map_cons, List.mapM_cons]
      rcases List.mem_cons.mp hitem with rfl | hrest
      · rw [hnone]
        rfl
      · rw [ih hrest]
        cases decode (encode head) <;> rfl

@[simp] theorem seq_ofStrings (items : List String) :
    seq string (.ofStrings items) = some items := by
  have hmap := seq_map string Json.string id items fun _ _ => rfl
  rwa [List.map_id] at hmap

/-- Optional records survive when the encoder never writes `null` for a present value. -/
theorem option_ofOption {α β : Type} (decode : Decoder β) (encode : α → Json) (image : α → β)
    (value : Option α) (hnull : ∀ item, encode item ≠ .null)
    (hvalue : ∀ item ∈ value, decode (encode item) = some (image item)) :
    option decode (.ofOption encode value) = some (value.map image) := by
  cases value with
  | none => rfl
  | some item =>
      have hdecode := hvalue item rfl
      cases hencode : encode item with
      | null => exact absurd hencode (hnull item)
      | _ => rw [hencode] at hdecode; simp [Json.ofOption, hencode, option, hdecode]

/-- An optional field survives when it is left out for an absent value. -/
theorem orDefault_map {α : Type} (decode : Decoder α) (encode : α → Json) (value : Option α)
    (hnull : ∀ item, encode item ≠ .null)
    (hvalue : ∀ item ∈ value, decode (encode item) = some item) :
    orDefault none (option decode) (value.map encode) = some value := by
  cases value with
  | none => rfl
  | some item =>
      have hsome := option_ofOption decode encode id (some item) hnull hvalue
      rwa [Option.map_id] at hsome

theorem orDefault_ofOption_i32 (value : Option Int32) :
    orDefault none (option i32) (some (.ofOption .ofI32 value)) = some value := by
  have hnull : ∀ n, Json.ofI32 n ≠ .null := by
    intro n
    unfold Json.ofI32
    split <;> exact fun h => by cases h
  have hvalue := option_ofOption i32 Json.ofI32 id value hnull fun n _ => i32_ofI32 n
  rwa [Option.map_id] at hvalue

end Decoder

end GpuCluster.Foundation
