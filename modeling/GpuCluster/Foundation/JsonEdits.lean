import GpuCluster.Foundation.Json
import Mathlib.Logic.Relation

/-! # Documents written by another version

A reader knows some of a document's keys; its `Shape` says which ones, and what
it knows inside their values. An edit deletes a key or adds one the reader does
not know, at any depth. `Edits` is any number of edits. What a derived decoder
makes of an edited document is determined key by key: a key that is still
there decodes as before, a deleted one gives the field's default.
-/

namespace GpuCluster.Foundation

namespace Json

/-- What a reader knows of a document: a value it takes as a whole, an object
with the keys it looks for, or an array of such documents. -/
inductive Shape
  | value
  | record (known : List (String × Shape))
  | items (item : Shape)

/-- Remove a key from an object. Other documents are left alone. -/
def erase : Json → String → Json
  | .object fields, key => .object (fields.filter fun field => field.1 != key)
  | other, _ => other

@[simp] theorem get?_erase_self (document : Json) (key : String) :
    (document.erase key).get? key = none := by
  cases document with
  | object fields =>
      simp only [erase, get?, List.lookup_eq_none_iff, List.mem_filter]
      intro field hfield
      have hne : field.1 ≠ key := bne_iff_ne.mp hfield.2
      exact bne_iff_ne.mpr hne.symm
  | _ => rfl

theorem get?_erase_ne {name key : String} (hne : name ≠ key) (document : Json) :
    (document.erase key).get? name = document.get? name := by
  cases document with
  | object fields => rw [erase, get?, get?, lookup_filter_ne hne]
  | _ => rfl

/-- One edit. Unknown keys may appear with any value; known ones may only be
deleted, or be edited inside. -/
inductive Edit : Shape → Json → Json → Prop
  | delete (known : List (String × Shape)) (document : Json) (key : String) :
      Edit (.record known) document (document.erase key)
  | add {known : List (String × Shape)} {key : String} (hunknown : known.lookup key = none)
      (document value : Json) : Edit (.record known) document (document.insert key value)
  | inside {known : List (String × Shape)} {key : String} {shape : Shape}
      {document old new : Json} (hknown : known.lookup key = some shape)
      (hold : document.get? key = some old) (hedit : Edit shape old new) :
      Edit (.record known) document (document.insert key new)
  | item {shape : Shape} {old new : Json} (before after : List Json)
      (hedit : Edit shape old new) :
      Edit (.items shape) (.array (before ++ old :: after)) (.array (before ++ new :: after))

abbrev Edits (shape : Shape) : Json → Json → Prop := Relation.ReflTransGen (Edit shape)

namespace Edits

variable {known : List (String × Shape)} {shape : Shape} {document edited : Json}

/-- A value that is taken as a whole has no keys to edit. -/
theorem eq_of_value (hedits : Edits .value document edited) : edited = document := by
  induction hedits with
  | refl => rfl
  | tail _ hedit _ => cases hedit

theorem eq_null (hedits : Edits (.record known) .null edited) : edited = .null := by
  induction hedits with
  | refl => rfl
  | tail _ hedit ih =>
      subst ih
      cases hedit <;> rfl

theorem isObject {fields : List (String × Json)}
    (hedits : Edits (.record known) (.object fields) edited) :
    ∃ fields', edited = .object fields' := by
  induction hedits with
  | refl => exact ⟨fields, rfl⟩
  | tail _ hedit ih =>
      obtain ⟨fields', rfl⟩ := ih
      cases hedit <;> exact ⟨_, rfl⟩

/-- A known key is gone, or holds an edit of what it held. -/
theorem get? (hedits : Edits (.record known) document edited) {key : String}
    (hknown : known.lookup key = some shape) :
    edited.get? key = none ∨
      ∃ old new, document.get? key = some old ∧ edited.get? key = some new ∧
        Edits shape old new := by
  induction hedits with
  | refl =>
      cases hfound : document.get? key with
      | none => exact .inl rfl
      | some old => exact .inr ⟨old, old, rfl, rfl, .refl⟩
  | tail _ hedit ih =>
      cases hedit with
      | delete _ _ gone =>
          by_cases hsame : key = gone
          · subst hsame
            exact .inl (get?_erase_self ..)
          · rwa [get?_erase_ne hsame]
      | @add _ added hunknown _ value =>
          have hne : key ≠ added := by
            rintro rfl
            rw [hknown] at hunknown
            cases hunknown
          rwa [get?_insert_ne hne]
      | @inside _ changed inner _ old new hinner hold hinside =>
          by_cases hsame : key = changed
          · subst hsame
            rw [hknown] at hinner
            cases hinner
            rcases ih with hgone | ⟨first, middle, hfirst, hmiddle, hedits⟩
            · rw [hgone] at hold
              cases hold
            · rw [hmiddle] at hold
              cases hold
              exact .inr ⟨first, new, hfirst, get?_insert_self hmiddle .., hedits.tail hinside⟩
          · rwa [get?_insert_ne hsame]

/-- A known key is never added. -/
theorem get?_eq_none (hedits : Edits (.record known) document edited) {key : String}
    (hknown : known.lookup key = some shape) (habsent : document.get? key = none) :
    edited.get? key = none := by
  rcases hedits.get? hknown with hgone | ⟨old, _, hold, -⟩
  · exact hgone
  · rw [habsent] at hold
    cases hold

theorem forall₂_replace {α β : Type} {related : α → β → Prop} {old new : β}
    (hrelated : ∀ a, related a old → related a new) {items : List α} (before after : List β)
    (hitems : List.Forall₂ related items (before ++ old :: after)) :
    List.Forall₂ related items (before ++ new :: after) := by
  induction before generalizing items with
  | nil =>
      cases hitems with
      | cons hold hafter => exact .cons (hrelated _ hold) hafter
  | cons head before ih =>
      cases hitems with
      | cons hhead hrest => exact .cons hhead (ih hrest)

/-- Arrays are edited item by item. -/
theorem forall₂ {items : List Json} (hedits : Edits (.items shape) (.array items) edited) :
    ∃ items', edited = .array items' ∧ List.Forall₂ (Edits shape) items items' := by
  induction hedits with
  | refl => exact ⟨items, rfl, List.forall₂_same.mpr fun _ _ => .refl⟩
  | tail _ hedit ih =>
      obtain ⟨items', rfl, hitems⟩ := ih
      cases hedit with
      | @item _ old new before after hedit =>
          refine ⟨_, rfl, ?_⟩
          exact forall₂_replace (fun _ hold => hold.tail hedit) before after hitems

end Edits

/-- A field as a reader of the document has it: the default once the key is
gone, else what it makes of the value that is there. -/
def keep {α : Type} (document : Json) (key : String) (default : α) (inside : Json → α) : α :=
  match document.get? key with
  | none => default
  | some found => inside found

/-- The items of an array, each as a reader of its edited document has it. -/
def keepItems {α : Type} (document : Json) (inside : α → Json → α) (items : List α) : List α :=
  match document with
  | .array documents => List.zipWith inside items documents
  | _ => []

namespace Edits

open Decoder

variable {known : List (String × Shape)} {shape : Shape} {document edited : Json} {α : Type}

theorem fieldsOf_eq {fields : List (String × Json)}
    (hedits : Edits (.record known) (.object fields) edited) (arity : Nat) :
    fieldsOf arity edited = some fun name _ => edited.get? name := by
  obtain ⟨fields', rfl⟩ := hedits.isObject
  rfl

/-- A field with a default, whatever happened to the document: if its decoder
copes with edits of the value, the field copes with edits of the document. -/
theorem field (hedits : Edits (.record known) document edited) (key : String)
    (hknown : known.lookup key = some shape) {written : Json}
    (hwritten : document.get? key = some written) {decode : Decoder α} {inside : Json → α}
    (hdecode : ∀ new, Edits shape written new → decode new = some (inside new)) (default : α) :
    orDefault default decode (edited.get? key) = some (edited.keep key default inside) := by
  unfold keep
  rcases hedits.get? hknown with hgone | ⟨old, new, hold, hnew, hinside⟩
  · rw [hgone]
    rfl
  · rw [hnew]
    rw [hwritten] at hold
    cases hold
    exact hdecode new hinside

/-- A field whose value has no keys. -/
theorem leaf (hedits : Edits (.record known) document edited) {key : String}
    (hknown : known.lookup key = some .value) {written : Json}
    (hwritten : document.get? key = some written) {decode : Decoder α} {value : α}
    (hdecode : decode written = some value) (default : α) :
    orDefault default decode (edited.get? key) =
      some (edited.keep key default fun _ => value) := by
  refine hedits.field key hknown hwritten (fun new hnew => ?_) default
  rw [hnew.eq_of_value, hdecode]

/-- A field the writer never writes. -/
theorem missing (hedits : Edits (.record known) document edited) {key : String}
    (hknown : known.lookup key = some shape) (habsent : document.get? key = none)
    (decode : Decoder α) (default : α) :
    orDefault default decode (edited.get? key) = some default := by
  rw [hedits.get?_eq_none hknown habsent]
  rfl

/-- An optional record, written as `null` when it is absent. -/
theorem option {β : Type} {decode : Decoder β} {encode : α → Json} {inside : α → Json → β}
    {value : Option α} (hobject : ∀ item, ∃ fields, encode item = .object fields)
    (hdecode : ∀ item ∈ value, ∀ new, Edits (.record known) (encode item) new →
      decode new = some (inside item new)) {new : Json}
    (hedits : Edits (.record known) (.ofOption encode value) new) :
    Decoder.option decode new = some (value.map (inside · new)) := by
  cases value with
  | none =>
      rw [hedits.eq_null]
      rfl
  | some item =>
      have hnew := hdecode item rfl new hedits
      obtain ⟨fields, hfields⟩ := hobject item
      rw [ofOption, hfields] at hedits
      obtain ⟨fields', rfl⟩ := hedits.isObject
      rw [Decoder.option, hnew]
      · rfl
      · exact fun h => by cases h

/-- An array of records. -/
theorem seq {β : Type} {decode : Decoder β} {encode : α → Json} {image : α → β}
    {inside : β → Json → β} (items : List α)
    (hdecode : ∀ item ∈ items, ∀ new, Edits shape (encode item) new →
      decode new = some (inside (image item) new)) {new : Json}
    (hedits : Edits (.items shape) (.array (items.map encode)) new) :
    Decoder.seq decode new = some (new.keepItems inside (items.map image)) := by
  obtain ⟨documents, rfl, hdocuments⟩ := hedits.forall₂
  simp only [Decoder.seq, keepItems]
  clear hedits
  induction items generalizing documents with
  | nil =>
      cases hdocuments
      rfl
  | cons item rest ih =>
      cases hdocuments with
      | cons hhead hrest =>
          have hitem := hdecode item (List.mem_cons_self ..) _ hhead
          have htail := ih (fun other hother => hdecode other (List.mem_cons_of_mem _ hother)) _
            hrest
          rw [List.mapM_cons, hitem, htail]
          rfl

end Edits

end Json

end GpuCluster.Foundation
