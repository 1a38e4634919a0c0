import GpuCluster.Mgmt.ApiKeys

/-! # Partial updates of API keys

A body names the columns to change. A column that is left out and a column that is
`null` are different to the caller, and the decoder of an optional field takes them
for the same.
-/

namespace GpuCluster.Mgmt

open Common Foundation

/-! ## The body -/

def patchColumns : List String := ["name", "scope", "ttl_secs"]

/-- What a body says of a column. -/
def named (body : Json) (column : String) (position : ℕ) : Option Json :=
  (Decoder.exactFieldsOf patchColumns body).bind fun field => field column position

open Decoder in
/-- Missing fields and `null` are both read as absent. -/
def UpdateKeyRequest.decode : Decoder UpdateKeyRequest := fun body => do
  let field ← exactFieldsOf patchColumns body
  return {
    name := ← orDefault none (option string) (field "name" 0)
    scope := ← orDefault none (option string) (field "scope" 1)
    ttlSecs := ← orDefault none (option (option Json.asI64?)) (field "ttl_secs" 2) }

/-- `PATCH /api/v1/keys/{id}`. A body that is not decoded does not reach the handler, and
the database refuses the statement if the name has a NUL. -/
def KeyStore.patch (s : KeyStore) (now : ℤ) (id : String) (body : Json) (audited : Bool) :
    KeyStore :=
  match UpdateKeyRequest.decode body with
  | some req => if req.name.all storable then s.update now id req audited else s
  | none => s

/-! ## What is promised -/

/-- A body that is malformed, has a blank name or an unknown scope. -/
def RejectedPatch (body : Json) : Prop :=
  UpdateKeyRequest.decode body = none ∨
    (∃ name, (named body "name" 0).bind Json.asStr? = some name ∧ trim name = "") ∨
    ∃ scope, (named body "scope" 1).bind Json.asStr? = some scope ∧
      scope ∉ ["inference", "admin"]

/-- The row changes in the columns that the body names. -/
structure ChangesNamed (body : Json) (now : ℤ) (before after : ApiKeyRow) : Prop where
  name : after.name = ((named body "name" 0).bind Json.asStr?).getD before.name
  scope : after.scope = ((named body "scope" 1).bind Json.asStr?).getD before.scope
  kept : named body "ttl_secs" 2 = none → after.expiresAt = before.expiresAt
  cleared : named body "ttl_secs" 2 = some .null → after.expiresAt = none
  replaced : ∀ n : Int64, (named body "ttl_secs" 2).bind Json.asI64? = some n → 0 < n →
    after.expiresAt = some (now + seconds (max 60 (min n.toInt (365 * 24 * 3600))))
  others : after = { before with
    name := after.name
    scope := after.scope
    expiresAt := after.expiresAt }

structure PatchesNamed (s : KeyStore) (now : ℤ) (id : String) (body : Json) (after : KeyStore) :
    Prop where
  rejected : RejectedPatch body → after = s
  missing : s.keys.get id = none → after = s
  others : ∀ other ≠ id, after.keys.get other = s.keys.get other
  changes : ¬RejectedPatch body → ∀ row, s.keys.get id = some row →
    ∃ later, after.keys.get id = some later ∧ ChangesNamed body now row later

/-- The body does not clear an expiry, and its name has no NUL. -/
structure Patchable (body : Json) (row : ApiKeyRow) : Prop where
  expiry : named body "ttl_secs" 2 = some .null → row.expiresAt = none
  name : ∀ name, (named body "name" 0).bind Json.asStr? = some name → storable name

/-! ## Reading a body -/

namespace UpdateKeyRequest

variable {body : Json} {req : UpdateKeyRequest}

theorem text_of_orDefault {found : Option Json} {text : Option String}
    (hfound : Decoder.orDefault none (Decoder.option Decoder.string) found = some text) :
    text = found.bind Json.asStr? := by
  cases found with
  | none =>
      cases hfound
      rfl
  | some value =>
      cases value with
      | null | string =>
          cases hfound
          rfl
      | _ => cases hfound

/-- What the decoder makes of a lifetime. -/
theorem ttl_of_orDefault {found : Option Json} {ttlSecs : Option (Option Int64)}
    (hfound : Decoder.orDefault none (Decoder.option (Decoder.option Json.asI64?)) found =
      some ttlSecs) :
    (found = none ∧ ttlSecs = none) ∨ (found = some .null ∧ ttlSecs = none) ∨
      ∃ n, found.bind Json.asI64? = some n ∧ ttlSecs = some (some n) := by
  cases found with
  | none =>
      cases hfound
      exact .inl ⟨rfl, rfl⟩
  | some value =>
      cases value with
      | null =>
          cases hfound
          exact .inr (.inl ⟨rfl, rfl⟩)
      | number n =>
          obtain ⟨inner, hinner, rfl⟩ := Option.map_eq_some_iff.mp hfound
          obtain ⟨lifetime, hlifetime, rfl⟩ := Option.map_eq_some_iff.mp hinner
          exact .inr (.inr ⟨lifetime, hlifetime, rfl⟩)
      | _ => cases hfound

theorem decode_eq_some (hdecode : decode body = some req) :
    req.name = (named body "name" 0).bind Json.asStr? ∧
    req.scope = (named body "scope" 1).bind Json.asStr? ∧
    ((named body "ttl_secs" 2 = none ∧ req.ttlSecs = none) ∨
      (named body "ttl_secs" 2 = some .null ∧ req.ttlSecs = none) ∨
      ∃ n, (named body "ttl_secs" 2).bind Json.asI64? = some n ∧ req.ttlSecs = some (some n)) := by
  obtain ⟨field, hfield, hrest⟩ := Option.bind_eq_some_iff.mp hdecode
  obtain ⟨name, hname, hrest⟩ := Option.bind_eq_some_iff.mp hrest
  obtain ⟨scope, hscope, hrest⟩ := Option.bind_eq_some_iff.mp hrest
  obtain ⟨ttlSecs, httl, hrest⟩ := Option.bind_eq_some_iff.mp hrest
  cases hrest
  have hnamed : ∀ column position, named body column position = field column position :=
    fun column position => by rw [named, hfield, Option.bind_some]
  simp only [hnamed]
  exact ⟨text_of_orDefault hname, text_of_orDefault hscope, ttl_of_orDefault httl⟩

theorem validate_eq_ok_iff (req : UpdateKeyRequest) :
    req.validate = .ok () ↔ (∀ name, req.name = some name → trim name ≠ "") ∧
      ∀ scope, req.scope = some scope → scope ∈ ["inference", "admin"] := by
  obtain ⟨name, scope, ttlSecs⟩ := req
  have hscope : ∀ scope, validateScope scope = .ok () ↔ scope ∈ ["inference", "admin"] := by
    intro scope
    unfold validateScope
    split
    next hknown => exact iff_of_true rfl hknown
    next hunknown => exact iff_of_false (by simp) hunknown
  cases name with
  | none =>
      cases scope with
      | none => simp [validate, pure, Except.pure]
      | some scope => simpa [validate, pure, Except.pure, bind, Except.bind] using hscope scope
  | some name =>
      by_cases hblank : trim name = ""
      · simp [validate, hblank, throw, throwThe, MonadExceptOf.throw, bind, Except.bind]
      · cases scope with
        | none => simp [validate, hblank, pure, Except.pure]
        | some scope =>
            simpa [validate, hblank, pure, Except.pure, bind, Except.bind] using hscope scope

theorem rejectedPatch_iff (hdecode : decode body = some req) :
    RejectedPatch body ↔ req.validate ≠ .ok () := by
  obtain ⟨hname, hscope, -⟩ := decode_eq_some hdecode
  rw [ne_eq, validate_eq_ok_iff, hname, hscope, not_and_or]
  push Not
  simp only [RejectedPatch, hdecode, reduceCtorEq, false_or]

/-- The statement changes what the body names, but for an expiry to clear. -/
theorem set_changesNamed_iff (hdecode : decode body = some req) (now : ℤ) (row : ApiKeyRow) :
    ChangesNamed body now row (req.set now row) ↔
      (named body "ttl_secs" 2 = some .null → row.expiresAt = none) := by
  obtain ⟨hname, hscope, httl⟩ := decode_eq_some hdecode
  have hexpiry : ChangesNamed body now row (req.set now row) ↔
      (named body "ttl_secs" 2 = none → (req.set now row).expiresAt = row.expiresAt) ∧
      (named body "ttl_secs" 2 = some .null → (req.set now row).expiresAt = none) ∧
      ∀ n : Int64, (named body "ttl_secs" 2).bind Json.asI64? = some n → 0 < n →
        (req.set now row).expiresAt =
          some (now + seconds (max 60 (min n.toInt (365 * 24 * 3600)))) := by
    constructor
    · intro hchanges
      exact ⟨hchanges.kept, hchanges.cleared, hchanges.replaced⟩
    · intro ⟨hkept, hcleared, hreplaced⟩
      exact ⟨by rw [← hname]; rfl, by rw [← hscope]; rfl, hkept, hcleared, hreplaced, rfl⟩
  rw [hexpiry]
  rcases httl with ⟨hfield, habsent⟩ | ⟨hfield, habsent⟩ | ⟨n, hfield, hvalue⟩
  · have hkept : (req.set now row).expiresAt = row.expiresAt := by simp only [set, habsent]
    simp [hfield, hkept]
  · have hkept : (req.set now row).expiresAt = row.expiresAt := by simp only [set, habsent]
    simp [hfield, hkept, Json.asI64?]
  · have hnone : named body "ttl_secs" 2 ≠ none := fun h => by simp [h] at hfield
    have hnull : named body "ttl_secs" 2 ≠ some .null := fun h => by simp [h, Json.asI64?] at hfield
    have hset : (req.set now row).expiresAt = expiryOf now (some n) := by simp only [set, hvalue]
    simp only [hnone, hnull, false_implies, true_and, iff_true]
    intro m hm hpos
    rw [hfield, Option.some.injEq] at hm
    rw [hset, ← hm]
    rw [← hm] at hpos
    simp [expiryOf, Option.filter, hpos]

theorem patchable_iff (hdecode : decode body = some req) (row : ApiKeyRow) :
    Patchable body row ↔
      (named body "ttl_secs" 2 = some .null → row.expiresAt = none) ∧ req.name.all storable := by
  rw [(decode_eq_some hdecode).1, Option.all_eq_true]
  constructor
  · intro hpatchable
    exact ⟨hpatchable.expiry, hpatchable.name⟩
  · intro ⟨hexpiry, hname⟩
    exact ⟨hexpiry, hname⟩

end UpdateKeyRequest

/-! ## What a call changes -/

section Patch

variable {s : KeyStore} {id : String} {body : Json}

theorem patch_of_rejected (hrejected : RejectedPatch body) (now : ℤ) (audited : Bool) :
    s.patch now id body audited = s := by
  unfold KeyStore.patch
  cases hdecode : UpdateKeyRequest.decode body with
  | none => rfl
  | some req =>
      have hinvalid := (UpdateKeyRequest.rejectedPatch_iff hdecode).mp hrejected
      have hupdate : s.update now id req audited = s := by
        unfold KeyStore.update updateKey
        cases hvalidate : req.validate with
        | ok => exact absurd hvalidate hinvalid
        | error error => rfl
      dsimp only
      rw [hupdate, ite_self]

theorem update_of_missing (hmissing : s.keys.get id = none) (now : ℤ) (req : UpdateKeyRequest)
    (audited : Bool) : s.update now id req audited = s := by
  unfold KeyStore.update updateKey
  rw [hmissing]
  cases req.validate <;> rfl

theorem update_of_valid {req : UpdateKeyRequest} (hvalid : req.validate = .ok ())
    {row : ApiKeyRow} (hrow : s.keys.get id = some row) (now : ℤ) (audited : Bool) :
    (s.update now id req audited).keys = s.keys.insert (req.set now row) := by
  unfold KeyStore.update updateKey
  rw [hvalid, hrow]
  rfl

/-- An update that is written keeps the other rows. -/
theorem update_patchesNamed_iff (hrejected : ¬RejectedPatch body) {req : UpdateKeyRequest}
    (hvalid : req.validate = .ok ()) {row : ApiKeyRow} (hrow : s.keys.get id = some row) (now : ℤ)
    (audited : Bool) :
    PatchesNamed s now id body (s.update now id req audited) ↔
      ChangesNamed body now row (req.set now row) := by
  have hkey : row.id = id := KeyedMap.key_of_get hrow
  have hkeys := update_of_valid hvalid hrow now audited
  have hself : (s.update now id req audited).keys.get id = some (req.set now row) := by
    rw [hkeys, ← hkey]
    exact s.keys.get_insert_self (req.set now row)
  constructor
  · intro hpatches
    obtain ⟨later, hlater, hchanges⟩ := hpatches.changes hrejected row hrow
    exact Option.some.inj (hself.symm.trans hlater) ▸ hchanges
  · intro hchanges
    refine ⟨fun h => absurd h hrejected, fun h => ?_, fun other hne => ?_, ?_⟩
    · rw [hrow] at h
      cases h
    · rw [hkeys]
      exact s.keys.get_insert_ne (req.set now row) (hkey ▸ hne)
    · intro _ stored hget
      obtain rfl := Option.some.inj (hrow.symm.trans hget)
      exact ⟨_, hself, hchanges⟩

/-- A name that the database refuses is not stored. -/
theorem not_patchesNamed_self (hrejected : ¬RejectedPatch body) {row : ApiKeyRow}
    (hrow : s.keys.get id = some row) (hstored : storable row.name) {name : String}
    (hname : (named body "name" 0).bind Json.asStr? = some name) (hrefused : ¬storable name)
    (now : ℤ) : ¬PatchesNamed s now id body s := by
  intro hpatches
  obtain ⟨later, hlater, hchanges⟩ := hpatches.changes hrejected row hrow
  obtain rfl := Option.some.inj (hrow.symm.trans hlater)
  have hsame := hchanges.name
  rw [hname, Option.getD_some] at hsame
  exact hrefused (hsame ▸ hstored)

end Patch

/-- An update of a key changes the columns that the body names, and nothing else,
exactly when an accepted body clears no expiry and has no NUL in its name. -/
theorem patchesNamed_iff (s : KeyStore) (now : ℤ) (id : String) (body : Json) (audited : Bool)
    (hstored : ∀ row, s.keys.get id = some row → storable row.name) :
    PatchesNamed s now id body (s.patch now id body audited) ↔
      (¬RejectedPatch body → ∀ row, s.keys.get id = some row → Patchable body row) := by
  by_cases hrejected : RejectedPatch body
  · rw [patch_of_rejected hrejected]
    exact iff_of_true ⟨fun _ => rfl, fun _ => rfl, fun _ _ => rfl, fun h => absurd hrejected h⟩
      fun h => absurd hrejected h
  · obtain ⟨req, hdecode⟩ := Option.ne_none_iff_exists'.mp fun h => hrejected (.inl h)
    have hvalid : req.validate = .ok () := by
      by_contra hinvalid
      exact hrejected ((UpdateKeyRequest.rejectedPatch_iff hdecode).mpr hinvalid)
    have hpatch : s.patch now id body audited =
        if req.name.all storable then s.update now id req audited else s := by
      rw [KeyStore.patch, hdecode]
    rw [hpatch]
    cases hrow : s.keys.get id with
    | none =>
        rw [update_of_missing hrow, ite_self]
        refine iff_of_true ⟨fun _ => rfl, fun _ => rfl, fun _ _ => rfl, fun _ row h => ?_⟩ ?_
        · rw [hrow] at h
          cases h
        · rintro - _ ⟨⟩
    | some row =>
        have hpatchable := UpdateKeyRequest.patchable_iff hdecode row
        by_cases hnul : req.name.all storable = true
        · rw [if_pos hnul, update_patchesNamed_iff hrejected hvalid hrow,
            UpdateKeyRequest.set_changesNamed_iff hdecode]
          constructor
          · rintro hexpiry - _ ⟨rfl⟩
            exact hpatchable.mpr ⟨hexpiry, hnul⟩
          · intro hall
            exact (hpatchable.mp (hall hrejected row rfl)).1
        · rw [if_neg hnul]
          refine iff_of_false ?_ fun hall => hnul (hpatchable.mp (hall hrejected row rfl)).2
          obtain ⟨name, hasked, hrefused⟩ : ∃ name, req.name = some name ∧ ¬storable name := by
            simpa [Option.all_eq_false] using hnul
          rw [(UpdateKeyRequest.decode_eq_some hdecode).1] at hasked
          exact not_patchesNamed_self hrejected hrow (hstored row hrow) hasked hrefused now

/-- A key that expires. -/
def laptopKey : ApiKeyRow where
  id := "8a1f3c52-0d4e-4b7a-9c6d-2f1e0b9a8d7c"
  hash := "$argon2id$v=19$m=19456,t=2,p=1$c2FsdA$aGFzaA"
  scope := "inference"
  name := "laptop"
  storedPrefix := "mgc_AAECAwQF"
  createdAt := 0
  lastUsedAt := none
  expiresAt := some (seconds 3600)
  revokedAt := none

def laptopStore : KeyStore := { KeyStore.initial 0 with keys := KeyedMap.empty.insert laptopKey }

/-- The key is renamed. -/
theorem renamed_patchesNamed :
    let body : Json := .object [("name", .string "desktop")]
    PatchesNamed laptopStore 1 laptopKey.id body (laptopStore.patch 1 laptopKey.id body true) := by
  refine (patchesNamed_iff laptopStore 1 laptopKey.id _ true ?_).mpr ?_
  · rintro row ⟨rfl⟩
    decide
  · rintro - row ⟨rfl⟩
    refine ⟨fun h => (by cases h), ?_⟩
    rintro name ⟨rfl⟩
    decide

/-- The expiry is to be cleared, and stays. -/
theorem clearedExpiry_isKept :
    let body : Json := .object [("ttl_secs", .null)]
    ¬PatchesNamed laptopStore 1 laptopKey.id body
      (laptopStore.patch 1 laptopKey.id body true) := by
  intro body hpatches
  have hdecode : UpdateKeyRequest.decode body = some ⟨none, none, none⟩ := rfl
  have haccepted : ¬RejectedPatch body := by
    rw [UpdateKeyRequest.rejectedPatch_iff hdecode]
    exact fun h => h rfl
  obtain ⟨later, hlater, hchanges⟩ := hpatches.changes haccepted laptopKey rfl
  obtain rfl : laptopKey = later := Option.some.inj hlater
  exact absurd (hchanges.cleared rfl) (by decide)

end GpuCluster.Mgmt
