import GpuCluster.Mgmt.LostUpdate

/-! # What an open transaction can rely on

Locks keep the rows a transaction has written, and the slot of the default row,
as the transaction left them until its end. So the row a handler is about to
report is the row its commit makes visible, and the partial index holds in every
state of the table.
-/

namespace GpuCluster.Mgmt

open Foundation

/-! ## Looking up a row and its flag -/

/-- The row an effect changes. -/
def ModelEffect.row? : ModelEffect → Option String
  | .clearDefault id => some id
  | .insert row => some row.id
  | .update id _ _ => some id
  | .addAudit _ => none

namespace ModelTables

variable {before after : ModelTables} {effect : ModelEffect} {effects : List ModelEffect}
  {id : String}

/-- The row is there and has the default flag. -/
def isDefault (tables : ModelTables) (id : String) : Bool :=
  (tables.models.get id).any (·.isDefault)

theorem isDefault_iff {tables : ModelTables} :
    tables.isDefault id ↔ ∃ row, tables.models.get id = some row ∧ row.isDefault :=
  Option.any_eq_true _ _

theorem oneDefault_iff {tables : ModelTables} :
    tables.OneDefault ↔ ∀ id other, tables.isDefault id → tables.isDefault other → id = other := by
  constructor
  · intro hone id other hid hother
    obtain ⟨row, hrow, hdefault⟩ := isDefault_iff.mp hid
    obtain ⟨otherRow, hotherRow, hotherDefault⟩ := isDefault_iff.mp hother
    exact hone id other row otherRow hrow hotherRow hdefault hotherDefault
  · intro hone id other row otherRow hrow hotherRow hdefault hotherDefault
    exact hone id other (isDefault_iff.mpr ⟨row, hrow, hdefault⟩)
      (isDefault_iff.mpr ⟨otherRow, hotherRow, hotherDefault⟩)

/-- Changes that set no flag keep the index. -/
theorem OneDefault.mono (hone : before.OneDefault)
    (hdefault : ∀ id, after.isDefault id → before.isDefault id) : after.OneDefault :=
  oneDefault_iff.mpr fun id other hid hother =>
    oneDefault_iff.mp hone id other (hdefault id hid) (hdefault other hother)

theorem isDefault_congr (hsame : after.models.get id = before.models.get id) :
    after.isDefault id = before.isDefault id :=
  congrArg (fun row => row.any (·.isDefault)) hsame

/-- An effect's outcome at a row depends on that row alone. -/
theorem get_apply_congr (hsame : after.models.get id = before.models.get id) :
    (after.apply effect).models.get id = (before.apply effect).models.get id := by
  cases effect with
  | clearDefault other =>
      simp only [apply, KeyedMap.get_modify _ other ModelRow.clearDefault_id]
      split
      next h => rw [← h, hsame]
      next => exact hsame
  | insert row =>
      simp only [apply, KeyedMap.get_insert]
      rw [hsame]
  | update other req now =>
      simp only [apply, KeyedMap.get_modify _ other (req.set_id now)]
      split
      next h => rw [← h, hsame]
      next => exact hsame
  | addAudit => exact hsame

theorem get_applyAll_congr (hsame : after.models.get id = before.models.get id) :
    (after.applyAll effects).models.get id = (before.applyAll effects).models.get id := by
  induction effects generalizing before after with
  | nil => exact hsame
  | cons effect rest ih => exact ih (get_apply_congr hsame)

theorem get_apply_other (hother : effect.row? ≠ some id) :
    (before.apply effect).models.get id = before.models.get id := by
  cases effect with
  | clearDefault other =>
      have hne : id ≠ other := fun h => hother (congrArg some h.symm)
      exact before.models.get_modify_ne ModelRow.clearDefault_id hne
  | insert row =>
      have hne : id ≠ row.id := fun h => hother (congrArg some h.symm)
      exact before.models.get_insert_ne row hne
  | update other req now =>
      have hne : id ≠ other := fun h => hother (congrArg some h.symm)
      exact before.models.get_modify_ne (req.set_id now) hne
  | addAudit => rfl

theorem get_applyAll_other (hother : ∀ effect ∈ effects, effect.row? ≠ some id) :
    (before.applyAll effects).models.get id = before.models.get id := by
  induction effects generalizing before with
  | nil => rfl
  | cons effect rest ih =>
      obtain ⟨hfirst, hrest⟩ := List.forall_mem_cons.mp hother
      exact (ih hrest).trans (get_apply_other hfirst)

@[simp] theorem isDefault_clearDefault (tables : ModelTables) (id : String) :
    (tables.apply (.clearDefault id)).isDefault id = false := by
  simp only [isDefault, apply, KeyedMap.get_modify _ id ModelRow.clearDefault_id, if_pos]
  cases tables.models.get id <;> rfl

/-- Effects on other rows at most clear a flag. -/
theorem isDefault_apply (hother : effect.target? ≠ some id) :
    (before.apply effect).isDefault id ↔ before.isDefault id ∧ effect ≠ .clearDefault id := by
  by_cases hcleared : effect = .clearDefault id
  · simp [hcleared]
  · have hrow : effect.row? ≠ some id := by
      cases effect with
      | clearDefault other =>
          intro hsame
          exact hcleared (congrArg _ (Option.some.inj hsame))
      | insert | update | addAudit => exact hother
    rw [isDefault_congr (get_apply_other hrow)]
    simp [hcleared]

theorem isDefault_applyAll (hother : ∀ effect ∈ effects, effect.target? ≠ some id) :
    (before.applyAll effects).isDefault id ↔
      before.isDefault id ∧ .clearDefault id ∉ effects := by
  induction effects generalizing before with
  | nil => simp [applyAll]
  | cons effect rest ih =>
      obtain ⟨hfirst, hrest⟩ := List.forall_mem_cons.mp hother
      refine (ih hrest).trans ?_
      rw [isDefault_apply hfirst, List.mem_cons, not_or, and_assoc, ne_comm]

end ModelTables

/-! ## The invariant -/

/-- The row a transaction's own statement has returned. -/
def WriteStage.result? : WriteStage → Option ModelRow
  | .addAudit row => some row
  | .commit row => some row
  | _ => none

/-- What an open transaction holds. -/
structure ModelTx.Holds (tables : ModelTables) (locks : LockTable ModelLock ℕ) (call : ℕ)
    (tx : ModelTx) (stage : WriteStage) : Prop where
  locked : ∀ effect ∈ tx.effects, ∀ id, effect.row? = some id → locks (.row id) = some call
  /-- The row that was returned is what a commit would leave. -/
  written : ∀ row, stage.result? = some row → locks (.row tx.request.id) = some call ∧
    (tables.applyAll tx.effects).models.get tx.request.id = some row
  /-- A default row that was written would be the only one. -/
  alone : ∀ row, stage.result? = some row → row.isDefault → locks .default = some call ∧
    ∀ id, (tables.applyAll tx.effects).isDefault id → id = tx.request.id
  /-- A row whose flag was asked for has it. -/
  flagged : ∀ row, stage.result? = some row → tx.request.setsDefault → row.isDefault

structure Catalog.Isolated (s : Catalog) : Prop where
  oneDefault : s.tables.OneDefault
  holds : ∀ call tx stage, s.calls call = .writing tx stage →
    tx.Holds s.tables s.locks call stage

/-- A change to the tables that respects the locks of a call. -/
structure Undisturbed (locks : LockTable ModelLock ℕ) (call : ℕ) (before after : ModelTables) :
    Prop where
  rows : ∀ id, locks (.row id) = some call → after.models.get id = before.models.get id
  defaults : locks .default = some call → ∀ id, after.isDefault id → before.isDefault id

theorem Undisturbed.refl (locks : LockTable ModelLock ℕ) (call : ℕ) (tables : ModelTables) :
    Undisturbed locks call tables tables :=
  ⟨fun _ _ => rfl, fun _ _ hdefault => hdefault⟩

theorem ModelTx.Holds.frame {before after : ModelTables} {locks later : LockTable ModelLock ℕ}
    {call : ℕ} {tx : ModelTx} {stage : WriteStage} (hholds : tx.Holds before locks call stage)
    (hown : tx.Own) (hlocks : ∀ key, locks key = some call → later key = some call)
    (hsame : Undisturbed locks call before after) : tx.Holds after later call stage where
  locked effect hmem id hid := hlocks _ (hholds.locked effect hmem id hid)
  written row hrow := by
    obtain ⟨hlock, hget⟩ := hholds.written row hrow
    refine ⟨hlocks _ hlock, ?_⟩
    rw [ModelTables.get_applyAll_congr (hsame.rows _ hlock)]
    exact hget
  alone row hrow hdefault := by
    obtain ⟨hlock, honly⟩ := hholds.alone row hrow hdefault
    refine ⟨hlocks _ hlock, fun id hid => ?_⟩
    by_contra hne
    have hother : ∀ effect ∈ tx.effects, effect.target? ≠ some id := fun effect hmem htarget =>
      hne (hown effect hmem id htarget)
    rw [ModelTables.isDefault_applyAll hother] at hid
    apply hne
    apply honly id
    rw [ModelTables.isDefault_applyAll hother]
    exact ⟨hsame.defaults hlock id hid.1, hid.2⟩
  flagged := hholds.flagged

namespace Catalog

variable {s next : Catalog}

/-- A call moves; what the others hold is respected. -/
theorem Isolated.move (hs : s.Isolated) (hsnap : s.Snapshot) {call : ℕ} {after : ModelCall}
    (hcalls : next.calls = Function.update s.calls call after)
    (hlocks : ∀ other ≠ call, ∀ key, s.locks key = some other → next.locks key = some other)
    (hsame : ∀ other ≠ call, Undisturbed s.locks other s.tables next.tables)
    (hone : next.tables.OneDefault)
    (hself : ∀ tx stage, after = .writing tx stage → tx.Holds next.tables next.locks call stage) :
    next.Isolated := by
  refine ⟨hone, fun other tx stage hother => ?_⟩
  rw [hcalls] at hother
  by_cases hne : other = call
  · subst hne
    rw [Function.update_self] at hother
    exact hself tx stage hother
  · rw [Function.update_of_ne hne] at hother
    exact (hs.holds other tx stage hother).frame (hsnap.own other tx stage hother)
      (hlocks other hne) (hsame other hne)

/-- A call ends without having changed a table. -/
theorem Isolated.end (hs : s.Isolated) (hsnap : s.Snapshot) (call : ℕ)
    (answer : Except ApiError ModelAnswer) : (s.answer call answer).Isolated :=
  hs.move hsnap rfl (fun _ hne _ hheld => LockTable.release_other hne hheld)
    (fun other _ => .refl _ other _) hs.oneDefault (fun _ _ h => by cases h)

/-- A call that holds nothing new. -/
theorem Isolated.quiet (hs : s.Isolated) (hsnap : s.Snapshot) {call : ℕ} {after : ModelCall}
    (hself : ∀ tx stage, after = .writing tx stage → tx.Holds s.tables s.locks call stage) :
    (s.setCall call after).Isolated :=
  hs.move hsnap rfl (fun _ _ _ hheld => hheld) (fun other _ => .refl _ other _) hs.oneDefault hself

/-- No call moves. -/
theorem Isolated.others (hs : s.Isolated) (hsnap : s.Snapshot) (hcalls : next.calls = s.calls)
    (hlocks : next.locks = s.locks)
    (hsame : ∀ call, Undisturbed s.locks call s.tables next.tables)
    (hone : next.tables.OneDefault) : next.Isolated := by
  refine ⟨hone, fun call tx stage hcall => ?_⟩
  rw [hcalls] at hcall
  rw [hlocks]
  exact (hs.holds call tx stage hcall).frame (hsnap.own call tx stage hcall) (fun _ h => h)
    (hsame call)

/-- A statement that commits on its own passes by what transactions have locked. -/
theorem Unlocked.undisturbed {id : String} (hfree : s.Unlocked id) {after : ModelTables}
    (hothers : ∀ other ≠ id, after.models.get other = s.models.get other)
    (hnone : s.models.get id = none → after.models.get id = none)
    (hdefault : ∀ other, after.isDefault other → s.tables.isDefault other) (call : ℕ) :
    Undisturbed s.locks call s.tables after := by
  refine ⟨fun other hlock => ?_, fun _ => hdefault⟩
  by_cases hne : other = id
  · subst hne
    rcases hfree with hget | hunlocked
    · exact (hnone hget).trans hget.symm
    · rw [hunlocked] at hlock
      cases hlock
  · exact hothers other hne

/-- The statement that clears flags locks the rows it clears. -/
theorem Isolated.clearDefaults (hs : s.Isolated) (hsnap : s.Snapshot) {call : ℕ} {tx : ModelTx}
    {targets cleared : List String} (hcall : s.calls call = .writing tx (.clearing targets))
    (hfree : s.locks.Free call (targets.map .row)) (hsub : cleared ⊆ targets) :
    { s.advance call tx (cleared.map .clearDefault) .write with
      locks := s.locks.acquire call (cleared.map .row) }.Isolated := by
  have hrows : s.locks.Free call (cleared.map .row) := fun key hkey =>
    hfree key (List.map_subset _ hsub hkey)
  refine hs.move hsnap rfl (fun other hne key => LockTable.acquire_other hrows hne)
    (fun other _ => .refl _ other _) hs.oneDefault ?_
  rintro _ _ ⟨rfl⟩
  refine ⟨fun effect hmem id hid => ?_, fun _ h => (by cases h), fun _ h => (by cases h),
    fun _ h => (by cases h)⟩
  rcases List.mem_append.mp hmem with hmem | hmem
  · exact LockTable.acquire_keeps ((hs.holds call tx _ hcall).locked effect hmem id hid)
  · obtain ⟨other, hother, rfl⟩ := List.mem_map.mp hmem
    obtain rfl : other = id := Option.some.inj hid
    exact LockTable.acquire_of_mem (List.mem_map_of_mem hother)

/-- The statement that writes the requested row locks it, and the slot if the row
is default. -/
theorem Isolated.wrote (hs : s.Isolated) (hsnap : s.Snapshot) {call : ℕ} {tx : ModelTx}
    {effect : ModelEffect} {row : ModelRow} (hcall : s.calls call = .writing tx .write)
    (hfree : s.locks.Free call (.row row.id :: s.slotLocks row)) (hid : row.id = tx.request.id)
    (heffect : effect.row? = some row.id)
    (hget : ((s.tables.applyAll tx.effects).apply effect).models.get row.id = some row)
    (hslot : tx.SlotFree s.tables row) (hflag : tx.request.setsDefault → row.isDefault) :
    (s.wrote call tx effect row).Isolated := by
  have htaken : s.locks.Free call (.row row.id :: if row.isDefault then [.default] else []) := by
    refine fun key hkey => hfree key ?_
    cases hdefault : row.isDefault <;> simp [hdefault, slotLocks] at hkey ⊢
    · exact hkey
    · rcases hkey with hkey | hkey <;> simp [hkey]
  refine hs.move hsnap rfl (fun other hne key => LockTable.acquire_other htaken hne)
    (fun other _ => .refl _ other _) hs.oneDefault ?_
  rintro _ _ ⟨rfl⟩
  have hview : s.tables.applyAll (tx.effects ++ [effect]) =
      (s.tables.applyAll tx.effects).apply effect := List.foldl_append
  refine ⟨fun other hmem id hother => ?_, ?_, ?_, ?_⟩
  · rcases List.mem_append.mp hmem with hmem | hmem
    · exact LockTable.acquire_keeps ((hs.holds call tx _ hcall).locked other hmem id hother)
    · obtain rfl := List.mem_singleton.mp hmem
      obtain rfl := Option.some.inj (heffect.symm.trans hother)
      exact LockTable.acquire_of_mem List.mem_cons_self
  · rintro _ ⟨rfl⟩
    refine ⟨hid ▸ LockTable.acquire_of_mem List.mem_cons_self, ?_⟩
    exact (congrArg (·.models.get tx.request.id) hview).trans (hid ▸ hget)
  · rintro _ ⟨rfl⟩ hdefault
    refine ⟨LockTable.acquire_of_mem (by simp [hdefault]), fun id hflag => ?_⟩
    by_contra hne
    have hother : effect.row? ≠ some id := fun h =>
      hne ((Option.some.inj (heffect.symm.trans h)).symm.trans hid)
    have hbefore : (s.tables.applyAll tx.effects).isDefault id := by
      rw [← ModelTables.isDefault_congr (ModelTables.get_apply_other hother), ← hview]
      exact hflag
    obtain ⟨stored, hstored, hset⟩ := ModelTables.isDefault_iff.mp hbefore
    have hkey : stored.id = id := KeyedMap.key_of_get hstored
    have hmem : stored ∈ (s.tables.applyAll tx.effects).models.list :=
      KeyedMap.mem_list.mpr (hkey.symm ▸ hstored)
    exact hne (hkey.symm.trans ((hslot hdefault stored hmem hset).trans hid))
  · rintro _ ⟨rfl⟩
    exact hflag

end Catalog

/-- A transaction whose row is not default sets no flag. -/
theorem ModelTx.Holds.isDefault_of_applyAll {tables : ModelTables}
    {locks : LockTable ModelLock ℕ} {call : ℕ} {tx : ModelTx} {row : ModelRow}
    (hholds : tx.Holds tables locks call (.commit row)) (hown : tx.Own)
    (hdefault : row.isDefault = false) {id : String}
    (hflag : (tables.applyAll tx.effects).isDefault id) : tables.isDefault id := by
  by_cases hid : id = tx.request.id
  · obtain ⟨-, hget⟩ := hholds.written row rfl
    rw [hid, ModelTables.isDefault, hget, Option.any_some, hdefault] at hflag
    cases hflag
  · have hother : ∀ effect ∈ tx.effects, effect.target? ≠ some id := fun effect hmem htarget =>
      hid (hown effect hmem id htarget)
    exact ((ModelTables.isDefault_applyAll hother).mp hflag).1

namespace Catalog

variable {s next : Catalog}

/-- A commit changes nothing that another transaction has locked. -/
theorem Isolated.finish (hs : s.Isolated) (hsnap : s.Snapshot) {call : ℕ} {tx : ModelTx}
    {row : ModelRow} (hcall : s.calls call = .writing tx (.commit row)) :
    (s.finish call tx row).Isolated := by
  have hholds := hs.holds call tx _ hcall
  have hown := hsnap.own call tx _ hcall
  refine hs.move hsnap rfl (fun _ hne _ hheld => LockTable.release_other hne hheld)
    (fun other hne => ⟨fun id hlock => ?_, fun hlock id hflag => ?_⟩) ?_ (fun _ _ h => by cases h)
  · apply ModelTables.get_applyAll_other
    intro effect hmem hid
    rw [hholds.locked effect hmem id hid, Option.some.injEq] at hlock
    exact hne hlock.symm
  · cases hdefault : row.isDefault with
    | false => exact hholds.isDefault_of_applyAll hown hdefault hflag
    | true =>
        rw [(hholds.alone row rfl hdefault).1, Option.some.injEq] at hlock
        exact absurd hlock.symm hne
  · cases hdefault : row.isDefault with
    | false =>
        exact hs.oneDefault.mono fun id hflag => hholds.isDefault_of_applyAll hown hdefault hflag
    | true =>
        have honly := (hholds.alone row rfl hdefault).2
        exact ModelTables.oneDefault_iff.mpr fun id other hid hother =>
          (honly id hid).trans (honly other hother).symm

/-- A statement on one row that commits on its own and sets no flag. -/
theorem Isolated.alone (hs : s.Isolated) {id : String} (hfree : s.Unlocked id)
    (after : ModelTables)
    (hothers : ∀ other ≠ id, after.models.get other = s.models.get other)
    (hself : ∀ later, after.models.get id = some later →
      ∃ row, s.models.get id = some row ∧ later.isDefault = row.isDefault) :
    (∀ call, Undisturbed s.locks call s.tables after) ∧ after.OneDefault := by
  have hdefault : ∀ other, after.isDefault other → s.tables.isDefault other := by
    intro other hflag
    by_cases hne : other = id
    · subst hne
      obtain ⟨later, hlater, hset⟩ := ModelTables.isDefault_iff.mp hflag
      obtain ⟨row, hrow, hsame⟩ := hself later hlater
      exact ModelTables.isDefault_iff.mpr ⟨row, hrow, hsame ▸ hset⟩
    · rwa [ModelTables.isDefault_congr (hothers other hne)] at hflag
  refine ⟨fun call => hfree.undisturbed hothers (fun hnone => ?_) hdefault call,
    hs.oneDefault.mono hdefault⟩
  cases hlater : after.models.get id with
  | none => rfl
  | some later =>
      obtain ⟨row, hrow, -⟩ := hself later hlater
      exact nomatch hnone.symm.trans hrow

theorem Isolated.modify (hs : s.Isolated) {id : String} (hfree : s.Unlocked id)
    {change : ModelRow → ModelRow} (hid : ∀ row, (change row).id = row.id)
    (hflag : ∀ row, (change row).isDefault = row.isDefault) (auditLog : List AuditRow) :
    (∀ call, Undisturbed s.locks call s.tables ⟨s.models.modify id change, auditLog⟩) ∧
      (ModelTables.mk (s.models.modify id change) auditLog).OneDefault := by
  have hget := s.models.get_modify id hid
  refine hs.alone hfree _ (fun other hne => (hget other).trans (if_neg hne)) fun later hlater => ?_
  rw [hget, if_pos rfl] at hlater
  obtain ⟨row, hrow, rfl⟩ := Option.map_eq_some_iff.mp hlater
  exact ⟨row, hrow, hflag row⟩

theorem Moves.isolated (hmoves : s.Moves next) (hsnap : s.Snapshot) (hs : s.Isolated) :
    next.Isolated := by
  cases hmoves with
  | refuse | rollback => exact hs.end hsnap _ _
  | openTx call request started hcall =>
      refine hs.quiet hsnap ?_
      rintro _ _ ⟨rfl⟩
      exact ⟨fun _ hmem => (by cases hmem), fun _ h => (by cases h), fun _ h => (by cases h),
        fun _ h => (by cases h)⟩
  | forward => exact hs.quiet hsnap fun _ _ h => by cases h
  | clear call tx hcall | skipClear call tx hcall =>
      refine hs.quiet hsnap ?_
      rintro _ _ ⟨rfl⟩
      refine ⟨?_, fun _ h => (by cases h), fun _ h => (by cases h), fun _ h => (by cases h)⟩
      rw [List.append_nil]
      exact (hs.holds call tx _ hcall).locked
  | clearDefaults call tx targets cleared hcall hfree hcleared =>
      refine hs.clearDefaults hsnap hcall hfree ?_
      rw [hcleared]
      exact List.filter_subset_self _
  | insert call tx row hcall hrequest hfree hnone hslot =>
      exact hs.wrote hsnap hcall hfree (by rw [hrequest]; rfl) rfl
        ((s.tables.applyAll tx.effects).models.get_insert_self row) hslot
        (by rw [hrequest]; exact id)
  | update call tx id req stored row hcall hrequest hstored hrow hfree hslot =>
      have hid : row.id = id := by
        rw [hrow, req.set_id]
        exact KeyedMap.key_of_get hstored
      refine hs.wrote hsnap hcall (hid ▸ hfree) (by rw [hid, hrequest]; rfl) (by rw [hid]; rfl) ?_
        hslot fun hsets => ?_
      case refine_2 =>
        simp only [hrequest, WriteRequest.setsDefault, beq_iff_eq] at hsets
        simp [hrow, UpdateRequest.set, hsets]
      have hget := (s.tables.applyAll tx.effects).models.get_modify id (req.set_id tx.started) id
      rw [if_pos rfl, hstored] at hget
      rw [hid, hrow]
      exact hget
  | addAudit call tx row hcall =>
      have hholds := hs.holds call tx _ hcall
      refine hs.quiet hsnap ?_
      rintro _ _ ⟨rfl⟩
      have hview : (s.tables.applyAll (tx.effects ++ [.addAudit tx.request.auditRow])).models =
          (s.tables.applyAll tx.effects).models := by
        rw [ModelTables.applyAll, List.foldl_append]
        rfl
      refine ⟨fun effect hmem id hid => ?_, ?_, ?_, hholds.flagged⟩
      · rcases List.mem_append.mp hmem with hmem | hmem
        · exact hholds.locked effect hmem id hid
        · obtain rfl := List.mem_singleton.mp hmem
          cases hid
      · rw [hview]
        exact hholds.written
      · simp only [ModelTables.isDefault, hview]
        exact hholds.alone
  | auditFails call tx row hcall =>
      have hholds := hs.holds call tx _ hcall
      refine hs.quiet hsnap ?_
      rintro _ _ ⟨rfl⟩
      rw [List.append_nil]
      exact ⟨hholds.locked, hholds.written, hholds.alone, hholds.flagged⟩
  | finish call tx row hcall => exact hs.finish hsnap hcall
  | delete call id audited hcall hfree =>
      have hget := s.models.get_erase id
      obtain ⟨hsame, hone⟩ := hs.alone hfree
        ⟨s.models.erase id, s.tables.auditLog ++ if audited then [deleteAudit id] else []⟩
        (fun other hne => (hget other).trans (if_neg hne)) fun later hlater =>
          nomatch ((hget id).trans (if_pos rfl)).symm.trans hlater
      exact hs.move hsnap rfl (fun _ hne _ hheld => LockTable.release_other hne hheld)
        (fun other _ => hsame other) hone (fun _ _ h => by cases h)
  | load call id query body now audited hcall hfree =>
      obtain ⟨hsame, hone⟩ := hs.modify hfree (query.set_id now) (fun _ => rfl)
        (s.tables.auditLog ++ if audited then [loadAudit id query] else [])
      exact hs.move hsnap rfl (fun _ hne _ hheld => LockTable.release_other hne hheld)
        (fun other _ => hsame other) hone (fun _ _ h => by cases h)
  | overwrite body row rest decision now audited hpass hfree =>
      obtain ⟨hsame, hone⟩ := hs.modify hfree (decision.set_id now) (fun _ => rfl)
        (s.tables.auditLog ++ if audited then [reconcileAudit row decision] else [])
      exact hs.others hsnap rfl rfl hsame hone
  | readView | readRows | keep | passEnds =>
      exact hs.others hsnap rfl rfl (fun call => .refl _ call _) hs.oneDefault

theorem isolated_initial {tables : ModelTables} (hone : tables.OneDefault) :
    (Catalog.initial tables).Isolated :=
  ⟨hone, fun _ _ _ h => by cases h⟩

theorem isolated_step {step : CatalogStep} (hs : s.Snapshot ∧ s.Isolated)
    (hrun : catalog.step s step = some next) : next.Snapshot ∧ next.Isolated := by
  have hmoves := CatalogStep.run_moves hrun
  exact ⟨hmoves.snapshot hs.1, hmoves.isolated hs.1 hs.2⟩

end Catalog

end GpuCluster.Mgmt
