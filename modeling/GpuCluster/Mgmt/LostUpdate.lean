import GpuCluster.Mgmt.CatalogMoves

/-! # What the reconciler overwrites

A pass decides on the rows it read and later updates them by id alone, so its
updates hit whatever the handlers have made of these rows in between. The
invariant is that a row no handler has written since the read is still the row
the pass read.
-/

namespace GpuCluster.Mgmt

open Foundation

/-! ## What a write leaves alone -/

/-- The columns a pass reads, of the row under an id. -/
def readAt (models : ModelTable) (id : String) : Option ReconcileRow :=
  (models.get id).map ModelRow.read

theorem readAt_modify_ne (models : ModelTable) {id other : String} {change : ModelRow → ModelRow}
    (hchange : ∀ row, (change row).id = row.id) (hne : other ≠ id) :
    readAt (models.modify id change) other = readAt models other :=
  congrArg (Option.map ModelRow.read) (models.get_modify_ne hchange hne)

/-- The row whose status, node or time an effect sets. -/
def ModelEffect.target? : ModelEffect → Option String
  | .clearDefault _ => none
  | .insert row => some row.id
  | .update id _ _ => some id
  | .addAudit _ => none

namespace ModelTables

variable {α : Type*} {column : ModelRow → α} {id : String}

/-- Effects on other rows clear the flag of this one at most. -/
theorem map_get_apply (hflag : ∀ row, column row.clearDefault = column row) (tables : ModelTables)
    {effect : ModelEffect} (hother : effect.target? ≠ some id) :
    ((tables.apply effect).models.get id).map column = (tables.models.get id).map column := by
  cases effect with
  | clearDefault cleared =>
      exact tables.models.map_get_modify cleared ModelRow.clearDefault_id hflag id
  | insert row =>
      have hne : id ≠ row.id := fun h => hother (congrArg some h.symm)
      exact congrArg (Option.map column) (tables.models.get_insert_ne row hne)
  | update target req now =>
      have hne : id ≠ target := fun h => hother (congrArg some h.symm)
      exact congrArg (Option.map column) (tables.models.get_modify_ne (req.set_id now) hne)
  | addAudit => rfl

theorem map_get_applyAll (hflag : ∀ row, column row.clearDefault = column row)
    (tables : ModelTables) (effects : List ModelEffect)
    (hother : ∀ effect ∈ effects, effect.target? ≠ some id) :
    ((tables.applyAll effects).models.get id).map column = (tables.models.get id).map column := by
  induction effects generalizing tables with
  | nil => rfl
  | cons effect rest ih =>
      obtain ⟨hfirst, hrest⟩ := List.forall_mem_cons.mp hother
      exact (ih (tables.apply effect) hrest).trans (map_get_apply hflag tables hfirst)

/-- Clearing the default flag is invisible to the reconciler. -/
theorem readAt_applyAll (tables : ModelTables) (effects : List ModelEffect)
    (hother : ∀ effect ∈ effects, effect.target? ≠ some id) :
    readAt (tables.applyAll effects).models id = readAt tables.models id :=
  map_get_applyAll (fun _ => rfl) tables effects hother

end ModelTables

/-! ## The invariant -/

/-- A transaction sets columns of the requested row only. -/
def ModelTx.Own (tx : ModelTx) : Prop :=
  ∀ effect ∈ tx.effects, ∀ id, effect.target? = some id → id = tx.request.id

/-- No handler has created, updated or loaded the row since the pass read it. -/
def Catalog.Untouched (s : Catalog) (id : String) : Prop :=
  ∀ write, (write, id) ∈ s.accepted → write = .delete

/-- The rows a pass has still to decide on. -/
def Pass.pending : Pass → List ReconcileRow
  | .rows _ rest => rest
  | _ => []

structure Catalog.Snapshot (s : Catalog) : Prop where
  own : ∀ call tx stage, s.calls call = .writing tx stage → tx.Own
  /-- A pass reads every row once. -/
  nodup : (s.pass.pending.map ReconcileRow.id).Nodup
  reconciles : ∀ row ∈ s.pass.pending, reconciles row.status
  /-- A row that is still there and was not touched is as the pass read it. -/
  kept : ∀ row ∈ s.pass.pending, s.Untouched row.id →
    readAt s.models row.id = none ∨ readAt s.models row.id = some row

namespace Catalog

variable {s next : Catalog}

/-- Only the call that moves has a new state. -/
theorem own_update (hown : ∀ call tx stage, s.calls call = .writing tx stage → tx.Own)
    {call : ℕ} {after : ModelCall} (hafter : ∀ tx stage, after = .writing tx stage → tx.Own)
    {other : ℕ} {tx : ModelTx} {stage : WriteStage}
    (hother : Function.update s.calls call after other = .writing tx stage) : tx.Own := by
  by_cases hsame : other = call
  · rw [hsame, Function.update_self] at hother
    exact hafter tx stage hother
  · rw [Function.update_of_ne hsame] at hother
    exact hown other tx stage hother

/-- Handlers that write nothing. -/
theorem Snapshot.quiet (hinv : s.Snapshot) {call : ℕ} {after : ModelCall}
    (hafter : ∀ tx stage, after = .writing tx stage → tx.Own)
    (hcalls : next.calls = Function.update s.calls call after) (hmodels : next.models = s.models)
    (hpass : next.pass = s.pass) (haccepted : next.accepted = s.accepted) : next.Snapshot where
  own other tx stage hother := own_update hinv.own hafter (hcalls ▸ hother)
  nodup := hpass ▸ hinv.nodup
  reconciles := hpass ▸ hinv.reconciles
  kept row hrow huntouched := by
    rw [hmodels]
    refine hinv.kept row (hpass ▸ hrow) fun write hmem => huntouched write (haccepted ▸ hmem)

/-- A handler writes one row, and says so. -/
theorem Snapshot.accept (hinv : s.Snapshot) {call : ℕ} {answer : Except ApiError ModelAnswer}
    {write : HandlerWrite} {id : String}
    (hcalls : next.calls = Function.update s.calls call (.answered answer))
    (hpass : next.pass = s.pass) (haccepted : next.accepted = (write, id) :: s.accepted)
    (hothers : ∀ other ≠ id, readAt next.models other = readAt s.models other)
    (hdelete : write = .delete → readAt next.models id = none) : next.Snapshot where
  own other tx stage hother := own_update hinv.own (fun _ _ h => by cases h) (hcalls ▸ hother)
  nodup := hpass ▸ hinv.nodup
  reconciles := hpass ▸ hinv.reconciles
  kept row hrow huntouched := by
    by_cases hid : row.id = id
    -- the row was just written, and only a deletion leaves it untouched
    · refine .inl (hid ▸ hdelete (huntouched write ?_))
      rw [haccepted, hid]
      exact List.mem_cons_self ..
    · rw [hothers row.id hid]
      refine hinv.kept row (hpass ▸ hrow) fun other hmem => huntouched other ?_
      rw [haccepted]
      exact List.mem_cons_of_mem _ hmem

/-- A statement that adds effects to its transaction. -/
theorem Snapshot.advance (hinv : s.Snapshot) {call : ℕ} {tx : ModelTx} {stage later : WriteStage}
    {effects : List ModelEffect} (hcall : s.calls call = .writing tx stage)
    (heffects : ∀ effect ∈ effects, ∀ id, effect.target? = some id → id = tx.request.id)
    (hcalls : next.calls = (s.advance call tx effects later).calls)
    (hmodels : next.models = s.models) (hpass : next.pass = s.pass)
    (haccepted : next.accepted = s.accepted) : next.Snapshot := by
  refine hinv.quiet ?_ hcalls hmodels hpass haccepted
  rintro _ _ ⟨rfl⟩ effect hmem
  rcases List.mem_append.mp hmem with hmem | hmem
  · exact hinv.own call tx stage hcall effect hmem
  · exact heffects effect hmem

/-- The statement that writes the requested row. -/
theorem Snapshot.wrote (hinv : s.Snapshot) {call : ℕ} {tx : ModelTx} {stage : WriteStage}
    (hcall : s.calls call = .writing tx stage) {effect : ModelEffect}
    (htarget : effect.target? = some tx.request.id) (row : ModelRow) :
    (s.wrote call tx effect row).Snapshot := by
  refine hinv.advance hcall (fun other hmem id hid => ?_) rfl rfl rfl rfl
  obtain rfl := List.mem_singleton.mp hmem
  exact (Option.some.inj (htarget.symm.trans hid)).symm

/-- The pass goes on, or ends. -/
theorem Snapshot.drop (hinv : s.Snapshot) (hcalls : next.calls = s.calls)
    (hmodels : next.models = s.models) (haccepted : next.accepted = s.accepted)
    (hpending : next.pass.pending.Sublist s.pass.pending) : next.Snapshot where
  own := hcalls ▸ hinv.own
  nodup := (hpending.map _).nodup hinv.nodup
  reconciles row hrow := hinv.reconciles row (hpending.subset hrow)
  kept row hrow huntouched := by
    rw [hmodels]
    exact hinv.kept row (hpending.subset hrow) fun write hmem => huntouched write (haccepted ▸ hmem)

/-- The reconciler's own update is to a row it is done with. -/
theorem Snapshot.overwrite (hinv : s.Snapshot) {body : Json} {row : ReconcileRow}
    {rest : List ReconcileRow} (hpass : s.pass = .rows body (row :: rest)) {decision : Decision}
    {now : ℤ} (hcalls : next.calls = s.calls)
    (hmodels : next.models = s.models.modify row.id (decision.set now))
    (haccepted : next.accepted = s.accepted) (hnext : next.pass = .rows body rest) :
    next.Snapshot := by
  have hnodup := hinv.nodup
  have hreconciles := hinv.reconciles
  have hkept := hinv.kept
  simp only [hpass, Pass.pending, List.map_cons, List.nodup_cons, List.mem_map, not_exists,
    not_and] at hnodup hreconciles hkept
  refine ⟨hcalls ▸ hinv.own, ?_, ?_, ?_⟩ <;> simp only [hnext, Pass.pending]
  · exact hnodup.2
  · exact fun other hother => hreconciles other (List.mem_cons_of_mem _ hother)
  · intro other hother huntouched
    rw [hmodels, readAt_modify_ne s.models (decision.set_id now) (hnodup.1 other hother)]
    exact hkept other (List.mem_cons_of_mem _ hother) fun write hmem =>
      huntouched write (haccepted ▸ hmem)

/-- What the `SELECT` found is what the table holds. -/
theorem readAt_of_mem {models : ModelTable} {row : ReconcileRow}
    (hrow : row ∈ reconcileRows models) :
    Mgmt.reconciles row.status ∧ readAt models row.id = some row := by
  obtain ⟨stored, hget, hread, hstatus⟩ := mem_reconcileRows.mp hrow
  refine ⟨hstatus, ?_⟩
  rw [readAt, hget, Option.map_some, hread]

theorem Moves.snapshot (hmoves : s.Moves next) (hinv : s.Snapshot) : next.Snapshot := by
  cases hmoves with
  | refuse | rollback => exact hinv.quiet (fun _ _ h => by cases h) rfl rfl rfl rfl
  | forward => exact hinv.quiet (fun _ _ h => by cases h) rfl rfl rfl rfl
  | openTx call request started hcall =>
      refine hinv.quiet ?_ rfl rfl rfl rfl
      rintro _ _ ⟨rfl⟩ effect hmem
      cases hmem
  | clear call tx hcall | skipClear call tx hcall =>
      exact hinv.advance hcall (fun _ hmem => by cases hmem) rfl rfl rfl rfl
  | clearDefaults call tx targets cleared hcall =>
      refine hinv.advance hcall (fun effect hmem id hid => ?_) rfl rfl rfl rfl
      obtain ⟨_, -, rfl⟩ := List.mem_map.mp hmem
      cases hid
  | insert call tx row hcall hrequest => exact hinv.wrote hcall (by rw [hrequest]; rfl) row
  | update call tx target req stored row hcall hrequest =>
      exact hinv.wrote hcall (by rw [hrequest]; rfl) row
  | addAudit call tx result hcall =>
      refine hinv.advance hcall (fun effect hmem id hid => ?_) rfl rfl rfl rfl
      obtain rfl := List.mem_singleton.mp hmem
      cases hid
  | auditFails call tx result hcall =>
      refine hinv.quiet ?_ rfl rfl rfl rfl
      rintro _ _ ⟨rfl⟩ effect hmem
      exact hinv.own call tx _ hcall effect (List.append_nil tx.effects ▸ hmem)
  | finish call tx result hcall =>
      refine hinv.accept rfl rfl rfl (fun other hne => ?_) fun hdelete => ?_
      · exact s.tables.readAt_applyAll tx.effects fun effect hmem htarget =>
          hne (hinv.own call tx _ hcall effect hmem other htarget)
      · cases hrequest : tx.request <;> rw [hrequest] at hdelete <;> cases hdelete
  | delete call id =>
      refine hinv.accept rfl rfl rfl (fun other hne => ?_) fun _ => ?_ <;>
        simp only [readAt, Catalog.answer, Catalog.accept, Catalog.put, Catalog.setCall,
          Catalog.models, KeyedMap.get_erase]
      · rw [if_neg hne]
      · rfl
  | load call id query body now =>
      refine hinv.accept rfl rfl rfl (fun other hne => ?_) fun hdelete => nomatch hdelete
      exact readAt_modify_ne s.models (query.set_id now) hne
  | readView body hpass =>
      exact hinv.drop rfl rfl rfl (List.nil_sublist _)
  | readRows body rows hpass hperm =>
      -- nothing has been written since the read yet
      refine ⟨hinv.own, ?_, fun row hrow => ?_, fun row hrow _ => .inr ?_⟩
      · exact (hperm.map _).nodup_iff.mpr (reconcileRows_nodup s.models)
      · exact (readAt_of_mem (hperm.subset hrow)).1
      · exact (readAt_of_mem (hperm.subset hrow)).2
  | keep body row rest hpass =>
      refine hinv.drop rfl rfl rfl ?_
      rw [hpass]
      exact List.sublist_cons_self row rest
  | overwrite body row rest decision now audited hpass =>
      exact hinv.overwrite hpass rfl rfl rfl rfl
  | passEnds => exact hinv.drop rfl rfl rfl (List.nil_sublist _)

theorem snapshot_initial (tables : ModelTables) : (Catalog.initial tables).Snapshot :=
  ⟨fun _ _ _ h => (nomatch h), .nil, fun _ h => (nomatch h), fun _ h => (nomatch h)⟩

/-! ## Every run -/

/-- The step updates a row of the pass, whose decision differs from what was read. -/
def Overwrites (s : Catalog) (step : CatalogStep) (row : ReconcileRow) : Prop :=
  ∃ decidedAt now audited body rest, step = .reconcileRow decidedAt now audited ∧
    s.pass = .rows body (row :: rest) ∧ row.decide (loadedOn body row.id) decidedAt ≠ row.current

/-- An update takes effect on a row only while it is as the pass read it: not
disabled, not in error, and without a load accepted in between. -/
def WritesWhatItRead (s : Catalog) (step : CatalogStep) : Prop :=
  ∀ row stored, s.Overwrites step row → s.models.get row.id = some stored →
    stored.read = row ∧ reconciles stored.status ∧ (.load, row.id) ∉ s.accepted

/-- An update hits no row that a handler has written since the pass read it. -/
def HitsUntouched (s : Catalog) (step : CatalogStep) : Prop :=
  ∀ row stored, s.Overwrites step row → s.models.get row.id = some stored → s.Untouched row.id

theorem Snapshot.writesWhatItRead (hinv : s.Snapshot) {step : CatalogStep}
    (huntouched : s.HitsUntouched step) : s.WritesWhatItRead step := by
  intro row stored hover hstored
  have hrow : row ∈ s.pass.pending := by
    obtain ⟨_, _, _, body, rest, -, hpass, -⟩ := hover
    rw [hpass]
    exact List.mem_cons_self ..
  have hclean := huntouched row stored hover hstored
  -- the row is there, so it is as it was read
  have hread : stored.read = row := by
    have hkept := hinv.kept row hrow hclean
    simpa [readAt, hstored] using hkept
  refine ⟨hread, ?_, fun hload => nomatch hclean .load hload⟩
  rw [← hread] at hrow
  exact hinv.reconciles stored.read hrow

end Catalog

/-- In every run of passes and handlers whose updates hit rows no handler has
written since the read, the reconciler overwrites nothing it did not read. -/
theorem reconciler_writesWhatItRead (tables : ModelTables) (steps : List CatalogStep)
    (huntouched : catalog.Meets Catalog.HitsUntouched (.initial tables) steps) :
    catalog.Meets Catalog.WritesWhatItRead (.initial tables) steps :=
  Machine.Meets.imp (M := catalog)
    (fun _ _ _ (hinv : Catalog.Snapshot _) hrun => (CatalogStep.run_moves hrun).snapshot hinv)
    (fun _ _ _ hinv _ => hinv.writesWhatItRead) (Catalog.snapshot_initial tables) huntouched

/-- A table with one model, last seen on a worker. -/
def servedModel : ModelRow where
  id := "m"
  displayName := ""
  description := ""
  status := "available"
  isDefault := false
  hfRepo := "repo"
  hfFile := "file"
  localFilename := "file"
  loadedOnNode := "w"
  createdAt := 0
  updatedAt := 0

def servedTable : ModelTables := ⟨KeyedMap.empty.insert servedModel, []⟩

/-- A pass that finds no worker and updates the row it read. -/
theorem undisturbedPass_writesWhatItRead :
    catalog.Meets Catalog.WritesWhatItRead (.initial servedTable)
      [.readView (Coordinator.nodesJson []), .readRows [servedModel.read],
        .reconcileRow 1 1 true] := by
  apply reconciler_writesWhatItRead servedTable
  rintro _ ⟨rfl⟩
  refine ⟨fun _ _ hover => (by obtain ⟨_, _, _, _, _, h, -⟩ := hover; cases h), ?_⟩
  rintro _ ⟨rfl⟩
  refine ⟨fun _ _ hover => (by obtain ⟨_, _, _, _, _, h, -⟩ := hover; cases h), ?_⟩
  rintro _ ⟨rfl⟩
  exact ⟨fun _ _ _ _ _ hmem => (nomatch hmem), trivial⟩

/-- The admin disables the model between the read and the update, and the
reconciler makes it available again. -/
theorem disabledModel_overwritten :
    let disable : UpdateRequest := ⟨none, none, some "disabled", none, none, none, none⟩
    let steps : List CatalogStep :=
      [.readView (Coordinator.nodesJson []), .readRows [servedModel.read],
        .update 0 "m" disable 1, .exec 0 "", .exec 0 "", .exec 0 "", .commit 0,
        .reconcileRow 2 2 true]
    ¬catalog.Meets Catalog.WritesWhatItRead (.initial servedTable) steps ∧
      ∃ s, catalog.exec (.initial servedTable) steps = some s ∧
        (s.models.get "m").map ModelRow.status = some "available" := by
  intro disable steps
  refine ⟨fun hmeets => ?_, _, rfl, rfl⟩
  iterate 7 obtain ⟨-, hmeets⟩ := hmeets _ rfl
  obtain ⟨hwrites, -⟩ := hmeets _ rfl
  have hread := (hwrites servedModel.read _ ⟨2, 2, true, _, _, rfl, rfl, by decide⟩ rfl).1
  exact absurd hread (by decide)

end GpuCluster.Mgmt
