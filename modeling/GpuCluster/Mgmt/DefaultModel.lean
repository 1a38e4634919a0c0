import GpuCluster.Mgmt.Isolation

/-! # The default model

`create` and `update` clear the flag on other rows before they know whether
their own row can be written. The index holds throughout and a refused call
leaves no trace; what a success promises depends on the audit statement, whose
failure rolls the transaction back behind the handler's answer.
-/

namespace GpuCluster.Mgmt

open Foundation

/-! ## What is promised -/

namespace Catalog

/-- The step answers a create or an update with a success. -/
def Succeeds (s : Catalog) (step : CatalogStep) (tx : ModelTx) (next : Catalog) : Prop :=
  ∃ call stage row, s.calls call = .writing tx stage ∧ step.run s = some next ∧
    next.calls call = .answered (.ok (.row row))

/-- A success that was to set the flag leaves exactly the requested row default. -/
def SetsDefault (s : Catalog) (step : CatalogStep) : Prop :=
  ∀ tx next, s.Succeeds step tx next → tx.request.setsDefault →
    ∀ id, next.tables.isDefault id ↔ id = tx.request.id

/-- Such a success comes after the audit entry was written, or the requested row
was the default one anyway. -/
def AuditsDefault (s : Catalog) (step : CatalogStep) : Prop :=
  ∀ tx next, s.Succeeds step tx next → tx.request.setsDefault → tx.failed →
    s.tables.isDefault tx.request.id

/-- The call's own steps leave the tables alone. -/
def SparesTables (call : ℕ) (s : Catalog) (step : CatalogStep) : Prop :=
  step.call? = some call → ∀ next, step.run s = some next → next.tables = s.tables

end Catalog

/-- Tables that meet the index. -/
abbrev IndexedTables := {tables : ModelTables // tables.OneDefault}

/-- What the handlers promise about the default row in one run. -/
structure KeepsDefault (tables : IndexedTables) (steps : List CatalogStep) : Prop where
  unique : catalog.Throughout (fun s => s.tables.OneDefault) (.initial tables) steps
  undone : ∀ last call error, catalog.exec (.initial tables) steps = some last →
    last.calls call = .answered (.error error) →
    catalog.Meets (Catalog.SparesTables call) (.initial tables) steps
  moved : catalog.Meets Catalog.SetsDefault (.initial tables) steps

namespace Catalog

variable {s next : Catalog} {step : CatalogStep} {call : ℕ}

/-! ## Refused calls -/

/-- An answer is final. -/
theorem CallMove.answered (hmove : s.CallMove step next) {answer : Except ApiError ModelAnswer}
    (hcall : s.calls call = .answered answer) : next.calls call = .answered answer := by
  have hother : ∀ {moved : ℕ} {after : ModelCall}, (s.calls moved).Open →
      next.calls = Function.update s.calls moved after → next.calls call = .answered answer := by
    intro moved after hopen hcalls
    have hne : call ≠ moved := fun h => hopen answer (h ▸ hcall)
    rw [hcalls, Function.update_of_ne hne, hcall]
  cases hmove with
  | pass _ hcalls => rw [hcalls, hcall]
  | quiet moved after _ hopen hcalls => exact hother hopen hcalls
  | single moved other _ _ hopen hcalls => exact hother hopen hcalls
  | commit moved tx row hwriting hcalls => exact hother (hwriting ▸ fun _ h => by cases h) hcalls

/-- A step that changes the tables answers its call with a success. -/
theorem CallMove.tables_of_call (hmove : s.CallMove step next) (hstep : step.call? = some call) :
    next.tables = s.tables ∨ ∃ answer, next.calls call = .answered (.ok answer) := by
  cases hmove with
  | pass hnone => exact nomatch hnone.symm.trans hstep
  | quiet _ _ _ _ _ _ htables => exact .inl htables
  | single moved answer hmoved _ _ hcalls =>
      obtain rfl := Option.some.inj (hmoved.symm.trans hstep)
      exact .inr ⟨answer, by rw [hcalls, Function.update_self]⟩
  | commit moved tx row _ hcalls =>
      obtain rfl := Option.some.inj hstep
      exact .inr ⟨.row row, by rw [hcalls, Function.update_self]⟩

theorem sparesTables_of_refused {error : ApiError} {last : Catalog} {steps : List CatalogStep}
    (hexec : catalog.exec s steps = some last)
    (hcall : last.calls call = .answered (.error error)) :
    catalog.Meets (SparesTables call) s steps := by
  induction steps generalizing s with
  | nil => trivial
  | cons step rest ih =>
      obtain ⟨middle, hmiddle, hrest⟩ := Option.bind_eq_some_iff.mp hexec
      intro next hnext
      obtain rfl : middle = next := Option.some.inj (hmiddle.symm.trans hnext)
      refine ⟨fun hstep later hlater => ?_, ih hrest⟩
      obtain rfl : middle = later := Option.some.inj (hmiddle.symm.trans hlater)
      rcases (CatalogStep.run_callMove hlater).tables_of_call hstep with hsame | ⟨answer, hanswer⟩
      · exact hsame
      -- a success would still be there at the end
      · have hlast : last.calls call = .answered (.ok answer) :=
          Machine.exec_invariant (M := catalog)
            (fun state => state.calls call = .answered (.ok answer))
            (fun _ _ _ hstate hrun => (CatalogStep.run_callMove hrun).answered hstate) hanswer hrest
        rw [hcall] at hlast
        cases hlast

/-! ## Successes -/

/-- A success ends a transaction whose statements have all been executed. -/
theorem Succeeds.commit {tx : ModelTx} (hsucceeds : s.Succeeds step tx next) :
    ∃ call row, s.calls call = .writing tx (.commit row) ∧
      next.tables = if tx.failed then s.tables else s.tables.applyAll tx.effects := by
  obtain ⟨call, stage, row, hcall, hrun, hanswer⟩ := hsucceeds
  have hmoved : ∀ {moved : ℕ} {after : ModelCall},
      next.calls = Function.update s.calls moved after →
        moved = call ∧ after = .answered (.ok (.row row)) := by
    intro moved after hcalls
    rw [hcalls] at hanswer
    by_cases hsame : call = moved
    · subst hsame
      rw [Function.update_self] at hanswer
      exact ⟨rfl, hanswer⟩
    · rw [Function.update_of_ne hsame, hcall] at hanswer
      cases hanswer
  cases CatalogStep.run_callMove hrun with
  | pass _ hcalls =>
      rw [hcalls, hcall] at hanswer
      cases hanswer
  | quiet moved after _ _ hcalls hquiet => exact absurd (hmoved hcalls).2 (hquiet (.row row))
  | single moved answer _ hsingle _ hcalls =>
      obtain ⟨rfl, -⟩ := hmoved hcalls
      exact absurd hcall (hsingle tx stage)
  | commit moved other stored hwriting hcalls htables =>
      obtain ⟨rfl, -⟩ := hmoved hcalls
      obtain ⟨rfl, -⟩ := ModelCall.writing.inj (hcall.symm.trans hwriting)
      exact ⟨moved, stored, hwriting, htables⟩

theorem setsDefault_iff_auditsDefault (hs : s.Isolated) :
    s.SetsDefault step ↔ s.AuditsDefault step := by
  refine forall_congr' fun tx => forall_congr' fun next => forall_congr' fun hsucceeds =>
    forall_congr' fun hsets => ?_
  obtain ⟨call, row, hcall, htables⟩ := hsucceeds.commit
  have hholds := hs.holds call tx _ hcall
  cases hfailed : tx.failed with
  | false =>
      -- the commit takes effect, and the returned row has the flag
      simp only [Bool.false_eq_true, false_implies, iff_true]
      rw [hfailed, if_neg Bool.false_ne_true] at htables
      have hdefault := hholds.flagged row rfl hsets
      obtain ⟨-, hget⟩ := hholds.written row rfl
      rw [htables]
      refine fun id => ⟨(hholds.alone row rfl hdefault).2 id, ?_⟩
      rintro rfl
      exact ModelTables.isDefault_iff.mpr ⟨row, hget, hdefault⟩
  | true =>
      -- nothing is committed, so the table has to be as promised already
      rw [hfailed, if_pos rfl] at htables
      rw [htables]
      constructor
      · intro hexact _
        exact (hexact tx.request.id).mpr rfl
      · intro hdefault id
        constructor
        · intro hid
          exact ModelTables.oneDefault_iff.mp hs.oneDefault _ _ hid (hdefault rfl)
        · rintro rfl
          exact hdefault rfl

end Catalog

/-! ## Every run -/

/-- At most one row is default in every state and refused calls change nothing,
in any run of the handlers and the reconciler; and successes leave the requested
row as the only default exactly when those whose audit statement failed set a
flag that was set before. -/
theorem keepsDefault_iff_auditsDefault (tables : IndexedTables) (steps : List CatalogStep) :
    KeepsDefault tables steps ↔
      catalog.Meets Catalog.AuditsDefault (.initial tables) steps := by
  obtain ⟨tables, hone⟩ := tables
  have hkeeps : ∀ s step next, (Catalog.Snapshot s ∧ Catalog.Isolated s) →
      catalog.step s step = some next → next.Snapshot ∧ next.Isolated :=
    fun _ _ _ => Catalog.isolated_step
  have hinitial : (Catalog.initial tables).Snapshot ∧ (Catalog.initial tables).Isolated :=
    ⟨Catalog.snapshot_initial tables, Catalog.isolated_initial hone⟩
  have hmeets : catalog.Meets Catalog.SetsDefault (.initial tables) steps ↔
      catalog.Meets Catalog.AuditsDefault (.initial tables) steps :=
    Machine.meets_iff hkeeps
      (fun s step next hs _ => Catalog.setsDefault_iff_auditsDefault hs.2) hinitial steps
  constructor
  · intro hall
    exact hmeets.mp hall.moved
  · intro haudits
    refine ⟨?_, fun last call error hexec => Catalog.sparesTables_of_refused hexec,
      hmeets.mpr haudits⟩
    have hthroughout := Machine.throughout_iff_meets (Q := fun _ _ => True) hkeeps
      (fun s step next hs hone hrun => iff_true_intro (hkeeps s step next hs hrun).2.oneDefault)
      hinitial hone steps
    exact hthroughout.mpr (Machine.Meets.of_forall (fun _ _ _ => trivial) _)

theorem servedTable_oneDefault : servedTable.OneDefault := by
  have hnone : ∀ id, servedTable.isDefault id = false := by
    intro id
    simp only [ModelTables.isDefault, servedTable, KeyedMap.get_insert, KeyedMap.get_empty]
    split <;> rfl
  exact ModelTables.oneDefault_iff.mpr fun id _ hid => by simp [hnone] at hid

/-- The audit statement of an update fails, the update answers with a success,
and there is no default row. -/
theorem unauditedUpdate_setsNoDefault :
    let steps : List CatalogStep :=
      [.update 0 "m" ⟨none, none, none, some true, none, none, none⟩ 1, .exec 0 "", .exec 0 "",
        .exec 0 "", .auditFails 0, .commit 0]
    ¬KeepsDefault ⟨servedTable, servedTable_oneDefault⟩ steps := by
  intro steps hkeeps
  have hmoved := hkeeps.moved
  iterate 5 obtain ⟨-, hmoved⟩ := hmoved _ rfl
  obtain ⟨hsets, -⟩ := hmoved _ rfl
  have hdefault := (hsets _ _ ⟨0, _, _, rfl, rfl, rfl⟩ rfl "m").mpr rfl
  exact absurd hdefault (by decide)

end GpuCluster.Mgmt
