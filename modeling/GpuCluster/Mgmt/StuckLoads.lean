import GpuCluster.Foundation.Simulation
import GpuCluster.Mgmt.AtomicSteps
import GpuCluster.Mgmt.Isolation

/-! # When a load is given up

What an uninterrupted pass of the reconciler makes of every row, that a second
one has nothing to do, and, over runs of passes, loads and updates, that a pass
gives a load up only after the threshold.
-/

namespace GpuCluster.Mgmt

open Common Coordinator Foundation

/-! ## One pass -/

/-- The first listed node that reports a model. Nodes without an id do not count,
and the empty text is no model. -/
def firstReporting (body : Json) (model : String) : Option String :=
  ((nodesOf body).find? fun node => (node.str? "node_id").getD "" ≠ "" ∧ model ≠ "" ∧
    (node.str? "current_model").getD "" = model).map fun node => (node.str? "node_id").getD ""

theorem loadedOn_eq_firstReporting (body : Json) (model : String) :
    loadedOn body model = firstReporting body model := by
  unfold loadedOn firstReporting
  induction nodesOf body with
  | nil => rfl
  | cons node rest ih =>
      by_cases hreports : (node.str? "node_id").getD "" ≠ "" ∧ model ≠ "" ∧
          (node.str? "current_model").getD "" = model
      · obtain ⟨hid, hmodel, hserved⟩ := hreports
        have hserving : serving node = some (model, (node.str? "node_id").getD "") := by
          simp [serving, hid, hmodel, hserved]
        rw [List.filterMap_cons_some hserving, List.lookup_cons_self, List.find?_cons_of_pos]
        · rfl
        · simp [hid, hmodel, hserved]
      · rw [List.find?_cons_of_neg (by simpa using hreports), ← ih]
        cases hserving : serving node with
        | none => rw [List.filterMap_cons_none hserving]
        | some pair =>
            obtain ⟨served, nodeId⟩ := pair
            -- the node serves another model
            have hother : model ≠ served := by
              simp only [serving, Option.ite_none_left_eq_some, not_or, Option.some.injEq,
                Prod.mk.injEq] at hserving
              obtain ⟨⟨hid, hserved⟩, rfl, -⟩ := hserving
              rintro rfl
              exact hreports ⟨hid, hserved, rfl⟩
            rw [List.filterMap_cons_some hserving, List.lookup_cons, beq_false_of_ne hother]

/-- What a pass makes of a row. -/
structure Reconciled (body : Json) (now : ℤ) (before after : ModelRow) : Prop where
  skipped : before.status = "disabled" ∨ before.status = "error" → after = before
  available : inFlight before.status = true →
    (after.status = "available" ↔ (firstReporting body before.id).isSome = true)
  error : inFlight before.status = true →
    (after.status = "error" ↔
      firstReporting body before.id = none ∧ stuckThreshold < now - before.updatedAt)
  moved : inFlight before.status = true → after.status ≠ before.status →
    after.loadedOnNode = (firstReporting body before.id).getD ""
  waiting : inFlight before.status = true → firstReporting body before.id = none →
    now - before.updatedAt ≤ stuckThreshold → after = before
  other : reconciles before.status = true → inFlight before.status = false →
    after.status = before.status ∧
      after.loadedOnNode = (firstReporting body before.id).getD ""
  columns : after = { before with
    status := after.status
    loadedOnNode := after.loadedOnNode
    updatedAt := after.updatedAt }

theorem inFlight_iff (status : String) :
    inFlight status = true ↔ status = "downloading" ∨ status = "loading" := by
  simp [inFlight]

theorem reconciles_eq_false_iff (status : String) :
    reconciles status = false ↔ status = "disabled" ∨ status = "error" := by
  by_cases hdisabled : status = "disabled" <;> simp [reconciles, hdisabled]

theorem reconciles_of_inFlight {status : String} (hflight : inFlight status = true) :
    reconciles status = true := by
  rcases (inFlight_iff status).mp hflight with rfl | rfl <;> decide

section Pass

variable {body : Json} {now : ℤ}

/-- The columns of a row that a pass may write. -/
theorem ReconcileRow.write_columns (row : ReconcileRow) (stored : ModelRow) :
    row.write body now stored = { stored with
      status := (row.write body now stored).status
      loadedOnNode := (row.write body now stored).loadedOnNode
      updatedAt := (row.write body now stored).updatedAt } := by
  unfold ReconcileRow.write
  dsimp only
  split <;> rfl

/-- A row whose decision is what it has is not written. -/
theorem ReconcileRow.write_of_keeps {row : ReconcileRow} (stored : ModelRow)
    (hkeeps : row.decide (loadedOn body row.id) now = row.current) :
    row.write body now stored = stored := by
  unfold ReconcileRow.write
  exact if_pos hkeeps

theorem ReconcileRow.decide_idle {row : ReconcileRow} (hidle : inFlight row.status = false)
    (observed : Option String) (now : ℤ) :
    row.decide observed now = ⟨observed.getD "", row.status⟩ := by
  cases observed <;> simp [ReconcileRow.decide, hidle]

theorem ReconcileRow.decide_served {row : ReconcileRow} (hflight : inFlight row.status = true)
    (node : String) (now : ℤ) : row.decide (some node) now = ⟨node, "available"⟩ := by
  simp [ReconcileRow.decide, hflight]

theorem ReconcileRow.decide_stuck {row : ReconcileRow} (hflight : inFlight row.status = true)
    (hstuck : stuckThreshold < now - row.updatedAt) : row.decide none now = ⟨"", "error"⟩ := by
  simp [ReconcileRow.decide, hflight, isStuck, hstuck]

theorem ReconcileRow.decide_waiting {row : ReconcileRow} (hflight : inFlight row.status = true)
    (hrecent : now - row.updatedAt ≤ stuckThreshold) : row.decide none now = row.current := by
  simp [ReconcileRow.decide, hflight, isStuck, not_lt.mpr hrecent]

theorem ne_available_of_inFlight {status : String} (hflight : inFlight status = true) :
    status ≠ "available" := by
  rintro rfl
  exact absurd hflight (by decide)

theorem ne_error_of_inFlight {status : String} (hflight : inFlight status = true) :
    status ≠ "error" := by
  rintro rfl
  exact absurd hflight (by decide)

/-! One lemma for each way a pass can settle a row. -/

section Settle

variable {row after : ModelRow}

theorem reconciled_skipped (hskipped : reconciles row.status = false) :
    Reconciled body now row row := by
  have hidle : inFlight row.status ≠ true := by
    intro h
    rw [reconciles_of_inFlight h] at hskipped
    cases hskipped
  have hnot : reconciles row.status ≠ true := by simp [hskipped]
  exact ⟨fun _ => rfl, fun h => absurd h hidle, fun h => absurd h hidle, fun h => absurd h hidle,
    fun _ _ _ => rfl, fun h => absurd h hnot, rfl⟩

/-- A load under way that nobody reports, and not yet for too long. -/
theorem reconciled_waiting (hflight : inFlight row.status = true)
    (hobserved : firstReporting body row.id = none)
    (hrecent : now - row.updatedAt ≤ stuckThreshold) : Reconciled body now row row where
  skipped _ := rfl
  available _ := by
    rw [hobserved]
    exact iff_of_false (ne_available_of_inFlight hflight) Bool.false_ne_true
  error _ := iff_of_false (ne_error_of_inFlight hflight) fun h => absurd h.2 (not_lt.mpr hrecent)
  moved _ hmoved := absurd rfl hmoved
  waiting _ _ _ := rfl
  other _ hidle := absurd (hflight.symm.trans hidle) (by decide)
  columns := rfl

variable (hcolumns : after = { row with
  status := after.status
  loadedOnNode := after.loadedOnNode
  updatedAt := after.updatedAt })
include hcolumns

theorem reconciled_idle (hreconciles : reconciles row.status = true)
    (hidle : inFlight row.status = false) (hstatus : after.status = row.status)
    (hnode : after.loadedOnNode = (firstReporting body row.id).getD "") :
    Reconciled body now row after := by
  have hskipped : ¬(row.status = "disabled" ∨ row.status = "error") := by
    rw [← reconciles_eq_false_iff, hreconciles]
    decide
  have hactive : ¬inFlight row.status = true := by simp [hidle]
  exact ⟨fun h => absurd h hskipped, fun h => absurd h hactive, fun h => absurd h hactive,
    fun h => absurd h hactive, fun h => absurd h hactive, fun _ _ => ⟨hstatus, hnode⟩, hcolumns⟩

/-- A load under way that ends: a node reports it, or nobody does for too long. -/
theorem reconciled_ended (hflight : inFlight row.status = true)
    (hended : firstReporting body row.id = none → stuckThreshold < now - row.updatedAt)
    (hstatus : after.status =
      if (firstReporting body row.id).isSome then "available" else "error")
    (hnode : after.loadedOnNode = (firstReporting body row.id).getD "") :
    Reconciled body now row after where
  skipped hskipped := by
    rw [← reconciles_eq_false_iff, reconciles_of_inFlight hflight] at hskipped
    cases hskipped
  available _ := by
    rw [hstatus]
    cases firstReporting body row.id <;> simp
  error _ := by
    rw [hstatus]
    cases hobserved : firstReporting body row.id with
    | none => simpa using hended hobserved
    | some node => simp
  moved _ _ := hnode
  waiting _ hobserved hrecent := absurd (hended hobserved) (not_lt.mpr hrecent)
  other _ hidle := absurd (hflight.symm.trans hidle) (by decide)
  columns := hcolumns

end Settle

/-- A pass makes of every row what the view, the clock and its status ask for. -/
theorem reconciled_write (row : ModelRow) :
    Reconciled body now row
      (if reconciles row.status then row.read.write body now row else row) := by
  cases hreconciles : reconciles row.status with
  | false =>
      rw [if_neg (by simp)]
      exact reconciled_skipped hreconciles
  | true =>
      rw [if_pos rfl]
      have hcurrent := @ReconcileRow.write_current body now row
      have hkeeps := @ReconcileRow.write_of_keeps body now row.read row
      have hcolumns := @ReconcileRow.write_columns body now row.read row
      change row.read.decide (loadedOn body row.id) now = row.read.current → _ at hkeeps
      rw [loadedOn_eq_firstReporting] at hcurrent hkeeps
      cases hflight : inFlight row.status with
      | false =>
          rw [ReconcileRow.decide_idle hflight] at hcurrent
          exact reconciled_idle hcolumns hreconciles hflight (congrArg Decision.status hcurrent)
            (congrArg Decision.loadedOnNode hcurrent)
      | true =>
          cases hobserved : firstReporting body row.id with
          | some node =>
              rw [hobserved, ReconcileRow.decide_served hflight] at hcurrent
              apply reconciled_ended hcolumns hflight
              · intro hnone
                rw [hobserved] at hnone
                cases hnone
              · rw [hobserved]
                exact congrArg Decision.status hcurrent
              · rw [hobserved]
                exact congrArg Decision.loadedOnNode hcurrent
          | none =>
              rw [hobserved] at hcurrent hkeeps
              rcases lt_or_ge stuckThreshold (now - row.updatedAt) with hstuck | hrecent
              · rw [ReconcileRow.decide_stuck hflight hstuck] at hcurrent
                apply reconciled_ended hcolumns hflight
                · exact fun _ => hstuck
                · rw [hobserved]
                  exact congrArg Decision.status hcurrent
                · rw [hobserved]
                  exact congrArg Decision.loadedOnNode hcurrent
              · rw [hkeeps (ReconcileRow.decide_waiting hflight hrecent)]
                exact reconciled_waiting hflight hobserved hrecent

theorem reconcileOnce_reconciled (body : Json) (now : ℤ) (tables : ModelTables) (id : String) :
    Option.Rel (Reconciled body now) (tables.models.get id)
      ((reconcileOnce body now tables).models.get id) := by
  rw [reconcileOnce_get]
  cases tables.models.get id with
  | none => exact .none
  | some row => exact .some (reconciled_write row)

/-! ## A second pass -/

/-- A pass whose decisions are what the rows have writes nothing. -/
theorem reconcileOnce_eq_self {tables : ModelTables}
    (hkeeps : ∀ row ∈ reconcileRows tables.models,
      row.decide (loadedOn body row.id) now = row.current) :
    reconcileOnce body now tables = tables := by
  unfold reconcileOnce
  generalize reconcileRows tables.models = rows at hkeeps
  induction rows with
  | nil => rfl
  | cons row rest ih =>
      obtain ⟨hrow, hrest⟩ := List.forall_mem_cons.mp hkeeps
      have hsame : reconcileRow body now tables row = tables := if_pos hrow
      rw [List.foldl_cons, hsame]
      exact ih hrest

/-- What a pass has made of a row is what it would make of it again. -/
theorem Reconciled.decide_again {before after : ModelRow}
    (hrow : Reconciled body now before after) (hreconciles : reconciles after.status = true) :
    after.read.decide (loadedOn body after.id) now = after.read.current := by
  have hid : after.id = before.id := by rw [hrow.columns]
  have hbefore : reconciles before.status = true := by
    by_contra hskipped
    have hsame := hrow.skipped ((reconciles_eq_false_iff _).mp (by simpa using hskipped))
    exact hskipped (hsame ▸ hreconciles)
  rw [loadedOn_eq_firstReporting, hid]
  cases hflight : inFlight after.status with
  | false =>
      have hnode : after.loadedOnNode = (firstReporting body before.id).getD "" := by
        cases hactive : inFlight before.status with
        | false => exact (hrow.other hbefore hactive).2
        | true =>
            apply hrow.moved hactive
            intro hsame
            rw [hsame, hactive] at hflight
            cases hflight
      rw [ReconcileRow.decide_idle hflight, ← hnode]
      rfl
  -- a load under way was left under way
  | true =>
      have hactive : inFlight before.status = true := by
        by_contra hidle
        rw [(hrow.other hbefore (by simpa using hidle)).1] at hflight
        exact hidle hflight
      have hnone : firstReporting body before.id = none := by
        simpa using mt (hrow.available hactive).mpr (ne_available_of_inFlight hflight)
      have hrecent : now - before.updatedAt ≤ stuckThreshold :=
        not_lt.mp fun hstuck =>
          ne_error_of_inFlight hflight ((hrow.error hactive).mpr ⟨hnone, hstuck⟩)
      obtain rfl := hrow.waiting hactive hnone hrecent
      rw [hnone]
      exact ReconcileRow.decide_waiting hflight hrecent

theorem reconcileOnce_idem (body : Json) (now : ℤ) (tables : ModelTables) :
    reconcileOnce body now (reconcileOnce body now tables) = reconcileOnce body now tables := by
  apply reconcileOnce_eq_self
  intro row hrow
  obtain ⟨after, hafter, rfl, hreconciles⟩ := mem_reconcileRows.mp hrow
  have hrel := reconcileOnce_reconciled body now tables after.id
  rw [show after.read.id = after.id from rfl] at hafter
  rw [hafter] at hrel
  generalize tables.models.get after.id = found at hrel
  cases hrel with
  | some hbefore => exact hbefore.decide_again hreconciles

end Pass

/-! ## Runs on one clock -/

/-- The tables, the last clock reading, and the loads that succeeded, with their
times. -/
structure TimedTables where
  tables : ModelTables
  clock : ℤ
  loads : List (String × ℤ)

/-- A pass, a load or an update at a clock reading. -/
inductive TableStep
  | pass (now : ℤ) (body : Json)
  | load (now : ℤ) (id : String) (query : LoadQuery) (token eligible : Option Json)
      (refusal : Option String)
  | update (now : ℤ) (id : String) (req : UpdateRequest)

def TableStep.now : TableStep → ℤ
  | .pass now _ => now
  | .load now .. => now
  | .update now .. => now

namespace TimedTables

/-- A step that fails leaves the tables. -/
def run (s : TimedTables) : TableStep → TimedTables
  | .pass now body => { s with tables := reconcileOnce body now s.tables, clock := now }
  | .load now id query token eligible refusal =>
      match loadOnce id query token eligible refusal now s.tables with
      | .ok tables => ⟨tables, now, (id, now) :: s.loads⟩
      | .error _ => { s with clock := now }
  | .update now id req =>
      match updateOnce id req now s.tables with
      | .ok tables => { s with tables := tables, clock := now }
      | .error _ => { s with clock := now }

end TimedTables

/-- Uninterrupted steps on one clock. -/
def timedTables : Machine TimedTables TableStep where
  init s := s.loads = []
  step s step := if s.clock ≤ step.now then some (s.run step) else none

/-! ## The runs are runs of the handlers and the reconciler -/

/-- The interleaved handlers between two calls, over the same tables. -/
structure TimedTables.AtRest (s : TimedTables) (state : Catalog) : Prop where
  snapshot : state.Snapshot
  isolated : state.Isolated
  quiet : ∃ call, state.Quiet call
  tables : state.tables = s.tables

section Simulation

variable {s last : TimedTables} {state : Catalog}

theorem exists_exec_step {call : ℕ} (step : TableStep) (hone : state.tables.OneDefault)
    (hquiet : state.Quiet call) (htables : state.tables = s.tables) :
    ∃ steps next, catalog.exec state steps = some next ∧ next.Quiet (call + 1) ∧
      next.tables = (s.run step).tables := by
  cases step with
  | pass now body =>
      have hpass := exec_pass state body now hquiet.pass fun id => hquiet.locks (.row id)
      refine ⟨_, _, Machine.exec_append hpass [.passEnds], ?_, ?_⟩
      · exact ⟨hquiet.locks, rfl, hquiet.succ.calls⟩
      · exact congrArg (reconcileOnce body now) htables
  | load now id query token eligible refusal =>
      have hload := loadOnce_answersAs hquiet id query token eligible refusal now
      obtain ⟨steps, next, hexec, hnext, houtcome⟩ := hload.exists_exec
      refine ⟨steps, next, hexec, hnext, ?_⟩
      rw [houtcome, htables, TimedTables.run]
      cases loadOnce id query token eligible refusal now s.tables <;> rfl
  | update now id req =>
      have hupdate := updateOnce_answersAs hone hquiet id req now
      obtain ⟨steps, next, hexec, hnext, houtcome⟩ := hupdate.exists_exec
      refine ⟨steps, next, hexec, hnext, ?_⟩
      rw [houtcome, htables, TimedTables.run]
      cases updateOnce id req now s.tables <;> rfl

theorem timedTables_simulated : timedTables.Simulates catalog TimedTables.AtRest := by
  intro s state step next hrest hstep
  obtain ⟨-, hnext⟩ := Option.ite_none_right_eq_some.mp hstep
  obtain rfl := Option.some.inj hnext
  obtain ⟨call, hquiet⟩ := hrest.quiet
  obtain ⟨steps, later, hexec, hlater, htables⟩ :=
    exists_exec_step step hrest.isolated.oneDefault hquiet hrest.tables
  obtain ⟨hsnapshot, hisolated⟩ :=
    Machine.exec_invariant (fun c : Catalog => c.Snapshot ∧ c.Isolated)
      (fun _ _ _ => Catalog.isolated_step) ⟨hrest.snapshot, hrest.isolated⟩ hexec
  exact ⟨steps, later, hexec, hsnapshot, hisolated, ⟨_, hlater⟩, htables⟩

/-- What passes, loads and updates make of the tables when each is left alone, some
interleaving of their statements makes of them too. -/
theorem timedTables_areInterleaved {tables : ModelTables} (hone : tables.OneDefault) {clock : ℤ}
    {loads : List (String × ℤ)} {steps : List TableStep}
    (hrun : timedTables.exec ⟨tables, clock, loads⟩ steps = some last) :
    ∃ run final, catalog.exec (.initial tables) run = some final ∧ final.tables = last.tables := by
  have hrest : TimedTables.AtRest ⟨tables, clock, loads⟩ (.initial tables) :=
    ⟨Catalog.snapshot_initial tables, Catalog.isolated_initial hone,
      ⟨0, fun _ => rfl, rfl, fun _ _ => rfl⟩, rfl⟩
  obtain ⟨run, final, hexec, hfinal⟩ := timedTables_simulated.exec hrest hrun
  exact ⟨run, final, hexec, hfinal.tables⟩

end Simulation

/-- A load that no node reports, and an hour later a pass. -/
theorem givenUpLoad_isInterleaved :
    let row : ModelRow := ⟨"m", "", "", "available", false, "repo", "m.gguf", "", "", 0, 0⟩
    ∃ run final, catalog.exec (.initial ⟨KeyedMap.empty.insert row, []⟩) run = some final ∧
      (final.models.get "m").map (·.status) = some "error" := by
  intro row
  have hgiven : (timedTables.exec ⟨⟨KeyedMap.empty.insert row, []⟩, 0, []⟩
      [.load 0 "m" ⟨"n", false⟩ none none none, .pass (seconds 3600) (nodesJson [])]).any (fun s =>
        (s.tables.models.get "m").map (·.status) = some "error") = true := by
    decide +kernel
  obtain ⟨last, hrun, hstatus⟩ := (Option.any_eq_true _ _).mp hgiven
  have hone : ModelTables.OneDefault ⟨KeyedMap.empty.insert row, []⟩ := by
    intro id other first second hfirst hsecond hdefault
    rw [KeyedMap.get_insert] at hfirst
    split at hfirst
    next =>
      obtain rfl := Option.some.inj hfirst
      cases hdefault
    next => cases hfirst
  obtain ⟨run, final, hexec, hfinal⟩ := timedTables_areInterleaved hone hrun
  refine ⟨run, final, hexec, ?_⟩
  rw [Catalog.models, hfinal]
  exact of_decide_eq_true hstatus

/-! ## When a row goes to error -/

/-- A row that was not in error is. -/
def MovesToError (before after : ModelTables) (id : String) : Prop :=
  ∃ row later, before.models.get id = some row ∧ row.status ≠ "error" ∧
    after.models.get id = some later ∧ later.status = "error"

/-- The step is an update that asks for the status. -/
def TableStep.AsksForError (id : String) : TableStep → Prop
  | .update _ target req => target = id ∧ req.status = some "error"
  | _ => False

/-- A row goes to error only later than the threshold after every load of it. -/
def ErrorsLate (s : TimedTables) (step : TableStep) : Prop :=
  ∀ id, MovesToError s.tables (s.run step).tables id →
    ∀ loadedAt, (id, loadedAt) ∈ s.loads → stuckThreshold < step.now - loadedAt

/-- The same for steps other than an update that asks for it. -/
def GivesUpLate (s : TimedTables) (step : TableStep) : Prop :=
  ∀ id, MovesToError s.tables (s.run step).tables id → ¬step.AsksForError id →
    ∀ loadedAt, (id, loadedAt) ∈ s.loads → stuckThreshold < step.now - loadedAt

/-! ## Loads and the times of rows -/

/-- A pass keeps the time of a row or sets its own. -/
theorem ReconcileRow.write_updatedAt (row : ReconcileRow) (body : Json) (now : ℤ)
    (stored : ModelRow) :
    (row.write body now stored).updatedAt = stored.updatedAt ∨
      (row.write body now stored).updatedAt = now := by
  unfold ReconcileRow.write
  dsimp only
  split
  · exact .inl rfl
  · exact .inr rfl

/-- No row is older than a load of it, and no load is later than the clock. -/
def LoadsDated (s : TimedTables) : Prop :=
  ∀ id loadedAt, (id, loadedAt) ∈ s.loads → loadedAt ≤ s.clock ∧
    ∀ row, s.tables.models.get id = some row → loadedAt ≤ row.updatedAt

/-- Steps that leave a row's time or set it to the clock keep it so. -/
theorem LoadsDated.of_times {s : TimedTables} (hs : LoadsDated s) {tables : ModelTables} {now : ℤ}
    (hclock : s.clock ≤ now)
    (htimes : ∀ id later, tables.models.get id = some later → ∃ row,
      s.tables.models.get id = some row ∧
        (later.updatedAt = row.updatedAt ∨ later.updatedAt = now)) :
    LoadsDated { s with tables := tables, clock := now } := by
  intro id loadedAt hload
  obtain ⟨hbefore, hrows⟩ := hs id loadedAt hload
  refine ⟨hbefore.trans hclock, fun later hlater => ?_⟩
  obtain ⟨row, hrow, hkept | hset⟩ := htimes id later hlater
  · rw [hkept]
    exact hrows row hrow
  · rw [hset]
    exact hbefore.trans hclock

theorem loadsDated_step {s next : TimedTables} {step : TableStep} (hs : LoadsDated s)
    (hstep : timedTables.step s step = some next) : LoadsDated next := by
  obtain ⟨hclock, hnext⟩ := Option.ite_none_right_eq_some.mp hstep
  obtain rfl := Option.some.inj hnext
  cases step with
  | pass now body =>
      apply hs.of_times hclock
      intro id later hlater
      rw [reconcileOnce_get] at hlater
      obtain ⟨row, hrow, rfl⟩ := Option.map_eq_some_iff.mp hlater
      refine ⟨row, hrow, ?_⟩
      split
      · exact row.read.write_updatedAt body now row
      · exact .inl rfl
  | load now id query token eligible refusal =>
      simp only [TimedTables.run]
      split
      next tables hload =>
        have hget := loadOnce_get hload
        have hdated : LoadsDated { s with tables := tables, clock := now } := by
          apply hs.of_times hclock
          intro other later hlater
          rw [hget] at hlater
          split at hlater
          next hsame =>
            obtain ⟨row, hrow, rfl⟩ := Option.map_eq_some_iff.mp hlater
            exact ⟨row, hsame ▸ hrow, .inr rfl⟩
          next => exact ⟨later, hlater, .inl rfl⟩
        intro other loadedAt hmem
        rcases List.mem_cons.mp hmem with hnew | hold
        -- the load itself
        · obtain ⟨rfl, rfl⟩ := Prod.mk.inj hnew
          refine ⟨le_rfl, fun later hlater => ?_⟩
          rw [hget, if_pos rfl] at hlater
          obtain ⟨row, -, rfl⟩ := Option.map_eq_some_iff.mp hlater
          exact le_rfl
        · exact hdated other loadedAt hold
      next => exact hs.of_times hclock fun id later hlater => ⟨later, hlater, .inl rfl⟩
  | update now id req =>
      simp only [TimedTables.run]
      split
      next tables hupdate =>
        apply hs.of_times hclock
        intro other later hlater
        obtain ⟨row, hrow, ⟨-, -, hset⟩ | ⟨-, hkept⟩⟩ := updateOnce_get hupdate hlater
        · exact ⟨row, hrow, .inr hset⟩
        · exact ⟨row, hrow, .inl hkept⟩
      next => exact hs.of_times hclock fun id later hlater => ⟨later, hlater, .inl rfl⟩

/-- Where no row is older than its loads, the steps that move a row to error are
late passes and updates that ask for it. -/
theorem givesUpLate_of_loadsDated {s : TimedTables} (hs : LoadsDated s) (step : TableStep) :
    GivesUpLate s step := by
  rintro id ⟨row, later, hrow, hbefore, hlater, herror⟩ hasks loadedAt hload
  have hdated := (hs id loadedAt hload).2 row hrow
  have hsame : later ≠ row := by
    rintro rfl
    exact hbefore herror
  cases step with
  | pass now body =>
      have hpass : Reconciled body now row later := by
        have hrel := reconcileOnce_reconciled body now s.tables id
        change (reconcileOnce body now s.tables).models.get id = some later at hlater
        rw [hrow, hlater] at hrel
        cases hrel with
        | some hpass => exact hpass
      have hflight : inFlight row.status = true := by
        by_contra hidle
        by_cases hreconciles : reconciles row.status = true
        · exact hbefore ((hpass.other hreconciles (by simpa using hidle)).1.symm.trans herror)
        · exact hsame (hpass.skipped ((reconciles_eq_false_iff _).mp (by simpa using hreconciles)))
      have hstuck := ((hpass.error hflight).mp herror).2
      change stuckThreshold < now - loadedAt
      omega
  | load now target query token eligible refusal =>
      simp only [TimedTables.run] at hlater
      split at hlater
      next tables hrun =>
        rw [loadOnce_get hrun] at hlater
        split at hlater
        next =>
          obtain ⟨stored, -, rfl⟩ := Option.map_eq_some_iff.mp hlater
          exact absurd herror (by simp [LoadQuery.set])
        next => exact absurd (Option.some.inj (hlater.symm.trans hrow)) hsame
      next => exact absurd (Option.some.inj (hlater.symm.trans hrow)) hsame
  | update now target req =>
      simp only [TimedTables.run] at hlater
      split at hlater
      next tables hrun =>
        obtain ⟨stored, hstored, ⟨rfl, hstatus, -⟩ | ⟨hstatus, -⟩⟩ := updateOnce_get hrun hlater
        · obtain rfl := Option.some.inj (hstored.symm.trans hrow)
          cases hreq : req.status with
          | none =>
              rw [hreq, Option.getD_none, herror] at hstatus
              exact absurd hstatus.symm hbefore
          | some status =>
              rw [hreq, Option.getD_some, herror] at hstatus
              exact absurd ⟨rfl, hstatus ▸ hreq⟩ hasks
        · obtain rfl := Option.some.inj (hstored.symm.trans hrow)
          exact absurd (hstatus.symm.trans herror) hbefore
      next => exact absurd (Option.some.inj (hlater.symm.trans hrow)) hsame

/-- A pass settles every row by the view, adds and removes none, and leaves
nothing for a second one; in runs on one clock a row goes to error, unless an
update asks for it, only when every load of it is older than the threshold. -/
theorem reconcileOnce_settles :
    (∀ body now tables id, Option.Rel (Reconciled body now) (tables.models.get id)
      ((reconcileOnce body now tables).models.get id)) ∧
    (∀ body now tables,
      reconcileOnce body now (reconcileOnce body now tables) = reconcileOnce body now tables) ∧
    ∀ tables clock steps, timedTables.Meets GivesUpLate ⟨tables, clock, []⟩ steps := by
  refine ⟨reconcileOnce_reconciled, reconcileOnce_idem, fun tables clock steps => ?_⟩
  have hinitial : LoadsDated ⟨tables, clock, []⟩ := fun _ _ hload => nomatch hload
  have htrivial : timedTables.Meets (fun _ _ => True) ⟨tables, clock, []⟩ steps :=
    Machine.Meets.of_forall (fun _ _ _ => trivial) _
  exact htrivial.imp (fun _ _ _ hs hstep => loadsDated_step hs hstep)
    (fun _ step _ hs _ _ => givesUpLate_of_loadsDated hs step) hinitial

/-- A load succeeds, and a second later an update asks for the status error. -/
theorem requestedError_is_early : ¬timedTables.Meets ErrorsLate
    ⟨⟨KeyedMap.empty.insert ⟨"m", "", "", "available", false, "repo", "m.gguf", "", "", 0, 0⟩, []⟩,
      0, []⟩
    [.load 0 "m" ⟨"n", false⟩ none none none,
      .update (seconds 1) "m" ⟨none, none, some "error", none, none, none, none⟩] := by
  intro hlate
  obtain ⟨-, hlate⟩ := hlate _ rfl
  obtain ⟨hearly, -⟩ := hlate _ rfl
  have hthreshold := hearly "m" ⟨_, _, rfl, by decide, rfl, rfl⟩ 0 (List.mem_singleton_self _)
  exact absurd hthreshold (by decide)

end GpuCluster.Mgmt
