import GpuCluster.Mgmt.Catalog

/-! # What one step of the registry can do

`Moves` lists the steps of handlers and passes with their guards and results.
Every error answer is one case, since none of them changes a table.
-/

namespace GpuCluster.Mgmt

open Foundation

/-- The flag may be set: no other row of the transaction's view has it. -/
def ModelTx.SlotFree (tables : ModelTables) (tx : ModelTx) (row : ModelRow) : Prop :=
  row.isDefault → ∀ other ∈ (tables.applyAll tx.effects).models.list,
    other.isDefault → other.id = row.id

namespace Catalog

inductive Moves (s : Catalog) : Catalog → Prop
  | refuse (call : ℕ) (error : ApiError) : (∀ answer, s.calls call ≠ .answered answer) →
      Moves s (s.answer call (.error error))
  | openTx (call : ℕ) (request : WriteRequest) (started : ℤ) : s.calls call = .idle →
      Moves s (s.setCall call (.writing ⟨request, started, [], false⟩ .clear))
  | clear (call : ℕ) (tx : ModelTx) : s.calls call = .writing tx .clear →
      tx.request.setsDefault →
      Moves s (s.advance call tx [] (.clearing (s.clearTargets tx.request)))
  | skipClear (call : ℕ) (tx : ModelTx) : s.calls call = .writing tx .clear →
      tx.request.setsDefault = false → Moves s (s.advance call tx [] .write)
  | clearDefaults (call : ℕ) (tx : ModelTx) (targets cleared : List String) :
      s.calls call = .writing tx (.clearing targets) → s.locks.Free call (targets.map .row) →
      cleared = targets.filter (fun id => (s.models.get id).any (·.isDefault)) →
      Moves s { s.advance call tx (cleared.map .clearDefault) .write with
        locks := s.locks.acquire call (cleared.map .row) }
  | insert (call : ℕ) (tx : ModelTx) (row : ModelRow) : s.calls call = .writing tx .write →
      tx.request = .create row → s.locks.Free call (.row row.id :: s.slotLocks row) →
      (s.tables.applyAll tx.effects).models.get row.id = none → tx.SlotFree s.tables row →
      Moves s (s.wrote call tx (.insert row) row)
  | update (call : ℕ) (tx : ModelTx) (id : String) (req : UpdateRequest) (stored row : ModelRow) :
      s.calls call = .writing tx .write → tx.request = .update id req →
      (s.tables.applyAll tx.effects).models.get id = some stored →
      row = req.set tx.started stored → s.locks.Free call (.row id :: s.slotLocks row) →
      tx.SlotFree s.tables row → Moves s (s.wrote call tx (.update id req tx.started) row)
  | addAudit (call : ℕ) (tx : ModelTx) (result : ModelRow) :
      s.calls call = .writing tx (.addAudit result) →
      Moves s (s.advance call tx [.addAudit tx.request.auditRow] (.commit result))
  | auditFails (call : ℕ) (tx : ModelTx) (result : ModelRow) :
      s.calls call = .writing tx (.addAudit result) →
      Moves s (s.advance call { tx with failed := true } [] (.commit result))
  | rollback (call : ℕ) (tx : ModelTx) (result : ModelRow) :
      s.calls call = .writing tx (.commit result) → tx.failed →
      Moves s (s.answer call (.ok (.row result)))
  | finish (call : ℕ) (tx : ModelTx) (result : ModelRow) :
      s.calls call = .writing tx (.commit result) → tx.failed = false →
      Moves s (s.finish call tx result)
  | delete (call : ℕ) (id : String) (audited : Bool) : s.calls call = .idle → s.Unlocked id →
      Moves s ((s.accept (s.models.erase id) audited (deleteAudit id) .delete id).answer call
        (.ok .deleted))
  | forward (call : ℕ) (id : String) (query : LoadQuery) (body : Json) : s.calls call = .idle →
      Moves s (s.setCall call (.forwarding id query body))
  | load (call : ℕ) (id : String) (query : LoadQuery) (body : Json) (now : ℤ) (audited : Bool) :
      s.calls call = .forwarding id query body → s.Unlocked id →
      Moves s ((s.accept (s.models.modify id (query.set now)) audited (loadAudit id query) .load
        id).answer call (.ok (.loadRequested id query.nodeId)))
  | readView (body : Json) : s.pass = .idle → Moves s { s with pass := .viewed body }
  | readRows (body : Json) (rows : List ReconcileRow) : s.pass = .viewed body →
      rows.Perm (reconcileRows s.models) →
      Moves s { s with pass := .rows body rows, accepted := [] }
  | keep (body : Json) (row : ReconcileRow) (rest : List ReconcileRow) :
      s.pass = .rows body (row :: rest) → Moves s { s with pass := .rows body rest }
  | overwrite (body : Json) (row : ReconcileRow) (rest : List ReconcileRow)
      (decision : Decision) (now : ℤ) (audited : Bool) : s.pass = .rows body (row :: rest) →
      s.Unlocked row.id →
      Moves s { s.put (s.models.modify row.id (decision.set now)) audited
          (reconcileAudit row decision) with
        pass := .rows body rest }
  | passEnds : Moves s { s with pass := .idle }

variable {s next : Catalog}

theorem openTx_moves {call : ℕ} {request : Except ApiError WriteRequest} {started : ℤ}
    (hrun : s.openTx call request started = some next) : s.Moves next := by
  unfold Catalog.openTx at hrun
  split at hrun
  next error hcall =>
    cases hrun
    exact .refuse call error fun answer h => nomatch hcall.symm.trans h
  next hcall =>
    cases hrun
    exact .openTx call _ started hcall
  next => cases hrun

theorem insertRow_moves {call : ℕ} {tx : ModelTx} {row : ModelRow}
    (hcall : s.calls call = .writing tx .write) (hrequest : tx.request = .create row)
    (hrun : s.insertRow call tx row = some next) : s.Moves next := by
  simp only [Catalog.insertRow] at hrun
  split at hrun
  case isFalse => cases hrun
  next hfree =>
    split at hrun
    next =>
      cases hrun
      exact .refuse call _ fun answer h => nomatch hcall.symm.trans h
    next hunique =>
      cases hrun
      simp only [Bool.or_eq_true, Bool.and_eq_true, List.any_eq_true, not_or, not_and, not_exists,
        Bool.not_eq_true, Option.isSome_eq_false_iff, Option.isNone_iff_eq_none] at hunique
      refine .insert call tx row hcall hrequest hfree hunique.1 fun hdefault other hmem hother => ?_
      exact absurd hother (by simpa using hunique.2 hdefault other hmem)

theorem updateRow_moves {call : ℕ} {tx : ModelTx} {id : String} {req : UpdateRequest}
    {violation : String} (hcall : s.calls call = .writing tx .write)
    (hrequest : tx.request = .update id req)
    (hrun : s.updateRow call tx id req violation = some next) : s.Moves next := by
  have hopen : ∀ answer, s.calls call ≠ .answered answer := fun answer h =>
    nomatch hcall.symm.trans h
  simp only [Catalog.updateRow] at hrun
  split at hrun
  next =>
    cases hrun
    exact .refuse call _ hopen
  next stored hstored =>
    split at hrun
    case isFalse => cases hrun
    next hfree =>
      split at hrun
      next =>
        cases hrun
        exact .refuse call _ hopen
      next hunique =>
        cases hrun
        have hid : (req.set tx.started stored).id = id :=
          (req.set_id tx.started stored).trans (KeyedMap.key_of_get hstored)
        refine .update call tx id req stored _ hcall hrequest hstored rfl hfree
          fun hdefault other hmem hother => ?_
        by_contra hne
        apply hunique
        rw [Bool.and_eq_true, List.any_eq_true]
        exact ⟨hdefault, other, hmem, by simp [hother, hid ▸ hne]⟩

theorem exec_moves {call : ℕ} {violation : String} (hrun : s.exec call violation = some next) :
    s.Moves next := by
  unfold Catalog.exec at hrun
  split at hrun
  next tx hcall =>
    split at hrun
    next hsets =>
      cases hrun
      exact .clear call tx hcall hsets
    next hsets =>
      cases hrun
      exact .skipClear call tx hcall (by simpa using hsets)
  next tx targets hcall =>
    simp only [Catalog.clearDefaults] at hrun
    split at hrun
    next hfree =>
      cases hrun
      exact .clearDefaults call tx targets _ hcall hfree rfl
    next => cases hrun
  next tx hcall =>
    split at hrun
    next row hrequest => exact insertRow_moves hcall hrequest hrun
    next id req hrequest => exact updateRow_moves hcall hrequest hrun
  next tx result hcall =>
    cases hrun
    exact .addAudit call tx result hcall
  next => cases hrun

theorem commit_moves {call : ℕ} (hrun : s.commit call = some next) : s.Moves next := by
  unfold Catalog.commit at hrun
  split at hrun
  next tx result hcall =>
    split at hrun
    next hfailed =>
      cases hrun
      exact .rollback call tx result hcall hfailed
    next hok =>
      cases hrun
      exact .finish call tx result hcall (by simpa using hok)
  next => cases hrun

theorem delete_moves {call : ℕ} {id : String} {audited : Bool}
    (hrun : s.delete call id audited = some next) : s.Moves next := by
  unfold Catalog.delete at hrun
  split at hrun
  next hcall _ =>
    cases hrun
    exact .refuse call _ fun answer h => nomatch hcall.symm.trans h
  next hcall _ =>
    split at hrun
    next hfree =>
      cases hrun
      exact .delete call id audited hcall hfree
    next => cases hrun
  next => cases hrun

theorem load_moves {call : ℕ} {id : String} {query : LoadQuery} {token eligible : Option Json}
    (hrun : s.load call id query token eligible = some next) : s.Moves next := by
  unfold Catalog.load at hrun
  split at hrun
  next hcall _ =>
    cases hrun
    exact .refuse call _ fun answer h => nomatch hcall.symm.trans h
  next hcall _ =>
    split at hrun
    next =>
      cases hrun
      exact .refuse call _ fun answer h => nomatch hcall.symm.trans h
    next body _ =>
      cases hrun
      exact .forward call id query body hcall
  next => cases hrun

theorem loadUpdate_moves {call : ℕ} {now : ℤ} {audited : Bool}
    (hrun : s.loadUpdate call now audited = some next) : s.Moves next := by
  unfold Catalog.loadUpdate at hrun
  split at hrun
  next id query body hcall =>
    split at hrun
    next hfree =>
      cases hrun
      exact .load call id query body now audited hcall hfree
    next => cases hrun
  next => cases hrun

theorem fail_moves {call : ℕ} {message : String} (hrun : s.fail call message = some next) :
    s.Moves next := by
  unfold Catalog.fail at hrun
  split at hrun
  case h_3 => cases hrun
  all_goals
    next hcall =>
      cases hrun
      exact .refuse call _ fun answer h => nomatch hcall.symm.trans h

theorem reconcileRow_moves {decidedAt now : ℤ} {audited : Bool}
    (hrun : s.reconcileRow decidedAt now audited = some next) : s.Moves next := by
  unfold Catalog.reconcileRow at hrun
  split at hrun
  next body row rest hpass =>
    dsimp only at hrun
    split at hrun
    next =>
      cases hrun
      exact .keep body row rest hpass
    next =>
      split at hrun
      next hfree =>
        cases hrun
        exact .overwrite body row rest _ now audited hpass hfree
      next => cases hrun
  next => cases hrun

end Catalog

/-- Every step is a move. -/
theorem CatalogStep.run_moves {s next : Catalog} {step : CatalogStep}
    (hrun : step.run s = some next) : s.Moves next := by
  cases step with
  | create | update => exact Catalog.openTx_moves hrun
  | exec => exact Catalog.exec_moves hrun
  | auditFails call =>
      simp only [CatalogStep.run, Catalog.auditFails] at hrun
      split at hrun
      next tx result hcall =>
        cases hrun
        exact .auditFails call tx result hcall
      next => cases hrun
  | commit => exact Catalog.commit_moves hrun
  | delete => exact Catalog.delete_moves hrun
  | load => exact Catalog.load_moves hrun
  | loadUpdate => exact Catalog.loadUpdate_moves hrun
  | fail => exact Catalog.fail_moves hrun
  | readView body =>
      simp only [CatalogStep.run, Catalog.readView] at hrun
      split at hrun
      next hpass =>
        cases hrun
        exact .readView body hpass
      next => cases hrun
  | readRows rows =>
      simp only [CatalogStep.run, Catalog.readRows] at hrun
      split at hrun
      next body hpass =>
        split at hrun
        next hperm =>
          cases hrun
          exact .readRows body rows hpass hperm
        next => cases hrun
      next => cases hrun
  | reconcileRow => exact Catalog.reconcileRow_moves hrun
  | passEnds =>
      cases hrun
      exact .passEnds

/-! ## The call a step belongs to -/

def CatalogStep.call? : CatalogStep → Option ℕ
  | .create call .. => some call
  | .update call .. => some call
  | .exec call _ => some call
  | .auditFails call => some call
  | .commit call => some call
  | .delete call .. => some call
  | .load call .. => some call
  | .loadUpdate call .. => some call
  | .fail call _ => some call
  | _ => none

/-- A call that has not answered yet. -/
def ModelCall.Open (call : ModelCall) : Prop := ∀ answer, call ≠ .answered answer

/-- What a step does to the calls: it moves its own, and changes the tables only
when it answers that with a success. -/
inductive Catalog.CallMove (s : Catalog) : CatalogStep → Catalog → Prop
  | pass {step : CatalogStep} {next : Catalog} : step.call? = none → next.calls = s.calls →
      CallMove s step next
  | quiet {step : CatalogStep} {next : Catalog} (call : ℕ) (after : ModelCall) :
      step.call? = some call → (s.calls call).Open →
      next.calls = Function.update s.calls call after →
      (∀ answer, after ≠ .answered (.ok answer)) → next.tables = s.tables → CallMove s step next
  | single {step : CatalogStep} {next : Catalog} (call : ℕ) (answer : ModelAnswer) :
      step.call? = some call → (∀ tx stage, s.calls call ≠ .writing tx stage) →
      (s.calls call).Open → next.calls = Function.update s.calls call (.answered (.ok answer)) →
      (∀ row, answer ≠ .row row) → CallMove s step next
  | commit {next : Catalog} (call : ℕ) (tx : ModelTx) (row : ModelRow) :
      s.calls call = .writing tx (.commit row) →
      next.calls = Function.update s.calls call (.answered (.ok (.row row))) →
      next.tables = (if tx.failed then s.tables else s.tables.applyAll tx.effects) →
      CallMove s (.commit call) next

namespace Catalog

variable {s next : Catalog} {step : CatalogStep} {call : ℕ}

theorem CallMove.refuse (hstep : step.call? = some call) {before : ModelCall}
    (hcall : s.calls call = before) (hopen : before.Open) (error : ApiError) :
    s.CallMove step (s.answer call (.error error)) :=
  .quiet call _ hstep (hcall ▸ hopen) rfl (fun _ h => by cases h) rfl

theorem CallMove.advance (hstep : step.call? = some call) {tx : ModelTx} {stage : WriteStage}
    (hcall : s.calls call = .writing tx stage) (tx' : ModelTx) (stage' : WriteStage)
    (hcalls : next.calls = Function.update s.calls call (.writing tx' stage'))
    (htables : next.tables = s.tables) : s.CallMove step next :=
  .quiet call _ hstep (hcall ▸ fun _ h => by cases h) hcalls (fun _ h => by cases h) htables

theorem openTx_callMove (hstep : step.call? = some call) {request : Except ApiError WriteRequest}
    {started : ℤ} (hrun : s.openTx call request started = some next) : s.CallMove step next := by
  unfold openTx at hrun
  split at hrun
  next hcall =>
    cases hrun
    exact .refuse hstep hcall (fun _ h => by cases h) _
  next hcall =>
    cases hrun
    exact .quiet call _ hstep (hcall ▸ fun _ h => by cases h) rfl (fun _ h => by cases h) rfl
  next => cases hrun

theorem exec_callMove {violation : String} (hrun : s.exec call violation = some next) :
    s.CallMove (.exec call violation) next := by
  have hstep : (CatalogStep.exec call violation).call? = some call := rfl
  unfold Catalog.exec at hrun
  split at hrun
  next tx hcall =>
    split at hrun <;>
      · cases hrun
        exact .advance hstep hcall _ _ rfl rfl
  next tx targets hcall =>
    simp only [Catalog.clearDefaults] at hrun
    split at hrun
    next =>
      cases hrun
      exact .advance hstep hcall _ _ rfl rfl
    next => cases hrun
  next tx hcall =>
    have hopen : (ModelCall.writing tx .write).Open := fun _ h => by cases h
    split at hrun
    next row _ =>
      simp only [insertRow] at hrun
      split at hrun
      case isFalse => cases hrun
      next =>
        split at hrun <;> cases hrun
        · exact .refuse hstep hcall hopen _
        · exact .advance hstep hcall _ _ rfl rfl
    next id req _ =>
      simp only [updateRow] at hrun
      split at hrun
      next =>
        cases hrun
        exact .refuse hstep hcall hopen _
      next =>
        split at hrun
        case isFalse => cases hrun
        next =>
          split at hrun <;> cases hrun
          · exact .refuse hstep hcall hopen _
          · exact .advance hstep hcall _ _ rfl rfl
  next tx row hcall =>
    cases hrun
    exact .advance hstep hcall _ _ rfl rfl
  next => cases hrun

theorem commit_spec (hrun : s.commit call = some next) :
    ∃ tx row, s.calls call = .writing tx (.commit row) ∧
      next.calls = Function.update s.calls call (.answered (.ok (.row row))) ∧
      next.tables = if tx.failed then s.tables else s.tables.applyAll tx.effects := by
  unfold Catalog.commit at hrun
  split at hrun
  next tx row hcall =>
    split at hrun
    next hfailed =>
      cases hrun
      exact ⟨tx, row, hcall, rfl, (if_pos hfailed).symm⟩
    next hok =>
      cases hrun
      exact ⟨tx, row, hcall, rfl, (if_neg hok).symm⟩
  next => cases hrun

theorem delete_callMove {id : String} {audited : Bool}
    (hrun : s.delete call id audited = some next) :
    s.CallMove (.delete call id audited) next := by
  unfold Catalog.delete at hrun
  split at hrun
  next hcall _ =>
    cases hrun
    exact .refuse rfl hcall (fun _ h => by cases h) _
  next hcall _ =>
    split at hrun
    next =>
      cases hrun
      exact .single call .deleted rfl (hcall ▸ fun _ _ h => by cases h)
        (hcall ▸ fun _ h => by cases h) rfl fun _ h => by cases h
    next => cases hrun
  next => cases hrun

theorem load_callMove {id : String} {query : LoadQuery} {token eligible : Option Json}
    (hrun : s.load call id query token eligible = some next) :
    s.CallMove (.load call id query token eligible) next := by
  unfold Catalog.load at hrun
  split at hrun
  next hcall _ =>
    cases hrun
    exact .refuse rfl hcall (fun _ h => by cases h) _
  next hcall _ =>
    split at hrun
    next =>
      cases hrun
      exact .refuse rfl hcall (fun _ h => by cases h) _
    next =>
      cases hrun
      exact .quiet call _ rfl (hcall ▸ fun _ h => by cases h) rfl (fun _ h => by cases h) rfl
  next => cases hrun

theorem loadUpdate_callMove {now : ℤ} {audited : Bool}
    (hrun : s.loadUpdate call now audited = some next) :
    s.CallMove (.loadUpdate call now audited) next := by
  unfold Catalog.loadUpdate at hrun
  split at hrun
  next hcall =>
    split at hrun
    next =>
      cases hrun
      exact .single call (.loadRequested ..) rfl (hcall ▸ fun _ _ h => by cases h)
        (hcall ▸ fun _ h => by cases h) rfl fun _ h => by cases h
    next => cases hrun
  next => cases hrun

theorem reconcileRow_calls {decidedAt now : ℤ} {audited : Bool}
    (hrun : s.reconcileRow decidedAt now audited = some next) : next.calls = s.calls := by
  unfold Catalog.reconcileRow at hrun
  split at hrun
  next =>
    dsimp only at hrun
    split at hrun
    next =>
      cases hrun
      rfl
    next =>
      split at hrun
      next =>
        cases hrun
        rfl
      next => cases hrun
  next => cases hrun

end Catalog

theorem CatalogStep.run_callMove {s next : Catalog} {step : CatalogStep}
    (hrun : step.run s = some next) : s.CallMove step next := by
  cases step with
  | create | update => exact Catalog.openTx_callMove rfl hrun
  | exec => exact Catalog.exec_callMove hrun
  | auditFails call =>
      simp only [CatalogStep.run, Catalog.auditFails] at hrun
      split at hrun
      next hcall =>
        cases hrun
        exact .advance rfl hcall _ _ rfl rfl
      next => cases hrun
  | commit call =>
      obtain ⟨tx, row, hcall, hcalls, htables⟩ := Catalog.commit_spec hrun
      exact .commit call tx row hcall hcalls htables
  | delete => exact Catalog.delete_callMove hrun
  | load => exact Catalog.load_callMove hrun
  | loadUpdate => exact Catalog.loadUpdate_callMove hrun
  | fail call =>
      simp only [CatalogStep.run, Catalog.fail] at hrun
      split at hrun
      case h_3 => cases hrun
      all_goals
        next hcall =>
          cases hrun
          exact .refuse rfl hcall (fun _ h => by cases h) _
  | readView body =>
      simp only [CatalogStep.run, Catalog.readView] at hrun
      split at hrun <;> cases hrun
      exact .pass rfl rfl
  | readRows rows =>
      simp only [CatalogStep.run, Catalog.readRows] at hrun
      split at hrun
      next =>
        split at hrun <;> cases hrun
        exact .pass rfl rfl
      next => cases hrun
  | reconcileRow => exact .pass rfl (Catalog.reconcileRow_calls hrun)
  | passEnds =>
      cases hrun
      exact .pass rfl rfl

end GpuCluster.Mgmt
