import GpuCluster.Mgmt.Catalog

/-! # Loads, updates and passes that nothing interrupts

Each is one function of the tables. Where no other transaction holds a lock, the
statements of the call make what the function says.
-/

namespace GpuCluster.Mgmt

open Common Foundation

/-- The rows whose flag an update that asks for it clears. -/
def defaultsElsewhere (request : WriteRequest) (tables : ModelTables) : List String :=
  if request.setsDefault then
    (tables.models.list.filter fun row => request.clears row).map ModelRow.id
  else []

/-- An update that nothing interrupts. Without the row, what it cleared is rolled
back. -/
def updateOnce (id : String) (req : UpdateRequest) (now : ℤ) (tables : ModelTables) :
    Except ApiError ModelTables :=
  match req.validate, tables.models.get id with
  | .error error, _ => .error error
  | .ok (), none => .error .notFound
  | .ok (), some _ => .ok (tables.applyAll
      ((defaultsElsewhere (.update id req) tables).map .clearDefault ++
        [.update id req now, .addAudit (WriteRequest.update id req).auditRow]))

/-- A load that nothing interrupts. `refusal` is the coordinator's, if it refuses. -/
def loadOnce (id : String) (query : LoadQuery) (token eligible : Option Json)
    (refusal : Option String) (now : ℤ) (tables : ModelTables) : Except ApiError ModelTables :=
  match tables.models.get id with
  | none => .error .notFound
  | some row =>
      match loadBody row query token eligible, refusal with
      | .error error, _ => .error error
      | .ok _, some message => .error (.internal message)
      | .ok _, none => .ok ⟨tables.models.modify id (query.set now),
          tables.auditLog ++ [Catalog.loadAudit id query]⟩

/-! ## What they do to a row -/

theorem applyAll_clearDefaults_get (targets : List String) (tables : ModelTables) (id : String) :
    (tables.applyAll (targets.map .clearDefault)).models.get id =
      (tables.models.get id).map fun row => if id ∈ targets then row.clearDefault else row := by
  induction targets generalizing tables with
  | nil => simp [ModelTables.applyAll]
  | cons target rest ih =>
      have hstep : (tables.apply (.clearDefault target)).models.get id =
          if id = target then (tables.models.get target).map ModelRow.clearDefault
          else tables.models.get id :=
        KeyedMap.get_modify tables.models target ModelRow.clearDefault_id id
      rw [List.map_cons, ModelTables.applyAll, List.foldl_cons, ← ModelTables.applyAll, ih, hstep]
      by_cases hid : id = target
      · subst hid
        cases tables.models.get id with
        | none => simp
        | some row => by_cases hrest : id ∈ rest <;> simp [hrest, ModelRow.clearDefault]
      · simp [hid]

/-- An update writes its row, and of other rows at most the flag. -/
theorem updateOnce_get {id : String} {req : UpdateRequest} {now : ℤ} {tables next : ModelTables}
    (hupdate : updateOnce id req now tables = .ok next) {other : String} {later : ModelRow}
    (hlater : next.models.get other = some later) :
    ∃ row, tables.models.get other = some row ∧
      (other = id ∧ later.status = req.status.getD row.status ∧ later.updatedAt = now ∨
        later.status = row.status ∧ later.updatedAt = row.updatedAt) := by
  have hnext : next = tables.applyAll
      ((defaultsElsewhere (.update id req) tables).map .clearDefault ++
        [.update id req now, .addAudit (WriteRequest.update id req).auditRow]) := by
    unfold updateOnce at hupdate
    split at hupdate
    · cases hupdate
    · cases hupdate
    · exact (Except.ok.inj hupdate).symm
  have hcleared := applyAll_clearDefaults_get (defaultsElsewhere (.update id req) tables) tables
  generalize defaultsElsewhere (.update id req) tables = targets at hnext hcleared
  have hmodels : next.models.get other = if other = id then
      ((tables.applyAll (targets.map .clearDefault)).models.get id).map (req.set now)
      else (tables.applyAll (targets.map .clearDefault)).models.get other := by
    rw [hnext, ModelTables.applyAll, List.foldl_append]
    exact KeyedMap.get_modify _ id (UpdateRequest.set_id req now) other
  rw [hmodels, hcleared, hcleared] at hlater
  split at hlater
  next hsame =>
    subst hsame
    obtain ⟨cleared, hfound, rfl⟩ := Option.map_eq_some_iff.mp hlater
    obtain ⟨row, hrow, rfl⟩ := Option.map_eq_some_iff.mp hfound
    refine ⟨row, hrow, .inl ⟨rfl, ?_, rfl⟩⟩
    split <;> rfl
  next =>
    obtain ⟨row, hrow, rfl⟩ := Option.map_eq_some_iff.mp hlater
    refine ⟨row, hrow, .inr ?_⟩
    split <;> exact ⟨rfl, rfl⟩

/-- A load writes its row only. -/
theorem loadOnce_get {id : String} {query : LoadQuery} {token eligible : Option Json}
    {refusal : Option String} {now : ℤ} {tables next : ModelTables}
    (hload : loadOnce id query token eligible refusal now tables = .ok next) (other : String) :
    next.models.get other = if other = id then (tables.models.get id).map (query.set now)
      else tables.models.get other := by
  unfold loadOnce at hload
  split at hload
  next => cases hload
  next =>
    split at hload
    next => cases hload
    next => cases hload
    next =>
      obtain rfl := Except.ok.inj hload
      exact KeyedMap.get_modify _ id (LoadQuery.set_id query now) other

/-! ## A call alone -/

namespace Catalog

/-- Only this call is under way, and the later ones have not begun. -/
structure Alone (s : Catalog) (call : ℕ) : Prop where
  locks : ∀ lock, s.locks lock = none ∨ s.locks lock = some call
  pass : s.pass = .idle
  calls : ∀ other, call < other → s.calls other = .idle

/-- Nothing is under way, and the calls from this one on have not begun. -/
structure Quiet (s : Catalog) (call : ℕ) : Prop where
  locks : ∀ lock, s.locks lock = none
  pass : s.pass = .idle
  calls : ∀ other, call ≤ other → s.calls other = .idle

/-- The call can run to the answer and the tables of the outcome. -/
def AnswersAs (s : Catalog) (call : ℕ) (outcome : Except ApiError ModelTables) : Prop :=
  ∃ steps last, catalog.exec s steps = some last ∧ last.Quiet (call + 1) ∧
    match outcome with
    | .ok tables => last.tables = tables ∧ ∃ answer, last.calls call = .answered (.ok answer)
    | .error error => last.tables = s.tables ∧ last.calls call = .answered (.error error)

variable {s next : Catalog} {call : ℕ}

theorem Quiet.alone (hquiet : s.Quiet call) : s.Alone call :=
  ⟨fun lock => .inl (hquiet.locks lock), hquiet.pass, fun other hlt => hquiet.calls other hlt.le⟩

theorem Quiet.succ (hquiet : s.Quiet call) : s.Quiet (call + 1) :=
  ⟨hquiet.locks, hquiet.pass, fun other hle => hquiet.calls other (Nat.le_of_succ_le hle)⟩

theorem setCall_calls (s : Catalog) (call : ℕ) (state : ModelCall) :
    (s.setCall call state).calls call = state :=
  Function.update_self ..

theorem advance_calls (s : Catalog) (call : ℕ) (tx : ModelTx) (effects : List ModelEffect)
    (stage : WriteStage) : (s.advance call tx effects stage).calls call =
      .writing { tx with effects := tx.effects ++ effects } stage :=
  s.setCall_calls call _

theorem wrote_calls (s : Catalog) (call : ℕ) (tx : ModelTx) (effect : ModelEffect)
    (row : ModelRow) : (s.wrote call tx effect row).calls call =
      .writing { tx with effects := tx.effects ++ [effect] } (.addAudit row) :=
  s.advance_calls call _ _ _

namespace Alone

theorem free (halone : s.Alone call) (keys : List ModelLock) : s.locks.Free call keys :=
  fun key _ => halone.locks key

theorem setCall (halone : s.Alone call) (state : ModelCall) :
    (s.setCall call state).Alone call where
  locks := halone.locks
  pass := halone.pass
  calls other hlt := (Function.update_of_ne hlt.ne' _ _).trans (halone.calls other hlt)

theorem advance (halone : s.Alone call) (tx : ModelTx) (effects : List ModelEffect)
    (stage : WriteStage) : (s.advance call tx effects stage).Alone call :=
  halone.setCall _

theorem acquire (halone : s.Alone call) (keys : List ModelLock) :
    { s with locks := s.locks.acquire call keys }.Alone call where
  locks lock := by
    dsimp only [LockTable.acquire]
    split
    · exact .inr rfl
    · exact halone.locks lock
  pass := halone.pass
  calls := halone.calls

theorem wrote (halone : s.Alone call) (tx : ModelTx) (effect : ModelEffect) (row : ModelRow) :
    (s.wrote call tx effect row).Alone call :=
  (halone.advance ..).acquire _

/-- An answer gives up the locks. -/
theorem answer (halone : s.Alone call) (answer : Except ApiError ModelAnswer) :
    (s.answer call answer).Quiet (call + 1) where
  locks lock := by
    dsimp only [Catalog.answer, LockTable.release]
    rcases halone.locks lock with hnone | hown
    · rw [hnone, if_neg]
      intro h
      cases h
    · exact if_pos hown
  pass := halone.pass
  calls other hle := (halone.setCall (.answered answer)).calls other hle

end Alone

namespace AnswersAs

variable {step : CatalogStep}

theorem cons (hstep : catalog.step s step = some next) (htables : next.tables = s.tables)
    {outcome : Except ApiError ModelTables} (hnext : next.AnswersAs call outcome) :
    s.AnswersAs call outcome := by
  obtain ⟨steps, last, hexec, hquiet, houtcome⟩ := hnext
  rw [htables] at houtcome
  exact ⟨step :: steps, last, (Machine.exec_cons hstep steps).trans hexec, hquiet, houtcome⟩

theorem refuse {error : ApiError}
    (hstep : catalog.step s step = some (s.answer call (.error error)))
    (halone : s.Alone call) : s.AnswersAs call (.error error) :=
  ⟨[step], _, Machine.exec_cons hstep [], halone.answer _, rfl, s.setCall_calls call _⟩

theorem accept {answer : ModelAnswer}
    (hstep : catalog.step s step = some (next.answer call (.ok answer)))
    (halone : next.Alone call) : s.AnswersAs call (.ok next.tables) :=
  ⟨[step], _, Machine.exec_cons hstep [], halone.answer _, rfl, answer, next.setCall_calls call _⟩

/-- The tables stay where the outcome is an error. -/
theorem exists_exec {outcome : Except ApiError ModelTables} (hcall : s.AnswersAs call outcome) :
    ∃ steps last, catalog.exec s steps = some last ∧ last.Quiet (call + 1) ∧
      last.tables = outcome.toOption.getD s.tables := by
  obtain ⟨steps, last, hexec, hquiet, houtcome⟩ := hcall
  refine ⟨steps, last, hexec, hquiet, ?_⟩
  cases outcome with
  | error error => exact houtcome.1
  | ok tables => exact houtcome.1

end AnswersAs

end Catalog

/-! ## The calls answer as the functions say -/

section Calls

variable {s : Catalog} {call : ℕ} {id : String} {now : ℤ}

theorem loadOnce_answersAs (hquiet : s.Quiet call) (id : String) (query : LoadQuery)
    (token eligible : Option Json) (refusal : Option String) (now : ℤ) :
    s.AnswersAs call (loadOnce id query token eligible refusal now s.tables) := by
  have hidle := hquiet.calls call le_rfl
  unfold loadOnce
  cases hrow : s.tables.models.get id with
  | none =>
      have hmissing : catalog.step s (.load call id query token eligible) =
          some (s.answer call (.error .notFound)) := by
        simp only [catalog, CatalogStep.run, Catalog.load, Catalog.models, hidle, hrow]
      exact .refuse hmissing hquiet.alone
  | some row =>
      dsimp only
      cases hbody : loadBody row query token eligible with
      | error error =>
          have hinvalid : catalog.step s (.load call id query token eligible) =
              some (s.answer call (.error error)) := by
            simp only [catalog, CatalogStep.run, Catalog.load, Catalog.models, hidle, hrow, hbody]
          exact .refuse hinvalid hquiet.alone
      | ok body =>
          have hforward : catalog.step s (.load call id query token eligible) =
              some (s.setCall call (.forwarding id query body)) := by
            simp only [catalog, CatalogStep.run, Catalog.load, Catalog.models, hidle, hrow, hbody]
          have hcall := s.setCall_calls call (.forwarding id query body)
          have halone := hquiet.alone.setCall (.forwarding id query body)
          apply Catalog.AnswersAs.cons hforward rfl
          generalize hforwarding : s.setCall call (.forwarding id query body) = forwarding
            at hcall halone
          cases refusal with
          | some message =>
              have hrefused : catalog.step forwarding (.fail call message) =
                  some (forwarding.answer call (.error (.internal message))) := by
                simp only [catalog, CatalogStep.run, Catalog.fail, hcall]
              exact .refuse hrefused halone
          | none =>
              have hunlocked : forwarding.Unlocked id := .inr (hforwarding ▸ hquiet.locks (.row id))
              have hupdate : catalog.step forwarding (.loadUpdate call now true) =
                  some ((forwarding.accept (forwarding.models.modify id (query.set now)) true
                    (Catalog.loadAudit id query) .load id).answer call
                      (.ok (.loadRequested id query.nodeId))) := by
                simp only [catalog, CatalogStep.run, Catalog.loadUpdate, hcall]
                exact if_pos hunlocked
              have haccepted := Catalog.AnswersAs.accept hupdate
                ⟨halone.locks, halone.pass, halone.calls⟩
              rwa [← hforwarding] at haccepted ⊢

theorem mem_defaultsElsewhere {request : WriteRequest} {tables : ModelTables} {target : String} :
    target ∈ defaultsElsewhere request tables ↔ request.setsDefault = true ∧
      ∃ row, tables.models.get target = some row ∧ request.clears row = true := by
  unfold defaultsElsewhere
  split
  next hsets =>
    simp only [hsets, true_and, List.mem_map, List.mem_filter]
    constructor
    · rintro ⟨row, ⟨hrow, hclears⟩, rfl⟩
      exact ⟨row, KeyedMap.mem_list.mp hrow, hclears⟩
    · rintro ⟨row, hrow, hclears⟩
      have hid : row.id = target := KeyedMap.key_of_get hrow
      exact ⟨row, ⟨KeyedMap.mem_list.mpr (hid ▸ hrow), hclears⟩, hid⟩
  next hsets => simp [hsets]

/-- An update sees its own row as it is stored. -/
theorem updateView_self (id : String) (req : UpdateRequest) (tables : ModelTables) :
    (tables.applyAll ((defaultsElsewhere (.update id req) tables).map .clearDefault)).models.get
      id = tables.models.get id := by
  rw [applyAll_clearDefaults_get]
  cases hrow : tables.models.get id with
  | none => rfl
  | some row =>
      have hid : row.id = id := KeyedMap.key_of_get hrow
      rw [Option.map_some, if_neg]
      intro hmem
      obtain ⟨-, stored, hstored, hclears⟩ := mem_defaultsElsewhere.mp hmem
      obtain rfl := Option.some.inj (hrow.symm.trans hstored)
      simp [WriteRequest.clears, hid] at hclears

/-- The row an update makes default is the only one in its view. -/
theorem updateView_slotFree {tables : ModelTables} (hone : tables.OneDefault)
    {req : UpdateRequest} {stored : ModelRow} (hstored : tables.models.get id = some stored)
    (hdefault : (req.set now stored).isDefault = true) {other : ModelRow}
    (hother : (tables.applyAll ((defaultsElsewhere (.update id req) tables).map
      .clearDefault)).models.get other.id = some other)
    (hflag : other.isDefault = true) : other.id = id := by
  rw [applyAll_clearDefaults_get] at hother
  obtain ⟨before, hbefore, hafter⟩ := Option.map_eq_some_iff.mp hother
  by_contra hne
  split at hafter
  next =>
    subst hafter
    cases hflag
  next hkept =>
    subst hafter
    change req.isDefault.getD stored.isDefault = true at hdefault
    by_cases hasks : req.isDefault = some true
    -- its flag would have been cleared
    · apply hkept
      refine mem_defaultsElsewhere.mpr ⟨by simp [WriteRequest.setsDefault, hasks], _, hbefore, ?_⟩
      simp [WriteRequest.clears, hflag, hne]
    -- the row was the default before
    · have hkeeps : stored.isDefault = true := by
        cases hreq : req.isDefault with
        | none => rwa [hreq, Option.getD_none] at hdefault
        | some flag =>
            rw [hreq, Option.getD_some] at hdefault
            exact absurd (hreq.trans (congrArg some hdefault)) hasks
      exact hne (hone _ _ _ _ hbefore hstored hflag hkeeps)

/-- The statements up to the transaction's own write clear the flags elsewhere. -/
theorem exists_cleared {request : WriteRequest}
    (hcall : s.calls call = .writing ⟨request, now, [], false⟩ .clear) (halone : s.Alone call) :
    ∃ cleared : Catalog, cleared.Alone call ∧ cleared.tables = s.tables ∧
      cleared.calls call = .writing ⟨request, now,
        (defaultsElsewhere request cleared.tables).map .clearDefault, false⟩ .write ∧
      ∀ outcome, cleared.AnswersAs call outcome → s.AnswersAs call outcome := by
  cases hsets : request.setsDefault with
  | false =>
      have hskip : catalog.step s (.exec call "") =
          some (s.advance call ⟨request, now, [], false⟩ [] .write) := by
        simp [catalog, CatalogStep.run, Catalog.exec, hcall, hsets]
      refine ⟨_, halone.advance .., rfl, ?_, fun outcome => .cons hskip rfl⟩
      rw [defaultsElsewhere, if_neg (by simp [hsets])]
      exact s.advance_calls call _ _ _
  | true =>
      have htargets : defaultsElsewhere request s.tables = s.clearTargets request := if_pos hsets
      have hdefaults : (s.clearTargets request).filter
          (fun id => (s.models.get id).any (·.isDefault)) = s.clearTargets request := by
        apply List.filter_eq_self.mpr
        intro target htarget
        rw [← htargets] at htarget
        obtain ⟨-, row, hrow, hclears⟩ := mem_defaultsElsewhere.mp htarget
        rw [Catalog.models, hrow]
        cases request with
        | create => exact hclears
        | update => exact (Bool.and_eq_true_iff.mp hclears).1
      have hread : catalog.step s (.exec call "") = some
          (s.advance call ⟨request, now, [], false⟩ [] (.clearing (s.clearTargets request))) := by
        simp [catalog, CatalogStep.run, Catalog.exec, hcall, hsets]
      have hreading := s.advance_calls call ⟨request, now, [], false⟩ []
        (.clearing (s.clearTargets request))
      have hwaiting := halone.advance ⟨request, now, [], false⟩ []
        (.clearing (s.clearTargets request))
      generalize hmiddle : s.advance call ⟨request, now, [], false⟩ []
        (.clearing (s.clearTargets request)) = middle
        at hread hreading hwaiting
      have htables : middle.tables = s.tables := hmiddle ▸ rfl
      have hclear : catalog.step middle (.exec call "") = some
          { middle.advance call ⟨request, now, [], false⟩
              ((s.clearTargets request).map .clearDefault) .write with
            locks := middle.locks.acquire call ((s.clearTargets request).map .row) } := by
        simp only [catalog, CatalogStep.run, Catalog.exec, hreading, Catalog.clearDefaults,
          Catalog.models, htables]
        rw [← Catalog.models, hdefaults]
        exact if_pos (hwaiting.free _)
      refine ⟨_, (hwaiting.advance ..).acquire _, htables, ?_, fun outcome hcleared =>
        .cons hread htables (.cons hclear rfl hcleared)⟩
      rw [← htables] at htargets
      rw [← htargets]
      exact middle.advance_calls call _ _ _

/-- The update's own write: its flag, if it has one, is the only one. -/
theorem step_updateRow {req : UpdateRequest} {stored : ModelRow}
    (hone : s.tables.OneDefault) (hstored : s.tables.models.get id = some stored)
    (hcall : s.calls call = .writing ⟨.update id req, now,
      (defaultsElsewhere (.update id req) s.tables).map .clearDefault, false⟩ .write)
    (halone : s.Alone call) :
    catalog.step s (.exec call "") = some (s.wrote call ⟨.update id req, now,
      (defaultsElsewhere (.update id req) s.tables).map .clearDefault, false⟩
      (.update id req now) (req.set now stored)) := by
  have hview := updateView_self id req s.tables
  rw [hstored] at hview
  have hslot : ((req.set now stored).isDefault && (s.tables.applyAll
      ((defaultsElsewhere (.update id req) s.tables).map .clearDefault)).models.list.any
        fun other => other.isDefault && other.id != id) = false := by
    rw [Bool.and_eq_false_imp]
    intro hdefault
    rw [List.any_eq_false]
    intro other hother hflagged
    obtain ⟨hflag, hne⟩ := Bool.and_eq_true_iff.mp hflagged
    exact bne_iff_ne.mp hne
      (updateView_slotFree hone hstored hdefault (KeyedMap.mem_list.mp hother) hflag)
  simp only [catalog, CatalogStep.run, Catalog.exec, hcall, Catalog.updateRow, hview]
  rw [if_pos (halone.free _), hslot]
  rfl

/-- The audit statement and the commit make the effects visible. -/
theorem audited_answersAs {tx : ModelTx} {result : ModelRow}
    (hcall : s.calls call = .writing tx (.addAudit result)) (hok : tx.failed = false)
    (halone : s.Alone call) : s.AnswersAs call
      (.ok (s.tables.applyAll (tx.effects ++ [.addAudit tx.request.auditRow]))) := by
  have haudit : catalog.step s (.exec call "") =
      some (s.advance call tx [.addAudit tx.request.auditRow] (.commit result)) := by
    simp only [catalog, CatalogStep.run, Catalog.exec, hcall]
  have haudited := s.advance_calls call tx [.addAudit tx.request.auditRow] (.commit result)
  have hready := halone.advance tx [.addAudit tx.request.auditRow] (.commit result)
  apply Catalog.AnswersAs.cons haudit rfl
  generalize hafter : s.advance call tx [.addAudit tx.request.auditRow] (.commit result) = after
    at haudited hready
  have htables : after.tables = s.tables := hafter ▸ rfl
  have hcommit : catalog.step after (.commit call) = some (after.finish call { tx with
      effects := tx.effects ++ [.addAudit tx.request.auditRow] } result) := by
    simp only [catalog, CatalogStep.run, Catalog.commit, haudited, hok]
    rfl
  rw [← htables]
  have hcommitted : Catalog.Alone { after with
      tables := after.tables.applyAll (tx.effects ++ [.addAudit tx.request.auditRow])
      accepted := (tx.request.kind, tx.request.id) :: after.accepted } call :=
    ⟨hready.locks, hready.pass, hready.calls⟩
  exact .accept hcommit hcommitted

theorem updateOnce_answersAs (hone : s.tables.OneDefault) (hquiet : s.Quiet call) (id : String)
    (req : UpdateRequest) (now : ℤ) :
    s.AnswersAs call (updateOnce id req now s.tables) := by
  have hidle := hquiet.calls call le_rfl
  cases hvalid : req.validate with
  | error error =>
      have hinvalid : catalog.step s (.update call id req now) =
          some (s.answer call (.error error)) := by
        simp only [catalog, CatalogStep.run, Catalog.update, Catalog.openTx, hidle, hvalid]
        rfl
      rw [updateOnce, hvalid]
      exact .refuse hinvalid hquiet.alone
  | ok =>
      have hopen : catalog.step s (.update call id req now) = some
          (s.setCall call (.writing ⟨.update id req, now, [], false⟩ .clear)) := by
        simp only [catalog, CatalogStep.run, Catalog.update, Catalog.openTx, hidle, hvalid]
        rfl
      obtain ⟨cleared, halone, htables, hcleared, houtcome⟩ :=
        exists_cleared (s.setCall_calls call _) (hquiet.alone.setCall _)
      apply Catalog.AnswersAs.cons hopen rfl
      apply houtcome
      change cleared.tables = s.tables at htables
      rw [← htables] at hone ⊢
      rw [updateOnce, hvalid]
      cases hstored : cleared.tables.models.get id with
      | none =>
          have hmissing : catalog.step cleared (.exec call "") =
              some (cleared.answer call (.error .notFound)) := by
            have hview := updateView_self id req cleared.tables
            rw [hstored] at hview
            simp only [catalog, CatalogStep.run, Catalog.exec, hcleared, Catalog.updateRow, hview]
          exact .refuse hmissing halone
      | some stored =>
          have hwrote := cleared.wrote_calls call ⟨.update id req, now,
            (defaultsElsewhere (.update id req) cleared.tables).map .clearDefault, false⟩
            (.update id req now) (req.set now stored)
          have haudit := audited_answersAs hwrote rfl (halone.wrote ..)
          rw [List.append_assoc] at haudit
          exact .cons (step_updateRow hone hstored hcleared halone) rfl haudit

end Calls

/-! ## A pass writes what it decided -/

theorem exec_reconcileRows {body : Json} {now : ℤ} (rows : List ReconcileRow) (s : Catalog)
    (hpass : s.pass = .rows body rows) (hlocks : ∀ id, s.locks (.row id) = none) :
    catalog.exec s (rows.map fun _ => .reconcileRow now now true) =
      some { s with
        tables := rows.foldl (reconcileRow body now) s.tables
        pass := .rows body [] } := by
  induction rows generalizing s with
  | nil =>
      rw [List.foldl_nil, ← hpass]
      rfl
  | cons row rest ih =>
      have hstep : catalog.step s (.reconcileRow now now true) = some { s with
          tables := reconcileRow body now s.tables row
          pass := .rows body rest } := by
        simp only [catalog, CatalogStep.run, Catalog.reconcileRow, hpass, reconcileRow]
        split
        · rfl
        · rw [if_pos (.inr (hlocks row.id))]
          rfl
      rw [List.map_cons, Machine.exec, hstep, Option.bind_some]
      exact ih _ rfl hlocks

/-- While no transaction holds a row, the steps of one pass make `reconcileOnce`. -/
theorem exec_pass (s : Catalog) (body : Json) (now : ℤ) (hpass : s.pass = .idle)
    (hlocks : ∀ id, s.locks (.row id) = none) :
    catalog.exec s (.readView body :: .readRows (reconcileRows s.models) ::
        (reconcileRows s.models).map fun _ => .reconcileRow now now true) =
      some { s with
        tables := reconcileOnce body now s.tables
        pass := .rows body []
        accepted := [] } := by
  have hview : catalog.step s (.readView body) = some { s with pass := .viewed body } := by
    simp only [catalog, CatalogStep.run, Catalog.readView, hpass]
  have hrows : catalog.step { s with pass := .viewed body } (.readRows (reconcileRows s.models)) =
      some { s with pass := .rows body (reconcileRows s.models), accepted := [] } :=
    if_pos (.refl _)
  rw [Machine.exec, hview, Option.bind_some, Machine.exec, hrows, Option.bind_some]
  exact exec_reconcileRows _ _ rfl hlocks

end GpuCluster.Mgmt
