import GpuCluster.Mgmt.EnrollIdentity
import GpuCluster.Mgmt.EnrollOnce
import GpuCluster.Mgmt.Nodes

/-! # The life of a node's status

An enrollment writes the whole row it read, status included, at its commit. The
row stays locked in between, so no admin's change is overwritten, and the status
moves forward only.
-/

namespace GpuCluster.Mgmt

open Foundation

/-! ## What a step does -/

inductive NodeMove (verify : String → String → Bool) (s : NodeTable) : NodeStep → NodeTable → Prop
  | quiet (step : EnrollStep) (call : ℕ) (next : Enrolling)
      (hmoves : Moves verify s.enrolling call false next) :
      NodeMove verify s (.enroll step) ⟨next, s.log⟩
  | committed (call : ℕ) (a : Attempt) (nodeId certSha : String) (started : ℤ)
      (pending : List Effect)
      (hcall : s.enrolling.calls call = .writing a nodeId certSha started .commit pending) :
      NodeMove verify s (.enroll (.commit call))
        ⟨s.enrolling.finish call a nodeId pending, .enrolled nodeId :: s.log⟩
  | untouched (change : StatusChange) (id : String) (audited : Bool) (auditLog : List AuditRow)
      (hnone : change.row s.enrolling.db id = none) :
      NodeMove verify s (.change change id audited)
        ⟨{ s.enrolling with db := { s.enrolling.db with auditLog } }, s.log⟩
  | changed (change : StatusChange) (id : String) (audited : Bool) (auditLog : List AuditRow)
      (row : NodeRow) (hrow : s.enrolling.db.nodes.get id = some row)
      (happlies : change.applies row.status = true)
      (hfree : s.enrolling.locks (.nodeId id) = none) :
      NodeMove verify s (.change change id audited)
        ⟨{ s.enrolling with db := { s.enrolling.db with
            nodes := s.enrolling.db.nodes.insert { row with status := change.target }
            auditLog } }, .changed change id :: s.log⟩

variable {verify : String → String → Bool}

theorem enroll_moves {s next : NodeTable} {step : EnrollStep}
    (hstep : s.enroll verify step = some next) : NodeMove verify s (.enroll step) next := by
  obtain ⟨enrolling, hrun, rfl⟩ := Option.map_eq_some_iff.mp hstep
  obtain ⟨commits, hmoves, hcommit⟩ := EnrollStep.run_moves hrun
  cases step with
  | commit call =>
      simp only [EnrollStep.run, Enrolling.commit] at hrun
      split at hrun
      next a nodeId certSha started pending hcall =>
        cases hrun
        simp only [NodeTable.committed, hcall]
        exact .committed call a nodeId certSha started pending hcall
      next => cases hrun
  | start | lookup | begin | exec | fail =>
      cases commits with
      | false => exact .quiet _ _ enrolling hmoves
      | true => cases hcommit rfl

theorem change_moves {s next : NodeTable} {change : StatusChange} {id : String} {audited : Bool}
    (hstep : s.change change id audited = some next) :
    NodeMove verify s (.change change id audited) next := by
  simp only [NodeTable.change] at hstep
  split at hstep
  next => cases hstep
  next hwaits =>
    cases hrow : change.row s.enrolling.db id with
    | none =>
        cases hrefusal : change.refusal with
        | some error =>
            simp only [StatusChange.exec, hrow, hrefusal] at hstep
            cases hstep
            exact .untouched change id audited s.enrolling.db.auditLog hrow
        | none =>
            simp only [StatusChange.exec, hrow, hrefusal] at hstep
            cases hstep
            exact .untouched change id audited _ hrow
    | some row =>
        simp only [StatusChange.exec, hrow] at hstep
        cases hstep
        obtain ⟨hget, happlies⟩ := Option.filter_eq_some_iff.mp hrow
        have hfree : s.enrolling.locks (.nodeId id) = none := by
          by_contra hheld
          exact hwaits ⟨by rw [hrow]; rfl, hheld⟩
        exact .changed change id audited _ row hget happlies hfree

theorem nodeTable_moves {s next : NodeTable} {step : NodeStep}
    (hstep : (nodeTable verify).step s step = some next) : NodeMove verify s step next := by
  cases step with
  | enroll step => exact enroll_moves hstep
  | change change id audited => exact change_moves hstep

/-! ## Node ids -/

/-- The node of every answered call is stored, whatever happens to its columns
other than the fingerprint. -/
theorem Enrolling.Identified.of_fingerprints {s : Enrolling} (hs : s.Identified) {db : Database}
    (hsame : ∀ id, (db.nodes.get id).map NodeRow.hwFingerprint =
      (s.db.nodes.get id).map NodeRow.hwFingerprint) :
    ({ s with db } : Enrolling).Identified := by
  have hback : ∀ {id later}, db.nodes.get id = some later → ∃ row,
      s.db.nodes.get id = some row ∧ row.hwFingerprint = later.hwFingerprint := by
    intro id later hlater
    have hrow := hsame id
    rw [hlater, Option.map_some, eq_comm] at hrow
    exact Option.map_eq_some_iff.mp hrow
  have hleaves : ∀ call, s.Leaves { s with db } call := fun call => {
    kept := fun id row hrow => by
      have hlater := hsame id
      rw [hrow, Option.map_some] at hlater
      exact Option.map_eq_some_iff.mp hlater
    new := fun id later hlater => .inl (hback hlater)
    minted := fun _ h => h
    locks := fun _ h => h }
  constructor
  · intro id other row otherRow hrow hother hfp
    obtain ⟨old, hold, holdFp⟩ := hback hrow
    obtain ⟨old', hold', holdFp'⟩ := hback hother
    exact hs.unique id other old old' hold hold' (by rw [holdFp, holdFp', hfp])
  · intro call
    exact (hs.calls call).leaves (hleaves call)

theorem NodeMove.identified {s next : NodeTable} {step : NodeStep}
    (hmove : NodeMove verify s step next) (hs : s.enrolling.Identified) :
    next.enrolling.Identified := by
  cases hmove with
  | quiet step call next hmoves => exact hmoves.identified hs
  | committed call a nodeId certSha started pending hcall =>
      have hmoves : Moves verify s.enrolling call true (s.enrolling.finish call a nodeId pending) :=
        .commit a nodeId certSha started pending hcall
      exact hmoves.identified hs
  | untouched => exact hs.of_fingerprints fun _ => rfl
  | changed change other audited auditLog row hrow =>
      apply hs.of_fingerprints
      intro id
      simp only [KeyedMap.get_insert]
      split
      next hid =>
        have hother : row.id = other := KeyedMap.key_of_get hrow
        have hsame : id = other := hid.trans hother
        rw [hsame, hrow]
        rfl
      next => rfl

/-! ## Pending rows -/

/-- The row a call is about to write has the status of the row it found, which
the call keeps locked. -/
structure Enrolling.KeepsStatus (s : Enrolling) (call : ℕ) (nodeId : String) (row : NodeRow) :
    Prop where
  id_eq : row.id = nodeId
  locked : s.locks (.nodeId nodeId) = some call
  stored : ∀ stored, s.db.nodes.get nodeId = some stored → row.status = stored.status
  new : s.db.nodes.get nodeId = none → row.status = "pending_approval"

/-- The rows of all open transactions. -/
def Enrolling.AllKeepStatus (s : Enrolling) : Prop :=
  ∀ call a nodeId certSha started stage pending row,
    s.calls call = .writing a nodeId certSha started stage pending → .putNode row ∈ pending →
    s.KeepsStatus call nodeId row

theorem Enrolling.KeepsStatus.mono {s next : Enrolling} {call : ℕ} {nodeId : String}
    {row : NodeRow} (hkeeps : s.KeepsStatus call nodeId row)
    (hlocks : s.locks (.nodeId nodeId) = some call → next.locks (.nodeId nodeId) = some call)
    (hrow : next.db.nodes.get nodeId = s.db.nodes.get nodeId) :
    next.KeepsStatus call nodeId row where
  id_eq := hkeeps.id_eq
  locked := hlocks hkeeps.locked
  stored stored hget := hkeeps.stored stored (hrow ▸ hget)
  new hnone := hkeeps.new (hrow ▸ hnone)

/-- The locks of the other calls stay. -/
theorem Moves.locks_other {s next : Enrolling} {call other : ℕ} {commits : Bool}
    (hmoves : Moves verify s call commits next) (hother : other ≠ call) {key : Lock}
    (hheld : s.locks key = some other) : next.locks key = some other := by
  cases hmoves with
  | upsert a nodeId certSha started pending row hcall hfree =>
      exact LockTable.acquire_other hfree hother hheld
  | use a nodeId certSha started pending hcall hfree =>
      exact LockTable.acquire_other hfree hother hheld
  | commit | abort => exact LockTable.release_other hother hheld
  | _ => exact hheld

/-- A commit gives a stored node its own status back, and a new one starts
pending. -/
theorem commit_status {s : Enrolling} {call : ℕ} {a : Attempt} {nodeId certSha : String}
    {started : ℤ} {stage : Stage} {pending : List Effect} (hs : s.AllKeepStatus)
    (hcall : s.calls call = .writing a nodeId certSha started stage pending) {id : String}
    {later : NodeRow} (hlater : (s.db.applyAll pending).nodes.get id = some later) :
    (∃ row, s.db.nodes.get id = some row ∧ later.status = row.status) ∨
      s.db.nodes.get id = none ∧ id = nodeId ∧ later.status = "pending_approval" := by
  rcases s.db.applyAll_nodes pending id with ⟨hsame, -⟩ | ⟨row, hmem, rfl, hrow⟩
  · exact .inl ⟨later, hsame ▸ hlater, rfl⟩
  · cases hrow.symm.trans hlater
    have hkeeps := hs call a nodeId certSha started stage pending later hcall hmem
    have hid := hkeeps.id_eq
    cases hstored : s.db.nodes.get later.id with
    | some stored => exact .inl ⟨stored, rfl, hkeeps.stored stored (hid ▸ hstored)⟩
    | none => exact .inr ⟨rfl, hid, hkeeps.new (hid ▸ hstored)⟩

/-- A commit changes no row but the one its call has locked. -/
theorem commit_other {s : Enrolling} {call other : ℕ} {a : Attempt} {nodeId certSha : String}
    {started : ℤ} {stage : Stage} {pending : List Effect} (hs : s.AllKeepStatus)
    (hcall : s.calls call = .writing a nodeId certSha started stage pending)
    (hother : other ≠ call) {id : String} (hheld : s.locks (.nodeId id) = some other) :
    (s.db.applyAll pending).nodes.get id = s.db.nodes.get id := by
  rcases s.db.applyAll_nodes pending id with ⟨hsame, -⟩ | ⟨row, hmem, rfl, -⟩
  · exact hsame
  · have hkeeps := hs call a nodeId certSha started stage pending row hcall hmem
    rw [hkeeps.id_eq, hkeeps.locked, Option.some.injEq] at hheld
    exact absurd hheld.symm hother

/-- A statement that writes no node leaves the call's pending row as it is. -/
theorem Enrolling.AllKeepStatus.append {s next : Enrolling} {call : ℕ} (hs : s.AllKeepStatus)
    {a : Attempt} {nodeId certSha : String} {started : ℤ} {stage : Stage}
    {pending more : List Effect}
    (hcall : s.calls call = .writing a nodeId certSha started stage pending) (hdb : next.db = s.db)
    (hlocks : ∀ key, s.locks key = some call → next.locks key = some call)
    (hmore : ∀ row, Effect.putNode row ∉ more) {row : NodeRow}
    (hmem : .putNode row ∈ pending ++ more) : next.KeepsStatus call nodeId row := by
  rcases List.mem_append.mp hmem with hold | hnew
  · exact (hs call a nodeId certSha started stage pending row hcall hold).mono (hlocks _)
      (by rw [hdb])
  · exact absurd hnew (hmore row)

theorem Moves.allKeepStatus {s next : Enrolling} {call : ℕ} {commits : Bool}
    (hmoves : Moves verify s call commits next) (hs : s.AllKeepStatus) : next.AllKeepStatus := by
  intro other b otherId sha began stage pending row hother hmem
  by_cases hsame : other = call
  · -- the call that moved
    subst hsame
    cases hmoves with
    | refuse | pick | found | drawn | abort | commit =>
        simp [Enrolling.abort, Enrolling.finish, Enrolling.setCall] at hother
    | begin =>
        simp only [Enrolling.setCall, Function.update_self] at hother
        cases hother
        cases hmem
    | upsert a nodeId certSha started before written hcall hfree hrow =>
        simp only [Enrolling.setCall, Function.update_self] at hother
        cases hother
        have hwritten : row = written := by simpa using hmem
        subst hwritten
        have hlocked : s.locks.acquire other [.nodeId otherId, .fingerprint b.req.hwFingerprint]
            (.nodeId otherId) = some other := LockTable.acquire_of_mem (by simp)
        rcases hrow with ⟨stored, hstored, rfl⟩ | ⟨hnone, -, rfl⟩
        · have hid : stored.id = otherId := KeyedMap.key_of_get hstored
          refine ⟨hid, hlocked, fun found hfound => ?_, fun hnone => ?_⟩
          · cases hstored.symm.trans hfound
            rfl
          · cases hstored.symm.trans hnone
        · refine ⟨rfl, hlocked, fun found hfound => ?_, fun _ => rfl⟩
          cases hnone.symm.trans hfound
    | history a nodeId certSha started before hcall =>
        simp only [Enrolling.setCall, Function.update_self] at hother
        cases hother
        refine hs.append hcall ?_ ?_ ?_ hmem
        · rfl
        · exact fun _ h => h
        · simp
    | use a nodeId certSha started before hcall hfree =>
        simp only [Enrolling.setCall, Function.update_self] at hother
        cases hother
        refine hs.append hcall ?_ ?_ ?_ hmem
        · rfl
        · exact fun _ h => LockTable.acquire_keeps h
        · simp
    | audit a nodeId certSha started before hcall =>
        simp only [Enrolling.setCall, Function.update_self] at hother
        cases hother
        refine hs.append hcall ?_ ?_ ?_ hmem
        · rfl
        · exact fun _ h => h
        · simp
  · rw [hmoves.calls_ne hsame] at hother
    have hkeeps := hs other b otherId sha began stage pending row hother hmem
    refine hkeeps.mono (hmoves.locks_other hsame) ?_
    cases hmoves with
    | commit a nodeId certSha started written hcall =>
        exact commit_other hs hcall hsame hkeeps.locked
    | _ => rfl

theorem NodeMove.allKeepStatus {s next : NodeTable} {step : NodeStep}
    (hmove : NodeMove verify s step next) (hs : s.enrolling.AllKeepStatus) :
    next.enrolling.AllKeepStatus := by
  cases hmove with
  | quiet step call next hmoves => exact hmoves.allKeepStatus hs
  | committed call a nodeId certSha started pending hcall =>
      have hmoves : Moves verify s.enrolling call true (s.enrolling.finish call a nodeId pending) :=
        .commit a nodeId certSha started pending hcall
      exact hmoves.allKeepStatus hs
  | untouched change id audited auditLog =>
      intro call a nodeId certSha started stage pending written hcall hmem
      have hkeeps := hs call a nodeId certSha started stage pending written hcall hmem
      exact hkeeps.mono (fun h => h) rfl
  | changed change id audited auditLog row hrow happlies hfree =>
      intro call a nodeId certSha started stage pending written hcall hmem
      have hkeeps := hs call a nodeId certSha started stage pending written hcall hmem
      refine hkeeps.mono (fun h => h) (KeyedMap.get_insert_ne _ _ ?_)
      -- the changed row is not locked
      intro hsame
      have hlocked := hkeeps.locked
      rw [hsame, KeyedMap.key_of_get hrow, hfree] at hlocked
      cases hlocked

/-! ## The order of statuses -/

/-- The changes of a status that are allowed. -/
inductive StatusMove : String → String → Prop
  | kept (status : String) : StatusMove status status
  | approved : StatusMove "pending_approval" "online"
  | drained : StatusMove "online" "draining"
  | revoked (status : String) : StatusMove status "revoked"

/-- An approval of the node succeeded after its enrollment. -/
def ApprovedSince (log : List NodeEvent) (id : String) : Prop :=
  ∃ newer older, log = newer ++ .changed .approve id :: older ∧ .enrolled id ∈ older

theorem ApprovedSince.cons {log : List NodeEvent} {id : String} (happroved : ApprovedSince log id)
    (event : NodeEvent) : ApprovedSince (event :: log) id := by
  obtain ⟨newer, older, rfl, henrolled⟩ := happroved
  exact ⟨event :: newer, older, rfl, henrolled⟩

/-- A stored row has one of four statuses, was enrolled, and was approved if it
has come past the first. -/
structure NodeRow.Regular (log : List NodeEvent) (row : NodeRow) : Prop where
  status : row.status ∈ ["pending_approval", "online", "draining", "revoked"]
  enrolled : .enrolled row.id ∈ log
  approved : row.status = "online" ∨ row.status = "draining" → ApprovedSince log row.id

structure NodeTable.Ordered (s : NodeTable) : Prop where
  pending : s.enrolling.AllKeepStatus
  rows : ∀ id row, s.enrolling.db.nodes.get id = some row → row.Regular s.log

/-- What a step makes of a stored row, and the status of a new one. -/
theorem NodeMove.row {s next : NodeTable} {step : NodeStep} (hmove : NodeMove verify s step next)
    (hs : s.Ordered) {id : String} {later : NodeRow}
    (hlater : next.enrolling.db.nodes.get id = some later) :
    (∃ row, s.enrolling.db.nodes.get id = some row ∧
      (later.status = row.status ∨ ∃ change audited, step = .change change id audited ∧
        change.applies row.status = true ∧ later.status = change.target ∧
        next.log = .changed change id :: s.log)) ∨
      s.enrolling.db.nodes.get id = none ∧ later.status = "pending_approval" ∧
        .enrolled id ∈ next.log := by
  cases hmove with
  | quiet step call next hmoves => exact .inl ⟨later, hmoves.quiet.1 ▸ hlater, .inl rfl⟩
  | committed call a nodeId certSha started pending hcall =>
      rcases commit_status hs.pending hcall hlater with ⟨row, hrow, hsame⟩ | ⟨hnone, rfl, hstatus⟩
      · exact .inl ⟨row, hrow, .inl hsame⟩
      · exact .inr ⟨hnone, hstatus, List.mem_cons_self⟩
  | untouched => exact .inl ⟨later, hlater, .inl rfl⟩
  | changed change other audited auditLog row hrow happlies hfree =>
      simp only at hlater
      rw [KeyedMap.get_insert] at hlater
      split at hlater
      next hid =>
        cases hlater
        have hother : row.id = other := KeyedMap.key_of_get hrow
        have hsame : id = other := hid.trans hother
        subst hsame
        exact .inl ⟨row, hrow, .inr ⟨change, audited, rfl, happlies, rfl, rfl⟩⟩
      next => exact .inl ⟨later, hlater, .inl rfl⟩

/-- Stored nodes stay stored. -/
theorem NodeMove.stays {s next : NodeTable} {step : NodeStep} (hmove : NodeMove verify s step next)
    {id : String} (hrow : (s.enrolling.db.nodes.get id).isSome) :
    (next.enrolling.db.nodes.get id).isSome := by
  cases hmove with
  | quiet step call next hmoves => rwa [hmoves.quiet.1]
  | committed call a nodeId certSha started pending hcall =>
      exact s.enrolling.db.applyAll_nodes_isSome pending id (.inl hrow)
  | untouched => exact hrow
  | changed => exact KeyedMap.isSome_get_insert _ hrow

theorem NodeMove.log_suffix {s next : NodeTable} {step : NodeStep}
    (hmove : NodeMove verify s step next) {event : NodeEvent} (hmem : event ∈ s.log) :
    event ∈ next.log := by
  cases hmove with
  | quiet | untouched => exact hmem
  | committed | changed => exact List.mem_cons_of_mem _ hmem

theorem NodeMove.approvedSince {s next : NodeTable} {step : NodeStep}
    (hmove : NodeMove verify s step next) {id : String} (happroved : ApprovedSince s.log id) :
    ApprovedSince next.log id := by
  cases hmove with
  | quiet | untouched => exact happroved
  | committed | changed => exact happroved.cons _

/-- Only an online node can be drained, since no handler writes `degraded`. -/
theorem NodeRow.Regular.online_of_drain {log : List NodeEvent} {row : NodeRow}
    (hrow : row.Regular log) (happlies : StatusChange.drain.applies row.status = true) :
    row.status = "online" := by
  have hmem := hrow.status
  simp only [StatusChange.applies, List.mem_cons, List.not_mem_nil, or_false,
    decide_eq_true_eq] at happlies hmem
  rcases happlies with hcase | hcase
  · exact hcase
  · rw [hcase] at hmem
    simp at hmem

/-- A change that applies to a regular row is an allowed one. -/
theorem NodeRow.Regular.statusMove {log : List NodeEvent} {row : NodeRow} (hrow : row.Regular log)
    {change : StatusChange} (happlies : change.applies row.status = true) :
    StatusMove row.status change.target := by
  cases change with
  | approve =>
      have hstatus : row.status = "pending_approval" := by
        simpa [StatusChange.applies] using happlies
      rw [hstatus]
      exact .approved
  | revoke => exact .revoked row.status
  | drain =>
      rw [hrow.online_of_drain happlies]
      exact .drained

theorem NodeMove.ordered {s next : NodeTable} {step : NodeStep}
    (hmove : NodeMove verify s step next) (hs : s.Ordered) : next.Ordered := by
  refine ⟨hmove.allKeepStatus hs.pending, fun id later hlater => ?_⟩
  have hid : later.id = id := KeyedMap.key_of_get hlater
  rcases hmove.row hs hlater with ⟨row, hrow, hcase⟩ | ⟨-, hstatus, henrolled⟩
  · have hregular := hs.rows id row hrow
    have hrowId : row.id = id := KeyedMap.key_of_get hrow
    have henrolled := hmove.log_suffix hregular.enrolled
    rcases hcase with hsame | ⟨change, audited, -, happlies, htarget, hlog⟩
    · refine ⟨hsame ▸ hregular.status, by rwa [hid, ← hrowId], fun hpast => ?_⟩
      rw [hsame] at hpast
      rw [hid, ← hrowId]
      exact hmove.approvedSince (hregular.approved hpast)
    · refine ⟨?_, by rwa [hid, ← hrowId], fun hpast => ?_⟩
      · rw [htarget]
        cases change <;> decide
      · cases change with
        | approve =>
            rw [hid]
            exact ⟨[], s.log, hlog, hrowId ▸ hregular.enrolled⟩
        | revoke =>
            rw [htarget] at hpast
            simp [StatusChange.target] at hpast
        | drain =>
            rw [hid, ← hrowId]
            have honline := hregular.online_of_drain happlies
            exact hmove.approvedSince (hregular.approved (.inl honline))
  · refine ⟨by simp [hstatus], hid ▸ henrolled, fun hpast => ?_⟩
    rw [hstatus] at hpast
    simp at hpast

theorem ordered_of_reachable {s : NodeTable} (hreach : (nodeTable verify).Reachable s) :
    s.Ordered := by
  apply hreach.invariant
  · intro state hinit
    obtain ⟨db, hempty, rfl⟩ := hinit
    refine ⟨fun call a nodeId certSha started stage pending row hcall => ?_, fun id row hget => ?_⟩
    · cases hcall
    · change db.nodes.get id = some row at hget
      rw [hempty, KeyedMap.get_empty] at hget
      cases hget
  · intro state step next hs hstep
    exact (nodeTable_moves hstep).ordered hs

/-! ## Every run -/

theorem StatusMove.from_revoked {status : String} (hmove : StatusMove "revoked" status) :
    status = "revoked" := by
  generalize hfrom : "revoked" = origin at hmove
  cases hmove with
  | kept => rfl
  | approved => simp at hfrom
  | drained => simp at hfrom
  | revoked => exact hfrom

/-- What one step makes of a stored node's status. -/
theorem NodeMove.statusMove {s next : NodeTable} {step : NodeStep}
    (hmove : NodeMove verify s step next) (hs : s.Ordered) {id : String} {row : NodeRow}
    (hrow : s.enrolling.db.nodes.get id = some row) :
    ∃ later, next.enrolling.db.nodes.get id = some later ∧ StatusMove row.status later.status ∧
      ∀ enroll, step = .enroll enroll → later.status = row.status := by
  obtain ⟨later, hlater⟩ := Option.isSome_iff_exists.mp (hmove.stays (by rw [hrow]; rfl))
  refine ⟨later, hlater, ?_⟩
  rcases hmove.row hs hlater with ⟨found, hfound, hcase⟩ | ⟨hnone, -, -⟩
  · cases hrow.symm.trans hfound
    rcases hcase with hsame | ⟨change, audited, rfl, happlies, htarget, -⟩
    · exact ⟨hsame ▸ .kept _, fun _ _ => hsame⟩
    · refine ⟨htarget ▸ (hs.rows id row hrow).statusMove happlies, fun enroll hstep => ?_⟩
      cases hstep
  · rw [hrow] at hnone
    cases hnone

theorem stays_revoked {s last : NodeTable} (hs : s.Ordered) {steps : List NodeStep}
    (hexec : (nodeTable verify).exec s steps = some last) {id : String} {row : NodeRow}
    (hrow : s.enrolling.db.nodes.get id = some row) (hrevoked : row.status = "revoked") :
    ∃ later, last.enrolling.db.nodes.get id = some later ∧ later.status = "revoked" := by
  let inv (s : NodeTable) : Prop := s.Ordered ∧
    ∃ row, s.enrolling.db.nodes.get id = some row ∧ row.status = "revoked"
  have hlast : inv last := by
    refine Machine.exec_invariant inv (fun state step next hstate hstep => ?_)
      ⟨hs, row, hrow, hrevoked⟩ hexec
    obtain ⟨hordered, found, hfound, hfoundRevoked⟩ := hstate
    have hmove := nodeTable_moves hstep
    obtain ⟨later, hlater, hforward, -⟩ := hmove.statusMove hordered hfound
    rw [hfoundRevoked] at hforward
    exact ⟨hmove.ordered hordered, later, hlater, hforward.from_revoked⟩
  exact hlast.2

/-- In every interleaving: a stored node's status moves forward only and no
enrollment changes it, a new node is pending, a revoked one stays revoked, and a
node past the approval was approved after its enrollment. -/
theorem nodeStatus_onlyForward {s : NodeTable} (hreach : (nodeTable verify).Reachable s) :
    (∀ step next, (nodeTable verify).step s step = some next → ∀ id row,
      s.enrolling.db.nodes.get id = some row →
      ∃ later, next.enrolling.db.nodes.get id = some later ∧ StatusMove row.status later.status ∧
        ∀ enroll, step = .enroll enroll → later.status = row.status) ∧
    (∀ step next, (nodeTable verify).step s step = some next → ∀ id later,
      s.enrolling.db.nodes.get id = none → next.enrolling.db.nodes.get id = some later →
      later.status = "pending_approval") ∧
    (∀ steps last, (nodeTable verify).exec s steps = some last → ∀ id row,
      s.enrolling.db.nodes.get id = some row → row.status = "revoked" →
      ∃ later, last.enrolling.db.nodes.get id = some later ∧ later.status = "revoked") ∧
    ∀ id row, s.enrolling.db.nodes.get id = some row →
      row.status ∈ ["pending_approval", "online", "draining", "revoked"] ∧
      (row.status = "online" ∨ row.status = "draining" → ApprovedSince s.log id) := by
  have hs := ordered_of_reachable hreach
  refine ⟨fun step next hstep id row hrow => ?_, fun step next hstep id later hnone hlater => ?_,
    fun steps last hexec id row hrow hrevoked => stays_revoked hs hexec hrow hrevoked,
    fun id row hrow => ?_⟩
  · exact (nodeTable_moves hstep).statusMove hs hrow
  · rcases (nodeTable_moves hstep).row hs hlater with ⟨row, hrow, -⟩ | ⟨-, hstatus, -⟩
    · rw [hnone] at hrow
      cases hrow
    · exact hstatus
  · have hregular := hs.rows id row hrow
    have hid : row.id = id := KeyedMap.key_of_get hrow
    exact ⟨hregular.status, hid ▸ hregular.approved⟩

/-- A node that is drained after its approval. -/
theorem drainedNode_wasApproved :
    let steps := (untilCommit 0 "hw" "n" ++ [EnrollStep.commit 0]).map NodeStep.enroll ++
      [.change .approve "n" true, .change .drain "n" true]
    ∃ s row, (nodeTable fun hash secret => hash == secret).exec ⟨.initial oneToken, []⟩ steps =
        some s ∧ s.enrolling.db.nodes.get "n" = some row ∧ row.status = "draining" ∧
      ApprovedSince s.log "n" := by
  intro steps
  obtain ⟨s, row, hrun, hrow, hstatus⟩ : ∃ s row,
      (nodeTable fun hash secret => hash == secret).exec ⟨.initial oneToken, []⟩ steps = some s ∧
        s.enrolling.db.nodes.get "n" = some row ∧ row.status = "draining" :=
    ⟨_, _, rfl, rfl, rfl⟩
  have hreach : (nodeTable fun hash secret => hash == secret).Reachable s :=
    .exec (.init ⟨oneToken, rfl, rfl⟩) hrun
  exact ⟨s, row, hrun, hrow, hstatus,
    ((nodeStatus_onlyForward hreach).2.2.2 "n" row hrow).2 (.inr hstatus)⟩

end GpuCluster.Mgmt
