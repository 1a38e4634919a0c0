import GpuCluster.Foundation.Recording
import GpuCluster.Mgmt.EnrollResponse
import GpuCluster.Mgmt.NodeStatus

/-! # Certificates of revoked nodes

`complete` finds a known machine by its fingerprint and issues a new certificate
for its node, whatever the node's status. A token that is used for the machine after
the revocation, or across it, gets the revoked node certified.
-/

namespace GpuCluster.Mgmt

open Foundation

/-- The tables, and the answers that have left the service. An answer follows its
commit at some distance, since the mesh is asked for a join key in between. -/
structure Issuing where
  table : NodeTable
  answers : ℕ → Option EnrollResponse

inductive IssuingStep
  | table (step : NodeStep)
  | answer (call : ℕ) (context : EnrollContext)

namespace Issuing

def initial (db : Database) : Issuing :=
  ⟨⟨.initial { db with nodes := .empty }, []⟩, fun _ => none⟩

/-- The end of `complete`. -/
def answer (s : Issuing) (call : ℕ) (context : EnrollContext) : Option Issuing :=
  match s.table.enrolling.calls call, s.answers call with
  | .succeeded a nodeId, none => some { s with
      answers := Function.update s.answers call (some (a.response nodeId context)) }
  | _, _ => none

end Issuing

def IssuingStep.run (verify : String → String → Bool) (s : Issuing) :
    IssuingStep → Option Issuing
  | .table step => ((nodeTable verify).step s.table step).map fun table => { s with table }
  | .answer call context => s.answer call context

/-- Approvals, revocations, drains and enrollments up to their answers. -/
def issuing (verify : String → String → Bool) : Machine Issuing IssuingStep where
  init s := ∃ db, s = .initial db
  step s action := action.run verify s

/-- An answer names no node that is revoked when it is given. -/
def CertifiesNoneRevoked (s : Issuing) : IssuingStep → Prop
  | .answer call context => ∀ a nodeId row, s.table.enrolling.calls call = .succeeded a nodeId →
      s.table.enrolling.db.nodes.get (a.response nodeId context).clientCert.commonName = some row →
      row.status ≠ "revoked"
  | _ => True

/-! ## Calls and revocations -/

/-- The fingerprint of a call that has looked its machine up. -/
def CallState.lookedUp : CallState → Option String
  | .identified a _ _ => some a.req.hwFingerprint
  | .writing a _ _ _ _ _ => some a.req.hwFingerprint
  | .succeeded a _ => some a.req.hwFingerprint
  | _ => none

/-- A stored node of the machine is revoked. -/
def NodeTable.machineRevoked (s : NodeTable) (hwFingerprint : String) : Bool :=
  s.enrolling.db.nodes.list.any fun row =>
    row.hwFingerprint = hwFingerprint && row.status = "revoked"

/-- Which calls meet a revocation of their machine: it is revoked when they look it up,
or an admin revokes it later. -/
def noteRevocations (s : Issuing) (action : IssuingStep) (crossed : ℕ → Bool) : ℕ → Bool :=
  match action with
  | .table (.enroll (.lookup call _ _)) => Function.update crossed call
      (match s.table.enrolling.calls call with
        | .matched a => s.table.machineRevoked a.req.hwFingerprint
        | _ => false)
  | .table (.change .revoke id _) => fun call => crossed call ||
      (s.table.enrolling.calls call).lookedUp.any fun hwFingerprint =>
        (s.table.enrolling.db.nodes.get id).any (·.hwFingerprint = hwFingerprint)
  | _ => crossed

/-- The machine with these calls beside it. -/
def watched (verify : String → String → Bool) : Machine (Issuing × (ℕ → Bool)) IssuingStep :=
  (issuing verify).recording noteRevocations fun _ => false

/-- An answered call has met no revocation between its lookup and its answer, nor was
its machine revoked at the lookup. -/
def AnswersUncrossed (s : Issuing × (ℕ → Bool)) : IssuingStep → Prop
  | .answer call _ => s.2 call = false
  | _ => True

/-! ## Status and log -/

/-- A node is revoked when its log says so, and only stored nodes are changed. -/
structure NodeTable.Logged (s : NodeTable) : Prop where
  ordered : s.Ordered
  identified : s.enrolling.Identified
  revoked : ∀ id row, s.enrolling.db.nodes.get id = some row →
    (row.status = "revoked" ↔ .changed .revoke id ∈ s.log)
  changed : ∀ id change, .changed change id ∈ s.log → (s.enrolling.db.nodes.get id).isSome

variable {verify : String → String → Bool}

theorem NodeTable.logged_initial (db : Database) :
    (⟨.initial { db with nodes := .empty }, []⟩ : NodeTable).Logged := by
  have hnone : ∀ id, ({ db with nodes := .empty } : Database).nodes.get id = none := by
    intro id
    exact KeyedMap.get_empty id
  have hreach : (nodeTable fun _ _ => true).Reachable
      ⟨.initial { db with nodes := .empty }, []⟩ := .init ⟨_, rfl, rfl⟩
  refine ⟨ordered_of_reachable hreach, ⟨?_, fun _ => trivial⟩, ?_, fun _ _ hmem => by cases hmem⟩
  · intro id other row otherRow hrow
    exact nomatch (hnone id).symm.trans hrow
  · intro id row hrow
    exact nomatch (hnone id).symm.trans hrow

/-- Only a revocation revokes. -/
theorem StatusChange.target_revoked {change : StatusChange} :
    change.target = "revoked" ↔ change = .revoke := by
  cases change <;> decide

/-- The other changes pass revoked nodes by. -/
theorem NodeRow.Regular.revoke_of_revoked {log : List NodeEvent} {row : NodeRow}
    (hrow : row.Regular log) {change : StatusChange} (happlies : change.applies row.status = true)
    (hrevoked : row.status = "revoked") : change = .revoke := by
  cases change with
  | revoke => rfl
  | approve => simp [StatusChange.applies, hrevoked] at happlies
  | drain =>
      have honline := hrow.online_of_drain happlies
      rw [hrevoked] at honline
      simp at honline

theorem NodeMove.revoked_iff {s next : NodeTable} {step : NodeStep}
    (hmove : NodeMove verify s step next) (hs : s.Logged) {id : String} {later : NodeRow}
    (hlater : next.enrolling.db.nodes.get id = some later) :
    later.status = "revoked" ↔ .changed .revoke id ∈ next.log := by
  cases hmove with
  | quiet step call next hmoves =>
      rw [hmoves.quiet.1] at hlater
      exact hs.revoked id later hlater
  | committed call a nodeId certSha started pending hcall =>
      have hlog : .changed .revoke id ∈ NodeEvent.enrolled nodeId :: s.log ↔
          .changed .revoke id ∈ s.log := by simp
      rw [hlog]
      rcases commit_status hs.ordered.pending hcall hlater with
        ⟨row, hrow, hsame⟩ | ⟨hnone, rfl, hstatus⟩
      · rw [hsame]
        exact hs.revoked id row hrow
      · -- a node that is new has no changes behind it
        refine iff_of_false (by simp [hstatus]) fun hmem => ?_
        have hstored := hs.changed _ _ hmem
        rw [hnone] at hstored
        cases hstored
  | untouched => exact hs.revoked id later hlater
  | changed change other audited auditLog row hrow happlies =>
      have hother : row.id = other := KeyedMap.key_of_get hrow
      rcases KeyedMap.get_insert_eq_some.mp hlater with ⟨hid, rfl⟩ | ⟨hne, hold⟩
      · have hsame : id = other := hid.trans hother
        subst hsame
        simp only [StatusChange.target_revoked, List.mem_cons, NodeEvent.changed.injEq, and_true]
        constructor
        · intro hrevoke
          exact .inl hrevoke.symm
        · rintro (hrevoke | hmem)
          · exact hrevoke.symm
          · have hregular := hs.ordered.rows id row hrow
            exact hregular.revoke_of_revoked happlies ((hs.revoked id row hrow).mpr hmem)
      · have hlog : .changed .revoke id ∈ NodeEvent.changed change other :: s.log ↔
            .changed .revoke id ∈ s.log := by
          simp only [List.mem_cons, NodeEvent.changed.injEq, or_iff_right_iff_imp]
          intro hsame
          exact absurd (hsame.2.trans hother.symm) hne
        rw [hlog]
        exact hs.revoked id later hold

theorem NodeMove.logged {s next : NodeTable} {step : NodeStep}
    (hmove : NodeMove verify s step next) (hs : s.Logged) : next.Logged := by
  refine ⟨hmove.ordered hs.ordered, hmove.identified hs.identified,
    fun id later hlater => hmove.revoked_iff hs hlater, fun id change hmem => ?_⟩
  have hold : .changed change id ∈ s.log → (next.enrolling.db.nodes.get id).isSome :=
    fun hmem => hmove.stays (hs.changed id change hmem)
  cases hmove with
  | quiet | untouched => exact hold hmem
  | committed =>
      rcases List.mem_cons.mp hmem with hnew | hmem
      · cases hnew
      · exact hold hmem
  | changed other otherId audited auditLog row hrow =>
      rcases List.mem_cons.mp hmem with hnew | hmem
      · cases hnew
        apply KeyedMap.isSome_get_insert
        rw [hrow]
        rfl
      · exact hold hmem

/-! ## Machines -/

/-- A stored node of the machine has been revoked. -/
def NodeTable.RevokedMachine (s : NodeTable) (hwFingerprint : String) : Prop :=
  ∃ id row, s.enrolling.db.nodes.get id = some row ∧ row.hwFingerprint = hwFingerprint ∧
    .changed .revoke id ∈ s.log

theorem NodeTable.Logged.machineRevoked_iff {s : NodeTable} (hs : s.Logged)
    (hwFingerprint : String) :
    s.machineRevoked hwFingerprint = true ↔ s.RevokedMachine hwFingerprint := by
  simp only [NodeTable.machineRevoked, List.any_eq_true, Bool.and_eq_true, decide_eq_true_eq,
    KeyedMap.mem_list]
  constructor
  · rintro ⟨row, hrow, hfp, hstatus⟩
    exact ⟨row.id, row, hrow, hfp, (hs.revoked row.id row hrow).mp hstatus⟩
  · rintro ⟨id, row, hrow, hfp, hmem⟩
    obtain rfl := KeyedMap.key_of_get hrow
    exact ⟨row, hrow, hfp, (hs.revoked row.id row hrow).mpr hmem⟩

/-- Stored nodes keep their machines. -/
theorem NodeMove.kept {s next : NodeTable} {step : NodeStep} (hmove : NodeMove verify s step next)
    (hs : s.enrolling.Identified) {id : String} {row : NodeRow}
    (hrow : s.enrolling.db.nodes.get id = some row) :
    ∃ later, next.enrolling.db.nodes.get id = some later ∧
      later.hwFingerprint = row.hwFingerprint := by
  cases hmove with
  | quiet step call next hmoves => exact ⟨row, hmoves.quiet.1 ▸ hrow, rfl⟩
  | committed call a nodeId certSha started pending hcall =>
      have hmoves : Moves verify s.enrolling call true (s.enrolling.finish call a nodeId pending) :=
        .commit a nodeId certSha started pending hcall
      exact (hmoves.leaves hs (Nat.succ_ne_self call)).kept id row hrow
  | untouched => exact ⟨row, hrow, rfl⟩
  | changed change other audited auditLog stored hstored =>
      let written : NodeRow := { stored with status := change.target }
      by_cases hid : id = stored.id
      · subst hid
        obtain rfl := KeyedMap.key_of_get hstored
        cases hstored.symm.trans hrow
        exact ⟨written, s.enrolling.db.nodes.get_insert_self written, rfl⟩
      · exact ⟨row, (s.enrolling.db.nodes.get_insert_ne written hid).trans hrow, rfl⟩

/-- A machine's node is revoked by the statement of `revoke` alone. -/
theorem NodeMove.revokedMachine_iff {s next : NodeTable} {step : NodeStep}
    (hmove : NodeMove verify s step next) (hs : s.Logged) (hwFingerprint : String) :
    next.RevokedMachine hwFingerprint ↔ s.RevokedMachine hwFingerprint ∨
      ∃ id audited row, step = .change .revoke id audited ∧
        s.enrolling.db.nodes.get id = some row ∧ row.hwFingerprint = hwFingerprint := by
  constructor
  · rintro ⟨id, later, hlater, hfp, hmem⟩
    have hkept : ∀ row, s.enrolling.db.nodes.get id = some row →
        row.hwFingerprint = hwFingerprint := by
      intro row hrow
      obtain ⟨found, hfound, hsame⟩ := hmove.kept hs.identified hrow
      cases hfound.symm.trans hlater
      exact hsame.symm.trans hfp
    by_cases hold : .changed .revoke id ∈ s.log
    · obtain ⟨row, hrow⟩ := Option.isSome_iff_exists.mp (hs.changed id .revoke hold)
      exact .inl ⟨id, row, hrow, hkept row hrow, hold⟩
    · cases hmove with
      | quiet | untouched => exact absurd hmem hold
      | committed =>
          rcases List.mem_cons.mp hmem with hnew | hmem
          · cases hnew
          · exact absurd hmem hold
      | changed change other audited auditLog row hrow =>
          rcases List.mem_cons.mp hmem with hnew | hmem
          · cases hnew
            exact .inr ⟨id, audited, row, rfl, hrow, hkept row hrow⟩
          · exact absurd hmem hold
  · rintro (⟨id, row, hrow, hfp, hmem⟩ | ⟨id, audited, row, rfl, hrow, hfp⟩)
    · obtain ⟨later, hlater, hsame⟩ := hmove.kept hs.identified hrow
      exact ⟨id, later, hlater, hsame.trans hfp, hmove.log_suffix hmem⟩
    · obtain ⟨later, hlater, hsame⟩ := hmove.kept hs.identified hrow
      refine ⟨id, later, hlater, hsame.trans hfp, ?_⟩
      cases hmove with
      | untouched _ _ _ _ hnone =>
          rw [StatusChange.row, hrow] at hnone
          cases hnone
      | changed => exact List.mem_cons_self

/-- A call looks its machine up in one step. -/
theorem EnrollStep.lookedUp_cases {s next : Enrolling} {step : EnrollStep}
    (hrun : step.run verify s = some next) {call : ℕ} {hwFingerprint : String}
    (hlooked : (next.calls call).lookedUp = some hwFingerprint) :
    (s.calls call).lookedUp = some hwFingerprint ∨ ∃ freshId certSha a,
      step = .lookup call freshId certSha ∧ s.calls call = .matched a ∧
        a.req.hwFingerprint = hwFingerprint := by
  obtain ⟨commits, hmoves, -⟩ := EnrollStep.run_moves hrun
  by_cases hsame : call = step.call
  · subst hsame
    have hmatched : ∀ a, s.calls step.call = .matched a → a.req.hwFingerprint = hwFingerprint →
        ∃ freshId certSha b, step = .lookup step.call freshId certSha ∧
          s.calls step.call = .matched b ∧ b.req.hwFingerprint = hwFingerprint := by
      intro a hcall hfp
      cases step with
      | lookup call freshId certSha => exact ⟨freshId, certSha, a, rfl, hcall, hfp⟩
      | start | begin | exec | commit =>
          simp only [EnrollStep.call] at hcall
          simp [EnrollStep.run, Enrolling.start, Enrolling.begin, Enrolling.exec,
            Enrolling.commit, hcall] at hrun
      | fail call message =>
          simp only [EnrollStep.call] at hcall
          simp only [EnrollStep.run, Enrolling.fail, hcall, Option.some.injEq] at hrun
          subst hrun
          simp [EnrollStep.call, Enrolling.abort, Enrolling.setCall, CallState.lookedUp] at hlooked
    cases hmoves with
    | found a _ _ hcall | drawn a _ _ hcall =>
        simp only [Enrolling.setCall, Function.update_self, CallState.lookedUp,
          Option.some.injEq] at hlooked
        exact .inr (hmatched a hcall hlooked)
    | begin _ _ _ _ hcall | upsert _ _ _ _ _ _ hcall | history _ _ _ _ _ hcall
    | use _ _ _ _ _ hcall | audit _ _ _ _ _ hcall =>
        simp only [Enrolling.setCall, Function.update_self] at hlooked
        rw [hcall]
        exact .inl hlooked
    | commit a nodeId certSha started pending hcall =>
        simp only [Enrolling.finish, Enrolling.setCall, Function.update_self] at hlooked
        rw [hcall]
        exact .inl hlooked
    | refuse | pick | abort =>
        simp [Enrolling.abort, Enrolling.setCall, CallState.lookedUp] at hlooked
  · rw [hmoves.calls_ne hsame] at hlooked
    exact .inl hlooked

/-! ## Every run -/

/-- A call that has looked its machine up has met a revocation exactly when the machine's
node has been revoked. -/
structure Watched (table : NodeTable) (crossed : ℕ → Bool) : Prop where
  logged : table.Logged
  met : ∀ call hwFingerprint, (table.enrolling.calls call).lookedUp = some hwFingerprint →
    (crossed call = true ↔ table.RevokedMachine hwFingerprint)

theorem Watched.enroll {s : Issuing} {crossed : ℕ → Bool} (hs : Watched s.table crossed)
    {step : EnrollStep} {table : NodeTable} (hstep : s.table.enroll verify step = some table) :
    Watched table (noteRevocations s (.table (.enroll step)) crossed) := by
  have hmove := enroll_moves hstep
  refine ⟨hmove.logged hs.logged, fun call hwFingerprint hlooked => ?_⟩
  have hmachine : table.RevokedMachine hwFingerprint ↔ s.table.RevokedMachine hwFingerprint := by
    rw [hmove.revokedMachine_iff hs.logged, or_iff_left_iff_imp]
    rintro ⟨_, _, _, h, -⟩
    cases h
  rw [hmachine]
  obtain ⟨enrolling, hrun, rfl⟩ := Option.map_eq_some_iff.mp hstep
  rcases EnrollStep.lookedUp_cases hrun hlooked with
    hbefore | ⟨freshId, certSha, a, rfl, hcall, rfl⟩
  · have hsame : noteRevocations s (.table (.enroll step)) crossed call = crossed call := by
      cases step with
      | lookup other freshId certSha =>
          refine Function.update_of_ne ?_ ..
          rintro rfl
          simp only [EnrollStep.run, Enrolling.lookup] at hrun
          split at hrun
          next hmatched =>
            rw [hmatched] at hbefore
            cases hbefore
          next => cases hrun
      | _ => rfl
    rw [hsame]
    exact hs.met call hwFingerprint hbefore
  · simp only [noteRevocations, Function.update_self, hcall]
    exact hs.logged.machineRevoked_iff a.req.hwFingerprint

theorem Watched.change {s : Issuing} {crossed : ℕ → Bool} (hs : Watched s.table crossed)
    {change : StatusChange} {id : String} {audited : Bool} {table : NodeTable}
    (hmove : NodeMove verify s.table (.change change id audited) table) :
    Watched table (noteRevocations s (.table (.change change id audited)) crossed) := by
  refine ⟨hmove.logged hs.logged, fun call hwFingerprint hlooked => ?_⟩
  have hbefore : (s.table.enrolling.calls call).lookedUp = some hwFingerprint := by
    cases hmove <;> exact hlooked
  rw [hmove.revokedMachine_iff hs.logged, ← hs.met call hwFingerprint hbefore]
  cases change with
  | revoke =>
      simp only [noteRevocations, hbefore, Option.any_some, Bool.or_eq_true, Option.any_eq_true,
        decide_eq_true_eq]
      refine or_congr_right ?_
      constructor
      · rintro ⟨row, hrow, hfp⟩
        exact ⟨id, audited, row, rfl, hrow, hfp⟩
      · rintro ⟨_, _, row, hsame, hrow, hfp⟩
        cases hsame
        exact ⟨row, hrow, hfp⟩
  | approve | drain =>
      refine (or_iff_left ?_).symm
      rintro ⟨_, _, _, h, -⟩
      cases h

theorem watched_step {s next : Issuing × (ℕ → Bool)} {action : IssuingStep}
    (hs : Watched s.1.table s.2) (hstep : (watched verify).step s action = some next) :
    Watched next.1.table next.2 := by
  obtain ⟨hmoved, hnoted⟩ := Machine.recording_step.mp hstep
  rw [hnoted]
  cases action with
  | table step =>
      obtain ⟨table, htable, hnext⟩ := Option.map_eq_some_iff.mp hmoved
      rw [← hnext]
      cases step with
      | enroll step => exact hs.enroll htable
      | change change id audited => exact hs.change (@change_moves verify _ _ _ _ _ htable)
  | answer call context =>
      simp only [issuing, IssuingStep.run, Issuing.answer] at hmoved
      split at hmoved
      next =>
        rw [← Option.some.inj hmoved]
        exact hs
      next => cases hmoved

/-- The node that an answer certifies is that of the machine that was looked up. -/
theorem certifies_iff_uncrossed {s : Issuing} {crossed : ℕ → Bool}
    (hs : Watched s.table crossed) {call : ℕ} {context : EnrollContext} {a : Attempt}
    {nodeId : String} (hcall : s.table.enrolling.calls call = .succeeded a nodeId) :
    CertifiesNoneRevoked s (.answer call context) ↔ crossed call = false := by
  have hmet := hs.met call a.req.hwFingerprint (by rw [hcall]; rfl)
  have hanswered := hs.logged.identified.calls call
  rw [hcall] at hanswered
  obtain ⟨row, hrow, hfp⟩ := hanswered
  rw [← Bool.not_eq_true, hmet]
  constructor
  · rintro hnone ⟨id, stored, hstored, hsame, hmem⟩
    have hid : id = nodeId := hs.logged.identified.unique id nodeId stored row hstored hrow
      (hsame.trans hfp.symm)
    subst hid
    exact hnone a id stored hcall hstored ((hs.logged.revoked id stored hstored).mpr hmem)
  · intro hnot b other stored hother hstored hstatus
    cases hcall.symm.trans hother
    cases hrow.symm.trans hstored
    exact hnot ⟨nodeId, row, hrow, hfp, (hs.logged.revoked nodeId row hrow).mp hstatus⟩

/-- In a run of enrollments and status changes, no certificate is handed out for a node
that is revoked exactly when no answered call found its machine revoked at its lookup, or
had it revoked before its answer. -/
theorem certifiesNoneRevoked_iff_answersUncrossed (db : Database) (actions : List IssuingStep) :
    (issuing verify).Meets CertifiesNoneRevoked (.initial db) actions ↔
      (watched verify).Meets AnswersUncrossed (.initial db, fun _ => false) actions := by
  rw [← @Machine.meets_recording _ _ _ (issuing verify) noteRevocations (fun _ => false)]
  have hinit : Watched (Issuing.initial db).table fun _ => false :=
    ⟨NodeTable.logged_initial db, fun call hwFingerprint hlooked => by cases hlooked⟩
  have hkeeps : ∀ (s : Issuing × (ℕ → Bool)) (action : IssuingStep)
      (next : Issuing × (ℕ → Bool)), Watched s.1.table s.2 →
      (watched verify).step s action = some next → Watched next.1.table next.2 :=
    fun s action next hs hstep => watched_step hs hstep
  refine Machine.meets_iff hkeeps (fun s action next hs hstep => ?_) hinit actions
  cases action with
  | table step => exact .rfl
  | answer call context =>
      obtain ⟨hmoved, -⟩ := Machine.recording_step.mp hstep
      simp only [issuing, IssuingStep.run, Issuing.answer] at hmoved
      split at hmoved
      next a nodeId hcall _ => exact certifies_iff_uncrossed hs hcall
      next => cases hmoved

/-! ## One run -/

/-- A machine enrolls, its node is revoked, and it enrolls again. -/
def reenrolledAfterRevocation : List IssuingStep :=
  let req (secret : String) : EnrollRequest :=
    ⟨secret, "key", none, .object [("hw_fingerprint", .string "hw")]⟩
  let enrollment (call : ℕ) (secret tokenId : String) : List EnrollStep :=
    [.start call (req secret) "10.0.0.1/32" 0 (some tokenId), .lookup call "n" "sha",
      .begin call 0, .exec call "", .exec call "", .exec call "", .exec call "", .commit call]
  ((enrollment 0 "one" "t1").map NodeStep.enroll ++ [NodeStep.change .revoke "n" true] ++
    (enrollment 1 "two" "t2").map NodeStep.enroll).map .table

/-- The revoked node's machine is handed a new certificate for it. -/
theorem revokedNode_isCertified :
    ¬(issuing fun hash secret => hash == secret).Meets CertifiesNoneRevoked (.initial twoTokens)
      (reenrolledAfterRevocation ++
        [.answer 1 ⟨⟨"pub", "pem"⟩, "ca", "http://gateway", none⟩]) := by
  let context : EnrollContext := ⟨⟨"pub", "pem"⟩, "ca", "http://gateway", none⟩
  have hrun : ((issuing fun hash secret => hash == secret).exec (.initial twoTokens)
      reenrolledAfterRevocation).any (fun s =>
        (match s.table.enrolling.calls 1 with
          | .succeeded _ nodeId => nodeId = "n"
          | _ => false) &&
        (s.table.enrolling.db.nodes.get "n").any (·.status = "revoked") &&
        (s.answer 1 context).isSome) = true := by
    decide +kernel
  obtain ⟨s, hexec, hstate⟩ := (Option.any_eq_true _ _).mp hrun
  simp only [Bool.and_eq_true, Option.any_eq_true, decide_eq_true_eq] at hstate
  obtain ⟨⟨hcall, row, hrow, hrevoked⟩, henabled⟩ := hstate
  obtain ⟨next, hstep⟩ := Option.isSome_iff_exists.mp henabled
  intro hmeets
  split at hcall
  next a nodeId hsucceeded =>
    have hid : nodeId = "n" := by simpa using hcall
    exact hmeets.after hexec hstep a nodeId row hsucceeded (hid ▸ hrow) hrevoked
  next => cases hcall

end GpuCluster.Mgmt
