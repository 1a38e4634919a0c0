import GpuCluster.Foundation.Simulation
import GpuCluster.Mgmt.NodeStatus

/-! # Concurrent enrollments one after the other

The statements of a transaction read the committed tables at different times.
What they read stays locked up to the commit, so a call writes what it would
write if its node lookup and its transaction ran at once where it commits. The
token check is not part of this: it reads a row that nobody locks.
-/

namespace GpuCluster.Mgmt

open Foundation

/-! ## The transaction at one go -/

namespace Attempt

variable (a : Attempt) (nodeId certSha : String) (started : ℤ) (db : Database)

/-- The row of the node statement. -/
def mergedRow : NodeRow :=
  match db.nodes.get nodeId with
  | some stored => stored.onConflict (a.nodeRow nodeId certSha)
  | none => a.nodeRow nodeId certSha

/-- What the token statement writes; nothing when the token is gone. -/
def tokenEffects : List Effect :=
  ((db.enrollTokens.get a.token.id).map (·.use started nodeId a.publicIp)).toList.map .putToken

/-- The effects of the statements before a stage. -/
def effectsBefore : Stage → List Effect
  | .upsertNode => []
  | .addIpHistory => [.putNode (a.mergedRow nodeId certSha db)]
  | .useToken =>
      [.putNode (a.mergedRow nodeId certSha db), .addIpHistory (a.ipHistoryRow nodeId)]
  | .addAudit =>
      [.putNode (a.mergedRow nodeId certSha db), .addIpHistory (a.ipHistoryRow nodeId)] ++
        a.tokenEffects nodeId started db
  | .commit =>
      [.putNode (a.mergedRow nodeId certSha db), .addIpHistory (a.ipHistoryRow nodeId)] ++
        a.tokenEffects nodeId started db ++ [.addAudit (a.auditRow nodeId)]

variable {a nodeId certSha started db}

/-- The effects depend on two rows only. -/
theorem effectsBefore_congr {other : Database}
    (hnode : other.nodes.get nodeId = db.nodes.get nodeId)
    (htoken : other.enrollTokens.get a.token.id = db.enrollTokens.get a.token.id) (stage : Stage) :
    a.effectsBefore nodeId certSha started other stage =
      a.effectsBefore nodeId certSha started db stage := by
  cases stage <;> simp only [effectsBefore, mergedRow, tokenEffects, hnode, htoken]

/-- Before the token statement they depend on the node's row only. -/
theorem effectsBefore_congr_node {other : Database}
    (hnode : other.nodes.get nodeId = db.nodes.get nodeId) {stage : Stage}
    (hstage : stage ≠ .addAudit ∧ stage ≠ .commit) :
    a.effectsBefore nodeId certSha started other stage =
      a.effectsBefore nodeId certSha started db stage := by
  cases stage with
  | addAudit => exact absurd rfl hstage.1
  | commit => exact absurd rfl hstage.2
  | _ => simp only [effectsBefore, mergedRow, hnode]

theorem mem_effectsBefore_putNode {stage : Stage} {row : NodeRow}
    (hmem : .putNode row ∈ a.effectsBefore nodeId certSha started db stage) : row.id = nodeId := by
  have hrow : row = a.mergedRow nodeId certSha db := by
    cases stage with
    | upsertNode => cases hmem
    | _ => simpa [effectsBefore, tokenEffects] using hmem
  rw [hrow, mergedRow]
  split
  next stored hstored =>
    have hid : stored.id = nodeId := KeyedMap.key_of_get hstored
    exact hid
  next => rfl

/-- The token statement writes the stored row back, used. -/
theorem mem_tokenEffects {row : TokenRow}
    (hmem : .putToken row ∈ a.tokenEffects nodeId started db) :
    ∃ stored, db.enrollTokens.get a.token.id = some stored ∧
      row = stored.use started nodeId a.publicIp := by
  simpa [tokenEffects, eq_comm] using hmem

theorem mem_effectsBefore_putToken {stage : Stage} {row : TokenRow}
    (hmem : .putToken row ∈ a.effectsBefore nodeId certSha started db stage) :
    row.id = a.token.id ∧ (stage = .addAudit ∨ stage = .commit) := by
  have hpart : .putToken row ∈ a.tokenEffects nodeId started db ∧
      (stage = .addAudit ∨ stage = .commit) := by
    cases stage with
    | upsertNode | addIpHistory | useToken => simp [effectsBefore] at hmem
    | _ => simpa [effectsBefore] using hmem
  refine ⟨?_, hpart.2⟩
  obtain ⟨stored, hstored, rfl⟩ := mem_tokenEffects hpart.1
  have hid : stored.id = a.token.id := KeyedMap.key_of_get hstored
  exact hid

end Attempt

/-! ## Open transactions -/

/-- An open transaction holds the rows that its effects depend on. -/
def Enrolling.TxInv (s : Enrolling) (call : ℕ) : CallState → Prop
  | .writing a nodeId certSha started stage pending =>
      pending = a.effectsBefore nodeId certSha started s.db stage ∧
        (stage ≠ .upsertNode → s.locks (.nodeId nodeId) = some call) ∧
        (stage = .addAudit ∨ stage = .commit → s.locks (.token a.token.id) = some call)
  | _ => True

variable {verify : String → String → Bool} {s next : Enrolling} {call : ℕ} {commits : Bool}

/-- A commit leaves the rows that others hold. -/
theorem Enrolling.TxInv.commit_get {a : Attempt} {nodeId certSha : String} {started : ℤ}
    {pending : List Effect}
    (hinv : s.TxInv call (.writing a nodeId certSha started .commit pending))
    {other : ℕ} (hother : other ≠ call) :
    (∀ id, s.locks (.nodeId id) = some other →
      (s.db.applyAll pending).nodes.get id = s.db.nodes.get id) ∧
    ∀ id, s.locks (.token id) = some other →
      (s.db.applyAll pending).enrollTokens.get id = s.db.enrollTokens.get id := by
  obtain ⟨rfl, hnode, htoken⟩ := hinv
  constructor
  · intro id hheld
    rcases s.db.applyAll_nodes _ id with ⟨hsame, -⟩ | ⟨row, hmem, rfl, -⟩
    · exact hsame
    · rw [Attempt.mem_effectsBefore_putNode hmem, hnode (by decide), Option.some.injEq] at hheld
      exact absurd hheld.symm hother
  · intro id hheld
    rcases s.db.applyAll_enrollTokens _ id with ⟨hsame, -⟩ | ⟨row, hmem, rfl, -⟩
    · exact hsame
    · rw [(Attempt.mem_effectsBefore_putToken hmem).1, htoken (.inr rfl),
        Option.some.injEq] at hheld
      exact absurd hheld.symm hother

/-- The frame rule: rows that a call holds are not written by others. -/
theorem Enrolling.TxInv.frame {state : CallState} (hinv : s.TxInv call state)
    (hlocks : ∀ key, s.locks key = some call → next.locks key = some call)
    (hnode : ∀ id, s.locks (.nodeId id) = some call → next.db.nodes.get id = s.db.nodes.get id)
    (htoken : ∀ id, s.locks (.token id) = some call →
      next.db.enrollTokens.get id = s.db.enrollTokens.get id) : next.TxInv call state := by
  cases state with
  | writing a nodeId certSha started stage pending =>
      obtain ⟨rfl, hheld, hheld'⟩ := hinv
      refine ⟨?_, fun hstage => hlocks _ (hheld hstage), fun hstage => hlocks _ (hheld' hstage)⟩
      cases stage with
      | upsertNode => rfl
      | addIpHistory | useToken =>
          exact (Attempt.effectsBefore_congr_node (hnode _ (hheld (by decide))) (by decide)).symm
      | addAudit | commit =>
          exact (Attempt.effectsBefore_congr (hnode _ (hheld (by decide)))
            (htoken _ (hheld' (by simp))) _).symm
  | absent | matched | identified | succeeded | failed => trivial

/-- What a move makes of its own transaction. -/
theorem Moves.txInv_self (hmoves : Moves verify s call commits next)
    (hinv : s.TxInv call (s.calls call)) : next.TxInv call (next.calls call) := by
  cases hmoves with
  | refuse | pick | found | drawn | abort | commit =>
      simp only [Enrolling.abort, Enrolling.finish, Enrolling.setCall, Function.update_self]
      trivial
  | begin a nodeId certSha started hcall =>
      simp only [Enrolling.setCall, Function.update_self]
      exact ⟨rfl, fun hstage => absurd rfl hstage, by simp⟩
  | upsert a nodeId certSha started pending row hcall hfree hrow =>
      simp only [Enrolling.setCall, Function.update_self]
      refine ⟨?_, fun _ => LockTable.acquire_of_mem (by simp), by simp⟩
      rcases hrow with ⟨stored, hstored, rfl⟩ | ⟨hnone, -, rfl⟩
      · simp only [Attempt.effectsBefore, Attempt.mergedRow, hstored]
      · simp only [Attempt.effectsBefore, Attempt.mergedRow, hnone]
  | history a nodeId certSha started pending hcall =>
      rw [hcall] at hinv
      simp only [Enrolling.setCall, Function.update_self]
      obtain ⟨rfl, hnode, -⟩ := hinv
      exact ⟨rfl, fun _ => hnode (by decide), by simp⟩
  | use a nodeId certSha started pending hcall hfree =>
      rw [hcall] at hinv
      simp only [Enrolling.setCall, Function.update_self]
      obtain ⟨rfl, hnode, -⟩ := hinv
      have hkept : s.locks.acquire call [.token a.token.id] (.nodeId nodeId) = some call :=
        LockTable.acquire_keeps (hnode (by decide))
      exact ⟨rfl, fun _ => hkept, fun _ => LockTable.acquire_of_mem (by simp)⟩
  | audit a nodeId certSha started pending hcall =>
      rw [hcall] at hinv
      simp only [Enrolling.setCall, Function.update_self]
      obtain ⟨rfl, hnode, htoken⟩ := hinv
      exact ⟨rfl, fun _ => hnode (by decide), fun _ => htoken (.inl rfl)⟩

/-- What a move of one call leaves to the transactions of the others. -/
theorem Moves.txInv (hmoves : Moves verify s call commits next)
    (hinv : ∀ other, s.TxInv other (s.calls other)) (other : ℕ) :
    next.TxInv other (next.calls other) := by
  by_cases hother : other = call
  · subst hother
    exact hmoves.txInv_self (hinv other)
  rw [hmoves.calls_ne hother]
  have hlocks := fun key (hheld : s.locks key = some other) => hmoves.locks_other hother hheld
  cases commits with
  | false =>
      have hdb := hmoves.quiet.1
      exact (hinv other).frame hlocks (fun _ _ => by rw [hdb]) fun _ _ => by rw [hdb]
  | true =>
      cases hmoves with
      | commit a nodeId certSha started pending hcall =>
          obtain ⟨hnode, htoken⟩ := Enrolling.TxInv.commit_get (hcall ▸ hinv call) hother
          exact (hinv other).frame hlocks hnode htoken

/-! ## Enrollments that run at once -/

/-- The tables and the calls that returned `Ok`, newest first. -/
structure Enrolled where
  db : Database
  answers : List (ℕ × Attempt × String)

/-- A whole call whose token was matched, with the values it draws. -/
structure EnrollCall where
  call : ℕ
  attempt : Attempt
  freshId : String
  certSha : String
  started : ℤ

namespace EnrollCall

/-- What the call leaves when it enrolls under this id. -/
def enrollAs (e : EnrollCall) (s : Enrolled) (nodeId : String) : Enrolled where
  db := s.db.applyAll (e.attempt.effectsBefore nodeId e.certSha e.started s.db .commit)
  answers := (e.call, e.attempt, nodeId) :: s.answers

/-- The node lookup and the transaction, with nothing in between. -/
def run (s : Enrolled) (e : EnrollCall) : Option Enrolled :=
  match s.db.nodeIdByFingerprint e.attempt.req.hwFingerprint with
  | some nodeId => some (e.enrollAs s nodeId)
  | none => if s.db.nodes.get e.freshId = none then some (e.enrollAs s e.freshId) else none

end EnrollCall

/-- Enrollments one after the other. -/
def enrollingAtOnce : Machine Enrolled EnrollCall where
  init s := s.db.UniqueFingerprints ∧ s.answers = []
  step := EnrollCall.run

/-- The id that a call looked up is the one it would find now. -/
theorem Enrolling.Owns.lookup {hwFingerprint nodeId : String}
    (howns : s.Owns call hwFingerprint nodeId) {row : NodeRow}
    (hput : s.PendingNode call hwFingerprint nodeId row) :
    s.db.nodeIdByFingerprint hwFingerprint = some nodeId ∨
      s.db.nodeIdByFingerprint hwFingerprint = none ∧ s.db.nodes.get nodeId = none := by
  cases hfound : s.db.nodeIdByFingerprint hwFingerprint with
  | some id =>
      obtain ⟨stored, hstored, hsame⟩ := Database.nodeIdByFingerprint_some hfound
      exact .inl (congrArg some (hput.sole id stored hstored hsame))
  | none =>
      refine .inr ⟨rfl, ?_⟩
      cases hstored : s.db.nodes.get nodeId with
      | none => rfl
      | some stored =>
          exact absurd (howns.stored stored hstored)
            (Database.nodeIdByFingerprint_none hfound hstored)

/-- The interleaved calls and the calls at once have the same tables, and the
same calls have returned `Ok` with the same ids, in the order of their commits. -/
structure Enrolling.Matches (s : Enrolling) (t : Enrolled) : Prop where
  identified : s.Identified
  transactions : ∀ call, s.TxInv call (s.calls call)
  db_eq : t.db = s.db
  order : t.answers.map Prod.fst = s.commits.map Prod.fst
  answered : ∀ call a nodeId,
    (call, a, nodeId) ∈ t.answers ↔ s.calls call = .succeeded a nodeId

/-- A commit is one whole call. -/
theorem Enrolling.Matches.commit {t : Enrolled} (hmatches : s.Matches t) {a : Attempt}
    {nodeId certSha : String} {started : ℤ} {pending : List Effect}
    (hcall : s.calls call = .writing a nodeId certSha started .commit pending) :
    EnrollCall.run t ⟨call, a, nodeId, certSha, started⟩ =
      some ⟨s.db.applyAll pending, (call, a, nodeId) :: t.answers⟩ := by
  have hinv := hmatches.identified.calls call
  have htx := hmatches.transactions call
  rw [hcall] at hinv htx
  obtain ⟨row, hmem⟩ := hinv.2.2 (by decide)
  obtain ⟨rfl, -⟩ := htx
  simp only [EnrollCall.run, EnrollCall.enrollAs, hmatches.db_eq]
  rcases hinv.1.lookup (hinv.2.1 row hmem) with hfound | ⟨hnone, hfresh⟩
  · simp only [hfound]
  · simp only [hnone, hfresh, if_true]

theorem enrolling_simulates (verify : String → String → Bool) :
    (enrolling verify).Simulates enrollingAtOnce Enrolling.Matches := by
  intro s t step next hmatches hstep
  obtain ⟨commits, hmoves, -⟩ := EnrollStep.run_moves hstep
  have hidentified := hmoves.identified hmatches.identified
  have htransactions := hmoves.txInv hmatches.transactions
  cases commits with
  | false =>
      obtain ⟨hdb, hcommits, hcalls⟩ := hmoves.quiet
      refine ⟨[], t, rfl, hidentified, htransactions, hmatches.db_eq.trans hdb.symm, ?_, ?_⟩
      · rw [hmatches.order, hcommits]
      · intro call a nodeId
        rw [hcalls, hmatches.answered]
  | true =>
      cases hmoves with
      | commit a nodeId certSha started pending hcall =>
          refine ⟨_, _, Machine.exec_singleton (hmatches.commit hcall), hidentified,
            htransactions, rfl, ?_, fun other b otherId => ?_⟩
          · simp only [List.map_cons, hmatches.order, Enrolling.finish]
          · simp only [List.mem_cons, hmatches.answered, Enrolling.finish, Enrolling.setCall]
            by_cases hother : other = step.call
            · subst hother
              rw [Function.update_self, hcall]
              simp [eq_comm]
            · rw [Function.update_of_ne hother]
              simp [hother]

/-- Concurrent enrollments leave the tables and give the answers that the same
calls leave and give one after the other, in the order of their commits. -/
theorem enroll_serializable (verify : String → String → Bool) (origin : Database)
    (hunique : origin.UniqueFingerprints) (steps : List EnrollStep) (s : Enrolling)
    (hrun : (enrolling verify).exec (.initial origin) steps = some s) :
    ∃ calls answers, enrollingAtOnce.exec ⟨origin, []⟩ calls = some ⟨s.db, answers⟩ ∧
      answers.map Prod.fst = s.commits.map Prod.fst ∧
      ∀ call a nodeId, (call, a, nodeId) ∈ answers ↔ s.calls call = .succeeded a nodeId := by
  have hinit : (Enrolling.initial origin).Matches ⟨origin, []⟩ :=
    { identified := ⟨hunique, fun _ => trivial⟩
      transactions := fun _ => trivial
      db_eq := rfl
      order := rfl
      answered := fun _ _ _ => by simp [Enrolling.initial] }
  obtain ⟨calls, ⟨db, answers⟩, hexec, hmatches⟩ := (enrolling_simulates verify).exec hinit hrun
  obtain rfl : db = s.db := hmatches.db_eq
  exact ⟨calls, answers, hexec, hmatches.order, hmatches.answered⟩

/-- Two workers whose statements alternate; the second one commits first. -/
theorem alternatingCalls_serialized :
    let token (id hash : String) : TokenRow := ⟨id, hash, none, 100, none, none, none⟩
    let origin : Database :=
      ⟨(KeyedMap.empty.insert (token "t1" "one")).insert (token "t2" "two"), .empty, [], []⟩
    let req (secret hw : String) : EnrollRequest :=
      ⟨secret, "key", none, .object [("hw_fingerprint", .string hw)]⟩
    let both (step : ℕ → EnrollStep) : List EnrollStep := [step 0, step 1]
    let steps : List EnrollStep :=
      [.start 0 (req "one" "hw1") "10.0.0.1/32" 0 (some "t1"),
        .start 1 (req "two" "hw2") "10.0.0.2/32" 0 (some "t2"), .lookup 0 "n1" "cert1",
        .lookup 1 "n2" "cert2"] ++ both (.begin · 0) ++ both (.exec · "") ++ both (.exec · "") ++
        both (.exec · "") ++ both (.exec · "") ++ [.commit 1, .commit 0]
    ∃ s calls answers, (enrolling fun hash secret => hash == secret).exec (.initial origin) steps =
        some s ∧ enrollingAtOnce.exec ⟨origin, []⟩ calls = some ⟨s.db, answers⟩ ∧
      answers.map Prod.fst = [0, 1] := by
  intro token origin req both steps
  have hunique : origin.UniqueFingerprints := fun id other row otherRow hrow => by
    cases hrow
  obtain ⟨s, hrun, horder⟩ : ∃ s, (enrolling fun hash secret => hash == secret).exec
      (.initial origin) steps = some s ∧ s.commits.map Prod.fst = [0, 1] := ⟨_, rfl, rfl⟩
  obtain ⟨calls, answers, hexec, hsame, -⟩ := enroll_serializable _ origin hunique steps s hrun
  exact ⟨s, calls, answers, hrun, hexec, hsame.trans horder⟩

end GpuCluster.Mgmt
