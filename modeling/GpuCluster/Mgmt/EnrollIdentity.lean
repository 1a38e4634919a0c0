import GpuCluster.Mgmt.EnrollMoves

/-! # One node id for each fingerprint

The node is looked up before the transaction and the upsert resolves conflicts
on the id only. That is enough: an id is either stored with the call's
fingerprint or was drawn by the call itself, and a fingerprint that a
transaction has written stays locked until it commits.
-/

namespace GpuCluster.Mgmt

open Foundation

/-- The id a call will enroll: stored with the call's fingerprint, or not stored
and drawn by this call. -/
structure Enrolling.Owns (s : Enrolling) (call : ℕ) (hwFingerprint nodeId : String) : Prop where
  stored : ∀ row, s.db.nodes.get nodeId = some row → row.hwFingerprint = hwFingerprint
  drawn : s.db.nodes.get nodeId = none → s.minted nodeId = some call

/-- A pending node row carries the call's id and fingerprint, and no other
stored node has the fingerprint while the call holds its key. -/
structure Enrolling.PendingNode (s : Enrolling) (call : ℕ) (hwFingerprint nodeId : String)
    (row : NodeRow) : Prop where
  id_eq : row.id = nodeId
  hwFingerprint_eq : row.hwFingerprint = hwFingerprint
  locked : s.locks (.fingerprint hwFingerprint) = some call
  sole : ∀ id stored, s.db.nodes.get id = some stored → stored.hwFingerprint = hwFingerprint →
    id = nodeId

def Enrolling.CallInv (s : Enrolling) (call : ℕ) : CallState → Prop
  | .identified a nodeId _ => s.Owns call a.req.hwFingerprint nodeId
  | .writing a nodeId _ _ stage pending =>
      s.Owns call a.req.hwFingerprint nodeId ∧
        (∀ row, .putNode row ∈ pending → s.PendingNode call a.req.hwFingerprint nodeId row) ∧
        (stage ≠ .upsertNode → ∃ row, .putNode row ∈ pending)
  | .succeeded a nodeId => ∃ row, s.db.nodes.get nodeId = some row ∧
      row.hwFingerprint = a.req.hwFingerprint
  | _ => True

structure Enrolling.Identified (s : Enrolling) : Prop where
  unique : s.db.UniqueFingerprints
  calls : ∀ call, s.CallInv call (s.calls call)

/-- What a step of somebody else leaves to a call: stored nodes keep their
fingerprints, a new one is neither drawn nor locked by the call, and its own
drawn ids and locks stay. -/
structure Enrolling.Leaves (s next : Enrolling) (call : ℕ) : Prop where
  kept : ∀ id row, s.db.nodes.get id = some row →
    ∃ later, next.db.nodes.get id = some later ∧ later.hwFingerprint = row.hwFingerprint
  new : ∀ id later, next.db.nodes.get id = some later →
    (∃ row, s.db.nodes.get id = some row ∧ row.hwFingerprint = later.hwFingerprint) ∨
      s.db.nodes.get id = none ∧ s.minted id ≠ some call ∧
        s.locks (.fingerprint later.hwFingerprint) ≠ some call
  minted : ∀ id, s.minted id = some call → next.minted id = some call
  locks : ∀ key, s.locks key = some call → next.locks key = some call

namespace Enrolling

variable {verify : String → String → Bool} {s next : Enrolling} {call : ℕ}

/-- A step without a commit leaves the stored nodes to everyone. -/
theorem Leaves.of_db (hdb : next.db = s.db)
    (hminted : ∀ id, s.minted id = some call → next.minted id = some call)
    (hlocks : ∀ key, s.locks key = some call → next.locks key = some call) :
    s.Leaves next call where
  kept _ row hget := ⟨row, hdb ▸ hget, rfl⟩
  new _ later hget := .inl ⟨later, hdb ▸ hget, rfl⟩
  minted := hminted
  locks := hlocks

theorem Owns.leaves {hwFingerprint nodeId : String} (howns : s.Owns call hwFingerprint nodeId)
    (hleaves : s.Leaves next call) : next.Owns call hwFingerprint nodeId where
  stored later hget := by
    rcases hleaves.new nodeId later hget with ⟨row, hrow, hsame⟩ | ⟨hnone, hminted, -⟩
    · exact hsame ▸ howns.stored row hrow
    · exact absurd (howns.drawn hnone) hminted
  drawn hnone := by
    refine hleaves.minted nodeId (howns.drawn ?_)
    cases hget : s.db.nodes.get nodeId with
    | none => rfl
    | some row =>
        obtain ⟨later, hlater, -⟩ := hleaves.kept nodeId row hget
        rw [hnone] at hlater
        cases hlater

theorem PendingNode.leaves {hwFingerprint nodeId : String} {row : NodeRow}
    (hpending : s.PendingNode call hwFingerprint nodeId row) (hleaves : s.Leaves next call) :
    next.PendingNode call hwFingerprint nodeId row where
  id_eq := hpending.id_eq
  hwFingerprint_eq := hpending.hwFingerprint_eq
  locked := hleaves.locks _ hpending.locked
  sole id later hget hfp := by
    rcases hleaves.new id later hget with ⟨stored, hstored, hsame⟩ | ⟨-, -, hfree⟩
    · exact hpending.sole id stored hstored (hsame.trans hfp)
    · exact absurd (hfp ▸ hpending.locked) hfree

/-- The frame rule: a call's invariant survives the steps of others. -/
theorem CallInv.leaves {callState : CallState} (hinv : s.CallInv call callState)
    (hleaves : s.Leaves next call) : next.CallInv call callState := by
  cases callState with
  | identified a nodeId certSha => exact Owns.leaves hinv hleaves
  | writing a nodeId certSha started stage pending =>
      obtain ⟨howns, hpending, hput⟩ := hinv
      exact ⟨howns.leaves hleaves, fun row hmem => (hpending row hmem).leaves hleaves, hput⟩
  | succeeded a nodeId =>
      obtain ⟨row, hget, hfp⟩ := hinv
      obtain ⟨later, hlater, hsame⟩ := hleaves.kept nodeId row hget
      exact ⟨later, hlater, hsame.trans hfp⟩
  | absent | matched | failed => trivial

/-- The commit's rows: what was stored keeps its fingerprint, and the only new
one is the committing call's. -/
theorem commit_get {a : Attempt} {nodeId : String} {stage : Stage} {pending : List Effect}
    {certSha : String} {started : ℤ}
    (hinv : s.CallInv call (.writing a nodeId certSha started stage pending))
    {id : String} {later : NodeRow} (hget : (s.db.applyAll pending).nodes.get id = some later) :
    (∃ row, s.db.nodes.get id = some row ∧ row.hwFingerprint = later.hwFingerprint) ∨
      id = nodeId ∧ later.hwFingerprint = a.req.hwFingerprint ∧
        s.db.nodes.get id = none ∧ s.PendingNode call a.req.hwFingerprint nodeId later := by
  obtain ⟨howns, hpending, -⟩ := hinv
  rcases s.db.applyAll_nodes pending id with ⟨hsame, -⟩ | ⟨row, hmem, rfl, hrow⟩
  · exact .inl ⟨later, hsame ▸ hget, rfl⟩
  · obtain rfl := Option.some.inj (hrow.symm.trans hget)
    have hput := hpending row hmem
    -- an id that has no row yet was drawn by this call
    cases hstored : s.db.nodes.get row.id with
    | none => exact .inr ⟨hput.id_eq, hput.hwFingerprint_eq, rfl, hput⟩
    | some stored =>
        have hfp := howns.stored stored (hput.id_eq ▸ hstored)
        exact .inl ⟨stored, rfl, hfp.trans hput.hwFingerprint_eq.symm⟩

/-- A commit leaves the other calls what they had. -/
theorem leaves_commit {a : Attempt} {nodeId : String} {stage : Stage} {pending : List Effect}
    {certSha : String} {started : ℤ}
    (hinv : s.CallInv call (.writing a nodeId certSha started stage pending))
    {other : ℕ} (hother : other ≠ call) :
    s.Leaves (s.finish call a nodeId pending) other where
  kept id row hget := by
    have hsome := s.db.applyAll_nodes_isSome pending id (.inl (by rw [hget]; rfl))
    obtain ⟨later, hlater⟩ := Option.isSome_iff_exists.mp hsome
    refine ⟨later, hlater, ?_⟩
    rcases commit_get hinv hlater with ⟨stored, hstored, hsame⟩ | ⟨-, -, hnone, -⟩
    · obtain rfl := Option.some.inj (hstored.symm.trans hget)
      exact hsame.symm
    · rw [hget] at hnone
      cases hnone
  new id later hget := by
    rcases commit_get hinv hget with hstored | ⟨hid, hfp, hnone, hput⟩
    · exact .inl hstored
    -- the new row's id and fingerprint belong to the committing call alone
    · refine .inr ⟨hnone, ?_, ?_⟩
      · rw [hid, hinv.1.drawn (hid ▸ hnone), ne_eq, Option.some.injEq]
        exact Ne.symm hother
      · rw [hfp, hput.locked, ne_eq, Option.some.injEq]
        exact Ne.symm hother
  minted _ hid := hid
  locks _ hkey := LockTable.release_other hother hkey

/-- Fingerprints stay unique at a commit: nobody else has the one it writes. -/
theorem unique_commit {a : Attempt} {nodeId : String} {stage : Stage} {pending : List Effect}
    {certSha : String} {started : ℤ} (hunique : s.db.UniqueFingerprints)
    (hinv : s.CallInv call (.writing a nodeId certSha started stage pending)) :
    (s.db.applyAll pending).UniqueFingerprints := by
  intro id other row otherRow hrow hother hsame
  rcases commit_get hinv hrow with ⟨stored, hstored, hfp⟩ | ⟨hid, hfp, -, hput⟩ <;>
    rcases commit_get hinv hother with ⟨stored', hstored', hfp'⟩ | ⟨hid', hfp', -, hput'⟩
  · exact hunique id other stored stored' hstored hstored' (by rw [hfp, hfp', hsame])
  · rw [hid']
    exact hput'.sole id stored hstored (by rw [hfp, hsame, hfp'])
  · rw [hid]
    exact (hput.sole other stored' hstored' (by rw [hfp', ← hsame, hfp])).symm
  · rw [hid, hid']

/-- The node statement's row, in either branch. -/
theorem pendingNode_upsert {a : Attempt} {nodeId certSha : String} {row : NodeRow}
    (hunique : s.db.UniqueFingerprints) (howns : s.Owns call a.req.hwFingerprint nodeId)
    (hrow : (∃ stored, s.db.nodes.get nodeId = some stored ∧
          row = stored.onConflict (a.nodeRow nodeId certSha)) ∨
        s.db.nodes.get nodeId = none ∧
          s.db.nodeIdByFingerprint a.req.hwFingerprint = none ∧
          row = a.nodeRow nodeId certSha)
    (hdb : next.db = s.db)
    (hlocked : next.locks (.fingerprint a.req.hwFingerprint) = some call) :
    next.PendingNode call a.req.hwFingerprint nodeId row := by
  rcases hrow with ⟨stored, hstored, rfl⟩ | ⟨-, hnone, rfl⟩
  · have hfp := howns.stored stored hstored
    have hid : stored.id = nodeId := KeyedMap.key_of_get hstored
    refine ⟨hid, hfp, hlocked, fun id other hother hsame => ?_⟩
    exact hunique id nodeId other stored (hdb ▸ hother) hstored (hsame.trans hfp.symm)
  · refine ⟨rfl, rfl, hlocked, fun id other hother hsame => ?_⟩
    exact absurd hsame (Database.nodeIdByFingerprint_none hnone (hdb ▸ hother))

end Enrolling

/-! ## Every step -/

/-- What a move leaves to the other calls. -/
theorem Moves.leaves {verify : String → String → Bool} {s next : Enrolling} {call : ℕ}
    {commits : Bool} (hmoves : Moves verify s call commits next) (hinv : s.Identified)
    {other : ℕ} (hother : other ≠ call) : s.Leaves next other := by
  cases hmoves with
  | drawn a freshId certSha _ hfresh _ =>
      refine .of_db rfl (fun id hid => ?_) fun _ h => h
      have hne : id ≠ freshId := by
        rintro rfl
        rw [hfresh] at hid
        cases hid
      exact (Function.update_of_ne hne _ _).trans hid
  | upsert a nodeId certSha started pending row _ hfree _ =>
      exact .of_db rfl (fun _ h => h) fun _ h => LockTable.acquire_other hfree hother h
  | use a nodeId certSha started pending _ hfree =>
      exact .of_db rfl (fun _ h => h) fun _ h => LockTable.acquire_other hfree hother h
  | commit a nodeId certSha started pending hcall =>
      have hcalls := hinv.calls call
      rw [hcall] at hcalls
      exact Enrolling.leaves_commit hcalls hother
  | abort a error _ =>
      exact .of_db rfl (fun _ h => h) fun _ h => LockTable.release_other hother h
  | refuse | pick | found | begin | history | audit =>
      exact .of_db rfl (fun _ h => h) fun _ h => h

theorem Enrolling.Owns.of_eq {s next : Enrolling} {call : ℕ} {hwFingerprint nodeId : String}
    (howns : s.Owns call hwFingerprint nodeId) (hdb : next.db = s.db)
    (hminted : next.minted = s.minted) : next.Owns call hwFingerprint nodeId :=
  ⟨fun row hget => howns.stored row (hdb ▸ hget), fun hnone => by
    rw [hminted]
    exact howns.drawn (hdb ▸ hnone)⟩

/-- A statement that writes no node adds to the pending effects. -/
theorem Enrolling.CallInv.append {s next : Enrolling} {call : ℕ} {a : Attempt}
    {nodeId certSha : String} {started : ℤ} {stage later : Stage} {pending more : List Effect}
    (hinv : s.CallInv call (.writing a nodeId certSha started stage pending))
    (hdb : next.db = s.db) (hminted : next.minted = s.minted)
    (hlocks : ∀ key, s.locks key = some call → next.locks key = some call)
    (hmore : ∀ row, Effect.putNode row ∉ more) (hstage : stage ≠ .upsertNode) :
    next.CallInv call (.writing a nodeId certSha started later (pending ++ more)) := by
  obtain ⟨howns, hpending, hput⟩ := hinv
  refine ⟨howns.of_eq hdb hminted, fun row hmem => ?_, fun _ => ?_⟩
  · have hleaves : s.Leaves next call := .of_db hdb (fun _ h => hminted ▸ h) hlocks
    refine (hpending row ?_).leaves hleaves
    exact (List.mem_append.mp hmem).resolve_right (hmore row)
  · obtain ⟨row, hmem⟩ := hput hstage
    exact ⟨row, List.mem_append_left _ hmem⟩

/-- What a move makes of its own call. -/
theorem Moves.callInv {verify : String → String → Bool} {s next : Enrolling} {call : ℕ}
    {commits : Bool} (hmoves : Moves verify s call commits next) (hinv : s.Identified) :
    next.CallInv call (next.calls call) := by
  have hcalls := hinv.calls call
  cases hmoves with
  | refuse | pick | abort =>
      simp only [Enrolling.abort, Enrolling.setCall, Function.update_self]
      trivial
  | found a nodeId certSha hcall hfound =>
      simp only [Enrolling.setCall, Function.update_self]
      obtain ⟨row, hrow, hfp⟩ := Database.nodeIdByFingerprint_some hfound
      refine ⟨fun stored hstored => ?_, fun hnone => ?_⟩
      · obtain rfl := Option.some.inj (hrow.symm.trans hstored)
        exact hfp
      · rw [hrow] at hnone
        cases hnone
  | drawn a freshId certSha hcall hfresh hnone =>
      simp only [Enrolling.setCall, Function.update_self]
      refine ⟨fun stored hstored => ?_, fun _ => Function.update_self ..⟩
      rw [hnone] at hstored
      cases hstored
  | begin a nodeId certSha started hcall =>
      rw [hcall] at hcalls
      simp only [Enrolling.setCall, Function.update_self]
      exact ⟨hcalls.of_eq rfl rfl, fun _ hmem => (by cases hmem), fun hne => absurd rfl hne⟩
  | upsert a nodeId certSha started pending row hcall hfree hrow =>
      rw [hcall] at hcalls
      simp only [Enrolling.setCall, Function.update_self]
      refine ⟨hcalls.1.of_eq rfl rfl, fun other hmem => ?_,
        fun _ => ⟨row, List.mem_singleton_self _⟩⟩
      obtain rfl : other = row := by simpa using hmem
      exact Enrolling.pendingNode_upsert hinv.unique hcalls.1 hrow rfl
        (LockTable.acquire_of_mem (by simp))
  | history a nodeId certSha started pending hcall =>
      rw [hcall] at hcalls
      simp only [Enrolling.setCall, Function.update_self]
      exact hcalls.append rfl rfl (fun _ h => h) (by simp) (by decide)
  | use a nodeId certSha started pending hcall hfree =>
      rw [hcall] at hcalls
      simp only [Enrolling.setCall, Function.update_self]
      exact hcalls.append rfl rfl (fun _ h => LockTable.acquire_keeps h) (by simp) (by decide)
  | audit a nodeId certSha started pending hcall =>
      rw [hcall] at hcalls
      simp only [Enrolling.setCall, Function.update_self]
      exact hcalls.append rfl rfl (fun _ h => h) (by simp) (by decide)
  | commit a nodeId certSha started pending hcall =>
      rw [hcall] at hcalls
      simp only [Enrolling.finish, Enrolling.setCall, Function.update_self]
      -- the node statement has run, so one of the effects writes the node's row
      obtain ⟨row, hmem⟩ := hcalls.2.2 (by decide)
      have hid := (hcalls.2.1 row hmem).id_eq
      obtain ⟨later, hlater⟩ := Option.isSome_iff_exists.mp
        (s.db.applyAll_nodes_isSome pending nodeId (.inr ⟨row, hmem, hid⟩))
      refine ⟨later, hlater, ?_⟩
      rcases Enrolling.commit_get hcalls hlater with ⟨stored, hstored, hsame⟩ | ⟨-, hfp, -⟩
      · exact hsame.symm.trans (hcalls.1.stored stored hstored)
      · exact hfp

theorem Moves.identified {verify : String → String → Bool} {s next : Enrolling} {call : ℕ}
    {commits : Bool} (hmoves : Moves verify s call commits next) (hinv : s.Identified) :
    next.Identified where
  unique := by
    have hcalls := hinv.calls call
    cases hmoves with
    | commit a nodeId certSha started pending hcall =>
        rw [hcall] at hcalls
        exact Enrolling.unique_commit hinv.unique hcalls
    | _ => exact hinv.unique
  calls other := by
    by_cases hother : other = call
    · subst hother
      exact hmoves.callInv hinv
    · rw [hmoves.calls_ne hother]
      exact (hinv.calls other).leaves (hmoves.leaves hinv hother)

/-! ## Every run -/

/-- The tables are the first ones with the effects of the successful calls, each
applied once, in the order of their commits. -/
structure Enrolling.Replays (origin : Database) (s : Enrolling) : Prop where
  db_eq : s.db = s.commits.foldr (fun entry db => db.applyAll entry.2) origin
  once : (s.commits.map Prod.fst).Nodup
  answered : ∀ call, call ∈ s.commits.map Prod.fst ↔
    ∃ a nodeId, s.calls call = .succeeded a nodeId

theorem Moves.replays {verify : String → String → Bool} {origin : Database} {s next : Enrolling}
    {call : ℕ} {commits : Bool} (hmoves : Moves verify s call commits next)
    (hreplays : s.Replays origin) : next.Replays origin := by
  cases commits with
  | false =>
      obtain ⟨hdb, hcommits, hcalls⟩ := hmoves.quiet
      refine ⟨?_, ?_, fun other => ?_⟩
      · rw [hdb, hcommits, hreplays.db_eq]
      · rw [hcommits]
        exact hreplays.once
      · simp only [hcommits, hcalls]
        exact hreplays.answered other
  | true =>
      cases hmoves with
      | commit a nodeId certSha started pending hcall =>
          have hnew : call ∉ s.commits.map Prod.fst := by
            rw [hreplays.answered, hcall]
            intro ⟨b, otherId, h⟩
            cases h
          refine ⟨?_, List.nodup_cons.mpr ⟨hnew, hreplays.once⟩, fun other => ?_⟩
          · simp only [Enrolling.finish, List.foldr_cons, ← hreplays.db_eq]
          · simp only [Enrolling.finish, List.map_cons, List.mem_cons, hreplays.answered other]
            by_cases hsame : other = call
            · subst hsame
              simp [Enrolling.setCall]
            · simp [Enrolling.setCall, hsame]

/-- What one run of the machine keeps, from tables that meet the constraint. -/
theorem enrolling_run {verify : String → String → Bool} {origin : Database}
    (hunique : origin.UniqueFingerprints) {steps : List EnrollStep} {s : Enrolling}
    (hrun : (enrolling verify).exec (.initial origin) steps = some s) :
    s.Identified ∧ s.Replays origin := by
  have hinit : (Enrolling.initial origin).Identified ∧
      (Enrolling.initial origin).Replays origin :=
    ⟨⟨hunique, fun _ => trivial⟩, rfl, .nil, fun call => iff_of_false (by simp [Enrolling.initial])
      fun ⟨_, _, h⟩ => nomatch h⟩
  refine Machine.exec_invariant (fun s => s.Identified ∧ s.Replays origin) ?_ hinit hrun
  intro s step next ⟨hidentified, hreplays⟩ hstep
  obtain ⟨commits, hmoves, -⟩ := EnrollStep.run_moves hstep
  exact ⟨hmoves.identified hidentified, hmoves.replays hreplays⟩

/-- In every interleaving of enrollments, node ids and fingerprints stay
one-to-one over the calls that returned `Ok`, and the tables hold the effects of
exactly those calls, so a call that returned `Err` left no trace. -/
theorem enroll_oneToOne (verify : String → String → Bool) (origin : Database)
    (hunique : origin.UniqueFingerprints) (steps : List EnrollStep) (s : Enrolling)
    (hrun : (enrolling verify).exec (.initial origin) steps = some s) :
    (∀ call other a b nodeId otherId, s.calls call = .succeeded a nodeId →
      s.calls other = .succeeded b otherId →
      (nodeId = otherId ↔ a.req.hwFingerprint = b.req.hwFingerprint)) ∧
    s.Replays origin ∧
    ∀ call req error, s.calls call = .failed req error → call ∉ s.commits.map Prod.fst := by
  obtain ⟨hidentified, hreplays⟩ := enrolling_run hunique hrun
  refine ⟨fun call other a b nodeId otherId hcall hother => ?_, hreplays, ?_⟩
  · have hinv := hidentified.calls call
    have hinv' := hidentified.calls other
    rw [hcall] at hinv
    rw [hother] at hinv'
    obtain ⟨row, hrow, hfp⟩ := hinv
    obtain ⟨row', hrow', hfp'⟩ := hinv'
    constructor
    · rintro rfl
      obtain rfl := Option.some.inj (hrow.symm.trans hrow')
      exact hfp.symm.trans hfp'
    · intro hsame
      exact hidentified.unique nodeId otherId row row' hrow hrow' (by rw [hfp, hfp', hsame])
  · intro call req error hfailed
    rw [hreplays.answered, hfailed]
    intro ⟨a, nodeId, h⟩
    cases h

/-- A worker that enrolls again with a second token gets its first node id. -/
theorem reenrollment_sameNode :
    let token (id hash : String) : TokenRow := ⟨id, hash, none, 100, none, none, none⟩
    let origin : Database :=
      ⟨(KeyedMap.empty.insert (token "t1" "one")).insert (token "t2" "two"), .empty, [], []⟩
    let req (secret : String) : EnrollRequest :=
      ⟨secret, "key", none, .object [("hw_fingerprint", .string "hw")]⟩
    let steps (call : ℕ) (secret tokenId freshId : String) : List EnrollStep :=
      [.start call (req secret) "10.0.0.1/32" 0 (some tokenId), .lookup call freshId "cert",
        .begin call 0, .exec call "", .exec call "", .exec call "", .exec call "", .commit call]
    ∃ s a b nodeId otherId, (enrolling fun hash secret => hash == secret).exec (.initial origin)
        (steps 0 "one" "t1" "n1" ++ steps 1 "two" "t2" "n2") = some s ∧
      s.calls 0 = .succeeded a nodeId ∧ s.calls 1 = .succeeded b otherId ∧ nodeId = otherId := by
  intro token origin req steps
  have hunique : origin.UniqueFingerprints := fun id other row otherRow hrow => by
    cases hrow
  obtain ⟨s, a, b, nodeId, otherId, hrun, hfirst, hsecond, hsame⟩ :
      ∃ s a b nodeId otherId, (enrolling fun hash secret => hash == secret).exec
          (.initial origin) (steps 0 "one" "t1" "n1" ++ steps 1 "two" "t2" "n2") = some s ∧
        s.calls 0 = .succeeded a nodeId ∧ s.calls 1 = .succeeded b otherId ∧
        a.req.hwFingerprint = b.req.hwFingerprint :=
    ⟨_, _, _, _, _, rfl, rfl, rfl, rfl⟩
  refine ⟨s, a, b, nodeId, otherId, hrun, hfirst, hsecond, ?_⟩
  exact ((enroll_oneToOne _ origin hunique _ s hrun).1 0 1 a b nodeId otherId hfirst
    hsecond).mpr hsame

end GpuCluster.Mgmt
