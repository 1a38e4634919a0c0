import GpuCluster.Mgmt.EnrollSerial

/-! # Where enrollment tokens come from

An admin mints a token; its hash is stored with an expiry, and the secret leaves
the service once, in the answer. Tokens are never deleted, and what an
enrollment writes to a token row concerns its use only.
-/

namespace GpuCluster.Mgmt

open Common Foundation

/-! ## The handler -/

structure TokenRequest where
  displayHint : Option String
  ttlSecs : Option ℤ
  deriving DecidableEq

/-- `req.ttl_secs.unwrap_or(900).clamp(60, 24 * 3600)`. -/
def TokenRequest.ttl (req : TokenRequest) : ℤ :=
  max 60 (min (req.ttlSecs.getD 900) (24 * 3600))

structure TokenResponse where
  token : String
  expiresAt : ℤ
  deriving DecidableEq

/-- A call of `create` with what it draws: the id, the secret and its salt, and
the clock reading. -/
structure Minting where
  req : TokenRequest
  id : String
  secret : String
  salt : String
  now : ℤ
  deriving DecidableEq

/-- The password hasher: a secret is hashed with a salt and verified against a hash. -/
structure SecretHasher where
  hash : String → String → String
  verify : String → String → Bool

namespace Minting

def expiresAt (m : Minting) : ℤ := m.now + seconds m.req.ttl

def row (hasher : SecretHasher) (m : Minting) : TokenRow where
  id := m.id
  tokenHash := hasher.hash m.secret m.salt
  displayHint := m.req.displayHint
  expiresAt := m.expiresAt
  usedAt := none
  usedByNode := none
  usedFromIp := none

def auditRow (m : Minting) : AuditRow where
  actor := "admin"
  action := "ENROLL_TOKEN_GENERATED"
  resource := m.id
  details := some (.object [("display_hint", Json.ofOption .string m.req.displayHint),
    ("ttl_secs", .ofI64 (.ofInt m.req.ttl))])

/-- `create`. The hint is the only text of the request that is stored, and the
audit entry is best-effort. -/
def create (hasher : SecretHasher) (m : Minting) (db : Database) (audited : Bool)
    (violation : String) : Except ApiError (Database × TokenResponse) :=
  if m.req.displayHint.all storable then
    .ok ({ db with
      enrollTokens := db.enrollTokens.insert (m.row hasher)
      auditLog := db.auditLog ++ if audited then [m.auditRow] else [] },
      ⟨m.secret, m.expiresAt⟩)
  else .error (.internal violation)

end Minting

/-! ## Runs -/

/-- The tables with their open transactions, and the calls that minted a token,
newest first. -/
structure Inviting where
  table : NodeTable
  minted : List Minting

inductive InvitingStep
  | mint (m : Minting) (audited : Bool) (violation : String)
  | table (step : NodeStep)

/-- A token is minted under an id nobody has drawn before. -/
def Inviting.mint (hasher : SecretHasher) (s : Inviting) (m : Minting) (audited : Bool)
    (violation : String) : Option Inviting :=
  if s.table.enrolling.db.enrollTokens.get m.id = none then
    match m.create hasher s.table.enrolling.db audited violation with
    | .ok (db, _) =>
        some ⟨{ s.table with enrolling := { s.table.enrolling with db } }, m :: s.minted⟩
    | .error _ => some s
  else none

/-- Minting, enrollment, approval, revocation and drain, on empty tables. -/
def inviting (hasher : SecretHasher) : Machine Inviting InvitingStep where
  init s := s = ⟨⟨.initial ⟨.empty, .empty, [], []⟩, []⟩, []⟩
  step s
    | .mint m audited violation => s.mint hasher m audited violation
    | .table step => ((nodeTable hasher.verify).step s.table step).map fun table => { s with table }

/-! ## What every row and every call goes back to -/

/-- The columns of a token row that no enrollment changes. -/
def Minting.Made (hasher : SecretHasher) (m : Minting) (row : TokenRow) : Prop :=
  row.id = m.id ∧ row.tokenHash = hasher.hash m.secret m.salt ∧ row.expiresAt = m.expiresAt

/-- The call presented a secret that matched a minted token before its expiry. -/
def Attempt.Invited (hasher : SecretHasher) (minted : List Minting) (a : Attempt) : Prop :=
  (∃ m ∈ minted, m.Made hasher a.token) ∧ hasher.verify a.token.tokenHash a.req.token ∧
    a.now < a.token.expiresAt

def CallState.Traced (hasher : SecretHasher) (minted : List Minting) : CallState → Prop
  | .matched a => a.Invited hasher minted
  | .identified a _ _ => a.Invited hasher minted
  | .writing a nodeId _ _ _ pending => a.Invited hasher minted ∧
      (∀ row, .putToken row ∈ pending →
        row.id = a.token.id ∧ ∃ m ∈ minted, m.Made hasher row) ∧
      ∀ row, .putNode row ∈ pending → row.id = nodeId
  | .succeeded a _ => a.Invited hasher minted
  | _ => True

structure Enrolling.Traced (hasher : SecretHasher) (minted : List Minting) (s : Enrolling) :
    Prop where
  distinct : (minted.map Minting.id).Nodup
  calls : ∀ call, (s.calls call).Traced hasher minted
  tokens : ∀ id row, s.db.enrollTokens.get id = some row →
    (∃ m ∈ minted, m.Made hasher row) ∧ (row.usedAt ≠ none → s.Consumed id)
  kept : ∀ m ∈ minted, ∃ row, s.db.enrollTokens.get m.id = some row ∧ m.Made hasher row
  nodes : ∀ id, (s.db.nodes.get id).isSome → ∃ call a, s.calls call = .succeeded a id

variable {hasher : SecretHasher} {minted : List Minting}

theorem Minting.Made.use {m : Minting} {row : TokenRow} (hmade : m.Made hasher row) (started : ℤ)
    (nodeId publicIp : String) : m.Made hasher (row.use started nodeId publicIp) :=
  hmade

theorem Attempt.Invited.cons {a : Attempt} (ha : a.Invited hasher minted) (m : Minting) :
    a.Invited hasher (m :: minted) := by
  obtain ⟨⟨first, hmem, hmade⟩, hrest⟩ := ha
  exact ⟨⟨first, List.mem_cons_of_mem _ hmem, hmade⟩, hrest⟩

theorem CallState.Traced.cons {state : CallState} (hstate : state.Traced hasher minted)
    (m : Minting) : state.Traced hasher (m :: minted) := by
  cases state with
  | absent | failed => trivial
  | matched | identified | succeeded => exact Attempt.Invited.cons hstate m
  | writing a nodeId certSha started stage pending =>
      obtain ⟨hinvited, htoken, hnode⟩ := hstate
      refine ⟨hinvited.cons m, fun row hmem => ?_, hnode⟩
      obtain ⟨hid, first, hfirst, hmade⟩ := htoken row hmem
      exact ⟨hid, first, List.mem_cons_of_mem _ hfirst, hmade⟩

/-! ## Every step -/

section Steps

variable {s next : Enrolling} {call : ℕ} {commits : Bool}

/-- A statement that writes no token and no node. -/
theorem CallState.Traced.append {a : Attempt} {nodeId certSha : String} {started : ℤ}
    {stage later : Stage} {pending more : List Effect}
    (hstate : (CallState.writing a nodeId certSha started stage pending).Traced hasher minted)
    (htoken : ∀ row, Effect.putToken row ∈ more →
      row.id = a.token.id ∧ ∃ m ∈ minted, m.Made hasher row)
    (hnode : ∀ row, Effect.putNode row ∉ more) :
    (CallState.writing a nodeId certSha started later (pending ++ more)).Traced hasher minted := by
  refine ⟨hstate.1, fun row hmem => ?_, fun row hmem => ?_⟩
  · exact (List.mem_append.mp hmem).elim (hstate.2.1 row) (htoken row)
  · exact hstate.2.2 row ((List.mem_append.mp hmem).resolve_right (hnode row))

/-- What a move makes of its own call. -/
theorem Moves.traced_self (hmoves : Moves hasher.verify s call commits next)
    (hs : s.Traced hasher minted) : (next.calls call).Traced hasher minted := by
  have hcalls := hs.calls call
  cases hmoves with
  | refuse | abort =>
      simp only [Enrolling.abort, Enrolling.setCall, Function.update_self]
      trivial
  | pick a _ hget hcandidate hverify =>
      simp only [Enrolling.setCall, Function.update_self]
      simp only [TokenRow.isCandidate, Bool.and_eq_true, decide_eq_true_eq] at hcandidate
      exact ⟨(hs.tokens _ _ hget).1, hverify, hcandidate.2⟩
  | found a nodeId certSha hcall | drawn a nodeId certSha hcall =>
      rw [hcall] at hcalls
      simp only [Enrolling.setCall, Function.update_self]
      exact hcalls
  | begin a nodeId certSha started hcall =>
      rw [hcall] at hcalls
      simp only [Enrolling.setCall, Function.update_self]
      exact ⟨hcalls, fun _ hmem => absurd hmem List.not_mem_nil,
        fun _ hmem => absurd hmem List.not_mem_nil⟩
  | upsert a nodeId certSha started pending row hcall _ hrow =>
      rw [hcall] at hcalls
      simp only [Enrolling.setCall, Function.update_self]
      refine ⟨hcalls.1, by simp, fun written hmem => ?_⟩
      obtain rfl : written = row := by simpa using hmem
      rcases hrow with ⟨stored, hstored, rfl⟩ | ⟨-, -, rfl⟩
      · have hid : stored.id = nodeId := KeyedMap.key_of_get hstored
        exact hid
      · rfl
  | history a nodeId certSha started pending hcall =>
      rw [hcall] at hcalls
      simp only [Enrolling.setCall, Function.update_self]
      exact hcalls.append (by simp) (by simp)
  | use a nodeId certSha started pending hcall =>
      rw [hcall] at hcalls
      simp only [Enrolling.setCall, Function.update_self]
      refine hcalls.append (fun row hmem => ?_) (by simp)
      -- the row is written back with its id, hash and expiry
      obtain ⟨stored, hstored, rfl⟩ := Attempt.mem_tokenEffects hmem
      have hid : stored.id = a.token.id := KeyedMap.key_of_get hstored
      obtain ⟨m, hm, hmade⟩ := (hs.tokens _ _ hstored).1
      exact ⟨hid, m, hm, hmade.use started nodeId a.publicIp⟩
  | audit a nodeId certSha started pending hcall =>
      rw [hcall] at hcalls
      simp only [Enrolling.setCall, Function.update_self]
      exact hcalls.append (by simp) (by simp)
  | commit a nodeId certSha started pending hcall =>
      rw [hcall] at hcalls
      simp only [Enrolling.finish, Enrolling.setCall, Function.update_self]
      exact hcalls.1

theorem Moves.consumed (hmoves : Moves hasher.verify s call commits next) {id : String}
    (hid : s.Consumed id) : next.Consumed id := by
  obtain ⟨other, a, nodeId, hother, htoken⟩ := hid
  exact ⟨other, a, nodeId, hmoves.succeeded hother, htoken⟩

/-- A row of the token table after a commit: the row before it, or what the call wrote. -/
theorem Enrolling.Traced.commit_token (hs : s.Traced hasher minted) {a : Attempt}
    {nodeId certSha : String} {started : ℤ} {pending : List Effect}
    (hcall : s.calls call = .writing a nodeId certSha started .commit pending) (id : String) :
    (s.db.applyAll pending).enrollTokens.get id = s.db.enrollTokens.get id ∨
      ∃ row, (s.db.applyAll pending).enrollTokens.get id = some row ∧ id = a.token.id ∧
        ∃ m ∈ minted, m.Made hasher row := by
  have hcalls := hs.calls call
  rw [hcall] at hcalls
  rcases s.db.applyAll_enrollTokens pending id with ⟨hsame, -⟩ | ⟨row, hmem, hid, hrow⟩
  · exact .inl hsame
  · obtain ⟨htoken, hmade⟩ := hcalls.2.1 row hmem
    exact .inr ⟨row, hrow, hid.symm.trans htoken, hmade⟩

/-- A commit leaves the rows of the token table with their tokens. -/
theorem Enrolling.Traced.finish (hs : s.Traced hasher minted) {a : Attempt}
    {nodeId certSha : String} {started : ℤ} {pending : List Effect}
    (hcall : s.calls call = .writing a nodeId certSha started .commit pending) :
    (s.finish call a nodeId pending).Traced hasher minted := by
  have hmoves : Moves hasher.verify s call true (s.finish call a nodeId pending) :=
    .commit a nodeId certSha started pending hcall
  have hself : (s.finish call a nodeId pending).calls call = .succeeded a nodeId :=
    Function.update_self ..
  refine ⟨hs.distinct, fun other => ?_, fun id row hrow => ?_, fun m hm => ?_,
    fun id hnode => ?_⟩
  · by_cases hother : other = call
    · subst hother
      exact hmoves.traced_self hs
    · rw [hmoves.calls_ne hother]
      exact hs.calls other
  · rcases hs.commit_token hcall id with hsame | ⟨written, hwritten, hid, hmade⟩
    · obtain ⟨hmade, hconsumed⟩ := hs.tokens id row (hsame.symm.trans hrow)
      exact ⟨hmade, fun hused => hmoves.consumed (hconsumed hused)⟩
    · cases hwritten.symm.trans hrow
      exact ⟨hmade, fun _ => ⟨call, a, nodeId, hself, hid.symm⟩⟩
  · rcases hs.commit_token hcall m.id with hsame | ⟨written, hwritten, -, other, hother, hmade⟩
    · obtain ⟨row, hrow, hmade⟩ := hs.kept m hm
      exact ⟨row, hsame.trans hrow, hmade⟩
    · have hid : other.id = m.id := hmade.1.symm.trans (KeyedMap.key_of_get hwritten)
      obtain rfl := List.inj_on_of_nodup_map hs.distinct hother hm hid
      exact ⟨written, hwritten, hmade⟩
  · have hcalls := hs.calls call
    rw [hcall] at hcalls
    rcases s.db.applyAll_nodes pending id with ⟨hsame, -⟩ | ⟨row, hmem, hid, -⟩
    · have hstored : (s.db.nodes.get id).isSome := hsame ▸ hnode
      obtain ⟨other, b, hother⟩ := hs.nodes id hstored
      exact ⟨other, b, hmoves.succeeded hother⟩
    · obtain rfl := hid.symm.trans (hcalls.2.2 row hmem)
      exact ⟨call, a, hself⟩

theorem Moves.traced (hmoves : Moves hasher.verify s call commits next)
    (hs : s.Traced hasher minted) : next.Traced hasher minted := by
  cases commits with
  | true =>
      cases hmoves with
      | commit a nodeId certSha started pending hcall => exact hs.finish hcall
  | false =>
      obtain ⟨hdb, -, hanswers⟩ := hmoves.quiet
      refine ⟨hs.distinct, fun other => ?_, fun id row hrow => ?_, fun m hm => ?_,
        fun id hnode => ?_⟩
      · by_cases hother : other = call
        · subst hother
          exact hmoves.traced_self hs
        · rw [hmoves.calls_ne hother]
          exact hs.calls other
      · obtain ⟨hmade, hconsumed⟩ := hs.tokens id row (hdb ▸ hrow)
        exact ⟨hmade, fun hused => hmoves.consumed (hconsumed hused)⟩
      · rw [hdb]
        exact hs.kept m hm
      · obtain ⟨other, a, hother⟩ := hs.nodes id (hdb ▸ hnode)
        exact ⟨other, a, (hanswers other a id).mpr hother⟩

end Steps

/-- Status changes write neither tokens nor new nodes. -/
theorem NodeMove.traced {s next : NodeTable} {step : NodeStep}
    (hmove : NodeMove hasher.verify s step next) (hs : s.enrolling.Traced hasher minted) :
    next.enrolling.Traced hasher minted := by
  cases hmove with
  | quiet step call next hmoves => exact hmoves.traced hs
  | committed call a nodeId certSha started pending hcall => exact hs.finish hcall
  | untouched => exact ⟨hs.distinct, hs.calls, hs.tokens, hs.kept, hs.nodes⟩
  | changed change other audited auditLog row hrow =>
      refine ⟨hs.distinct, hs.calls, hs.tokens, hs.kept, fun id hnode => ?_⟩
      simp only [KeyedMap.get_insert] at hnode
      split at hnode
      next hid =>
        have hother : row.id = other := KeyedMap.key_of_get hrow
        have hsame : id = other := hid.trans hother
        exact hs.nodes id (by rw [hsame, hrow]; rfl)
      next => exact hs.nodes id hnode

/-- A new token row stands under an id that no other token has. -/
theorem Enrolling.Traced.mint {s : Enrolling} (hs : s.Traced hasher minted) {m : Minting}
    (hfresh : s.db.enrollTokens.get m.id = none) (auditLog : List AuditRow) :
    ({ s with db := { s.db with
      enrollTokens := s.db.enrollTokens.insert (m.row hasher), auditLog } } : Enrolling).Traced
      hasher (m :: minted) := by
  have hmade : m.Made hasher (m.row hasher) := ⟨rfl, rfl, rfl⟩
  have hnew : ∀ other ∈ minted, other.id ≠ m.id := by
    intro other hother hsame
    obtain ⟨row, hrow, -⟩ := hs.kept other hother
    rw [hsame, hfresh] at hrow
    cases hrow
  refine ⟨?_, fun call => (hs.calls call).cons m, fun id row hrow => ?_, fun other hother => ?_,
    hs.nodes⟩
  · refine List.nodup_cons.mpr ⟨fun hmem => ?_, hs.distinct⟩
    obtain ⟨other, hother, hsame⟩ := List.mem_map.mp hmem
    exact hnew other hother hsame
  · rcases KeyedMap.get_insert_eq_some.mp hrow with ⟨hid, rfl⟩ | ⟨-, hold⟩
    · exact ⟨⟨m, List.mem_cons_self, hmade⟩, fun hused => absurd rfl hused⟩
    · obtain ⟨⟨first, hfirst, hmade⟩, hconsumed⟩ := hs.tokens id row hold
      exact ⟨⟨first, List.mem_cons_of_mem _ hfirst, hmade⟩, hconsumed⟩
  · rcases List.mem_cons.mp hother with rfl | hold
    · exact ⟨_, KeyedMap.get_insert_self _ _, hmade⟩
    · obtain ⟨row, hrow, hmade⟩ := hs.kept other hold
      have hne : other.id ≠ (m.row hasher).id := hnew other hold
      exact ⟨row, (KeyedMap.get_insert_ne _ _ hne).trans hrow, hmade⟩

theorem inviting_traced {s next : Inviting} {step : InvitingStep}
    (hs : s.table.enrolling.Traced hasher s.minted)
    (hstep : (inviting hasher).step s step = some next) :
    next.table.enrolling.Traced hasher next.minted := by
  cases step with
  | table step =>
      obtain ⟨table, htable, rfl⟩ := Option.map_eq_some_iff.mp hstep
      exact (nodeTable_moves htable).traced hs
  | mint m audited violation =>
      simp only [inviting, Inviting.mint, Minting.create] at hstep
      split at hstep
      next hfresh =>
        split at hstep
        next db _ hcreate =>
          split at hcreate
          next =>
            cases hcreate
            cases hstep
            exact hs.mint hfresh _
          next => cases hcreate
        next =>
          cases hstep
          exact hs
      next => cases hstep

theorem traced_of_reachable {s : Inviting} (hs : (inviting hasher).Reachable s) :
    s.table.enrolling.Traced hasher s.minted := by
  refine hs.invariant (fun s => s.table.enrolling.Traced hasher s.minted) ?_
    fun _ _ _ hs hstep => inviting_traced hs hstep
  rintro _ rfl
  refine ⟨List.nodup_nil, fun _ => trivial, fun id row hrow => ?_, nofun, fun id hnode => ?_⟩
  · exact nomatch (KeyedMap.get_empty id).symm.trans hrow
  · have hnone : (KeyedMap.empty : KeyedMap NodeRow.id).get id = none := KeyedMap.get_empty id
    have hnode : ((KeyedMap.empty : KeyedMap NodeRow.id).get id).isSome = true := hnode
    rw [hnone] at hnode
    cases hnode

/-! ## Every run -/

/-- Every node of the table was enrolled by a call that presented the secret of
an admin's token, at most the token's lifetime after it was minted, and that
lifetime is between a minute and a day. -/
theorem nodes_wereInvited {s : Inviting} (hs : (inviting hasher).Reachable s) {id : String}
    (hnode : (s.table.enrolling.db.nodes.get id).isSome) :
    ∃ m ∈ s.minted, ∃ call a, s.table.enrolling.calls call = .succeeded a id ∧
      hasher.verify (hasher.hash m.secret m.salt) a.req.token ∧
      a.now < m.now + seconds m.req.ttl ∧ 60 ≤ m.req.ttl ∧ m.req.ttl ≤ 24 * 3600 := by
  have htraced := traced_of_reachable hs
  obtain ⟨call, a, hcall⟩ := htraced.nodes id hnode
  have hinvited := htraced.calls call
  rw [hcall] at hinvited
  obtain ⟨⟨m, hm, -, hhash, hexpires⟩, hverify, hnow⟩ := hinvited
  rw [hexpires] at hnow
  rw [hhash] at hverify
  refine ⟨m, hm, call, a, hcall, hverify, hnow, ?_, ?_⟩
  · exact le_max_left 60 _
  · exact max_le (by decide) (min_le_right _ _)

/-- The token's row as it is now: still unused, or used by a call that answered. -/
theorem Enrolling.Traced.stored {s : Enrolling} (hs : s.Traced hasher minted) {m : Minting}
    (hm : m ∈ minted) : s.Consumed m.id ∨ ∃ row, s.db.enrollTokens.get m.id = some row ∧
      m.Made hasher row ∧ row.usedAt = none := by
  obtain ⟨row, hrow, hmade⟩ := hs.kept m hm
  by_cases hused : row.usedAt = none
  · exact .inr ⟨row, hrow, hmade, hused⟩
  · exact .inl ((hs.tokens _ _ hrow).2 hused)

/-- Up to its expiry a token admits whoever presents its secret, whatever else
has happened, unless a call has enrolled with it: the call is not refused, and it
can go on with the token's row. -/
theorem mintedToken_isAccepted (hverify : ∀ secret salt,
      hasher.verify (hasher.hash secret salt) secret = true)
    {s : Inviting} (hs : (inviting hasher).Reachable s) {m : Minting} (hm : m ∈ s.minted)
    {call : ℕ} (habsent : s.table.enrolling.calls call = .absent) {req : EnrollRequest}
    (hvalid : req.validate = .ok ()) (hsecret : req.token = m.secret) (publicIp : String)
    {now : ℤ} (hnow : now < m.expiresAt) :
    s.table.enrolling.Consumed m.id ∨
      s.table.enrolling.start hasher.verify call req publicIp now none = none ∧
      ∃ row, m.Made hasher row ∧
        s.table.enrolling.start hasher.verify call req publicIp now (some m.id) =
          some (s.table.enrolling.setCall call (.matched ⟨req, publicIp, now, row⟩)) := by
  rcases (traced_of_reachable hs).stored hm with hconsumed | ⟨row, hrow, hmade, hunused⟩
  · exact .inl hconsumed
  have ⟨hid, hhash, hexpires⟩ := hmade
  have hmatches : row.isCandidate now && hasher.verify row.tokenHash req.token := by
    rw [Bool.and_eq_true, TokenRow.isCandidate, hunused, hexpires, hhash, hsecret]
    exact ⟨by simpa using hnow, hverify m.secret m.salt⟩
  refine .inr ⟨?_, row, hmade, ?_⟩
  · have hlisted : row ∈ s.table.enrolling.db.enrollTokens.list :=
      KeyedMap.mem_list.mpr (hid ▸ hrow)
    have hany : s.table.enrolling.db.enrollTokens.list.any (fun row =>
        row.isCandidate now && hasher.verify row.tokenHash req.token) = true :=
      List.any_eq_true.mpr ⟨row, hlisted, hmatches⟩
    simp only [Enrolling.start, habsent, hvalid, hany, if_true]
  · simp only [Enrolling.start, habsent, hvalid, hrow, hmatches, if_true]

/-! ## One run -/

/-- Hashes that are their secrets. -/
def secretItself : SecretHasher where
  hash secret _ := secret
  verify hash secret := hash == secret

def noTables : Inviting := ⟨⟨.initial ⟨.empty, .empty, [], []⟩, []⟩, []⟩

def mintedToken : Minting := ⟨⟨none, some 5⟩, "t1", "one", "salt", 0⟩

/-- A machine that presents a secret. -/
def presenting (secret : String) : EnrollRequest :=
  ⟨secret, "key", none, .object [("hw_fingerprint", .string "hw")]⟩

/-- A token that lives for a minute, and a machine that enrolls with it in time. -/
def invitedMachine : List InvitingStep :=
  .mint mintedToken true "" ::
    (([.start 0 (presenting "one") "10.0.0.1/32" 7 (some "t1"), .lookup 0 "n" "sha", .begin 0 7,
      .exec 0 "", .exec 0 "", .exec 0 "", .exec 0 "", .commit 0] : List EnrollStep).map
      fun step => .table (.enroll step))

theorem invitedMachine_wasInvited : ∃ s,
    (inviting secretItself).exec noTables invitedMachine = some s ∧
      ∃ m ∈ s.minted, ∃ call a, s.table.enrolling.calls call = .succeeded a "n" ∧
        secretItself.verify (secretItself.hash m.secret m.salt) a.req.token ∧
        a.now < m.now + seconds m.req.ttl ∧ 60 ≤ m.req.ttl ∧ m.req.ttl ≤ 24 * 3600 := by
  have hrun : ((inviting secretItself).exec noTables invitedMachine).any
      (fun s => (s.table.enrolling.db.nodes.get "n").isSome) = true := by
    decide +kernel
  obtain ⟨s, hexec, hnode⟩ := (Option.any_eq_true _ _).mp hrun
  have hreach : (inviting secretItself).Reachable s := .exec (.init rfl) hexec
  exact ⟨s, hexec, nodes_wereInvited hreach hnode⟩

/-- A second token, and an enrollment with it after the first one was minted. -/
def tokenBesideOther : List InvitingStep :=
  .mint ⟨⟨none, some 5⟩, "t2", "two", "salt", 0⟩ true "" :: invitedMachine.map fun
    | .table (.enroll (.start call _ publicIp now _)) =>
        .table (.enroll (.start call (presenting "two") publicIp now (some "t2")))
    | step => step

/-- A token is good for the minute it lives, also once a machine has enrolled with another. -/
theorem keptToken_isAccepted :
    let start (s : Inviting) := s.table.enrolling.start secretItself.verify 1 (presenting "one")
      "10.0.0.1/32" 30
    ∃ s, (inviting secretItself).exec noTables tokenBesideOther = some s ∧
      (s.table.enrolling.db.enrollTokens.get "t2").any (·.usedAt.isSome) ∧
      (s.table.enrolling.Consumed "t1" ∨ start s none = none ∧
        ∃ row, mintedToken.Made secretItself row ∧
          start s (some "t1") = some (s.table.enrolling.setCall 1
            (.matched ⟨presenting "one", "10.0.0.1/32", 30, row⟩))) := by
  intro start
  have hrun : ((inviting secretItself).exec noTables tokenBesideOther).any (fun s =>
      (s.table.enrolling.db.enrollTokens.get "t2").any (·.usedAt.isSome) &&
        s.minted.contains mintedToken) = true := by
    decide +kernel
  obtain ⟨s, hexec, hstate⟩ := (Option.any_eq_true _ _).mp hrun
  obtain ⟨hused, hminted⟩ := Bool.and_eq_true_iff.mp hstate
  have habsent : s.table.enrolling.calls 1 = .absent := by
    obtain rfl := Option.some.inj (hexec.symm.trans rfl)
    rfl
  have hreach : (inviting secretItself).Reachable s := .exec (.init rfl) hexec
  refine ⟨s, hexec, hused, ?_⟩
  exact mintedToken_isAccepted (fun secret _ => beq_self_eq_true secret) hreach
    (List.contains_iff_mem.mp hminted) habsent rfl rfl "10.0.0.1/32" (by decide)

end GpuCluster.Mgmt
