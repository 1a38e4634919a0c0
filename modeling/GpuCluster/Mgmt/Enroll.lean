import GpuCluster.Common.Clock
import GpuCluster.Foundation.LockTable
import GpuCluster.Foundation.Machine
import GpuCluster.Mgmt.ApiError
import GpuCluster.Mgmt.Database
import Mathlib.Logic.Function.Basic

/-! # Enrollment, statement by statement

`complete` reads the tokens and the node outside its transaction, then runs four
statements in one `READ COMMITTED` transaction. A statement sees the committed
tables, waits for rows and unique keys that another open transaction has
written, and leaves its effect pending until the commit.
-/

namespace GpuCluster.Mgmt

open Common Foundation

def nodeCertValidDays : ℕ := 7

structure EnrollRequest where
  token : String
  pubkeyB64 : String
  displayName : Option String
  node : Json

namespace EnrollRequest

/-- A string field of the inventory, empty when absent. -/
def nodeStr (req : EnrollRequest) (key : String) : String :=
  (req.node.str? key).getD ""

def hwFingerprint (req : EnrollRequest) : String := req.nodeStr "hw_fingerprint"

def hostname (req : EnrollRequest) : String := req.nodeStr "hostname"

def agentVersion (req : EnrollRequest) : String := req.nodeStr "agent_version"

/-- The request's own display name, else the inventory's unless it is empty. -/
def display (req : EnrollRequest) : Option String :=
  req.displayName.or ((some (req.nodeStr "display_name")).filter (· ≠ ""))

def validate (req : EnrollRequest) : Except ApiError Unit :=
  if req.token = "" ∨ req.hwFingerprint = "" ∨ req.pubkeyB64 = "" then
    .error (.badRequest "token, pubkey_b64, node.hw_fingerprint required")
  else .ok ()

/-- The details column of the enrollment's audit row. -/
def auditDetails (req : EnrollRequest) : Json := .object
  [("hw_fingerprint", .string req.hwFingerprint),
    ("hostname", .string req.hostname),
    ("agent_version", .string req.agentVersion),
    ("device_name", .string ((((req.node.get? "os").bind (·.get? "device_name")).bind
      Json.asStr?).getD "")),
    ("gpus_count", .ofU64 (.ofNat ((((req.node.get? "gpus").bind Json.asArray?).map
      List.length).getD 0)))]

end EnrollRequest

/-- A call whose token was matched: the request, the client's address as a
network, the clock reading, and the token row it read. -/
structure Attempt where
  req : EnrollRequest
  publicIp : String
  now : ℤ
  token : TokenRow

namespace Attempt

/-- The row of the node statement's `VALUES`. -/
def nodeRow (a : Attempt) (nodeId certSha : String) : NodeRow where
  id := nodeId
  hwFingerprint := a.req.hwFingerprint
  hostname := a.req.hostname
  displayName := a.req.display.or a.token.displayHint
  status := "pending_approval"
  agentVersion := a.req.agentVersion
  clientCertSha := certSha
  certExpiresAt := a.now + seconds (nodeCertValidDays * 24 * 3600)
  currentPublicIpV4 := a.publicIp
  publicIpFirstSeen := a.now
  publicIpLastChanged := a.now
  firstSeen := a.now

def ipHistoryRow (a : Attempt) (nodeId : String) : IpHistoryRow where
  nodeId := nodeId
  publicIpV4 := a.publicIp
  source := "tls_socket"

def auditRow (a : Attempt) (nodeId : String) : AuditRow where
  actor := "worker:enroll"
  action := "NODE_ENROLLED"
  resource := nodeId
  ip := some a.publicIp
  details := some a.req.auditDetails

end Attempt

/-- `ON CONFLICT (id) DO UPDATE`: the columns re-enrollment takes over. -/
def NodeRow.onConflict (stored excluded : NodeRow) : NodeRow :=
  { stored with
    hostname := excluded.hostname
    displayName := excluded.displayName.or stored.displayName
    agentVersion := excluded.agentVersion
    clientCertSha := excluded.clientCertSha
    certExpiresAt := excluded.certExpiresAt
    currentPublicIpV4 := excluded.currentPublicIpV4
    publicIpLastChanged := excluded.publicIpLastChanged }

/-- The token statement's `SET`; `now()` is the start of the transaction. -/
def TokenRow.use (row : TokenRow) (started : ℤ) (nodeId publicIp : String) : TokenRow :=
  { row with usedAt := some started, usedByNode := some nodeId, usedFromIp := some publicIp }

/-- The candidates' `WHERE`: unused and not expired. -/
def TokenRow.isCandidate (row : TokenRow) (now : ℤ) : Bool :=
  row.usedAt.isNone && now < row.expiresAt

/-- A row or a unique key that a statement can wait for. -/
inductive Lock
  | nodeId (id : String)
  | fingerprint (hwFingerprint : String)
  | token (id : String)
  deriving DecidableEq

/-- The statement a transaction is at. -/
inductive Stage
  | upsertNode
  | addIpHistory
  | useToken
  | addAudit
  | commit
  deriving DecidableEq

/-- How far a call has come. -/
inductive CallState
  | absent
  | matched (a : Attempt)
  | identified (a : Attempt) (nodeId certSha : String)
  | writing (a : Attempt) (nodeId certSha : String) (started : ℤ) (stage : Stage)
      (pending : List Effect)
  | succeeded (a : Attempt) (nodeId : String)
  | failed (req : EnrollRequest) (error : ApiError)

/-- The attempt that is about to commit. -/
def CallState.committing : CallState → Option Attempt
  | .writing a _ _ _ .commit _ => some a
  | _ => none

theorem CallState.committing_eq_some {state : CallState} {a : Attempt}
    (hstate : state.committing = some a) :
    ∃ nodeId certSha started pending,
      state = .writing a nodeId certSha started .commit pending := by
  unfold committing at hstate
  split at hstate
  next =>
    cases hstate
    exact ⟨_, _, _, _, rfl⟩
  next => cases hstate

/-- The committed tables, the locks of open transactions, the generated ids with
the call that drew them, and the calls. `commits` records what each transaction
applied, newest first. -/
structure Enrolling where
  db : Database
  locks : LockTable Lock ℕ
  minted : String → Option ℕ
  calls : ℕ → CallState
  commits : List (ℕ × List Effect)

namespace Enrolling

def initial (db : Database) : Enrolling :=
  ⟨db, .empty, fun _ => none, fun _ => .absent, []⟩

def setCall (s : Enrolling) (call : ℕ) (next : CallState) : Enrolling :=
  { s with calls := Function.update s.calls call next }

/-- The error return: the transaction is rolled back and its locks are gone. -/
def abort (s : Enrolling) (call : ℕ) (req : EnrollRequest) (error : ApiError) : Enrolling :=
  { s.setCall call (.failed req error) with locks := s.locks.release call }

/-- Validation, the token `SELECT` and the search among its rows. `verify` is the
password hasher. Rows come in no particular order, so any match may be the first. -/
def start (verify : String → String → Bool) (s : Enrolling) (call : ℕ) (req : EnrollRequest)
    (publicIp : String) (now : ℤ) (choice : Option String) : Option Enrolling :=
  match s.calls call, req.validate, choice with
  | .absent, .error error, _ => some (s.setCall call (.failed req error))
  | .absent, .ok _, some tokenId =>
      match s.db.enrollTokens.get tokenId with
      | some row =>
          if row.isCandidate now && verify row.tokenHash req.token then
            some (s.setCall call (.matched ⟨req, publicIp, now, row⟩))
          else none
      | none => none
  | .absent, .ok _, none =>
      if s.db.enrollTokens.list.any fun row => row.isCandidate now && verify row.tokenHash req.token
      then none
      else some (s.setCall call (.failed req .unauthorized))
  | _, _, _ => none

/-- The node `SELECT`; a node not found gets an id nobody has drawn before. The
certificate is minted for that id. -/
def lookup (s : Enrolling) (call : ℕ) (freshId certSha : String) : Option Enrolling :=
  match s.calls call with
  | .matched a =>
      match s.db.nodeIdByFingerprint a.req.hwFingerprint with
      | some nodeId => some (s.setCall call (.identified a nodeId certSha))
      | none =>
          -- version 7 ids do not repeat
          if s.minted freshId = none ∧ s.db.nodes.get freshId = none then
            some { s.setCall call (.identified a freshId certSha) with
              minted := Function.update s.minted freshId (some call) }
          else none
  | _ => none

def begin (s : Enrolling) (call : ℕ) (started : ℤ) : Option Enrolling :=
  match s.calls call with
  | .identified a nodeId certSha =>
      some (s.setCall call (.writing a nodeId certSha started .upsertNode []))
  | _ => none

/-- The node statement. A conflict on the id updates the row; a conflict on the
fingerprint alone is an error of the database. -/
def upsertNode (s : Enrolling) (call : ℕ) (a : Attempt) (nodeId certSha : String) (started : ℤ)
    (violation : String) : Option Enrolling :=
  let keys := [.nodeId nodeId, .fingerprint a.req.hwFingerprint]
  let put (row : NodeRow) : Enrolling :=
    { s.setCall call (.writing a nodeId certSha started .addIpHistory [.putNode row]) with
      locks := s.locks.acquire call keys }
  if s.locks.Free call keys then
    match s.db.nodes.get nodeId with
    | some stored => some (put (stored.onConflict (a.nodeRow nodeId certSha)))
    | none =>
        match s.db.nodeIdByFingerprint a.req.hwFingerprint with
        -- `ON CONFLICT` names the id only
        | some _ => some (s.abort call a.req (.internal violation))
        | none => some (put (a.nodeRow nodeId certSha))
  else none

/-- The token statement. It selects the row by its id and looks at no other column. -/
def useToken (s : Enrolling) (call : ℕ) (a : Attempt) (nodeId certSha : String) (started : ℤ)
    (pending : List Effect) : Option Enrolling :=
  if s.locks.Free call [.token a.token.id] then
    let used := (s.db.enrollTokens.get a.token.id).map (·.use started nodeId a.publicIp)
    some { s.setCall call (.writing a nodeId certSha started .addAudit
        (pending ++ used.toList.map .putToken)) with
      locks := s.locks.acquire call [.token a.token.id] }
  else none

/-- The next statement of an open transaction. -/
def exec (s : Enrolling) (call : ℕ) (violation : String) : Option Enrolling :=
  match s.calls call with
  | .writing a nodeId certSha started stage pending =>
      match stage with
      | .upsertNode => s.upsertNode call a nodeId certSha started violation
      | .addIpHistory => some (s.setCall call (.writing a nodeId certSha started .useToken
          (pending ++ [.addIpHistory (a.ipHistoryRow nodeId)])))
      | .useToken => s.useToken call a nodeId certSha started pending
      | .addAudit => some (s.setCall call (.writing a nodeId certSha started .commit
          (pending ++ [.addAudit (a.auditRow nodeId)])))
      | .commit => none
  | _ => none

/-- What a commit makes visible; the call answers with the node id. -/
def finish (s : Enrolling) (call : ℕ) (a : Attempt) (nodeId : String) (pending : List Effect) :
    Enrolling :=
  { s.setCall call (.succeeded a nodeId) with
    db := s.db.applyAll pending
    locks := s.locks.release call
    commits := (call, pending) :: s.commits }

def commit (s : Enrolling) (call : ℕ) : Option Enrolling :=
  match s.calls call with
  | .writing a nodeId _ _ .commit pending => some (s.finish call a nodeId pending)
  | _ => none

/-- Any failure before the commit takes effect: a database error, the certificate
authority, a lost connection. A commit that takes effect and is not acknowledged is no
step: there the client gets an error for an enrollment that is stored. -/
def fail (s : Enrolling) (call : ℕ) (message : String) : Option Enrolling :=
  match s.calls call with
  | .matched a => some (s.abort call a.req (.internal message))
  | .identified a _ _ => some (s.abort call a.req (.internal message))
  | .writing a _ _ _ _ _ => some (s.abort call a.req (.internal message))
  | _ => none

end Enrolling

inductive EnrollStep
  | start (call : ℕ) (req : EnrollRequest) (publicIp : String) (now : ℤ) (choice : Option String)
  | lookup (call : ℕ) (freshId certSha : String)
  | begin (call : ℕ) (started : ℤ)
  | exec (call : ℕ) (violation : String)
  | commit (call : ℕ)
  | fail (call : ℕ) (message : String)

def EnrollStep.run (verify : String → String → Bool) (s : Enrolling) :
    EnrollStep → Option Enrolling
  | .start call req publicIp now choice => s.start verify call req publicIp now choice
  | .lookup call freshId certSha => s.lookup call freshId certSha
  | .begin call started => s.begin call started
  | .exec call violation => s.exec call violation
  | .commit call => s.commit call
  | .fail call message => s.fail call message

/-- Concurrent calls of `complete` on tables that meet the `UNIQUE` constraint. -/
def enrolling (verify : String → String → Bool) : Machine Enrolling EnrollStep where
  init s := ∃ db : Database, db.UniqueFingerprints ∧ s = .initial db
  step := EnrollStep.run verify

end GpuCluster.Mgmt
