import GpuCluster.Mgmt.Enroll

/-! # Approval, revocation and drain of nodes

Each of the three admin handlers is one `UPDATE` of the status column, next to
the enrollments that write the same rows. The statement waits for a row that an
open enrollment has written, and is then evaluated on the committed row.
-/

namespace GpuCluster.Mgmt

open Foundation

/-! ## The handlers -/

inductive StatusChange
  | approve
  | revoke
  | drain
  deriving DecidableEq

/-- The `status` part of the statement's `WHERE`. -/
def StatusChange.applies : StatusChange → String → Bool
  | .approve, status => status = "pending_approval"
  | .revoke, _ => true
  | .drain, status => status ∈ ["online", "degraded"]

def StatusChange.target : StatusChange → String
  | .approve => "online"
  | .revoke => "revoked"
  | .drain => "draining"

/-- The answer when no row was updated. A revocation does not look. -/
def StatusChange.refusal : StatusChange → Option ApiError
  | .approve => some .notFound
  | .revoke => none
  | .drain => some (.conflict "node not in a drainable state (must be online or degraded)")

def StatusChange.audit (id : String) : StatusChange → AuditRow
  | .approve => { actor := "admin", action := "NODE_APPROVED", resource := id }
  | .revoke => { actor := "admin", action := "NODE_REVOKED", resource := id }
  | .drain => { actor := "admin", action := "NODE_DRAIN_REQUESTED", resource := id }

/-- The row a statement updates. -/
def StatusChange.row (change : StatusChange) (db : Database) (id : String) : Option NodeRow :=
  (db.nodes.get id).filter fun row => change.applies row.status

/-- `approve`, `revoke` and `drain`. The audit entry is best-effort. -/
def StatusChange.exec (change : StatusChange) (db : Database) (id : String) (audited : Bool) :
    Except ApiError Database :=
  let logged (db : Database) : Database :=
    { db with auditLog := db.auditLog ++ if audited then [change.audit id] else [] }
  match change.row db id with
  | some row =>
      .ok (logged { db with nodes := db.nodes.insert { row with status := change.target } })
  | none =>
      match change.refusal with
      | some error => .error error
      | none => .ok (logged db)

/-! ## Runs -/

/-- The enrollments that committed and the changes that updated a row. -/
inductive NodeEvent
  | enrolled (id : String)
  | changed (change : StatusChange) (id : String)
  deriving DecidableEq

/-- The tables with their open transactions, and the events, newest first, which
no handler reads. -/
structure NodeTable where
  enrolling : Enrolling
  log : List NodeEvent

inductive NodeStep
  | enroll (step : EnrollStep)
  | change (change : StatusChange) (id : String) (audited : Bool)

namespace NodeTable

/-- The enrollment a step commits. -/
def committed (s : NodeTable) : EnrollStep → List NodeEvent
  | .commit call =>
      match s.enrolling.calls call with
      | .writing _ nodeId _ _ _ _ => [.enrolled nodeId]
      | _ => []
  | _ => []

def enroll (s : NodeTable) (verify : String → String → Bool) (step : EnrollStep) :
    Option NodeTable :=
  (step.run verify s.enrolling).map fun enrolling =>
    { enrolling, log := s.committed step ++ s.log }

/-- An admin's statement. It runs when no open transaction holds its row. -/
def change (s : NodeTable) (change : StatusChange) (id : String) (audited : Bool) :
    Option NodeTable :=
  if (change.row s.enrolling.db id).isSome ∧ s.enrolling.locks (.nodeId id) ≠ none then none
  else
    match change.exec s.enrolling.db id audited with
    | .error _ => some s
    | .ok db =>
        let event := (change.row s.enrolling.db id).toList.map fun _ => .changed change id
        some { enrolling := { s.enrolling with db }, log := event ++ s.log }

end NodeTable

/-- Enrollments and status changes, from a table without nodes. -/
def nodeTable (verify : String → String → Bool) : Machine NodeTable NodeStep where
  init s := ∃ db : Database, db.nodes = .empty ∧ s = ⟨.initial db, []⟩
  step s
    | .enroll step => s.enroll verify step
    | .change change id audited => s.change change id audited

end GpuCluster.Mgmt
