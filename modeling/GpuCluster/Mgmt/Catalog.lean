import GpuCluster.Foundation.LockTable
import GpuCluster.Foundation.Machine
import GpuCluster.Mgmt.Reconciler
import Mathlib.Logic.Function.Basic

/-! # The models table under concurrent handlers

`create` and `update` are transactions; `delete`, the statements of `load` and
the reconciler's updates commit on their own. A statement sees the committed
rows and the writes of its own transaction, and waits for rows and unique keys
that another open transaction has written.
-/

namespace GpuCluster.Mgmt

open Common Foundation

/-! ## Transactions -/

/-- A row, or the one slot of the partial index on `is_default`. -/
inductive ModelLock
  | row (id : String)
  | default
  deriving DecidableEq

/-- What an executed statement will do to the tables when its transaction commits. -/
inductive ModelEffect
  | clearDefault (id : String)
  | insert (row : ModelRow)
  | update (id : String) (req : UpdateRequest) (now : ℤ)
  | addAudit (row : AuditRow)

namespace ModelTables

def apply (tables : ModelTables) : ModelEffect → ModelTables
  | .clearDefault id => { tables with models := tables.models.modify id .clearDefault }
  | .insert row => { tables with models := tables.models.insert row }
  | .update id req now => { tables with models := tables.models.modify id (req.set now) }
  | .addAudit row => { tables with auditLog := tables.auditLog ++ [row] }

def applyAll (tables : ModelTables) (effects : List ModelEffect) : ModelTables :=
  effects.foldl apply tables

/-- The partial unique index: at most one row is default. -/
def OneDefault (tables : ModelTables) : Prop :=
  ∀ id other row otherRow, tables.models.get id = some row →
    tables.models.get other = some otherRow → row.isDefault → otherRow.isDefault → id = other

end ModelTables

/-- A validated request that writes in a transaction. -/
inductive WriteRequest
  | create (row : ModelRow)
  | update (id : String) (req : UpdateRequest)

namespace WriteRequest

def id : WriteRequest → String
  | .create row => row.id
  | .update id _ => id

/-- The request asks for the default flag. -/
def setsDefault : WriteRequest → Bool
  | .create row => row.isDefault
  | .update _ req => req.isDefault == some true

/-- The `WHERE` of the statement that clears the flag elsewhere. -/
def clears (row : ModelRow) : WriteRequest → Bool
  | .create _ => row.isDefault
  | .update id _ => row.isDefault && row.id != id

def auditRow : WriteRequest → AuditRow
  | .create row => { actor := "admin", action := "MODEL_CREATED", resource := row.id }
  | .update id _ => { actor := "admin", action := "MODEL_UPDATED", resource := id }

end WriteRequest

/-- The statement a transaction is at. One that clears flags has read which rows
to clear before it waits for them. -/
inductive WriteStage
  | clear
  | clearing (targets : List String)
  | write
  | addAudit (result : ModelRow)
  | commit (result : ModelRow)

/-- An open transaction. `failed` tells that the server refuses further work. -/
structure ModelTx where
  request : WriteRequest
  started : ℤ
  effects : List ModelEffect
  failed : Bool

/-- How far a call has come. -/
inductive ModelCall
  | idle
  | writing (tx : ModelTx) (stage : WriteStage)
  | forwarding (id : String) (query : LoadQuery) (body : Json)
  | answered (answer : Except ApiError ModelAnswer)

/-- How far the reconciler's pass has come. -/
inductive Pass
  | idle
  | viewed (body : Json)
  | rows (body : Json) (rest : List ReconcileRow)

/-- A handler's write to one row. -/
inductive HandlerWrite
  | create
  | update
  | delete
  | load
  deriving DecidableEq

def WriteRequest.kind : WriteRequest → HandlerWrite
  | .create _ => .create
  | .update .. => .update

/-- The committed tables, the locks of open transactions, the calls and the
pass. `accepted` records the handlers' writes since the pass read its rows. -/
structure Catalog where
  tables : ModelTables
  locks : LockTable ModelLock ℕ
  calls : ℕ → ModelCall
  pass : Pass
  accepted : List (HandlerWrite × String)

namespace Catalog

def initial (tables : ModelTables) : Catalog := ⟨tables, .empty, fun _ => .idle, .idle, []⟩

def models (s : Catalog) : ModelTable := s.tables.models

def setCall (s : Catalog) (call : ℕ) (next : ModelCall) : Catalog :=
  { s with calls := Function.update s.calls call next }

/-- The answer of a call whose transaction, if it has one, is over. -/
def answer (s : Catalog) (call : ℕ) (answer : Except ApiError ModelAnswer) : Catalog :=
  { s.setCall call (.answered answer) with locks := s.locks.release call }

/-- A statement that commits on its own: it need not wait for the row. -/
def Unlocked (s : Catalog) (id : String) : Prop :=
  s.models.get id = none ∨ s.locks (.row id) = none

instance (s : Catalog) (id : String) : Decidable (s.Unlocked id) :=
  inferInstanceAs (Decidable (_ ∨ _))

/-- A statement that commits on its own and the audit statement after it, which
may fail. -/
def put (s : Catalog) (models : ModelTable) (audited : Bool) (audit : AuditRow) : Catalog :=
  { s with tables := ⟨models, s.tables.auditLog ++ if audited then [audit] else []⟩ }

/-- Such a statement of a handler, recorded. -/
def accept (s : Catalog) (models : ModelTable) (audited : Bool) (audit : AuditRow)
    (write : HandlerWrite) (id : String) : Catalog :=
  { s.put models audited audit with accepted := (write, id) :: s.accepted }

/-! ## The handlers -/

/-- Validation and `BEGIN` of a handler that writes in a transaction. -/
def openTx (s : Catalog) (call : ℕ) (request : Except ApiError WriteRequest) (started : ℤ) :
    Option Catalog :=
  match s.calls call, request with
  | .idle, .error error => some (s.answer call (.error error))
  | .idle, .ok request => some (s.setCall call (.writing ⟨request, started, [], false⟩ .clear))
  | _, _ => none

def create (s : Catalog) (call : ℕ) (req : CreateRequest) (started : ℤ) : Option Catalog :=
  s.openTx call ((req.toRow started).map .create) started

def update (s : Catalog) (call : ℕ) (id : String) (req : UpdateRequest) (started : ℤ) :
    Option Catalog :=
  s.openTx call (req.validate.map fun _ => .update id req) started

/-- A transaction goes on to its next statement. -/
def advance (s : Catalog) (call : ℕ) (tx : ModelTx) (effects : List ModelEffect)
    (next : WriteStage) : Catalog :=
  s.setCall call (.writing { tx with effects := tx.effects ++ effects } next)

/-- What a default row has to wait for: the slot, and the rows that hold it. -/
def slotLocks (s : Catalog) (row : ModelRow) : List ModelLock :=
  if row.isDefault then .default :: (s.models.list.filter (·.isDefault)).map (.row ·.id) else []

/-- The rows the statement that clears flags will find. -/
def clearTargets (s : Catalog) (request : WriteRequest) : List String :=
  (s.models.list.filter fun row => request.clears row).map ModelRow.id

/-- The statement that clears flags, its wait being over. A row that is no longer
default is skipped. -/
def clearDefaults (s : Catalog) (call : ℕ) (tx : ModelTx) (targets : List String) :
    Option Catalog :=
  let cleared := targets.filter fun id => (s.models.get id).any (·.isDefault)
  if s.locks.Free call (targets.map .row) then
    some { s.advance call tx (cleared.map .clearDefault) .write with
      locks := s.locks.acquire call (cleared.map .row) }
  else none

/-- The statement's own row has been written; the audit entry is next. -/
def wrote (s : Catalog) (call : ℕ) (tx : ModelTx) (effect : ModelEffect) (row : ModelRow) :
    Catalog :=
  { s.advance call tx [effect] (.addAudit row) with
    locks := s.locks.acquire call (.row row.id :: if row.isDefault then [.default] else []) }

/-- `INSERT`. Either unique key answers with the same conflict. -/
def insertRow (s : Catalog) (call : ℕ) (tx : ModelTx) (row : ModelRow) : Option Catalog :=
  let view := (s.tables.applyAll tx.effects).models
  if s.locks.Free call (.row row.id :: s.slotLocks row) then
    -- the primary key, then the partial index
    if (view.get row.id).isSome || row.isDefault && view.list.any (·.isDefault) then
      some (s.answer call (.error (.conflict ("model '" ++ row.id ++ "' already exists"))))
    else some (s.wrote call tx (.insert row) row)
  else none

/-- `UPDATE`. A second default row is an error of the database. -/
def updateRow (s : Catalog) (call : ℕ) (tx : ModelTx) (id : String) (req : UpdateRequest)
    (violation : String) : Option Catalog :=
  let view := (s.tables.applyAll tx.effects).models
  match view.get id with
  -- nothing to wait for: a row that another transaction inserts is not seen
  | none => some (s.answer call (.error .notFound))
  | some stored =>
      let row := req.set tx.started stored
      if s.locks.Free call (.row id :: s.slotLocks row) then
        if row.isDefault && view.list.any fun other => other.isDefault && other.id != id then
          some (s.answer call (.error (.internal violation)))
        else some (s.wrote call tx (.update id req tx.started) row)
      else none

/-- The next statement of an open transaction. -/
def exec (s : Catalog) (call : ℕ) (violation : String) : Option Catalog :=
  match s.calls call with
  | .writing tx .clear =>
      if tx.request.setsDefault then
        some (s.advance call tx [] (.clearing (s.clearTargets tx.request)))
      else some (s.advance call tx [] .write)
  | .writing tx (.clearing targets) => s.clearDefaults call tx targets
  | .writing tx .write =>
      match tx.request with
      | .create row => s.insertRow call tx row
      | .update id req => s.updateRow call tx id req violation
  | .writing tx (.addAudit result) =>
      some (s.advance call tx [.addAudit tx.request.auditRow] (.commit result))
  | _ => none

/-- The audit statement fails, which the handler ignores. -/
def auditFails (s : Catalog) (call : ℕ) : Option Catalog :=
  match s.calls call with
  | .writing tx (.addAudit result) =>
      some (s.advance call { tx with failed := true } [] (.commit result))
  | _ => none

/-- What a commit makes visible. -/
def finish (s : Catalog) (call : ℕ) (tx : ModelTx) (result : ModelRow) : Catalog :=
  { s.answer call (.ok (.row result)) with
    tables := s.tables.applyAll tx.effects
    accepted := (tx.request.kind, tx.request.id) :: s.accepted }

/-- `COMMIT`. The server turns that of a failed transaction into a rollback. -/
def commit (s : Catalog) (call : ℕ) : Option Catalog :=
  match s.calls call with
  | .writing tx (.commit result) =>
      if tx.failed then some (s.answer call (.ok (.row result)))
      else some (s.finish call tx result)
  | _ => none

def deleteAudit (id : String) : AuditRow where
  actor := "admin"
  action := "MODEL_DELETED"
  resource := id

def delete (s : Catalog) (call : ℕ) (id : String) (audited : Bool) : Option Catalog :=
  match s.calls call, s.models.get id with
  | .idle, none => some (s.answer call (.error .notFound))
  | .idle, some _ =>
      if s.Unlocked id then
        some ((s.accept (s.models.erase id) audited (deleteAudit id) .delete id).answer call
          (.ok .deleted))
      else none
  | _, _ => none

/-- `load` up to its request to the coordinator. -/
def load (s : Catalog) (call : ℕ) (id : String) (query : LoadQuery)
    (token eligible : Option Json) : Option Catalog :=
  match s.calls call, s.models.get id with
  | .idle, none => some (s.answer call (.error .notFound))
  | .idle, some row =>
      match loadBody row query token eligible with
      | .error error => some (s.answer call (.error error))
      | .ok body => some (s.setCall call (.forwarding id query body))
  | _, _ => none

def loadAudit (id : String) (query : LoadQuery) : AuditRow where
  actor := "admin"
  action := "MODEL_LOAD_REQUESTED"
  resource := id
  details := some (.object [("node_id", .string query.nodeId)])

/-- The coordinator accepted the load; its optimistic write follows. -/
def loadUpdate (s : Catalog) (call : ℕ) (now : ℤ) (audited : Bool) : Option Catalog :=
  match s.calls call with
  | .forwarding id query _ =>
      if s.Unlocked id then
        some ((s.accept (s.models.modify id (query.set now)) audited (loadAudit id query) .load
          id).answer call (.ok (.loadRequested id query.nodeId)))
      else none
  | _ => none

/-- Any other failure of a call: a database error, a refusal by the coordinator,
a lost connection. A commit fails without taking effect; one that takes effect and is not
acknowledged is no step. -/
def fail (s : Catalog) (call : ℕ) (message : String) : Option Catalog :=
  match s.calls call with
  | .writing .. => some (s.answer call (.error (.internal message)))
  | .forwarding .. => some (s.answer call (.error (.internal message)))
  | _ => none

/-! ## The reconciler -/

def readView (s : Catalog) (body : Json) : Option Catalog :=
  match s.pass with
  | .idle => some { s with pass := .viewed body }
  | _ => none

/-- The `SELECT`; rows come in no particular order. -/
def readRows (s : Catalog) (rows : List ReconcileRow) : Option Catalog :=
  match s.pass with
  | .viewed body =>
      if rows.Perm (reconcileRows s.models) then
        some { s with pass := .rows body rows, accepted := [] }
      else none
  | _ => none

/-- The next row: its decision, and the `UPDATE` and the audit entry if it
differs from what was read. The `UPDATE` selects the row by its id and looks at
no other column. -/
def reconcileRow (s : Catalog) (decidedAt now : ℤ) (audited : Bool) : Option Catalog :=
  match s.pass with
  | .rows body (row :: rest) =>
      let decision := row.decide (loadedOn body row.id) decidedAt
      if decision = row.current then some { s with pass := .rows body rest }
      else if s.Unlocked row.id then
        some { s.put (s.models.modify row.id (decision.set now)) audited
            (reconcileAudit row decision) with
          pass := .rows body rest }
      else none
  | _ => none

/-- The pass is over, or one of its reads or writes failed. -/
def passEnds (s : Catalog) : Option Catalog := some { s with pass := .idle }

end Catalog

inductive CatalogStep
  | create (call : ℕ) (req : CreateRequest) (started : ℤ)
  | update (call : ℕ) (id : String) (req : UpdateRequest) (started : ℤ)
  | exec (call : ℕ) (violation : String)
  | auditFails (call : ℕ)
  | commit (call : ℕ)
  | delete (call : ℕ) (id : String) (audited : Bool)
  | load (call : ℕ) (id : String) (query : LoadQuery) (token eligible : Option Json)
  | loadUpdate (call : ℕ) (now : ℤ) (audited : Bool)
  | fail (call : ℕ) (message : String)
  | readView (body : Json)
  | readRows (rows : List ReconcileRow)
  | reconcileRow (decidedAt now : ℤ) (audited : Bool)
  | passEnds

def CatalogStep.run (s : Catalog) : CatalogStep → Option Catalog
  | .create call req started => s.create call req started
  | .update call id req started => s.update call id req started
  | .exec call violation => s.exec call violation
  | .auditFails call => s.auditFails call
  | .commit call => s.commit call
  | .delete call id audited => s.delete call id audited
  | .load call id query token eligible => s.load call id query token eligible
  | .loadUpdate call now audited => s.loadUpdate call now audited
  | .fail call message => s.fail call message
  | .readView body => s.readView body
  | .readRows rows => s.readRows rows
  | .reconcileRow decidedAt now audited => s.reconcileRow decidedAt now audited
  | .passEnds => s.passEnds

/-- Concurrent handlers and passes on tables that meet the index. -/
def catalog : Machine Catalog CatalogStep where
  init s := ∃ tables : ModelTables, tables.OneDefault ∧ s = .initial tables
  step := CatalogStep.run

end GpuCluster.Mgmt
