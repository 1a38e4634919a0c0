import GpuCluster.Foundation.LockTable
import GpuCluster.Foundation.Machine
import GpuCluster.Mgmt.ApiError
import GpuCluster.Mgmt.Database
import Mathlib.Logic.Function.Basic

/-! # Cluster settings

`put` writes a document of settings in one transaction, key by key, and answers
with what a `SELECT` finds after the commit. Two requests that write the same
key wait for each other.
-/

namespace GpuCluster.Mgmt

open Foundation

/-- A JSON object, in iteration order. -/
structure SettingsDoc where
  fields : List (String × Json)
  nodup : (fields.map Prod.fst).Nodup

/-- A row of `cluster_settings`. -/
structure SettingRow where
  key : String
  value : Json

abbrev SettingsTable := KeyedMap SettingRow.key

/-- `get`. -/
def SettingsTable.doc (table : SettingsTable) : SettingsDoc where
  fields := table.list.map fun row => (row.key, row.value)
  nodup := by
    have hkeys := table.list_nodup
    rwa [List.map_map]

/-- `INSERT … ON CONFLICT DO UPDATE` for each field. -/
def SettingsTable.upsertAll (table : SettingsTable) (fields : List (String × Json)) :
    SettingsTable :=
  fields.foldl (fun table field => table.insert ⟨field.1, field.2⟩) table

def allowedSettings : List String :=
  ["public_base_url", "default_model", "rate_limit_rpm", "max_tokens_default",
    "huggingface_api_token"]

/-- What the audit log says of a secret. -/
def redactToken (value : Json) : Json :=
  .string (if value.asStr?.any (· ≠ "") then "<redacted>" else "<cleared>")

/-- The document as the audit log gets it. -/
def SettingsDoc.redacted (doc : SettingsDoc) : Json :=
  .object (doc.fields.map fun field =>
    if field.1 = "huggingface_api_token" then (field.1, redactToken field.2) else field)

def SettingsDoc.auditRow (doc : SettingsDoc) : AuditRow where
  actor := "admin"
  action := "SETTINGS_UPDATED"
  resource := "cluster_settings"
  details := some doc.redacted

/-- The statement a call is at. -/
inductive PutStage
  | upsert (rest : List (String × Json))
  | addAudit
  | commit
  | select

/-- A transaction, with the fields it has written. `failed` tells that the server
refuses further work. -/
structure PutTx where
  doc : SettingsDoc
  written : List (String × Json)
  failed : Bool

inductive PutCall
  | idle
  | writing (tx : PutTx) (stage : PutStage)
  | answered (doc : SettingsDoc) (answer : Except ApiError SettingsDoc)

/-- The committed tables, the keys open transactions have written, and the calls. -/
structure Settings where
  table : SettingsTable
  auditLog : List AuditRow
  locks : LockTable String ℕ
  calls : ℕ → PutCall

namespace Settings

def initial (table : SettingsTable) : Settings := ⟨table, [], .empty, fun _ => .idle⟩

def setCall (s : Settings) (call : ℕ) (next : PutCall) : Settings :=
  { s with calls := Function.update s.calls call next }

def answer (s : Settings) (call : ℕ) (doc : SettingsDoc) (answer : Except ApiError SettingsDoc) :
    Settings :=
  { s.setCall call (.answered doc answer) with locks := s.locks.release call }

/-- The handler up to `BEGIN`. -/
def put (s : Settings) (call : ℕ) (doc : SettingsDoc) : Option Settings :=
  match s.calls call with
  | .idle =>
      if doc.fields = [] then
        some (s.answer call doc (.error (.badRequest "body must not be empty")))
      else some (s.setCall call (.writing ⟨doc, [], false⟩ (.upsert doc.fields)))
  | _ => none

/-- The next statement, which succeeds. -/
def exec (s : Settings) (call : ℕ) : Option Settings :=
  match s.calls call with
  | .writing tx (.upsert (field :: rest)) =>
      if field.1 ∉ allowedSettings then
        some (s.answer call tx.doc (.error (.badRequest ("unknown setting: " ++ field.1))))
      else if s.locks.Free call [field.1] then
        some { s.setCall call (.writing { tx with written := tx.written ++ [field] }
            (.upsert rest)) with
          locks := s.locks.acquire call [field.1] }
      else none
  | .writing tx (.upsert []) => some (s.setCall call (.writing tx .addAudit))
  | .writing tx .addAudit => some (s.setCall call (.writing tx .commit))
  | .writing tx .commit =>
      let ended := { s.setCall call (.writing tx .select) with locks := s.locks.release call }
      -- the server turns the commit of a failed transaction into a rollback
      if tx.failed then some ended
      else some { ended with
        table := s.table.upsertAll tx.written
        auditLog := s.auditLog ++ [tx.doc.auditRow] }
  | .writing tx .select => some (s.answer call tx.doc (.ok s.table.doc))
  | _ => none

/-- The audit statement fails, which the handler ignores. -/
def auditFails (s : Settings) (call : ℕ) : Option Settings :=
  match s.calls call with
  | .writing tx .addAudit => some (s.setCall call (.writing { tx with failed := true } .commit))
  | _ => none

/-- Any other statement fails, a commit without taking effect. One that takes effect and is
not acknowledged is no step. -/
def fail (s : Settings) (call : ℕ) (message : String) : Option Settings :=
  match s.calls call with
  | .writing tx _ => some (s.answer call tx.doc (.error (.internal message)))
  | _ => none

end Settings

inductive SettingsStep
  | put (call : ℕ) (doc : SettingsDoc)
  | exec (call : ℕ)
  | auditFails (call : ℕ)
  | fail (call : ℕ) (message : String)

def SettingsStep.run (s : Settings) : SettingsStep → Option Settings
  | .put call doc => s.put call doc
  | .exec call => s.exec call
  | .auditFails call => s.auditFails call
  | .fail call message => s.fail call message

def SettingsStep.call : SettingsStep → ℕ
  | .put call _ => call
  | .exec call => call
  | .auditFails call => call
  | .fail call _ => call

/-- What a step does, with its guards. -/
inductive Settings.Moves (s : Settings) : SettingsStep → Settings → Prop
  | empty (call : ℕ) (doc : SettingsDoc) (error : ApiError) : s.calls call = .idle →
      Moves s (.put call doc) (s.answer call doc (.error error))
  | start (call : ℕ) (doc : SettingsDoc) : s.calls call = .idle →
      Moves s (.put call doc) (s.setCall call (.writing ⟨doc, [], false⟩ (.upsert doc.fields)))
  | unknown (call : ℕ) (tx : PutTx) (field : String × Json) (rest : List (String × Json))
      (error : ApiError) : s.calls call = .writing tx (.upsert (field :: rest)) →
      Moves s (.exec call) (s.answer call tx.doc (.error error))
  | upsert (call : ℕ) (tx : PutTx) (field : String × Json) (rest : List (String × Json)) :
      s.calls call = .writing tx (.upsert (field :: rest)) → s.locks.Free call [field.1] →
      Moves s (.exec call) { s.setCall call (.writing { tx with written := tx.written ++ [field] }
        (.upsert rest)) with locks := s.locks.acquire call [field.1] }
  | upserted (call : ℕ) (tx : PutTx) : s.calls call = .writing tx (.upsert []) →
      Moves s (.exec call) (s.setCall call (.writing tx .addAudit))
  | addAudit (call : ℕ) (tx : PutTx) : s.calls call = .writing tx .addAudit →
      Moves s (.exec call) (s.setCall call (.writing tx .commit))
  | auditFails (call : ℕ) (tx : PutTx) : s.calls call = .writing tx .addAudit →
      Moves s (.auditFails call) (s.setCall call (.writing { tx with failed := true } .commit))
  | rollback (call : ℕ) (tx : PutTx) : s.calls call = .writing tx .commit → tx.failed →
      Moves s (.exec call)
        { s.setCall call (.writing tx .select) with locks := s.locks.release call }
  | commit (call : ℕ) (tx : PutTx) : s.calls call = .writing tx .commit → tx.failed = false →
      Moves s (.exec call) { s.setCall call (.writing tx .select) with
        locks := s.locks.release call
        table := s.table.upsertAll tx.written
        auditLog := s.auditLog ++ [tx.doc.auditRow] }
  | select (call : ℕ) (tx : PutTx) : s.calls call = .writing tx .select →
      Moves s (.exec call) (s.answer call tx.doc (.ok s.table.doc))
  | fail (call : ℕ) (message : String) (tx : PutTx) (stage : PutStage) :
      s.calls call = .writing tx stage →
      Moves s (.fail call message) (s.answer call tx.doc (.error (.internal message)))

namespace Settings

variable {s next : Settings}

theorem exec_moves {call : ℕ} (hrun : s.exec call = some next) : s.Moves (.exec call) next := by
  unfold Settings.exec at hrun
  split at hrun
  next tx field rest hcall =>
    split at hrun
    next =>
      cases hrun
      exact .unknown call tx field rest _ hcall
    next =>
      split at hrun
      next hfree =>
        cases hrun
        exact .upsert call tx field rest hcall hfree
      next => cases hrun
  next tx hcall =>
    cases hrun
    exact .upserted call tx hcall
  next tx hcall =>
    cases hrun
    exact .addAudit call tx hcall
  next tx hcall =>
    dsimp only at hrun
    split at hrun
    next hfailed =>
      cases hrun
      exact .rollback call tx hcall hfailed
    next hok =>
      cases hrun
      exact .commit call tx hcall (by simpa using hok)
  next tx hcall =>
    cases hrun
    exact .select call tx hcall
  next => cases hrun

/-- A step moves its own call only. -/
theorem Moves.calls_other {step : SettingsStep} (hmove : s.Moves step next) {other : ℕ}
    (hne : other ≠ step.call) : next.calls other = s.calls other := by
  cases hmove <;> exact Function.update_of_ne hne _ _

end Settings

theorem SettingsStep.run_moves {s next : Settings} {step : SettingsStep}
    (hrun : step.run s = some next) : s.Moves step next := by
  cases step with
  | put call doc =>
      simp only [SettingsStep.run, Settings.put] at hrun
      split at hrun
      next hcall =>
        split at hrun <;> cases hrun
        · exact .empty call doc _ hcall
        · exact .start call doc hcall
      next => cases hrun
  | exec call => exact Settings.exec_moves hrun
  | auditFails call =>
      simp only [SettingsStep.run, Settings.auditFails] at hrun
      split at hrun
      next tx hcall =>
        cases hrun
        exact .auditFails call tx hcall
      next => cases hrun
  | fail call message =>
      simp only [SettingsStep.run, Settings.fail] at hrun
      split at hrun
      next tx stage hcall =>
        cases hrun
        exact .fail call message tx stage hcall
      next => cases hrun

/-! ## What the table holds -/

/-- The values a document asks for. -/
def SettingsDoc.asked (doc : SettingsDoc) : List (String × Option Json) :=
  doc.fields.map fun field => (field.1, some field.2)

/-- What the table holds under the document's keys. -/
def SettingsTable.held (table : SettingsTable) (doc : SettingsDoc) : List (String × Option Json) :=
  doc.fields.map fun field => (field.1, (table.get field.1).map SettingRow.value)

theorem SettingsTable.get_upsertAll_other (table : SettingsTable) {fields : List (String × Json)}
    {key : String} (hother : key ∉ fields.map Prod.fst) :
    (table.upsertAll fields).get key = table.get key := by
  induction fields generalizing table with
  | nil => rfl
  | cons field rest ih =>
      simp only [List.map_cons, List.mem_cons, not_or] at hother
      exact (ih _ hother.2).trans (table.get_insert_ne _ hother.1)

theorem SettingsTable.get_upsertAll (table : SettingsTable) {fields : List (String × Json)}
    (hnodup : (fields.map Prod.fst).Nodup) {field : String × Json} (hmem : field ∈ fields) :
    (table.upsertAll fields).get field.1 = some ⟨field.1, field.2⟩ := by
  induction fields generalizing table with
  | nil => cases hmem
  | cons first rest ih =>
      obtain ⟨hfirst, hrest⟩ := List.nodup_cons.mp hnodup
      rcases List.mem_cons.mp hmem with rfl | hmem
      · have hlater := SettingsTable.get_upsertAll_other
          (table.insert ⟨field.1, field.2⟩) hfirst
        exact hlater.trans (table.get_insert_self ⟨field.1, field.2⟩)
      · exact ih _ hrest hmem

/-- The fields a transaction has written when it is at a statement. -/
def PutTx.Written (tx : PutTx) : PutStage → Prop
  | .upsert rest => tx.written ++ rest = tx.doc.fields
  | _ => tx.written = tx.doc.fields

/-- A document that was written is held. -/
theorem SettingsTable.held_upsertAll (table : SettingsTable) (doc : SettingsDoc) :
    SettingsTable.held (table.upsertAll doc.fields) doc = doc.asked := by
  apply List.map_congr_left
  intro field hmem
  rw [SettingsTable.get_upsertAll table doc.nodup hmem]
  rfl

end GpuCluster.Mgmt
