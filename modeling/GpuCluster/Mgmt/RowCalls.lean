import GpuCluster.Mgmt.Catalog
import GpuCluster.Mgmt.KeyLifecycle
import GpuCluster.Mgmt.Nodes

/-! # Admin calls on one row

Each of these handlers runs one statement on the row of an id, answers from the
number of rows it changed, and logs the change. The revocation of a node does not
look at that number.
-/

namespace GpuCluster.Mgmt

open Foundation

/-! ## The calls -/

structure AdminTables where
  db : Database
  apiKeys : ApiKeyTable
  models : ModelTable

/-- A row, by its table and its id. -/
inductive RowName
  | node (id : String)
  | apiKey (id : String)
  | model (id : String)
  deriving DecidableEq

inductive RowCall
  | changeNode (change : StatusChange) (id : String)
  | revokeKey (id : String)
  | deleteKey (id : String) (purge : Bool)
  | deleteModel (id : String)
  deriving DecidableEq

/-- `models::delete` up to its audit entry. -/
def deleteModel (models : ModelTable) (id : String) : Except ApiError ModelTable :=
  match models.get id with
  | some _ => .ok (models.erase id)
  | none => .error .notFound

def okBody : Json := .object [("ok", .bool true)]

def purgedBody : Json := .object [("ok", .bool true), ("purged", .bool true)]

namespace AdminTables

def has (s : AdminTables) : RowName → Bool
  | .node id => (s.db.nodes.get id).isSome
  | .apiKey id => (s.apiKeys.get id).isSome
  | .model id => (s.models.get id).isSome

def logged (s : AdminTables) (entries : List AuditRow) : AdminTables :=
  { s with db := { s.db with auditLog := s.db.auditLog ++ entries } }

def revokeKey (s : AdminTables) (now : ℤ) (id : String) : Except ApiError (Json × AdminTables) :=
  (Mgmt.revokeKey s.apiKeys now id).map fun apiKeys =>
    (okBody, { s with apiKeys }.logged [keyAudit "API_KEY_REVOKED" id])

end AdminTables

namespace RowCall

/-- The answer, and the tables after it. All statements succeed. -/
def run (s : AdminTables) (now : ℤ) : RowCall → Except ApiError (Json × AdminTables)
  | .changeNode change id => (change.exec s.db id true).map fun db => (okBody, { s with db })
  | .revokeKey id => s.revokeKey now id
  | .deleteKey id true => (purgeKey s.apiKeys id).map fun apiKeys =>
      (purgedBody, { s with apiKeys }.logged [keyAudit "API_KEY_PURGED" id])
  | .deleteKey id false => s.revokeKey now id
  | .deleteModel id => (Mgmt.deleteModel s.models id).map fun models =>
      (okBody, { s with models }.logged [Catalog.deleteAudit id])

/-- The tables after a call. A refusal leaves them as they are. -/
def after (call : RowCall) (s : AdminTables) (now : ℤ) : AdminTables :=
  match call.run s now with
  | .ok (_, next) => next
  | .error _ => s

/-! ## What is promised -/

/-- The row a call is about. -/
def name : RowCall → RowName
  | .changeNode _ id => .node id
  | .revokeKey id | .deleteKey id _ => .apiKey id
  | .deleteModel id => .model id

/-- What a call logs. -/
def audit : RowCall → AuditRow
  | .changeNode change id => change.audit id
  | .revokeKey id | .deleteKey id false => keyAudit "API_KEY_REVOKED" id
  | .deleteKey id true => keyAudit "API_KEY_PURGED" id
  | .deleteModel id => Catalog.deleteAudit id

/-- One row was there in a state in which the call applies to it, and was changed or
removed as the call does. Of the rest only the log may differ. -/
def ChangesOne (s next : AdminTables) (now : ℤ) : RowCall → Prop
  | .changeNode change id => ∃ nodes auditLog,
      next = { s with db := { s.db with nodes, auditLog } } ∧
      s.db.nodes.Rewrites nodes id (fun row => change.applies row.status)
        fun row => some { row with status := change.target }
  | .revokeKey id | .deleteKey id false => ∃ apiKeys auditLog,
      next = { s with apiKeys, db := { s.db with auditLog } } ∧
      s.apiKeys.Rewrites apiKeys id (fun row => row.revokedAt = none)
        fun row => some { row with revokedAt := some now }
  | .deleteKey id true => ∃ apiKeys auditLog,
      next = { s with apiKeys, db := { s.db with auditLog } } ∧
      s.apiKeys.Rewrites apiKeys id (fun _ => True) fun _ => none
  | .deleteModel id => ∃ models auditLog,
      next = { s with models, db := { s.db with auditLog } } ∧
      s.models.Rewrites models id (fun _ => True) fun _ => none

/-- A call succeeds exactly if it changed its one row, and logs exactly that. -/
structure Lawful (call : RowCall) (s : AdminTables) (now : ℤ) : Prop where
  ok_iff : (call.run s now).isOk ↔ call.ChangesOne s (call.after s now) now
  logs : call.ChangesOne s (call.after s now) now →
    (call.after s now).db.auditLog = s.db.auditLog ++ [call.audit]
  silent : ¬call.ChangesOne s (call.after s now) now →
    (call.after s now).db.auditLog = s.db.auditLog

/-- The revocation of a node that is not there. -/
def Unchecked (s : AdminTables) (call : RowCall) : Prop :=
  ∃ id, call = .changeNode .revoke id ∧ s.db.nodes.get id = none

/-! ## What a call does -/

variable {call : RowCall} {s next : AdminTables} {now : ℤ}

/-- What changes a row finds it. -/
theorem ChangesOne.has (hone : call.ChangesOne s next now) : s.has call.name := by
  cases call with
  | changeNode | revokeKey | deleteModel =>
      obtain ⟨_, _, -, row, hget, -⟩ := hone
      exact Option.isSome_iff_exists.mpr ⟨row, hget⟩
  | deleteKey id purge =>
      cases purge <;>
      · obtain ⟨_, _, -, row, hget, -⟩ := hone
        exact Option.isSome_iff_exists.mpr ⟨row, hget⟩

/-- How a call can end. -/
inductive Outcome (call : RowCall) (s : AdminTables) (now : ℤ) :
    Except ApiError (Json × AdminTables) → Prop
  | changed (body : Json) (next : AdminTables) (hone : call.ChangesOne s next now)
      (hlog : next.db.auditLog = s.db.auditLog ++ [call.audit]) :
      call.Outcome s now (.ok (body, next))
  | refused (error : ApiError) (hnone : ∀ next, ¬call.ChangesOne s next now) :
      call.Outcome s now (.error error)
  | unchecked (hunchecked : call.Unchecked s) :
      call.Outcome s now (.ok (okBody, s.logged [call.audit]))

theorem changeNode_outcome (change : StatusChange) (id : String) (s : AdminTables) (now : ℤ) :
    (changeNode change id).Outcome s now ((changeNode change id).run s now) := by
  cases hrow : change.row s.db id with
  | some row =>
      obtain ⟨hget, happlies⟩ := Option.filter_eq_some_iff.mp hrow
      simp only [run, StatusChange.exec, hrow, Except.map]
      exact .changed _ _ ⟨_, _, rfl,
        .insert (fun row : NodeRow => { row with status := change.target }) hget happlies rfl⟩ rfl
  | none =>
      have hnone : ∀ next, ¬(changeNode change id).ChangesOne s next now := by
        rintro next ⟨_, _, -, row, hget, happlies, -⟩
        rw [StatusChange.row, hget, Option.filter_some, if_pos happlies] at hrow
        cases hrow
      cases change with
      | approve | drain =>
          simp only [run, StatusChange.exec, hrow, StatusChange.refusal, Except.map]
          exact .refused _ hnone
      | revoke =>
          have hget : s.db.nodes.get id = none := by
            by_contra hfound
            obtain ⟨row, hget⟩ := Option.ne_none_iff_exists'.mp hfound
            rw [StatusChange.row, hget, Option.filter_some] at hrow
            cases hrow
          simp only [run, StatusChange.exec, hrow, StatusChange.refusal, Except.map]
          exact .unchecked ⟨id, rfl, hget⟩

theorem revokeKey_outcome (id : String) (s : AdminTables) (now : ℤ) :
    (revokeKey id).Outcome s now ((revokeKey id).run s now) := by
  cases hrevoke : Mgmt.revokeKey s.apiKeys now id with
  | ok apiKeys =>
      obtain ⟨row, hget, hlive, rfl⟩ := revokeKey_ok hrevoke
      simp only [run, AdminTables.revokeKey, hrevoke, Except.map]
      exact .changed _ _ ⟨_, _, rfl,
        .insert (fun row : ApiKeyRow => { row with revokedAt := some now }) hget hlive rfl⟩ rfl
  | error error =>
      simp only [run, AdminTables.revokeKey, hrevoke, Except.map]
      refine .refused error ?_
      rintro next ⟨_, _, -, row, hget, hlive, -⟩
      rw [Mgmt.revokeKey, hget] at hrevoke
      simp only [hlive, if_true] at hrevoke
      cases hrevoke

/-- The soft deletion is a revocation. -/
theorem softDelete_outcome (id : String) (s : AdminTables) (now : ℤ) :
    (deleteKey id false).Outcome s now ((deleteKey id false).run s now) := by
  have hsame : (deleteKey id false).run s now = (revokeKey id).run s now := rfl
  have hrevoke := revokeKey_outcome id s now
  rw [hsame]
  generalize (revokeKey id).run s now = result at hrevoke
  cases hrevoke with
  | changed body next hone hlog => exact .changed body next hone hlog
  | refused error hnone => exact .refused error hnone
  | unchecked hunchecked =>
      obtain ⟨_, hcall, -⟩ := hunchecked
      cases hcall

theorem purgeKey_outcome (id : String) (s : AdminTables) (now : ℤ) :
    (deleteKey id true).Outcome s now ((deleteKey id true).run s now) := by
  cases hpurge : purgeKey s.apiKeys id with
  | ok apiKeys =>
      obtain ⟨hrow, rfl⟩ := purgeKey_ok hpurge
      simp only [run, hpurge, Except.map]
      exact .changed _ _ ⟨_, _, rfl, .erase hrow⟩ rfl
  | error error =>
      simp only [run, hpurge, Except.map]
      refine .refused error ?_
      rintro next ⟨_, _, -, row, hget, -⟩
      rw [purgeKey, hget] at hpurge
      cases hpurge

theorem deleteModel_outcome (id : String) (s : AdminTables) (now : ℤ) :
    (deleteModel id).Outcome s now ((deleteModel id).run s now) := by
  cases hget : s.models.get id with
  | some row =>
      simp only [run, Mgmt.deleteModel, hget, Except.map]
      exact .changed _ _ ⟨_, _, rfl, .erase (hget ▸ rfl)⟩ rfl
  | none =>
      simp only [run, Mgmt.deleteModel, hget, Except.map]
      refine .refused _ ?_
      rintro next ⟨_, _, -, row, hrow, -⟩
      cases hget.symm.trans hrow

theorem run_outcome (call : RowCall) (s : AdminTables) (now : ℤ) :
    call.Outcome s now (call.run s now) := by
  cases call with
  | changeNode change id => exact changeNode_outcome change id s now
  | revokeKey id => exact revokeKey_outcome id s now
  | deleteKey id purge =>
      cases purge with
      | false => exact softDelete_outcome id s now
      | true => exact purgeKey_outcome id s now
  | deleteModel id => exact deleteModel_outcome id s now

theorem after_ok {body : Json} (hrun : call.run s now = .ok (body, next)) :
    call.after s now = next := by
  rw [after, hrun]

/-- A refusal leaves the tables and the log as they are. -/
theorem after_error {error : ApiError} (hrun : call.run s now = .error error) :
    call.after s now = s := by
  rw [after, hrun]

theorem ChangesOne.checked (hone : call.ChangesOne s next now) : ¬call.Unchecked s := by
  rintro ⟨id, rfl, hnone⟩
  have hhas := hone.has
  rw [name, AdminTables.has, hnone] at hhas
  cases hhas

theorem Unchecked.run (hunchecked : call.Unchecked s) :
    call.run s now = .ok (okBody, s.logged [call.audit]) := by
  obtain ⟨id, rfl, hnone⟩ := hunchecked
  have hrow : StatusChange.revoke.row s.db id = none := by
    rw [StatusChange.row, hnone, Option.filter_none]
  simp only [RowCall.run, StatusChange.exec, hrow, StatusChange.refusal, Except.map]
  rfl

/-- Only the unchecked revocation breaks the rule: it succeeds without a row, and is logged
all the same. -/
theorem lawful_iff (call : RowCall) (s : AdminTables) (now : ℤ) :
    call.Lawful s now ↔ ¬call.Unchecked s := by
  constructor
  · intro hlawful hunchecked
    have hok : (call.run s now).isOk := by
      rw [hunchecked.run]
      rfl
    exact (hlawful.ok_iff.mp hok).checked hunchecked
  · intro hchecked
    have houtcome := call.run_outcome s now
    generalize hrun : call.run s now = result at houtcome
    cases houtcome with
    | changed body next hone hlog =>
        rw [← after_ok hrun] at hone hlog
        refine ⟨iff_of_true ?_ hone, fun _ => hlog, fun hnone => absurd hone hnone⟩
        rw [hrun]
        rfl
    | refused error hnone =>
        refine ⟨iff_of_false ?_ (hnone _), fun hone => absurd hone (hnone _), fun _ => ?_⟩
        · rw [hrun]
          exact Bool.false_ne_true
        · rw [after_error hrun]
    | unchecked hunchecked => exact absurd hunchecked hchecked

end RowCall

/-! ## The log over a run -/

/-- The row that an entry of these calls is about. Nothing else logs under their actions. -/
def AuditRow.rowName? (entry : AuditRow) : Option RowName :=
  if entry.action ∈ ["NODE_APPROVED", "NODE_REVOKED", "NODE_DRAIN_REQUESTED"] then
    some (.node entry.resource)
  else if entry.action ∈ ["API_KEY_REVOKED", "API_KEY_PURGED"] then some (.apiKey entry.resource)
  else if entry.action = "MODEL_DELETED" then some (.model entry.resource)
  else none

theorem RowCall.audit_rowName? (call : RowCall) : call.audit.rowName? = some call.name := by
  cases call with
  | changeNode change id =>
      cases change <;> simp [audit, StatusChange.audit, AuditRow.rowName?, name]
  | revokeKey id => simp [audit, keyAudit, AuditRow.rowName?, name]
  | deleteKey id purge => cases purge <;> simp [audit, keyAudit, AuditRow.rowName?, name]
  | deleteModel id => simp [audit, Catalog.deleteAudit, AuditRow.rowName?, name]

/-- The tables, and the rows that were there at some time, which no handler reads. -/
structure AdminRun where
  tables : AdminTables
  existed : RowName → Bool

inductive AdminStep
  | call (call : RowCall) (now : ℤ)
  /-- Another handler, with the tables after it and what it logs. -/
  | other (tables : AdminTables) (entries : List AuditRow)

namespace AdminRun

/-- Any tables, with nothing logged. -/
def initial (tables : AdminTables) : AdminRun where
  tables := { tables with db := { tables.db with auditLog := [] } }
  existed := tables.has

def become (s : AdminRun) (tables : AdminTables) : AdminRun where
  tables
  existed name := s.existed name || tables.has name

theorem become_existed (s : AdminRun) (tables : AdminTables) (name : RowName) :
    (s.become tables).existed name = (s.existed name || tables.has name) := rfl

def step (s : AdminRun) : AdminStep → Option AdminRun
  | .call call now => some (s.become (call.after s.tables now))
  | .other tables entries =>
      if entries.all (·.rowName?.isNone) then
        some (s.become { tables with
          db := { tables.db with auditLog := s.tables.db.auditLog ++ entries } })
      else none

end AdminRun

/-- The calls and whatever else the backend does, one after the other. -/
def adminCalls : Machine AdminRun AdminStep where
  init s := ∃ tables, s = .initial tables
  step := AdminRun.step

namespace AdminRun

/-- Every entry of these calls names a row that was there at some time. -/
def NamesExisting (s : AdminRun) : Prop :=
  ∀ entry ∈ s.tables.db.auditLog, ∀ name, entry.rowName? = some name → s.existed name

/-- A node that is revoked was there at some time. -/
def RevokesExisting (s : AdminRun) (step : AdminStep) : Prop :=
  ∀ id now, step = .call (.changeNode .revoke id) now → s.existed (.node id)

def Recorded (s : AdminRun) : Prop := ∀ name, s.tables.has name → s.existed name

variable {s next : AdminRun} {step : AdminStep}

theorem recorded_initial (tables : AdminTables) : (initial tables).Recorded := fun _ h => h

theorem recorded_become (s : AdminRun) (tables : AdminTables) : (s.become tables).Recorded :=
  fun _ hhas => Bool.or_eq_true_iff.mpr (.inr hhas)

theorem recorded_step (hstep : s.step step = some next) : next.Recorded := by
  cases step with
  | call call now =>
      cases hstep
      exact s.recorded_become _
  | other tables entries =>
      obtain ⟨-, ⟨⟩⟩ := Option.ite_none_right_eq_some.mp hstep
      exact s.recorded_become _

/-- What was named before stays named; the new entries decide. -/
theorem namesExisting_become_iff (hs : s.NamesExisting) {tables : AdminTables}
    {entries : List AuditRow} (hlog : tables.db.auditLog = s.tables.db.auditLog ++ entries) :
    (s.become tables).NamesExisting ↔
      ∀ entry ∈ entries, ∀ name, entry.rowName? = some name → (s.become tables).existed name := by
  rw [NamesExisting, become, hlog]
  constructor
  · intro hall entry hmem
    exact hall entry (List.mem_append_right _ hmem)
  · intro hnew entry hmem name hname
    rcases List.mem_append.mp hmem with hold | hmem
    · exact Bool.or_eq_true_iff.mpr (.inl (hs entry hold name hname))
    · exact hnew entry hmem name hname

theorem namesExisting_logged_iff (hs : s.NamesExisting) {tables : AdminTables} {call : RowCall}
    (hlog : tables.db.auditLog = s.tables.db.auditLog ++ [call.audit]) :
    (s.become tables).NamesExisting ↔ (s.become tables).existed call.name := by
  rw [namesExisting_become_iff hs hlog]
  constructor
  · intro hall
    exact hall call.audit List.mem_cons_self call.name call.audit_rowName?
  · intro hexisted entry hmem name hname
    obtain rfl := List.mem_singleton.mp hmem
    obtain rfl := Option.some.inj (call.audit_rowName?.symm.trans hname)
    exact hexisted

/-- The unchecked revocation logs what was not there, unless it was there before. -/
theorem namesExisting_unchecked_iff (hs : s.NamesExisting) {call : RowCall} {now : ℤ}
    (hunchecked : call.Unchecked s.tables) :
    (s.become (call.after s.tables now)).NamesExisting ↔
      s.RevokesExisting (.call call now) := by
  rw [RowCall.after_ok hunchecked.run, namesExisting_logged_iff hs rfl]
  obtain ⟨id, rfl, hnone⟩ := hunchecked
  have habsent :
      (s.tables.logged [(RowCall.changeNode .revoke id).audit]).has (.node id) = false := by
    rw [AdminTables.has, AdminTables.logged, hnone, Option.isSome_none]
  rw [become_existed, RowCall.name, habsent, Bool.or_false]
  constructor
  · rintro hexisted _ _ ⟨⟩
    exact hexisted
  · intro hrevokes
    exact hrevokes id now rfl

theorem namesExisting_call_iff (hrecorded : s.Recorded) (hs : s.NamesExisting) (call : RowCall)
    (now : ℤ) : (s.become (call.after s.tables now)).NamesExisting ↔
      s.RevokesExisting (.call call now) := by
  by_cases hunchecked : call.Unchecked s.tables
  · exact namesExisting_unchecked_iff hs hunchecked
  · have hlawful := (call.lawful_iff s.tables now).mpr hunchecked
    refine iff_of_true ?_ ?_
    · by_cases hone : call.ChangesOne s.tables (call.after s.tables now) now
      · rw [namesExisting_logged_iff hs (hlawful.logs hone)]
        exact Bool.or_eq_true_iff.mpr (.inl (hrecorded _ hone.has))
      · have hlog := (hlawful.silent hone).trans (List.append_nil _).symm
        exact (namesExisting_become_iff hs hlog).mpr fun _ hmem => by cases hmem
    · rintro id _ ⟨⟩
      refine hrecorded _ (Option.isSome_iff_ne_none.mpr fun hnone => ?_)
      exact hunchecked ⟨id, rfl, hnone⟩

theorem namesExisting_step_iff (hrecorded : s.Recorded) (hs : s.NamesExisting)
    (hstep : s.step step = some next) : next.NamesExisting ↔ s.RevokesExisting step := by
  cases step with
  | call call now =>
      cases hstep
      exact namesExisting_call_iff hrecorded hs call now
  | other tables entries =>
      obtain ⟨hother, ⟨⟩⟩ := Option.ite_none_right_eq_some.mp hstep
      refine iff_of_true ((namesExisting_become_iff hs rfl).mpr ?_) ?_
      · intro entry hmem name hname
        have hnone := List.all_eq_true.mp hother entry hmem
        rw [hname] at hnone
        cases hnone
      · rintro _ _ ⟨⟩

end AdminRun

/-- A call on one row succeeds exactly if it changed its row, and logs exactly that, unless it
revokes a node that is not there; so in a run the log of these calls names what existed
exactly as long as no other node is revoked. -/
theorem rowCalls_lawful_iff (call : RowCall) (s : AdminTables) (now : ℤ) (tables : AdminTables)
    (steps : List AdminStep) :
    (call.Lawful s now ↔ ¬call.Unchecked s) ∧
    (adminCalls.Throughout AdminRun.NamesExisting (.initial tables) steps ↔
      adminCalls.Meets AdminRun.RevokesExisting (.initial tables) steps) := by
  refine ⟨call.lawful_iff s now, Machine.throughout_iff_meets (M := adminCalls) ?_ ?_
    (AdminRun.recorded_initial tables) (fun _ hmem => by cases hmem) steps⟩
  · intro s step next _ hstep
    exact AdminRun.recorded_step hstep
  · intro s step next hrecorded hs hstep
    exact AdminRun.namesExisting_step_iff hrecorded hs hstep

/-- No rows, and nothing logged. -/
def AdminTables.empty : AdminTables := ⟨⟨.empty, .empty, [], []⟩, .empty, .empty⟩

/-- The revocation of a node that never was. -/
theorem revokeAbsent_unlawful :
    (let call := RowCall.changeNode .revoke "019a2b3c-4d5e-7f60-8123-456789abcdef"
    call.run .empty 0 = .ok (okBody, AdminTables.empty.logged [call.audit]) ∧
      ¬call.Lawful .empty 0 ∧
      ¬adminCalls.Throughout AdminRun.NamesExisting (.initial .empty) [.call call 0]) := by
  intro call
  have hunchecked : call.Unchecked .empty := ⟨_, rfl, KeyedMap.get_empty _⟩
  refine ⟨hunchecked.run, ?_, ?_⟩
  · rw [RowCall.lawful_iff]
    exact not_not_intro hunchecked
  · rintro ⟨-, hlater⟩
    have hnamed := hlater _ rfl call.audit List.mem_cons_self call.name call.audit_rowName?
    cases hnamed

end GpuCluster.Mgmt
