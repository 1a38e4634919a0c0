import GpuCluster.Coordinator.Server
import GpuCluster.Mgmt.Models

/-! # The reconciler's decisions

A pass reads the coordinator's listing and the rows that are neither disabled
nor in error, decides a node and a status for each row, and writes the rows
whose decision differs from what it read. `reconcileOnce` is a pass that runs
without interruption at one clock reading.
-/

namespace GpuCluster.Mgmt

open Common Foundation

def stuckThreshold : ℤ := seconds 300

/-- The columns a pass reads. -/
structure ReconcileRow where
  id : String
  status : String
  loadedOnNode : String
  updatedAt : ℤ
  deriving DecidableEq

def ModelRow.read (row : ModelRow) : ReconcileRow :=
  ⟨row.id, row.status, row.loadedOnNode, row.updatedAt⟩

/-- `WHERE status NOT IN ('disabled', 'error')`. -/
def reconciles (status : String) : Bool := status != "disabled" && status != "error"

/-- The rows of a pass. -/
def reconcileRows (models : ModelTable) : List ReconcileRow :=
  (models.list.filter (reconciles ·.status)).map ModelRow.read

/-! ## The view -/

/-- The model and the node of a listed worker that serves one. -/
def serving (node : Json) : Option (String × String) :=
  let nodeId := (node.str? "node_id").getD ""
  let model := (node.str? "current_model").getD ""
  if nodeId = "" ∨ model = "" then none else some (model, nodeId)

/-- Which node serves which model; the first node listed wins. -/
def loadedOn (body : Json) (model : String) : Option String :=
  ((Coordinator.nodesOf body).filterMap serving).lookup model

/-! ## One row -/

def inFlight (status : String) : Bool := status == "downloading" || status == "loading"

def isStuck (since now : ℤ) : Bool := stuckThreshold < now - since

/-- A node and a status. -/
structure Decision where
  loadedOnNode : String
  status : String
  deriving DecidableEq

def ReconcileRow.current (row : ReconcileRow) : Decision := ⟨row.loadedOnNode, row.status⟩

theorem ModelRow.current_read (row : ModelRow) (node status : String) :
    row.read.current = ⟨node, status⟩ ↔ row.status = status ∧ row.loadedOnNode = node := by
  simp only [ReconcileRow.current, ModelRow.read, Decision.mk.injEq, and_comm]

def ReconcileRow.decide (row : ReconcileRow) (observed : Option String) (now : ℤ) : Decision :=
  match observed, inFlight row.status with
  | some node, true => ⟨node, "available"⟩
  | some node, false => ⟨node, row.status⟩
  | none, true => if isStuck row.updatedAt now then ⟨"", "error"⟩ else row.current
  | none, false => ⟨"", row.status⟩

/-- A row is left available on a node exactly when that node was seen serving it
and the row was available or in flight. -/
theorem ReconcileRow.decide_available (row : ReconcileRow) (observed : Option String) (now : ℤ)
    (node : String) (hnode : node ≠ "") :
    row.decide observed now = ⟨node, "available"⟩ ↔
      observed = some node ∧ row.status ∈ ["available", "downloading", "loading"] := by
  have hstatus : row.status ∈ ["available", "downloading", "loading"] ↔
      row.status = "available" ∨ inFlight row.status = true := by
    simp [inFlight]
  rw [hstatus]
  cases observed with
  | none =>
      cases hflight : inFlight row.status with
      | false => simp [decide, hflight, Ne.symm hnode]
      | true =>
          have hne : row.status ≠ "available" := by
            intro h
            rw [h] at hflight
            exact absurd hflight (by decide)
          simp only [decide, hflight]
          split <;> simp [current, hne]
  | some seen =>
      cases hflight : inFlight row.status <;> simp [decide, hflight]

/-- The statement's `SET`. -/
def Decision.set (decision : Decision) (now : ℤ) (row : ModelRow) : ModelRow :=
  { row with
    loadedOnNode := decision.loadedOnNode
    status := decision.status
    updatedAt := now }

@[simp] theorem Decision.set_id (decision : Decision) (now : ℤ) (row : ModelRow) :
    (decision.set now row).id = row.id := rfl

def reconcileAudit (row : ReconcileRow) (decision : Decision) : AuditRow where
  actor := "reconciler"
  action := "MODEL_RECONCILED"
  resource := row.id
  details := some (.object
    [("previous_node", .string row.loadedOnNode), ("current_node", .string decision.loadedOnNode),
      ("previous_status", .string row.status), ("current_status", .string decision.status)])

/-! ## One pass -/

/-- The tables a pass writes. -/
structure ModelTables where
  models : ModelTable
  auditLog : List AuditRow

/-- What the pass makes of a row whose read columns are given. -/
def ReconcileRow.write (row : ReconcileRow) (body : Json) (now : ℤ) (stored : ModelRow) :
    ModelRow :=
  let decision := row.decide (loadedOn body row.id) now
  if decision = row.current then stored else decision.set now stored

/-- One row of an uninterrupted pass. -/
def reconcileRow (body : Json) (now : ℤ) (tables : ModelTables) (row : ReconcileRow) :
    ModelTables :=
  let decision := row.decide (loadedOn body row.id) now
  if decision = row.current then tables
  else ⟨tables.models.modify row.id (decision.set now),
    tables.auditLog ++ [reconcileAudit row decision]⟩

def reconcileOnce (body : Json) (now : ℤ) (tables : ModelTables) : ModelTables :=
  (reconcileRows tables.models).foldl (reconcileRow body now) tables

/-! ## What one pass does to a row -/

theorem reconcileRows_nodup (models : ModelTable) :
    ((reconcileRows models).map ReconcileRow.id).Nodup := by
  rw [reconcileRows, List.map_map]
  exact (List.filter_sublist.map _).nodup models.list_nodup

theorem mem_reconcileRows {models : ModelTable} {row : ReconcileRow} :
    row ∈ reconcileRows models ↔
      ∃ stored, models.get row.id = some stored ∧ stored.read = row ∧ reconciles row.status := by
  simp only [reconcileRows, List.mem_map, List.mem_filter]
  constructor
  · rintro ⟨stored, ⟨hmem, hstatus⟩, rfl⟩
    exact ⟨stored, KeyedMap.mem_list.mp hmem, rfl, hstatus⟩
  · rintro ⟨stored, hget, rfl, hstatus⟩
    exact ⟨stored, ⟨KeyedMap.mem_list.mpr hget, hstatus⟩, rfl⟩

variable {body : Json} {now : ℤ}

theorem reconcileRow_get (tables : ModelTables) (row : ReconcileRow) (id : String) :
    (reconcileRow body now tables row).models.get id =
      if id = row.id then (tables.models.get id).map (row.write body now)
      else tables.models.get id := by
  unfold reconcileRow
  dsimp only
  split
  next hkeep =>
    have hwrite : row.write body now = fun stored => stored := funext fun _ => if_pos hkeep
    rw [hwrite, Option.map_id', ite_self]
  next hchange =>
    have hwrite : row.write body now = (row.decide (loadedOn body row.id) now).set now :=
      funext fun _ => if_neg hchange
    rw [KeyedMap.get_modify _ _ (Decision.set_id _ now), hwrite]
    split
    next hid => rw [hid]
    next => rfl

/-- The pass writes a row once, when it comes to it. -/
theorem foldl_reconcileRow_get {rows : List ReconcileRow}
    (hnodup : (rows.map ReconcileRow.id).Nodup) (tables : ModelTables) (id : String) :
    (rows.foldl (reconcileRow body now) tables).models.get id =
      (rows.find? (·.id = id)).elim (tables.models.get id) fun row =>
        (tables.models.get id).map (row.write body now) := by
  induction rows generalizing tables with
  | nil => rfl
  | cons row rest ih =>
      obtain ⟨hnot, hrest⟩ := List.nodup_cons.mp hnodup
      rw [List.foldl_cons, ih hrest, reconcileRow_get, List.find?_cons]
      by_cases hid : row.id = id
      -- no later row of the pass has this id
      · have hnone : rest.find? (·.id = id) = none := by
          simp only [List.find?_eq_none, decide_eq_true_eq]
          rintro other hmem rfl
          exact hnot (hid ▸ List.mem_map_of_mem hmem)
        simp [hid, hnone]
      · simp [hid, Ne.symm hid]

/-- The columns a written row ends with are the decision's. -/
theorem ReconcileRow.write_current (stored : ModelRow) :
    (stored.read.write body now stored).read.current =
      stored.read.decide (loadedOn body stored.id) now := by
  unfold ReconcileRow.write
  dsimp only
  split
  next hkeep => exact hkeep.symm
  next => rfl

/-- Rows that are disabled or in error stay; every other row gets its decision. -/
theorem reconcileOnce_get (tables : ModelTables) (id : String) :
    (reconcileOnce body now tables).models.get id = (tables.models.get id).map fun row =>
      if reconciles row.status then row.read.write body now row else row := by
  rw [reconcileOnce, foldl_reconcileRow_get (reconcileRows_nodup _)]
  cases hfind : (reconcileRows tables.models).find? (·.id = id) with
  | none =>
      cases hget : tables.models.get id with
      | none => rfl
      | some row =>
          -- the row is not among those the pass read
          have hskip : reconciles row.status = false := by
            by_contra hstatus
            have hid : row.id = id := KeyedMap.key_of_get hget
            subst hid
            have hmem : row.read ∈ reconcileRows tables.models :=
              mem_reconcileRows.mpr ⟨row, hget, rfl, (Bool.not_eq_false _).mp hstatus⟩
            exact List.find?_eq_none.mp hfind row.read hmem (decide_eq_true rfl)
          simp [hskip]
  | some row =>
      have hid : row.id = id := by simpa using List.find?_some hfind
      obtain ⟨stored, hget, hread, hstatus⟩ :=
        mem_reconcileRows.mp (List.mem_of_find?_eq_some hfind)
      rw [hid] at hget
      subst hread
      have hstored : reconciles stored.status = true := hstatus
      simp [hget, hstored]

end GpuCluster.Mgmt
