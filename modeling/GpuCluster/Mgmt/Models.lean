import GpuCluster.Common.Clock
import GpuCluster.Foundation.Text
import GpuCluster.Mgmt.ApiError
import GpuCluster.Mgmt.Database

/-! # The model registry's rows and requests

What the handlers of `/api/v1/models` check and compute before and between
their statements: the row a creation inserts, the columns an update replaces,
and the request a load forwards. Statements and their order are in `Catalog`.
-/

namespace GpuCluster.Mgmt

open Common Foundation

/-- A row of `models`. -/
structure ModelRow where
  id : String
  displayName : String
  description : String
  status : String
  isDefault : Bool
  hfRepo : String
  hfFile : String
  localFilename : String
  loadedOnNode : String
  createdAt : ℤ
  updatedAt : ℤ
  deriving DecidableEq

/-- The table, by its primary key. -/
abbrev ModelTable := KeyedMap ModelRow.id

def ModelRow.json (toRfc3339 : ℤ → String) (row : ModelRow) : Json := .object
  [("id", .string row.id), ("display_name", .string row.displayName),
    ("description", .string row.description), ("status", .string row.status),
    ("is_default", .bool row.isDefault), ("hf_repo", .string row.hfRepo),
    ("hf_file", .string row.hfFile), ("local_filename", .string row.localFilename),
    ("loaded_on_node", .string row.loadedOnNode),
    ("created_at", .string (toRfc3339 row.createdAt)),
    ("updated_at", .string (toRfc3339 row.updatedAt))]

/-- The statuses a request may ask for. -/
def validateStatus (status : String) : Except ApiError Unit :=
  if status ∈ ["available", "loading", "downloading", "disabled", "error"] then .ok ()
  else .error (.badRequest
    "status must be one of: available, loading, downloading, disabled, error")

/-! ## Creation -/

structure CreateRequest where
  id : String
  displayName : Option String
  description : Option String
  status : Option String
  isDefault : Bool
  hfRepo : Option String
  hfFile : Option String
  localFilename : Option String

/-- The row of a valid request. The columns its statement leaves out take the
table's defaults; `now` is the start of the transaction. -/
def CreateRequest.toRow (req : CreateRequest) (now : ℤ) : Except ApiError ModelRow := do
  let id := trim req.id
  if id = "" then throw (.badRequest "id must not be empty")
  let status := req.status.getD "available"
  validateStatus status
  let hfRepo := req.hfRepo.getD ""
  let hfFile := req.hfFile.getD ""
  if hfRepo ≠ "" ∧ hfFile = "" then
    throw (.badRequest "hf_file is required when hf_repo is set")
  return {
    id, status, hfRepo, hfFile
    displayName := req.displayName.getD ""
    description := req.description.getD ""
    isDefault := req.isDefault
    localFilename := (req.localFilename.filter (· ≠ "")).getD hfFile
    loadedOnNode := ""
    createdAt := now
    updatedAt := now }

/-! ## Update -/

structure UpdateRequest where
  displayName : Option String
  description : Option String
  status : Option String
  isDefault : Option Bool
  hfRepo : Option String
  hfFile : Option String
  localFilename : Option String

def UpdateRequest.validate (req : UpdateRequest) : Except ApiError Unit :=
  match req.status with
  | some status => validateStatus status
  | none => .ok ()

/-- The statement's `SET`: a column the request leaves out keeps its value. -/
def UpdateRequest.set (req : UpdateRequest) (now : ℤ) (row : ModelRow) : ModelRow :=
  { row with
    displayName := req.displayName.getD row.displayName
    description := req.description.getD row.description
    status := req.status.getD row.status
    isDefault := req.isDefault.getD row.isDefault
    hfRepo := req.hfRepo.getD row.hfRepo
    hfFile := req.hfFile.getD row.hfFile
    localFilename := req.localFilename.getD row.localFilename
    updatedAt := now }

@[simp] theorem UpdateRequest.set_id (req : UpdateRequest) (now : ℤ) (row : ModelRow) :
    (req.set now row).id = row.id := rfl

/-- `SET is_default = FALSE`. -/
def ModelRow.clearDefault (row : ModelRow) : ModelRow := { row with isDefault := false }

@[simp] theorem ModelRow.clearDefault_id (row : ModelRow) : row.clearDefault.id = row.id := rfl

/-! ## Load -/

structure LoadQuery where
  nodeId : String
  multiNode : Bool

/-- The optimistic `SET` of a load that was accepted. -/
def LoadQuery.set (query : LoadQuery) (now : ℤ) (row : ModelRow) : ModelRow :=
  { row with status := "downloading", loadedOnNode := query.nodeId, updatedAt := now }

@[simp] theorem LoadQuery.set_id (query : LoadQuery) (now : ℤ) (row : ModelRow) :
    (query.set now row).id = row.id := rfl

/-- The address of another node's RPC server. -/
def peerOf (self : String) (node : Json) : Option String :=
  let host := (((node.str? "wg_ip").filter (· ≠ "")).or (node.str? "public_ip")).getD ""
  let port := ((node.get? "rpc_port").bind Decoder.u64).getD 50052
  if (node.str? "node_id").getD "" = self ∨ host = "" then none
  else some (host ++ ":" ++ toString port)

/-- The peers of a multi-node load. `eligible` is the coordinator's answer,
`none` when it gave none. -/
def loadPeers (query : LoadQuery) (eligible : Option Json) : List String :=
  if query.multiNode then
    (((eligible.bind (·.get? "nodes")).bind Json.asArray?).getD []).filterMap (peerOf query.nodeId)
  else []

/-- The request a load forwards to the coordinator for the row it read. `token`
is the stored setting. -/
def loadBody (row : ModelRow) (query : LoadQuery) (token eligible : Option Json) :
    Except ApiError Json :=
  if row.hfRepo = "" ∨ row.hfFile = "" then
    .error (.badRequest "model has no hf_repo/hf_file — set them before calling load")
  else if query.nodeId.toList.all fun c => c.isAlphanum || c = '-' then
    .ok (.object
      [("model_id", .string row.id), ("hf_repo", .string row.hfRepo),
        ("hf_file", .string row.hfFile),
        ("hf_token", .string ((token.bind Json.asStr?).getD "")),
        ("local_filename",
          .string (if row.localFilename = "" then row.hfFile else row.localFilename)),
        ("peers", .ofStrings (loadPeers query eligible))])
  else .error (.badRequest "node_id must be a UUID")

/-! ## Answers -/

inductive ModelAnswer
  | row (stored : ModelRow)
  | deleted
  | loadRequested (id nodeId : String)

def ModelAnswer.body (toRfc3339 : ℤ → String) : ModelAnswer → Json
  | .row stored => stored.json toRfc3339
  | .deleted => .object [("ok", .bool true)]
  | .loadRequested id nodeId => .object
      [("ok", .bool true), ("model_id", .string id), ("node_id", .string nodeId),
        ("status", .string "downloading")]

end GpuCluster.Mgmt
