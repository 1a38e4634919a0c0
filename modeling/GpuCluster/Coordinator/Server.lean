import GpuCluster.Common.Nodes
import GpuCluster.Coordinator.Registry
import GpuCluster.Sysinfo.Inventory

/-! # The coordinator's request handlers

`reportNode` decodes a worker's inventory, runs the duplicate guard and stores
the entry; `register` stores one without either. `listNodes` and
`eligibleNodes` publish the registry. A handler takes the clock reading it
makes as an argument.
-/

namespace GpuCluster.Coordinator

open Common Foundation Proto Sysinfo

/-- llama.cpp's RPC port on every worker. -/
def workerRpcPort : UInt32 := 50052

/-! ## Reports -/

/-- A decoded report, with the arguments `upsert` gets. -/
structure Report where
  info : NodeInfo
  publicIp : Option String
  inferenceEndpoint : Option String
  controlEndpoint : Option String
  currentModel : Option String
  deriving DecidableEq

inductive ReportError
  | invalidPayload
  | missingNodeId
  | duplicateHwFingerprint (existing hwFingerprint : String)
  deriving DecidableEq

/-- HTTP status and body of a refusal. `serdeMessage` is the decoder's own text. -/
def ReportError.response (serdeMessage : String) : ReportError → Nat × Json
  | .invalidPayload => (400, .object
      [("error", .string "invalid_payload"), ("message", .string serdeMessage)])
  | .missingNodeId => (400, .object [("error", .string "missing_node_id")])
  | .duplicateHwFingerprint existing hwFingerprint => (409, .object
      [("error", .string "duplicate_hw_fingerprint"),
        ("message", .string ("another worker on this hardware is already active as node " ++
          existing ++ ". Stop the other worker (or wait ~60 s for its heartbeat to expire) " ++
          "before re-registering with a new node_id.")),
        ("active_node_id", .string existing),
        ("hw_fingerprint", .string hwFingerprint)])

/-- A sidecar field, with the empty string read as absent. -/
def nonEmpty (field : Option String) : Option String := field.filter (· ≠ "")

/-- The part of `report_node` before the duplicate guard. -/
def decodeReport (peer : String) (body : Json) : Except ReportError Report :=
  match NodeInfoView.decode body with
  | none => .error .invalidPayload
  | some view =>
      let info := view.toPb
      if info.nodeId = "" then .error .missingNodeId
      else .ok {
        info := info
        publicIp := some peer
        inferenceEndpoint := nonEmpty view.inferenceEndpoint
        controlEndpoint := nonEmpty view.controlEndpoint
        currentModel := nonEmpty view.currentModel }

/-- A decoded view with a node id passes. -/
theorem decodeReport_of_view (peer : String) {body : Json} {view : NodeInfoView}
    (hview : NodeInfoView.decode body = some view) (hid : view.toPb.nodeId ≠ "") :
    decodeReport peer body = .ok {
      info := view.toPb
      publicIp := some peer
      inferenceEndpoint := nonEmpty view.inferenceEndpoint
      controlEndpoint := nonEmpty view.controlEndpoint
      currentModel := nonEmpty view.currentModel } := by
  simp only [decodeReport, hview, if_neg hid]

/-- Both freshness windows of the coordinator. -/
def stale : ℤ := seconds 60

/-- The duplicate guard. -/
def checkDuplicate (reg : Registry) (now : ℤ) (report : Report) : Except ReportError Unit :=
  match reg.findActiveWithHwFingerprint now report.info.hwFingerprint report.info.nodeId stale with
  | some existing => .error (.duplicateHwFingerprint existing report.info.hwFingerprint)
  | none => .ok ()

/-- The entry an accepted report is stored as. -/
def Report.entry (report : Report) (now : ℤ) : NodeEntry :=
  .make now report.info report.publicIp report.inferenceEndpoint report.controlEndpoint
    report.currentModel

/-- `report_node`, run without interruption at one clock reading. -/
def reportNode (reg : Registry) (now : ℤ) (peer : String) (body : Json) :
    Except ReportError (Registry × String) := do
  let report ← decodeReport peer body
  checkDuplicate reg now report
  return (reg.upsert now report.info report.publicIp report.inferenceEndpoint
    report.controlEndpoint report.currentModel, report.info.nodeId)

theorem reportNode_of_error {reg : Registry} {now : ℤ} {peer : String} {body : Json}
    {refusal : ReportError} (hdecode : decodeReport peer body = .error refusal) :
    reportNode reg now peer body = .error refusal := by
  rw [reportNode, hdecode]
  rfl

/-- A well-formed report is answered by the duplicate guard alone. -/
theorem reportNode_of_decode {reg : Registry} {now : ℤ} {peer : String} {body : Json}
    {report : Report} (hdecode : decodeReport peer body = .ok report) :
    reportNode reg now peer body =
      match reg.findActiveWithHwFingerprint now report.info.hwFingerprint report.info.nodeId
        stale with
      | some existing => .error (.duplicateHwFingerprint existing report.info.hwFingerprint)
      | none => .ok (reg.insert (report.entry now), report.info.nodeId) := by
  simp only [reportNode, hdecode, checkDuplicate, bind, Except.bind]
  cases reg.findActiveWithHwFingerprint now report.info.hwFingerprint report.info.nodeId stale <;>
    rfl

/-- The least a worker can post: an id, a fingerprint and a loaded model. -/
def bareBody (nodeId hwFingerprint : String) (currentModel : Option String) : Json := .object
  [("node_id", .string nodeId), ("hw_fingerprint", .string hwFingerprint),
    ("current_model", .ofOption Json.string currentModel)]

def bareReport (peer nodeId hwFingerprint : String) (currentModel : Option String) : Report where
  info := { nodeId, hwFingerprint, status := NodeStatus.online.toI32 }
  publicIp := some peer
  inferenceEndpoint := none
  controlEndpoint := none
  currentModel := nonEmpty currentModel

/-- Every field a report leaves out takes its default. -/
theorem decodeReport_bare (peer : String) {nodeId : String} (hid : nodeId ≠ "")
    (hwFingerprint : String) (currentModel : Option String) :
    decodeReport peer (bareBody nodeId hwFingerprint currentModel) =
      .ok (bareReport peer nodeId hwFingerprint currentModel) := by
  have hview : NodeInfoView.decode (bareBody nodeId hwFingerprint currentModel) = some
      { nodeId, hostname := "", displayName := "", hwFingerprint, agentVersion := "",
        tags := [], status := none, os := none, cpuMem := none, network := none, gpus := [],
        inferenceEndpoint := none, controlEndpoint := none, currentModel } := by
    cases currentModel <;> rfl
  exact decodeReport_of_view peer hview hid

/-! ## gRPC registration -/

structure RegisterRequest where
  nodeId : String
  info : Option NodeInfo
  deriving DecidableEq

/-- The message `register` stores: the request's, under the request's id or a
fresh one. `none` is the refusal `info required`. -/
def RegisterRequest.stored (req : RegisterRequest) (freshId : String) : Option NodeInfo :=
  req.info.map fun info => { info with nodeId := if req.nodeId = "" then freshId else req.nodeId }

/-- The entry a registration is stored as: no address and no sidecars. -/
def registerEntry (now : ℤ) (info : NodeInfo) : NodeEntry :=
  .make now info none none none none

def register (reg : Registry) (now : ℤ) (freshId : String) (req : RegisterRequest) :
    Except String (Registry × String) :=
  match req.stored freshId with
  | none => .error "info required"
  | some info => .ok (reg.upsert now info none none none none, info.nodeId)

/-! ## The watchdog -/

/-- The watchdog's test, at the clock reading of its tick. -/
def NodeEntry.isStale (entry : NodeEntry) (now : ℤ) : Bool :=
  stale < now - entry.lastHeartbeat

/-- The entry the watchdog stores for a stale one: a copy marked offline, with
a new heartbeat time. -/
def offlineEntry (now : ℤ) (entry : NodeEntry) : NodeEntry :=
  .make now { entry.info with status := NodeStatus.offline.toI32 } entry.currentPublicIp
    entry.inferenceEndpoint entry.controlEndpoint entry.currentModel

/-- One tick of the watchdog, run without interruption at one clock reading. -/
def watchdogTick (reg : Registry) (now : ℤ) : Registry :=
  (reg.list.filter (·.isStale now)).foldl (fun reg entry => reg.insert (offlineEntry now entry)) reg

/-! ## Published views -/

/-- Statuses that take a node out of dispatch. -/
def inDispatch : NodeStatus → Bool
  | .revoked | .quarantined | .draining | .offline => false
  | _ => true

/-- The filter of `eligible_nodes`. -/
def NodeEntry.isEligible (entry : NodeEntry) (now : ℤ) : Bool :=
  now - entry.lastHeartbeat < stale && !entry.info.gpus.isEmpty &&
    inDispatch (.ofI32 entry.info.status)

/-- The address the dispatcher uses: the mesh's, else the observed one. -/
def NodeEntry.dispatchIp (entry : NodeEntry) : Option String :=
  (nonEmpty (entry.info.network.map NetworkInfo.wgIp)).or entry.currentPublicIp

/-- A port-only endpoint is paired with the dispatch address. -/
def NodeEntry.inferenceUrl (entry : NodeEntry) : Option String :=
  match entry.inferenceEndpoint with
  | none => none
  | some ep =>
      if ep.toList.head? = some ':' then entry.dispatchIp.map fun ip => "http://" ++ ip ++ ep
      else some ("http://" ++ ep)

def eligibleGpuJson (gpu : GpuInfo) : Json := .object
  [("name", .string gpu.name),
    ("backend", .ofOption Json.string ((GpuBackend.tryFrom gpu.backend).map fun
      | .cuda => "cuda"
      | .metal => "metal"
      | .rocm => "rocm"
      | .vulkan => "vulkan"
      | .unspecified => "unspecified")),
    ("architecture", .string gpu.architecture),
    ("vram_total", .ofU64 gpu.vramTotalBytes),
    ("vram_free", .ofU64 gpu.vramFreeBytes),
    ("core_count", .ofU32 gpu.gpuCoreCount)]

/-- The slim view of one node. -/
def eligibleJson (entry : NodeEntry) : Json := .object
  [("node_id", .string entry.info.nodeId),
    ("device_name", .ofOption Json.string (entry.info.os.map OsInfo.deviceName)),
    ("wg_ip", .ofOption Json.string (entry.info.network.map NetworkInfo.wgIp)),
    ("public_ip", .ofOption Json.string entry.currentPublicIp),
    ("rpc_port", .ofU32 workerRpcPort),
    ("inference_url", .ofOption Json.string entry.inferenceUrl),
    ("gpu", .ofOption eligibleGpuJson entry.info.gpus.head?)]

/-- Count and nodes of a published list. -/
def nodesJson (nodes : List Json) : Json := .object
  [("count", .ofU64 (.ofNat nodes.length)), ("nodes", .array nodes)]

/-- The rows of a published list, as its readers take them. -/
def nodesOf (body : Json) : List Json := ((body.get? "nodes").bind Json.asArray?).getD []

@[simp] theorem nodesOf_nodesJson (nodes : List Json) : nodesOf (nodesJson nodes) = nodes := rfl

def eligibleEntries (reg : Registry) (now : ℤ) : List NodeEntry :=
  reg.list.filter (·.isEligible now)

def eligibleNodes (reg : Registry) (now : ℤ) : Json :=
  nodesJson ((eligibleEntries reg now).map eligibleJson)

/-- The dashboard's label of a status. -/
def statusLabel (status : Int32) : String :=
  match NodeStatus.ofI32 status with
  | .unspecified => "unspecified"
  | .pendingApproval => "pending_approval"
  | .online => "online"
  | .degraded => "degraded"
  | .draining => "draining"
  | .offline => "offline"
  | .quarantined => "quarantined"
  | .revoked => "revoked"

/-- The listing labels a status as the inventory it decorates does. -/
theorem statusLabel_eq (status : Int32) : statusLabel status = Sysinfo.statusLabel status := rfl

/-- One row of `list_nodes`: the inventory decorated with the coordinator's own
state. `toRfc3339` is the clock library's rendering of an instant. -/
def listedJson (toRfc3339 : ℤ → String) (entry : NodeEntry) : Json :=
  toJson entry.info
    |>.insert "last_heartbeat" (.string (toRfc3339 entry.lastHeartbeat))
    |>.insert "current_public_ip" (.ofOption Json.string entry.currentPublicIp)
    |>.insert "status" (.string (statusLabel entry.info.status))
    |>.insert "status_code" (.ofI32 entry.info.status)
    |>.insert "id" (.string entry.info.nodeId)
    |>.insert "current_model" (.ofOption Json.string entry.currentModel)
    |>.insert "control_endpoint" (.ofOption Json.string entry.controlEndpoint)

def listNodes (toRfc3339 : ℤ → String) (reg : Registry) : Json :=
  nodesJson (reg.list.map (listedJson toRfc3339))

end GpuCluster.Coordinator
