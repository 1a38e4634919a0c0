import GpuCluster.Common.RoundTrip

/-! # The worker's heartbeat

What a worker posts to `/nodes/report`: the rendered inventory, with three
sidecar keys taken from a snapshot of the supervisor.
-/

namespace GpuCluster.Worker

open Common Foundation Proto Sysinfo

/-- The supervisor of the local inference server. `child` is the process id of
the server it owns. -/
structure Supervisor where
  port : UInt16
  child : Option Nat
  modelPath : Option String
  modelId : Option String
  deriving DecidableEq

/-- The advertised inference endpoint, given `INFERENCE_ADVERTISED_HOST`. -/
def Supervisor.endpointAdvertise (sup : Supervisor) (advertisedHost : Option String) :
    Option String :=
  sup.child.map fun _ =>
    match advertisedHost with
    | some host => if host ≠ "" then host ++ ":" ++ toString sup.port.toNat
        else ":" ++ toString sup.port.toNat
    | none => ":" ++ toString sup.port.toNat

/-- Insert a string key when there is a value for it. -/
def insertSome (body : Json) (key : String) (value : Option String) : Json :=
  match value with
  | some s => body.insert key (.string s)
  | none => body

/-- The body `publish` sends. -/
def publishBody (info : NodeInfo) (sup : Supervisor) (advertisedHost : Option String)
    (controlEndpoint : String) : Json :=
  let inferenceEndpoint := sup.endpointAdvertise advertisedHost
  let body := toJson info
  let body := insertSome body "inference_endpoint" inferenceEndpoint
  let body := body.insert "control_endpoint" (.string controlEndpoint)
  insertSome body "current_model" sup.modelId

/-! ## What a body holds -/

theorem get?_insertSome_ne {name key : String} (hne : name ≠ key) (document : Json)
    (value : Option String) : (insertSome document key value).get? name = document.get? name := by
  cases value with
  | none => rfl
  | some s => exact Json.get?_insert_ne hne document (.string s)

/-- A key inserted for the first time holds the value, if there is one. -/
theorem get?_insertSome_self {document : Json} {info : NodeInfo}
    (hholds : HoldsInventory document info) {key : String} (hnew : document.get? key = none)
    (value : Option String) : (insertSome document key value).get? key = value.map .string := by
  cases value with
  | none => exact hnew
  | some s => exact Json.get?_insert_self (hholds "node_id" (by decide)) key (.string s)

theorem holdsInventory_insertSome {document : Json} {info : NodeInfo}
    (hholds : HoldsInventory document info) {key : String} (hkey : key ∉ inventoryKeys)
    (value : Option String) : HoldsInventory (insertSome document key value) info := by
  cases value with
  | none => exact hholds
  | some s => exact hholds.insert_new hkey (.string s)

/-- The body holds the inventory, and the sidecars there are values for. -/
theorem publishBody_sidecars (info : NodeInfo) (sup : Supervisor)
    (advertisedHost : Option String) (controlEndpoint : String) :
    HoldsInventory (publishBody info sup advertisedHost controlEndpoint) info ∧
      (publishBody info sup advertisedHost controlEndpoint).get? "inference_endpoint" =
        (sup.endpointAdvertise advertisedHost).map .string ∧
      (publishBody info sup advertisedHost controlEndpoint).get? "control_endpoint" =
        (some controlEndpoint).map .string ∧
      (publishBody info sup advertisedHost controlEndpoint).get? "current_model" =
        sup.modelId.map .string := by
  have hinventory : HoldsInventory (toJson info) info := fun _ _ => rfl
  let endpoint := sup.endpointAdvertise advertisedHost
  let withInference := insertSome (toJson info) "inference_endpoint" endpoint
  let withControl := withInference.insert "control_endpoint" (.string controlEndpoint)
  have hinference : HoldsInventory withInference info :=
    holdsInventory_insertSome hinventory (by decide) endpoint
  have hcontrol : HoldsInventory withControl info := hinference.insert_new (by decide) _
  refine ⟨holdsInventory_insertSome hcontrol (by decide) sup.modelId, ?_, ?_, ?_⟩
  · rw [publishBody, get?_insertSome_ne (by decide), Json.get?_insert_ne (by decide)]
    exact get?_insertSome_self hinventory rfl endpoint
  · rw [publishBody, get?_insertSome_ne (by decide)]
    exact Json.get?_insert_self (hinference "node_id" (by decide)) _ _
  · apply get?_insertSome_self hcontrol
    rw [Json.get?_insert_ne (by decide), get?_insertSome_ne (by decide)]
    rfl

end GpuCluster.Worker
