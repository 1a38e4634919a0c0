import GpuCluster.Coordinator.Server
import GpuCluster.Foundation.Http

/-! # The coordinator's routes and its control proxy

None of the routes asks for a credential. `load_model_proxy` looks the node's
control endpoint up in the registry and posts the body there as it came.
-/

namespace GpuCluster.Coordinator

open Foundation Proto

inductive CoordinatorHandler
  | health
  | listNodes
  | reportNode
  | eligibleNodes
  | loadModelProxy
  deriving DecidableEq

def coordinatorRoutes : List (Route CoordinatorHandler) := [
  ⟨"/health", .only "GET", .health⟩,
  ⟨"/nodes", .only "GET", .listNodes⟩,
  ⟨"/nodes/report", .only "POST", .reportNode⟩,
  ⟨"/nodes/eligible", .only "GET", .eligibleNodes⟩,
  ⟨"/nodes/{id}/load_model", .only "POST", .loadModelProxy⟩]

/-! ## The control proxy -/

def controlPath : String := "/control/load_model"

/-- The control URL of an entry: a port-only endpoint is paired with the
dispatch address. -/
def NodeEntry.controlUrl (entry : NodeEntry) : Except String String :=
  match entry.controlEndpoint with
  | none => .error "node_has_no_control_endpoint"
  | some portPart =>
      if portPart.toList.head? = some ':' then
        match entry.dispatchIp with
        | none => .error "node_has_no_routable_ip"
        | some host => .ok ("http://" ++ host ++ portPart ++ controlPath)
      else .ok ("http://" ++ portPart ++ controlPath)

/-- The URL a node is reached at, or the error it is refused with. -/
def controlUrlOf (reg : Registry) (id : String) : Except String String :=
  match reg.get id with
  | none => .error "unknown_node"
  | some entry => entry.controlUrl

/-- Body of a refusal before the dispatch, which has status 502. -/
def refusalBody (id error : String) : Json :=
  let hint := if error = "node_has_no_control_endpoint" then
    [("hint", Json.string "worker may be running an older version that doesn't expose /control")]
  else []
  .object ([("error", .string error), ("node_id", .string id)] ++ hint)

/-- `WorkerControlClient::load_model` on a base URL. -/
def controlClientUrl (base : String) : String := trimEnd '/' base ++ controlPath

/-- How the call to the worker ends. -/
inductive ClientOutcome
  | ok (answer : Json)
  | upstream (status : UInt16) (body : String)
  | failed (message : String)

/-- The answer after the dispatch. -/
def ClientOutcome.reply (stack : WebStack) (url : String) : ClientOutcome → Except (ℕ × Json) Json
  | .ok answer => .ok answer
  | .upstream status body => .error (502, .object
      [("error", .string "worker_rejected"), ("worker_status", .ofU32 status.toUInt32),
        ("worker_body", (stack.parseJson body).getD (.object [("raw", .string body)]))])
  | .failed message => .error (502, .object
      [("error", .string "worker_unreachable"), ("url", .string url),
        ("message", .string message)])

/-- A call of the worker's control plane. -/
structure Dispatch where
  url : String
  body : Json

/-- `load_model_proxy`: the dispatch it makes, and its answer. -/
def loadModelProxy (stack : WebStack) (reg : Registry) (id : String) (body : Json)
    (outcome : ClientOutcome) : Option Dispatch × Except (ℕ × Json) Json :=
  match controlUrlOf reg id with
  | .error error => (none, .error (502, refusalBody id error))
  | .ok url =>
      let base := (stripSuffix? controlPath url).getD url
      (some ⟨controlClientUrl base, body⟩, outcome.reply stack url)

/-- What a request makes the coordinator do: the handler that runs and the
dispatch of `load_model_proxy`, whose extractors may refuse the request. -/
def coordinatorRun (stack : WebStack) (reg : Registry) (req : HttpRequest)
    (outcome : ClientOutcome) : Option (CoordinatorHandler × Option Dispatch) :=
  match handlerFor stack coordinatorRoutes req with
  | none => none
  | some (.loadModelProxy, segments) =>
      match segments.head?.bind stack.decodeSegment, stack.jsonBody req with
      | some id, some body =>
          some (.loadModelProxy, (loadModelProxy stack reg id body outcome).1)
      | _, _ => none
  | some (handler, _) => some (handler, none)

/-! ## When a request reaches a worker -/

/-- A `POST` to the proxy's template with a JSON body, for a node whose control
URL is known. -/
def ReachesWorker (stack : WebStack) (reg : Registry) (req : HttpRequest) : Prop :=
  req.method = "POST" ∧ (stack.jsonBody req).isSome ∧ ∃ segments id url,
    stack.route (coordinatorRoutes.map Route.template) req.path =
      some ("/nodes/{id}/load_model", segments) ∧
    segments.head?.bind stack.decodeSegment = some id ∧ controlUrlOf reg id = .ok url

theorem loadModelProxy_dispatch (stack : WebStack) {reg : Registry} {id : String} (body : Json)
    (outcome : ClientOutcome) :
    (∃ dispatch, (loadModelProxy stack reg id body outcome).1 = some dispatch) ↔
      ∃ url, controlUrlOf reg id = .ok url := by
  unfold loadModelProxy
  cases controlUrlOf reg id with
  | error => simp
  | ok url => simp

theorem handlerFor_loadModel {stack : WebStack} {req : HttpRequest} {segments : List String} :
    handlerFor stack coordinatorRoutes req = some (.loadModelProxy, segments) ↔
      stack.route (coordinatorRoutes.map Route.template) req.path =
        some ("/nodes/{id}/load_model", segments) ∧ req.method = "POST" := by
  have htemplates : (coordinatorRoutes.map Route.template).Nodup := by decide
  have hhandlers : (coordinatorRoutes.map Route.handler).Nodup := by decide
  have hmem : ⟨"/nodes/{id}/load_model", .only "POST", .loadModelProxy⟩ ∈ coordinatorRoutes := by
    decide
  rw [handlerFor_eq_some stack htemplates hhandlers hmem req segments]
  simp [MethodFilter.accepts]

/-- The coordinator dispatches something to a worker exactly for such requests. -/
theorem dispatches_iff {stack : WebStack} {reg : Registry} {req : HttpRequest}
    {outcome : ClientOutcome} :
    (∃ handler dispatch, coordinatorRun stack reg req outcome = some (handler, some dispatch)) ↔
      ReachesWorker stack reg req := by
  constructor
  · intro ⟨handler, dispatch, hrun⟩
    unfold coordinatorRun at hrun
    split at hrun
    next => cases hrun
    next segments hhandler =>
      obtain ⟨hroute, hmethod⟩ := handlerFor_loadModel.mp hhandler
      split at hrun
      next id body hid hbody =>
        rw [Option.some.injEq, Prod.mk.injEq] at hrun
        obtain ⟨url, hurl⟩ := (loadModelProxy_dispatch ..).mp ⟨dispatch, hrun.2⟩
        exact ⟨hmethod, by rw [hbody]; rfl, segments, id, url, hroute, hid, hurl⟩
      next => cases hrun
    next => cases hrun
  · intro ⟨hmethod, hbody, segments, id, url, hroute, hid, hurl⟩
    obtain ⟨body, hbody⟩ := Option.isSome_iff_exists.mp hbody
    obtain ⟨dispatch, hdispatch⟩ := (loadModelProxy_dispatch stack body outcome).mpr ⟨url, hurl⟩
    refine ⟨.loadModelProxy, dispatch, ?_⟩
    simp only [coordinatorRun, handlerFor_loadModel.mpr ⟨hroute, hmethod⟩, hid, hbody, hdispatch]

end GpuCluster.Coordinator
