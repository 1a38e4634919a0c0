import GpuCluster.Coordinator.LoadModel
import GpuCluster.Gateway.Proxy
import GpuCluster.Mgmt.Routes

/-! # What a client can make the cluster do

A request that enters the gateway is followed through the gateway's routes and
those of the upstream it is forwarded to. The management backend guards its
admin routes itself; the coordinator guards none of its own.
-/

namespace GpuCluster.Cluster

open Coordinator Foundation Gateway Mgmt

/-- The gateway's configuration, the backend's admin key and the coordinator's
registry. -/
structure Deployment where
  config : GatewayConfig
  adminApiKey : String
  registry : Registry

/-- What runs in an upstream, on whose authority. -/
inductive Effect
  | mgmt (sender : Sender) (handler : MgmtHandler)
  | coordinator (handler : CoordinatorHandler)
  | dispatch (dispatch : Dispatch)
  | openAi (request : HttpRequest)

def Outgoing.effects (stack : WebStack) (deployment : Deployment) (outcome : ClientOutcome)
    (sent : Outgoing) : List Effect :=
  match sent.upstream with
  | .mgmt =>
      (mgmtRun stack deployment.adminApiKey sent.request).toList.map (.mgmt sent.sender)
  | .coordinator =>
      (coordinatorRun stack deployment.registry sent.request outcome).toList.flatMap fun ran =>
        .coordinator ran.1 :: ran.2.toList.map .dispatch
  | .openAi => [.openAi sent.request]

/-- Everything one request makes run. `check` is the verdict of the customer
authentication and `outcome` the worker's answer to a dispatch. -/
def effects (stack : WebStack) (deployment : Deployment) (check : V1Check)
    (outcome : ClientOutcome) (req : HttpRequest) : List Effect :=
  (gatewayRun stack deployment.config check req).flatMap
    (Outgoing.effects stack deployment outcome)

/-- An admin handler of the management backend on the client's authority, or a
dispatch to a worker's control plane. -/
def Effect.IsAdminOperation : Effect → Prop
  | .mgmt .client (.admin _) => True
  | .dispatch _ => True
  | _ => False

/-- The request goes through the cluster route to the coordinator's proxy, for a
node that can be reached. -/
def LoadsModel (stack : WebStack) (deployment : Deployment) (req : HttpRequest) : Prop :=
  ∃ segments forwarded,
    stack.route (gatewayRoutes.map Route.template) req.path =
      some ("/cluster/{*rest}", segments) ∧
    forward stack deployment.config .coordinator
      { req with pathAndQuery := clusterPath req.pathAndQuery } = .ok forwarded ∧
    ReachesWorker stack deployment.registry forwarded

section Requests

variable {stack : WebStack} {deployment : Deployment} {check : V1Check} {outcome : ClientOutcome}
  {req : HttpRequest}

/-- The only admin operation open to a client without the key is a dispatch,
and only the cluster route leads to it. -/
theorem loadsModel_of_adminOperation (hkey : ¬BearsAdminKey deployment.adminApiKey req)
    {effect : Effect} (heffect : effect ∈ effects stack deployment check outcome req)
    (hadmin : effect.IsAdminOperation) : LoadsModel stack deployment req := by
  obtain ⟨sent, hsent, hran⟩ := List.mem_flatMap.mp heffect
  have hsends := sends_of_mem hsent
  unfold Outgoing.effects at hran
  split at hran
  next hmgmt =>
    obtain ⟨handler, hhandler, rfl⟩ := List.mem_map.mp hran
    have hrun := Option.mem_toList.mp hhandler
    cases hsender : sent.sender with
    | client =>
        cases handler with
        | free => rw [hsender] at hadmin; cases hadmin
        | admin handler =>
            -- the guard has seen the key, and it is the client's
            have hbears := bearsAdminKey_of_run hrun
            exact absurd (hsends.authorization hsender hbears) hkey
    | gateway => rw [hsender] at hadmin; cases hadmin
  next hcoordinator =>
    obtain ⟨ran, hrun, hmem⟩ := List.mem_flatMap.mp hran
    have hrun := Option.mem_toList.mp hrun
    rcases List.mem_cons.mp hmem with rfl | hdispatch
    · cases hadmin
    · obtain ⟨dispatch, hdispatched, rfl⟩ := List.mem_map.mp hdispatch
      have hsome : ran.2 = some dispatch := Option.mem_toList.mp hdispatched
      have hreaches := dispatches_iff.mp ⟨ran.1, dispatch, by rw [← hsome]; exact hrun⟩
      cases hsends with
      | forwarded upstream pathAndQuery request hforward hcluster =>
          cases hcoordinator
          obtain ⟨segments, hroute, rfl⟩ := hcluster rfl
          exact ⟨segments, request, hroute, hforward, hreaches⟩
      | get upstream delivered bearer hbearer =>
          have hpost : "GET" = "POST" := hreaches.1
          exact absurd hpost (by decide)
      | verify request => cases hcoordinator
  next hopenAi =>
    obtain rfl := List.mem_singleton.mp hran
    cases hadmin

/-- The cluster route leads to a dispatch. -/
theorem adminOperation_of_loadsModel (hloads : LoadsModel stack deployment req) :
    ∃ effect ∈ effects stack deployment check outcome req, effect.IsAdminOperation := by
  obtain ⟨segments, forwarded, hroute, hforward, hreaches⟩ := hloads
  obtain ⟨handler, dispatch, hrun⟩ : ∃ handler dispatch,
      coordinatorRun stack deployment.registry forwarded outcome = some (handler, some dispatch) :=
    dispatches_iff.mpr hreaches
  have hsent : ⟨.client, .coordinator, forwarded⟩ ∈
      gatewayRun stack deployment.config check req := by
    rw [gatewayRun, handlerFor_cluster.mpr hroute]
    simp only [sendForward, hforward, List.mem_singleton]
  have hran : Effect.dispatch dispatch ∈
      Outgoing.effects stack deployment outcome ⟨.client, .coordinator, forwarded⟩ := by
    simp [Outgoing.effects, hrun]
  exact ⟨.dispatch dispatch, List.mem_flatMap.mpr ⟨_, hsent, hran⟩, trivial⟩

end Requests

/-- Without the admin key in its `Authorization`, a request runs no admin
operation exactly when it does not lead to the coordinator's control proxy. -/
theorem noAdminOperation_iff_not_loadsModel (stack : WebStack) (deployment : Deployment)
    (check : V1Check) (outcome : ClientOutcome) (req : HttpRequest)
    (hkey : ¬BearsAdminKey deployment.adminApiKey req) :
    (∀ effect ∈ effects stack deployment check outcome req, ¬effect.IsAdminOperation) ↔
      ¬LoadsModel stack deployment req := by
  constructor
  · intro hnone hloads
    obtain ⟨effect, hmem, hadmin⟩ := adminOperation_of_loadsModel hloads
    exact hnone effect hmem hadmin
  · intro hnot effect hmem hadmin
    exact hnot (loadsModel_of_adminOperation hkey hmem hadmin)

/-! ## One request -/

/-- A template's segments against a path's: `{*rest}` takes what is left and
`{id}` takes one. -/
def matchSegments : List String → List String → Option (List String)
  | [], [] => some []
  | template :: templates, segment :: segments =>
      if template = "{*rest}" then some ["/".intercalate (segment :: segments)]
      else if template = "{id}" then (matchSegments templates segments).map (segment :: ·)
      else if template = segment then matchSegments templates segments
      else none
  | _, _ => none

def segmentsOf (path : String) : List String := (path.toList.splitOn '/').map .ofList

/-- Libraries that treat the requests below as the real ones do. -/
def plainStack : WebStack where
  route templates path := templates.findSome? fun template =>
    (matchSegments (segmentsOf template) (segmentsOf path)).map fun captured => (template, captured)
  decodeSegment := some
  jsonBody req := if req.body = "\x7b\x7d".toUTF8.data.toList then some (.object []) else none
  parseJson _ := none
  writeJson _ := []
  deliver url :=
    match ["http://mgmt:7100", "http://coordinator:7001", "http://openai-api:7200"].findSome?
      fun base => stripPrefix? base url with
    | some pathAndQuery => .ok pathAndQuery
    | none => .error "upstream unreachable"

def plainDeployment : Deployment where
  config := ⟨"http://mgmt:7100", "http://coordinator:7001", "http://openai-api:7200", some "admin"⟩
  adminApiKey := "admin"
  registry := KeyedMap.empty.insert
    (.make 0 { nodeId := "w1" } none none (some "10.0.0.5:50054") none)

/-- A request with a body and no `Authorization`. -/
def anonymousPost (pathAndQuery : String) : HttpRequest where
  method := "POST"
  pathAndQuery := pathAndQuery
  headers := [("content-type", "application/json")]
  body := "\x7b\x7d".toUTF8.data.toList

/-- Anybody can make the coordinator dispatch a load to a worker. -/
theorem anonymousLoad_isDispatched :
    ¬BearsAdminKey "admin" (anonymousPost "/cluster/nodes/w1/load_model") ∧
    ∃ effect ∈ effects plainStack plainDeployment ⟨none, false⟩ (.ok .null)
      (anonymousPost "/cluster/nodes/w1/load_model"), effect.IsAdminOperation := by
  constructor
  · intro hbears
    cases hbears
  · apply adminOperation_of_loadsModel
    refine ⟨["nodes/w1/load_model"], anonymousPost "/nodes/w1/load_model", ?_, ?_, rfl, ?_,
      ["w1"], "w1", "http://10.0.0.5:50054/control/load_model", ?_, rfl, ?_⟩
    all_goals decide +kernel

/-- Without the key, no node is approved through the gateway. -/
theorem anonymousApproval_isRefused :
    ¬BearsAdminKey "admin" (anonymousPost "/api/v1/nodes/w1/approve") ∧
    ∀ effect ∈ effects plainStack plainDeployment ⟨none, false⟩ (.ok .null)
      (anonymousPost "/api/v1/nodes/w1/approve"), ¬effect.IsAdminOperation := by
  have hkey : ¬BearsAdminKey "admin" (anonymousPost "/api/v1/nodes/w1/approve") := by
    intro hbears
    cases hbears
  refine ⟨hkey, (noAdminOperation_iff_not_loadsModel plainStack plainDeployment ⟨none, false⟩
    (.ok .null) _ hkey).mpr ?_⟩
  intro hloads
  obtain ⟨segments, forwarded, hroute, -, -⟩ := hloads
  have hapi : plainStack.route (gatewayRoutes.map Route.template)
      (anonymousPost "/api/v1/nodes/w1/approve").path =
        some ("/api/{*rest}", ["v1/nodes/w1/approve"]) := by
    decide +kernel
  rw [hapi] at hroute
  simp at hroute

end GpuCluster.Cluster
