import GpuCluster.Foundation.Http

/-! # The gateway's routes

The gateway answers some paths itself and forwards the rest, with the client's
headers, to one of three upstreams. Two of the forwarding handlers rewrite the
path. Besides, the gateway calls the management backend with its own key to
verify customer tokens.
-/

namespace GpuCluster.Gateway

open Foundation

/-! ## Routes -/

inductive GatewayHandler
  | index
  | adminCss
  | adminJs
  | health
  | ready
  | overview
  | apiProxy
  | clusterProxy
  | enrollProxy
  | openaiProxy
  deriving DecidableEq

def gatewayRoutes : List (Route GatewayHandler) := [
  ⟨"/", .only "GET", .index⟩,
  ⟨"/admin.css", .only "GET", .adminCss⟩,
  ⟨"/admin.js", .only "GET", .adminJs⟩,
  ⟨"/health", .only "GET", .health⟩,
  ⟨"/ready", .only "GET", .ready⟩,
  ⟨"/overview", .only "GET", .overview⟩,
  ⟨"/api/{*rest}", .any, .apiProxy⟩,
  ⟨"/cluster/{*rest}", .any, .clusterProxy⟩,
  ⟨"/enroll", .any, .enrollProxy⟩,
  ⟨"/v1/{*rest}", .any, .openaiProxy⟩]

/-! ## Forwarding -/

inductive Upstream
  | mgmt
  | coordinator
  | openAi
  deriving DecidableEq

/-- The configured URLs and the gateway's own admin key. -/
structure GatewayConfig where
  mgmtUrl : String
  coordinatorHttpUrl : String
  openaiUrl : String
  adminApiKey : Option String

def Upstream.base (config : GatewayConfig) : Upstream → String
  | .mgmt => config.mgmtUrl
  | .coordinator => config.coordinatorHttpUrl
  | .openAi => config.openaiUrl

def hopByHop : List String :=
  ["connection", "proxy-connection", "keep-alive", "te", "trailer", "transfer-encoding", "upgrade",
    "host"]

def stripHopByHop (headers : List (String × String)) : List (String × String) :=
  headers.filter fun header => header.1 ∉ hopByHop

/-- The largest body that is read. -/
def bodyLimit : ℕ := 50 * 1024 * 1024

/-- `forward` up to the send: the request as the upstream gets it. -/
def forward (stack : WebStack) (config : GatewayConfig) (upstream : Upstream) (req : HttpRequest) :
    Except String HttpRequest :=
  if bodyLimit < req.body.length then .error "read body: length limit exceeded"
  else (stack.deliver (trimEnd '/' (upstream.base config) ++ req.pathAndQuery)).map fun delivered =>
    { req with pathAndQuery := delivered, headers := stripHopByHop req.headers }

/-- `/cluster/foo` is `/foo` at the coordinator. -/
def clusterPath (pathAndQuery : String) : String :=
  let stripped := (stripPrefix? "/cluster" pathAndQuery).getD pathAndQuery
  if stripped = "" then "/" else stripped

/-! ## Requests sent -/

/-- On whose authority a request is sent. -/
inductive Sender
  | client
  | gateway
  deriving DecidableEq

structure Outgoing where
  sender : Sender
  upstream : Upstream
  request : HttpRequest

def sendForward (stack : WebStack) (config : GatewayConfig) (upstream : Upstream)
    (req : HttpRequest) : List Outgoing :=
  match forward stack config upstream req with
  | .ok request => [⟨.client, upstream, request⟩]
  | .error _ => []

/-- A `GET` of `overview`, with the client's `Authorization` where it is passed on. -/
def sendGet (stack : WebStack) (config : GatewayConfig) (upstream : Upstream) (path : String)
    (bearer : Option String) : List Outgoing :=
  match stack.deliver (trimEnd '/' (upstream.base config) ++ path) with
  | .ok delivered =>
      let headers := bearer.toList.map fun text => ("authorization", text)
      [⟨.client, upstream, ⟨"GET", delivered, headers, []⟩⟩]
  | .error _ => []

def sendOverview (stack : WebStack) (config : GatewayConfig) (req : HttpRequest) : List Outgoing :=
  let bearer := (req.header "authorization").bind headerText
  sendGet stack config .mgmt "/health" none ++ sendGet stack config .coordinator "/health" none ++
    sendGet stack config .openAi "/health" none ++
    sendGet stack config .coordinator "/nodes" none ++
    sendGet stack config .mgmt "/api/v1/nodes" bearer ++
    sendGet stack config .openAi "/v1/models" none ++
    sendGet stack config .mgmt "/api/v1/settings" bearer

/-- The call that verifies a customer's token. -/
def sendVerify (stack : WebStack) (config : GatewayConfig) (token : String) : List Outgoing :=
  match config.adminApiKey, stack.deliver (trimEnd '/' config.mgmtUrl ++ "/api/v1/keys/verify") with
  | some key, .ok delivered =>
      [⟨.gateway, .mgmt, ⟨"POST", delivered,
        [("authorization", "Bearer " ++ key), ("content-type", "application/json")],
        stack.writeJson (.object [("token", .string token)])⟩⟩]
  | _, _ => []

/-- What `require_v1_api_key` does with a request: the token it asks the backend
about, and whether it lets the request through. -/
structure V1Check where
  asks : Option String
  passes : Bool

/-- The requests the gateway sends for one request. -/
def gatewayRun (stack : WebStack) (config : GatewayConfig) (check : V1Check) (req : HttpRequest) :
    List Outgoing :=
  match handlerFor stack gatewayRoutes req with
  | none => []
  | some (handler, _) =>
      match handler with
      | .index | .adminCss | .adminJs | .health | .ready => []
      | .overview => sendOverview stack config req
      | .apiProxy => sendForward stack config .mgmt req
      | .clusterProxy =>
          sendForward stack config .coordinator
            { req with pathAndQuery := clusterPath req.pathAndQuery }
      | .enrollProxy =>
          sendForward stack config .mgmt { req with pathAndQuery := "/api/v1/enroll" }
      | .openaiProxy =>
          (check.asks.toList.flatMap (sendVerify stack config)) ++
            if check.passes then sendForward stack config .openAi req else []

/-! ## Answers -/

/-- The text of a fresh UUID, which every header can hold. -/
structure MintedId where
  text : String
  valid : headerText text = some text

/-- The middleware `request_id`, on the headers of the answer from further inside. -/
def requestId (id : MintedId) (headers : List (String × String)) : List (String × String) :=
  match headerText id.text with
  | some value => insertHeader "x-request-id" value headers
  | none => headers

theorem lookup_requestId (id : MintedId) (headers : List (String × String)) :
    (requestId id headers).lookup "x-request-id" = some id.text := by
  rw [requestId, id.valid]
  rfl

/-! ## What is sent -/

theorem handlerFor_cluster {stack : WebStack} {req : HttpRequest} {segments : List String} :
    handlerFor stack gatewayRoutes req = some (.clusterProxy, segments) ↔
      stack.route (gatewayRoutes.map Route.template) req.path =
        some ("/cluster/{*rest}", segments) := by
  have htemplates : (gatewayRoutes.map Route.template).Nodup := by decide
  have hhandlers : (gatewayRoutes.map Route.handler).Nodup := by decide
  have hmem : ⟨"/cluster/{*rest}", .any, .clusterProxy⟩ ∈ gatewayRoutes := by decide
  rw [handlerFor_eq_some stack htemplates hhandlers hmem req segments]
  simp [MethodFilter.accepts]

/-- Only hop-by-hop headers are dropped. -/
theorem header_stripHopByHop {headers : List (String × String)} {name : String}
    (hname : name ∉ hopByHop) : (stripHopByHop headers).lookup name = headers.lookup name := by
  induction headers with
  | nil => rfl
  | cons header rest ih =>
      obtain ⟨other, value⟩ := header
      by_cases hother : other ∈ hopByHop
      · have hne : (name == other) = false := by
          apply beq_false_of_ne
          intro hsame
          exact hname (hsame ▸ hother)
        rw [stripHopByHop, List.filter_cons_of_neg (by simpa using hother), List.lookup_cons, hne]
        exact ih
      · rw [stripHopByHop, List.filter_cons_of_pos (by simpa using hother), List.lookup_cons,
          List.lookup_cons]
        split
        next => rfl
        next => exact ih

/-- What is forwarded differs from the client's request in its path and in the
hop-by-hop headers. -/
theorem forward_eq {stack : WebStack} {config : GatewayConfig} {upstream : Upstream}
    {req forwarded : HttpRequest} (hok : forward stack config upstream req = .ok forwarded) :
    ∃ delivered, forwarded = { req with
      pathAndQuery := delivered, headers := stripHopByHop req.headers } := by
  unfold forward at hok
  split at hok
  next => cases hok
  next =>
    cases hdeliver : stack.deliver (trimEnd '/' (upstream.base config) ++ req.pathAndQuery) with
    | error =>
        rw [hdeliver] at hok
        cases hok
    | ok delivered =>
        rw [hdeliver] at hok
        cases hok
        exact ⟨delivered, rfl⟩

/-- What is forwarded keeps the method, the body and the `Authorization`. -/
theorem forward_ok {stack : WebStack} {config : GatewayConfig} {upstream : Upstream}
    {req forwarded : HttpRequest} (hok : forward stack config upstream req = .ok forwarded) :
    forwarded.method = req.method ∧ forwarded.body = req.body ∧
      forwarded.header "authorization" = req.header "authorization" := by
  obtain ⟨delivered, rfl⟩ := forward_eq hok
  exact ⟨rfl, rfl, header_stripHopByHop (by decide)⟩

/-- The kinds of requests sent: a forwarded one, which goes to the coordinator
from the cluster route only, a `GET` of the overview, and the gateway's own. -/
inductive Sends (stack : WebStack) (config : GatewayConfig) (req : HttpRequest) : Outgoing → Prop
  | forwarded (upstream : Upstream) (pathAndQuery : String) (request : HttpRequest)
      (hforward : forward stack config upstream { req with pathAndQuery } = .ok request)
      (hcluster : upstream = .coordinator → ∃ segments,
        stack.route (gatewayRoutes.map Route.template) req.path =
          some ("/cluster/{*rest}", segments) ∧ pathAndQuery = clusterPath req.pathAndQuery) :
      Sends stack config req ⟨.client, upstream, request⟩
  | get (upstream : Upstream) (delivered : String) (bearer : Option String)
      (hbearer : ∀ text, bearer = some text → req.header "authorization" = some text) :
      Sends stack config req ⟨.client, upstream, ⟨"GET", delivered,
        bearer.toList.map fun text => ("authorization", text), []⟩⟩
  | verify (request : HttpRequest) : Sends stack config req ⟨.gateway, .mgmt, request⟩

section Sent

variable {stack : WebStack} {config : GatewayConfig} {req : HttpRequest} {sent : Outgoing}

theorem sends_of_forward {upstream : Upstream} {pathAndQuery : String}
    (hsent : sent ∈ sendForward stack config upstream { req with pathAndQuery })
    (hcluster : upstream = .coordinator → ∃ segments,
      stack.route (gatewayRoutes.map Route.template) req.path =
        some ("/cluster/{*rest}", segments) ∧ pathAndQuery = clusterPath req.pathAndQuery) :
    Sends stack config req sent := by
  unfold sendForward at hsent
  split at hsent
  next request hforward =>
    obtain rfl := List.mem_singleton.mp hsent
    exact .forwarded upstream pathAndQuery request hforward hcluster
  next => cases hsent

theorem sends_of_get {upstream : Upstream} {path : String} {bearer : Option String}
    (hsent : sent ∈ sendGet stack config upstream path bearer)
    (hbearer : ∀ text, bearer = some text → req.header "authorization" = some text) :
    Sends stack config req sent := by
  unfold sendGet at hsent
  split at hsent
  next delivered _ =>
    obtain rfl := List.mem_singleton.mp hsent
    exact .get upstream delivered bearer hbearer
  next => cases hsent

theorem sends_of_overview (hsent : sent ∈ sendOverview stack config req) :
    Sends stack config req sent := by
  have hnone : ∀ text, (none : Option String) = some text →
      req.header "authorization" = some text := by
    intro text hcase
    cases hcase
  have hpassed : ∀ text, (req.header "authorization").bind headerText = some text →
      req.header "authorization" = some text := by
    intro text hbind
    obtain ⟨value, hvalue, htext⟩ := Option.bind_eq_some_iff.mp hbind
    rw [hvalue, eq_of_headerText htext]
  simp only [sendOverview, List.mem_append] at hsent
  rcases hsent with (((((h | h) | h) | h) | h) | h) | h
  · exact sends_of_get h hnone
  · exact sends_of_get h hnone
  · exact sends_of_get h hnone
  · exact sends_of_get h hnone
  · exact sends_of_get h hpassed
  · exact sends_of_get h hnone
  · exact sends_of_get h hpassed

theorem sends_of_verify {token : String} (hsent : sent ∈ sendVerify stack config token) :
    Sends stack config req sent := by
  unfold sendVerify at hsent
  split at hsent
  next =>
    obtain rfl := List.mem_singleton.mp hsent
    exact .verify _
  next => cases hsent

theorem sends_of_mem {check : V1Check} (hsent : sent ∈ gatewayRun stack config check req) :
    Sends stack config req sent := by
  unfold gatewayRun at hsent
  split at hsent
  next => cases hsent
  next handler segments hhandler =>
    cases handler with
    | index | adminCss | adminJs | health | ready => cases hsent
    | overview => exact sends_of_overview hsent
    | apiProxy | enrollProxy =>
        refine sends_of_forward hsent (fun hcase => ?_)
        cases hcase
    | clusterProxy =>
        refine sends_of_forward hsent (fun _ => ?_)
        exact ⟨segments, handlerFor_cluster.mp hhandler, rfl⟩
    | openaiProxy =>
        rcases List.mem_append.mp hsent with hverify | hforward
        · obtain ⟨token, -, hverify⟩ := List.mem_flatMap.mp hverify
          exact sends_of_verify hverify
        · split at hforward
          next =>
            refine sends_of_forward hforward (fun hcase => ?_)
            cases hcase
          next => cases hforward

/-- What is sent for the client carries no other `Authorization` than the client's. -/
theorem Sends.authorization (hsends : Sends stack config req sent) (hclient : sent.sender = .client)
    {value : String} (hvalue : sent.request.header "authorization" = some value) :
    req.header "authorization" = some value := by
  cases hsends with
  | forwarded upstream pathAndQuery request hforward hcluster =>
      obtain ⟨-, -, hheader⟩ := forward_ok hforward
      exact hheader.symm.trans hvalue
  | get upstream delivered bearer hbearer =>
      cases bearer with
      | none => cases hvalue
      | some text =>
          cases hvalue
          exact hbearer _ rfl
  | verify request => cases hclient

end Sent

end GpuCluster.Gateway
