import GpuCluster.Gateway.Proxy

/-! # What the gateway answers

The client of a forwarded request gets the upstream's answer, or an error of the
gateway's own. The upstream can fail before it answers, and once more while its body
is read, when status and headers are known.
-/

namespace GpuCluster.Gateway

open Foundation

/-- How the reading of a body ends. -/
inductive BodyRead
  | complete (bytes : List UInt8)
  | broken (part : List UInt8) (error : String)

/-- `bytes().await.unwrap_or_default()`. -/
def BodyRead.bytesOrDefault : BodyRead → List UInt8
  | .complete bytes => bytes
  | .broken .. => []

structure UpstreamResponse where
  status : HttpStatus
  headers : List (String × String)
  body : BodyRead

/-- What a forwarded request meets: the parser of its target, a client that may stop
sending, and an upstream that may be out of reach. -/
structure Exchange where
  uriError : String → Option String
  readError : Option String
  send : HttpRequest → Except String UpstreamResponse

inductive AnswerBody
  | json (document : Json)
  | bytes (bytes : List UInt8)

structure GatewayAnswer where
  status : HttpStatus
  headers : List (String × String)
  body : AnswerBody

def badGateway (message : String) : GatewayAnswer where
  status := .badGateway
  headers := [("content-type", "application/json")]
  body := .json (.object [("error", .string "bad_gateway"), ("message", .string message)])

/-- `Response::builder`, which refuses a status that is none. -/
def buildResponse (resp : UpstreamResponse) : GatewayAnswer :=
  match HttpStatus.fromCode resp.status.code with
  | some status => ⟨status, stripHopByHop resp.headers, .bytes resp.body.bytesOrDefault⟩
  | none => badGateway "build response failed"

/-- The URL that a request is forwarded to. -/
def target (config : GatewayConfig) (upstream : Upstream) (req : HttpRequest) : String :=
  trimEnd '/' (upstream.base config) ++ req.pathAndQuery

/-- `proxy::forward`. -/
def forwardResponse (stack : WebStack) (config : GatewayConfig) (upstream : Upstream)
    (exchange : Exchange) (req : HttpRequest) : GatewayAnswer :=
  match exchange.uriError (target config upstream req) with
  | some error => badGateway ("bad upstream uri: " ++ error)
  | none =>
      match exchange.readError with
      | some error => badGateway ("read body: " ++ error)
      | none =>
          match forward stack config upstream req with
          | .error message => badGateway message
          | .ok request =>
              match exchange.send request with
              | .error error => badGateway ("upstream unreachable: " ++ error)
              | .ok resp => buildResponse resp

/-! ## What is promised -/

/-- The upstream's answer, should it come to one. -/
def Answered (stack : WebStack) (config : GatewayConfig) (upstream : Upstream)
    (exchange : Exchange) (req : HttpRequest) (resp : UpstreamResponse) : Prop :=
  exchange.uriError (target config upstream req) = none ∧ exchange.readError = none ∧
    ∃ request, forward stack config upstream req = .ok request ∧
      exchange.send request = .ok resp

/-- The client gets the upstream's answer without the hop-by-hop headers. -/
structure PassesOn (resp : UpstreamResponse) (answer : GatewayAnswer) : Prop where
  status : answer.status = resp.status
  headers : answer.headers = stripHopByHop resp.headers
  body : ∃ bytes, resp.body = .complete bytes ∧ answer.body = .bytes bytes

/-- The client gets one of the upstream's answers as it is, or an error of the gateway;
with a success of the upstream it gets the whole body. -/
structure Faithful (answered : UpstreamResponse → Prop) (answer : GatewayAnswer) : Prop where
  outcome : (∃ resp, answered resp ∧ PassesOn resp answer) ∨ ∃ message, answer = badGateway message
  success : ∀ resp, answered resp → resp.status.isSuccess → answer.status = resp.status →
    ∃ bytes, resp.body = .complete bytes ∧ answer.body = .bytes bytes

/-! ## The answer of a call -/

section

variable {stack : WebStack} {config : GatewayConfig} {upstream : Upstream} {exchange : Exchange}
  {req : HttpRequest} {resp : UpstreamResponse}

theorem buildResponse_eq (resp : UpstreamResponse) : buildResponse resp =
    ⟨resp.status, stripHopByHop resp.headers, .bytes resp.body.bytesOrDefault⟩ := by
  rw [buildResponse, HttpStatus.fromCode_code]

theorem Answered.unique (hanswered : Answered stack config upstream exchange req resp)
    {other : UpstreamResponse} (hother : Answered stack config upstream exchange req other) :
    resp = other := by
  obtain ⟨-, -, request, hforward, hsend⟩ := hanswered
  obtain ⟨-, -, another, hforward', hsend'⟩ := hother
  cases hforward.symm.trans hforward'
  exact Except.ok.inj (hsend.symm.trans hsend')

/-- Once the upstream has answered, its status is passed on whatever becomes of the body. -/
theorem forwardResponse_of_answered (hanswered : Answered stack config upstream exchange req resp) :
    forwardResponse stack config upstream exchange req = buildResponse resp := by
  obtain ⟨huri, hread, request, hforward, hsend⟩ := hanswered
  simp only [forwardResponse, huri, hread, hforward, hsend]

/-- Every failure before that has the gateway's own answer. -/
theorem forwardResponse_of_not_answered
    (hnone : ∀ resp, ¬Answered stack config upstream exchange req resp) :
    ∃ message, forwardResponse stack config upstream exchange req = badGateway message := by
  unfold forwardResponse
  split
  next => exact ⟨_, rfl⟩
  next huri =>
    split
    next => exact ⟨_, rfl⟩
    next hread =>
      split
      next => exact ⟨_, rfl⟩
      next request hforward =>
        split
        next => exact ⟨_, rfl⟩
        next resp hsend => exact absurd ⟨huri, hread, request, hforward, hsend⟩ (hnone resp)

theorem buildResponse_ne_badGateway (resp : UpstreamResponse) (message : String) :
    buildResponse resp ≠ badGateway message := by
  intro hsame
  rw [buildResponse_eq] at hsame
  cases congrArg GatewayAnswer.body hsame

end

/-- A forwarded request is answered with all of the upstream's answer or with a bad
gateway exactly when the upstream does not fail while its body is read. -/
theorem forwardResponse_faithful_iff (stack : WebStack) (config : GatewayConfig)
    (upstream : Upstream) (exchange : Exchange) (req : HttpRequest) :
    Faithful (Answered stack config upstream exchange req)
        (forwardResponse stack config upstream exchange req) ↔
      ∀ resp, Answered stack config upstream exchange req resp →
        ∃ bytes, resp.body = .complete bytes := by
  constructor
  · intro hfaithful resp hanswered
    rcases hfaithful.outcome with ⟨other, hother, hpasses⟩ | ⟨message, hbad⟩
    · obtain ⟨bytes, hbytes, -⟩ := hpasses.body
      exact ⟨bytes, hanswered.unique hother ▸ hbytes⟩
    · rw [forwardResponse_of_answered hanswered] at hbad
      exact absurd hbad (buildResponse_ne_badGateway resp message)
  · intro hcomplete
    by_cases hexists : ∃ resp, Answered stack config upstream exchange req resp
    · obtain ⟨resp, hanswered⟩ := hexists
      obtain ⟨bytes, hbytes⟩ := hcomplete resp hanswered
      have hanswer : forwardResponse stack config upstream exchange req =
          ⟨resp.status, stripHopByHop resp.headers, .bytes bytes⟩ := by
        rw [forwardResponse_of_answered hanswered, buildResponse_eq, hbytes]
        rfl
      rw [hanswer]
      refine ⟨.inl ⟨resp, hanswered, rfl, rfl, bytes, hbytes, rfl⟩, fun other hother _ _ => ?_⟩
      exact ⟨bytes, hanswered.unique hother ▸ hbytes, rfl⟩
    · have hnone : ∀ resp, ¬Answered stack config upstream exchange req resp := fun resp h =>
        hexists ⟨resp, h⟩
      exact ⟨.inr (forwardResponse_of_not_answered hnone), fun resp h => absurd h (hnone resp)⟩

/-! ## A connection that is lost -/

/-- A deployment with one dispatcher, whose URLs are delivered as they are. -/
def listModelsStack : WebStack where
  route _ _ := none
  decodeSegment := some
  jsonBody _ := none
  parseJson _ := none
  writeJson _ := []
  deliver := fun _ => .ok "/v1/models"

def listModels : HttpRequest := ⟨"GET", "/v1/models", [], []⟩

/-- The dispatcher's answer breaks off in the middle of its body. -/
def brokenOff : Exchange where
  uriError _ := none
  readError := none
  send _ := .ok ⟨.ok, [("content-type", "application/json"), ("content-length", "64")],
    .broken "\x7b\"object\":\"list\"".toUTF8.data.toList "connection closed"⟩

/-- The client gets a success with an empty body. -/
theorem brokenOff_isSuccess :
    let config : GatewayConfig :=
      ⟨"http://mgmt:7100", "http://coordinator:7001", "http://openai-api:7200", none⟩
    ¬Faithful (Answered listModelsStack config .openAi brokenOff listModels)
      (forwardResponse listModelsStack config .openAi brokenOff listModels) ∧
    (forwardResponse listModelsStack config .openAi brokenOff listModels).status = .ok := by
  intro config
  have hanswered : Answered listModelsStack config .openAi brokenOff listModels _ :=
    ⟨rfl, rfl, _, rfl, rfl⟩
  refine ⟨fun hfaithful => ?_, by rw [forwardResponse_of_answered hanswered]; rfl⟩
  obtain ⟨bytes, hbytes⟩ := (forwardResponse_faithful_iff ..).mp hfaithful _ hanswered
  cases hbytes

end GpuCluster.Gateway
