import GpuCluster.OpenaiApi.RequestLog

/-! # Answering chat requests

A request is answered with one JSON document or with a stream of events. The two
handlers share `dispatch` and forward, map failures and log on their own.
-/

namespace GpuCluster.OpenaiApi

open Foundation Mgmt
open Coordinator (ClientOutcome)

/-! ## Calling a worker -/

/-- A worker's answer. Its body is read as text or parsed, and both may fail. -/
structure WorkerResponse where
  status : HttpStatus
  text : Option String
  json : Except String Json

inductive WorkerOutcome
  | transport (message : String)
  | response (response : WorkerResponse)

inductive ClientError
  | transport (message : String)
  | upstream (status : ℕ) (body : String)
  | decode (message : String)

def decodeOrUpstream (resp : WorkerResponse) : Except ClientError Json :=
  if resp.status.isSuccess then resp.json.mapError .decode
  else .error (.upstream resp.status.code (resp.text.getD ""))

/-- The URL of `WorkerClient::chat_completions`. -/
def workerClientUrl (inferenceUrl : String) : String :=
  trimEnd '/' inferenceUrl ++ "/v1/chat/completions"

/-- What a handler sees of the other services, and the time it took. -/
structure Surroundings where
  eligible : ClientOutcome
  worker : String → Json → WorkerOutcome
  mgmt : Bool
  elapsed : ℕ

def jsonPost (around : Surroundings) (url : String) (body : Json) : Except ClientError Json :=
  match around.worker url body with
  | .transport message => .error (.transport message)
  | .response resp => decodeOrUpstream resp

/-! ## Answers -/

inductive Sent
  | worker (url : String) (body : Json)
  | log (body : Json)

inductive ReplyBody
  | json (body : Json)
  | events (headers : List (String × String))
  | text (body : String)

structure Reply where
  status : HttpStatus
  body : ReplyBody

/-- What a handler sends before it returns its answer. -/
structure Handled where
  sent : List Sent
  reply : Reply

def flushLog (around : Surroundings) (trace : RequestTrace) : List Sent :=
  if around.mgmt then [.log (trace.logBody around.elapsed)] else []

/-! ## One document -/

def jsonFailurePayload (trace : RequestTrace) :
    DispatchFailure → HttpStatus × String × String × Json
  | .coordError status body =>
      (.badGateway, "coordinator_error", s!"coordinator returned {status}: {body}",
        .object [("error", .object
          [("type", .string "coordinator_error"), ("status", .ofU32 status.toUInt32)])])
  | .coordUnreachable message =>
      (.badGateway, "coordinator_unreachable", message,
        .object [("error", .object
          [("type", .string "coordinator_unreachable"), ("message", .string message)])])
  | .noEligibleNodes =>
      (.serviceUnavailable, "no_eligible_nodes",
        "no worker is currently online with a usable GPU",
        .object [("error", .object
          [("type", .string "no_eligible_nodes"),
            ("message", .string "no worker is currently online with a usable GPU"),
            ("request_model", .string trace.model)])])
  | .noInferenceEndpoint chosen =>
      (.notImplemented, "no_inference_endpoint", "a worker is online but no model is loaded",
        .object [("error", .object
          [("type", .string "no_inference_endpoint"),
            ("message", .string
              "a worker is online but no model is loaded — load a model from the admin UI"),
            ("phase", .string "2-dispatcher"), ("request_model", .string trace.model),
            ("chosen_worker", chosen)])])

/-- The status a worker's error is passed on with, from its number. -/
def jsonClientStatus (status : ℕ) : HttpStatus :=
  if 500 ≤ status ∧ status < 600 then .badGateway
  else (HttpStatus.fromCode status).getD .badGateway

def finalizeError (around : Surroundings) (sent : List Sent) (trace : RequestTrace)
    (status : HttpStatus) (errorType errorMessage : String) (body : Json) : Handled where
  sent := sent ++ flushLog around (trace.fail status errorType errorMessage)
  reply := ⟨status, .json body⟩

def forwardChatToWorker (around : Surroundings) (inferenceUrl : String) (req : Json)
    (trace : RequestTrace) : Handled :=
  let sent := [Sent.worker (workerClientUrl inferenceUrl) req]
  match jsonPost around (workerClientUrl inferenceUrl) req with
  | .ok parsed => ⟨sent ++ flushLog around (trace.count parsed).succeed, ⟨.ok, .json parsed⟩⟩
  | .error (.upstream status body) =>
      finalizeError around sent trace (jsonClientStatus status) "worker_returned_error"
        s!"worker {inferenceUrl} returned {status}: {body}"
        (.object [("error", .object
          [("type", .string "worker_returned_error"), ("upstream_status", .ofU64 (.ofNat status)),
            ("upstream_body", .string body)])])
  | .error (.decode message) =>
      finalizeError around sent trace .badGateway "worker_response_parse_error" message
        (.object [("error", .object
          [("type", .string "worker_response_parse_error"), ("message", .string message)])])
  | .error (.transport message) =>
      finalizeError around sent trace .badGateway "worker_unreachable" message
        (.object [("error", .object
          [("type", .string "worker_unreachable"), ("upstream", .string inferenceUrl),
            ("message", .string message)])])

def chatCompletionsJson (around : Surroundings) (headers : List (String × String)) (req : Json) :
    Handled :=
  let dispatched := dispatch around.eligible
  let trace := (populateTrace headers req).note dispatched.1
  match dispatched.2 with
  | .ok inferenceUrl => forwardChatToWorker around inferenceUrl req trace
  | .error failure =>
      let payload := jsonFailurePayload trace failure
      finalizeError around [] trace payload.1 payload.2.1 payload.2.2.1 payload.2.2.2

/-! ## A stream of events -/

def streamFailurePayload : DispatchFailure → HttpStatus × String × String
  | .coordError status body =>
      (.badGateway, "coordinator_error", s!"coordinator returned {status}: {body}")
  | .coordUnreachable message => (.badGateway, "coordinator_unreachable", message)
  | .noEligibleNodes =>
      (.serviceUnavailable, "no_eligible_nodes", "no worker is currently online with a usable GPU")
  | .noInferenceEndpoint _ =>
      (.notImplemented, "no_inference_endpoint", "a worker is online but no model is loaded")

def streamClientStatus (status : HttpStatus) : HttpStatus :=
  if status.isServerError then .badGateway
  else (HttpStatus.fromCode status.code).getD .badGateway

def streamError (around : Surroundings) (sent : List Sent) (trace : RequestTrace)
    (status : HttpStatus) (errorType errorMessage : String) : Handled where
  sent := sent ++ flushLog around (trace.fail status errorType errorMessage)
  reply := ⟨status, .json (.object [("error", .object
    [("type", .string errorType), ("message", .string errorMessage)])])⟩

def streamHeaders : List (String × String) := [
  ("content-type", "text/event-stream; charset=utf-8"),
  ("cache-control", "no-cache, no-transform"),
  ("connection", "keep-alive"),
  ("x-accel-buffering", "no")]

/-- `Response::builder`, which refuses a header whose name or value has a
character that headers do not allow. -/
def eventReply (headers : List (String × String)) : Reply :=
  if headers.all fun header =>
      header.1.toList.all (fun c => c.isLower || c = '-') && (headerText header.2).isSome then
    ⟨.ok, .events headers⟩
  else ⟨.internalServerError, .text "stream init failed"⟩

def chatCompletionsStream (around : Surroundings) (headers : List (String × String))
    (req : Json) : Handled :=
  let dispatched := dispatch around.eligible
  let trace := (populateTrace headers req).note dispatched.1
  match dispatched.2 with
  | .error failure =>
      let payload := streamFailurePayload failure
      streamError around [] trace payload.1 payload.2.1 payload.2.2
  | .ok inferenceUrl =>
      let upstream := trimEnd '/' inferenceUrl ++ "/v1/chat/completions"
      let sent := [Sent.worker upstream req]
      match around.worker upstream req with
      | .transport message =>
          streamError around sent trace .badGateway "worker_unreachable" message
      | .response resp =>
          if resp.status.isSuccess then
            ⟨sent ++ flushLog around trace.succeed, eventReply streamHeaders⟩
          else
            let body := resp.text.getD ""
            streamError around sent trace (streamClientStatus resp.status) "worker_returned_error"
              s!"worker {inferenceUrl} returned {resp.status.code}: {body}"

def wantsStream (req : Json) : Bool := ((req.get? "stream").bind Json.asBool?).getD false

def chatCompletions (around : Surroundings) (headers : List (String × String)) (req : Json) :
    Handled :=
  if wantsStream req then chatCompletionsStream around headers req
  else chatCompletionsJson around headers req

/-! ## Routes -/

inductive OpenaiHandler
  | health
  | listModels
  | chatCompletions
  deriving DecidableEq

def openaiRoutes : List (Route OpenaiHandler) := [
  ⟨"/health", .only "GET", .health⟩,
  ⟨"/v1/models", .only "GET", .listModels⟩,
  ⟨"/v1/chat/completions", .only "POST", .chatCompletions⟩]

/-- The chat request that a request is, if its body is JSON. -/
def chatRun (stack : WebStack) (around : Surroundings) (req : HttpRequest) : Option Handled :=
  match handlerFor stack openaiRoutes req with
  | some (.chatCompletions, _) =>
      (stack.jsonBody req).map fun body => chatCompletions around req.headers body
  | _ => none

/-! ## The log of an answer -/

def Sent.log? : Sent → Option Json
  | .worker _ _ => none
  | .log body => some body

def Sent.worker? : Sent → Option String
  | .worker url _ => some url
  | .log _ => none

/-- The log bodies sent. -/
def Handled.logs (handled : Handled) : List Json := handled.sent.filterMap Sent.log?

/-- The workers' URLs contacted. -/
def Handled.contacted (handled : Handled) : List String := handled.sent.filterMap Sent.worker?

/-- The trace that is logged agrees with the request, the choice and the answer. -/
structure Records (around : Surroundings) (start : RequestTrace) (choice : Trace)
    (trace : RequestTrace) (handled : Handled) : Prop where
  logs : handled.logs = (flushLog around trace).filterMap Sent.log?
  requestId : trace.requestId = start.requestId
  status : trace.statusCode.toInt = handled.reply.status.code
  error : trace.errorType = none ↔ handled.reply.status.code = 200
  nodeId : trace.nodeId = choice.nodeId
  inferenceUrl : trace.inferenceUrl = choice.inferenceUrl

theorem toInt_ofNat_code (status : HttpStatus) :
    (Int32.ofNat status.code).toInt = status.code := by
  have hcode := status.valid
  rw [Int32.toInt_ofNat_of_lt (by omega)]

theorem contacted_flushLog (around : Surroundings) (trace : RequestTrace) :
    (flushLog around trace).filterMap Sent.worker? = [] := by
  unfold flushLog
  split <;> rfl

section Records

variable {around : Surroundings} {choice : Trace} {trace : RequestTrace} {sent : List Sent}

theorem records_fail {status : HttpStatus} {errorType errorMessage : String} {body : ReplyBody}
    (hsent : sent.filterMap Sent.log? = []) (hstatus : status.code ≠ 200) :
    Records around trace choice ((trace.note choice).fail status errorType errorMessage)
      ⟨sent ++ flushLog around ((trace.note choice).fail status errorType errorMessage),
        ⟨status, body⟩⟩ where
  logs := by rw [Handled.logs, List.filterMap_append, hsent, List.nil_append]
  requestId := rfl
  status := toInt_ofNat_code status
  error := ⟨fun h => (by cases h), fun h => absurd h hstatus⟩
  nodeId := rfl
  inferenceUrl := rfl

theorem RequestTrace.note_count (trace : RequestTrace) (choice : Trace) (parsed : Json) :
    (trace.note choice).count parsed = (trace.count parsed).note choice := by
  unfold count
  cases parsed.get? "usage" with
  | none => rfl
  | some usage => rfl

/-- Counting leaves the rest of the trace. -/
theorem RequestTrace.count_eq (trace : RequestTrace) (parsed : Json) :
    (trace.count parsed).errorType = trace.errorType ∧
      (trace.count parsed).requestId = trace.requestId := by
  unfold count
  cases parsed.get? "usage" with
  | none => exact ⟨rfl, rfl⟩
  | some usage => exact ⟨rfl, rfl⟩

theorem records_succeed {start : RequestTrace} {body : ReplyBody}
    (hsent : sent.filterMap Sent.log? = []) (herror : trace.errorType = none)
    (hid : trace.requestId = start.requestId) :
    Records around start choice (trace.note choice).succeed
      ⟨sent ++ flushLog around (trace.note choice).succeed, ⟨.ok, body⟩⟩ where
  logs := by rw [Handled.logs, List.filterMap_append, hsent, List.nil_append]
  requestId := hid
  status := toInt_ofNat_code .ok
  error := ⟨fun _ => rfl, fun _ => herror⟩
  nodeId := rfl
  inferenceUrl := rfl

end Records

theorem jsonClientStatus_eq (status : HttpStatus) :
    jsonClientStatus status.code = streamClientStatus status := by
  simp [jsonClientStatus, streamClientStatus, HttpStatus.isServerError]

/-- Errors are never passed on as `200`. -/
theorem streamClientStatus_ne {status : HttpStatus} (hfail : status.isSuccess = false) :
    (streamClientStatus status).code ≠ 200 := by
  unfold streamClientStatus
  split
  next => decide
  next =>
    rw [HttpStatus.fromCode_code]
    intro hcode
    change status.code = 200 at hcode
    simp [HttpStatus.isSuccess, hcode] at hfail

theorem streamFailurePayload_ne (failure : DispatchFailure) :
    (streamFailurePayload failure).1.code ≠ 200 := by
  cases failure with
  | coordError | coordUnreachable => exact (by decide : HttpStatus.badGateway.code ≠ 200)
  | noEligibleNodes => decide
  | noInferenceEndpoint => exact (by decide : HttpStatus.notImplemented.code ≠ 200)

/-- The two mappings agree but for the body of the answer, whose error type they name. -/
theorem jsonFailurePayload_eq (trace : RequestTrace) (failure : DispatchFailure) :
    ∃ details, jsonFailurePayload trace failure =
      ((streamFailurePayload failure).1, (streamFailurePayload failure).2.1,
        (streamFailurePayload failure).2.2, .object [("error", .object
          (("type", .string (streamFailurePayload failure).2.1) :: details))]) := by
  cases failure <;> exact ⟨_, rfl⟩

theorem eventReply_streamHeaders : eventReply streamHeaders = ⟨.ok, .events streamHeaders⟩ :=
  if_pos (by decide)

section Handlers

variable (around : Surroundings) (headers : List (String × String)) (req : Json)

theorem forwardChatToWorker_records (inferenceUrl : String) (trace : RequestTrace)
    (choice : Trace) (herror : trace.errorType = none) :
    ∃ logged, Records around trace choice logged
      (forwardChatToWorker around inferenceUrl req (trace.note choice)) := by
  unfold forwardChatToWorker
  cases hpost : jsonPost around (workerClientUrl inferenceUrl) req with
  | ok parsed =>
      simp only [RequestTrace.note_count]
      obtain ⟨hkept, hid⟩ := trace.count_eq parsed
      exact ⟨_, records_succeed rfl (hkept.trans herror) hid⟩
  | error error =>
      cases error with
      | transport message => exact ⟨_, records_fail rfl (by decide)⟩
      | decode message => exact ⟨_, records_fail rfl (by decide)⟩
      | upstream status body =>
          refine ⟨_, records_fail rfl ?_⟩
          unfold jsonPost at hpost
          split at hpost
          next => cases hpost
          next resp _ =>
            unfold decodeOrUpstream at hpost
            split at hpost
            next =>
              cases hjson : resp.json with
              | ok parsed =>
                  rw [hjson] at hpost
                  cases hpost
              | error message =>
                  rw [hjson] at hpost
                  cases hpost
            next hfail =>
              cases hpost
              rw [jsonClientStatus_eq]
              exact streamClientStatus_ne (Bool.eq_false_iff.mpr hfail)

theorem chatCompletionsJson_records :
    ∃ trace, Records around (populateTrace headers req) (dispatch around.eligible).1 trace
      (chatCompletionsJson around headers req) := by
  unfold chatCompletionsJson
  dsimp only
  cases hdispatch : (dispatch around.eligible).2 with
  | ok inferenceUrl =>
      exact forwardChatToWorker_records around req inferenceUrl (populateTrace headers req) _ rfl
  | error failure =>
      obtain ⟨details, hpayload⟩ := jsonFailurePayload_eq
        ((populateTrace headers req).note (dispatch around.eligible).1) failure
      simp only [hpayload]
      exact ⟨_, records_fail rfl (streamFailurePayload_ne failure)⟩

theorem chatCompletionsStream_records :
    ∃ trace, Records around (populateTrace headers req) (dispatch around.eligible).1 trace
      (chatCompletionsStream around headers req) := by
  have hgateway : HttpStatus.badGateway.code ≠ 200 := by decide
  unfold chatCompletionsStream
  dsimp only
  cases hdispatch : (dispatch around.eligible).2 with
  | error failure => exact ⟨_, records_fail rfl (streamFailurePayload_ne failure)⟩
  | ok inferenceUrl =>
      dsimp only
      cases around.worker (trimEnd '/' inferenceUrl ++ "/v1/chat/completions") req with
      | transport message => exact ⟨_, records_fail rfl hgateway⟩
      | response resp =>
          dsimp only
          split
          next =>
            rw [eventReply_streamHeaders]
            exact ⟨_, records_succeed rfl rfl rfl⟩
          next hfail =>
            exact ⟨_, records_fail rfl (streamClientStatus_ne (Bool.eq_false_iff.mpr hfail))⟩

theorem chatCompletions_records :
    ∃ trace, Records around (populateTrace headers req) (dispatch around.eligible).1 trace
      (chatCompletions around headers req) := by
  unfold chatCompletions
  split
  next => exact chatCompletionsStream_records around headers req
  next => exact chatCompletionsJson_records around headers req

end Handlers

/-- Every request is logged once, with the answer's status, an error type unless
that is `200` and the worker that was chosen, and the backend reads the entry so. -/
theorem chatCompletions_logged (around : Surroundings) (hmgmt : around.mgmt = true)
    (headers : List (String × String)) (req : Json) :
    let handled := chatCompletions around headers req
    let choice := (dispatch around.eligible).1
    ∃ trace : RequestTrace, handled.logs = [trace.logBody around.elapsed] ∧
      LogRequest.decode (trace.logBody around.elapsed) = some (trace.logged around.elapsed) ∧
      trace.statusCode.toInt = handled.reply.status.code ∧
      (trace.errorType = none ↔ handled.reply.status.code = 200) ∧
      trace.nodeId = choice.nodeId ∧ trace.inferenceUrl = choice.inferenceUrl := by
  obtain ⟨trace, hrecords⟩ := chatCompletions_records around headers req
  refine ⟨trace, ?_, trace.decode_logBody around.elapsed, hrecords.status, hrecords.error,
    hrecords.nodeId, hrecords.inferenceUrl⟩
  rw [hrecords.logs, flushLog, if_pos hmgmt]
  rfl

/-- A cluster without nodes. -/
def deserted : Surroundings where
  eligible := .ok (.object [("count", .ofU64 0), ("nodes", .array [])])
  worker _ _ := .transport "connection refused"
  mgmt := true
  elapsed := 3

theorem deserted_isLogged :
    ∃ trace : RequestTrace,
      (chatCompletions deserted [] (.object [("stream", .bool true)])).logs = [trace.logBody 3] ∧
        trace.statusCode = 503 := by
  obtain ⟨trace, hlogs, -, hstatus, -⟩ :=
    chatCompletions_logged deserted rfl [] (.object [("stream", .bool true)])
  refine ⟨trace, hlogs, Int32.toInt.inj ?_⟩
  rw [hstatus]
  rfl

/-! ## The two handlers compared -/

/-- The error type an answer names. -/
def Reply.errorType (reply : Reply) : Option String :=
  match reply.body with
  | .json body => (body.get? "error").bind fun error => error.str? "type"
  | _ => none

/-- What a failed request shows to the worker, to the client and in the log. -/
structure SameFailure (first second : Handled) : Prop where
  contacted : first.contacted = second.contacted
  status : first.reply.status = second.reply.status
  errorType : ∃ errorType, first.reply.errorType = some errorType ∧
    second.reply.errorType = some errorType
  logs : List.Forall₂ (fun left right => ∀ key ∈ ["error_type", "error_message", "node_id",
    "inference_url", "status_code"], left.get? key = right.get? key) first.logs second.logs

theorem sameFailure_of {around : Surroundings} {elapsed : ℕ} {sent : List Sent}
    {trace : RequestTrace} {status : HttpStatus} {errorType errorMessage : String}
    {first second : Json}
    (hfirst : (first.get? "error").bind (fun error => error.str? "type") = some errorType)
    (hsecond : (second.get? "error").bind (fun error => error.str? "type") = some errorType)
    (hsent : sent.filterMap Sent.log? = []) :
    SameFailure
      ⟨sent ++ flushLog around (trace.fail status errorType errorMessage), ⟨status, .json first⟩⟩
      ⟨sent ++ flushLog { around with elapsed } (trace.fail status errorType errorMessage),
        ⟨status, .json second⟩⟩ where
  contacted := by
    simp only [Handled.contacted, List.filterMap_append, contacted_flushLog]
  status := rfl
  errorType := ⟨errorType, hfirst, hsecond⟩
  logs := by
    simp only [Handled.logs, List.filterMap_append, hsent, List.nil_append, flushLog]
    cases around.mgmt with
    | false => exact .nil
    | true =>
        refine .cons ?_ .nil
        intro key hkey
        apply RequestTrace.get?_logBody
        intro hlatency
        subst hlatency
        simp at hkey

/-- Both handlers contact the same worker and fail alike. -/
theorem sameFailure_json_stream (around : Surroundings) (elapsed : ℕ)
    (headers : List (String × String)) (req : Json)
    (hfails : ∀ inferenceUrl, (dispatch around.eligible).2 = .ok inferenceUrl → ∀ resp,
      around.worker (workerClientUrl inferenceUrl) req = .response resp →
        resp.status.isSuccess = false) :
    SameFailure (chatCompletionsJson around headers req)
      (chatCompletionsStream { around with elapsed } headers req) := by
  unfold chatCompletionsJson chatCompletionsStream
  dsimp only
  cases hdispatch : (dispatch around.eligible).2 with
  | error failure =>
      obtain ⟨details, hpayload⟩ := jsonFailurePayload_eq
        ((populateTrace headers req).note (dispatch around.eligible).1) failure
      simp only [hpayload]
      exact sameFailure_of rfl rfl rfl
  | ok inferenceUrl =>
      have hfail := hfails inferenceUrl hdispatch
      simp only [forwardChatToWorker, jsonPost, workerClientUrl] at hfail ⊢
      cases houtcome : around.worker (trimEnd '/' inferenceUrl ++ "/v1/chat/completions") req with
      | transport message => exact sameFailure_of rfl rfl rfl
      | response resp =>
          have hstatus := hfail resp houtcome
          simp only [decodeOrUpstream, hstatus, Bool.false_eq_true, if_false,
            jsonClientStatus_eq]
          exact sameFailure_of rfl rfl rfl

/-- A cluster whose worker has no time. -/
def crowded : Surroundings where
  eligible := .ok (.object [("count", .ofU64 1), ("nodes", .array [.object
    [("node_id", .string "node-1"), ("inference_url", .string "http://10.0.0.7:8080/")]])])
  worker _ _ := .response ⟨⟨429, by decide⟩, some "busy", .error "expected value"⟩
  mgmt := true
  elapsed := 3

theorem crowded_failsAlike :
    SameFailure (chatCompletionsJson crowded [] (.object []))
      (chatCompletionsStream { crowded with elapsed := 9 } [] (.object [])) ∧
    (chatCompletionsJson crowded [] (.object [])).contacted =
      ["http://10.0.0.7:8080/v1/chat/completions"] := by
  refine ⟨sameFailure_json_stream crowded 9 [] (.object []) ?_, by decide⟩
  intro inferenceUrl _ resp hresp
  cases hresp
  rfl

end GpuCluster.OpenaiApi
