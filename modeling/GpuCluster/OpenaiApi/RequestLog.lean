import GpuCluster.Foundation.Http
import GpuCluster.Mgmt.InferenceLog
import GpuCluster.OpenaiApi.Dispatch

/-! # The log entry of a request

A request fills a trace on its way, and every way out of the handlers writes the
trace to the log of the management backend.
-/

namespace GpuCluster.OpenaiApi

open Foundation Mgmt

structure RequestTrace where
  requestId : Option String := none
  apiKeyPrefix : Option String := none
  model : String := ""
  nodeId : Option String := none
  inferenceUrl : Option String := none
  promptTokens : Option Int32 := none
  completionTokens : Option Int32 := none
  totalTokens : Option Int32 := none
  statusCode : Int32 := 0
  errorType : Option String := none
  errorMessage : Option String := none

/-- The trace at the start of a request. -/
def populateTrace (headers : List (String × String)) (req : Json) : RequestTrace where
  requestId := (headers.lookup "x-request-id").bind headerText
  apiKeyPrefix := (((((headers.lookup "authorization").bind headerText).bind
    (stripPrefix? "Bearer ")).map (takeChars 12))).filter fun token =>
      (stripPrefix? "mgc_" token).isSome
  model := (req.str? "model").getD "auto"

namespace RequestTrace

/-- What `dispatch` adds. -/
def note (trace : RequestTrace) (choice : Trace) : RequestTrace :=
  { trace with nodeId := choice.nodeId, inferenceUrl := choice.inferenceUrl }

/-- The token counts of a worker's answer. -/
def count (trace : RequestTrace) (parsed : Json) : RequestTrace :=
  match parsed.get? "usage" with
  | none => trace
  | some usage =>
      let tokens (name : String) : Option Int32 :=
        ((usage.get? name).bind Json.asI64?).map Int64.toInt32
      { trace with
        promptTokens := tokens "prompt_tokens"
        completionTokens := tokens "completion_tokens"
        totalTokens := tokens "total_tokens" }

def succeed (trace : RequestTrace) : RequestTrace := { trace with statusCode := 200 }

def fail (trace : RequestTrace) (status : HttpStatus) (errorType errorMessage : String) :
    RequestTrace :=
  { trace with
    statusCode := .ofNat status.code
    errorType := some errorType
    errorMessage := some errorMessage }

/-- Milliseconds, capped. -/
def latencyMs (elapsed : ℕ) : Int32 := .ofNat (min elapsed (2 ^ 31 - 1))

/-- The body that `flush_log` sends. -/
def logBody (trace : RequestTrace) (elapsed : ℕ) : Json := .object
  [("request_id", .ofOption .string trace.requestId),
    ("endpoint", .string "chat.completions"),
    ("model", .string trace.model),
    ("node_id", .ofOption .string trace.nodeId),
    ("inference_url", .ofOption .string trace.inferenceUrl),
    ("api_key_prefix", .ofOption .string trace.apiKeyPrefix),
    ("prompt_tokens", .ofOption .ofI32 trace.promptTokens),
    ("completion_tokens", .ofOption .ofI32 trace.completionTokens),
    ("total_tokens", .ofOption .ofI32 trace.totalTokens),
    ("latency_ms", .ofI32 (latencyMs elapsed)),
    ("status_code", .ofI32 trace.statusCode),
    ("error_type", .ofOption .string trace.errorType),
    ("error_message", .ofOption .string trace.errorMessage)]

/-- The entry with the trace's values. -/
def logged (trace : RequestTrace) (elapsed : ℕ) : LogRequest where
  requestId := trace.requestId
  endpoint := "chat.completions"
  model := trace.model
  nodeId := trace.nodeId
  inferenceUrl := trace.inferenceUrl
  apiKeyPrefix := trace.apiKeyPrefix
  promptTokens := trace.promptTokens
  completionTokens := trace.completionTokens
  totalTokens := trace.totalTokens
  latencyMs := some (latencyMs elapsed)
  statusCode := trace.statusCode
  errorType := trace.errorType
  errorMessage := trace.errorMessage

/-- The backend reads every value as it was written. -/
theorem decode_logBody (trace : RequestTrace) (elapsed : ℕ) :
    LogRequest.decode (trace.logBody elapsed) = some (trace.logged elapsed) := by
  have htext : ∀ value : Option String, Decoder.orDefault none (Decoder.option Decoder.string)
      (some (.ofOption .string value)) = some value := fun value => Decoder.orDefault_ofOption rfl
  have hlatency : Decoder.orDefault none (Decoder.option Decoder.i32)
      (some (.ofI32 (latencyMs elapsed))) = some (some (latencyMs elapsed)) :=
    Decoder.orDefault_ofOption_i32 (some _)
  change (do
    let requestId ← Decoder.orDefault none (Decoder.option Decoder.string)
      (some (.ofOption .string trace.requestId))
    let nodeId ← Decoder.orDefault none (Decoder.option Decoder.string)
      (some (.ofOption .string trace.nodeId))
    let inferenceUrl ← Decoder.orDefault none (Decoder.option Decoder.string)
      (some (.ofOption .string trace.inferenceUrl))
    let apiKeyPrefix ← Decoder.orDefault none (Decoder.option Decoder.string)
      (some (.ofOption .string trace.apiKeyPrefix))
    let promptTokens ← Decoder.orDefault none (Decoder.option Decoder.i32)
      (some (.ofOption .ofI32 trace.promptTokens))
    let completionTokens ← Decoder.orDefault none (Decoder.option Decoder.i32)
      (some (.ofOption .ofI32 trace.completionTokens))
    let totalTokens ← Decoder.orDefault none (Decoder.option Decoder.i32)
      (some (.ofOption .ofI32 trace.totalTokens))
    let latency ← Decoder.orDefault none (Decoder.option Decoder.i32)
      (some (.ofI32 (latencyMs elapsed)))
    let statusCode ← Decoder.i32 (.ofI32 trace.statusCode)
    let errorType ← Decoder.orDefault none (Decoder.option Decoder.string)
      (some (.ofOption .string trace.errorType))
    let errorMessage ← Decoder.orDefault none (Decoder.option Decoder.string)
      (some (.ofOption .string trace.errorMessage))
    some (LogRequest.mk requestId "chat.completions" trace.model nodeId inferenceUrl apiKeyPrefix
      promptTokens completionTokens totalTokens latency statusCode errorType errorMessage)) = _
  simp only [htext, hlatency, Decoder.orDefault_ofOption_i32, Decoder.i32_ofI32,
    Option.bind_eq_bind, Option.bind_some]
  rfl

theorem str?_logBody_requestId (trace : RequestTrace) (elapsed : ℕ) :
    (trace.logBody elapsed).str? "request_id" = trace.requestId := by
  simp only [logBody, Json.str?, Json.get?, List.lookup_cons_self, Option.bind_some]
  cases trace.requestId <;> rfl

/-- Bodies of one trace differ in the time only. -/
theorem get?_logBody {key : String} (hkey : key ≠ "latency_ms") (trace : RequestTrace)
    (elapsed elapsed' : ℕ) :
    (trace.logBody elapsed).get? key = (trace.logBody elapsed').get? key := by
  have hne : (key == "latency_ms") = false := beq_false_of_ne hkey
  simp only [logBody, Json.get?, List.lookup_cons, hne]

end RequestTrace

end GpuCluster.OpenaiApi
