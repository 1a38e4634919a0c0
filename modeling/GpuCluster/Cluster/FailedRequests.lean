import GpuCluster.Cluster.Authorization
import GpuCluster.OpenaiApi.Chat

/-! # Failed requests in the inference log

The dispatcher reports what a worker answered, and the management backend takes
reports up to a size and stores the beginning of the message.
-/

namespace GpuCluster.Cluster

open Foundation Mgmt OpenaiApi

/-- The bytes that a handler takes of a JSON body. -/
def defaultBodyLimit : ℕ := 2097152

/-- `POST /api/v1/inference/log`; `none` for a body that is not passed to the handler. -/
def receiveLog (stack : WebStack) (table : List LogRow) (report : Json) : Option LogOutcome :=
  if (stack.writeJson report).length ≤ defaultBodyLimit then
    (LogRequest.decode report).map (log table)
  else none

/-- A report has its row. -/
def StoresReport (stack : WebStack) (table : List LogRow) (entry : LogRequest) (report : Json) :
    Prop :=
  ∃ errorMessage,
    receiveLog stack table report = some (.stored ({ entry with errorMessage } :: table)) ∧
    Option.Rel IsCutOf errorMessage entry.errorMessage

section

variable {stack : WebStack} {around : Surroundings} {headers : List (String × String)}
  {req report : Json}

/-- A report is a trace of the request, and is read so. -/
theorem decode_report (hreport : report ∈ (chatCompletions around headers req).logs) :
    ∃ trace : RequestTrace, report = trace.logBody around.elapsed ∧
      LogRequest.decode report = some (trace.logged around.elapsed) := by
  obtain ⟨trace, hrecords⟩ := chatCompletions_records around headers req
  rw [hrecords.logs, flushLog] at hreport
  split at hreport
  next =>
    obtain rfl := List.mem_singleton.mp hreport
    exact ⟨trace, rfl, trace.decode_logBody around.elapsed⟩
  next => cases hreport

theorem storesReport_iff {entry : LogRequest} (table : List LogRow)
    (hdecode : LogRequest.decode report = some entry) :
    StoresReport stack table entry report ↔
      (stack.writeJson report).length ≤ defaultBodyLimit ∧ Recordable entry := by
  rw [← records_iff_recordable table entry]
  unfold StoresReport receiveLog Mgmt.Records
  rw [hdecode]
  constructor
  · rintro ⟨errorMessage, hreceive, hcut⟩
    split at hreceive
    next hfits => exact ⟨hfits, errorMessage, Option.some.inj hreceive, hcut⟩
    next => cases hreceive
  · rintro ⟨hfits, errorMessage, hlog, hcut⟩
    rw [if_pos hfits]
    exact ⟨errorMessage, congrArg some hlog, hcut⟩

end

/-- A report is stored exactly when its message is short or can be cut at the cap,
and no text to store has a NUL. The reports of chat requests must fit the body limit
too. -/
theorem failures_logged_iff (table : List LogRow) (entry : LogRequest) (stack : WebStack)
    (around : Surroundings) (headers : List (String × String)) (req : Json) :
    (Mgmt.Records table entry ↔ Recordable entry) ∧
    ∀ report ∈ (chatCompletions around headers req).logs, ∃ reported,
      LogRequest.decode report = some reported ∧
      (StoresReport stack table reported report ↔
        (stack.writeJson report).length ≤ defaultBodyLimit ∧ Recordable reported) := by
  refine ⟨records_iff_recordable table entry, fun report hreport => ?_⟩
  obtain ⟨trace, -, hdecode⟩ := decode_report hreport
  exact ⟨_, hdecode, storesReport_iff table hdecode⟩

/-- A worker that answers with a body. -/
def stumbling (body : String) : Surroundings where
  eligible := .ok (.object [("count", .ofU64 1), ("nodes", .array [.object
    [("node_id", .string "node-1"), ("inference_url", .string "http://10.0.0.7:8080/")]])])
  worker _ _ := .response ⟨.serviceUnavailable, some body, .error "expected value"⟩
  mgmt := true
  elapsed := 3

def busyText : String :=
  "\x7b\"api_key_prefix\":null,\"completion_tokens\":null,\"endpoint\":\"chat.completions\"," ++
  "\"error_message\":\"worker http://10.0.0.7:8080/ returned 503: busy\"," ++
  "\"error_type\":\"worker_returned_error\",\"inference_url\":\"http://10.0.0.7:8080/\"," ++
  "\"latency_ms\":3,\"model\":\"auto\",\"node_id\":\"node-1\",\"prompt_tokens\":null," ++
  "\"request_id\":null,\"status_code\":503,\"total_tokens\":null\x7d"

/-- The report of that refusal is short and has no NUL. -/
theorem busy_recordable {report : Json} {entry : LogRequest}
    (hreport : report ∈ (chatCompletions (stumbling "busy") [] (.object [])).logs)
    (hdecode : LogRequest.decode report = some entry) : Recordable entry := by
  obtain rfl := List.mem_singleton.mp hreport
  obtain rfl := Option.some.inj (hdecode.symm.trans (RequestTrace.decode_logBody _ 3))
  refine ⟨?_, by decide, ?_⟩
  · rintro message ⟨⟩
    exact .inl (by decide)
  · rintro message ⟨⟩ before hbefore - hnul
    exact absurd (hbefore.subset hnul) (by decide)

/-- A worker that has no time, in one word. -/
theorem failures_logged_iff_busy :
    ∃ report ∈ (chatCompletions (stumbling "busy") [] (.object [])).logs, ∃ entry,
      LogRequest.decode report = some entry ∧
      StoresReport { plainStack with writeJson := fun _ => busyText.toUTF8.data.toList } [] entry
        report := by
  have hreport : _ ∈ (chatCompletions (stumbling "busy") [] (.object [])).logs :=
    List.mem_singleton_self _
  refine ⟨_, hreport, ?_⟩
  obtain ⟨entry, hdecode, hiff⟩ := (failures_logged_iff [] (RequestTrace.logged {} 3)
    { plainStack with writeJson := fun _ => busyText.toUTF8.data.toList } (stumbling "busy") []
    (.object [])).2 _ hreport
  exact ⟨entry, hdecode, hiff.mpr ⟨by decide +kernel, busy_recordable hreport hdecode⟩⟩

/-! ## A message that cannot be cut -/

/-- What is put before the body. -/
def stumblingStart : String := "worker http://10.0.0.7:8080/ returned 503: "

theorem stumbling_logs (body : String) :
    ∃ report ∈ (chatCompletions (stumbling body) [] (.object [])).logs, ∃ entry,
      LogRequest.decode report = some entry ∧
        entry.errorMessage = some (stumblingStart ++ body) := by
  refine ⟨_, List.mem_singleton_self _, _, RequestTrace.decode_logBody _ 3, ?_⟩
  have hstart : "worker " ++ "http://10.0.0.7:8080/" ++ " returned " ++ toString 503 ++ ": " =
      stumblingStart := by decide
  exact congrArg (fun start => some (start ++ body)) hstart

/-- An error page of a worker, cut between the bytes of a character. -/
theorem pageWithAccent_isNotLogged :
    ∃ report ∈ (chatCompletions (stumbling (.ofList (List.replicate 4052 'a' ++ ['é']))) []
        (.object [])).logs,
      ∃ entry, LogRequest.decode report = some entry ∧ log [] entry = .panicked := by
  obtain ⟨report, hreport, entry, hdecode, hmessage⟩ :=
    stumbling_logs (.ofList (List.replicate 4052 'a' ++ ['é']))
  refine ⟨report, hreport, entry, hdecode, ?_⟩
  have hsplit : stumblingStart ++ .ofList (List.replicate 4052 'a' ++ ['é']) =
      .ofList ((stumblingStart.toList ++ List.replicate 4052 'a') ++ 'é' :: []) := by
    rw [List.append_assoc]
    nth_rewrite 2 [String.ofList_append]
    rw [String.ofList_toList]
  have hbefore : (String.ofList (stumblingStart.toList ++ List.replicate 4052 'a')).utf8ByteSize
      = 4095 := by
    rw [String.ofList_append, String.utf8ByteSize_append, String.ofList_toList,
      utf8ByteSize_replicate]
    decide
  have haccent : (String.ofList ['é']).utf8ByteSize = 2 := by decide
  rw [hsplit] at hmessage
  refine log_eq_panicked [] hmessage ?_ (isCharBoundary_eq_false ?_ ?_)
  · rw [String.ofList_append, String.utf8ByteSize_append, hbefore, haccent]
    decide
  · rw [hbefore]
    decide
  · rw [hbefore]
    decide

end GpuCluster.Cluster
