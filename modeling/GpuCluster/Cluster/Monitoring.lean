import GpuCluster.Cluster.FailedRequests
import GpuCluster.Foundation.Machine
import GpuCluster.Mgmt.RecentLog

/-! # What the log shows of the requests served

The dispatcher answers a customer and reports the request, and the report may be
lost on its way. An admin reads the reports back, the failures apart from the
successes.
-/

namespace GpuCluster.Cluster

open Foundation Mgmt OpenaiApi

/-- A chat request with what the dispatcher saw of the other services. `delivered`
tells that its report reached the management backend, which stored it under `id`
at `now`. -/
structure Served where
  around : Surroundings
  headers : List (String × String)
  req : Json
  delivered : Bool
  id : String
  now : ℤ

namespace Served

def handled (chat : Served) : Handled := chatCompletions chat.around chat.headers chat.req

/-- The customer's status. -/
def status (chat : Served) : ℕ := chat.handled.reply.status.code

/-- The rows that are stored for a request. -/
def rows (stack : WebStack) (chat : Served) : List StoredLog :=
  if chat.delivered then
    chat.handled.logs.flatMap fun report =>
      match receiveLog stack [] report with
      | some (.stored rows) => rows.map fun row => ⟨chat.id, row, chat.now⟩
      | _ => []
  else []

/-- A stored row tells what the customer was answered and who was to serve. -/
structure Shows (chat : Served) (stored : StoredLog) : Prop where
  id : stored.id = chat.id
  createdAt : stored.createdAt = chat.now
  status : stored.row.statusCode.toInt = chat.status
  error : stored.row.errorType = none ↔ chat.status = 200
  nodeId : stored.row.nodeId = (dispatch chat.around.eligible).1.nodeId

/-- The report arrives, fits the body limit and can be stored. -/
structure Arrives (stack : WebStack) (chat : Served) : Prop where
  delivered : chat.delivered = true
  mgmt : chat.around.mgmt = true
  fits : ∀ report ∈ chat.handled.logs, (stack.writeJson report).length ≤ defaultBodyLimit
  recordable : ∀ report ∈ chat.handled.logs, ∀ entry, LogRequest.decode report = some entry →
    Recordable entry

end Served

/-- The log and the requests behind it, newest first. -/
structure Monitored where
  table : List StoredLog
  served : List Served

def monitoring (stack : WebStack) : Machine Monitored Served where
  init s := s = ⟨[], []⟩
  step s chat := some ⟨chat.rows stack ++ s.table, chat :: s.served⟩

/-! ## One request -/

section Request

variable {stack : WebStack} {chat : Served}

/-- The one report of a request. -/
theorem Served.logs_eq (chat : Served) : ∃ trace : RequestTrace,
    chat.handled.logs =
      (if chat.around.mgmt then [trace.logBody chat.around.elapsed] else []) ∧
    trace.statusCode.toInt = chat.status ∧ (trace.errorType = none ↔ chat.status = 200) ∧
    trace.nodeId = (dispatch chat.around.eligible).1.nodeId := by
  obtain ⟨trace, hrecords⟩ := chatCompletions_records chat.around chat.headers chat.req
  refine ⟨trace, ?_, hrecords.status, hrecords.error, hrecords.nodeId⟩
  rw [Served.handled, hrecords.logs, flushLog]
  split <;> rfl

theorem receiveLog_stored {report : Json} {entry : LogRequest}
    (hdecode : LogRequest.decode report = some entry) {rows : List LogRow}
    (hreceive : receiveLog stack [] report = some (.stored rows)) :
    ∃ errorMessage, rows = [{ entry with errorMessage }] := by
  unfold receiveLog at hreceive
  split at hreceive
  next =>
    rw [hdecode, Option.map_some, Option.some.injEq] at hreceive
    unfold Mgmt.log at hreceive
    split at hreceive
    next => cases hreceive
    next errorMessage _ =>
      dsimp only at hreceive
      split at hreceive
      next =>
        cases hreceive
        exact ⟨errorMessage, rfl⟩
      next => cases hreceive
  next => cases hreceive

/-- Every row that a request leaves behind shows it. -/
theorem Served.shows_of_mem {stored : StoredLog} (hstored : stored ∈ chat.rows stack) :
    chat.Shows stored := by
  obtain ⟨trace, hlogs, hstatus, herror, hnode⟩ := chat.logs_eq
  unfold Served.rows at hstored
  split at hstored
  next =>
    obtain ⟨report, hreport, hmem⟩ := List.mem_flatMap.mp hstored
    have hbody : report = trace.logBody chat.around.elapsed := by
      rw [hlogs] at hreport
      split at hreport
      next => exact List.mem_singleton.mp hreport
      next => cases hreport
    subst hbody
    split at hmem
    next rows hreceive =>
      obtain ⟨errorMessage, rfl⟩ := receiveLog_stored (trace.decode_logBody _) hreceive
      obtain rfl := List.mem_singleton.mp hmem
      exact ⟨rfl, rfl, hstatus, herror, hnode⟩
    next => cases hmem
  next => cases hstored

/-- A report that arrives leaves a row. -/
theorem Served.Arrives.exists_row (harrives : chat.Arrives stack) :
    ∃ stored, stored ∈ chat.rows stack := by
  obtain ⟨trace, hlogs, -⟩ := chat.logs_eq
  rw [if_pos harrives.mgmt] at hlogs
  have hreport : trace.logBody chat.around.elapsed ∈ chat.handled.logs := by
    rw [hlogs]
    exact List.mem_singleton_self _
  have hdecode := trace.decode_logBody chat.around.elapsed
  obtain ⟨errorMessage, hreceive, -⟩ := (storesReport_iff [] hdecode).mpr
    ⟨harrives.fits _ hreport, harrives.recordable _ hreport _ hdecode⟩
  refine ⟨⟨chat.id, { trace.logged chat.around.elapsed with errorMessage }, chat.now⟩, ?_⟩
  rw [Served.rows, if_pos harrives.delivered, List.mem_flatMap]
  refine ⟨_, hreport, ?_⟩
  rw [hreceive]
  exact List.mem_singleton_self _

end Request

/-! ## Every run -/

section Runs

variable {stack : WebStack} {s next : Monitored}

/-- The rows are those of the requests served. -/
theorem mem_table_iff (hs : (monitoring stack).Reachable s) {stored : StoredLog} :
    stored ∈ s.table ↔ ∃ chat ∈ s.served, stored ∈ chat.rows stack := by
  refine hs.invariant (fun s => stored ∈ s.table ↔ ∃ chat ∈ s.served, stored ∈ chat.rows stack)
    ?_ ?_
  · rintro _ rfl
    simp
  · rintro s chat _ ih ⟨rfl⟩
    simp only [List.mem_append, ih, List.exists_mem_cons_iff]

/-- What an admin reads agrees with what customers were answered. Every row goes
back to a request, among the failures to one that was not answered `200`, among
the successes to one that was. A request whose report arrives has its row, which
is shown under its status until as many rows as are asked for are no older. -/
theorem recent_agreesWithReplies (hs : (monitoring stack).Reachable s) {q : RecentQuery}
    {violation : String} {answer : List StoredLog}
    (hanswer : recent s.table q violation (.ok answer)) :
    (∀ stored ∈ answer, ∃ chat ∈ s.served, chat.Shows stored ∧
      (q.status = some "errors" → chat.status ≠ 200) ∧
      (q.status = some "ok" → chat.status = 200)) ∧
    ∀ chat ∈ s.served, chat.Arrives stack → ∃ stored ∈ s.table, chat.Shows stored ∧
      (q.admits stored = true → (q.status = some "errors" → chat.status ≠ 200) →
        (q.status = some "ok" → chat.status = 200) →
        stored ∈ answer ∨ answer.length = q.rows ∧
          ∀ shown ∈ answer, stored.createdAt ≤ shown.createdAt) := by
  obtain ⟨-, hanswer⟩ := hanswer
  constructor
  · intro stored hshown
    obtain ⟨hmem, hkeeps⟩ := hanswer.mem hshown
    obtain ⟨-, herrors, hok⟩ := RecentQuery.keeps_iff.mp hkeeps
    obtain ⟨chat, hchat, hrow⟩ := (mem_table_iff hs).mp hmem
    have hshows := Served.shows_of_mem hrow
    exact ⟨chat, hchat, hshows, fun hq h200 => herrors hq (hshows.error.mpr h200),
      fun hq => hshows.error.mp (hok hq)⟩
  · intro chat hchat harrives
    obtain ⟨stored, hrow⟩ := harrives.exists_row
    have hmem := (mem_table_iff hs).mpr ⟨chat, hchat, hrow⟩
    have hshows := Served.shows_of_mem hrow
    refine ⟨stored, hmem, hshows, fun hadmits herrors hok => ?_⟩
    apply RecentQuery.shown_or_displaced hanswer hmem
    refine RecentQuery.keeps_iff.mpr ⟨hadmits, fun hq hnone => ?_, fun hq => ?_⟩
    · exact herrors hq (hshows.error.mp hnone)
    · exact hshows.error.mpr (hok hq)

end Runs

/-! ## One run -/

/-- A request that a busy worker refused. -/
def refusedRequest : Served := ⟨stumbling "busy", [], .object [], true, "row-1", 7⟩

/-- A server that writes the report of that refusal as it is. -/
def busyStack : WebStack :=
  { plainStack with writeJson := fun _ => busyText.toUTF8.data.toList }

theorem refusedRequest_arrives : refusedRequest.Arrives busyStack where
  delivered := rfl
  mgmt := rfl
  fits _ _ :=
    show busyText.toUTF8.data.toList.length ≤ defaultBodyLimit by decide +kernel
  recordable _ hreport _ hentry := busy_recordable hreport hentry

/-- The admin is shown a failure, and only failures. -/
theorem refusedRequest_isShown : ∃ answer,
    recent (refusedRequest.rows busyStack ++ []) ⟨none, none, none, some "errors"⟩ ""
      (.ok answer) ∧ answer ≠ [] ∧
    ∀ stored ∈ answer, ∃ chat ∈ [refusedRequest], chat.Shows stored ∧ chat.status ≠ 200 := by
  let q : RecentQuery := ⟨none, none, none, some "errors"⟩
  have hanswer : recent (refusedRequest.rows busyStack ++ []) q ""
      (.ok (q.query.run (refusedRequest.rows busyStack ++ []))) :=
    ⟨rfl, Query.answers_run newestFirst_trans newestFirst_total _⟩
  have hstep : (monitoring busyStack).step ⟨[], []⟩ refusedRequest =
      some ⟨refusedRequest.rows busyStack ++ [], [refusedRequest]⟩ := rfl
  have hreach := Machine.Reachable.step (.init rfl) hstep
  obtain ⟨hfrom, hshown⟩ := recent_agreesWithReplies hreach hanswer
  refine ⟨_, hanswer, fun hnone => ?_, fun stored hstored => ?_⟩
  · obtain ⟨stored, -, -, hplace⟩ :=
      hshown refusedRequest List.mem_cons_self refusedRequest_arrives
    rw [hnone] at hplace
    rcases hplace rfl (fun _ => by decide) (fun hok => absurd hok (by decide)) with
      hmem | ⟨hfull, -⟩
    · cases hmem
    · cases hfull
  · obtain ⟨chat, hchat, hshows, hfailed, -⟩ := hfrom stored hstored
    exact ⟨chat, hchat, hshows, hfailed rfl⟩

end GpuCluster.Cluster
