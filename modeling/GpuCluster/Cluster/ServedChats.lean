import GpuCluster.Common.Encode
import GpuCluster.Coordinator.Eligibility
import GpuCluster.OpenaiApi.Chat

/-! # Who serves a chat request

The dispatcher asks the coordinator for eligible nodes and later posts the request to
the first of them that runs an inference server. Reports, registrations and the
watchdog go on between the two. The request goes to a worker by its last report, which
was less than a minute old when the coordinator answered, or to nobody.
-/

namespace GpuCluster.OpenaiApi

open Foundation

/-! ## What is posted to workers -/

def Sent.post? : Sent → Option (String × Json)
  | .worker url body => some (url, body)
  | .log _ => none

/-- The requests made of workers. -/
def Handled.posts (handled : Handled) : List (String × Json) := handled.sent.filterMap Sent.post?

/-- The status that a request is refused with where no worker is asked. -/
def DispatchFailure.status : DispatchFailure → ℕ
  | .coordError .. | .coordUnreachable _ => 502
  | .noEligibleNodes => 503
  | .noInferenceEndpoint _ => 501

/-- A worker's success, and for a plain request the document that it answered. -/
def RelaysSuccess (outcome : WorkerOutcome) (req : Json) (reply : Reply) : Prop :=
  ∃ resp, outcome = .response resp ∧ resp.status.isSuccess = true ∧
    (wantsStream req = false → ∃ document, resp.json = .ok document ∧ reply.body = .json document)

section Posts

variable {around : Surroundings} {headers : List (String × String)} {req : Json}

theorem posts_flushLog (around : Surroundings) (trace : RequestTrace) :
    (flushLog around trace).filterMap Sent.post? = [] := by
  unfold flushLog
  split <;> rfl

theorem posts_append_flushLog (sent : List Sent) (around : Surroundings) (trace : RequestTrace) :
    (sent ++ flushLog around trace).filterMap Sent.post? = sent.filterMap Sent.post? := by
  rw [List.filterMap_append, posts_flushLog, List.append_nil]

/-- The two answers to a request that was not dispatched. -/
theorem refused_of_dispatch {failure : DispatchFailure}
    (hdispatch : (dispatch around.eligible).2 = .error failure) :
    (chatCompletions around headers req).posts = [] ∧
      (chatCompletions around headers req).reply.status.code = failure.status := by
  unfold chatCompletions
  split
  next =>
    simp only [chatCompletionsStream, hdispatch]
    exact ⟨posts_append_flushLog [] .., by cases failure <;> rfl⟩
  next =>
    simp only [chatCompletionsJson, hdispatch]
    exact ⟨posts_append_flushLog [] .., by cases failure <;> rfl⟩

theorem forwardChatToWorker_posts (url : String) (trace : RequestTrace) :
    (forwardChatToWorker around url req trace).posts = [(workerClientUrl url, req)] := by
  unfold forwardChatToWorker
  cases jsonPost around (workerClientUrl url) req with
  | ok parsed => exact posts_append_flushLog [_] ..
  | error error => cases error <;> exact posts_append_flushLog [_] ..

/-- A document is passed on only where the worker succeeded with it. -/
theorem forwardChatToWorker_ok {url : String} {trace : RequestTrace}
    (hok : (forwardChatToWorker around url req trace).reply.status.code = 200) :
    ∃ resp document, around.worker (workerClientUrl url) req = .response resp ∧
      resp.status.isSuccess = true ∧ resp.json = .ok document ∧
      (forwardChatToWorker around url req trace).reply.body = .json document := by
  have hgateway : HttpStatus.badGateway.code ≠ 200 := by decide
  unfold forwardChatToWorker jsonPost at hok ⊢
  cases hworker : around.worker (workerClientUrl url) req with
  | transport message =>
      simp only [hworker] at hok
      exact absurd hok hgateway
  | response resp =>
      simp only [hworker, decodeOrUpstream] at hok ⊢
      cases hsuccess : resp.status.isSuccess with
      | false =>
          simp only [hsuccess, Bool.false_eq_true, if_false, finalizeError,
            jsonClientStatus_eq] at hok
          exact absurd hok (streamClientStatus_ne hsuccess)
      | true =>
          cases hjson : resp.json with
          | error message =>
              simp only [hsuccess, hjson, if_true, Except.mapError] at hok
              exact absurd hok hgateway
          | ok document =>
              refine ⟨resp, document, rfl, hsuccess, hjson, ?_⟩
              simp only [if_true, Except.mapError]

/-- A request that is dispatched is posted once, as it came, and what is answered with
200 is the worker's success. -/
theorem posted_of_dispatch {url : String} (hdispatch : (dispatch around.eligible).2 = .ok url) :
    (chatCompletions around headers req).posts = [(workerClientUrl url, req)] ∧
      ((chatCompletions around headers req).reply.status.code = 200 →
        RelaysSuccess (around.worker (workerClientUrl url) req) req
          (chatCompletions around headers req).reply) := by
  have hgateway : HttpStatus.badGateway.code ≠ 200 := by decide
  unfold chatCompletions
  split
  next hstream =>
    simp only [chatCompletionsStream, hdispatch]
    change _ ∧ (_ → RelaysSuccess (around.worker (trimEnd '/' url ++ "/v1/chat/completions") req)
      req _)
    cases hworker : around.worker (trimEnd '/' url ++ "/v1/chat/completions") req with
    | transport message =>
        exact ⟨posts_append_flushLog [_] .., fun hok => absurd hok hgateway⟩
    | response resp =>
        dsimp only
        cases hsuccess : resp.status.isSuccess with
        | true =>
            refine ⟨posts_append_flushLog [_] .., fun _ => ⟨resp, rfl, hsuccess, ?_⟩⟩
            exact fun hplain => absurd (hstream.symm.trans hplain) (by decide)
        | false =>
            refine ⟨posts_append_flushLog [_] .., fun hok => ?_⟩
            exact absurd hok (streamClientStatus_ne hsuccess)
  next =>
    simp only [chatCompletionsJson, hdispatch]
    refine ⟨forwardChatToWorker_posts url _, fun hok => ?_⟩
    obtain ⟨resp, document, hworker, hsuccess, hjson, hbody⟩ := forwardChatToWorker_ok hok
    exact ⟨resp, hworker, hsuccess, fun _ => ⟨document, hjson, hbody⟩⟩

end Posts

end GpuCluster.OpenaiApi

namespace GpuCluster.Cluster

open Common Coordinator Foundation OpenaiApi

/-! ## Chats and the coordinator -/

/-- What the coordinator answered, and the writes it had made until then. -/
structure Asked where
  time : ℤ
  log : List Write
  answer : ClientOutcome

/-- A chat request that was answered, with what the dispatcher saw of the worker. -/
structure AnsweredChat where
  asked : Asked
  worker : String → Json → WorkerOutcome
  mgmt : Bool
  elapsed : ℕ
  headers : List (String × String)
  req : Json

namespace AnsweredChat

def around (chat : AnsweredChat) : Surroundings where
  eligible := chat.asked.answer
  worker := chat.worker
  mgmt := chat.mgmt
  elapsed := chat.elapsed

def handled (chat : AnsweredChat) : Handled := chatCompletions chat.around chat.headers chat.req

def status (chat : AnsweredChat) : ℕ := chat.handled.reply.status.code

end AnsweredChat

/-- The coordinator, the requests between its answer and theirs, and those answered. -/
structure Serving where
  coordinator : Interleaved
  asked : ℕ → Option Asked
  answered : List AnsweredChat

/-- A call of the coordinator that brings no list of nodes. -/
inductive LostAnswer
  | upstream (status : UInt16) (body : String)
  | failed (message : String)

def LostAnswer.outcome : LostAnswer → ClientOutcome
  | .upstream status body => .upstream status body
  | .failed message => .failed message

inductive ServingStep
  | coordinator (step : Step)
  | ask (chat : ℕ) (lost : Option LostAnswer)
  | answer (chat : ℕ) (worker : String → Json → WorkerOutcome) (mgmt : Bool) (elapsed : ℕ)
      (headers : List (String × String)) (req : Json)

namespace Serving

/-- `eligible_nodes` answers a request, or its answer is lost. -/
def ask (s : Serving) (now : ℤ) (chat : ℕ) (lost : Option LostAnswer) : Serving :=
  let recorded := s.coordinator.recorded
  { s with
    coordinator := s.coordinator.advance now
    asked := Function.update s.asked chat (some ⟨now, recorded.log,
      (lost.map LostAnswer.outcome).getD (.ok (eligibleNodes recorded.registry now))⟩) }

def step (s : Serving) (now : ℤ) : ServingStep → Option Serving
  | .coordinator step => (step.run s.coordinator now).map fun coordinator => { s with coordinator }
  | .ask chat lost => some (s.ask now chat lost)
  | .answer chat worker mgmt elapsed headers req => (s.asked chat).map fun asked => { s with
      coordinator := s.coordinator.advance now
      asked := Function.update s.asked chat none
      answered := ⟨asked, worker, mgmt, elapsed, headers, req⟩ :: s.answered }

end Serving

/-- Chat requests next to whatever reaches the coordinator, at non-decreasing times. -/
def serving : Machine Serving (ℤ × ServingStep) where
  init s := ∃ start, s = ⟨.initial start, fun _ => none, []⟩
  step s action :=
    if s.coordinator.recorded.clock ≤ action.1 then s.step action.1 action.2 else none

/-! ## The list that was answered -/

/-- The last write to a node at that time, after which the node can take a job. -/
def Asked.Offers (asked : Asked) (write : Write) : Prop :=
  lastWrite asked.log write.nodeId = some write ∧ write.Offers asked.time

/-- A registration tells no endpoint, and a mark offers nothing. -/
theorem isReport_of_url {write : Write} {now : ℤ} (hoffers : write.Offers now) {url : String}
    (hurl : write.entry.inferenceUrl = some url) : ∃ time report, write = .report time report := by
  cases write with
  | report time report => exact ⟨time, report, rfl⟩
  | register time info => cases hurl
  | mark time snapshot => cases hoffers.1

theorem chosenNode_entries (entries : List NodeEntry) :
    chosenNode (nodesJson (entries.map eligibleJson)) =
      ((entries.find? (·.inferenceUrl.isSome)).or entries.head?).map eligibleJson := by
  have hrunning : (fun n : Json => (n.str? "inference_url").isSome) ∘ eligibleJson =
      fun entry => entry.inferenceUrl.isSome :=
    funext fun entry => congrArg Option.isSome (eligibleJson_shows entry).inferenceUrl
  rw [chosenNode, nodesOf_nodesJson, List.find?_map, hrunning, List.head?_map, Option.map_or]

/-- What `dispatch` makes of a list of nodes. -/
theorem dispatch_entries (entries : List NodeEntry) :
    (∃ entry ∈ entries, ∃ url, entry.inferenceUrl = some url ∧
      (dispatch (.ok (nodesJson (entries.map eligibleJson)))).2 = .ok url) ∨
    (∀ entry ∈ entries, entry.inferenceUrl = none) ∧ ∃ failure,
      (dispatch (.ok (nodesJson (entries.map eligibleJson)))).2 = .error failure ∧
      failure.status = if entries = [] then 503 else 501 := by
  rw [dispatch, chosenNode_entries]
  cases hrunning : entries.find? (·.inferenceUrl.isSome) with
  | some entry =>
      have hsome := List.find?_some hrunning
      obtain ⟨url, hurl⟩ := Option.isSome_iff_exists.mp hsome
      refine .inl ⟨entry, List.mem_of_find?_eq_some hrunning, url, hurl, ?_⟩
      simp only [Option.some_or, Option.map_some, (eligibleJson_shows entry).inferenceUrl]
      rw [hurl]
  | none =>
      have hnone : ∀ entry ∈ entries, entry.inferenceUrl = none := fun entry hentry =>
        Option.not_isSome_iff_eq_none.mp (List.find?_eq_none.mp hrunning entry hentry)
      refine .inr ⟨hnone, ?_⟩
      cases entries with
      | nil => exact ⟨.noEligibleNodes, rfl, rfl⟩
      | cons first rest =>
          refine ⟨.noInferenceEndpoint (eligibleJson first), ?_, rfl⟩
          simp only [Option.none_or, List.head?_cons, Option.map_some,
            (eligibleJson_shows first).inferenceUrl]
          rw [hnone first List.mem_cons_self]

/-! ## Runs -/

/-- What the coordinator answered is what it had been told, and the writes are still
those with which its log began. -/
structure Asked.Sound (asked : Asked) (log : List Write) : Prop where
  past : asked.log <:+ log
  answer : (∃ lost : LostAnswer, asked.answer = lost.outcome) ∨
    ∃ recorded : Recorded, recorded.Faithful ∧ recorded.log = asked.log ∧
      asked.answer = .ok (eligibleNodes recorded.registry asked.time)

structure Serving.Sound (s : Serving) : Prop where
  faithful : s.coordinator.recorded.Faithful
  asked : ∀ chat asked, s.asked chat = some asked → asked.Sound s.coordinator.recorded.log
  answered : ∀ chat ∈ s.answered, chat.asked.Sound s.coordinator.recorded.log

theorem Asked.Sound.later {asked : Asked} {log later : List Write} (hsound : asked.Sound log)
    (hlater : log <:+ later) : asked.Sound later :=
  ⟨hsound.past.trans hlater, hsound.answer⟩

/-- The log only grows at its head. -/
theorem log_suffix {coordinator next : Interleaved} {now : ℤ} {step : Step}
    (hrun : step.run coordinator now = some next) :
    coordinator.recorded.log <:+ next.recorded.log := by
  have hrecorded := Step.run_recorded hrun
  cases hwrite : step.write coordinator now with
  | none =>
      simp only [hwrite] at hrecorded
      rw [hrecorded.log_eq]
  | some write =>
      simp only [hwrite] at hrecorded
      rw [hrecorded]
      exact List.suffix_cons ..

theorem sound_step {s next : Serving} {action : ℤ × ServingStep} (hs : s.Sound)
    (hstep : serving.step s action = some next) : next.Sound := by
  obtain ⟨now, step⟩ := action
  simp only [serving, Option.ite_none_right_eq_some] at hstep
  obtain ⟨htime, hstep⟩ := hstep
  have hadvanced : (s.coordinator.advance now).recorded.Faithful :=
    hs.faithful.advance (fun _ => rfl) rfl htime
  cases step with
  | coordinator step =>
      obtain ⟨coordinator, hrun, rfl⟩ := Option.map_eq_some_iff.mp hstep
      have hlater := log_suffix hrun
      have hfaithful := @interleaved_step_faithful _ coordinator (now, step) hs.faithful
        ((if_pos htime).trans hrun)
      exact ⟨hfaithful, fun chat asked hasked => (hs.asked chat asked hasked).later hlater,
        fun chat hchat => (hs.answered chat hchat).later hlater⟩
  | ask chat lost =>
      cases hstep
      refine ⟨hadvanced, fun other asked hasked => ?_, hs.answered⟩
      change Function.update s.asked chat _ other = some asked at hasked
      by_cases hsame : other = chat
      · subst hsame
        rw [Function.update_self] at hasked
        cases hasked
        refine ⟨List.suffix_refl _, ?_⟩
        cases lost with
        | some lost => exact .inl ⟨lost, rfl⟩
        | none => exact .inr ⟨s.coordinator.recorded, hs.faithful, rfl, rfl⟩
      · rw [Function.update_of_ne hsame] at hasked
        exact hs.asked other asked hasked
  | answer chat worker mgmt elapsed headers req =>
      obtain ⟨asked, hasked, rfl⟩ := Option.map_eq_some_iff.mp hstep
      refine ⟨hadvanced, fun other waiting hwaiting => ?_, fun answered hanswered => ?_⟩
      · change Function.update s.asked chat none other = some waiting at hwaiting
        by_cases hsame : other = chat
        · rw [hsame, Function.update_self] at hwaiting
          cases hwaiting
        · rw [Function.update_of_ne hsame] at hwaiting
          exact hs.asked other waiting hwaiting
      · rcases List.mem_cons.mp hanswered with rfl | hearlier
        · exact hs.asked chat asked hasked
        · exact hs.answered answered hearlier

theorem serving_sound {s : Serving} (hreach : serving.Reachable s) : s.Sound := by
  refine hreach.invariant Serving.Sound ?_ fun state action next hs hstep => sound_step hs hstep
  rintro _ ⟨start, rfl⟩
  exact ⟨Recorded.faithful_initial start, fun chat asked hasked => absurd hasked (by simp),
    fun chat hchat => absurd hchat List.not_mem_nil⟩

/-! ## Who serves -/

/-- How a chat request ends, by what the coordinator had been told. -/
inductive AnsweredChat.Ends (chat : AnsweredChat) : Prop
  | unanswered (lost : LostAnswer) : chat.asked.answer = lost.outcome →
      chat.handled.posts = [] → chat.status = 502 → Ends chat
  | nobody : (∀ write, ¬ chat.asked.Offers write) → chat.handled.posts = [] →
      chat.status = 503 → Ends chat
  | idle (write : Write) : chat.asked.Offers write →
      (∀ write, chat.asked.Offers write → write.entry.inferenceUrl = none) →
      chat.handled.posts = [] → chat.status = 501 → Ends chat
  | served (time : ℤ) (report : Report) (url : String) : chat.asked.Offers (.report time report) →
      (report.entry time).inferenceUrl = some url →
      chat.handled.posts = [(workerClientUrl url, chat.req)] →
      (chat.status = 200 → RelaysSuccess (chat.worker (workerClientUrl url) chat.req) chat.req
        chat.handled.reply) → Ends chat

theorem ends_of_sound {chat : AnsweredChat} {log : List Write} (hsound : chat.asked.Sound log) :
    chat.Ends := by
  rcases hsound.answer with ⟨lost, hlost⟩ | ⟨recorded, hfaithful, hlog, hanswer⟩
  · have hdispatch : ∃ failure, (dispatch chat.around.eligible).2 = .error failure ∧
        failure.status = 502 := by
      rw [AnsweredChat.around, hlost]
      cases lost <;> exact ⟨_, rfl, rfl⟩
    obtain ⟨failure, hdispatch, hstatus⟩ := hdispatch
    obtain ⟨hposts, hcode⟩ := @refused_of_dispatch _ chat.headers chat.req _ hdispatch
    exact .unanswered lost hlost hposts (hcode.trans hstatus)
  · have hoffers : ∀ write, chat.asked.Offers write ↔
        write.Offers chat.asked.time ∧ lastWrite recorded.log write.nodeId = some write := by
      intro write
      rw [Asked.Offers, hlog, and_comm]
    have hentry : ∀ entry ∈ eligibleEntries recorded.registry chat.asked.time,
        ∃ write, chat.asked.Offers write ∧ write.entry = entry := by
      intro entry hentry
      obtain ⟨write, hlast, hoffer, heq⟩ := (mem_eligibleEntries hfaithful).mp hentry
      exact ⟨write, (hoffers write).mpr ⟨hoffer, hlast⟩, heq⟩
    have hmem : ∀ write, chat.asked.Offers write →
        write.entry ∈ eligibleEntries recorded.registry chat.asked.time := by
      intro write hwrite
      obtain ⟨hoffer, hlast⟩ := (hoffers write).mp hwrite
      exact (mem_eligibleEntries hfaithful).mpr ⟨write, hlast, hoffer, rfl⟩
    have hanswered : chat.around.eligible = .ok (nodesJson
        ((eligibleEntries recorded.registry chat.asked.time).map eligibleJson)) := hanswer
    rcases dispatch_entries (eligibleEntries recorded.registry chat.asked.time) with
      ⟨entry, hin, url, hurl, hdispatch⟩ | ⟨hnone, failure, hdispatch, hstatus⟩
    · obtain ⟨write, hwrite, rfl⟩ := hentry entry hin
      obtain ⟨time, report, rfl⟩ := isReport_of_url hwrite.2 hurl
      rw [← hanswered] at hdispatch
      obtain ⟨hposts, hok⟩ := @posted_of_dispatch _ chat.headers chat.req _ hdispatch
      exact .served time report url hwrite hurl hposts hok
    · rw [← hanswered] at hdispatch
      obtain ⟨hposts, hcode⟩ := @refused_of_dispatch _ chat.headers chat.req _ hdispatch
      split at hstatus
      next hempty =>
        refine .nobody (fun write hwrite => ?_) hposts (hcode.trans hstatus)
        exact absurd (hempty ▸ hmem write hwrite) List.not_mem_nil
      next hsome =>
        obtain ⟨entry, hin⟩ := List.exists_mem_of_ne_nil _ hsome
        obtain ⟨write, hwrite, -⟩ := hentry entry hin
        exact .idle write hwrite (fun other hother => hnone _ (hmem other hother)) hposts
          (hcode.trans hstatus)

/-- In every run each chat request ends in one of four ways, and the coordinator's log
as it was asked tells which: it is posted once, as it came, to the worker of a last
report that offers its node then, or to nobody. -/
theorem chats_areServed {s : Serving} (hreach : serving.Reachable s) {chat : AnsweredChat}
    (hchat : chat ∈ s.answered) :
    chat.asked.log <:+ s.coordinator.recorded.log ∧ chat.Ends := by
  have hsound := (serving_sound hreach).answered chat hchat
  exact ⟨hsound.past, ends_of_sound hsound⟩

def servingReport : Json := NodeInfoView.encode
  { nodeId := "w1", hostname := "", displayName := "", hwFingerprint := "hw", agentVersion := "",
    tags := [], status := none, os := none, cpuMem := none, network := none,
    gpus := [.ofPb {}], inferenceEndpoint := some ":8080", controlEndpoint := none,
    currentModel := none }

def answeringWorker (_ : String) (_ : Json) : WorkerOutcome :=
  .response ⟨.ok, none, .ok (.object [])⟩

/-- A worker reports, a request is sent to it, and its answer is passed on. -/
theorem reportedWorker_serves : ∃ s, ∃ chat ∈ s.answered, serving.Reachable s ∧ chat.Ends ∧
    chat.handled.posts.map Prod.fst = ["http://10.0.0.7:8080/v1/chat/completions"] := by
  have hrun : (serving.exec ⟨.initial 0, fun _ => none, []⟩ [
      (0, .coordinator (.check 0 "10.0.0.7" servingReport)), (0, .coordinator (.store 0)),
      (1, .ask 0 none), (2, .answer 0 answeringWorker true 5 [] (.object []))]).any (fun s =>
      s.answered.any fun chat => chat.handled.posts.map Prod.fst =
        ["http://10.0.0.7:8080/v1/chat/completions"]) = true := by
    decide +kernel
  obtain ⟨s, hexec, hany⟩ := (Option.any_eq_true _ _).mp hrun
  obtain ⟨chat, hchat, hposts⟩ := List.any_eq_true.mp hany
  have hreach : serving.Reachable s := Machine.Reachable.exec (.init ⟨0, rfl⟩) hexec
  exact ⟨s, chat, hchat, hreach, (chats_areServed hreach hchat).2, of_decide_eq_true hposts⟩

end GpuCluster.Cluster
