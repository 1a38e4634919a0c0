import GpuCluster.Foundation.Machine
import GpuCluster.Worker.InferenceServer

/-! # Loading models on a worker

Every accepted request starts a task of its own, which downloads the file and
then takes the supervisor's lock to switch to it. Tasks of different requests
overlap, and a process of the server may end at any time.
-/

namespace GpuCluster.Worker

open Foundation Proto

structure LoadModelReq where
  modelId : String
  hfRepo : String
  hfFile : String
  hfToken : String := ""
  localFilename : String := ""
  peers : List String := []
  deriving DecidableEq

open Decoder in
/-- The last three fields may be left out. -/
def LoadModelReq.decode : Decoder LoadModelReq := fun document => do
  let field ← fieldsOf 6 document
  return {
    modelId := ← (field "model_id" 0).bind string
    hfRepo := ← (field "hf_repo" 1).bind string
    hfFile := ← (field "hf_file" 2).bind string
    hfToken := ← orDefault "" string (field "hf_token" 3)
    localFilename := ← orDefault "" string (field "local_filename" 4)
    peers := ← orDefault [] (seq string) (field "peers" 5) }

/-- What the file is saved as. -/
def LoadModelReq.saveAs (req : LoadModelReq) : String :=
  if req.localFilename = "" then req.hfFile else req.localFilename

/-- The answer of `load_model`; every other answer than an error starts a task. -/
def LoadModelReq.answer (req : LoadModelReq) : Except (ℕ × Json) Json :=
  if req.modelId = "" ∨ req.hfRepo = "" ∨ req.hfFile = "" then .error (400, .object
    [("error", .string "model_id, hf_repo, hf_file are all required")])
  else .ok (.object [("ok", .bool true), ("accepted", .bool true),
    ("model_id", .string req.modelId), ("state", .string "downloading")])

/-- How far a task is. `fetch` returns the path it saves to. -/
inductive TaskPhase
  | downloading
  | fetched (path : String)
  | switched
  | failed (message : String)
  deriving DecidableEq

/-- The end of a task. -/
def TaskPhase.ofSwitch : Except String Unit → TaskPhase
  | .ok () => .switched
  | .error message => .failed message

structure LoadTask where
  req : LoadModelReq
  phase : TaskPhase
  deriving DecidableEq

/-- The host, the endpoints, and the path of a file in `models_dir`. -/
structure WorkerSetup where
  host : HostEnv
  port : UInt16
  controlEndpoint : String
  modelPath : String → String

/-- Where the file of a request is saved. -/
def WorkerSetup.destOf (setup : WorkerSetup) (req : LoadModelReq) : String :=
  setup.modelPath req.saveAs

/-- The supervisor, the tasks in the order of acceptance, and the task that took
the supervisor's lock last, which the code does not record. -/
structure WorkerState where
  hosted : Hosted
  tasks : List LoadTask
  lastLocked : Option ℕ
  deriving DecidableEq

/-- `publish` reads the supervisor under its lock, and the body is what is sent: the read and
the request are one step. -/
inductive WorkerAction
  | load (req : LoadModelReq)
  | fetched (task : ℕ) (outcome : Except String Unit)
  | switch (task : ℕ) (attempt : SpawnAttempt)
  | exit (pid : ℕ)
  | publish (info : NodeInfo)

namespace WorkerState

def boot (setup : WorkerSetup) (isFile : Bool) (attempt : SpawnAttempt) : WorkerState :=
  ⟨.boot setup.host setup.port isFile attempt, [], none⟩

def load (s : WorkerState) (req : LoadModelReq) : WorkerState :=
  match req.answer with
  | .ok _ => { s with tasks := s.tasks ++ [⟨req, .downloading⟩] }
  | .error _ => s

def fetched (setup : WorkerSetup) (s : WorkerState) (i : ℕ) (task : LoadTask)
    (outcome : Except String Unit) : Option WorkerState :=
  match task.phase, outcome with
  | .downloading, .ok () =>
      some { s with tasks := s.tasks.set i { task with phase := .fetched (setup.destOf task.req) } }
  | .downloading, .error message =>
      some { s with tasks := s.tasks.set i { task with phase := .failed message } }
  | _, _ => none

/-- The end of a task, under the supervisor's lock. -/
def switch (setup : WorkerSetup) (s : WorkerState) (i : ℕ) (task : LoadTask)
    (attempt : SpawnAttempt) : Option WorkerState :=
  match task.phase with
  | .fetched path =>
      let result := s.hosted.switchInner setup.host task.req.modelId path task.req.peers attempt
      some {
        hosted := result.1
        tasks := s.tasks.set i { task with phase := .ofSwitch result.2 }
        lastLocked := some i }
  | _ => none

/-- The body of a heartbeat. -/
def body (setup : WorkerSetup) (s : WorkerState) (info : NodeInfo) : Json :=
  publishBody info s.hosted.sup setup.host.inferenceAdvertisedHost setup.controlEndpoint

def step (setup : WorkerSetup) (s : WorkerState) : WorkerAction → Option WorkerState
  | .load req => some (s.load req)
  | .fetched i outcome => (s.tasks[i]?).bind fun task => s.fetched setup i task outcome
  | .switch i attempt => (s.tasks[i]?).bind fun task => s.switch setup i task attempt
  | .exit pid => (s.hosted.exit pid).map fun hosted => { s with hosted }
  | .publish _ => some s

end WorkerState

def worker (setup : WorkerSetup) : Machine WorkerState WorkerAction where
  init s := ∃ isFile attempt, s = .boot setup isFile attempt
  step s action := s.step setup action

/-! ## What a step does -/

/-- A step on the supervisor, and on one task at most. -/
inductive WorkerMoves (setup : WorkerSetup) (s : WorkerState) : WorkerState → Prop
  | rest : WorkerMoves setup s s
  | accept (req : LoadModelReq) :
      WorkerMoves setup s { s with tasks := s.tasks ++ [⟨req, .downloading⟩] }
  | fetch (i : ℕ) (task : LoadTask) (phase : TaskPhase) (htask : s.tasks[i]? = some task)
      (hphase : task.phase = .downloading)
      (hnext : phase = .fetched (setup.destOf task.req) ∨ ∃ message, phase = .failed message) :
      WorkerMoves setup s { s with tasks := s.tasks.set i { task with phase } }
  | switch (i : ℕ) (task : LoadTask) (path : String) (attempt : SpawnAttempt)
      (result : Hosted × Except String Unit) (htask : s.tasks[i]? = some task)
      (hphase : task.phase = .fetched path)
      (hresult : s.hosted.switchInner setup.host task.req.modelId path task.req.peers attempt =
        result) :
      WorkerMoves setup s
        ⟨result.1, s.tasks.set i { task with phase := .ofSwitch result.2 }, some i⟩
  | exit (pid : ℕ) (hosted : Hosted) (hexit : s.hosted.exit pid = some hosted) :
      WorkerMoves setup s { s with hosted }

theorem step_moves {setup : WorkerSetup} {s next : WorkerState} {action : WorkerAction}
    (hstep : (worker setup).step s action = some next) : WorkerMoves setup s next := by
  cases action with
  | load req =>
      cases hstep
      unfold WorkerState.load
      split
      next => exact .accept req
      next => exact .rest
  | fetched i outcome =>
      obtain ⟨task, htask, hfetched⟩ := Option.bind_eq_some_iff.mp hstep
      unfold WorkerState.fetched at hfetched
      split at hfetched
      next hphase =>
        cases hfetched
        exact .fetch i task _ htask hphase (.inl rfl)
      next hphase =>
        cases hfetched
        exact .fetch i task _ htask hphase (.inr ⟨_, rfl⟩)
      next => cases hfetched
  | switch i attempt =>
      obtain ⟨task, htask, hswitch⟩ := Option.bind_eq_some_iff.mp hstep
      unfold WorkerState.switch at hswitch
      split at hswitch
      next path hphase =>
        cases hswitch
        exact .switch i task path attempt _ htask hphase rfl
      next => cases hswitch
  | exit pid =>
      obtain ⟨hosted, hexit, rfl⟩ := Option.map_eq_some_iff.mp hstep
      exact .exit pid hosted hexit
  | publish info =>
      cases hstep
      exact .rest

/-- Whatever happens on a worker, its supervisor knows what it serves. -/
theorem hosted_sound_step {setup : WorkerSetup} {s next : WorkerState} {action : WorkerAction}
    (hsound : s.hosted.Sound) (hstep : (worker setup).step s action = some next) :
    next.hosted.Sound := by
  cases step_moves hstep with
  | rest | accept | fetch => exact hsound
  | switch i task path attempt result htask hphase hresult => exact hresult ▸ hsound.switchInner
  | exit pid hosted hexit => exact hsound.exit hexit

/-! ## The model that is served at the end -/

/-- The supervisor serves what the last task to take its lock asked for, if that
task has switched. -/
structure WorkerState.Ordered (setup : WorkerSetup) (s : WorkerState) : Prop where
  locked : ∀ i, s.lastLocked = some i → ∃ task, s.tasks[i]? = some task ∧
    ((∃ message, task.phase = .failed message) ∨ task.phase = .switched ∧
      s.hosted.sup.modelId = some task.req.modelId ∧
      s.hosted.sup.modelPath = some (setup.destOf task.req))
  unlocked : s.lastLocked = none → ∀ task ∈ s.tasks, task.phase ≠ .switched
  path : ∀ task ∈ s.tasks, ∀ path, task.phase = .fetched path → path = setup.destOf task.req

/-- A successful switch leaves what it was asked for. -/
theorem Hosted.switchInner_ok {host : HostEnv} {hosted : Hosted} {model path : String}
    {peers : List String} {attempt : SpawnAttempt} {result : Hosted × Except String Unit}
    (hresult : hosted.switchInner host model path peers attempt = result) :
    (∃ message, result.2 = .error message) ∨ result.2 = .ok () ∧
      result.1.sup.modelId = some model ∧ result.1.sup.modelPath = some path := by
  subst hresult
  unfold switchInner
  split
  next => exact .inr ⟨rfl, rfl, rfl⟩
  next => exact .inl ⟨_, rfl⟩

namespace WorkerState.Ordered

variable {setup : WorkerSetup} {s : WorkerState}

theorem accept (hordered : s.Ordered setup) (req : LoadModelReq) :
    Ordered setup { s with tasks := s.tasks ++ [⟨req, .downloading⟩] } where
  locked i hlocked := by
    obtain ⟨task, htask, hphase⟩ := hordered.locked i hlocked
    exact ⟨task, getElem?_append_of_some htask _, hphase⟩
  unlocked hnone task htask := by
    rcases List.mem_append.mp htask with htask | htask
    · exact hordered.unlocked hnone task htask
    · obtain rfl := List.mem_singleton.mp htask
      exact fun hphase => (by cases hphase)
  path task htask path hphase := by
    rcases List.mem_append.mp htask with htask | htask
    · exact hordered.path task htask path hphase
    · obtain rfl := List.mem_singleton.mp htask
      cases hphase

theorem fetch (hordered : s.Ordered setup) {i : ℕ} {task : LoadTask} {phase : TaskPhase}
    (htask : s.tasks[i]? = some task) (hphase : task.phase = .downloading)
    (hnext : phase = .fetched (setup.destOf task.req) ∨ ∃ message, phase = .failed message) :
    Ordered setup { s with tasks := s.tasks.set i { task with phase } } where
  locked j hlocked := by
    obtain ⟨other, hother, hdone⟩ := hordered.locked j hlocked
    have hne : i ≠ j := by
      intro hsame
      subst hsame
      cases htask.symm.trans hother
      rcases hdone with ⟨message, hfailed⟩ | ⟨hswitched, -⟩
      · cases hphase.symm.trans hfailed
      · cases hphase.symm.trans hswitched
    exact ⟨other, by rwa [List.getElem?_set_ne hne], hdone⟩
  unlocked hnone other hother := by
    rcases List.mem_or_eq_of_mem_set hother with hother | rfl
    · exact hordered.unlocked hnone other hother
    · rcases hnext with rfl | ⟨message, rfl⟩
      · exact fun hcase => (by cases hcase)
      · exact fun hcase => (by cases hcase)
  path other hother path hpath := by
    rcases List.mem_or_eq_of_mem_set hother with hother | rfl
    · exact hordered.path other hother path hpath
    · rcases hnext with rfl | ⟨message, rfl⟩
      · cases hpath
        rfl
      · cases hpath

theorem switch (hordered : s.Ordered setup) {i : ℕ} {task : LoadTask} {path : String}
    {attempt : SpawnAttempt} {result : Hosted × Except String Unit}
    (htask : s.tasks[i]? = some task)
    (hphase : task.phase = .fetched path)
    (hresult : s.hosted.switchInner setup.host task.req.modelId path task.req.peers attempt =
      result) :
    Ordered setup ⟨result.1, s.tasks.set i { task with phase := .ofSwitch result.2 }, some i⟩ where
  locked j hlocked := by
    cases hlocked
    refine ⟨_, List.getElem?_set_self (List.getElem?_eq_some_iff.mp htask).1, ?_⟩
    have hpath := hordered.path task (List.mem_of_getElem? htask) path hphase
    rcases Hosted.switchInner_ok hresult with ⟨message, herror⟩ | ⟨hok, hmodel, hmodelPath⟩
    · exact .inl ⟨message, by rw [herror, TaskPhase.ofSwitch]⟩
    · exact .inr ⟨by rw [hok, TaskPhase.ofSwitch], hmodel, by rw [hmodelPath, hpath]⟩
  unlocked hnone := by cases hnone
  path other hother found hfound := by
    rcases List.mem_or_eq_of_mem_set hother with hother | rfl
    · exact hordered.path other hother found hfound
    · rcases Hosted.switchInner_ok hresult with ⟨message, herror⟩ | ⟨hok, -⟩
      · rw [herror] at hfound
        cases hfound
      · rw [hok] at hfound
        cases hfound

end WorkerState.Ordered

theorem ordered_step {setup : WorkerSetup} {s next : WorkerState} {action : WorkerAction}
    (hordered : s.Ordered setup) (hstep : (worker setup).step s action = some next) :
    next.Ordered setup := by
  cases step_moves hstep with
  | rest => exact hordered
  | accept req => exact hordered.accept req
  | fetch i task phase htask hphase hnext => exact hordered.fetch htask hphase hnext
  | switch i task path attempt result htask hphase hresult =>
      exact hordered.switch htask hphase hresult
  | exit pid hosted hexit =>
      have hsup := Hosted.exit_sup hexit
      refine ⟨?_, hordered.unlocked, hordered.path⟩
      rw [hsup]
      exact hordered.locked

theorem tasksOrdered_of_reachable {setup : WorkerSetup} {s : WorkerState}
    (hreach : (worker setup).Reachable s) : s.Ordered setup := by
  refine hreach.invariant (WorkerState.Ordered setup) ?_ fun _ _ _ => ordered_step
  intro state ⟨isFile, attempt, hboot⟩
  subst hboot
  exact ⟨fun i hlocked => (by cases hlocked), fun _ task htask => (by cases htask),
    fun task htask => (by cases htask)⟩

/-- The supervisor serves the model of the request accepted last. -/
def WorkerState.ServesLatest (setup : WorkerSetup) (s : WorkerState) : Prop :=
  ∀ latest, s.tasks.getLast? = some latest →
    s.hosted.sup.modelId = some latest.req.modelId ∧
      s.hosted.sup.modelPath = some (setup.destOf latest.req)

/-- The task that took the lock last is for the same model and file as the request
accepted last. -/
def WorkerState.LatestLockedLast (setup : WorkerSetup) (s : WorkerState) : Prop :=
  ∀ latest, s.tasks.getLast? = some latest → ∃ i task, s.lastLocked = some i ∧
    s.tasks[i]? = some task ∧ task.req.modelId = latest.req.modelId ∧
    setup.destOf task.req = setup.destOf latest.req

/-- Once all tasks have switched, the order in which they took the lock decides. -/
theorem servesLatest_iff_latestLockedLast {setup : WorkerSetup} {s : WorkerState}
    (hreach : (worker setup).Reachable s) (hdone : ∀ task ∈ s.tasks, task.phase = .switched) :
    s.ServesLatest setup ↔ s.LatestLockedLast setup := by
  have hordered := tasksOrdered_of_reachable hreach
  refine forall_congr' fun latest => forall_congr' fun hlatest => ?_
  have hmem : latest ∈ s.tasks := List.mem_of_getLast? hlatest
  cases hlocked : s.lastLocked with
  | none => exact absurd (hdone latest hmem) (hordered.unlocked hlocked latest hmem)
  | some i =>
      obtain ⟨task, htask, hphase⟩ := hordered.locked i hlocked
      have hswitched := hdone task (List.mem_of_getElem? htask)
      rcases hphase with ⟨message, hfailed⟩ | ⟨-, hmodel, hpath⟩
      · cases hswitched.symm.trans hfailed
      · rw [hmodel, hpath]
        constructor
        · intro ⟨hsameModel, hsamePath⟩
          exact ⟨i, task, rfl, htask, Option.some.inj hsameModel, Option.some.inj hsamePath⟩
        · intro ⟨j, other, hj, hother, hsameModel, hsamePath⟩
          cases hj
          cases htask.symm.trans hother
          exact ⟨congrArg some hsameModel, congrArg some hsamePath⟩

/-! ## Two requests -/

def plainWorker : WorkerSetup where
  host := ⟨none, none, none, none, fun _ => none⟩
  port := 50053
  controlEndpoint := ":50054"
  modelPath name := "/var/lib/gpucluster/models/" ++ name

/-- A start that goes well. -/
def started : SpawnAttempt := ⟨true, some "/usr/local/bin/llama-server", true⟩

def requestFor (modelId : String) : LoadModelReq where
  modelId := modelId
  hfRepo := "org/" ++ modelId
  hfFile := modelId ++ ".gguf"

/-- Downloads that end in the order of the requests. -/
def inOrder : List WorkerAction := [
  .load (requestFor "a"), .load (requestFor "b"),
  .fetched 0 (.ok ()), .switch 0 started, .fetched 1 (.ok ()), .switch 1 started]

/-- The second download overtakes the first. -/
def overtaking : List WorkerAction := [
  .load (requestFor "a"), .load (requestFor "b"),
  .fetched 1 (.ok ()), .switch 1 started, .fetched 0 (.ok ()), .switch 0 started]

/-- A run of both requests may serve the model in the end. -/
def Serves (modelId : String) (lastLocked : ℕ) : Prop :=
  ∃ s, (worker plainWorker).Reachable s ∧ (∀ task ∈ s.tasks, task.phase = .switched) ∧
    s.tasks.map LoadTask.req = [requestFor "a", requestFor "b"] ∧
    s.hosted.sup.modelId = some modelId ∧ s.lastLocked = some lastLocked

theorem serves_of_run (actions : List WorkerAction) (modelId : String) (lastLocked : ℕ)
    (hrun : ((worker plainWorker).exec (.boot plainWorker false started) actions).any (fun s =>
      (s.tasks.all fun task => task.phase = .switched) &&
      decide (s.tasks.map LoadTask.req = [requestFor "a", requestFor "b"]) &&
      decide (s.hosted.sup.modelId = some modelId) &&
      decide (s.lastLocked = some lastLocked)) = true) : Serves modelId lastLocked := by
  obtain ⟨s, hexec, hstate⟩ := (Option.any_eq_true _ _).mp hrun
  simp only [Bool.and_eq_true, decide_eq_true_eq, List.all_eq_true] at hstate
  obtain ⟨⟨⟨hdone, hreqs⟩, hmodel⟩, hlocked⟩ := hstate
  have hboot : (worker plainWorker).Reachable (.boot plainWorker false started) :=
    .init ⟨false, started, rfl⟩
  exact ⟨s, hboot.exec hexec, hdone, hreqs, hmodel, hlocked⟩

/-- In order, the model of the second request is served. -/
theorem inOrder_servesLatest : ∃ s, (worker plainWorker).Reachable s ∧
    s.hosted.sup.modelId = some "b" ∧ s.ServesLatest plainWorker := by
  obtain ⟨s, hreach, hdone, hreqs, hmodel, hlocked⟩ :=
    serves_of_run inOrder "b" 1 (by decide +kernel)
  refine ⟨s, hreach, hmodel, (servesLatest_iff_latestLockedLast hreach hdone).mpr ?_⟩
  intro latest hlatest
  refine ⟨1, latest, hlocked, ?_, rfl, rfl⟩
  have hlength : s.tasks.length = 2 := by simpa using congrArg List.length hreqs
  rw [List.getLast?_eq_getElem?, hlength] at hlatest
  exact hlatest

/-- Out of order, the model of the first one is. -/
theorem overtaking_servesFirst : ∃ s, (worker plainWorker).Reachable s ∧
    (∀ task ∈ s.tasks, task.phase = .switched) ∧ ¬s.ServesLatest plainWorker := by
  obtain ⟨s, hreach, hdone, hreqs, hmodel, -⟩ :=
    serves_of_run overtaking "a" 0 (by decide +kernel)
  refine ⟨s, hreach, hdone, fun hserves => ?_⟩
  have hlast : (s.tasks.getLast?).map LoadTask.req = some (requestFor "b") := by
    rw [← List.getLast?_map, hreqs]
    rfl
  obtain ⟨latest, hlatest, hreq⟩ := Option.map_eq_some_iff.mp hlast
  have hserved := (hserves latest hlatest).1
  rw [hmodel, hreq] at hserved
  exact absurd hserved (by decide)

end GpuCluster.Worker
