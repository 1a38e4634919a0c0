import GpuCluster.Foundation.Lists
import GpuCluster.Worker.Heartbeat

/-! # The inference server and its supervisor

The supervisor owns at most one process of the inference server. It learns that
the process has ended only when it stops it for another model.
-/

namespace GpuCluster.Worker

open Foundation

/-- What the host tells the worker. -/
structure HostEnv where
  inferenceBind : Option String
  inferenceCtx : Option String
  inferenceAdvertisedHost : Option String
  modelPath : Option String
  /-- The stem of a path's file name, where it is text. -/
  fileStem : String → Option String

/-- How an attempt to start the server goes: the model is a file or not, the
binary is found or not, and the spawn succeeds or fails. -/
structure SpawnAttempt where
  isFile : Bool
  binary : Option String
  spawned : Bool
  deriving DecidableEq

/-- A process of the server. The model it was started for is not among its
arguments; it has ended on its own, or the supervisor has killed it. -/
structure Process where
  model : String
  command : List String
  exited : Bool
  stopped : Bool
  deriving DecidableEq

def Process.running (process : Process) : Bool := !process.exited && !process.stopped

/-- The supervisor, and all processes started so far. A process is named by its
place; the name is not used again. -/
structure Hosted where
  sup : Supervisor
  processes : List Process
  deriving DecidableEq

def commandLine (host : HostEnv) (port : UInt16) (binary path : String) (peers : List String) :
    List String :=
  [binary, "--host", host.inferenceBind.getD "0.0.0.0", "--port", toString port.toNat,
    "--model", path, "--n-gpu-layers", "999", "--ctx-size", host.inferenceCtx.getD "4096",
    "--jinja"] ++ if peers.isEmpty then [] else ["--rpc", ",".intercalate peers]

namespace Hosted

/-- `spawn_llama_server_with_peers`. -/
def spawn (host : HostEnv) (hosted : Hosted) (model path : String) (peers : List String)
    (attempt : SpawnAttempt) : Except String Hosted :=
  if !attempt.isFile then .error s!"model path does not exist: {path}"
  else
    match attempt.binary with
    | none => .error <|
        "llama-server binary not found on $PATH or in the standard install dirs. " ++
        "Build cpp/llama-rpc-ext (it builds llama-server alongside rpc-server) and symlink it " ++
        "into ~/.local/bin."
    | some binary =>
        if attempt.spawned then .ok {
          sup := { hosted.sup with child := some hosted.processes.length }
          processes := hosted.processes ++
            [⟨model, commandLine host hosted.sup.port binary path peers, false, false⟩] }
        else .error s!"spawn {binary}"

/-- The end of a start: the supervisor notes what it serves. -/
def serve (hosted : Hosted) (model path : String) : Hosted :=
  { hosted with sup := { hosted.sup with modelPath := some path, modelId := some model } }

def bare (port : UInt16) : Hosted := ⟨⟨port, none, none, none⟩, []⟩

/-- `Supervisor::boot`. The file is looked for twice. -/
def boot (host : HostEnv) (port : UInt16) (isFile : Bool) (attempt : SpawnAttempt) : Hosted :=
  match host.modelPath with
  | none => bare port
  | some path =>
      if path ≠ "" ∧ isFile then
        let inferredId := (host.fileStem path).getD "local"
        match (bare port).spawn host inferredId path [] attempt with
        | .ok hosted => hosted.serve inferredId path
        | .error _ => bare port
      else bare port

/-- Kill the child and wait for its end. -/
def stop (hosted : Hosted) : Hosted where
  sup := { hosted.sup with child := none, modelPath := none, modelId := none }
  processes :=
    match hosted.sup.child with
    | some pid => hosted.processes.modify pid fun process => { process with stopped := true }
    | none => hosted.processes

/-- `switch_inner`. -/
def switchInner (host : HostEnv) (hosted : Hosted) (model path : String) (peers : List String)
    (attempt : SpawnAttempt) : Hosted × Except String Unit :=
  match hosted.stop.spawn host model path peers attempt with
  | .ok started => (started.serve model path, .ok ())
  | .error message => (hosted.stop, .error message)

/-- A process ends on its own. -/
def exit (hosted : Hosted) (pid : ℕ) : Option Hosted :=
  (hosted.processes[pid]?).bind fun process =>
    if process.running then
      some { hosted with processes := hosted.processes.set pid { process with exited := true } }
    else none

/-! ## What the supervisor knows -/

/-- The supervisor serves what its child was started for, and every other process
has been stopped. -/
structure Sound (hosted : Hosted) : Prop where
  idle : hosted.sup.child = none → hosted.sup.modelId = none
  held : ∀ pid, hosted.sup.child = some pid → ∃ process, hosted.processes[pid]? = some process ∧
    process.stopped = false ∧ hosted.sup.modelId = some process.model
  others : ∀ pid process, hosted.processes[pid]? = some process →
    hosted.sup.child ≠ some pid → process.stopped = true

theorem bare_sound (port : UInt16) : (bare port).Sound where
  idle _ := rfl
  held pid hchild := by cases hchild
  others pid process hprocess := by cases hprocess

/-- A start adds a process, and nothing else. -/
theorem spawn_ok {host : HostEnv} {hosted started : Hosted} {model path : String}
    {peers : List String} {attempt : SpawnAttempt}
    (hok : hosted.spawn host model path peers attempt = .ok started) : ∃ command,
      started = {
        sup := { hosted.sup with child := some hosted.processes.length }
        processes := hosted.processes ++ [⟨model, command, false, false⟩] } := by
  unfold spawn at hok
  split at hok
  next => cases hok
  next =>
    split at hok
    next => cases hok
    next binary _ =>
      split at hok
      next =>
        cases hok
        exact ⟨_, rfl⟩
      next => cases hok

/-- Nothing runs under a supervisor without a child. -/
theorem Sound.serve {host : HostEnv} {hosted started : Hosted} {model path : String}
    {peers : List String} {attempt : SpawnAttempt} (hsound : hosted.Sound)
    (hidle : hosted.sup.child = none)
    (hok : hosted.spawn host model path peers attempt = .ok started) :
    (started.serve model path).Sound := by
  obtain ⟨command, rfl⟩ := spawn_ok hok
  refine ⟨fun hnone => (by cases hnone), ?_, ?_⟩
  · intro pid hchild
    cases hchild
    exact ⟨_, List.getElem?_concat_length, rfl, rfl⟩
  · intro pid process hprocess hother
    rcases getElem?_concat_eq_some hprocess with hbefore | ⟨hlast, -⟩
    · apply hsound.others pid process hbefore
      simp [hidle]
    · exact absurd (congrArg some hlast.symm) hother

theorem Sound.stop {hosted : Hosted} (hsound : hosted.Sound) : hosted.stop.Sound where
  idle _ := rfl
  held pid hchild := by cases hchild
  others pid process hprocess _ := by
    unfold Hosted.stop at hprocess
    cases hchild : hosted.sup.child with
    | none =>
        simp only [hchild] at hprocess
        exact hsound.others pid process hprocess (by simp [hchild])
    | some held =>
        simp only [hchild, List.getElem?_modify] at hprocess
        by_cases hheld : held = pid
        · subst hheld
          obtain ⟨before, -, rfl⟩ := Option.map_eq_some_iff.mp hprocess
          simp
        · simp only [hheld, if_false, Option.map_eq_map, Option.map_id'] at hprocess
          exact hsound.others pid process hprocess (by simpa [hchild] using hheld)

theorem boot_sound (host : HostEnv) (port : UInt16) (isFile : Bool) (attempt : SpawnAttempt) :
    (boot host port isFile attempt).Sound := by
  unfold boot
  split
  next => exact bare_sound port
  next path _ =>
    split
    next =>
      dsimp only
      split
      next hosted hok => exact (bare_sound port).serve rfl hok
      next => exact bare_sound port
    next => exact bare_sound port

theorem Sound.switchInner {host : HostEnv} {hosted : Hosted} {model path : String}
    {peers : List String} {attempt : SpawnAttempt} (hsound : hosted.Sound) :
    (hosted.switchInner host model path peers attempt).1.Sound := by
  unfold Hosted.switchInner
  split
  next started hok => exact hsound.stop.serve rfl hok
  next => exact hsound.stop

/-- A process that ends leaves the supervisor as it is. -/
theorem exit_sup {hosted next : Hosted} {pid : ℕ} (hexit : hosted.exit pid = some next) :
    next.sup = hosted.sup := by
  obtain ⟨process, -, hexit⟩ := Option.bind_eq_some_iff.mp hexit
  split at hexit
  next =>
    cases hexit
    rfl
  next => cases hexit

theorem Sound.exit {hosted next : Hosted} {pid : ℕ} (hsound : hosted.Sound)
    (hexit : hosted.exit pid = some next) : next.Sound := by
  unfold Hosted.exit at hexit
  obtain ⟨process, hprocess, hexit⟩ := Option.bind_eq_some_iff.mp hexit
  split at hexit
  next =>
    cases hexit
    -- the end of a process leaves its model, and whether it was stopped
    have hset : ∀ (other : ℕ) (found : Process),
        (hosted.processes.set pid { process with exited := true })[other]? = some found →
        ∃ before : Process, hosted.processes[other]? = some before ∧
          found.model = before.model ∧ found.stopped = before.stopped := by
      intro other found hfound
      rcases getElem?_set_eq_some hfound with ⟨rfl, rfl⟩ | ⟨-, hbefore⟩
      · exact ⟨process, hprocess, rfl, rfl⟩
      · exact ⟨found, hbefore, rfl, rfl⟩
    refine ⟨hsound.idle, ?_, ?_⟩
    · intro held hchild
      obtain ⟨before, hbefore, hrunning, hmodel⟩ := hsound.held held hchild
      have hlt : held < (hosted.processes.set pid { process with exited := true }).length := by
        rw [List.length_set]
        exact (List.getElem?_eq_some_iff.mp hbefore).1
      obtain ⟨other, hother, hsame, hstopped⟩ := hset held _ (List.getElem?_eq_getElem hlt)
      cases hbefore.symm.trans hother
      exact ⟨_, List.getElem?_eq_getElem hlt, hstopped.trans hrunning,
        hmodel.trans (congrArg some hsame.symm)⟩
    · intro other found hfound hother
      obtain ⟨before, hbefore, -, hstopped⟩ := hset other found hfound
      exact hstopped.trans (hsound.others other before hbefore hother)
  next => cases hexit

end Hosted

end GpuCluster.Worker
