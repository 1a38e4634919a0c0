import GpuCluster.Foundation.Machine
import GpuCluster.Worker.InferenceServer

/-! # Runs of the supervisor

A supervisor that boots and is then switched from model to model, whatever each
spawn does. Processes may end on their own in between.
-/

namespace GpuCluster.Worker

open Common Foundation Proto

namespace Hosted

/-- `Supervisor::switch_to`. -/
def switchTo (host : HostEnv) (hosted : Hosted) (modelId path : String)
    (attempt : SpawnAttempt) : Hosted × Except String Unit :=
  hosted.switchInner host modelId path [] attempt

/-- `Supervisor::switch_to_multi`. -/
def switchToMulti (host : HostEnv) (hosted : Hosted) (modelId path : String)
    (peers : List String) (attempt : SpawnAttempt) : Hosted × Except String Unit :=
  hosted.switchInner host modelId path peers attempt

end Hosted

inductive SupervisorAction
  | switchTo (modelId path : String) (attempt : SpawnAttempt)
  | switchToMulti (modelId path : String) (peers : List String) (attempt : SpawnAttempt)
  | exit (pid : ℕ)

def supervision (host : HostEnv) (port : UInt16) : Machine Hosted SupervisorAction where
  init hosted := ∃ isFile attempt, hosted = .boot host port isFile attempt
  step hosted
    | .switchTo modelId path attempt => some (hosted.switchTo host modelId path attempt).1
    | .switchToMulti modelId path peers attempt =>
        some (hosted.switchToMulti host modelId path peers attempt).1
    | .exit pid => hosted.exit pid

/-! ## What holds after each call -/

/-- The child and what it serves are known together. -/
structure Supervisor.Together (sup : Supervisor) : Prop where
  path : sup.modelPath.isSome = sup.child.isSome
  model : sup.modelId.isSome = sup.child.isSome

/-- No two processes are left that were not killed. -/
def Hosted.SingleProcess (hosted : Hosted) : Prop :=
  ∀ (i j : ℕ) (first second : Process), hosted.processes[i]? = some first →
    hosted.processes[j]? = some second → first.stopped = false → second.stopped = false → i = j

/-- Heartbeats name a model exactly when they name an endpoint. -/
def Supervisor.AdvertisesTogether (sup : Supervisor) : Prop :=
  ∀ (info : NodeInfo) (advertisedHost : Option String) (controlEndpoint : String),
    ((publishBody info sup advertisedHost controlEndpoint).get? "inference_endpoint").isSome =
      ((publishBody info sup advertisedHost controlEndpoint).get? "current_model").isSome

/-- Nothing runs, nothing is known to be served, and no heartbeat names anything. -/
structure Hosted.Silent (hosted : Hosted) : Prop where
  child : hosted.sup.child = none
  path : hosted.sup.modelPath = none
  model : hosted.sup.modelId = none
  processes : ∀ process ∈ hosted.processes, process.stopped = true
  bodies : ∀ (info : NodeInfo) (advertisedHost : Option String) (controlEndpoint key : String),
    key ∈ ["inference_endpoint", "current_model"] →
      (publishBody info hosted.sup advertisedHost controlEndpoint).get? key = none

/-! ## The invariant -/

theorem Hosted.serve_together {host : HostEnv} {hosted started : Hosted}
    {model path served : String}
    {peers : List String} {attempt : SpawnAttempt}
    (hok : hosted.spawn host model path peers attempt = .ok started) :
    (started.serve model served).sup.Together := by
  obtain ⟨command, rfl⟩ := Hosted.spawn_ok hok
  exact ⟨rfl, rfl⟩

theorem Hosted.boot_together (host : HostEnv) (port : UInt16) (isFile : Bool)
    (attempt : SpawnAttempt) : (Hosted.boot host port isFile attempt).sup.Together := by
  have hbare : (Hosted.bare port).sup.Together := ⟨rfl, rfl⟩
  unfold Hosted.boot
  split
  next => exact hbare
  next =>
    split
    next =>
      dsimp only
      split
      next hok => exact serve_together hok
      next => exact hbare
    next => exact hbare

/-- Every error path of a switch leaves the supervisor cleared. -/
theorem Hosted.switchInner_together (host : HostEnv) (hosted : Hosted) (model path : String)
    (peers : List String) (attempt : SpawnAttempt) :
    (hosted.switchInner host model path peers attempt).1.sup.Together := by
  unfold Hosted.switchInner
  split
  next hok => exact serve_together hok
  next => exact ⟨rfl, rfl⟩

theorem supervision_invariant {host : HostEnv} {port : UInt16} {hosted : Hosted}
    (hreach : (supervision host port).Reachable hosted) : hosted.Sound ∧ hosted.sup.Together := by
  refine hreach.invariant (fun hosted => hosted.Sound ∧ hosted.sup.Together) ?_ ?_
  · rintro hosted ⟨isFile, attempt, rfl⟩
    exact ⟨Hosted.boot_sound host port isFile attempt,
      Hosted.boot_together host port isFile attempt⟩
  · rintro hosted action next ⟨hsound, htogether⟩ hstep
    cases action with
    | switchTo modelId path attempt =>
        cases hstep
        exact ⟨hsound.switchInner, Hosted.switchInner_together ..⟩
    | switchToMulti modelId path peers attempt =>
        cases hstep
        exact ⟨hsound.switchInner, Hosted.switchInner_together ..⟩
    | exit pid =>
        refine ⟨hsound.exit hstep, ?_⟩
        rw [Hosted.exit_sup hstep]
        exact htogether

/-! ## What follows -/

/-- The process that was not killed is the child's. -/
theorem Hosted.Sound.singleProcess {hosted : Hosted} (hsound : hosted.Sound) :
    hosted.SingleProcess := by
  have hchild : ∀ (i : ℕ) (process : Process), hosted.processes[i]? = some process →
      process.stopped = false → hosted.sup.child = some i := by
    intro i process hprocess hrunning
    by_contra hother
    rw [hsound.others i process hprocess hother] at hrunning
    cases hrunning
  intro i j first second hfirst hsecond hrunning hrunning'
  have hi := hchild i first hfirst hrunning
  rw [hchild j second hsecond hrunning', Option.some.injEq] at hi
  exact hi.symm

theorem Supervisor.isSome_bodies (sup : Supervisor) (info : NodeInfo)
    (advertisedHost : Option String) (controlEndpoint : String) :
    ((publishBody info sup advertisedHost controlEndpoint).get? "inference_endpoint").isSome =
      sup.child.isSome ∧
    ((publishBody info sup advertisedHost controlEndpoint).get? "current_model").isSome =
      sup.modelId.isSome := by
  obtain ⟨-, hendpoint, -, hmodel⟩ := publishBody_sidecars info sup advertisedHost controlEndpoint
  rw [hendpoint, hmodel]
  simp [Supervisor.endpointAdvertise]

/-- A switch that fails has stopped the old process and started none. -/
theorem Hosted.Sound.silent_of_error {host : HostEnv} {hosted after : Hosted}
    {model path message : String} {peers : List String} {attempt : SpawnAttempt}
    (hsound : hosted.Sound)
    (hfailed : hosted.switchInner host model path peers attempt = (after, .error message)) :
    after.Silent := by
  unfold Hosted.switchInner at hfailed
  split at hfailed
  next => cases hfailed
  next =>
    cases hfailed
    refine ⟨rfl, rfl, rfl, ?_, ?_⟩
    · intro process hprocess
      obtain ⟨i, hi⟩ := List.mem_iff_getElem?.mp hprocess
      exact hsound.stop.others i process hi (by simp [Hosted.stop])
    · intro info advertisedHost controlEndpoint key hkey
      obtain ⟨hendpoint, hmodel⟩ :=
        hosted.stop.sup.isSome_bodies info advertisedHost controlEndpoint
      rcases List.mem_pair.mp hkey with rfl | rfl
      · exact Option.isNone_iff_eq_none.mp (Option.isSome_eq_false_iff.mp hendpoint)
      · exact Option.isNone_iff_eq_none.mp (Option.isSome_eq_false_iff.mp hmodel)

/-- After every call of every run, the supervisor's fields agree, at most one
process was not killed, and heartbeats name a model and an endpoint or neither;
a switch that fails leaves nothing behind. -/
theorem supervision_settled (host : HostEnv) (port : UInt16) (hosted : Hosted)
    (hreach : (supervision host port).Reachable hosted) :
    hosted.sup.Together ∧ hosted.SingleProcess ∧ hosted.sup.AdvertisesTogether ∧
    (∀ modelId path attempt after message,
      hosted.switchTo host modelId path attempt = (after, .error message) → after.Silent) ∧
    ∀ modelId path peers attempt after message,
      hosted.switchToMulti host modelId path peers attempt = (after, .error message) →
        after.Silent := by
  obtain ⟨hsound, htogether⟩ := supervision_invariant hreach
  refine ⟨htogether, hsound.singleProcess, ?_, ?_, ?_⟩
  · intro info advertisedHost controlEndpoint
    obtain ⟨hendpoint, hmodel⟩ := hosted.sup.isSome_bodies info advertisedHost controlEndpoint
    rw [hendpoint, hmodel, htogether.model]
  · intro modelId path attempt after message hfailed
    exact hsound.silent_of_error hfailed
  · intro modelId path peers attempt after message hfailed
    exact hsound.silent_of_error hfailed

def bareHost : HostEnv := ⟨none, none, none, none, fun _ => none⟩

/-- A worker that booted without a model and loaded one. -/
def loadedOnce : Hosted :=
  ((Hosted.boot bareHost 50053 true ⟨true, none, false⟩).switchTo bareHost "m" "/models/m.gguf"
    ⟨true, some "llama-server", true⟩).1

theorem supervision_settled_loadedOnce :
    loadedOnce.sup.Together ∧ loadedOnce.SingleProcess ∧ loadedOnce.sup.AdvertisesTogether := by
  have hstep : (supervision bareHost 50053).step
      (.boot bareHost 50053 true ⟨true, none, false⟩)
      (.switchTo "m" "/models/m.gguf" ⟨true, some "llama-server", true⟩) = some loadedOnce := rfl
  have hreach : (supervision bareHost 50053).Reachable loadedOnce :=
    .step (.init ⟨true, ⟨true, none, false⟩, rfl⟩) hstep
  have hsettled := supervision_settled bareHost 50053 loadedOnce hreach
  exact ⟨hsettled.1, hsettled.2.1, hsettled.2.2.1⟩

end GpuCluster.Worker
