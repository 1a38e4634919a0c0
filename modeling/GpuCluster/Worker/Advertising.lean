import GpuCluster.Worker.ControlServer

/-! # What heartbeats advertise

A heartbeat names the model and the endpoint of the child that the supervisor
holds. Nobody asks whether the child's process still runs. What is judged is the body
as it is made; that the child may exit while it is on its way is left out.
-/

namespace GpuCluster.Worker

open Foundation Proto

/-- A body that names a model or an endpoint does so while a process started for
that model runs. -/
def TellsRunning (processes : List Process) (body : Json) : Prop :=
  ∀ key ∈ ["current_model", "inference_endpoint"], (body.get? key).isSome →
    ∃ process ∈ processes, body.get? "current_model" = some (.string process.model) ∧
      process.running = true

/-- Every heartbeat of a run tells of running processes only. -/
def TellsRunningStep (setup : WorkerSetup) (s : WorkerState) : WorkerAction → Prop
  | .publish info => TellsRunning s.hosted.processes (s.body setup info)
  | _ => True

/-- At a heartbeat, the process of the supervisor's child has not ended on its own. -/
def ChildStays (s : WorkerState) : WorkerAction → Prop
  | .publish _ => ∀ pid process, s.hosted.sup.child = some pid →
      s.hosted.processes[pid]? = some process → process.exited = false
  | _ => True

section

variable (setup : WorkerSetup) {s : WorkerState}

/-- Without a child, a heartbeat names neither. -/
theorem get?_body_of_idle (hsound : s.hosted.Sound) (hidle : s.hosted.sup.child = none)
    (info : NodeInfo) : (s.body setup info).get? "current_model" = none ∧
      (s.body setup info).get? "inference_endpoint" = none := by
  obtain ⟨-, hendpoint, -, hmodel⟩ := publishBody_sidecars info s.hosted.sup
    setup.host.inferenceAdvertisedHost setup.controlEndpoint
  constructor
  · rw [WorkerState.body, hmodel, hsound.idle hidle]
    rfl
  · rw [WorkerState.body, hendpoint]
    simp [Supervisor.endpointAdvertise, hidle]

/-- With one, it names the model the child was started for. -/
theorem tellsRunning_iff (hsound : s.hosted.Sound) (info : NodeInfo) :
    TellsRunning s.hosted.processes (s.body setup info) ↔
      ∀ pid process, s.hosted.sup.child = some pid →
        s.hosted.processes[pid]? = some process → process.exited = false := by
  cases hchild : s.hosted.sup.child with
  | none =>
      obtain ⟨hmodel, hendpoint⟩ := get?_body_of_idle setup hsound hchild info
      constructor
      · intro _ pid process hcase
        cases hcase
      · intro _ key hkey hsome
        simp only [List.mem_cons, List.not_mem_nil, or_false] at hkey
        rcases hkey with rfl | rfl
        · rw [hmodel] at hsome
          cases hsome
        · rw [hendpoint] at hsome
          cases hsome
  | some pid =>
      obtain ⟨process, hprocess, hkept, hserved⟩ := hsound.held pid hchild
      have hmodel : (s.body setup info).get? "current_model" = some (.string process.model) := by
        rw [WorkerState.body, (publishBody_sidecars info s.hosted.sup _ _).2.2.2, hserved]
        rfl
      constructor
      · intro htells other found hcase hfound
        cases hcase
        cases hprocess.symm.trans hfound
        obtain ⟨runner, hrunner, -, hruns⟩ := htells "current_model" (by simp) (by simp [hmodel])
        obtain ⟨place, hplace⟩ := List.mem_iff_getElem?.mp hrunner
        simp only [Process.running, Bool.and_eq_true, Bool.not_eq_true'] at hruns
        -- any other process has been stopped
        by_cases hsame : place = pid
        · subst hsame
          cases hprocess.symm.trans hplace
          exact hruns.1
        · have hstopped := hsound.others place runner hplace fun hcase =>
            hsame (Option.some.inj (hchild.symm.trans hcase)).symm
          rw [hstopped] at hruns
          cases hruns.2
      · intro hstays key _ _
        have hexited := hstays pid process rfl hprocess
        exact ⟨process, List.mem_of_getElem? hprocess, hmodel, by
          rw [Process.running, hexited, hkept]
          rfl⟩

end

/-- All heartbeats of a run tell of running processes exactly when the child has not
ended on its own before any of them. -/
theorem tellsRunning_iff_childStays (setup : WorkerSetup) (isFile : Bool) (attempt : SpawnAttempt)
    (actions : List WorkerAction) :
    (worker setup).Meets (TellsRunningStep setup) (.boot setup isFile attempt) actions ↔
      (worker setup).Meets ChildStays (.boot setup isFile attempt) actions := by
  have hkeeps : ∀ s action next, s.hosted.Sound → (worker setup).step s action = some next →
      next.hosted.Sound := fun _ _ _ => hosted_sound_step
  refine Machine.meets_iff hkeeps ?_ (Hosted.boot_sound ..) actions
  intro s action next hsound _
  cases action with
  | publish info => exact tellsRunning_iff setup hsound info
  | _ => exact Iff.rfl

/-- A model is loaded, and its process ends. -/
def untilExit : List WorkerAction :=
  [.load (requestFor "a"), .fetched 0 (.ok ()), .switch 0 started, .exit 0]

/-- The next heartbeat names the model and the endpoint all the same. -/
theorem exited_isAdvertised : ¬(worker plainWorker).Meets (TellsRunningStep plainWorker)
    (.boot plainWorker false started) (untilExit ++ [.publish { nodeId := "n1" }]) := by
  intro hmeets
  have hrun : ((worker plainWorker).exec (.boot plainWorker false started) untilExit).any (fun s =>
      decide (s.hosted.sup.child = some 0) &&
      (s.hosted.processes[0]?).any fun process => process.exited) = true := by
    decide +kernel
  obtain ⟨s, hexec, hstate⟩ := (Option.any_eq_true _ _).mp hrun
  simp only [Bool.and_eq_true, decide_eq_true_eq] at hstate
  obtain ⟨hchild, hprocess⟩ := hstate
  obtain ⟨process, hprocess, hexited⟩ := (Option.any_eq_true _ _).mp hprocess
  have hboot : (WorkerState.boot plainWorker false started).hosted.Sound :=
    Hosted.boot_sound plainWorker.host plainWorker.port false started
  have hsound : s.hosted.Sound := Machine.exec_invariant (fun state => state.hosted.Sound)
    (fun _ _ _ => hosted_sound_step) hboot hexec
  have htells : TellsRunning s.hosted.processes (s.body plainWorker { nodeId := "n1" }) :=
    hmeets.after hexec rfl
  have hstays := (tellsRunning_iff plainWorker hsound _).mp htells 0 process hchild hprocess
  rw [hstays] at hexited
  cases hexited

end GpuCluster.Worker
