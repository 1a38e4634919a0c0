import GpuCluster.Foundation.Machine
import GpuCluster.Sysinfo.Detect
import GpuCluster.Worker.Identity

/-! # A worker process from start to shutdown

The agent collects an inventory, reports it, and from then on collects and
reports a fresh one at every tick. A shutdown signal ends the loop wherever it
is; a last report then says that the worker drains.
-/

namespace GpuCluster.Worker

open Foundation Proto Sysinfo

/-! ## The loop -/

/-- A report: the inventory and the supervisor's state that it was made of. -/
structure Posted where
  info : NodeInfo
  sup : Supervisor
  deriving DecidableEq

inductive AgentPhase
  /-- The next thing to do is to report. -/
  | publishing
  | waiting
  | stopped
  deriving DecidableEq

/-- A worker process: the facts of its start, its last inventory, and its reports,
newest first. `collected` records the facts of every collection. -/
structure AgentRun where
  startup : HostFacts
  info : NodeInfo
  phase : AgentPhase
  posted : List Posted
  collected : List HostFacts

inductive AgentStep
  | publish (sup : Supervisor)
  /-- A tick, with what `collect` finds; the last inventory is kept when it fails. -/
  | tick (facts : Option HostFacts)
  | drain (sup : Supervisor)

namespace AgentRun

variable (config : WorkerConfig) (nodeId : String)

/-- `run` up to the heartbeat loop. -/
def start (facts : HostFacts) : AgentRun where
  startup := facts
  info := identified config nodeId facts.collect
  phase := .publishing
  posted := []
  collected := [facts]

/-- The next step of `run_loop`, or the shutdown handler, which reports the
inventory of the start. -/
def step (s : AgentRun) : AgentStep → Option AgentRun
  | .publish sup =>
      if s.phase = .publishing then
        some { s with phase := .waiting, posted := ⟨s.info, sup⟩ :: s.posted }
      else none
  | .tick (some facts) =>
      if s.phase = .waiting then
        some { s with
          phase := .publishing
          info := refreshed s.info facts.collect
          collected := facts :: s.collected }
      else none
  | .tick none => if s.phase = .waiting then some { s with phase := .publishing } else none
  | .drain sup =>
      if s.phase = .stopped then none
      else some { s with
        phase := .stopped
        posted := ⟨draining (identified config nodeId s.startup.collect), sup⟩ :: s.posted }

end AgentRun

/-- A worker that runs under this configuration and this id. -/
def agent (config : WorkerConfig) (nodeId : String) : Machine AgentRun AgentStep where
  init s := ∃ facts, s = .start config nodeId facts
  step := AgentRun.step config nodeId

/-! ## What a run reports -/

section Runs

variable {config : WorkerConfig} {nodeId : String} {s next : AgentRun}

/-- A report carries an inventory that the process collected, under its id and
name; the draining one that of the start, and it is the last. -/
inductive AgentRun.Reports (config : WorkerConfig) (nodeId : String) (s : AgentRun)
    (p : Posted) : Prop
  | online (facts : HostFacts) (hfacts : facts ∈ s.collected)
      (hinfo : p.info = identified config nodeId facts.collect)
  | drained (hstopped : s.phase = .stopped) (hlast : s.posted.head? = some p)
      (hinfo : p.info = draining (identified config nodeId s.startup.collect))

structure AgentRun.Regular (config : WorkerConfig) (nodeId : String) (s : AgentRun) : Prop where
  startup : s.startup ∈ s.collected
  info : ∃ facts ∈ s.collected, s.info = identified config nodeId facts.collect
  posted : ∀ p ∈ s.posted, s.Reports config nodeId p

/-- A refreshed inventory is one that was collected under the same id and name. -/
theorem refreshed_identified (config : WorkerConfig) (nodeId : String) (before facts : HostFacts) :
    refreshed (identified config nodeId before.collect) facts.collect =
      identified config nodeId facts.collect := rfl

theorem AgentRun.Reports.mono {p : Posted} (hp : s.Reports config nodeId p)
    (hphase : s.phase ≠ .stopped) (hcollected : ∀ facts ∈ s.collected, facts ∈ next.collected) :
    next.Reports config nodeId p := by
  cases hp with
  | online facts hfacts hinfo => exact .online facts (hcollected facts hfacts) hinfo
  | drained hstopped => exact absurd hstopped hphase

theorem AgentRun.regular_step {action : AgentStep} (hs : s.Regular config nodeId)
    (hstep : s.step config nodeId action = some next) : next.Regular config nodeId := by
  cases action with
  | publish sup =>
      simp only [AgentRun.step, Option.ite_none_right_eq_some, Option.some.injEq] at hstep
      obtain ⟨hphase, rfl⟩ := hstep
      refine ⟨hs.startup, hs.info, fun p hp => ?_⟩
      rcases List.mem_cons.mp hp with rfl | hold
      · obtain ⟨facts, hfacts, hinfo⟩ := hs.info
        exact .online facts hfacts hinfo
      · exact (hs.posted p hold).mono (by simp [hphase]) fun _ h => h
  | tick facts =>
      cases facts with
      | none =>
          simp only [AgentRun.step, Option.ite_none_right_eq_some, Option.some.injEq] at hstep
          obtain ⟨hphase, rfl⟩ := hstep
          refine ⟨hs.startup, hs.info, fun p hp => ?_⟩
          exact (hs.posted p hp).mono (by simp [hphase]) fun _ h => h
      | some facts =>
          simp only [AgentRun.step, Option.ite_none_right_eq_some, Option.some.injEq] at hstep
          obtain ⟨hphase, rfl⟩ := hstep
          refine ⟨List.mem_cons_of_mem _ hs.startup, ⟨facts, List.mem_cons_self, ?_⟩,
            fun p hp => ?_⟩
          · obtain ⟨before, -, hinfo⟩ := hs.info
            rw [hinfo]
            exact refreshed_identified config nodeId before facts
          · exact (hs.posted p hp).mono (by simp [hphase]) fun _ h => List.mem_cons_of_mem _ h
  | drain sup =>
      simp only [AgentRun.step, Option.ite_none_left_eq_some, Option.some.injEq] at hstep
      obtain ⟨hphase, rfl⟩ := hstep
      refine ⟨hs.startup, hs.info, fun p hp => ?_⟩
      rcases List.mem_cons.mp hp with rfl | hold
      · exact .drained rfl rfl rfl
      · exact (hs.posted p hold).mono hphase fun _ h => h

theorem AgentRun.regular_of_reachable (hs : (agent config nodeId).Reachable s) :
    s.Regular config nodeId := by
  refine hs.invariant (AgentRun.Regular config nodeId) ?_ fun _ _ _ hs hstep =>
    regular_step hs hstep
  rintro _ ⟨facts, rfl⟩
  exact ⟨List.mem_cons_self, ⟨facts, List.mem_cons_self, rfl⟩,
    fun p hp => absurd hp List.not_mem_nil⟩

end Runs

end GpuCluster.Worker
