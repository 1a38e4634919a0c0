import GpuCluster.Coordinator.History
import GpuCluster.Foundation.Machine
import Mathlib.Logic.Function.Basic

/-! # The coordinator, step by step

A report handler checks for duplicates and stores its entry in two steps; the
watchdog reads the clock, takes a listing and writes one entry at a time.
Between any two of these steps the others may run. Each step carries the clock
reading it makes.
-/

namespace GpuCluster.Coordinator

open Common Foundation Proto

/-- Where the watchdog's loop stands. A sweep compares with the reading it woke
at and works through the rest of its listing. -/
inductive Watchdog
  | waiting
  | woken (woke : ℤ)
  | sweeping (woke : ℤ) (todo : List NodeEntry)

/-- The recorded registry, the handlers between check and insert, and the
watchdog. -/
structure Interleaved where
  recorded : Recorded
  handlers : ℕ → Option Report
  watchdog : Watchdog

inductive Step
  | check (handler : ℕ) (peer : String) (body : Json)
  | store (handler : ℕ)
  | register (freshId : String) (req : RegisterRequest)
  | wake
  | list
  | sweep
  | rehash (inner : AList fun _ : String => NodeEntry)

namespace Interleaved

def initial (start : ℤ) : Interleaved := ⟨.initial start, fun _ => none, .waiting⟩

/-- Nothing happens but that time passes. -/
def advance (state : Interleaved) (now : ℤ) : Interleaved :=
  { state with recorded := { state.recorded with clock := now } }

/-- `report_node` up to its duplicate guard. A refused report leaves nothing. -/
def check (state : Interleaved) (now : ℤ) (handler : ℕ) (peer : String) (body : Json) :
    Option Interleaved :=
  match state.handlers handler with
  | some _ => none
  | none =>
      match decodeReport peer body with
      | .error _ => some (state.advance now)
      | .ok report =>
          match checkDuplicate state.recorded.registry now report with
          | .error _ => some (state.advance now)
          | .ok _ => some { state.advance now with
              handlers := Function.update state.handlers handler (some report) }

/-- The rest of `report_node`. -/
def store (state : Interleaved) (now : ℤ) (handler : ℕ) : Option Interleaved :=
  (state.handlers handler).map fun report =>
    { state with
      recorded := state.recorded.write (.report now report)
      handlers := Function.update state.handlers handler none }

/-- One round of the watchdog's inner loop. -/
def sweep (state : Interleaved) (now : ℤ) : Option Interleaved :=
  match state.watchdog with
  | .sweeping _ [] => some { state.advance now with watchdog := .waiting }
  | .sweeping woke (snapshot :: rest) =>
      if snapshot.isStale woke then
        some { state with
          recorded := state.recorded.write (.mark now snapshot)
          watchdog := .sweeping woke rest }
      else some { state.advance now with watchdog := .sweeping woke rest }
  | _ => none

end Interleaved

namespace Step

def run (state : Interleaved) (now : ℤ) : Step → Option Interleaved
  | .check handler peer body => state.check now handler peer body
  | .store handler => state.store now handler
  | .register freshId req =>
      some { state with recorded := state.recorded.register now freshId req }
  | .wake =>
      match state.watchdog with
      | .waiting => some { state.advance now with watchdog := .woken now }
      | _ => none
  | .list =>
      match state.watchdog with
      | .woken woke => some { state.advance now with
          watchdog := .sweeping woke state.recorded.registry.list }
      | _ => none
  | .sweep => state.sweep now
  | .rehash inner => (state.recorded.rehash now inner).map fun recorded =>
      { state with recorded := recorded }

/-- The registry write a step is about to make. -/
def write (state : Interleaved) (now : ℤ) : Step → Option Write
  | .store handler => (state.handlers handler).map (.report now)
  | .register freshId req => (req.stored freshId).map (.register now)
  | .sweep =>
      match state.watchdog with
      | .sweeping woke (snapshot :: _) =>
          if snapshot.isStale woke then some (.mark now snapshot) else none
      | _ => none
  | _ => none

end Step

/-- The coordinator with interleaved steps at non-decreasing times. -/
def interleaved : Machine Interleaved (ℤ × Step) where
  init state := ∃ start, state = .initial start
  step state action :=
    if state.recorded.clock ≤ action.1 then action.2.run state action.1 else none

theorem interleaved_initial (start : ℤ) : interleaved.Reachable (.initial start) :=
  .init ⟨start, rfl⟩

/-! ## What a step can do -/

/-- The registry part of a step without a write: lookups and log are kept. -/
structure Recorded.Passes (state next : Recorded) (now : ℤ) : Prop where
  get_eq : ∀ id, next.registry.get id = state.registry.get id
  log_eq : next.log = state.log
  clock_eq : next.clock = now

theorem Recorded.passes_clock (state : Recorded) (now : ℤ) :
    state.Passes { state with clock := now } now := ⟨fun _ => rfl, rfl, rfl⟩

theorem Recorded.passes_rehash {state next : Recorded} {now : ℤ}
    {inner : AList fun _ : String => NodeEntry} (hnext : state.rehash now inner = some next) :
    state.Passes next now := by
  unfold Recorded.rehash at hnext
  split at hnext
  next hperm =>
    cases hnext
    exact ⟨fun id => KeyedMap.get_rehash _ inner hperm id, rfl, rfl⟩
  next => cases hnext

/-- A step makes the write announced for it, or none. -/
theorem Step.run_recorded {state next : Interleaved} {now : ℤ} {step : Step}
    (hrun : step.run state now = some next) :
    match step.write state now with
    | some write => next.recorded = state.recorded.write write
    | none => state.recorded.Passes next.recorded now := by
  cases step with
  | check handler peer body =>
      simp only [Step.run, Interleaved.check, Step.write] at hrun ⊢
      repeat' split at hrun
      all_goals cases hrun
      all_goals exact state.recorded.passes_clock now
  | store handler =>
      simp only [Step.run, Interleaved.store, Step.write] at hrun ⊢
      cases hreport : state.handlers handler with
      | none => simp [hreport] at hrun
      | some report =>
          rw [hreport] at hrun
          cases hrun
          rfl
  | register freshId req =>
      cases hrun
      simp only [Recorded.register, Step.write]
      cases req.stored freshId with
      | none => exact state.recorded.passes_clock now
      | some info => rfl
  | wake =>
      simp only [Step.run, Step.write] at hrun ⊢
      split at hrun
      · cases hrun
        exact state.recorded.passes_clock now
      · cases hrun
  | list =>
      simp only [Step.run, Step.write] at hrun ⊢
      split at hrun
      · cases hrun
        exact state.recorded.passes_clock now
      · cases hrun
  | sweep =>
      simp only [Step.run, Interleaved.sweep, Step.write] at hrun ⊢
      split at hrun
      next woke hwatchdog =>
        cases hrun
        simp only [hwatchdog]
        exact state.recorded.passes_clock now
      next woke snapshot rest hwatchdog =>
        simp only [hwatchdog]
        split at hrun
        next hstale =>
          cases hrun
          simp only [hstale, if_true]
        next hfresh =>
          cases hrun
          simp only [hfresh]
          exact state.recorded.passes_clock now
      next => cases hrun
  | rehash inner =>
      obtain ⟨recorded, hrecorded, rfl⟩ := Option.map_eq_some_iff.mp hrun
      exact Recorded.passes_rehash hrecorded

theorem Step.write_time {state : Interleaved} {now : ℤ} {step : Step} {write : Write}
    (hwrite : step.write state now = some write) : write.time = now := by
  cases step with
  | store handler =>
      obtain ⟨report, -, rfl⟩ := Option.map_eq_some_iff.mp hwrite
      rfl
  | register freshId req =>
      obtain ⟨info, -, rfl⟩ := Option.map_eq_some_iff.mp hwrite
      rfl
  | sweep =>
      simp only [Step.write] at hwrite
      repeat' split at hwrite
      all_goals cases hwrite
      rfl
  | check | wake | list | rehash => cases hwrite

theorem interleaved_step {state next : Interleaved} {now : ℤ} {step : Step}
    (hstep : interleaved.step state (now, step) = some next) :
    state.recorded.clock ≤ now ∧ step.run state now = some next := by
  simp only [interleaved] at hstep
  split at hstep
  next htime => exact ⟨htime, hstep⟩
  next => cases hstep

/-- A handler that waits after the check decoded its body. -/
theorem Interleaved.check_handlers {state next : Interleaved} {now : ℤ} {handler : ℕ}
    {peer : String} {body : Json} {report : Report}
    (hcheck : state.check now handler peer body = some next)
    (hwaits : next.handlers handler = some report) : decodeReport peer body = .ok report := by
  unfold Interleaved.check at hcheck
  split at hcheck
  next => cases hcheck
  next hfree =>
    split at hcheck
    next =>
      cases hcheck
      exact absurd (hfree.symm.trans hwaits) (by simp)
    next decoded hdecode =>
      split at hcheck
      next =>
        cases hcheck
        exact absurd (hfree.symm.trans hwaits) (by simp)
      next =>
        cases hcheck
        change Function.update state.handlers handler (some decoded) handler = _ at hwaits
        rw [Function.update_self, Option.some.injEq] at hwaits
        rw [hdecode, hwaits]

/-- A handler waits at its second step until it takes it. -/
theorem Step.run_handlers {state next : Interleaved} {now : ℤ} {step : Step}
    (hrun : step.run state now = some next) {handler : ℕ} {report : Report}
    (hwaits : state.handlers handler = some report) (hother : step ≠ .store handler) :
    next.handlers handler = some report := by
  cases step with
  | check other peer body =>
      simp only [Step.run, Interleaved.check] at hrun
      split at hrun
      next => cases hrun
      next hfree =>
        repeat' split at hrun
        all_goals cases hrun
        · exact hwaits
        · exact hwaits
        · have hne : handler ≠ other := by
            intro hsame
            rw [← hsame, hwaits] at hfree
            cases hfree
          exact (Function.update_of_ne hne ..).trans hwaits
  | store other =>
      obtain ⟨stored, -, rfl⟩ := Option.map_eq_some_iff.mp hrun
      have hne : handler ≠ other := fun hsame => hother (hsame ▸ rfl)
      exact (Function.update_of_ne hne ..).trans hwaits
  | register freshId req =>
      cases hrun
      exact hwaits
  | wake | list =>
      simp only [Step.run] at hrun
      split at hrun
      · cases hrun
        exact hwaits
      · cases hrun
  | sweep =>
      simp only [Step.run, Interleaved.sweep] at hrun
      repeat' split at hrun
      all_goals cases hrun
      all_goals exact hwaits
  | rehash inner =>
      obtain ⟨recorded, -, rfl⟩ := Option.map_eq_some_iff.mp hrun
      exact hwaits

theorem interleaved_step_faithful {state next : Interleaved} {action : ℤ × Step}
    (hstate : state.recorded.Faithful) (hstep : interleaved.step state action = some next) :
    next.recorded.Faithful := by
  obtain ⟨now, step⟩ := action
  obtain ⟨htime, hrun⟩ := interleaved_step hstep
  have hrecorded := Step.run_recorded hrun
  cases hwrite : step.write state now with
  | none =>
      simp only [hwrite] at hrecorded
      exact hstate.advance hrecorded.get_eq hrecorded.log_eq (hrecorded.clock_eq ▸ htime)
  | some write =>
      simp only [hwrite] at hrecorded
      rw [hrecorded]
      exact hstate.write (Step.write_time hwrite ▸ htime)

/-- The map shows the last write to each node, in any interleaving. -/
theorem interleaved_faithful {state : Interleaved} (hreach : interleaved.Reachable state) :
    state.recorded.Faithful := by
  apply hreach.invariant fun state => state.recorded.Faithful
  · rintro _ ⟨start, rfl⟩
    exact Recorded.faithful_initial start
  · intro state action next hstate hstep
    exact interleaved_step_faithful hstate hstep

end GpuCluster.Coordinator
