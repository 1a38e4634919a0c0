import GpuCluster.Coordinator.History
import GpuCluster.Foundation.Simulation

/-! # Taking over a machine's fingerprint

Runs of whole calls: reports, registrations and watchdog ticks, each at one
clock reading and without interruption. The duplicate guard reads heartbeat
times, and a tick writes those of the entries it marks offline, so a dead
worker can keep its successor out. The runs in which that cannot happen are
characterised exactly.
-/

namespace GpuCluster.Coordinator

open Common Foundation Proto

/-- A call to the coordinator, or a tick of its watchdog. -/
inductive Call
  | reportNode (peer : String) (body : Json)
  | register (freshId : String) (req : RegisterRequest)
  | watchdogTick
  | rehash (inner : AList fun _ : String => NodeEntry)

def Call.run (state : Recorded) (now : ℤ) : Call → Option Recorded
  | .reportNode peer body => some (state.reportNode now peer body)
  | .register freshId req => some (state.register now freshId req)
  | .watchdogTick => some (state.watchdogTick now)
  | .rehash inner => state.rehash now inner

/-- The coordinator with atomic calls at non-decreasing times. -/
def coordinator : Machine Recorded (ℤ × Call) where
  init state := ∃ start, state = .initial start
  step state action :=
    if state.clock ≤ action.1 then action.2.run state action.1 else none

theorem coordinator_initial (start : ℤ) : coordinator.Reachable (.initial start) :=
  .init ⟨start, rfl⟩

theorem clock_le_of_step {state next : Recorded} {now : ℤ} {call : Call}
    (hstep : coordinator.step state (now, call) = some next) :
    state.clock ≤ now ∧ call.run state now = some next := by
  simp only [coordinator] at hstep
  split at hstep
  next htime => exact ⟨htime, hstep⟩
  next => cases hstep

/-! ## The log of an atomic run -/

/-- The rule for one call: what survives the passing of time, a rearranged map
and every write survives the call. -/
theorem Call.run_preserves {P : Recorded → Prop}
    (hadvance : ∀ state next : Recorded, (∀ id, next.registry.get id = state.registry.get id) →
      next.log = state.log → state.clock ≤ next.clock → P state → P next)
    (hwrite : ∀ (state : Recorded) (write : Write), state.clock ≤ write.time → P state →
      P (state.write write))
    {state next : Recorded} {now : ℤ} {call : Call} (htime : state.clock ≤ now)
    (hrun : call.run state now = some next) (hstate : P state) : P next := by
  have hlater : P { state with clock := now } := hadvance state _ (fun _ => rfl) rfl htime hstate
  cases call with
  | reportNode peer body =>
      cases hrun
      unfold Recorded.reportNode
      split
      · exact hlater
      · split
        · exact hlater
        · exact hwrite state _ htime hstate
  | register freshId req =>
      cases hrun
      unfold Recorded.register
      split
      · exact hlater
      · exact hwrite state _ htime hstate
  | watchdogTick =>
      cases hrun
      unfold Recorded.watchdogTick
      generalize state.registry.list.filter (·.isStale now) = snapshots
      have hclock : ({ state with clock := now } : Recorded).clock ≤ now := le_rfl
      generalize ({ state with clock := now } : Recorded) = start at hlater hclock
      induction snapshots generalizing start with
      | nil => exact hlater
      | cons snapshot rest ih => exact ih _ (hwrite start _ hclock hlater) le_rfl
  | rehash inner =>
      simp only [Call.run, Recorded.rehash] at hrun
      split at hrun
      next hperm =>
        cases hrun
        exact hadvance state _ (fun id => KeyedMap.get_rehash _ inner hperm id) rfl htime hstate
      next => cases hrun

theorem Call.run_faithful {state next : Recorded} {now : ℤ} {call : Call}
    (hstate : state.Faithful) (htime : state.clock ≤ now) (hrun : call.run state now = some next) :
    next.Faithful :=
  Call.run_preserves (fun _ _ hget hlog htime hstate => hstate.advance hget hlog htime)
    (fun _ _ htime hstate => hstate.write htime) htime hrun hstate

/-- A node that has an entry keeps one. -/
theorem Call.run_get_isSome {state next : Recorded} {now : ℤ} {call : Call}
    (htime : state.clock ≤ now) (hrun : call.run state now = some next) {id : String}
    (hentry : (state.registry.get id).isSome) : (next.registry.get id).isSome := by
  apply Call.run_preserves (P := fun state => (state.registry.get id).isSome) _ _ htime hrun hentry
  · intro state next hget _ _ hentry
    rwa [hget]
  · intro state write _ hentry
    exact KeyedMap.isSome_get_insert write.entry hentry

theorem coordinator_faithful {state : Recorded} (hreach : coordinator.Reachable state) :
    state.Faithful := by
  apply hreach.invariant Recorded.Faithful
  · rintro _ ⟨start, rfl⟩
    exact Recorded.faithful_initial start
  · intro state action next hstate hstep
    obtain ⟨htime, hrun⟩ := clock_le_of_step hstep
    exact Call.run_faithful hstate htime hrun

/-! ## The map without the log -/

/-- The registry and the last clock reading. -/
structure Kept where
  registry : Registry
  clock : ℤ

def Recorded.kept (state : Recorded) : Kept := ⟨state.registry, state.clock⟩

/-- What a call leaves in the map. A refusal leaves it as it is. -/
def Call.leaves (reg : Registry) (now : ℤ) : Call → Option Registry
  | .reportNode peer body => some (match Coordinator.reportNode reg now peer body with
      | .ok (later, _) => later
      | .error _ => reg)
  | .register freshId req => some (match Coordinator.register reg now freshId req with
      | .ok (later, _) => later
      | .error _ => reg)
  | .watchdogTick => some (Coordinator.watchdogTick reg now)
  | .rehash inner =>
      if hperm : inner.entries.Perm reg.inner.entries then some (reg.rehash inner hperm) else none

/-- The handlers on the map alone, at non-decreasing times. -/
def registryCalls : Machine Kept (ℤ × Call) where
  init s := ∃ start, s = ⟨.empty, start⟩
  step s action :=
    if s.clock ≤ action.1 then (action.2.leaves s.registry action.1).map (⟨·, action.1⟩) else none

theorem Call.run_clock {state next : Recorded} {now : ℤ} {call : Call}
    (hrun : call.run state now = some next) : next.clock = now := by
  cases call with
  | reportNode peer body =>
      cases hrun
      unfold Recorded.reportNode
      split
      · rfl
      · split <;> rfl
  | register freshId req =>
      cases hrun
      unfold Recorded.register
      split <;> rfl
  | watchdogTick =>
      cases hrun
      unfold Recorded.watchdogTick
      generalize state.registry.list.filter (·.isStale now) = snapshots
      have hclock : ({ state with clock := now } : Recorded).clock = now := rfl
      generalize ({ state with clock := now } : Recorded) = start at hclock
      induction snapshots generalizing start with
      | nil => exact hclock
      | cons snapshot rest ih => exact ih _ rfl
  | rehash inner =>
      simp only [Call.run, Recorded.rehash] at hrun
      split at hrun
      next =>
        cases hrun
        rfl
      next => cases hrun

/-- What a recorded call does to the map is what the handler does. -/
theorem Call.run_leaves (state : Recorded) (now : ℤ) (call : Call) :
    (call.run state now).map Recorded.registry = call.leaves state.registry now := by
  cases call with
  | reportNode peer body => exact congrArg some (state.reportNode_registry now peer body)
  | register freshId req => exact congrArg some (state.register_registry now freshId req)
  | watchdogTick => exact congrArg some (state.watchdogTick_registry now)
  | rehash inner =>
      simp only [run, leaves, Recorded.rehash]
      split <;> rfl

theorem registryCalls_step (state : Recorded) (action : ℤ × Call) :
    registryCalls.step state.kept action = (coordinator.step state action).map Recorded.kept := by
  obtain ⟨now, call⟩ := action
  simp only [registryCalls, coordinator, Recorded.kept]
  split
  next =>
    rw [← call.run_leaves, Option.map_map]
    apply Option.map_congr
    intro next hrun
    rw [Function.comp, Recorded.kept, Call.run_clock hrun]
  next => rfl

/-- After any calls the map holds, for each node, the entry of the last write that the log
of these calls has for it, and no other entry. -/
theorem registry_holdsLastWrites {start : ℤ} {calls : List (ℤ × Call)} {last : Kept}
    (hexec : registryCalls.exec ⟨.empty, start⟩ calls = some last) :
    ∃ state, coordinator.exec (.initial start) calls = some state ∧ state.kept = last ∧
      ∀ id, last.registry.get id = (lastWrite state.log id).map Write.entry := by
  have hrun := Machine.exec_map registryCalls_step (.initial start) calls
  obtain ⟨state, hstate, rfl⟩ := Option.map_eq_some_iff.mp (hrun.symm.trans hexec)
  have hfaithful := coordinator_faithful ((coordinator_initial start).exec hstate)
  exact ⟨state, hstate, rfl, hfaithful.get_eq⟩

/-- Two workers of one machine report, and the second one is refused. -/
theorem refusedReport_isNotHeld :
    let calls : List (ℤ × Call) := [(0, .reportNode "10.0.0.1" (bareBody "x" "hw" none)),
      (seconds 1, .reportNode "10.0.0.2" (bareBody "y" "hw" none))]
    ∃ last state, registryCalls.exec ⟨.empty, 0⟩ calls = some last ∧
      coordinator.exec (.initial 0) calls = some state ∧ (last.registry.get "x").isSome ∧
      (lastWrite state.log "x").isSome ∧ last.registry.get "y" = none ∧
      lastWrite state.log "y" = none := by
  intro calls
  have hrun : (registryCalls.exec ⟨.empty, 0⟩ calls).any (fun last =>
      (last.registry.get "x").isSome && (last.registry.get "y").isNone) = true := by
    decide +kernel
  obtain ⟨last, hexec, hmap⟩ := (Option.any_eq_true _ _).mp hrun
  obtain ⟨hfirst, hsecond⟩ := Bool.and_eq_true_iff.mp hmap
  obtain ⟨state, hstate, -, hget⟩ := registry_holdsLastWrites hexec
  have hnone := Option.isNone_iff_eq_none.mp hsecond
  refine ⟨last, state, hexec, hstate, hfirst, ?_, hnone, ?_⟩
  · rwa [hget, Option.isSome_map] at hfirst
  · rwa [hget, Option.map_eq_none_iff] at hnone

/-! ## When a successor is let in -/

/-- Another node reported or registered with this fingerprint in the last 60 s. -/
def RecentlyActive (log : List Write) (now : ℤ) (report : Report) : Prop :=
  ∃ write ∈ log, write.isAccepted ∧ write.nodeId ≠ report.info.nodeId ∧
    write.entry.info.hwFingerprint = report.info.hwFingerprint ∧
    now - stale ≤ write.time ∧ write.time ≤ now

instance (log : List Write) (now : ℤ) (report : Report) :
    Decidable (RecentlyActive log now report) :=
  inferInstanceAs (Decidable (∃ write ∈ log, _))

/-- A report is refused as a duplicate only on account of a recently active
node, and stored when there is none. -/
def TakesOver (state : Recorded) : ℤ × Call → Prop
  | (now, .reportNode peer body) =>
      ∀ report, decodeReport peer body = .ok report → report.info.hwFingerprint ≠ "" →
        (∀ existing hwFingerprint, reportNode state.registry now peer body =
            .error (.duplicateHwFingerprint existing hwFingerprint) →
          RecentlyActive state.log now report) ∧
        (¬RecentlyActive state.log now report →
          ∃ registry, reportNode state.registry now peer body = .ok (registry, report.info.nodeId))
  | _ => True

/-- Unless another node is recently active, no other entry with the reported
fingerprint was last written by the watchdog in the last 60 s. -/
def NoFreshMark (state : Recorded) : ℤ × Call → Prop
  | (now, .reportNode peer body) =>
      ∀ report, decodeReport peer body = .ok report → report.info.hwFingerprint ≠ "" →
        RecentlyActive state.log now report ∨
        ∀ id time snapshot, lastWrite state.log id = some (.mark time snapshot) →
          id ≠ report.info.nodeId →
          snapshot.info.hwFingerprint = report.info.hwFingerprint → stale < now - time
  | _ => True

/-- The guard fires on a recently active node or on a fresh mark, on nothing else. -/
theorem find_of_faithful {state : Recorded} (hstate : state.Faithful) {now : ℤ}
    (htime : state.clock ≤ now) {report : Report} {existing : String}
    (hfind : state.registry.findActiveWithHwFingerprint now report.info.hwFingerprint
      report.info.nodeId stale = some existing) :
    RecentlyActive state.log now report ∨
      ∃ time snapshot, lastWrite state.log existing = some (.mark time snapshot) ∧
        existing ≠ report.info.nodeId ∧
        snapshot.info.hwFingerprint = report.info.hwFingerprint ∧ now - time ≤ stale := by
  obtain ⟨_, entry, hget, hother, hfp, hfresh⟩ := Registry.findActive_eq_some hfind
  obtain ⟨write, hlast, rfl⟩ := hstate.lastWrite_of_get hget
  obtain ⟨hmem, hid⟩ := lastWrite_some hlast
  rw [Write.entry_lastHeartbeat] at hfresh
  have hpast := hstate.past write hmem
  cases write with
  | mark time snapshot => exact .inr ⟨time, snapshot, hlast, hother, hfp, hfresh⟩
  | report time sent =>
      exact .inl ⟨_, hmem, rfl, hid ▸ hother, hfp, by omega, by omega⟩
  | register time info =>
      exact .inl ⟨_, hmem, rfl, hid ▸ hother, hfp, by omega, by omega⟩

/-- In any run of atomic calls, every successor is let in as soon as no other
node of its machine is recently active exactly when no report finds a fresh
watchdog mark in its way. -/
theorem takesOver_iff_noFreshMark (start : ℤ) (actions : List (ℤ × Call)) :
    coordinator.Meets TakesOver (.initial start) actions ↔
      coordinator.Meets NoFreshMark (.initial start) actions := by
  refine Machine.meets_iff (fun _ _ _ => .step) ?_ (coordinator_initial start) actions
  intro state ⟨now, call⟩ next hreach hstep
  have hstate := coordinator_faithful hreach
  obtain ⟨htime, -⟩ := clock_le_of_step hstep
  cases call with
  | register | watchdogTick | rehash => exact Iff.rfl
  | reportNode peer body =>
      refine forall_congr' fun report => forall_congr' fun hdecode => forall_congr' fun hne => ?_
      rw [reportNode_of_decode hdecode]
      constructor
      · rintro ⟨-, haccept⟩
        by_cases hactive : RecentlyActive state.log now report
        · exact .inl hactive
        refine .inr fun id time snapshot hlast hother hfp => ?_
        have hnone : state.registry.findActiveWithHwFingerprint now report.info.hwFingerprint
            report.info.nodeId stale = none := by
          obtain ⟨registry, hok⟩ := haccept hactive
          split at hok
          · cases hok
          · assumption
        rcases Registry.findActive_eq_none.mp hnone with hempty | hall
        · exact absurd hempty hne
        -- the guard saw no entry, so the marked one is too old
        · have hget := hstate.get_eq id
          rw [hlast, Option.map_some] at hget
          exact hall id _ hget hother hfp
      · intro hmark
        cases hfind : state.registry.findActiveWithHwFingerprint now report.info.hwFingerprint
            report.info.nodeId stale with
        | none => exact ⟨fun _ _ h => (by cases h), fun _ => ⟨_, rfl⟩⟩
        | some existing =>
            have hactive : RecentlyActive state.log now report := by
              rcases hmark with hactive | hmark
              · exact hactive
              rcases find_of_faithful hstate htime hfind with hactive | hfresh
              · exact hactive
              obtain ⟨time, snapshot, hlast, hother, hfp, hle⟩ := hfresh
              have := hmark existing time snapshot hlast hother hfp
              omega
            exact ⟨fun _ _ _ => hactive, fun h => absurd hactive h⟩

/-- A worker that stopped at time 0 is marked offline at 61 s, and its successor
is refused at 100 s. -/
theorem deadWorker_blocksSuccessor : ¬coordinator.Meets TakesOver (.initial 0)
    [(0, .reportNode "10.0.0.1" (bareBody "x" "hw" none)), (seconds 61, .watchdogTick),
      (seconds 100, .reportNode "10.0.0.2" (bareBody "y" "hw" none))] := by
  intro hmeets
  obtain ⟨-, hmeets⟩ := hmeets _ rfl
  obtain ⟨-, hmeets⟩ := hmeets _ rfl
  obtain ⟨htakes, -⟩ := hmeets _ rfl
  have hjudged := htakes _ (decodeReport_bare "10.0.0.2" (by decide) "hw" none) (by decide)
  exact absurd (hjudged.1 "x" "hw" rfl) (by decide)

end GpuCluster.Coordinator
