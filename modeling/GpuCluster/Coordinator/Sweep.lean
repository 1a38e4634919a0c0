import GpuCluster.Coordinator.Interleaving

/-! # The watchdog's sweep against concurrent reports

The watchdog decides on its copies of the entries and writes them back later.
A copy is out of date exactly when its node reported or registered after the
listing, and then the write undoes that report.
-/

namespace GpuCluster.Coordinator

open Common Foundation

/-- Every copy still to be handled is the stored entry, unless its node was
heard of after the watchdog woke. -/
def Watchdog.Consistent (recorded : Recorded) : Watchdog → Prop
  | .waiting => True
  | .woken woke => woke ≤ recorded.clock
  | .sweeping woke todo => woke ≤ recorded.clock ∧ (todo.map NodeEntry.nodeId).Nodup ∧
      ∀ snapshot ∈ todo, recorded.registry.get snapshot.nodeId = some snapshot ∨
        ∃ write ∈ recorded.log, write.isAccepted ∧ write.nodeId = snapshot.nodeId ∧
          woke ≤ write.time

namespace Watchdog

variable {recorded next : Recorded} {now : ℤ} {watchdog : Watchdog}

theorem Consistent.passes (hconsistent : watchdog.Consistent recorded)
    (htime : recorded.clock ≤ now) (hpasses : recorded.Passes next now) :
    watchdog.Consistent next := by
  cases watchdog with
  | waiting => trivial
  | woken woke => exact hconsistent.trans (hpasses.clock_eq ▸ htime)
  | sweeping woke todo =>
      obtain ⟨hwoke, hnodup, htodo⟩ := hconsistent
      refine ⟨hwoke.trans (hpasses.clock_eq ▸ htime), hnodup, fun snapshot hmem => ?_⟩
      rw [hpasses.get_eq, hpasses.log_eq]
      exact htodo snapshot hmem

/-- A write to another node, or an accepted one to the same, leaves a sweep
consistent. -/
theorem Consistent.write (hconsistent : watchdog.Consistent recorded) {write : Write}
    (htime : recorded.clock ≤ write.time)
    (hothers : write.isAccepted = false → ∀ woke todo, watchdog = .sweeping woke todo →
      write.nodeId ∉ todo.map NodeEntry.nodeId) :
    watchdog.Consistent (recorded.write write) := by
  cases watchdog with
  | waiting => trivial
  | woken woke => exact le_trans (b := recorded.clock) hconsistent htime
  | sweeping woke todo =>
      obtain ⟨hwoke, hnodup, htodo⟩ := hconsistent
      refine ⟨hwoke.trans htime, hnodup, fun snapshot hmem => ?_⟩
      by_cases hid : snapshot.nodeId = write.nodeId
      · cases haccepted : write.isAccepted with
        | true => exact .inr ⟨write, List.mem_cons_self .., haccepted, hid.symm, hwoke.trans htime⟩
        | false =>
            have hnot := hothers haccepted woke todo rfl
            exact absurd (hid ▸ List.mem_map_of_mem hmem) hnot
      · rcases htodo snapshot hmem with hget | ⟨older, holder, hsame⟩
        · exact .inl ((recorded.registry.get_insert_ne write.entry hid).trans hget)
        · exact .inr ⟨older, List.mem_cons_of_mem _ holder, hsame⟩

/-- The sweep may forget what it has handled. -/
theorem Consistent.tail {woke : ℤ} {snapshot : NodeEntry} {rest : List NodeEntry}
    (hconsistent : (sweeping woke (snapshot :: rest)).Consistent recorded) :
    (sweeping woke rest).Consistent recorded := by
  obtain ⟨hwoke, hnodup, htodo⟩ := hconsistent
  exact ⟨hwoke, hnodup.of_cons, fun later hmem => htodo later (List.mem_cons_of_mem _ hmem)⟩

/-- A listing is consistent when it is taken. -/
theorem consistent_list {woke : ℤ} (hwoke : woke ≤ recorded.clock) :
    (sweeping woke recorded.registry.list).Consistent recorded :=
  ⟨hwoke, recorded.registry.list_nodup, fun _ hmem => .inl (KeyedMap.mem_list.mp hmem)⟩

end Watchdog

/-- Each step keeps the sweep's copies consistent with the map. -/
theorem Step.run_consistent {state next : Interleaved} {now : ℤ} {step : Step}
    (hconsistent : state.watchdog.Consistent state.recorded)
    (htime : state.recorded.clock ≤ now) (hrun : step.run state now = some next) :
    next.watchdog.Consistent next.recorded := by
  have hlater := hconsistent.passes htime (state.recorded.passes_clock now)
  cases step with
  | check handler peer body =>
      simp only [Step.run, Interleaved.check] at hrun
      repeat' split at hrun
      all_goals cases hrun
      all_goals exact hlater
  | store handler =>
      obtain ⟨report, -, rfl⟩ := Option.map_eq_some_iff.mp hrun
      exact hconsistent.write htime fun hmark => by cases hmark
  | register freshId req =>
      cases hrun
      simp only [Recorded.register]
      split
      · exact hlater
      · exact hconsistent.write htime fun hmark => by cases hmark
  | wake =>
      simp only [Step.run] at hrun
      split at hrun
      · cases hrun
        exact le_refl now
      · cases hrun
  | list =>
      simp only [Step.run] at hrun
      split at hrun
      next woke hwoken =>
        cases hrun
        rw [hwoken] at hlater
        exact Watchdog.consistent_list hlater
      next => cases hrun
  | sweep =>
      simp only [Step.run, Interleaved.sweep] at hrun
      split at hrun
      next =>
        cases hrun
        trivial
      next woke snapshot rest hsweeping =>
        rw [hsweeping] at hconsistent hlater
        split at hrun
        next =>
          cases hrun
          -- the entry just handled is not among the rest of the listing
          refine hconsistent.tail.write htime fun _ later todo htodo => ?_
          cases htodo
          exact (List.nodup_cons.mp hconsistent.2.1).1
        next =>
          cases hrun
          exact hlater.tail
      next => cases hrun
  | rehash inner =>
      obtain ⟨recorded, hrecorded, rfl⟩ := Option.map_eq_some_iff.mp hrun
      exact hconsistent.passes htime (Recorded.passes_rehash hrecorded)

theorem interleaved_consistent {state : Interleaved} (hreach : interleaved.Reachable state) :
    state.watchdog.Consistent state.recorded := by
  refine hreach.invariant (fun state => state.watchdog.Consistent state.recorded) ?_ ?_
  · rintro _ ⟨start, rfl⟩
    trivial
  · intro state ⟨now, step⟩ next hconsistent hstep
    obtain ⟨htime, hrun⟩ := interleaved_step hstep
    exact Step.run_consistent hconsistent htime hrun

/-- A watchdog write is the one its sweep stands at. -/
theorem Step.write_mark {state : Interleaved} {now time : ℤ} {step : Step} {snapshot : NodeEntry}
    (hwrite : step.write state now = some (.mark time snapshot)) :
    step = .sweep ∧ ∃ woke rest, state.watchdog = .sweeping woke (snapshot :: rest) ∧
      snapshot.isStale woke := by
  cases step with
  | store handler =>
      obtain ⟨report, -, hreport⟩ := Option.map_eq_some_iff.mp hwrite
      cases hreport
  | register freshId req =>
      obtain ⟨info, -, hinfo⟩ := Option.map_eq_some_iff.mp hwrite
      cases hinfo
  | sweep =>
      simp only [Step.write] at hwrite
      split at hwrite
      next woke head rest hsweeping =>
        split at hwrite
        next hstale =>
          cases hwrite
          exact ⟨rfl, woke, rest, hsweeping, hstale⟩
        next => cases hwrite
      next => cases hwrite
  | check | wake | list | rehash => cases hwrite

/-! ## When a mark is right -/

/-- A node about to be marked offline has not been heard of for 60 s, and was
not heard of after the copy that replaces its entry. -/
def MarksSilent (state : Interleaved) (action : ℤ × Step) : Prop :=
  ∀ time snapshot, action.2.write state action.1 = some (.mark time snapshot) →
    ∀ write ∈ state.recorded.log, write.isAccepted → write.nodeId = snapshot.nodeId →
      stale < time - write.time ∧ write.time ≤ snapshot.lastHeartbeat

/-- A node about to be marked offline still has the entry that was listed. -/
def MarksListed (state : Interleaved) (action : ℤ × Step) : Prop :=
  ∀ time snapshot, action.2.write state action.1 = some (.mark time snapshot) →
    state.recorded.registry.get snapshot.nodeId = some snapshot

/-- In any interleaving, the watchdog marks silent nodes only, and loses no
report, exactly when no node it writes reported or registered after the
listing. -/
theorem marksSilent_iff_marksListed (start : ℤ) (actions : List (ℤ × Step)) :
    interleaved.Meets MarksSilent (.initial start) actions ↔
      interleaved.Meets MarksListed (.initial start) actions := by
  refine Machine.meets_iff (fun _ _ _ => .step) ?_ (interleaved_initial start) actions
  intro state ⟨now, step⟩ next hreach hstep
  have hstate := interleaved_faithful hreach
  obtain ⟨htime, -⟩ := interleaved_step hstep
  refine forall_congr' fun time => forall_congr' fun snapshot => forall_congr' fun hwrite => ?_
  obtain ⟨-, woke, rest, hsweeping, hstale⟩ := Step.write_mark hwrite
  obtain rfl : time = now := Step.write_time hwrite
  have hconsistent := interleaved_consistent hreach
  rw [hsweeping] at hconsistent
  obtain ⟨hwoke, -, htodo⟩ := hconsistent
  simp only [NodeEntry.isStale, decide_eq_true_eq] at hstale
  constructor
  · intro hsilent
    rcases htodo snapshot (List.mem_cons_self ..) with hget | ⟨write, hmem, haccepted, hid, hlate⟩
    · exact hget
    · -- heard of after the watchdog woke, so later than the stale copy
      have hold := (hsilent write hmem haccepted hid).2
      have : (0 : ℤ) < stale := by decide
      omega
  · intro hget write hmem _ hid
    have hle := hstate.time_le_lastHeartbeat hmem (hid ▸ hget)
    exact ⟨by omega, hle⟩

/-- A worker silent for 61 s reports between the watchdog's listing and its
write, and is marked offline. -/
theorem sweep_marksReportingNode : ¬interleaved.Meets MarksSilent (.initial 0)
    [(0, .check 0 "10.0.0.1" (bareBody "x" "hw" none)), (0, .store 0), (seconds 61, .wake),
      (seconds 61, .list), (seconds 61, .check 0 "10.0.0.1" (bareBody "x" "hw" none)),
      (seconds 61, .store 0), (seconds 61, .sweep)] := by
  intro hmeets
  obtain ⟨-, hmeets⟩ := hmeets _ rfl
  obtain ⟨-, hmeets⟩ := hmeets _ rfl
  obtain ⟨-, hmeets⟩ := hmeets _ rfl
  obtain ⟨-, hmeets⟩ := hmeets _ rfl
  obtain ⟨-, hmeets⟩ := hmeets _ rfl
  obtain ⟨-, hmeets⟩ := hmeets _ rfl
  obtain ⟨hsilent, -⟩ := hmeets _ rfl
  have hjudged := hsilent _ _ rfl _ (List.mem_cons_self ..) rfl rfl
  exact absurd hjudged.1 (by decide)

end GpuCluster.Coordinator
