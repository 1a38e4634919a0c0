import GpuCluster.Coordinator.Interleaving
import GpuCluster.Foundation.Recording

/-! # One active node for each fingerprint

The duplicate guard is meant to keep two nodes of one machine from being active
together. A handler stores its entry some time after the guard ran, a registration runs
no guard, and the watchdog writes copies that may be old.
-/

namespace GpuCluster.Coordinator

open Common Foundation

/-- A report or registration of the node was accepted at most 60 s ago. -/
def ActiveNode (log : List Write) (now : ℤ) (id : String) : Prop :=
  ∃ write ∈ log, write.isAccepted ∧ write.nodeId = id ∧ now - write.time ≤ stale

/-- No two entries with the same fingerprint belong to active nodes. -/
def UniqueActive (recorded : Recorded) : Prop :=
  ∀ id other entry otherEntry, id ≠ other → recorded.registry.get id = some entry →
    recorded.registry.get other = some otherEntry → entry.info.hwFingerprint ≠ "" →
    entry.info.hwFingerprint = otherEntry.info.hwFingerprint →
    ¬(ActiveNode recorded.log recorded.clock id ∧ ActiveNode recorded.log recorded.clock other)

/-- A write that leaves its node active meets no other entry with its
fingerprint whose node is active. -/
def SoleActive (recorded : Recorded) (write : Write) : Prop :=
  write.entry.info.hwFingerprint ≠ "" →
    write.isAccepted ∨ ActiveNode recorded.log write.time write.nodeId →
    ∀ id entry, id ≠ write.nodeId → recorded.registry.get id = some entry →
      entry.info.hwFingerprint = write.entry.info.hwFingerprint →
      ¬ActiveNode recorded.log write.time id

theorem ActiveNode.earlier {log : List Write} {now later : ℤ} {id : String}
    (hactive : ActiveNode log later id) (htime : now ≤ later) : ActiveNode log now id := by
  obtain ⟨write, hmem, haccepted, hid, hfresh⟩ := hactive
  exact ⟨write, hmem, haccepted, hid, by omega⟩

theorem activeNode_cons_ne {write : Write} {log : List Write} {now : ℤ} {id : String}
    (hid : id ≠ write.nodeId) : ActiveNode (write :: log) now id ↔ ActiveNode log now id := by
  constructor
  · rintro ⟨found, hmem, haccepted, rfl, hfresh⟩
    rcases List.mem_cons.mp hmem with rfl | hmem
    · exact absurd rfl hid
    · exact ⟨found, hmem, haccepted, rfl, hfresh⟩
  · intro ⟨found, hmem, hfound⟩
    exact ⟨found, List.mem_cons_of_mem _ hmem, hfound⟩

theorem activeNode_cons_self {write : Write} {log : List Write} :
    ActiveNode (write :: log) write.time write.nodeId ↔
      write.isAccepted ∨ ActiveNode log write.time write.nodeId := by
  have hstale : (0 : ℤ) ≤ stale := by decide
  constructor
  · intro ⟨found, hmem, haccepted, hid, hfresh⟩
    rcases List.mem_cons.mp hmem with rfl | hmem
    · exact .inl haccepted
    · exact .inr ⟨found, hmem, haccepted, hid, hfresh⟩
  · rintro (haccepted | ⟨found, hmem, hfound⟩)
    · exact ⟨write, List.mem_cons_self .., haccepted, rfl, by omega⟩
    · exact ⟨found, List.mem_cons_of_mem _ hmem, hfound⟩

/-- Time alone makes no node active. -/
theorem UniqueActive.passes {state next : Recorded} {now : ℤ} (hunique : UniqueActive state)
    (htime : state.clock ≤ now) (hpasses : state.Passes next now) : UniqueActive next := by
  intro id other entry otherEntry hne hentry hother hfp hsame hactive
  rw [hpasses.get_eq] at hentry hother
  rw [hpasses.log_eq, hpasses.clock_eq] at hactive
  exact hunique id other entry otherEntry hne hentry hother hfp hsame
    ⟨hactive.1.earlier htime, hactive.2.earlier htime⟩

/-- A write keeps fingerprints unique exactly when it meets the condition. -/
theorem uniqueActive_write_iff {recorded : Recorded} {write : Write}
    (hunique : UniqueActive recorded) (htime : recorded.clock ≤ write.time) :
    UniqueActive (recorded.write write) ↔ SoleActive recorded write := by
  constructor
  · intro hnext hfp hactive id entry hid hentry hsame hother
    refine hnext write.nodeId id write.entry entry hid.symm
      (recorded.registry.get_insert_self write.entry)
      ((recorded.registry.get_insert_ne write.entry hid).trans hentry) hfp
      hsame.symm ⟨?_, ?_⟩
    · exact activeNode_cons_self.mpr hactive
    · exact (activeNode_cons_ne hid).mpr hother
  · intro hsole
    -- the written node against another one; both orders reduce to this
    have hagainst : ∀ other otherEntry, other ≠ write.nodeId →
        recorded.registry.get other = some otherEntry →
        write.entry.info.hwFingerprint ≠ "" →
        otherEntry.info.hwFingerprint = write.entry.info.hwFingerprint →
        ActiveNode (write :: recorded.log) write.time write.nodeId →
        ¬ActiveNode (write :: recorded.log) write.time other := by
      intro other otherEntry hother hget hfp hsame hself
      rw [activeNode_cons_ne hother]
      exact hsole hfp (activeNode_cons_self.mp hself) other otherEntry hother hget hsame
    intro id other entry otherEntry hne hentry hother hfp hsame ⟨hid, hotherActive⟩
    simp only [Recorded.write, KeyedMap.get_insert] at hentry hother
    by_cases hself : id = write.nodeId
    · have hnot : other ≠ write.nodeId := fun h => hne (hself.trans h.symm)
      rw [if_pos hself, Option.some.injEq] at hentry
      rw [if_neg hnot] at hother
      subst hself hentry
      exact hagainst other otherEntry hnot hother hfp hsame.symm hid hotherActive
    · rw [if_neg hself] at hentry
      by_cases hotherSelf : other = write.nodeId
      · rw [if_pos hotherSelf, Option.some.injEq] at hother
        subst hotherSelf hother
        exact hagainst id entry hself hentry (hsame ▸ hfp) hsame hotherActive hid
      · rw [if_neg hotherSelf] at hother
        exact hunique id other entry otherEntry hne hentry hother hfp hsame
          ⟨((activeNode_cons_ne hself).mp hid).earlier htime,
            ((activeNode_cons_ne hotherSelf).mp hotherActive).earlier htime⟩

/-! ## What the guard leaves open -/

/-- The writes to the registry since each handler passed the guard. -/
def noteWrites (state : Interleaved) (action : ℤ × Step) (since : ℕ → List Write) :
    ℕ → List Write :=
  match action.2 with
  | .check handler _ _ => Function.update since handler []
  | step => fun handler => (step.write state action.1).toList ++ since handler

/-- The coordinator with these writes beside it. -/
def observed : Machine (Interleaved × (ℕ → List Write)) (ℤ × Step) :=
  interleaved.recording noteWrites fun _ => []

/-- Of the writes since a report passed the guard, none has left another active node
with the report's fingerprint in the registry. -/
def Undisturbed (recorded : Recorded) (now : ℤ) (report : Report) (since : List Write) : Prop :=
  report.info.hwFingerprint ≠ "" → ∀ write ∈ since, write.nodeId ≠ report.info.nodeId →
    recorded.registry.get write.nodeId = some write.entry →
    write.entry.info.hwFingerprint = report.info.hwFingerprint →
    ¬ActiveNode recorded.log now write.nodeId

/-- The node's entry has another fingerprint than the write will give it. -/
def ChangesFingerprint (recorded : Recorded) (write : Write) : Prop :=
  ∀ entry, recorded.registry.get write.nodeId = some entry →
    entry.info.hwFingerprint ≠ write.entry.info.hwFingerprint

/-- Where the guard does not reach: between a handler's check and its insert, at a
registration, which runs none, and at the watchdog's write of a copy it took before the
node reported under another fingerprint. -/
def KeepsApart (s : Interleaved × (ℕ → List Write)) : ℤ × Step → Prop
  | (now, .store handler) => ∀ report, s.1.handlers handler = some report →
      Undisturbed s.1.recorded now report (s.2 handler)
  | (now, .register freshId req) => ∀ info, req.stored freshId = some info →
      SoleActive s.1.recorded (.register now info)
  | (now, .sweep) => ∀ write, Step.sweep.write s.1 now = some write →
      ChangesFingerprint s.1.recorded write → SoleActive s.1.recorded write
  | _ => True

/-- What the guard has seen to: an active node with the report's fingerprint has come
into the registry since. -/
def Guarded (recorded : Recorded) (report : Report) (since : List Write) : Prop :=
  report.info.hwFingerprint ≠ "" → ∀ id entry, id ≠ report.info.nodeId →
    recorded.registry.get id = some entry →
    entry.info.hwFingerprint = report.info.hwFingerprint →
    ActiveNode recorded.log recorded.clock id →
    ∃ write ∈ since, write.nodeId = id ∧ write.entry = entry

/-- A node whose entry the guard takes for stale is not active. -/
theorem guarded_of_check {recorded : Recorded} (hfaithful : recorded.Faithful) {now : ℤ}
    {report : Report} (hcheck : checkDuplicate recorded.registry now report = .ok ()) :
    Guarded { recorded with clock := now } report [] := by
  intro hfp id entry hid hget hsame ⟨write, hmem, _, hnode, hfresh⟩
  have hnone : recorded.registry.findActiveWithHwFingerprint now report.info.hwFingerprint
      report.info.nodeId stale = none := by
    unfold checkDuplicate at hcheck
    split at hcheck
    next => cases hcheck
    next hnone => exact hnone
  have hstale := (Registry.findActive_eq_none.mp hnone).resolve_left hfp id entry hget hid hsame
  have hlate := hfaithful.time_le_lastHeartbeat hmem (hnode ▸ hget)
  change now - write.time ≤ stale at hfresh
  omega

theorem Guarded.passes {recorded next : Recorded} {report : Report} {since : List Write} {now : ℤ}
    (hguarded : Guarded recorded report since) (htime : recorded.clock ≤ now)
    (hpasses : recorded.Passes next now) : Guarded next report since := by
  intro hfp id entry hid hget hsame hactive
  rw [hpasses.get_eq] at hget
  rw [hpasses.log_eq, hpasses.clock_eq] at hactive
  exact hguarded hfp id entry hid hget hsame (hactive.earlier htime)

theorem Guarded.write {recorded : Recorded} {report : Report} {since : List Write}
    (hguarded : Guarded recorded report since) {write : Write}
    (htime : recorded.clock ≤ write.time) :
    Guarded (recorded.write write) report (write :: since) := by
  intro hfp id entry hid hget hsame hactive
  by_cases hself : id = write.nodeId
  · subst hself
    obtain rfl := Option.some.inj ((recorded.registry.get_insert_self write.entry).symm.trans hget)
    exact ⟨write, List.mem_cons_self .., rfl, rfl⟩
  · have hold := (recorded.registry.get_insert_ne write.entry hself).symm.trans hget
    have hactiveOld := ((activeNode_cons_ne hself).mp hactive).earlier htime
    obtain ⟨found, hmem, hfound⟩ := hguarded hfp id entry hid hold hsame hactiveOld
    exact ⟨found, List.mem_cons_of_mem _ hmem, hfound⟩

/-- What is known of every handler that waits to store its entry. -/
structure Observed (s : Interleaved × (ℕ → List Write)) : Prop where
  faithful : s.1.recorded.Faithful
  guarded : ∀ handler report, s.1.handlers handler = some report →
    Guarded s.1.recorded report (s.2 handler)

/-- A handler that waits after a step waited before it, or has just passed the guard. -/
theorem Step.waits_cases {state next : Interleaved} {now : ℤ} {step : Step}
    (hrun : step.run state now = some next) {handler : ℕ} {report : Report}
    (hwaits : next.handlers handler = some report) :
    (∃ peer body, step = .check handler peer body ∧ state.handlers handler = none ∧
      checkDuplicate state.recorded.registry now report = .ok () ∧
      next.recorded = { state.recorded with clock := now }) ∨
    (∀ peer body, step ≠ .check handler peer body) ∧ state.handlers handler = some report := by
  cases step with
  | check other peer body =>
      simp only [Step.run, Interleaved.check] at hrun
      split at hrun
      next => cases hrun
      next hfree =>
        have hrefused : state.handlers handler = some report →
            ∀ p b, Step.check other peer body ≠ .check handler p b := by
          rintro hold p b ⟨⟩
          cases hfree.symm.trans hold
        split at hrun
        next =>
          cases hrun
          exact .inr ⟨hrefused hwaits, hwaits⟩
        next decoded hdecode =>
          split at hrun
          next =>
            cases hrun
            exact .inr ⟨hrefused hwaits, hwaits⟩
          next hcheck =>
            cases hrun
            change Function.update state.handlers other (some decoded) handler = _ at hwaits
            by_cases hsame : handler = other
            · subst hsame
              rw [Function.update_self, Option.some.injEq] at hwaits
              subst hwaits
              exact .inl ⟨peer, body, rfl, hfree, hcheck, rfl⟩
            · rw [Function.update_of_ne hsame] at hwaits
              exact .inr ⟨hrefused hwaits, hwaits⟩
  | store other =>
      obtain ⟨stored, -, rfl⟩ := Option.map_eq_some_iff.mp hrun
      change Function.update state.handlers other none handler = _ at hwaits
      refine .inr ⟨fun _ _ h => (by cases h), ?_⟩
      by_cases hsame : handler = other
      · rw [hsame, Function.update_self] at hwaits
        cases hwaits
      · rwa [Function.update_of_ne hsame] at hwaits
  | register freshId req =>
      cases hrun
      exact .inr ⟨fun _ _ h => (by cases h), hwaits⟩
  | wake | list =>
      simp only [Step.run] at hrun
      split at hrun
      · cases hrun
        exact .inr ⟨fun _ _ h => (by cases h), hwaits⟩
      · cases hrun
  | sweep =>
      simp only [Step.run, Interleaved.sweep] at hrun
      repeat' split at hrun
      all_goals cases hrun
      all_goals exact .inr ⟨fun _ _ h => (by cases h), hwaits⟩
  | rehash inner =>
      obtain ⟨recorded, -, rfl⟩ := Option.map_eq_some_iff.mp hrun
      exact .inr ⟨fun _ _ h => (by cases h), hwaits⟩

theorem noteWrites_of_ne {state : Interleaved} {now : ℤ} {step : Step} {since : ℕ → List Write}
    {handler : ℕ} (hother : ∀ peer body, step ≠ .check handler peer body) :
    noteWrites state (now, step) since handler =
      (step.write state now).toList ++ since handler := by
  cases step with
  | check other peer body =>
      have hne : handler ≠ other := by
        rintro rfl
        exact hother peer body rfl
      exact Function.update_of_ne hne ..
  | _ => rfl

theorem observed_step {s next : Interleaved × (ℕ → List Write)} {action : ℤ × Step}
    (hs : Observed s) (hstep : observed.step s action = some next) : Observed next := by
  obtain ⟨now, step⟩ := action
  obtain ⟨hmoved, hnoted⟩ := Machine.recording_step.mp hstep
  obtain ⟨htime, hrun⟩ := interleaved_step hmoved
  refine ⟨interleaved_step_faithful hs.faithful hmoved, fun handler report hwaits => ?_⟩
  rcases Step.waits_cases hrun hwaits with
    ⟨peer, body, rfl, -, hcheck, hrecorded⟩ | ⟨hother, hwaited⟩
  · have hnone : next.2 handler = [] := by
      rw [hnoted]
      exact Function.update_self ..
    rw [hnone, hrecorded]
    exact guarded_of_check hs.faithful hcheck
  · have hguarded := hs.guarded handler report hwaited
    have hrecorded := Step.run_recorded hrun
    rw [hnoted, noteWrites_of_ne hother]
    cases hwrite : step.write s.1 now with
    | none =>
        simp only [hwrite] at hrecorded
        exact hguarded.passes htime hrecorded
    | some write =>
        simp only [hwrite] at hrecorded
        rw [hrecorded]
        exact hguarded.write (Step.write_time hwrite ▸ htime)

/-- A write that keeps its node's fingerprint puts no node beside another. -/
theorem soleActive_of_same {recorded : Recorded} {write : Write} (hunique : UniqueActive recorded)
    (htime : recorded.clock ≤ write.time) (hmark : write.isAccepted = false)
    (hsame : ¬ChangesFingerprint recorded write) : SoleActive recorded write := by
  simp only [ChangesFingerprint, not_forall, not_not] at hsame
  obtain ⟨stored, hstored, hfingerprint⟩ := hsame
  intro hfp hactive id entry hid hentry hshared hother
  have hself := hactive.resolve_left (by rw [hmark]; decide)
  refine hunique write.nodeId id stored entry hid.symm hstored hentry (hfingerprint ▸ hfp)
    (hfingerprint.trans hshared.symm) ⟨hself.earlier htime, hother.earlier htime⟩

/-- A step that writes puts no node beside an active one exactly when it meets the
condition. -/
theorem soleActive_iff_keepsApart {s : Interleaved × (ℕ → List Write)} (hs : Observed s)
    (hunique : UniqueActive s.1.recorded) {now : ℤ} (htime : s.1.recorded.clock ≤ now)
    {step : Step} {write : Write} (hwrite : step.write s.1 now = some write) :
    SoleActive s.1.recorded write ↔ KeepsApart s (now, step) := by
  cases step with
  | store handler =>
      obtain ⟨report, hreport, rfl⟩ := Option.map_eq_some_iff.mp hwrite
      constructor
      · intro hsole other hother hfp found _ hne hget hsame
        cases hreport.symm.trans hother
        exact hsole hfp (.inl rfl) found.nodeId found.entry hne hget hsame
      · intro hclear hfp _ id entry hid hget hsame hactive
        obtain ⟨found, hmem, rfl, rfl⟩ := hs.guarded handler report hreport hfp id entry hid hget
          hsame (hactive.earlier htime)
        exact hclear report hreport hfp found hmem hid hget hsame hactive
  | register freshId req =>
      obtain ⟨info, hinfo, rfl⟩ := Option.map_eq_some_iff.mp hwrite
      constructor
      · intro hsole other hother
        cases hinfo.symm.trans hother
        exact hsole
      · intro hclear
        exact hclear info hinfo
  | sweep =>
      have hmark : write.isAccepted = false := by
        simp only [Step.write] at hwrite
        repeat' split at hwrite
        all_goals cases hwrite
        rfl
      constructor
      · intro hsole other hother _
        cases hwrite.symm.trans hother
        exact hsole
      · intro hclear
        by_cases hchanges : ChangesFingerprint s.1.recorded write
        · exact hclear write hwrite hchanges
        · exact soleActive_of_same hunique (Step.write_time hwrite ▸ htime) hmark hchanges
  | check | wake | list | rehash => cases hwrite

/-- A step that writes nothing meets the condition. -/
theorem keepsApart_of_quiet {s : Interleaved × (ℕ → List Write)} {now : ℤ} {step : Step}
    (hquiet : step.write s.1 now = none) : KeepsApart s (now, step) := by
  cases step with
  | store handler =>
      intro report hreport
      simp only [Step.write, hreport, Option.map_some] at hquiet
      cases hquiet
  | register freshId req =>
      intro info hinfo
      simp only [Step.write, hinfo, Option.map_some] at hquiet
      cases hquiet
  | sweep =>
      intro write hwrite
      cases hquiet.symm.trans hwrite
  | check | wake | list | rehash => trivial

/-- In any interleaving of handlers, registrations and the watchdog, no two active nodes
ever share a fingerprint exactly when no other active node of its machine came in
between a handler's check and its insert, and none is there at a registration or at a
write of the watchdog that brings an earlier fingerprint back. -/
theorem uniqueActive_iff_keepsApart (start : ℤ) (actions : List (ℤ × Step)) :
    interleaved.Throughout (fun state => UniqueActive state.recorded) (.initial start) actions ↔
      observed.Meets KeepsApart (.initial start, fun _ => []) actions := by
  rw [← @Machine.throughout_recording _ _ _ interleaved noteWrites (fun _ => [])]
  refine Machine.throughout_iff_meets (fun _ _ _ hs => observed_step hs) ?_ ?_ ?_ actions
  · intro s ⟨now, step⟩ next hs hunique hstep
    obtain ⟨hmoved, -⟩ := Machine.recording_step.mp hstep
    obtain ⟨htime, hrun⟩ := interleaved_step hmoved
    have hrecorded := Step.run_recorded hrun
    cases hwrite : step.write s.1 now with
    | none =>
        simp only [hwrite] at hrecorded
        exact iff_of_true (hunique.passes htime hrecorded) (keepsApart_of_quiet hwrite)
    | some write =>
        simp only [hwrite] at hrecorded
        rw [hrecorded, uniqueActive_write_iff hunique (Step.write_time hwrite ▸ htime)]
        exact soleActive_iff_keepsApart hs hunique htime hwrite
  · exact ⟨Recorded.faithful_initial start, fun handler report hwaits => by cases hwaits⟩
  · intro id other entry otherEntry _ hentry
    cases hentry

/-- Two handlers for one machine pass the guard before either stores its entry. -/
theorem racingHandlers_bothActive :
    ¬interleaved.Throughout (fun state => UniqueActive state.recorded) (.initial 0)
      [(0, .check 0 "10.0.0.1" (bareBody "x" "hw" none)),
        (0, .check 1 "10.0.0.1" (bareBody "y" "hw" none)), (0, .store 0), (0, .store 1)] := by
  intro hall
  have hlast := (((hall.2 _ rfl).2 _ rfl).2 _ rfl).2 _ rfl
  refine hlast "x" "y" _ _ (by decide) rfl rfl (by decide) (by decide) ⟨?_, ?_⟩
  · exact ⟨_, List.mem_cons_of_mem _ (List.mem_cons_self ..), rfl, rfl, by decide⟩
  · exact ⟨_, List.mem_cons_self .., rfl, rfl, by decide⟩

end GpuCluster.Coordinator
