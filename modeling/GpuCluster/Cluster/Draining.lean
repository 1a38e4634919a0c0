import GpuCluster.Cluster.Wire
import GpuCluster.Coordinator.Eligibility

/-! # The last report of a worker

A worker that shuts down abandons the report it is sending and sends one with the
status `Draining`. Reports carry no number, so an abandoned one that arrives late
undoes what the last one did.
-/

namespace GpuCluster.Cluster

open Common Foundation Proto Worker
open Coordinator hiding statusLabel

/-- What all processes of one worker share. -/
structure NodeSetup where
  nodeId : String
  advertisedHost : Option String
  controlEndpoint : String

/-- The inventory a process collected at its start, and the latest one. -/
structure Agent where
  first : NodeInfo
  last : NodeInfo

/-- A report on its way. The process that sent it and the kind are not in the body. -/
structure WireReport where
  process : ℕ
  draining : Bool
  body : Json

/-- A node and the coordinator: the number of processes started, the agent of the
last of them while it runs, the reports on their way and those between the two
steps of their handlers. `drained` is the process whose Draining report has been
applied, unless a report of a newer one was since. -/
structure NodeLife where
  coordinator : Interleaved
  started : ℕ
  agent : Option Agent
  wire : ℕ → Option WireReport
  handling : ℕ → Option WireReport
  drained : Option ℕ

inductive LifeStep
  | start (info : NodeInfo)
  | publish (slot : ℕ) (refreshed : Option NodeInfo) (sup : Supervisor)
  | shutdown (slot : ℕ) (sup : Supervisor)
  | crash
  | lose (slot : ℕ)
  | arrive (slot handler : ℕ) (peer : String)
  | store (handler : ℕ)
  | other (step : Step)

/-- What `drained` becomes when a report is applied. -/
def WireReport.drains (sent : WireReport) (drained : Option ℕ) : Option ℕ :=
  if sent.draining then some (max (drained.getD 0) sent.process)
  else drained.filter fun process => sent.process ≤ process

namespace NodeLife

def initial (start : ℤ) : NodeLife := ⟨.initial start, 0, none, fun _ => none, fun _ => none, none⟩

variable (setup : NodeSetup) (s : NodeLife)

def start (info : NodeInfo) : Option NodeLife :=
  match s.agent with
  | none =>
      let info := { info with nodeId := setup.nodeId }
      some { s with started := s.started + 1, agent := some ⟨info, info⟩ }
  | some _ => none

/-- One round of the heartbeat loop, up to the request. -/
def publish (slot : ℕ) (refreshed : Option NodeInfo) (sup : Supervisor) : Option NodeLife :=
  match s.agent, s.wire slot with
  | some agent, none =>
      let info := match refreshed with
        | some fresh => { fresh with
            nodeId := agent.last.nodeId, displayName := agent.last.displayName }
        | none => agent.last
      let body := publishBody info sup setup.advertisedHost setup.controlEndpoint
      some { s with
        agent := some { agent with last := info }
        wire := Function.update s.wire slot (some ⟨s.started, false, body⟩) }
  | _, _ => none

/-- The shutdown signal ends the loop, but no request; then `publish_draining` sends
the inventory of the start. -/
def shutdown (slot : ℕ) (sup : Supervisor) : Option NodeLife :=
  match s.agent, s.wire slot with
  | some agent, none =>
      let draining := { agent.first with status := NodeStatus.draining.toI32 }
      let body := publishBody draining sup setup.advertisedHost setup.controlEndpoint
      some { s with
        agent := none
        wire := Function.update s.wire slot (some ⟨s.started, true, body⟩) }
  | _, _ => none

/-- A request arrives at a handler, which may refuse it. -/
def arrive (now : ℤ) (slot handler : ℕ) (peer : String) : Option NodeLife :=
  (s.wire slot).bind fun sent =>
    (s.coordinator.check now handler peer sent.body).map fun coordinator => { s with
      coordinator
      wire := Function.update s.wire slot none
      handling := Function.update s.handling handler
        ((coordinator.handlers handler).map fun _ => sent) }

def store (now : ℤ) (handler : ℕ) : Option NodeLife :=
  (s.handling handler).bind fun sent =>
    (s.coordinator.store now handler).map fun coordinator => { s with
      coordinator
      handling := Function.update s.handling handler none
      drained := sent.drains s.drained }

/-- Steps that are not this node's: no report or registration under its id. -/
def isForeign (now : ℤ) (step : Step) : Bool :=
  (match step with
    | .store handler => (s.handling handler).isNone
    | _ => true) &&
  (step.write s.coordinator now).all fun write => !write.isAccepted || write.nodeId ≠ setup.nodeId

end NodeLife

def LifeStep.run (setup : NodeSetup) (s : NodeLife) (now : ℤ) : LifeStep → Option NodeLife
  | .start info => s.start setup info
  | .publish slot refreshed sup => s.publish setup slot refreshed sup
  | .shutdown slot sup => s.shutdown setup slot sup
  | .crash => some { s with agent := none }
  | .lose slot => some { s with wire := Function.update s.wire slot none }
  | .arrive slot handler peer => s.arrive now slot handler peer
  | .store handler => s.store now handler
  | .other step =>
      if s.isForeign setup now step then
        (step.run s.coordinator now).map fun coordinator => { s with coordinator }
      else none

def nodeLife (setup : NodeSetup) : Machine NodeLife (ℤ × LifeStep) where
  init s := ∃ start, s = .initial start
  step s action :=
    if s.coordinator.recorded.clock ≤ action.1 then action.2.run setup s action.1 else none

/-! ## In and out of rotation -/

/-- Once a process has drained, the node is offered no work. -/
def OutOfRotation (setup : NodeSetup) (s : NodeLife) : Prop :=
  s.drained.isSome → ∀ now, ∀ row ∈ nodesOf (eligibleNodes s.coordinator.recorded.registry now),
    row.get? "node_id" ≠ some (.string setup.nodeId)

/-- What keeps an entry in rotation as long as it is fresh. -/
def Offered (info : NodeInfo) : Prop := info.gpus ≠ [] ∧ inDispatch (.ofI32 info.status)

/-- No report of the drained process, or of an earlier one, is applied that offers
the node for work. -/
def NoLateOffer (s : NodeLife) : ℤ × LifeStep → Prop
  | (_, .store handler) => ∀ sent report process, s.handling handler = some sent →
      s.coordinator.handlers handler = some report → s.drained = some process →
      sent.process ≤ process → ¬Offered report.info
  | _ => True

variable {setup : NodeSetup}

/-- A node has a row at some time exactly when its entry offers it. -/
theorem outOfRotation_iff {s : NodeLife} : OutOfRotation setup s ↔
    (s.drained.isSome → ∀ entry, s.coordinator.recorded.registry.get setup.nodeId = some entry →
      ¬Offered entry.info) := by
  refine imp_congr Iff.rfl ⟨fun hrows entry hget hoffered => ?_, fun hentry now row hrow hid => ?_⟩
  · have heligible : entry.isEligible entry.lastHeartbeat = true := by
      have hfresh : entry.lastHeartbeat - entry.lastHeartbeat < stale := by
        rw [sub_self]
        decide
      simp only [NodeEntry.isEligible, hfresh, decide_true, Bool.true_and, Bool.and_eq_true,
        Bool.not_eq_true', List.isEmpty_eq_false_iff]
      exact hoffered
    have hmem := mem_eligibleNodes_iff.mpr ⟨entry, hget, heligible, rfl⟩
    exact hrows entry.lastHeartbeat _ hmem.1 hmem.2
  · obtain ⟨entry, hget, heligible, -⟩ := mem_eligibleNodes_iff.mp ⟨hrow, hid⟩
    simp only [NodeEntry.isEligible, Bool.and_eq_true, Bool.not_eq_true',
      List.isEmpty_eq_false_iff] at heligible
    exact hentry entry hget ⟨heligible.1.2, heligible.2⟩

/-! ## What is on its way -/

/-- A body that a process of this node sent. -/
def WireReport.IsSent (setup : NodeSetup) (sent : WireReport) : Prop := ∃ info sup,
  sent.body = publishBody info sup setup.advertisedHost setup.controlEndpoint ∧
    info.nodeId = setup.nodeId ∧ (sent.draining → info.status = NodeStatus.draining.toI32)

/-- The decoded report of a handler that works on a sent one. -/
def WireReport.IsDecoded (setup : NodeSetup) (sent : WireReport) (report : Report) : Prop :=
  report.info.nodeId = setup.nodeId ∧ (sent.draining → ¬Offered report.info)

theorem WireReport.IsSent.decoded {sent : WireReport} (hsent : sent.IsSent setup) {peer : String}
    {report : Report} (hdecode : decodeReport peer sent.body = .ok report) :
    sent.IsDecoded setup report := by
  obtain ⟨info, sup, hbody, hid, hstatus⟩ := hsent
  rw [hbody] at hdecode
  obtain ⟨hsame, hlabel⟩ := report_of_publishBody hdecode
  refine ⟨hsame.trans hid, fun hdraining ⟨_, hdispatch⟩ => ?_⟩
  rw [hlabel, hstatus hdraining] at hdispatch
  exact absurd hdispatch (by decide)

structure NodeLife.Sound (setup : NodeSetup) (s : NodeLife) : Prop where
  agent : ∀ agent, s.agent = some agent →
    agent.first.nodeId = setup.nodeId ∧ agent.last.nodeId = setup.nodeId
  wire : ∀ slot sent, s.wire slot = some sent → sent.IsSent setup
  handling : ∀ handler sent, s.handling handler = some sent → ∃ report,
    s.coordinator.handlers handler = some report ∧ sent.IsDecoded setup report

theorem of_update_eq_some {α : Type} {f : ℕ → Option α} {slot other : ℕ} {value : Option α}
    {found : α} (hfound : Function.update f slot value other = some found) :
    other = slot ∧ value = some found ∨ other ≠ slot ∧ f other = some found := by
  by_cases hother : other = slot
  · subst hother
    rw [Function.update_self] at hfound
    exact .inl ⟨rfl, hfound⟩
  · rw [Function.update_of_ne hother] at hfound
    exact .inr ⟨hother, hfound⟩

/-! ## What a step does -/

/-- A step of the worker or of the network leaves the coordinator, another party's
step leaves the reports, and a report is applied. -/
inductive LifeMoves (setup : NodeSetup) (s : NodeLife) (now : ℤ) : LifeStep → NodeLife → Prop
  | start (collected info : NodeInfo) (hid : info.nodeId = setup.nodeId) :
      LifeMoves setup s now (.start collected)
        { s with started := s.started + 1, agent := some ⟨info, info⟩ }
  | send (step : LifeStep) (slot : ℕ) (sent : WireReport) (agent : Option Agent)
      (hstep : (∃ refreshed sup, step = .publish slot refreshed sup) ∨
        ∃ sup, step = .shutdown slot sup)
      (hsent : sent.IsSent setup)
      (hagent : ∀ a, agent = some a →
        a.first.nodeId = setup.nodeId ∧ a.last.nodeId = setup.nodeId) :
      LifeMoves setup s now step
        { s with agent, wire := Function.update s.wire slot (some sent) }
  | crash : LifeMoves setup s now .crash { s with agent := none }
  | lose (slot : ℕ) :
      LifeMoves setup s now (.lose slot) { s with wire := Function.update s.wire slot none }
  | arrive (slot handler : ℕ) (peer : String) (sent : WireReport) (coordinator : Interleaved)
      (hsent : s.wire slot = some sent)
      (hcheck : s.coordinator.check now handler peer sent.body = some coordinator) :
      LifeMoves setup s now (.arrive slot handler peer) { s with
        coordinator
        wire := Function.update s.wire slot none
        handling := Function.update s.handling handler
          ((coordinator.handlers handler).map fun _ => sent) }
  | store (handler : ℕ) (sent : WireReport) (coordinator : Interleaved)
      (hsent : s.handling handler = some sent)
      (hstore : s.coordinator.store now handler = some coordinator) :
      LifeMoves setup s now (.store handler) { s with
        coordinator
        handling := Function.update s.handling handler none
        drained := sent.drains s.drained }
  | other (step : Step) (coordinator : Interleaved) (hforeign : s.isForeign setup now step)
      (hrun : step.run s.coordinator now = some coordinator) :
      LifeMoves setup s now (.other step) { s with coordinator }

theorem LifeStep.run_moves {s next : NodeLife} {now : ℤ} {step : LifeStep} (hsound : s.Sound setup)
    (hrun : step.run setup s now = some next) : LifeMoves setup s now step next := by
  cases step with
  | start info =>
      simp only [LifeStep.run, NodeLife.start] at hrun
      split at hrun
      next =>
        cases hrun
        exact .start info _ rfl
      next => cases hrun
  | publish slot refreshed sup =>
      simp only [LifeStep.run, NodeLife.publish] at hrun
      split at hrun
      next agent hagent hfree =>
        obtain ⟨hfirst, hlast⟩ := hsound.agent agent hagent
        cases hrun
        have hinfo : (match refreshed with
            | some fresh => { fresh with
                nodeId := agent.last.nodeId, displayName := agent.last.displayName }
            | none => agent.last).nodeId = setup.nodeId := by
          cases refreshed with
          | none => exact hlast
          | some fresh => exact hlast
        refine .send _ slot _ _ (.inl ⟨refreshed, sup, rfl⟩)
          ⟨_, sup, rfl, hinfo, fun hcase => (by cases hcase)⟩ ?_
        intro a ha
        cases ha
        exact ⟨hfirst, hinfo⟩
      next => cases hrun
  | shutdown slot sup =>
      simp only [LifeStep.run, NodeLife.shutdown] at hrun
      split at hrun
      next agent hagent hfree =>
        obtain ⟨hfirst, -⟩ := hsound.agent agent hagent
        cases hrun
        let draining := { agent.first with status := NodeStatus.draining.toI32 }
        exact .send _ slot _ _ (.inr ⟨sup, rfl⟩) ⟨draining, sup, rfl, hfirst, fun _ => rfl⟩
          fun a ha => (by cases ha)
      next => cases hrun
  | crash =>
      cases hrun
      exact .crash
  | lose slot =>
      cases hrun
      exact .lose slot
  | arrive slot handler peer =>
      obtain ⟨sent, hsent, hrun⟩ := Option.bind_eq_some_iff.mp hrun
      obtain ⟨coordinator, hcheck, rfl⟩ := Option.map_eq_some_iff.mp hrun
      exact .arrive slot handler peer sent coordinator hsent hcheck
  | store handler =>
      obtain ⟨sent, hsent, hrun⟩ := Option.bind_eq_some_iff.mp hrun
      obtain ⟨coordinator, hstore, rfl⟩ := Option.map_eq_some_iff.mp hrun
      exact .store handler sent coordinator hsent hstore
  | other step =>
      simp only [LifeStep.run] at hrun
      split at hrun
      next hforeign =>
        obtain ⟨coordinator, hother, rfl⟩ := Option.map_eq_some_iff.mp hrun
        exact .other step coordinator hforeign hother
      next => cases hrun

/-- A step keeps track of the reports on their way. -/
theorem NodeLife.Sound.run {s next : NodeLife} {now : ℤ} {step : LifeStep} (hsound : s.Sound setup)
    (hrun : step.run setup s now = some next) : next.Sound setup := by
  cases LifeStep.run_moves hsound hrun with
  | start collected info hid =>
      refine ⟨?_, hsound.wire, hsound.handling⟩
      intro agent hagent
      cases hagent
      exact ⟨hid, hid⟩
  | send step slot sent agent hstep hsent hagent =>
      refine ⟨hagent, ?_, hsound.handling⟩
      intro other found hfound
      rcases of_update_eq_some hfound with ⟨-, hvalue⟩ | ⟨-, hbefore⟩
      · cases hvalue
        exact hsent
      · exact hsound.wire other found hbefore
  | crash => exact ⟨fun agent hagent => (by cases hagent), hsound.wire, hsound.handling⟩
  | lose slot =>
      refine ⟨hsound.agent, ?_, hsound.handling⟩
      intro other found hfound
      rcases of_update_eq_some hfound with ⟨-, hvalue⟩ | ⟨-, hbefore⟩
      · cases hvalue
      · exact hsound.wire other found hbefore
  | arrive slot handler peer sent coordinator hsent hcheck =>
      refine ⟨hsound.agent, ?_, ?_⟩
      · intro other found hfound
        rcases of_update_eq_some hfound with ⟨-, hvalue⟩ | ⟨-, hbefore⟩
        · cases hvalue
        · exact hsound.wire other found hbefore
      · intro other found hfound
        rcases of_update_eq_some hfound with ⟨rfl, hvalue⟩ | ⟨hne, hbefore⟩
        · obtain ⟨report, hreport, rfl⟩ := Option.map_eq_some_iff.mp hvalue
          exact ⟨report, hreport, (hsound.wire slot _ hsent).decoded
            (Interleaved.check_handlers hcheck hreport)⟩
        · obtain ⟨report, hwaits, hdecoded⟩ := hsound.handling other found hbefore
          have hstep : Step.run s.coordinator now (.check handler peer sent.body) =
            some coordinator := hcheck
          exact ⟨report, Step.run_handlers hstep hwaits (fun hcase => (by cases hcase)), hdecoded⟩
  | store handler sent coordinator hsent hstore =>
      refine ⟨hsound.agent, hsound.wire, ?_⟩
      intro other found hfound
      rcases of_update_eq_some hfound with ⟨-, hvalue⟩ | ⟨hne, hbefore⟩
      · cases hvalue
      · obtain ⟨report, hwaits, hdecoded⟩ := hsound.handling other found hbefore
        have hstep : Step.run s.coordinator now (.store handler) = some coordinator := hstore
        refine ⟨report, Step.run_handlers hstep hwaits ?_, hdecoded⟩
        intro hcase
        cases hcase
        exact hne rfl
  | other step coordinator hforeign hother =>
      refine ⟨hsound.agent, hsound.wire, ?_⟩
      intro handler found hfound
      obtain ⟨report, hwaits, hdecoded⟩ := hsound.handling handler found hfound
      refine ⟨report, Step.run_handlers hother hwaits ?_, hdecoded⟩
      intro hcase
      subst hcase
      have hbusy : s.handling handler = some found := hfound
      simp [NodeLife.isForeign, hbusy] at hforeign

/-! ## Who puts the node back into rotation -/

/-- A step that applies no report of this node leaves its entry, or marks it. -/
theorem get_of_foreign {s : NodeLife} {now : ℤ} {step : Step} {coordinator : Interleaved}
    (hforeign : s.isForeign setup now step)
    (hrun : step.run s.coordinator now = some coordinator) {entry : NodeEntry}
    (hget : coordinator.recorded.registry.get setup.nodeId = some entry)
    (hoffered : Offered entry.info) :
    s.coordinator.recorded.registry.get setup.nodeId = some entry := by
  have hrecorded := Step.run_recorded hrun
  simp only [NodeLife.isForeign, Bool.and_eq_true] at hforeign
  cases hwrite : step.write s.coordinator now with
  | none =>
      simp only [hwrite] at hrecorded
      rwa [hrecorded.get_eq] at hget
  | some write =>
      simp only [hwrite, Option.all_some, Bool.or_eq_true, Bool.not_eq_true', ne_eq,
        decide_eq_true_eq] at hrecorded hforeign
      rw [hrecorded] at hget
      change (s.coordinator.recorded.registry.insert write.entry).get setup.nodeId = _ at hget
      rw [KeyedMap.get_insert] at hget
      split at hget
      next hid =>
        cases hget
        rcases hforeign.2 with hmark | hother
        · rw [Offered, Write.inDispatch_mark hmark] at hoffered
          cases hoffered.2
        · exact absurd hid.symm hother
      next => exact hget

/-- The registry after a report of this node was applied. -/
theorem get_of_store {s : NodeLife} {now : ℤ} {handler : ℕ} {coordinator : Interleaved}
    (hstore : s.coordinator.store now handler = some coordinator) {report : Report}
    (hreport : s.coordinator.handlers handler = some report)
    (hid : report.info.nodeId = setup.nodeId) :
    coordinator.recorded.registry.get setup.nodeId = some (report.entry now) := by
  simp only [Interleaved.store, hreport, Option.map_some, Option.some.injEq] at hstore
  subst hstore
  have hself : setup.nodeId = (report.entry now).nodeId := hid.symm
  change (s.coordinator.recorded.registry.insert (report.entry now)).get setup.nodeId = _
  rw [KeyedMap.get_insert, if_pos hself]

theorem outOfRotation_step {s next : NodeLife} {now : ℤ} {step : LifeStep}
    (hsound : s.Sound setup) (hout : OutOfRotation setup s)
    (hrun : step.run setup s now = some next) :
    OutOfRotation setup next ↔ NoLateOffer s (now, step) := by
  rw [outOfRotation_iff] at hout ⊢
  cases LifeStep.run_moves hsound hrun with
  | start => exact ⟨fun _ => trivial, fun _ => hout⟩
  | send step slot sent agent hstep =>
      refine ⟨fun _ => ?_, fun _ => hout⟩
      rcases hstep with ⟨refreshed, sup, rfl⟩ | ⟨sup, rfl⟩ <;> trivial
  | crash => exact ⟨fun _ => trivial, fun _ => hout⟩
  | lose slot => exact ⟨fun _ => trivial, fun _ => hout⟩
  | arrive slot handler peer sent coordinator hsent hcheck =>
      refine ⟨fun _ => trivial, fun _ hdrained entry hget => hout hdrained entry ?_⟩
      have hstep : Step.run s.coordinator now (.check handler peer sent.body) =
        some coordinator := hcheck
      have hpasses := Step.run_recorded hstep
      simp only [Step.write] at hpasses
      rwa [hpasses.get_eq] at hget
  | store handler sent coordinator hsent hstore =>
      obtain ⟨report, hreport, hid, hdraining⟩ := hsound.handling handler sent hsent
      have hget := get_of_store hstore hreport hid
      constructor
      · intro hnext found decoded process hfound hdecoded hdrained hle
        cases hsent.symm.trans hfound
        cases hreport.symm.trans hdecoded
        -- the node is still drained, unless this was a Draining report
        refine hnext ?_ _ hget
        simp only [WireReport.drains, hdrained]
        split
        next => rfl
        next => simp [hle]
      · intro hlate hdrained entry hentry
        cases hget.symm.trans hentry
        simp only [WireReport.drains] at hdrained
        split at hdrained
        next hkind => exact hdraining hkind
        next =>
          obtain ⟨process, hprocess⟩ := Option.isSome_iff_exists.mp hdrained
          obtain ⟨hbefore, hle⟩ := Option.filter_eq_some_iff.mp hprocess
          exact hlate sent report process hsent hreport hbefore (of_decide_eq_true hle)
  | other step coordinator hforeign hother =>
      refine ⟨fun _ => trivial, fun _ hdrained entry hget hoffered => ?_⟩
      exact hout hdrained entry (get_of_foreign hforeign hother hget hoffered) hoffered

/-- After a Draining report was applied the node stays out of rotation until a newer
process reports, exactly in the runs that apply no offering report of the drained
process, or of an earlier one, in between. -/
theorem outOfRotation_iff_noLateOffer (setup : NodeSetup) (start : ℤ)
    (actions : List (ℤ × LifeStep)) :
    (nodeLife setup).Throughout (OutOfRotation setup) (.initial start) actions ↔
      (nodeLife setup).Meets NoLateOffer (.initial start) actions := by
  have hstep : ∀ s action next, (nodeLife setup).step s action = some next →
      action.2.run setup s action.1 = some next := by
    intro s action next hnext
    simp only [nodeLife] at hnext
    split at hnext
    next => exact hnext
    next => cases hnext
  have hkeeps : ∀ s action next, NodeLife.Sound setup s →
      (nodeLife setup).step s action = some next → NodeLife.Sound setup next :=
    fun s action next hsound hnext => hsound.run (hstep s action next hnext)
  have hinitial : (NodeLife.initial start).Sound setup :=
    ⟨fun agent hagent => (by cases hagent), fun slot sent hsent => (by cases hsent),
      fun handler sent hsent => (by cases hsent)⟩
  refine Machine.throughout_iff_meets hkeeps ?_ hinitial (fun hcase => by cases hcase) actions
  intro s action next hsound hout hnext
  exact outOfRotation_step hsound hout (hstep s action next hnext)

def plainNode : NodeSetup := ⟨"w1", none, ":50054"⟩

def withoutModel : Supervisor := ⟨50053, none, none, none⟩

/-- A heartbeat is on its way when the worker shuts down, and arrives after the
Draining report. -/
def lateHeartbeat : List (ℤ × LifeStep) := [
  (0, .start { hwFingerprint := "hw", gpus := [{}], status := NodeStatus.online.toI32 }),
  (0, .publish 0 none withoutModel), (1, .shutdown 1 withoutModel),
  (2, .arrive 1 0 "203.0.113.9"), (2, .store 0),
  (3, .arrive 0 0 "203.0.113.9"), (3, .store 0)]

/-- The node of a process that has ended is offered work again. -/
theorem lateHeartbeat_isOffered :
    ¬(nodeLife plainNode).Throughout (OutOfRotation plainNode) (.initial 0) lateHeartbeat := by
  intro hall
  have hrun : ((nodeLife plainNode).exec (.initial 0) lateHeartbeat).any (fun s =>
      s.drained.isSome && (s.coordinator.recorded.registry.get "w1").any fun entry =>
        decide (entry.info.gpus ≠ []) && inDispatch (.ofI32 entry.info.status)) = true := by
    decide +kernel
  obtain ⟨s, hexec, hstate⟩ := (Option.any_eq_true _ _).mp hrun
  simp only [Bool.and_eq_true, Option.any_eq_true, decide_eq_true_eq] at hstate
  obtain ⟨hdrained, entry, hget, hoffered⟩ := hstate
  exact outOfRotation_iff.mp (hall.last hexec) hdrained entry hget hoffered

end GpuCluster.Cluster
