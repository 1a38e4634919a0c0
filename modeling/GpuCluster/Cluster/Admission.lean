import GpuCluster.Coordinator.Eligibility
import GpuCluster.Mgmt.NodeStatus
import GpuCluster.OpenaiApi.Dispatch

/-! # Nodes an admin takes out

A revocation or a drain changes the management backend's table. Work is offered
by the coordinator, whose registry knows what the workers report and nothing
else. The runs in which a node that was taken out is offered no work are
characterised by its own last report.
-/

namespace GpuCluster.Cluster

open Common Foundation Mgmt OpenaiApi
open Coordinator (Interleaved eligibleNodes lastWrite mem_eligibleNodes_iff_lastWrite nodesOf)

/-- The management backend and the coordinator. `removed` are the nodes whose
revocation or drain was answered with success and that were not approved since,
which no handler reads. -/
structure Admission where
  mgmt : NodeTable
  coordinator : Interleaved
  removed : List String

inductive AdmissionStep
  | enroll (step : EnrollStep)
  | admin (change : StatusChange) (id : String) (audited : Bool)
  | coordinator (now : ℤ) (step : Coordinator.Step)
  /-- `eligible_nodes` answers, and the dispatcher chooses. -/
  | offer (now : ℤ)

/-- The nodes that are out after a change that succeeded. -/
def removedBy (removed : List String) (id : String) : StatusChange → List String
  | .approve => removed.filter (· ≠ id)
  | .revoke => id :: removed
  | .drain => id :: removed

namespace Admission

def initial (db : Database) (start : ℤ) : Admission where
  mgmt := ⟨.initial { db with nodes := .empty }, []⟩
  coordinator := .initial start
  removed := []

def admin (s : Admission) (change : StatusChange) (id : String) (audited : Bool) :
    Option Admission :=
  (s.mgmt.change change id audited).map fun mgmt => { s with
    mgmt
    removed := match change.exec s.mgmt.enrolling.db id audited with
      | .ok _ => removedBy s.removed id change
      | .error _ => s.removed }

/-- The coordinator's answer at a clock reading. -/
def answer (s : Admission) (now : ℤ) : Json := eligibleNodes s.coordinator.recorded.registry now

end Admission

def AdmissionStep.run (verify : String → String → Bool) (s : Admission) :
    AdmissionStep → Option Admission
  | .enroll step => (s.mgmt.enroll verify step).map fun mgmt => { s with mgmt }
  | .admin change id audited => s.admin change id audited
  | .coordinator now step => (Coordinator.interleaved.step s.coordinator (now, step)).map
      fun coordinator => { s with coordinator }
  | .offer now =>
      if s.coordinator.recorded.clock ≤ now then
        some { s with coordinator := s.coordinator.advance now }
      else none

def admission (verify : String → String → Bool) : Machine Admission AdmissionStep where
  init s := ∃ db start, s = .initial db start
  step s action := action.run verify s

/-! ## Offers -/

/-- No answer lists a node that is out, and no request is sent to one. -/
def OffersNoneRemoved (s : Admission) : AdmissionStep → Prop
  | .offer now => ∀ id ∈ s.removed,
      (∀ row ∈ nodesOf (s.answer now), row.get? "node_id" ≠ some (.string id)) ∧
        (dispatch (.ok (s.answer now))).1.nodeId ≠ some id
  | _ => True

/-- When the coordinator answers, what it last heard of a node that is out is at
least 60 s old, shows no GPU or has a status out of dispatch itself, or the
watchdog has marked the node since. -/
def RemovedTookThemselvesOut (s : Admission) : AdmissionStep → Prop
  | .offer now => ∀ id ∈ s.removed, ∀ write,
      lastWrite s.coordinator.recorded.log id = some write → ¬write.Offers now
  | _ => True

variable {verify : String → String → Bool}

theorem admission_faithful {s next : Admission} {action : AdmissionStep}
    (hs : s.coordinator.recorded.Faithful) (hstep : action.run verify s = some next) :
    next.coordinator.recorded.Faithful := by
  cases action with
  | enroll step =>
      obtain ⟨mgmt, -, rfl⟩ := Option.map_eq_some_iff.mp hstep
      exact hs
  | admin change id audited =>
      obtain ⟨mgmt, -, rfl⟩ := Option.map_eq_some_iff.mp hstep
      exact hs
  | coordinator now step =>
      obtain ⟨coordinator, hcoordinator, rfl⟩ := Option.map_eq_some_iff.mp hstep
      exact Coordinator.interleaved_step_faithful hs hcoordinator
  | offer now =>
      simp only [AdmissionStep.run] at hstep
      split at hstep
      next htime =>
        cases hstep
        exact hs.advance (fun _ => rfl) rfl htime
      next => cases hstep

/-- One answer leaves a node out exactly when its last write does. -/
theorem answer_omits_iff {s : Admission} (hs : s.coordinator.recorded.Faithful) (now : ℤ)
    (id : String) :
    (∀ row ∈ nodesOf (s.answer now), row.get? "node_id" ≠ some (.string id)) ↔
      ∀ write, lastWrite s.coordinator.recorded.log id = some write → ¬write.Offers now := by
  constructor
  · intro homits write hlast hoffers
    obtain ⟨hrow, hid⟩ :=
      (mem_eligibleNodes_iff_lastWrite hs).mpr ⟨write, hlast, hoffers, rfl⟩
    exact homits _ hrow hid
  · intro hsilent row hrow hid
    obtain ⟨write, hlast, hoffers, -⟩ := (mem_eligibleNodes_iff_lastWrite hs).mp ⟨hrow, hid⟩
    exact hsilent write hlast hoffers

/-- In a run of the management backend and the coordinator, nodes that were
revoked or drained are offered no work exactly when each of them has taken
itself out in the coordinator's eyes. -/
theorem offersNoneRemoved_iff_tookThemselvesOut (db : Database) (start : ℤ)
    (actions : List AdmissionStep) :
    (admission verify).Meets OffersNoneRemoved (.initial db start) actions ↔
      (admission verify).Meets RemovedTookThemselvesOut (.initial db start) actions := by
  have hfaithful : (Admission.initial db start).coordinator.recorded.Faithful :=
    Coordinator.Recorded.faithful_initial start
  have hkeeps : ∀ (s : Admission) (action : AdmissionStep) (next : Admission),
      s.coordinator.recorded.Faithful → (admission verify).step s action = some next →
      next.coordinator.recorded.Faithful := fun _ _ _ => admission_faithful
  refine Machine.meets_iff hkeeps (fun s action next hs _ => ?_) hfaithful actions
  cases action with
  | offer now =>
      refine forall_congr' fun id => forall_congr' fun hremoved => ?_
      rw [← answer_omits_iff hs]
      constructor
      · intro hnone
        exact hnone.1
      · intro homits
        refine ⟨homits, fun hdispatch => ?_⟩
        obtain ⟨row, hrow, hid⟩ := dispatch_nodeId hdispatch
        exact homits row hrow hid
  | enroll | admin | coordinator => exact Iff.rfl

/-! ## One run -/

/-- A node enrolls, is approved and drained, and reports before and after. -/
def drainedReports : List AdmissionStep :=
  let body := Sysinfo.toJson
    { nodeId := "x", gpus := [{}], status := Proto.NodeStatus.online.toI32 }
  (untilCommit 0 "hw" "x" ++ [EnrollStep.commit 0]).map AdmissionStep.enroll ++
    [.admin .approve "x" true, .coordinator 0 (.check 0 "10.0.0.1" body),
      .coordinator 0 (.store 0), .admin .drain "x" true,
      .coordinator (seconds 30) (.check 1 "10.0.0.1" body), .coordinator (seconds 30) (.store 1)]

/-- The drained node is on the next list of eligible nodes. -/
theorem drainedNode_isOffered :
    ¬(admission fun hash secret => hash == secret).Meets OffersNoneRemoved (.initial oneToken 0)
      (drainedReports ++ [.offer (seconds 31)]) := by
  have hrun : ((admission fun hash secret => hash == secret).exec (.initial oneToken 0)
      drainedReports).any (fun s => s.removed = ["x"] &&
        s.coordinator.recorded.clock ≤ seconds 31 &&
        (nodesOf (s.answer (seconds 31))).any (·.str? "node_id" = some "x")) = true := by
    decide +kernel
  obtain ⟨s, hexec, hstate⟩ := (Option.any_eq_true _ _).mp hrun
  simp only [Bool.and_eq_true, decide_eq_true_eq, List.any_eq_true] at hstate
  obtain ⟨⟨hremoved, htime⟩, row, hrow, hid⟩ := hstate
  have hstep : (admission fun hash secret => hash == secret).step s (.offer (seconds 31)) =
      some { s with coordinator := s.coordinator.advance (seconds 31) } := if_pos htime
  intro hmeets
  have hnone := hmeets.after hexec hstep "x" (by rw [hremoved]; exact List.mem_cons_self)
  exact hnone.1 row hrow (Json.str?_eq_some.mp hid)

end GpuCluster.Cluster
