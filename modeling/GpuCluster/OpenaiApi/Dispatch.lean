import GpuCluster.Coordinator.LoadModel

/-! # Picking a worker for a request

Every request asks the coordinator anew and goes to the first eligible node that
runs an inference server.
-/

namespace GpuCluster.OpenaiApi

open Foundation
open Coordinator (ClientOutcome nodesOf)

inductive DispatchFailure
  | coordError (status : UInt16) (body : String)
  | coordUnreachable (message : String)
  | noEligibleNodes
  | noInferenceEndpoint (chosen : Json)

/-- What `dispatch` notes about its choice. -/
structure Trace where
  nodeId : Option String
  inferenceUrl : Option String

/-- The first node with an inference URL, else the first one. -/
def chosenNode (resp : Json) : Option Json :=
  ((nodesOf resp).find? fun n => (n.str? "inference_url").isSome).or (nodesOf resp).head?

/-- `dispatch`, on the coordinator's answer. -/
def dispatch : ClientOutcome → Trace × Except DispatchFailure String
  | .upstream status body => (⟨none, none⟩, .error (.coordError status body))
  | .failed message => (⟨none, none⟩, .error (.coordUnreachable message))
  | .ok resp =>
      match chosenNode resp with
      | none => (⟨none, none⟩, .error .noEligibleNodes)
      | some chosen =>
          (⟨chosen.str? "node_id", chosen.str? "inference_url"⟩,
            match chosen.str? "inference_url" with
            | some url => .ok url
            | none => .error (.noInferenceEndpoint chosen))

/-- A node that is chosen was in the answer. -/
theorem mem_of_chosenNode {resp chosen : Json} (hchosen : chosenNode resp = some chosen) :
    chosen ∈ nodesOf resp := by
  rcases Option.or_eq_some_iff.mp hchosen with hfound | ⟨-, hhead⟩
  · exact List.mem_of_find?_eq_some hfound
  · exact List.mem_of_mem_head? hhead

/-- Requests go to nodes of the answer only. -/
theorem dispatch_nodeId {resp : Json} {id : String}
    (hdispatch : (dispatch (.ok resp)).1.nodeId = some id) :
    ∃ row ∈ nodesOf resp, row.get? "node_id" = some (.string id) := by
  unfold dispatch at hdispatch
  split at hdispatch
  next => cases hdispatch
  next => cases hdispatch
  next resp' hresp =>
    cases hresp
    split at hdispatch
    next => cases hdispatch
    next chosen hchosen =>
      exact ⟨chosen, mem_of_chosenNode hchosen, Json.str?_eq_some.mp hdispatch⟩

end GpuCluster.OpenaiApi
