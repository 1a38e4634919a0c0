import GpuCluster.Common.Encode
import GpuCluster.Common.Versions
import GpuCluster.Coordinator.Server

/-! # Reports from workers of other versions

What `report_node` makes of an inventory with keys deleted and unknown keys
added: it always parses, and only the node id is required.
-/

namespace GpuCluster.Coordinator

open Common Foundation Proto Sysinfo

variable {info : NodeInfo} {document : Json}

/-- The handler goes on with what is left of the view, without sidecars. -/
theorem decodeReport_edited (hfinite : FiniteBandwidth info)
    (hedits : Json.Edits (.record NodeInfoView.known) (toJson info) document) (peer : String) :
    decodeReport peer document =
      if (document.keep "node_id" "" fun _ => info.nodeId) = "" then .error .missingNodeId
      else .ok {
        info := ((NodeInfoView.ofPb info).keep document).toPb
        publicIp := some peer
        inferenceEndpoint := none
        controlEndpoint := none
        currentModel := none } := by
  simp only [decodeReport, NodeInfoView.decode_edited info hfinite hedits]
  rfl

/-- A report of another version decodes to what is left of the inventory's
view: the value of every key that is still there, the default of every other
one, and `Online` for a status that was left out. It is never refused as
unreadable. -/
theorem otherVersion_decodes (info : NodeInfo) (hfinite : FiniteBandwidth info) (document : Json)
    (hedits : Json.Edits (.record NodeInfoView.known) (toJson info) document) :
    NodeInfoView.decode document = some ((NodeInfoView.ofPb info).keep document) ∧
    (document.get? "status" = none →
      ((NodeInfoView.ofPb info).keep document).toPb.status = NodeStatus.online.toI32) ∧
    ∀ peer, decodeReport peer document ≠ .error .invalidPayload := by
  refine ⟨NodeInfoView.decode_edited info hfinite hedits, NodeInfoView.toPb_keep_status _, ?_⟩
  intro peer hrefused
  rw [decodeReport_edited hfinite hedits peer] at hrefused
  split at hrefused <;> cases hrefused

/-- A newer worker that sends no status and no GPU name, and a key of its own. -/
def newerReport : Json :=
  ((toJson profiledNode).erase "status").insert "gpus"
    (.array [(gpuJson profiledGpu).erase "name"]) |>.insert "schema" (.ofU32 2)

theorem otherVersion_decodes_newerReport :
    NodeInfoView.decode newerReport = some ((NodeInfoView.ofPb profiledNode).keep newerReport) ∧
    ((NodeInfoView.ofPb profiledNode).keep newerReport).toPb.status = NodeStatus.online.toI32 := by
  have hstatus : Json.Edit (.record NodeInfoView.known) (toJson profiledNode)
      ((toJson profiledNode).erase "status") := .delete ..
  have hgpu : Json.Edit (.items (.record GpuInfoView.known)) (.array [gpuJson profiledGpu])
      (.array [(gpuJson profiledGpu).erase "name"]) := .item [] [] (.delete ..)
  have hedits : Json.Edits (.record NodeInfoView.known) (toJson profiledNode) newerReport :=
    ((Relation.ReflTransGen.single hstatus).tail (.inside rfl rfl hgpu)).tail (.add rfl ..)
  have hdecodes := otherVersion_decodes profiledNode profiledNode_finite newerReport hedits
  exact ⟨hdecodes.1, hdecodes.2.1 rfl⟩

end GpuCluster.Coordinator
