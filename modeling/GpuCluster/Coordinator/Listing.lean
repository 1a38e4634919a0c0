import GpuCluster.Common.RoundTrip
import GpuCluster.Coordinator.Server

/-! # Reading the node list back

A report is decoded into a view, stored as a message with three sidecars, and
published as an inventory with decorations. The list's rows decode like
reports do, so what a row loses of the reported view can be said exactly.
-/

namespace GpuCluster.Common

open Foundation Proto

/-! ## Views and messages -/

theorem BackendView.ofPb_toPb (backend : BackendView) :
    BackendView.ofPb (.ofI32 backend.toPb.toI32) = backend := by
  cases backend <;> rfl

theorem NodeStatusView.ofPb_toPb (status : NodeStatusView) :
    NodeStatusView.ofPb (.ofI32 status.toPb.toI32) = status := by
  cases status <;> rfl

theorem GpuCapabilityProfileView.ofPb_toPb (v : GpuCapabilityProfileView) :
    GpuCapabilityProfileView.ofPb v.toPb = v := by
  simp only [GpuCapabilityProfileView.toPb, GpuCapabilityProfileView.ofPb, BackendView.ofPb_toPb]

theorem GpuInfoView.ofPb_toPb (v : GpuInfoView) : GpuInfoView.ofPb v.toPb = v := by
  have hcapability : (v.capability.map GpuCapabilityProfileView.toPb).map
      GpuCapabilityProfileView.ofPb = v.capability := by
    cases v.capability with
    | none => rfl
    | some c => exact congrArg some c.ofPb_toPb
  simp only [GpuInfoView.toPb, GpuInfoView.ofPb, BackendView.ofPb_toPb, hcapability]

/-- The message a view becomes loses its sidecars and the difference between an
absent status and `Online`. -/
theorem NodeInfoView.ofPb_toPb (v : NodeInfoView) :
    NodeInfoView.ofPb v.toPb = { v with
      status := some (v.status.getD .online)
      inferenceEndpoint := none
      controlEndpoint := none
      currentModel := none } := by
  have hstatus : NodeStatusView.ofPb (.ofI32 v.toPb.status) = v.status.getD .online := by
    cases hcase : v.status with
    | none => simp only [NodeInfoView.toPb, hcase]; rfl
    | some status => simp only [NodeInfoView.toPb, hcase]; exact status.ofPb_toPb
  have hos : (v.os.map OsInfoView.toPb).map OsInfoView.ofPb = v.os := by
    cases v.os <;> rfl
  have hcpu : (v.cpuMem.map CpuMemInfoView.toPb).map CpuMemInfoView.ofPb = v.cpuMem := by
    cases v.cpuMem <;> rfl
  have hnetwork : (v.network.map NetworkInfoView.toPb).map NetworkInfoView.ofPb = v.network := by
    cases v.network <;> rfl
  have hgpus : (v.gpus.map GpuInfoView.toPb).map GpuInfoView.ofPb = v.gpus := by
    rw [List.map_map]
    calc v.gpus.map (GpuInfoView.ofPb ∘ GpuInfoView.toPb)
      _ = v.gpus.map id := List.map_congr_left fun g _ => g.ofPb_toPb
      _ = v.gpus := List.map_id _
  rw [NodeInfoView.ofPb, hstatus]
  simp only [NodeInfoView.toPb, hos, hcpu, hnetwork, hgpus]

end GpuCluster.Common

namespace GpuCluster.Coordinator

open Common Foundation Proto Sysinfo

/-! ## The rows of the list -/

/-- The row of a node, by the key the dashboard reads. -/
def listedRow (body : Json) (id : String) : Option Json :=
  (nodesOf body).find? fun row => row.str? "id" = some id

theorem str?_listedJson_id (toRfc3339 : ℤ → String) (entry : NodeEntry) :
    (listedJson toRfc3339 entry).str? "id" = some entry.nodeId := rfl

theorem listedRow_listNodes (toRfc3339 : ℤ → String) (reg : Registry) (id : String) :
    listedRow (listNodes toRfc3339 reg) id = (reg.get id).map (listedJson toRfc3339) := by
  simp only [listedRow, listNodes, nodesOf_nodesJson, List.find?_map, Function.comp_def,
    str?_listedJson_id, Option.some.injEq]
  exact congrArg (Option.map _) (reg.find?_list id)

/-- The decorations keep the inventory: the only inventory key among them is
the status, which gets the value it had. -/
theorem holdsInventory_listedJson (toRfc3339 : ℤ → String) (entry : NodeEntry) :
    HoldsInventory (listedJson toRfc3339 entry) entry.info := by
  have hinventory : HoldsInventory (toJson entry.info) entry.info := fun _ _ => rfl
  have hlabel : (toJson entry.info).get? "status" =
      some (.string (statusLabel entry.info.status)) := by
    rw [statusLabel_eq]
    rfl
  apply HoldsInventory.insert_new _ (by decide)
  apply HoldsInventory.insert_new _ (by decide)
  apply HoldsInventory.insert_new _ (by decide)
  apply HoldsInventory.insert_new _ (by decide)
  apply HoldsInventory.insert _ fun _ => hlabel
  apply HoldsInventory.insert_new _ (by decide)
  exact hinventory.insert_new (by decide) _

/-- What a row decodes to: the stored message's view with two of the three
stored sidecars. -/
theorem decode_listedJson (toRfc3339 : ℤ → String) (entry : NodeEntry) :
    NodeInfoView.decode (listedJson toRfc3339 entry) =
      (Decoder.seq GpuInfoView.decode (.array (entry.info.gpus.map gpuJson))).map fun gpus =>
        { NodeInfoView.ofPb entry.info with
          gpus
          inferenceEndpoint := none
          controlEndpoint := entry.controlEndpoint
          currentModel := entry.currentModel } :=
  NodeInfoView.decode_of_holds (holdsInventory_listedJson toRfc3339 entry) rfl
    (Decoder.orDefault_ofOption rfl) (Decoder.orDefault_ofOption rfl)

/-! ## The round trip -/

/-- The view a row is read back as when nothing is lost: an absent status is
`online` and an empty sidecar is absent. -/
def readBack (view : NodeInfoView) : NodeInfoView :=
  { view with
    status := some (view.status.getD .online)
    inferenceEndpoint := nonEmpty view.inferenceEndpoint
    controlEndpoint := nonEmpty view.controlEndpoint
    currentModel := nonEmpty view.currentModel }

/-- A message states the bandwidths of its view. -/
theorem finiteBandwidth_toPb (view : NodeInfoView) :
    FiniteBandwidth view.toPb ↔
      ∀ gpu ∈ view.gpus, ∀ capability ∈ gpu.capability, capability.memBandwidthGbs.isFinite := by
  simp [FiniteBandwidth, NodeInfoView.toPb, GpuInfoView.toPb, GpuCapabilityProfileView.toPb]

/-- The stored entry of an accepted report. -/
theorem get_of_reportNode {reg next : Registry} {now : ℤ} {peer : String} {body : Json}
    {view : NodeInfoView} {id : String} (hview : NodeInfoView.decode body = some view)
    (haccepted : reportNode reg now peer body = .ok (next, id)) :
    next.get id = some (.make now view.toPb (some peer) (nonEmpty view.inferenceEndpoint)
      (nonEmpty view.controlEndpoint) (nonEmpty view.currentModel)) := by
  by_cases hid : view.toPb.nodeId = ""
  · have hrefused : decodeReport peer body = .error .missingNodeId := by
      simp only [decodeReport, hview, if_pos hid]
    rw [reportNode_of_error hrefused] at haccepted
    cases haccepted
  · rw [reportNode_of_decode (decodeReport_of_view peer hview hid)] at haccepted
    split at haccepted
    next => cases haccepted
    next =>
      cases haccepted
      exact KeyedMap.get_insert_self reg _

/-- A report is read back from the list as it was sent exactly when it names no
inference endpoint and every bandwidth it states is finite. -/
theorem decode_listedRow_iff (toRfc3339 : ℤ → String) {reg next seen : Registry} {now : ℤ}
    {peer : String} {body : Json} {view : NodeInfoView} {id : String}
    (hview : NodeInfoView.decode body = some view)
    (haccepted : reportNode reg now peer body = .ok (next, id))
    (hseen : seen.get id = next.get id) :
    (listedRow (listNodes toRfc3339 seen) id).bind NodeInfoView.decode =
        some (readBack view) ↔
      nonEmpty view.inferenceEndpoint = none ∧
        ∀ gpu ∈ view.gpus, ∀ capability ∈ gpu.capability, capability.memBandwidthGbs.isFinite := by
  rw [listedRow_listNodes, hseen, get_of_reportNode hview haccepted, Option.map_some,
    Option.bind_some, decode_listedJson, ← finiteBandwidth_toPb]
  by_cases hfinite : FiniteBandwidth view.toPb
  · rw [NodeEntry.make, decode_gpus _ hfinite, and_iff_left hfinite]
    have hmessage := NodeInfoView.ofPb_toPb view
    have hgpus : view.toPb.gpus.map GpuInfoView.ofPb = view.gpus :=
      congrArg NodeInfoView.gpus hmessage
    constructor
    · intro hsame
      exact (congrArg NodeInfoView.inferenceEndpoint (Option.some.inj hsame)).symm
    · intro hnone
      rw [hgpus, hmessage, readBack, hnone]
      rfl
  · rw [NodeEntry.make, decode_gpus_none _ hfinite]
    simp only [Option.map_none, hfinite, and_false, reduceCtorEq]

/-- A worker without a model is read back as it reported, with its control
endpoint. -/
theorem decode_listedRow_idle :
    let body : Json := .object [("node_id", .string "x"), ("control_endpoint", .string ":50054")]
    ∃ view next, NodeInfoView.decode body = some view ∧
      reportNode .empty 0 "10.0.0.1" body = .ok (next, "x") ∧
      ∀ toRfc3339, (listedRow (listNodes toRfc3339 next) "x").bind NodeInfoView.decode =
        some (readBack view) := by
  intro body
  refine ⟨_, _, rfl, rfl, fun toRfc3339 => ?_⟩
  apply (@decode_listedRow_iff toRfc3339 .empty _ _ 0 "10.0.0.1" body _ "x" rfl rfl rfl).mpr
  exact ⟨rfl, fun _ hgpu => by cases hgpu⟩

/-- A worker with a loaded model posts its endpoint; the list has no such key,
and the dispatcher's address is lost to its readers. -/
theorem endpoint_lost :
    let body : Json := .object [("node_id", .string "x"), ("inference_endpoint", .string ":50053")]
    ∃ view next, NodeInfoView.decode body = some view ∧
      reportNode .empty 0 "10.0.0.1" body = .ok (next, "x") ∧
      ∀ toRfc3339, ((listedRow (listNodes toRfc3339 next) "x").bind NodeInfoView.decode).map
          NodeInfoView.inferenceEndpoint = some none ∧
        (listedRow (listNodes toRfc3339 next) "x").bind NodeInfoView.decode ≠
          some (readBack view) := by
  refine ⟨_, _, rfl, rfl, fun toRfc3339 => ⟨rfl, ?_⟩⟩
  intro hsame
  have hendpoint : some none = some (some ":50053") :=
    congrArg (Option.map NodeInfoView.inferenceEndpoint) hsame
  cases hendpoint

end GpuCluster.Coordinator
