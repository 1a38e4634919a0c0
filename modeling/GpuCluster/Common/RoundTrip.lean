import GpuCluster.Common.Nodes
import GpuCluster.Sysinfo.Inventory

/-! # Decoding what the inventory encoder wrote

One lemma for each record: its view decoder inverts its encoder. Only the GPU
capability profile needs a side condition, because JSON has no infinities: an
infinite bandwidth is written as `null`, which no number decoder accepts.
-/

namespace GpuCluster.Common

open Foundation Proto Sysinfo

theorem NodeStatusView.decode_label (status : Int32) :
    NodeStatusView.decode (.string (statusLabel status)) = some (.ofPb (.ofI32 status)) := by
  unfold statusLabel
  cases NodeStatus.ofI32 status <;> rfl

theorem BackendView.decode_label (backend : Int32) :
    BackendView.decode (.string (backendLabel backend)) = some (.ofPb (.ofI32 backend)) := by
  unfold backendLabel
  cases GpuBackend.ofI32 backend <;> rfl

theorem OsInfoView.decode_osJson (os : OsInfo) :
    OsInfoView.decode (osJson os) = some (.ofPb os) := by
  simp [OsInfoView.decode, osJson, OsInfoView.ofPb]

theorem CpuMemInfoView.decode_cpuMemJson (cm : CpuMemInfo) :
    CpuMemInfoView.decode (cpuMemJson cm) = some (.ofPb cm) := by
  simp [CpuMemInfoView.decode, cpuMemJson, CpuMemInfoView.ofPb]

theorem NetworkInfoView.decode_netJson (n : NetworkInfo) :
    NetworkInfoView.decode (netJson n) = some (.ofPb n) := by
  simp [NetworkInfoView.decode, netJson, NetworkInfoView.ofPb]

/-- The bandwidth is the only field of a profile that can be refused. -/
theorem GpuCapabilityProfileView.decode_capJson (c : GpuCapabilityProfile) :
    GpuCapabilityProfileView.decode (capJson c) =
      (Decoder.f32 (.ofF32 c.memBandwidthGbs)).map fun memBandwidthGbs =>
        { GpuCapabilityProfileView.ofPb c with memBandwidthGbs } := by
  -- Looking the fields up is computation; only the checked decoders are left to rewrite.
  change (do
    let computeCapMajor ← Decoder.u32 (.ofU32 c.computeCapMajor)
    let computeCapMinor ← Decoder.u32 (.ofU32 c.computeCapMinor)
    let memBandwidthGbs ← Decoder.f32 (.ofF32 c.memBandwidthGbs)
    let backend ← BackendView.decode (.string (backendLabel c.backend))
    some (GpuCapabilityProfileView.mk c.architecture computeCapMajor computeCapMinor c.vramBytes
      memBandwidthGbs c.supportsFp16 c.supportsBf16 c.supportsFp8 c.supportsFp4 c.supportsInt8Tc
      backend c.unifiedMemory)) = _
  simp only [Decoder.u32_ofU32, BackendView.decode_label]
  cases Decoder.f32 (.ofF32 c.memBandwidthGbs) <;> rfl

/-- The capability profile is the only field of a GPU that can be refused. -/
theorem GpuInfoView.decode_gpuJson (g : GpuInfo) :
    GpuInfoView.decode (gpuJson g) =
      (Decoder.option GpuCapabilityProfileView.decode (.ofOption capJson g.capability)).map
        fun capability => { GpuInfoView.ofPb g with capability } := by
  change (do
    let index ← Decoder.u32 (.ofU32 g.index)
    let backend ← BackendView.decode (.string (backendLabel g.backend))
    let computeCapMajor ← Decoder.u32 (.ofU32 g.computeCapMajor)
    let computeCapMinor ← Decoder.u32 (.ofU32 g.computeCapMinor)
    let gpuCoreCount ← Decoder.u32 (.ofU32 g.gpuCoreCount)
    let powerLimitW ← Decoder.u32 (.ofU32 g.powerLimitW)
    let capability ← Decoder.option GpuCapabilityProfileView.decode (.ofOption capJson g.capability)
    some (GpuInfoView.mk index g.uuid g.name g.architecture backend computeCapMajor
      computeCapMinor g.vramTotalBytes g.vramFreeBytes g.unifiedMemory gpuCoreCount g.metalFamily
      g.driverVersion g.cudaVersion g.vbiosVersion powerLimitW g.nvlinkPresent capability)) = _
  simp only [Decoder.u32_ofU32, BackendView.decode_label]
  cases Decoder.option GpuCapabilityProfileView.decode (.ofOption capJson g.capability) <;> rfl

/-- The bandwidth figure of every capability profile is a number JSON can express. -/
def FiniteBandwidth (info : NodeInfo) : Prop :=
  ∀ gpu ∈ info.gpus, ∀ capability ∈ gpu.capability, capability.memBandwidthGbs.isFinite

theorem decode_gpus (info : NodeInfo) (hfinite : FiniteBandwidth info) :
    Decoder.seq GpuInfoView.decode (.array (info.gpus.map gpuJson)) =
      some (info.gpus.map GpuInfoView.ofPb) := by
  apply Decoder.seq_map
  intro g hg
  have hcapability := Decoder.option_ofOption GpuCapabilityProfileView.decode capJson
    GpuCapabilityProfileView.ofPb g.capability (fun _ => by simp [capJson]) fun c hc => by
      rw [GpuCapabilityProfileView.decode_capJson, Decoder.f32_ofF32 _ (hfinite g hg c hc)]
      rfl
  rw [GpuInfoView.decode_gpuJson, hcapability]
  rfl

theorem decode_gpus_none (info : NodeInfo) (hinfinite : ¬ FiniteBandwidth info) :
    Decoder.seq GpuInfoView.decode (.array (info.gpus.map gpuJson)) = none := by
  simp only [FiniteBandwidth, not_forall] at hinfinite
  obtain ⟨g, hg, c, hc, hnot⟩ := hinfinite
  have hprofile : GpuCapabilityProfileView.decode (capJson c) = none := by
    rw [GpuCapabilityProfileView.decode_capJson, Decoder.f32_ofF32_none _ hnot, Option.map_none]
  have hcapability : Decoder.option GpuCapabilityProfileView.decode
      (.ofOption capJson g.capability) = none := by
    rw [Option.mem_def.mp hc]
    exact congrArg (Option.map some) hprofile
  apply Decoder.seq_map_none _ _ hg
  rw [GpuInfoView.decode_gpuJson, hcapability, Option.map_none]

/-- The keys an inventory writes. -/
def inventoryKeys : List String :=
  ["node_id", "hostname", "display_name", "hw_fingerprint", "agent_version", "tags", "status",
    "os", "cpu_mem", "network", "gpus"]

/-- A document that says what the inventory says under the inventory's keys. -/
def HoldsInventory (document : Json) (info : NodeInfo) : Prop :=
  ∀ key ∈ inventoryKeys, document.get? key = (toJson info).get? key

/-- Decorations keep the inventory unless they change one of its values. -/
theorem HoldsInventory.insert {document : Json} {info : NodeInfo}
    (hholds : HoldsInventory document info) {key : String} {value : Json}
    (hvalue : key ∈ inventoryKeys → (toJson info).get? key = some value) :
    HoldsInventory (document.insert key value) info := by
  intro name hname
  by_cases hsame : name = key
  · subst hsame
    rw [hvalue hname]
    exact Json.get?_insert_self (hholds "node_id" (by decide)) name value
  · rw [Json.get?_insert_ne hsame]
    exact hholds name hname

theorem HoldsInventory.insert_new {document : Json} {info : NodeInfo}
    (hholds : HoldsInventory document info) {key : String} (hkey : key ∉ inventoryKeys)
    (value : Json) : HoldsInventory (document.insert key value) info :=
  hholds.insert fun hmem => absurd hmem hkey

/-- A document that holds an inventory decodes to the view of that inventory,
with the sidecars of the three keys left. Other keys are ignored. -/
theorem NodeInfoView.decode_of_holds {document : Json} {info : NodeInfo}
    (hholds : HoldsInventory document info)
    {inferenceEndpoint controlEndpoint currentModel : Option String}
    (hinference : Decoder.orDefault none (Decoder.option Decoder.string)
      (document.get? "inference_endpoint") = some inferenceEndpoint)
    (hcontrol : Decoder.orDefault none (Decoder.option Decoder.string)
      (document.get? "control_endpoint") = some controlEndpoint)
    (hmodel : Decoder.orDefault none (Decoder.option Decoder.string)
      (document.get? "current_model") = some currentModel) :
    NodeInfoView.decode document =
      (Decoder.seq GpuInfoView.decode (.array (info.gpus.map gpuJson))).map fun gpus =>
        { NodeInfoView.ofPb info with gpus, inferenceEndpoint, controlEndpoint, currentModel } := by
  have hfields : Decoder.fieldsOf 14 document = some fun name _ => document.get? name := by
    cases document with
    | object fields => rfl
    | _ => exact absurd (hholds "node_id" (by decide)) (by simp [Json.get?, toJson])
  have hos := Decoder.option_ofOption OsInfoView.decode osJson OsInfoView.ofPb info.os
    (fun _ => by simp [osJson]) fun os _ => OsInfoView.decode_osJson os
  have hcpu := Decoder.option_ofOption CpuMemInfoView.decode cpuMemJson CpuMemInfoView.ofPb
    info.cpuMem (fun _ => by simp [cpuMemJson]) fun cm _ => CpuMemInfoView.decode_cpuMemJson cm
  have hnetwork := Decoder.option_ofOption NetworkInfoView.decode netJson NetworkInfoView.ofPb
    info.network (fun _ => by simp [netJson]) fun n _ => NetworkInfoView.decode_netJson n
  have hstatus : Decoder.option NodeStatusView.decode (.string (statusLabel info.status)) =
      some (some (.ofPb (.ofI32 info.status))) := by
    simp only [Decoder.option, NodeStatusView.decode_label, Option.map_some]
  simp only [HoldsInventory, inventoryKeys, List.forall_mem_cons] at hholds
  obtain ⟨hid, hhost, hdisplay, hfp, hagent, htags, hst, hosKey, hcpuKey, hnet, hgpus, -⟩ :=
    hholds
  rw [NodeInfoView.decode, hfields, Option.bind_eq_bind, Option.bind_some]
  beta_reduce
  rw [hid, hhost, hdisplay, hfp, hagent, htags, hst, hosKey, hcpuKey, hnet, hgpus, hinference,
    hcontrol, hmodel]
  change (do
    let tags ← Decoder.seq Decoder.string (.ofStrings info.tags)
    let status ← Decoder.option NodeStatusView.decode (.string (statusLabel info.status))
    let os ← Decoder.option OsInfoView.decode (.ofOption osJson info.os)
    let cpuMem ← Decoder.option CpuMemInfoView.decode (.ofOption cpuMemJson info.cpuMem)
    let network ← Decoder.option NetworkInfoView.decode (.ofOption netJson info.network)
    let gpus ← Decoder.seq GpuInfoView.decode (.array (info.gpus.map gpuJson))
    some (NodeInfoView.mk info.nodeId info.hostname info.displayName info.hwFingerprint
      info.agentVersion tags status os cpuMem network gpus inferenceEndpoint controlEndpoint
      currentModel)) = _
  simp only [Decoder.seq_ofStrings, hstatus, hos, hcpu, hnetwork]
  cases Decoder.seq GpuInfoView.decode (.array (info.gpus.map gpuJson)) <;> rfl

end GpuCluster.Common
