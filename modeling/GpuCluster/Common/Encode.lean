import GpuCluster.Common.RoundTrip

/-! # The derived encoder of the wire view

What the derived serializer writes for a view: every field under its own name,
enums by their renamed variant, and nothing at all for an absent option. The
inventory encoder writes `null` there. Both decode to the same view.
-/

namespace GpuCluster.Common

open Foundation Proto Sysinfo

/-! ## Encoders -/

def NodeStatusView.encode : NodeStatusView → Json
  | .unspecified => .string "unspecified"
  | .pendingApproval => .string "pending_approval"
  | .online => .string "online"
  | .degraded => .string "degraded"
  | .draining => .string "draining"
  | .offline => .string "offline"
  | .quarantined => .string "quarantined"
  | .revoked => .string "revoked"

def BackendView.encode : BackendView → Json
  | .unspecified => .string "unspecified"
  | .cuda => .string "cuda"
  | .metal => .string "metal"
  | .rocm => .string "rocm"
  | .vulkan => .string "vulkan"

def OsInfoView.encode (v : OsInfoView) : Json := .object
  [("family", .string v.family),
    ("version", .string v.version),
    ("kernel", .string v.kernel),
    ("arch", .string v.arch),
    ("device_name", .string v.deviceName)]

def CpuMemInfoView.encode (v : CpuMemInfoView) : Json := .object
  [("cpu_model", .string v.cpuModel),
    ("cpu_cores", .ofU32 v.cpuCores),
    ("cpu_threads", .ofU32 v.cpuThreads),
    ("ram_total_bytes", .ofU64 v.ramTotalBytes),
    ("ram_free_bytes", .ofU64 v.ramFreeBytes)]

def NetworkInfoView.encode (v : NetworkInfoView) : Json := .object
  [("public_ip_v4", .string v.publicIpV4),
    ("public_ip_v6", .string v.publicIpV6),
    ("local_ips", .ofStrings v.localIps),
    ("primary_iface", .string v.primaryIface),
    ("link_speed_mbps", .ofU32 v.linkSpeedMbps),
    ("wg_ip", .string v.wgIp),
    ("wg_pubkey_sha", .string v.wgPubkeySha),
    ("wg_listen_port", .ofU32 v.wgListenPort),
    ("rtt_to_gateway_ms", .ofU32 v.rttToGatewayMs)]

def GpuCapabilityProfileView.encode (v : GpuCapabilityProfileView) : Json := .object
  [("architecture", .string v.architecture),
    ("compute_cap_major", .ofU32 v.computeCapMajor),
    ("compute_cap_minor", .ofU32 v.computeCapMinor),
    ("vram_bytes", .ofU64 v.vramBytes),
    ("mem_bandwidth_gbs", .ofF32 v.memBandwidthGbs),
    ("supports_fp16", .bool v.supportsFp16),
    ("supports_bf16", .bool v.supportsBf16),
    ("supports_fp8", .bool v.supportsFp8),
    ("supports_fp4", .bool v.supportsFp4),
    ("supports_int8_tc", .bool v.supportsInt8Tc),
    ("backend", v.backend.encode),
    ("unified_memory", .bool v.unifiedMemory)]

def GpuInfoView.encode (v : GpuInfoView) : Json := .object <|
  [("index", .ofU32 v.index),
    ("uuid", .string v.uuid),
    ("name", .string v.name),
    ("architecture", .string v.architecture),
    ("backend", v.backend.encode),
    ("compute_cap_major", .ofU32 v.computeCapMajor),
    ("compute_cap_minor", .ofU32 v.computeCapMinor),
    ("vram_total_bytes", .ofU64 v.vramTotalBytes),
    ("vram_free_bytes", .ofU64 v.vramFreeBytes),
    ("unified_memory", .bool v.unifiedMemory),
    ("gpu_core_count", .ofU32 v.gpuCoreCount),
    ("metal_family", .string v.metalFamily),
    ("driver_version", .string v.driverVersion),
    ("cuda_version", .string v.cudaVersion),
    ("vbios_version", .string v.vbiosVersion),
    ("power_limit_w", .ofU32 v.powerLimitW),
    ("nvlink_present", .bool v.nvlinkPresent)] ++
  Json.unlessNone "capability" GpuCapabilityProfileView.encode v.capability

def NodeInfoView.encode (v : NodeInfoView) : Json := .object <|
  [("node_id", .string v.nodeId),
    ("hostname", .string v.hostname),
    ("display_name", .string v.displayName),
    ("hw_fingerprint", .string v.hwFingerprint),
    ("agent_version", .string v.agentVersion),
    ("tags", .ofStrings v.tags)] ++
  Json.unlessNone "status" NodeStatusView.encode v.status ++
  Json.unlessNone "os" OsInfoView.encode v.os ++
  Json.unlessNone "cpu_mem" CpuMemInfoView.encode v.cpuMem ++
  Json.unlessNone "network" NetworkInfoView.encode v.network ++
  [("gpus", .array (v.gpus.map GpuInfoView.encode))] ++
  Json.unlessNone "inference_endpoint" Json.string v.inferenceEndpoint ++
  Json.unlessNone "control_endpoint" Json.string v.controlEndpoint ++
  Json.unlessNone "current_model" Json.string v.currentModel

/-! ## Round trips -/

theorem NodeStatusView.decode_encode (v : NodeStatusView) :
    NodeStatusView.decode v.encode = some v := by
  cases v <;> rfl

theorem BackendView.decode_encode (v : BackendView) : BackendView.decode v.encode = some v := by
  cases v <;> rfl

theorem OsInfoView.decode_encode (v : OsInfoView) : OsInfoView.decode v.encode = some v := by
  simp [OsInfoView.decode, OsInfoView.encode]

theorem CpuMemInfoView.decode_encode (v : CpuMemInfoView) :
    CpuMemInfoView.decode v.encode = some v := by
  simp [CpuMemInfoView.decode, CpuMemInfoView.encode]

theorem NetworkInfoView.decode_encode (v : NetworkInfoView) :
    NetworkInfoView.decode v.encode = some v := by
  simp [NetworkInfoView.decode, NetworkInfoView.encode]

theorem GpuCapabilityProfileView.decode_encode (v : GpuCapabilityProfileView)
    (hfinite : v.memBandwidthGbs.isFinite) :
    GpuCapabilityProfileView.decode v.encode = some v := by
  change (do
    let computeCapMajor ← Decoder.u32 (.ofU32 v.computeCapMajor)
    let computeCapMinor ← Decoder.u32 (.ofU32 v.computeCapMinor)
    let memBandwidthGbs ← Decoder.f32 (.ofF32 v.memBandwidthGbs)
    let backend ← BackendView.decode v.backend.encode
    some (GpuCapabilityProfileView.mk v.architecture computeCapMajor computeCapMinor v.vramBytes
      memBandwidthGbs v.supportsFp16 v.supportsBf16 v.supportsFp8 v.supportsFp4 v.supportsInt8Tc
      backend v.unifiedMemory)) = _
  rw [Decoder.f32_ofF32 _ hfinite]
  simp only [Decoder.u32_ofU32, BackendView.decode_encode]
  rfl

/-- The bandwidth figure of a GPU's capability profile is a number JSON can express. -/
def GpuInfoView.FiniteFloats (v : GpuInfoView) : Prop :=
  ∀ capability ∈ v.capability, capability.memBandwidthGbs.isFinite

theorem GpuInfoView.decode_encode (v : GpuInfoView) (hfinite : v.FiniteFloats) :
    GpuInfoView.decode v.encode = some v := by
  have hcapability := Decoder.orDefault_map GpuCapabilityProfileView.decode
    GpuCapabilityProfileView.encode v.capability
    (fun _ => by simp [GpuCapabilityProfileView.encode])
    fun capability hmem => GpuCapabilityProfileView.decode_encode capability (hfinite _ hmem)
  rw [← Json.lookup_unlessNone_self "capability"] at hcapability
  change (do
    let index ← Decoder.u32 (.ofU32 v.index)
    let backend ← BackendView.decode v.backend.encode
    let computeCapMajor ← Decoder.u32 (.ofU32 v.computeCapMajor)
    let computeCapMinor ← Decoder.u32 (.ofU32 v.computeCapMinor)
    let gpuCoreCount ← Decoder.u32 (.ofU32 v.gpuCoreCount)
    let powerLimitW ← Decoder.u32 (.ofU32 v.powerLimitW)
    let capability ← Decoder.orDefault none (Decoder.option GpuCapabilityProfileView.decode)
      ((Json.unlessNone "capability" GpuCapabilityProfileView.encode v.capability).lookup
        "capability")
    some (GpuInfoView.mk index v.uuid v.name v.architecture backend computeCapMajor
      computeCapMinor v.vramTotalBytes v.vramFreeBytes v.unifiedMemory gpuCoreCount v.metalFamily
      v.driverVersion v.cudaVersion v.vbiosVersion powerLimitW v.nvlinkPresent capability)) = _
  rw [hcapability]
  simp only [Decoder.u32_ofU32, BackendView.decode_encode]
  rfl

def NodeInfoView.FiniteFloats (v : NodeInfoView) : Prop :=
  ∀ gpu ∈ v.gpus, gpu.FiniteFloats

/-- What the serializer leaves under the keys that come after an optional one. -/
theorem NodeInfoView.get?_encode (v : NodeInfoView) :
    v.encode.get? "status" = v.status.map NodeStatusView.encode ∧
    v.encode.get? "os" = v.os.map OsInfoView.encode ∧
    v.encode.get? "cpu_mem" = v.cpuMem.map CpuMemInfoView.encode ∧
    v.encode.get? "network" = v.network.map NetworkInfoView.encode ∧
    v.encode.get? "gpus" = some (.array (v.gpus.map GpuInfoView.encode)) ∧
    v.encode.get? "inference_endpoint" = v.inferenceEndpoint.map Json.string ∧
    v.encode.get? "control_endpoint" = v.controlEndpoint.map Json.string ∧
    v.encode.get? "current_model" = v.currentModel.map Json.string := by
  simp only [NodeInfoView.encode, Json.get?, List.lookup_append]
  refine ⟨?_, ?_, ?_, ?_, ?_, ?_, ?_, ?_⟩ <;> simp

theorem NodeInfoView.decode_encode (v : NodeInfoView) (hfinite : v.FiniteFloats) :
    NodeInfoView.decode v.encode = some v := by
  have hstatus := Decoder.orDefault_map NodeStatusView.decode NodeStatusView.encode v.status
    (fun status => by cases status <;> simp [NodeStatusView.encode])
    fun status _ => NodeStatusView.decode_encode status
  have hos := Decoder.orDefault_map OsInfoView.decode OsInfoView.encode v.os
    (fun _ => by simp [OsInfoView.encode]) fun os _ => OsInfoView.decode_encode os
  have hcpu := Decoder.orDefault_map CpuMemInfoView.decode CpuMemInfoView.encode v.cpuMem
    (fun _ => by simp [CpuMemInfoView.encode]) fun cm _ => CpuMemInfoView.decode_encode cm
  have hnetwork := Decoder.orDefault_map NetworkInfoView.decode NetworkInfoView.encode v.network
    (fun _ => by simp [NetworkInfoView.encode]) fun n _ => NetworkInfoView.decode_encode n
  have hgpus := Decoder.seq_map GpuInfoView.decode GpuInfoView.encode id v.gpus
    fun gpu hmem => GpuInfoView.decode_encode gpu (hfinite gpu hmem)
  rw [List.map_id] at hgpus
  have hfields : Decoder.fieldsOf 14 v.encode = some fun name _ => v.encode.get? name := rfl
  obtain ⟨hst, hosKey, hcpuKey, hnet, hgpusKey, hinference, hcontrol, hmodel⟩ := v.get?_encode
  rw [NodeInfoView.decode, hfields, Option.bind_eq_bind, Option.bind_some]
  beta_reduce
  rw [hst, hosKey, hcpuKey, hnet, hgpusKey, Decoder.orDefault_string hinference,
    Decoder.orDefault_string hcontrol, Decoder.orDefault_string hmodel, hstatus, hos, hcpu,
    hnetwork, Decoder.orDefault_some, hgpus]
  change (do
    let tags ← Decoder.seq Decoder.string (.ofStrings v.tags)
    some { v with tags }) = _
  rw [Decoder.seq_ofStrings]
  rfl

/-! ## The two encoders -/

/-- What the inventory encoder writes decodes to the view of the message. -/
theorem NodeInfoView.decode_toJson (info : NodeInfo) (hfinite : FiniteBandwidth info) :
    NodeInfoView.decode (toJson info) = some (.ofPb info) := by
  rw [NodeInfoView.decode_of_holds (fun _ _ => rfl) rfl rfl rfl, decode_gpus info hfinite]
  rfl

/-- The hand-written and the derived encoder speak one language: each decodes
to the view it was written for, the sidecars included. -/
theorem NodeInfoView.encoders_agree :
    (∀ info, FiniteBandwidth info → NodeInfoView.decode (toJson info) = some (.ofPb info)) ∧
    ∀ v : NodeInfoView, v.FiniteFloats → NodeInfoView.decode v.encode = some v :=
  ⟨NodeInfoView.decode_toJson, NodeInfoView.decode_encode⟩

/-- A bandwidth of 100 GB/s. -/
def profiledGpu : GpuInfo where
  name := "gpu"
  capability := some { memBandwidthGbs := .ofBits 0x42C80000 }

def profiledNode : NodeInfo where
  nodeId := "n"
  gpus := [profiledGpu]

theorem profiledNode_finite : FiniteBandwidth profiledNode := by
  intro gpu hgpu capability hcapability
  cases List.mem_singleton.mp hgpu
  cases hcapability
  decide

/-- A profile whose bandwidth is finite, and one sidecar out of three. -/
theorem NodeInfoView.encoders_agree_profiledNode :
    NodeInfoView.decode (toJson profiledNode) = some (.ofPb profiledNode) ∧
    NodeInfoView.decode
        { NodeInfoView.ofPb profiledNode with currentModel := some "m" }.encode =
      some { NodeInfoView.ofPb profiledNode with currentModel := some "m" } := by
  refine ⟨encoders_agree.1 _ profiledNode_finite, encoders_agree.2 _ ?_⟩
  intro gpu hgpu capability hcapability
  cases List.mem_singleton.mp hgpu
  cases hcapability
  decide

end GpuCluster.Common
