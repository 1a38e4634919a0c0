import GpuCluster.Common.RoundTrip
import GpuCluster.Foundation.JsonEdits

/-! # Inventories of other versions

A worker of another version may leave out any key of an inventory and write
keys this version does not know, at any depth. `keep` is the view such a
document stands for: of every field whose key is still there the value it had,
of every other one the default.
-/

namespace GpuCluster.Common

open Foundation Proto Sysinfo

/-! ## The keys the decoders know -/

/-- Keys whose values are taken as a whole. -/
def leaves (keys : List String) : List (String × Json.Shape) := keys.map fun key => (key, .value)

def OsInfoView.known : List (String × Json.Shape) :=
  leaves ["family", "version", "kernel", "arch", "device_name"]

def CpuMemInfoView.known : List (String × Json.Shape) :=
  leaves ["cpu_model", "cpu_cores", "cpu_threads", "ram_total_bytes", "ram_free_bytes"]

def NetworkInfoView.known : List (String × Json.Shape) :=
  leaves ["public_ip_v4", "public_ip_v6", "local_ips", "primary_iface", "link_speed_mbps",
    "wg_ip", "wg_pubkey_sha", "wg_listen_port", "rtt_to_gateway_ms"]

def GpuCapabilityProfileView.known : List (String × Json.Shape) :=
  leaves ["architecture", "compute_cap_major", "compute_cap_minor", "vram_bytes",
    "mem_bandwidth_gbs", "supports_fp16", "supports_bf16", "supports_fp8", "supports_fp4",
    "supports_int8_tc", "backend", "unified_memory"]

def GpuInfoView.known : List (String × Json.Shape) :=
  leaves ["index", "uuid", "name", "architecture", "backend", "compute_cap_major",
    "compute_cap_minor", "vram_total_bytes", "vram_free_bytes", "unified_memory",
    "gpu_core_count", "metal_family", "driver_version", "cuda_version", "vbios_version",
    "power_limit_w", "nvlink_present"] ++
  [("capability", .record GpuCapabilityProfileView.known)]

def NodeInfoView.known : List (String × Json.Shape) :=
  leaves ["node_id", "hostname", "display_name", "hw_fingerprint", "agent_version", "tags",
    "status"] ++
  [("os", .record OsInfoView.known),
    ("cpu_mem", .record CpuMemInfoView.known),
    ("network", .record NetworkInfoView.known),
    ("gpus", .items (.record GpuInfoView.known))] ++
  leaves ["inference_endpoint", "control_endpoint", "current_model"]

/-! ## What is left of a view -/

def OsInfoView.keep (v : OsInfoView) (document : Json) : OsInfoView where
  family := document.keep "family" "" fun _ => v.family
  version := document.keep "version" "" fun _ => v.version
  kernel := document.keep "kernel" "" fun _ => v.kernel
  arch := document.keep "arch" "" fun _ => v.arch
  deviceName := document.keep "device_name" "" fun _ => v.deviceName

def CpuMemInfoView.keep (v : CpuMemInfoView) (document : Json) : CpuMemInfoView where
  cpuModel := document.keep "cpu_model" "" fun _ => v.cpuModel
  cpuCores := document.keep "cpu_cores" 0 fun _ => v.cpuCores
  cpuThreads := document.keep "cpu_threads" 0 fun _ => v.cpuThreads
  ramTotalBytes := document.keep "ram_total_bytes" 0 fun _ => v.ramTotalBytes
  ramFreeBytes := document.keep "ram_free_bytes" 0 fun _ => v.ramFreeBytes

def NetworkInfoView.keep (v : NetworkInfoView) (document : Json) : NetworkInfoView where
  publicIpV4 := document.keep "public_ip_v4" "" fun _ => v.publicIpV4
  publicIpV6 := document.keep "public_ip_v6" "" fun _ => v.publicIpV6
  localIps := document.keep "local_ips" [] fun _ => v.localIps
  primaryIface := document.keep "primary_iface" "" fun _ => v.primaryIface
  linkSpeedMbps := document.keep "link_speed_mbps" 0 fun _ => v.linkSpeedMbps
  wgIp := document.keep "wg_ip" "" fun _ => v.wgIp
  wgPubkeySha := document.keep "wg_pubkey_sha" "" fun _ => v.wgPubkeySha
  wgListenPort := document.keep "wg_listen_port" 0 fun _ => v.wgListenPort
  rttToGatewayMs := document.keep "rtt_to_gateway_ms" 0 fun _ => v.rttToGatewayMs

def GpuCapabilityProfileView.keep (v : GpuCapabilityProfileView) (document : Json) :
    GpuCapabilityProfileView where
  architecture := document.keep "architecture" "" fun _ => v.architecture
  computeCapMajor := document.keep "compute_cap_major" 0 fun _ => v.computeCapMajor
  computeCapMinor := document.keep "compute_cap_minor" 0 fun _ => v.computeCapMinor
  vramBytes := document.keep "vram_bytes" 0 fun _ => v.vramBytes
  memBandwidthGbs := document.keep "mem_bandwidth_gbs" (.ofBits 0) fun _ => v.memBandwidthGbs
  supportsFp16 := document.keep "supports_fp16" false fun _ => v.supportsFp16
  supportsBf16 := document.keep "supports_bf16" false fun _ => v.supportsBf16
  supportsFp8 := document.keep "supports_fp8" false fun _ => v.supportsFp8
  supportsFp4 := document.keep "supports_fp4" false fun _ => v.supportsFp4
  supportsInt8Tc := document.keep "supports_int8_tc" false fun _ => v.supportsInt8Tc
  backend := document.keep "backend" .unspecified fun _ => v.backend
  unifiedMemory := document.keep "unified_memory" false fun _ => v.unifiedMemory

def GpuInfoView.keep (v : GpuInfoView) (document : Json) : GpuInfoView where
  index := document.keep "index" 0 fun _ => v.index
  uuid := document.keep "uuid" "" fun _ => v.uuid
  name := document.keep "name" "" fun _ => v.name
  architecture := document.keep "architecture" "" fun _ => v.architecture
  backend := document.keep "backend" .unspecified fun _ => v.backend
  computeCapMajor := document.keep "compute_cap_major" 0 fun _ => v.computeCapMajor
  computeCapMinor := document.keep "compute_cap_minor" 0 fun _ => v.computeCapMinor
  vramTotalBytes := document.keep "vram_total_bytes" 0 fun _ => v.vramTotalBytes
  vramFreeBytes := document.keep "vram_free_bytes" 0 fun _ => v.vramFreeBytes
  unifiedMemory := document.keep "unified_memory" false fun _ => v.unifiedMemory
  gpuCoreCount := document.keep "gpu_core_count" 0 fun _ => v.gpuCoreCount
  metalFamily := document.keep "metal_family" "" fun _ => v.metalFamily
  driverVersion := document.keep "driver_version" "" fun _ => v.driverVersion
  cudaVersion := document.keep "cuda_version" "" fun _ => v.cudaVersion
  vbiosVersion := document.keep "vbios_version" "" fun _ => v.vbiosVersion
  powerLimitW := document.keep "power_limit_w" 0 fun _ => v.powerLimitW
  nvlinkPresent := document.keep "nvlink_present" false fun _ => v.nvlinkPresent
  capability := document.keep "capability" none fun found => v.capability.map (·.keep found)

/-- The sidecars are not part of an inventory, so none is left. -/
def NodeInfoView.keep (v : NodeInfoView) (document : Json) : NodeInfoView where
  nodeId := document.keep "node_id" "" fun _ => v.nodeId
  hostname := document.keep "hostname" "" fun _ => v.hostname
  displayName := document.keep "display_name" "" fun _ => v.displayName
  hwFingerprint := document.keep "hw_fingerprint" "" fun _ => v.hwFingerprint
  agentVersion := document.keep "agent_version" "" fun _ => v.agentVersion
  tags := document.keep "tags" [] fun _ => v.tags
  status := document.keep "status" none fun _ => v.status
  os := document.keep "os" none fun found => v.os.map (·.keep found)
  cpuMem := document.keep "cpu_mem" none fun found => v.cpuMem.map (·.keep found)
  network := document.keep "network" none fun found => v.network.map (·.keep found)
  gpus := document.keep "gpus" [] fun found => found.keepItems GpuInfoView.keep v.gpus
  inferenceEndpoint := none
  controlEndpoint := none
  currentModel := none

/-! ## Decoding edited records -/

open Decoder

variable {document : Json}

theorem OsInfoView.decode_edited (os : OsInfo)
    (hedits : Json.Edits (.record OsInfoView.known) (osJson os) document) :
    OsInfoView.decode document = some ((OsInfoView.ofPb os).keep document) := by
  rw [OsInfoView.decode, hedits.fieldsOf_eq 5, Option.bind_eq_bind, Option.bind_some]
  beta_reduce
  rw [hedits.leaf rfl rfl (string_string os.family),
    hedits.leaf rfl rfl (string_string os.version),
    hedits.leaf rfl rfl (string_string os.kernel),
    hedits.leaf rfl rfl (string_string os.arch),
    hedits.leaf rfl rfl (string_string os.deviceName)]
  rfl

theorem CpuMemInfoView.decode_edited (cm : CpuMemInfo)
    (hedits : Json.Edits (.record CpuMemInfoView.known) (cpuMemJson cm) document) :
    CpuMemInfoView.decode document = some ((CpuMemInfoView.ofPb cm).keep document) := by
  rw [CpuMemInfoView.decode, hedits.fieldsOf_eq 5, Option.bind_eq_bind, Option.bind_some]
  beta_reduce
  rw [hedits.leaf rfl rfl (string_string cm.cpuModel),
    hedits.leaf rfl rfl (u32_ofU32 cm.cpuCores),
    hedits.leaf rfl rfl (u32_ofU32 cm.cpuThreads),
    hedits.leaf rfl rfl (u64_ofU64 cm.ramTotalBytes),
    hedits.leaf rfl rfl (u64_ofU64 cm.ramFreeBytes)]
  rfl

theorem NetworkInfoView.decode_edited (n : NetworkInfo)
    (hedits : Json.Edits (.record NetworkInfoView.known) (netJson n) document) :
    NetworkInfoView.decode document = some ((NetworkInfoView.ofPb n).keep document) := by
  rw [NetworkInfoView.decode, hedits.fieldsOf_eq 9, Option.bind_eq_bind, Option.bind_some]
  beta_reduce
  rw [hedits.leaf rfl rfl (string_string n.publicIpV4),
    hedits.leaf rfl rfl (string_string n.publicIpV6),
    hedits.leaf rfl rfl (seq_ofStrings n.localIps),
    hedits.leaf rfl rfl (string_string n.primaryIface),
    hedits.leaf rfl rfl (u32_ofU32 n.linkSpeedMbps),
    hedits.leaf rfl rfl (string_string n.wgIp),
    hedits.leaf rfl rfl (string_string n.wgPubkeySha),
    hedits.leaf rfl rfl (u32_ofU32 n.wgListenPort),
    hedits.leaf rfl rfl (u32_ofU32 n.rttToGatewayMs)]
  rfl

/-- A deleted bandwidth is zero; one that is still there has to be finite. -/
theorem GpuCapabilityProfileView.decode_edited (c : GpuCapabilityProfile)
    (hfinite : c.memBandwidthGbs.isFinite)
    (hedits : Json.Edits (.record GpuCapabilityProfileView.known) (capJson c) document) :
    GpuCapabilityProfileView.decode document =
      some ((GpuCapabilityProfileView.ofPb c).keep document) := by
  rw [GpuCapabilityProfileView.decode, hedits.fieldsOf_eq 12, Option.bind_eq_bind,
    Option.bind_some]
  beta_reduce
  rw [hedits.leaf rfl rfl (string_string c.architecture),
    hedits.leaf rfl rfl (u32_ofU32 c.computeCapMajor),
    hedits.leaf rfl rfl (u32_ofU32 c.computeCapMinor),
    hedits.leaf rfl rfl (u64_ofU64 c.vramBytes),
    hedits.leaf rfl rfl (f32_ofF32 c.memBandwidthGbs hfinite),
    hedits.leaf rfl rfl (bool_bool c.supportsFp16),
    hedits.leaf rfl rfl (bool_bool c.supportsBf16),
    hedits.leaf rfl rfl (bool_bool c.supportsFp8),
    hedits.leaf rfl rfl (bool_bool c.supportsFp4),
    hedits.leaf rfl rfl (bool_bool c.supportsInt8Tc),
    hedits.leaf rfl rfl (BackendView.decode_label c.backend),
    hedits.leaf rfl rfl (bool_bool c.unifiedMemory)]
  rfl

theorem GpuInfoView.decode_edited (g : GpuInfo)
    (hfinite : ∀ capability ∈ g.capability, capability.memBandwidthGbs.isFinite)
    (hedits : Json.Edits (.record GpuInfoView.known) (gpuJson g) document) :
    GpuInfoView.decode document = some ((GpuInfoView.ofPb g).keep document) := by
  have hcapability := hedits.field "capability" rfl rfl
    (fun new hnew => hnew.option (fun c => ⟨_, rfl⟩) fun c hc profile hprofile =>
      GpuCapabilityProfileView.decode_edited c (hfinite c hc) hprofile) none
  rw [GpuInfoView.decode, hedits.fieldsOf_eq 18, Option.bind_eq_bind, Option.bind_some]
  beta_reduce
  rw [hedits.leaf rfl rfl (u32_ofU32 g.index),
    hedits.leaf rfl rfl (string_string g.uuid),
    hedits.leaf rfl rfl (string_string g.name),
    hedits.leaf rfl rfl (string_string g.architecture),
    hedits.leaf rfl rfl (BackendView.decode_label g.backend),
    hedits.leaf rfl rfl (u32_ofU32 g.computeCapMajor),
    hedits.leaf rfl rfl (u32_ofU32 g.computeCapMinor),
    hedits.leaf rfl rfl (u64_ofU64 g.vramTotalBytes),
    hedits.leaf rfl rfl (u64_ofU64 g.vramFreeBytes),
    hedits.leaf rfl rfl (bool_bool g.unifiedMemory),
    hedits.leaf rfl rfl (u32_ofU32 g.gpuCoreCount),
    hedits.leaf rfl rfl (string_string g.metalFamily),
    hedits.leaf rfl rfl (string_string g.driverVersion),
    hedits.leaf rfl rfl (string_string g.cudaVersion),
    hedits.leaf rfl rfl (string_string g.vbiosVersion),
    hedits.leaf rfl rfl (u32_ofU32 g.powerLimitW),
    hedits.leaf rfl rfl (bool_bool g.nvlinkPresent),
    hcapability]
  simp only [Option.pure_def, GpuInfoView.keep, GpuInfoView.ofPb,
    Option.map_map]
  rfl

/-- Whatever keys a worker of another version leaves out or adds, its inventory
decodes, and to what is left of the view. -/
theorem NodeInfoView.decode_edited (info : NodeInfo) (hfinite : FiniteBandwidth info)
    (hedits : Json.Edits (.record NodeInfoView.known) (toJson info) document) :
    NodeInfoView.decode document = some ((NodeInfoView.ofPb info).keep document) := by
  have hstatus : option NodeStatusView.decode (.string (statusLabel info.status)) =
      some (some (.ofPb (.ofI32 info.status))) := by
    simp only [option, NodeStatusView.decode_label, Option.map_some]
  have hos := hedits.field "os" rfl rfl
    (fun new hnew => hnew.option (fun os => ⟨_, rfl⟩) fun os _ document hdocument =>
      OsInfoView.decode_edited os hdocument) none
  have hcpu := hedits.field "cpu_mem" rfl rfl
    (fun new hnew => hnew.option (fun cm => ⟨_, rfl⟩) fun cm _ document hdocument =>
      CpuMemInfoView.decode_edited cm hdocument) none
  have hnetwork := hedits.field "network" rfl rfl
    (fun new hnew => hnew.option (fun n => ⟨_, rfl⟩) fun n _ document hdocument =>
      NetworkInfoView.decode_edited n hdocument) none
  have hgpus := hedits.field "gpus" rfl rfl
    (fun new hnew => hnew.seq info.gpus fun g hg document hdocument =>
      GpuInfoView.decode_edited g (hfinite g hg) hdocument) []
  rw [NodeInfoView.decode, hedits.fieldsOf_eq 14, Option.bind_eq_bind, Option.bind_some]
  beta_reduce
  rw [hedits.leaf rfl rfl (string_string info.nodeId),
    hedits.leaf rfl rfl (string_string info.hostname),
    hedits.leaf rfl rfl (string_string info.displayName),
    hedits.leaf rfl rfl (string_string info.hwFingerprint),
    hedits.leaf rfl rfl (string_string info.agentVersion),
    hedits.leaf rfl rfl (seq_ofStrings info.tags),
    hedits.leaf rfl rfl hstatus,
    hos, hcpu, hnetwork, hgpus,
    hedits.missing rfl rfl, hedits.missing rfl rfl, hedits.missing rfl rfl]
  simp only [Option.pure_def, NodeInfoView.keep, NodeInfoView.ofPb, Option.map_map]
  rfl

/-- A status that was left out is read as `Online`. -/
theorem NodeInfoView.toPb_keep_status (v : NodeInfoView)
    (hgone : document.get? "status" = none) :
    (v.keep document).toPb.status = NodeStatus.online.toI32 := by
  simp only [NodeInfoView.keep, Json.keep, hgone]
  rfl

end GpuCluster.Common
