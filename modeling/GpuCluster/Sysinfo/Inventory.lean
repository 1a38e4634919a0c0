import GpuCluster.Foundation.Json
import GpuCluster.Proto.Node

/-! # Inventory rendering

The hand-written JSON encoder that the worker uploads and the coordinator
publishes. `toJson` names each field once more, independently of the views.
-/

namespace GpuCluster.Sysinfo

open Foundation Proto

def statusLabel (status : Int32) : String :=
  match NodeStatus.ofI32 status with
  | .unspecified => "unspecified"
  | .pendingApproval => "pending_approval"
  | .online => "online"
  | .degraded => "degraded"
  | .draining => "draining"
  | .offline => "offline"
  | .quarantined => "quarantined"
  | .revoked => "revoked"

def backendLabel (backend : Int32) : String :=
  match GpuBackend.ofI32 backend with
  | .cuda => "cuda"
  | .metal => "metal"
  | .rocm => "rocm"
  | .vulkan => "vulkan"
  | .unspecified => "unspecified"

def osJson (os : OsInfo) : Json := .object
  [("family", .string os.family),
    ("version", .string os.version),
    ("kernel", .string os.kernel),
    ("arch", .string os.arch),
    ("device_name", .string os.deviceName)]

def cpuMemJson (cm : CpuMemInfo) : Json := .object
  [("cpu_model", .string cm.cpuModel),
    ("cpu_cores", .ofU32 cm.cpuCores),
    ("cpu_threads", .ofU32 cm.cpuThreads),
    ("ram_total_bytes", .ofU64 cm.ramTotalBytes),
    ("ram_free_bytes", .ofU64 cm.ramFreeBytes)]

def netJson (n : NetworkInfo) : Json := .object
  [("public_ip_v4", .string n.publicIpV4),
    ("public_ip_v6", .string n.publicIpV6),
    ("local_ips", .ofStrings n.localIps),
    ("primary_iface", .string n.primaryIface),
    ("link_speed_mbps", .ofU32 n.linkSpeedMbps),
    ("wg_ip", .string n.wgIp),
    ("wg_pubkey_sha", .string n.wgPubkeySha),
    ("wg_listen_port", .ofU32 n.wgListenPort),
    ("rtt_to_gateway_ms", .ofU32 n.rttToGatewayMs)]

def capJson (c : GpuCapabilityProfile) : Json := .object
  [("architecture", .string c.architecture),
    ("compute_cap_major", .ofU32 c.computeCapMajor),
    ("compute_cap_minor", .ofU32 c.computeCapMinor),
    ("vram_bytes", .ofU64 c.vramBytes),
    ("mem_bandwidth_gbs", .ofF32 c.memBandwidthGbs),
    ("supports_fp16", .bool c.supportsFp16),
    ("supports_bf16", .bool c.supportsBf16),
    ("supports_fp8", .bool c.supportsFp8),
    ("supports_fp4", .bool c.supportsFp4),
    ("supports_int8_tc", .bool c.supportsInt8Tc),
    ("backend", .string (backendLabel c.backend)),
    ("unified_memory", .bool c.unifiedMemory)]

def gpuJson (g : GpuInfo) : Json := .object
  [("index", .ofU32 g.index),
    ("uuid", .string g.uuid),
    ("name", .string g.name),
    ("architecture", .string g.architecture),
    ("backend", .string (backendLabel g.backend)),
    ("compute_cap_major", .ofU32 g.computeCapMajor),
    ("compute_cap_minor", .ofU32 g.computeCapMinor),
    ("vram_total_bytes", .ofU64 g.vramTotalBytes),
    ("vram_free_bytes", .ofU64 g.vramFreeBytes),
    ("unified_memory", .bool g.unifiedMemory),
    ("gpu_core_count", .ofU32 g.gpuCoreCount),
    ("metal_family", .string g.metalFamily),
    ("driver_version", .string g.driverVersion),
    ("cuda_version", .string g.cudaVersion),
    ("vbios_version", .string g.vbiosVersion),
    ("power_limit_w", .ofU32 g.powerLimitW),
    ("nvlink_present", .bool g.nvlinkPresent),
    ("capability", .ofOption capJson g.capability)]

/-- Wire format of the heartbeat, and of the coordinator's node list. -/
def toJson (info : NodeInfo) : Json := .object
  [("node_id", .string info.nodeId),
    ("hostname", .string info.hostname),
    ("display_name", .string info.displayName),
    ("hw_fingerprint", .string info.hwFingerprint),
    ("agent_version", .string info.agentVersion),
    ("tags", .ofStrings info.tags),
    ("status", .string (statusLabel info.status)),
    ("os", .ofOption osJson info.os),
    ("cpu_mem", .ofOption cpuMemJson info.cpuMem),
    ("network", .ofOption netJson info.network),
    ("gpus", .array (info.gpus.map gpuJson))]

end GpuCluster.Sysinfo
