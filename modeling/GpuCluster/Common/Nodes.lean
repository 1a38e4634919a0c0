import GpuCluster.Foundation.Json
import GpuCluster.Proto.Node

/-! # The wire view of a node

`NodeInfoView` and its sub-views are what reports are decoded into before they
become protobuf messages. Every field is optional on the wire and has its
type's default. The conversions into messages fill the fields that the view
does not carry with proto3 defaults.
-/

namespace GpuCluster.Common

open Foundation Proto

inductive NodeStatusView
  | unspecified | pendingApproval | online | degraded | draining | offline | quarantined | revoked
  deriving DecidableEq

/-- `rename_all = "snake_case"`. -/
def NodeStatusView.names : List (String × NodeStatusView) :=
  [("unspecified", .unspecified), ("pending_approval", .pendingApproval), ("online", .online),
    ("degraded", .degraded), ("draining", .draining), ("offline", .offline),
    ("quarantined", .quarantined), ("revoked", .revoked)]

inductive BackendView
  | unspecified | cuda | metal | rocm | vulkan
  deriving DecidableEq

/-- `rename_all = "lowercase"`. -/
def BackendView.names : List (String × BackendView) :=
  [("unspecified", .unspecified), ("cuda", .cuda), ("metal", .metal), ("rocm", .rocm),
    ("vulkan", .vulkan)]

structure OsInfoView where
  family : String
  version : String
  kernel : String
  arch : String
  deviceName : String
  deriving DecidableEq

structure CpuMemInfoView where
  cpuModel : String
  cpuCores : UInt32
  cpuThreads : UInt32
  ramTotalBytes : UInt64
  ramFreeBytes : UInt64
  deriving DecidableEq

structure NetworkInfoView where
  publicIpV4 : String
  publicIpV6 : String
  localIps : List String
  primaryIface : String
  linkSpeedMbps : UInt32
  wgIp : String
  wgPubkeySha : String
  wgListenPort : UInt32
  rttToGatewayMs : UInt32
  deriving DecidableEq

structure GpuCapabilityProfileView where
  architecture : String
  computeCapMajor : UInt32
  computeCapMinor : UInt32
  vramBytes : UInt64
  memBandwidthGbs : Float32
  supportsFp16 : Bool
  supportsBf16 : Bool
  supportsFp8 : Bool
  supportsFp4 : Bool
  supportsInt8Tc : Bool
  backend : BackendView
  unifiedMemory : Bool
  deriving DecidableEq

structure GpuInfoView where
  index : UInt32
  uuid : String
  name : String
  architecture : String
  backend : BackendView
  computeCapMajor : UInt32
  computeCapMinor : UInt32
  vramTotalBytes : UInt64
  vramFreeBytes : UInt64
  unifiedMemory : Bool
  gpuCoreCount : UInt32
  metalFamily : String
  driverVersion : String
  cudaVersion : String
  vbiosVersion : String
  powerLimitW : UInt32
  nvlinkPresent : Bool
  capability : Option GpuCapabilityProfileView
  deriving DecidableEq

/-- The last three fields are sidecars of a report; they are not part of the message. -/
structure NodeInfoView where
  nodeId : String
  hostname : String
  displayName : String
  hwFingerprint : String
  agentVersion : String
  tags : List String
  status : Option NodeStatusView
  os : Option OsInfoView
  cpuMem : Option CpuMemInfoView
  network : Option NetworkInfoView
  gpus : List GpuInfoView
  inferenceEndpoint : Option String
  controlEndpoint : Option String
  currentModel : Option String
  deriving DecidableEq

/-! ## Derived decoders -/

section Decoders

open Decoder

def NodeStatusView.decode : Decoder NodeStatusView := unitEnum NodeStatusView.names

def BackendView.decode : Decoder BackendView := unitEnum BackendView.names

def OsInfoView.decode : Decoder OsInfoView := fun document => do
  let field ← fieldsOf 5 document
  let family ← orDefault "" string (field "family" 0)
  let version ← orDefault "" string (field "version" 1)
  let kernel ← orDefault "" string (field "kernel" 2)
  let arch ← orDefault "" string (field "arch" 3)
  let deviceName ← orDefault "" string (field "device_name" 4)
  return { family, version, kernel, arch, deviceName }

def CpuMemInfoView.decode : Decoder CpuMemInfoView := fun document => do
  let field ← fieldsOf 5 document
  let cpuModel ← orDefault "" string (field "cpu_model" 0)
  let cpuCores ← orDefault 0 u32 (field "cpu_cores" 1)
  let cpuThreads ← orDefault 0 u32 (field "cpu_threads" 2)
  let ramTotalBytes ← orDefault 0 u64 (field "ram_total_bytes" 3)
  let ramFreeBytes ← orDefault 0 u64 (field "ram_free_bytes" 4)
  return { cpuModel, cpuCores, cpuThreads, ramTotalBytes, ramFreeBytes }

def NetworkInfoView.decode : Decoder NetworkInfoView := fun document => do
  let field ← fieldsOf 9 document
  let publicIpV4 ← orDefault "" string (field "public_ip_v4" 0)
  let publicIpV6 ← orDefault "" string (field "public_ip_v6" 1)
  let localIps ← orDefault [] (seq string) (field "local_ips" 2)
  let primaryIface ← orDefault "" string (field "primary_iface" 3)
  let linkSpeedMbps ← orDefault 0 u32 (field "link_speed_mbps" 4)
  let wgIp ← orDefault "" string (field "wg_ip" 5)
  let wgPubkeySha ← orDefault "" string (field "wg_pubkey_sha" 6)
  let wgListenPort ← orDefault 0 u32 (field "wg_listen_port" 7)
  let rttToGatewayMs ← orDefault 0 u32 (field "rtt_to_gateway_ms" 8)
  return { publicIpV4, publicIpV6, localIps, primaryIface, linkSpeedMbps, wgIp, wgPubkeySha,
           wgListenPort, rttToGatewayMs }

def GpuCapabilityProfileView.decode : Decoder GpuCapabilityProfileView := fun document => do
  let field ← fieldsOf 12 document
  let architecture ← orDefault "" string (field "architecture" 0)
  let computeCapMajor ← orDefault 0 u32 (field "compute_cap_major" 1)
  let computeCapMinor ← orDefault 0 u32 (field "compute_cap_minor" 2)
  let vramBytes ← orDefault 0 u64 (field "vram_bytes" 3)
  let memBandwidthGbs ← orDefault (.ofBits 0) f32 (field "mem_bandwidth_gbs" 4)
  let supportsFp16 ← orDefault false bool (field "supports_fp16" 5)
  let supportsBf16 ← orDefault false bool (field "supports_bf16" 6)
  let supportsFp8 ← orDefault false bool (field "supports_fp8" 7)
  let supportsFp4 ← orDefault false bool (field "supports_fp4" 8)
  let supportsInt8Tc ← orDefault false bool (field "supports_int8_tc" 9)
  let backend ← orDefault .unspecified BackendView.decode (field "backend" 10)
  let unifiedMemory ← orDefault false bool (field "unified_memory" 11)
  return { architecture, computeCapMajor, computeCapMinor, vramBytes, memBandwidthGbs,
           supportsFp16, supportsBf16, supportsFp8, supportsFp4, supportsInt8Tc, backend,
           unifiedMemory }

def GpuInfoView.decode : Decoder GpuInfoView := fun document => do
  let field ← fieldsOf 18 document
  let index ← orDefault 0 u32 (field "index" 0)
  let uuid ← orDefault "" string (field "uuid" 1)
  let name ← orDefault "" string (field "name" 2)
  let architecture ← orDefault "" string (field "architecture" 3)
  let backend ← orDefault .unspecified BackendView.decode (field "backend" 4)
  let computeCapMajor ← orDefault 0 u32 (field "compute_cap_major" 5)
  let computeCapMinor ← orDefault 0 u32 (field "compute_cap_minor" 6)
  let vramTotalBytes ← orDefault 0 u64 (field "vram_total_bytes" 7)
  let vramFreeBytes ← orDefault 0 u64 (field "vram_free_bytes" 8)
  let unifiedMemory ← orDefault false bool (field "unified_memory" 9)
  let gpuCoreCount ← orDefault 0 u32 (field "gpu_core_count" 10)
  let metalFamily ← orDefault "" string (field "metal_family" 11)
  let driverVersion ← orDefault "" string (field "driver_version" 12)
  let cudaVersion ← orDefault "" string (field "cuda_version" 13)
  let vbiosVersion ← orDefault "" string (field "vbios_version" 14)
  let powerLimitW ← orDefault 0 u32 (field "power_limit_w" 15)
  let nvlinkPresent ← orDefault false bool (field "nvlink_present" 16)
  let capability ← orDefault none (option GpuCapabilityProfileView.decode) (field "capability" 17)
  return { index, uuid, name, architecture, backend, computeCapMajor, computeCapMinor,
           vramTotalBytes, vramFreeBytes, unifiedMemory, gpuCoreCount, metalFamily,
           driverVersion, cudaVersion, vbiosVersion, powerLimitW, nvlinkPresent, capability }

def NodeInfoView.decode : Decoder NodeInfoView := fun document => do
  let field ← fieldsOf 14 document
  let nodeId ← orDefault "" string (field "node_id" 0)
  let hostname ← orDefault "" string (field "hostname" 1)
  let displayName ← orDefault "" string (field "display_name" 2)
  let hwFingerprint ← orDefault "" string (field "hw_fingerprint" 3)
  let agentVersion ← orDefault "" string (field "agent_version" 4)
  let tags ← orDefault [] (seq string) (field "tags" 5)
  let status ← orDefault none (option NodeStatusView.decode) (field "status" 6)
  let os ← orDefault none (option OsInfoView.decode) (field "os" 7)
  let cpuMem ← orDefault none (option CpuMemInfoView.decode) (field "cpu_mem" 8)
  let network ← orDefault none (option NetworkInfoView.decode) (field "network" 9)
  let gpus ← orDefault [] (seq GpuInfoView.decode) (field "gpus" 10)
  let inferenceEndpoint ← orDefault none (option string) (field "inference_endpoint" 11)
  let controlEndpoint ← orDefault none (option string) (field "control_endpoint" 12)
  let currentModel ← orDefault none (option string) (field "current_model" 13)
  return { nodeId, hostname, displayName, hwFingerprint, agentVersion, tags, status, os, cpuMem,
           network, gpus, inferenceEndpoint, controlEndpoint, currentModel }

end Decoders

/-! ## Conversions -/

def NodeStatusView.toPb : NodeStatusView → NodeStatus
  | .unspecified => .unspecified
  | .pendingApproval => .pendingApproval
  | .online => .online
  | .degraded => .degraded
  | .draining => .draining
  | .offline => .offline
  | .quarantined => .quarantined
  | .revoked => .revoked

def NodeStatusView.ofPb : NodeStatus → NodeStatusView
  | .unspecified => .unspecified
  | .pendingApproval => .pendingApproval
  | .online => .online
  | .degraded => .degraded
  | .draining => .draining
  | .offline => .offline
  | .quarantined => .quarantined
  | .revoked => .revoked

def BackendView.toPb : BackendView → GpuBackend
  | .unspecified => .unspecified
  | .cuda => .cuda
  | .metal => .metal
  | .rocm => .rocm
  | .vulkan => .vulkan

def BackendView.ofPb : GpuBackend → BackendView
  | .unspecified => .unspecified
  | .cuda => .cuda
  | .metal => .metal
  | .rocm => .rocm
  | .vulkan => .vulkan

@[simp] theorem NodeStatusView.toPb_ofPb (status : NodeStatus) :
    (NodeStatusView.ofPb status).toPb = status := by
  cases status <;> rfl

@[simp] theorem BackendView.toPb_ofPb (backend : GpuBackend) :
    (BackendView.ofPb backend).toPb = backend := by
  cases backend <;> rfl

def OsInfoView.toPb (v : OsInfoView) : OsInfo where
  family := v.family
  version := v.version
  kernel := v.kernel
  arch := v.arch
  deviceName := v.deviceName

def OsInfoView.ofPb (v : OsInfo) : OsInfoView where
  family := v.family
  version := v.version
  kernel := v.kernel
  arch := v.arch
  deviceName := v.deviceName

def CpuMemInfoView.toPb (v : CpuMemInfoView) : CpuMemInfo where
  cpuModel := v.cpuModel
  cpuCores := v.cpuCores
  cpuThreads := v.cpuThreads
  ramTotalBytes := v.ramTotalBytes
  ramFreeBytes := v.ramFreeBytes

def CpuMemInfoView.ofPb (v : CpuMemInfo) : CpuMemInfoView where
  cpuModel := v.cpuModel
  cpuCores := v.cpuCores
  cpuThreads := v.cpuThreads
  ramTotalBytes := v.ramTotalBytes
  ramFreeBytes := v.ramFreeBytes

def NetworkInfoView.toPb (v : NetworkInfoView) : NetworkInfo where
  publicIpV4 := v.publicIpV4
  publicIpV6 := v.publicIpV6
  asn := ""
  isp := ""
  countryCode := ""
  city := ""
  publicIpIsDynamic := false
  publicIpChangedAt := 0
  localIps := v.localIps
  primaryIface := v.primaryIface
  linkSpeedMbps := v.linkSpeedMbps
  wgIp := v.wgIp
  wgPubkeySha := v.wgPubkeySha
  wgListenPort := v.wgListenPort
  rttToGatewayMs := v.rttToGatewayMs

def NetworkInfoView.ofPb (v : NetworkInfo) : NetworkInfoView where
  publicIpV4 := v.publicIpV4
  publicIpV6 := v.publicIpV6
  localIps := v.localIps
  primaryIface := v.primaryIface
  linkSpeedMbps := v.linkSpeedMbps
  wgIp := v.wgIp
  wgPubkeySha := v.wgPubkeySha
  wgListenPort := v.wgListenPort
  rttToGatewayMs := v.rttToGatewayMs

def GpuCapabilityProfileView.toPb (v : GpuCapabilityProfileView) : GpuCapabilityProfile where
  architecture := v.architecture
  computeCapMajor := v.computeCapMajor
  computeCapMinor := v.computeCapMinor
  vramBytes := v.vramBytes
  memBandwidthGbs := v.memBandwidthGbs
  supportsFp16 := v.supportsFp16
  supportsBf16 := v.supportsBf16
  supportsFp8 := v.supportsFp8
  supportsFp4 := v.supportsFp4
  supportsInt8Tc := v.supportsInt8Tc
  benchmark := none
  backend := v.backend.toPb.toI32
  unifiedMemory := v.unifiedMemory

def GpuCapabilityProfileView.ofPb (v : GpuCapabilityProfile) : GpuCapabilityProfileView where
  architecture := v.architecture
  computeCapMajor := v.computeCapMajor
  computeCapMinor := v.computeCapMinor
  vramBytes := v.vramBytes
  memBandwidthGbs := v.memBandwidthGbs
  supportsFp16 := v.supportsFp16
  supportsBf16 := v.supportsBf16
  supportsFp8 := v.supportsFp8
  supportsFp4 := v.supportsFp4
  supportsInt8Tc := v.supportsInt8Tc
  backend := .ofPb (.ofI32 v.backend)
  unifiedMemory := v.unifiedMemory

def GpuInfoView.toPb (v : GpuInfoView) : GpuInfo where
  index := v.index
  uuid := v.uuid
  name := v.name
  architecture := v.architecture
  computeCapMajor := v.computeCapMajor
  computeCapMinor := v.computeCapMinor
  vramTotalBytes := v.vramTotalBytes
  vramFreeBytes := v.vramFreeBytes
  pciBusId := ""
  driverVersion := v.driverVersion
  cudaVersion := v.cudaVersion
  vbiosVersion := v.vbiosVersion
  powerLimitW := v.powerLimitW
  nvlinkPresent := v.nvlinkPresent
  capability := v.capability.map GpuCapabilityProfileView.toPb
  backend := v.backend.toPb.toI32
  unifiedMemory := v.unifiedMemory
  gpuCoreCount := v.gpuCoreCount
  metalFamily := v.metalFamily

def GpuInfoView.ofPb (v : GpuInfo) : GpuInfoView where
  index := v.index
  uuid := v.uuid
  name := v.name
  architecture := v.architecture
  backend := .ofPb (.ofI32 v.backend)
  computeCapMajor := v.computeCapMajor
  computeCapMinor := v.computeCapMinor
  vramTotalBytes := v.vramTotalBytes
  vramFreeBytes := v.vramFreeBytes
  unifiedMemory := v.unifiedMemory
  gpuCoreCount := v.gpuCoreCount
  metalFamily := v.metalFamily
  driverVersion := v.driverVersion
  cudaVersion := v.cudaVersion
  vbiosVersion := v.vbiosVersion
  powerLimitW := v.powerLimitW
  nvlinkPresent := v.nvlinkPresent
  capability := v.capability.map GpuCapabilityProfileView.ofPb

/-- An absent status is read as `Online`. -/
def NodeInfoView.toPb (v : NodeInfoView) : NodeInfo where
  nodeId := v.nodeId
  hostname := v.hostname
  displayName := v.displayName
  hwFingerprint := v.hwFingerprint
  ownerUserId := ""
  tags := v.tags
  os := v.os.map OsInfoView.toPb
  gpus := v.gpus.map GpuInfoView.toPb
  network := v.network.map NetworkInfoView.toPb
  cpuMem := v.cpuMem.map CpuMemInfoView.toPb
  geo := none
  status := ((v.status.map NodeStatusView.toPb).getD .online).toI32
  firstSeen := 0
  lastHeartbeat := 0
  agentVersion := v.agentVersion
  clientCertSha := ""

/-- The view of a message carries no sidecars. -/
def NodeInfoView.ofPb (v : NodeInfo) : NodeInfoView where
  nodeId := v.nodeId
  hostname := v.hostname
  displayName := v.displayName
  hwFingerprint := v.hwFingerprint
  agentVersion := v.agentVersion
  tags := v.tags
  status := some (.ofPb (.ofI32 v.status))
  os := v.os.map OsInfoView.ofPb
  cpuMem := v.cpuMem.map CpuMemInfoView.ofPb
  network := v.network.map NetworkInfoView.ofPb
  gpus := v.gpus.map GpuInfoView.ofPb
  inferenceEndpoint := none
  controlEndpoint := none
  currentModel := none

end GpuCluster.Common
