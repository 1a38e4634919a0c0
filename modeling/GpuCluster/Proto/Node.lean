import Mathlib.Data.Nat.Notation

/-! # The node messages of `node.proto`

Generated message types, with proto3's scalar types and defaults. Enum fields
are stored as raw 32-bit integers; `ofI32` is the checked conversion of the
generated enum.
-/

namespace GpuCluster.Proto

inductive NodeStatus
  | unspecified | pendingApproval | online | degraded | draining | offline | quarantined | revoked
  deriving DecidableEq

namespace NodeStatus

/-- The cast `status as i32`. -/
def toI32 : NodeStatus → Int32
  | .unspecified => 0
  | .pendingApproval => 1
  | .online => 2
  | .degraded => 3
  | .draining => 4
  | .offline => 5
  | .quarantined => 6
  | .revoked => 7

/-- `NodeStatus::try_from(raw).unwrap_or(Unspecified)`, as every reader of a
raw status does. -/
def ofI32 (raw : Int32) : NodeStatus :=
  if raw = 1 then .pendingApproval
  else if raw = 2 then .online
  else if raw = 3 then .degraded
  else if raw = 4 then .draining
  else if raw = 5 then .offline
  else if raw = 6 then .quarantined
  else if raw = 7 then .revoked
  else .unspecified

@[simp] theorem ofI32_toI32 (status : NodeStatus) : ofI32 status.toI32 = status := by
  cases status <;> rfl

end NodeStatus

inductive GpuBackend
  | unspecified | cuda | metal | rocm | vulkan
  deriving DecidableEq

namespace GpuBackend

def toI32 : GpuBackend → Int32
  | .unspecified => 0
  | .cuda => 1
  | .metal => 2
  | .rocm => 3
  | .vulkan => 4

/-- `GpuBackend::try_from(raw)`, which refuses integers that name no variant. -/
def tryFrom (raw : Int32) : Option GpuBackend :=
  if raw = 0 then some .unspecified
  else if raw = 1 then some .cuda
  else if raw = 2 then some .metal
  else if raw = 3 then some .rocm
  else if raw = 4 then some .vulkan
  else none

/-- `GpuBackend::try_from(raw).unwrap_or(Unspecified)`. -/
def ofI32 (raw : Int32) : GpuBackend := (tryFrom raw).getD .unspecified

@[simp] theorem ofI32_toI32 (backend : GpuBackend) : ofI32 backend.toI32 = backend := by
  cases backend <;> rfl

end GpuBackend

structure OsInfo where
  family : String := ""
  version : String := ""
  kernel : String := ""
  arch : String := ""
  deviceName : String := ""
  deriving DecidableEq

structure BenchScore where
  forwardPassTps : Float32
  flopsFp16Tflops : Float32
  flopsBf16Tflops : Float32
  measuredAt : Int64
  deriving DecidableEq

structure GpuCapabilityProfile where
  architecture : String := ""
  computeCapMajor : UInt32 := 0
  computeCapMinor : UInt32 := 0
  vramBytes : UInt64 := 0
  memBandwidthGbs : Float32 := .ofBits 0
  supportsFp16 : Bool := false
  supportsBf16 : Bool := false
  supportsFp8 : Bool := false
  supportsFp4 : Bool := false
  supportsInt8Tc : Bool := false
  benchmark : Option BenchScore := none
  backend : Int32 := 0
  unifiedMemory : Bool := false
  deriving DecidableEq

structure GpuInfo where
  index : UInt32 := 0
  uuid : String := ""
  name : String := ""
  architecture : String := ""
  computeCapMajor : UInt32 := 0
  computeCapMinor : UInt32 := 0
  vramTotalBytes : UInt64 := 0
  vramFreeBytes : UInt64 := 0
  pciBusId : String := ""
  driverVersion : String := ""
  cudaVersion : String := ""
  vbiosVersion : String := ""
  powerLimitW : UInt32 := 0
  nvlinkPresent : Bool := false
  capability : Option GpuCapabilityProfile := none
  backend : Int32 := 0
  unifiedMemory : Bool := false
  gpuCoreCount : UInt32 := 0
  metalFamily : String := ""
  deriving DecidableEq

structure NetworkInfo where
  publicIpV4 : String := ""
  publicIpV6 : String := ""
  asn : String := ""
  isp : String := ""
  countryCode : String := ""
  city : String := ""
  publicIpIsDynamic : Bool := false
  publicIpChangedAt : Int64 := 0
  localIps : List String := []
  primaryIface : String := ""
  linkSpeedMbps : UInt32 := 0
  wgIp : String := ""
  wgPubkeySha : String := ""
  wgListenPort : UInt32 := 0
  rttToGatewayMs : UInt32 := 0
  deriving DecidableEq

structure CpuMemInfo where
  cpuModel : String := ""
  cpuCores : UInt32 := 0
  cpuThreads : UInt32 := 0
  ramTotalBytes : UInt64 := 0
  ramFreeBytes : UInt64 := 0
  deriving DecidableEq

structure GeoInfo where
  countryCode : String
  region : String
  city : String
  latitude : Float
  longitude : Float
  deriving DecidableEq

structure NodeInfo where
  nodeId : String := ""
  hostname : String := ""
  displayName : String := ""
  hwFingerprint : String := ""
  ownerUserId : String := ""
  tags : List String := []
  os : Option OsInfo := none
  gpus : List GpuInfo := []
  network : Option NetworkInfo := none
  cpuMem : Option CpuMemInfo := none
  geo : Option GeoInfo := none
  status : Int32 := 0
  firstSeen : Int64 := 0
  lastHeartbeat : Int64 := 0
  agentVersion : String := ""
  clientCertSha : String := ""
  deriving DecidableEq

end GpuCluster.Proto
