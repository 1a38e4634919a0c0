import GpuCluster.Foundation.Numerals
import GpuCluster.Sysinfo.Gpu

/-! # What a host finds out about itself

The inventory that `collect` makes of the answers of NVML on Linux and Windows,
of `sysctl` and `system_profiler` on macOS, and of the operating system. None of
them can make it fail: an answer that is missing leaves its default.
-/

namespace GpuCluster.Sysinfo

open Foundation Proto

/-! ## NVIDIA GPUs -/

/-- NVML's answers about one device. -/
structure NvmlDevice where
  /-- Total and free memory. -/
  memoryInfo : Option (UInt64 × UInt64)
  cudaComputeCapability : Option (Int32 × Int32)
  pciBusId : Option String
  uuid : Option String
  name : Option String
  vbiosVersion : Option String
  powerManagementLimit : Option UInt32

structure Nvml where
  deviceCount : Option UInt32
  sysDriverVersion : Option String
  sysCudaDriverVersion : Option Int32
  deviceByIndex : UInt32 → Option NvmlDevice

def classifyArch (major minor : Int32) : String :=
  if major = 12 then "Blackwell"
  else if major = 9 then "Hopper"
  else if major = 8 ∧ minor = 9 then "Ada"
  else if major = 8 then "Ampere"
  else if major = 7 ∧ minor = 5 then "Turing"
  else if major = 7 then "Volta"
  else if major = 6 then "Pascal"
  else "sm_" ++ toString major ++ toString minor

/-- The architecture of a device; without a compute capability there is none. -/
def archOf (cc : Option (Int32 × Int32)) : String :=
  (cc.map fun pair => classifyArch pair.1 pair.2).getD ""

namespace Nvml

def cudaVersion (nvml : Nvml) : String :=
  (nvml.sysCudaDriverVersion.map fun v => toString (v / 1000) ++ "." ++
    toString (v % 1000 / 10)).getD ""

/-- The entry of one device. -/
def gpu (nvml : Nvml) (i : UInt32) (dev : NvmlDevice) : GpuInfo :=
  let cc := dev.cudaComputeCapability
  let total := (dev.memoryInfo.map (·.1)).getD 0
  { index := i
    uuid := dev.uuid.getD ""
    name := dev.name.getD ""
    architecture := archOf cc
    computeCapMajor := (cc.map (·.1.toUInt32)).getD 0
    computeCapMinor := (cc.map (·.2.toUInt32)).getD 0
    vramTotalBytes := total
    vramFreeBytes := (dev.memoryInfo.map (·.2)).getD 0
    pciBusId := dev.pciBusId.getD ""
    driverVersion := nvml.sysDriverVersion.getD ""
    cudaVersion := nvml.cudaVersion
    vbiosVersion := dev.vbiosVersion.getD ""
    powerLimitW := dev.powerManagementLimit.getD 0 / 1000
    nvlinkPresent := false
    capability := some (buildCapability (archOf cc) cc total)
    backend := GpuBackend.cuda.toI32
    unifiedMemory := false
    gpuCoreCount := 0
    metalFamily := "" }

/-- The loop over the devices; one that cannot be opened is skipped. -/
def gpus (nvml : Nvml) : List GpuInfo :=
  (List.range (nvml.deviceCount.getD 0).toNat).filterMap fun i =>
    (nvml.deviceByIndex (.ofNat i)).map (nvml.gpu (.ofNat i))

end Nvml

/-! ## Apple GPUs -/

/-- A display of `system_profiler`'s report. -/
structure SpDisplay where
  name : Option String
  sppciCores : Option String

/-- The answers of a Mac. `sysctl` is the trimmed output for a key, when the command
succeeds; `displays` is the parsed report, when there is one. -/
structure Mac where
  sysctl : String → Option String
  displays : Option (List SpDisplay)

/-- Chip family of a device name; words after the variant do not count. -/
def parseFamily (name : String) : Option AppleFamily := do
  let rest ← stripPrefix? "Apple M" name
  let generation ← (splitWhitespace rest).head?
  let generation ← parseUnsigned 32 generation
  let variant := match (splitWhitespace rest).tail.head? with
    | some "Pro" => .pro
    | some "Max" => .max
    | some "Ultra" => .ultra
    | _ => .base
  return ⟨.ofNat generation, variant⟩

/-- The family a device is listed under; `generic` where the name cannot be read. -/
def familyOf (name : String) : AppleFamily := (parseFamily name).getD ⟨0, .base⟩

namespace AppleFamily

/-- Core count where the report has none. -/
def defaultCores (family : AppleFamily) : UInt32 :=
  match family.generation.toNat, family.variant with
  | 1, .base => 8
  | 1, .pro => 16
  | 1, .max => 32
  | 1, .ultra => 64
  | 2, .base => 10
  | 2, .pro => 19
  | 2, .max => 38
  | 2, .ultra => 76
  | 3, .base => 10
  | 3, .pro => 18
  | 3, .max => 40
  | 3, .ultra => 80
  | 4, .base => 10
  | 4, .pro => 20
  | 4, .max => 40
  | 4, .ultra => 80
  | 5, .base => 10
  | 5, .pro => 20
  | 5, .max => 40
  | 5, .ultra => 80
  | _, _ => 8

def metalFamily (family : AppleFamily) : String :=
  match family.generation.toNat with
  | 1 | 2 => "Metal3"
  | 3 | 4 | 5 => "Metal4"
  | _ => "Metal"

end AppleFamily

namespace Mac

def sysctlU64 (mac : Mac) (key : String) : Option UInt64 :=
  ((mac.sysctl key).bind (parseUnsigned 64)).map .ofNat

def isAppleSilicon (mac : Mac) : Bool := (mac.sysctlU64 "hw.optional.arm64").getD 0 = 1

def totalRam (mac : Mac) : UInt64 := (mac.sysctlU64 "hw.memsize").getD 0

/-- The entry of the display at a position of the report. -/
def gpu (mac : Mac) (i : ℕ) (name : String) (dev : SpDisplay) : GpuInfo :=
  let family := familyOf name
  let chipBrand := (mac.sysctl "machdep.cpu.brand_string").getD ""
  { index := .ofNat i
    uuid := "metal-" ++ .map (fun c => if c = ' ' then '-' else c) chipBrand
    name
    architecture := family.archString
    computeCapMajor := 0
    computeCapMinor := 0
    vramTotalBytes := mac.totalRam
    vramFreeBytes := mac.totalRam
    pciBusId := ""
    driverVersion := (mac.sysctl "kern.osversion").getD ""
    cudaVersion := ""
    vbiosVersion := ""
    powerLimitW := 0
    nvlinkPresent := false
    capability := some (family.capability mac.totalRam)
    backend := GpuBackend.metal.toI32
    unifiedMemory := true
    gpuCoreCount := ((dev.sppciCores.bind (parseUnsigned 32)).map .ofNat).getD family.defaultCores
    metalFamily := family.metalFamily }

/-- The loop over the displays; what is not an Apple GPU is skipped. -/
def gpus (mac : Mac) : List GpuInfo :=
  if mac.isAppleSilicon then
    (mac.displays.getD []).zipIdx.filterMap fun entry =>
      let name := entry.1.name.getD ""
      if (stripPrefix? "Apple M" name).isSome then some (mac.gpu entry.2 name entry.1) else none
  else []

end Mac

/-! ## The inventory -/

/-- Where the GPUs of a platform are looked for. NVML may fail to start. -/
inductive GpuSource
  | nvml (started : Option Nvml)
  | mac (host : Mac)
  | unsupported

/-- `gpu::detect`. -/
def GpuSource.detect : GpuSource → List GpuInfo
  | .nvml started => (started.map Nvml.gpus).getD []
  | .mac host => host.gpus
  | .unsupported => []

/-- The answers of a host. -/
structure HostFacts where
  family : String
  osVersion : Option String
  kernelVersion : Option String
  arch : String
  /-- Output of `scutil` or `hostnamectl`, trimmed, where it is not empty. -/
  deviceLabel : Option String
  hostName : Option String
  hostnameVar : Option String
  computernameVar : Option String
  cpuBrands : List String
  physicalCores : Option UInt32
  totalMemory : UInt64
  availableMemory : UInt64
  /-- The local address of a socket connected to a public one. -/
  localIp : Option String
  /-- The hash of the MAC address, the architecture and the operating system. -/
  hash : UInt64
  gpus : GpuSource
  agentVersion : String

namespace HostFacts

def hostname (facts : HostFacts) : String :=
  ((facts.hostName.or facts.hostnameVar).or facts.computernameVar).getD "unknown-host"

def osInfo (facts : HostFacts) : OsInfo where
  family := facts.family
  version := facts.osVersion.getD ""
  kernel := facts.kernelVersion.getD ""
  arch := facts.arch
  deviceName := facts.deviceLabel.getD facts.hostname

def cpuMem (facts : HostFacts) : CpuMemInfo :=
  let threads : UInt32 := .ofNat facts.cpuBrands.length
  { cpuModel := facts.cpuBrands.head?.getD ""
    cpuCores := facts.physicalCores.getD threads
    cpuThreads := threads
    ramTotalBytes := facts.totalMemory
    ramFreeBytes := facts.availableMemory }

/-- Sixteen hexadecimal digits. -/
def hwFingerprint (facts : HostFacts) : String :=
  let digits := Nat.toDigits 16 facts.hash.toNat
  "hwfp-" ++ .ofList (List.replicate (16 - digits.length) '0' ++ digits)

/-- `collect`. -/
def collect (facts : HostFacts) : NodeInfo where
  hostname := facts.hostname
  hwFingerprint := facts.hwFingerprint
  os := some facts.osInfo
  gpus := facts.gpus.detect
  network := some { localIps := facts.localIp.toList }
  cpuMem := some facts.cpuMem
  status := NodeStatus.online.toI32
  agentVersion := facts.agentVersion

end HostFacts

/-! ## The detected GPUs -/

/-- What decides how a GPU is scheduled. -/
inductive Chip
  | nvidia (computeCapability : Option (Int32 × Int32))
  | apple (family : AppleFamily)
  deriving DecidableEq

/-- The entries of a source, with the chips they stand for. -/
inductive DetectedAs : GpuSource → GpuInfo → Chip → Prop
  | nvidia (nvml : Nvml) (i : UInt32) (dev : NvmlDevice) :
      DetectedAs (.nvml (some nvml)) (nvml.gpu i dev) (.nvidia dev.cudaComputeCapability)
  | apple (host : Mac) (i : ℕ) (name : String) (dev : SpDisplay) :
      DetectedAs (.mac host) (host.gpu i name dev) (.apple (familyOf name))

theorem exists_chip {source : GpuSource} {g : GpuInfo} (hg : g ∈ source.detect) :
    ∃ chip, DetectedAs source g chip := by
  cases source with
  | nvml started =>
      cases started with
      | none => cases hg
      | some nvml =>
          have hmem : g ∈ nvml.gpus := hg
          obtain ⟨i, -, hi⟩ := List.mem_filterMap.mp hmem
          obtain ⟨dev, -, rfl⟩ := Option.map_eq_some_iff.mp hi
          exact ⟨_, .nvidia nvml _ dev⟩
  | mac host =>
      have hmem : g ∈ host.gpus := hg
      unfold Mac.gpus at hmem
      split at hmem
      next =>
        obtain ⟨entry, -, hentry⟩ := List.mem_filterMap.mp hmem
        dsimp only at hentry
        split at hentry
        next =>
          cases hentry
          exact ⟨_, .apple host _ _ _⟩
        next => cases hentry
      next => cases hmem
  | unsupported => cases hg

end GpuCluster.Sysinfo
