import GpuCluster.Proto.Node

/-! # Capability profiles made by the GPU detectors

What the NVML and the Metal detector say a GPU can do, from its compute
capability or its chip family.
-/

namespace GpuCluster.Sysinfo

open Proto

/-- The profile of an NVIDIA GPU from its compute capability, if there is one. The
casts to `u32` wrap. -/
def buildCapability (arch : String) (cc : Option (Int32 × Int32)) (vram : UInt64) :
    GpuCapabilityProfile :=
  let major := (cc.map (·.1.toUInt32)).getD 0
  let minor := (cc.map (·.2.toUInt32)).getD 0
  { architecture := arch
    computeCapMajor := major
    computeCapMinor := minor
    vramBytes := vram
    memBandwidthGbs := 0
    supportsFp16 := major ≥ 6
    supportsBf16 := major ≥ 8
    supportsFp8 := (major = 8 && minor ≥ 9) || major ≥ 9
    supportsFp4 := major ≥ 12
    supportsInt8Tc := major ≥ 7
    benchmark := none
    backend := GpuBackend.cuda.toI32
    unifiedMemory := false }

inductive AppleVariant
  | base | pro | max | ultra
  deriving DecidableEq

def AppleVariant.text : AppleVariant → String
  | .base => ""
  | .pro => "Pro"
  | .max => "Max"
  | .ultra => "Ultra"

/-- Chip generation, as in M1 and M2, and variant. -/
structure AppleFamily where
  generation : UInt32
  variant : AppleVariant
  deriving DecidableEq

namespace AppleFamily

def archString (family : AppleFamily) : String :=
  if family.variant = .base then "Apple-M" ++ toString family.generation
  else "Apple-M" ++ toString family.generation ++ "-" ++ family.variant.text

/-- Published memory bandwidth of the chip. -/
def estimatedBandwidthGbs (family : AppleFamily) : Float32 :=
  match family.generation.toNat, family.variant with
  | 1, .base => 68
  | 1, .pro => 200
  | 1, .max => 400
  | 1, .ultra => 800
  | 2, .base => 100
  | 2, .pro => 200
  | 2, .max => 400
  | 2, .ultra => 800
  | 3, .base => 100
  | 3, .pro => 150
  | 3, .max => 300
  | 3, .ultra => 800
  | 4, .base => 120
  | 4, .pro => 273
  | 4, .max => 546
  | 4, .ultra => 1092
  | 5, .base => 153
  | 5, .pro => 307
  | 5, .max => 614
  | 5, .ultra => 1228
  | _, _ => 100

/-- The profile that the Metal detector gives a chip. -/
def capability (family : AppleFamily) (totalRam : UInt64) : GpuCapabilityProfile where
  architecture := family.archString
  computeCapMajor := 0
  computeCapMinor := 0
  vramBytes := totalRam
  memBandwidthGbs := family.estimatedBandwidthGbs
  supportsFp16 := true
  supportsBf16 := family.generation ≥ 3
  supportsFp8 := false
  supportsFp4 := false
  supportsInt8Tc := true
  benchmark := none
  backend := GpuBackend.metal.toI32
  unifiedMemory := true

end AppleFamily

end GpuCluster.Sysinfo
