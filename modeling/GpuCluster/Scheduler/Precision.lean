import GpuCluster.Proto.Node
import Mathlib.Order.Lattice

/-! # Numeric precisions and the GPUs that support them -/

namespace GpuCluster.Scheduler

open Proto

inductive Precision
  | fp16
  | bf16
  | fp8
  | fp4
  deriving DecidableEq

def Precision.supportedBy (precision : Precision) (cap : GpuCapabilityProfile) : Bool :=
  match precision with
  | .fp16 => cap.supportsFp16
  | .bf16 => cap.supportsBf16
  | .fp8 => cap.supportsFp8
  | .fp4 => cap.supportsFp4

namespace Precision

/-- FP4 is the most aggressive precision, FP16 the least. -/
def aggressiveness : Precision → ℕ
  | .fp16 => 0
  | .bf16 => 1
  | .fp8 => 2
  | .fp4 => 3

theorem aggressiveness_injective : Function.Injective aggressiveness := by
  intro p q heq
  cases p <;> cases q <;> first | rfl | exact absurd heq (by decide)

/-- More aggressive is greater. -/
instance : LinearOrder Precision := LinearOrder.lift' aggressiveness aggressiveness_injective

theorem le_fp4 (p : Precision) : p ≤ .fp4 := by cases p <;> decide

theorem fp16_le (p : Precision) : .fp16 ≤ p := by cases p <;> decide

end Precision

/-- A GPU supports a precision by its profile; without one it supports none. -/
def supports (precision : Precision) (g : GpuInfo) : Bool :=
  g.capability.any precision.supportedBy

/-- The first precision, from the most aggressive one down, that all GPUs support. -/
def clusterGcd (gpus : List GpuInfo) : Precision :=
  ([.fp4, .fp8, .bf16, .fp16].find? fun precision => gpus.all (supports precision)).getD .fp16

end GpuCluster.Scheduler
