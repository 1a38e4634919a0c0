import GpuCluster.Foundation.Rounding
import GpuCluster.Scheduler.Precision
import Mathlib.Data.List.Sort

/-! # Greedy placement weighted by free VRAM

Each GPU gets the nearest integer to its share of the layers; the last one gets
what is left. The planner is written over the arithmetic it runs on, so that
statements about the shape of a plan need not fix one.
-/

namespace GpuCluster.Scheduler

open Foundation Proto

/-- What the planner reads of a request. -/
structure PlacementRequest where
  modelTotalLayers : UInt32
  requiredPrecision : Precision
  deriving DecidableEq

structure StageAssignment where
  nodeId : String
  gpuIndex : UInt32
  layerStart : UInt32
  layerEnd : UInt32
  backend : GpuBackend
  deriving DecidableEq

/-- Machine operations; `none` is an overflow. `layersOf` is the rounded share
of the layers for a GPU's free VRAM out of the total. -/
structure Arithmetic where
  addU64 : UInt64 → UInt64 → Option UInt64
  addU32 : UInt32 → UInt32 → Option UInt32
  subU32 : UInt32 → UInt32 → Option UInt32
  layersOf : (free total : UInt64) → (modelLayers : UInt32) → UInt32

namespace Arithmetic

/-- Iterator sum. -/
def sumU64 (A : Arithmetic) (values : List UInt64) : Option UInt64 := values.foldlM A.addU64 0

/-- A rational rounded and cast to `u32`; the cast saturates. -/
def castU32 (x : ℚ) : UInt32 := .ofNat (min (roundHalfAway x).toNat (2 ^ 32 - 1))

/-- Checked integer operations, and shares as exact rationals. -/
def checked : Arithmetic where
  addU64 a b := if a.toNat + b.toNat < 2 ^ 64 then some (a + b) else none
  addU32 a b := if a.toNat + b.toNat < 2 ^ 32 then some (a + b) else none
  subU32 a b := if b ≤ a then some (a - b) else none
  layersOf free total modelLayers :=
    castU32 ((free.toNat : ℚ) / total.toNat * modelLayers.toNat)

end Arithmetic

/-- The GPUs whose profile supports the required precision, in node order. -/
def eligible (req : PlacementRequest) (nodes : List NodeInfo) : List (NodeInfo × GpuInfo) :=
  (nodes.flatMap fun n => n.gpus.map fun g => (n, g)).filter fun (_, g) =>
    g.capability.any req.requiredPrecision.supportedBy

/-- Stable sort by free VRAM, largest first. -/
def sortByFree (gpus : List (NodeInfo × GpuInfo)) : List (NodeInfo × GpuInfo) :=
  gpus.insertionSort fun a b => b.2.vramFreeBytes ≤ a.2.vramFreeBytes

def stageOf (n : NodeInfo) (g : GpuInfo) (layerStart layerEnd : UInt32) : StageAssignment where
  nodeId := n.nodeId
  gpuIndex := g.index
  layerStart := layerStart
  layerEnd := layerEnd
  backend := .ofI32 g.backend

/-- The loop over the sorted GPUs. The last one is given the rest. -/
def assign (A : Arithmetic) (total : UInt64) (modelLayers : UInt32) :
    (cursor : UInt32) → List (NodeInfo × GpuInfo) → Option (List StageAssignment)
  | _, [] => some []
  | cursor, (n, g) :: rest => do
      let layers ← if rest.isEmpty then A.subU32 modelLayers cursor
        else some (A.layersOf g.vramFreeBytes total modelLayers)
      if layers = 0 then assign A total modelLayers cursor rest
      else do
        let layerEnd ← A.addU32 cursor layers
        let later ← assign A total modelLayers layerEnd rest
        return stageOf n g cursor layerEnd :: later

/-- `GreedyVramWeighted::plan`; `none` is an arithmetic overflow. -/
def plan (A : Arithmetic) (req : PlacementRequest) (nodes : List NodeInfo) :
    Option (List StageAssignment) := do
  let gpus := sortByFree (eligible req nodes)
  let total ← A.sumU64 (gpus.map (·.2.vramFreeBytes))
  if total = 0 then return []
  assign A total req.modelTotalLayers 0 gpus

end GpuCluster.Scheduler
