import GpuCluster.Scheduler.Coverage

/-! # Which GPU each stage is on

The loop reads nothing of a GPU but its free VRAM, so the sorted sizes alone
give the layer ranges, and the stages are those ranges put on the sorted GPUs
position by position. This holds over any arithmetic.
-/

namespace GpuCluster.Scheduler

open Foundation Proto

/-- First layer and layer after the last. -/
abbrev LayerRange := UInt32 × UInt32

/-- The layers of the GPU at the cursor: the rest for the last one. -/
def layersAt (A : Arithmetic) (total : UInt64) (modelLayers cursor : UInt32) (free : UInt64)
    (isLast : Bool) : Option UInt32 :=
  if isLast then A.subU32 modelLayers cursor else some (A.layersOf free total modelLayers)

/-- The loop over the free VRAM of the sorted GPUs: the layers of each position. -/
def layerRanges (A : Arithmetic) (total : UInt64) (modelLayers : UInt32) :
    (cursor : UInt32) → List UInt64 → Option (List (Option LayerRange))
  | _, [] => some []
  | cursor, free :: rest =>
      (layersAt A total modelLayers cursor free rest.isEmpty).bind fun layers =>
        if layers = 0 then
          (layerRanges A total modelLayers cursor rest).map (none :: ·)
        else
          (A.addU32 cursor layers).bind fun layerEnd =>
            (layerRanges A total modelLayers layerEnd rest).map (some (cursor, layerEnd) :: ·)

/-- The whole plan, over the sorted sizes. -/
def planRanges (A : Arithmetic) (modelLayers : UInt32) (sizes : List UInt64) :
    Option (List (Option LayerRange)) := do
  let total ← A.sumU64 sizes
  if total = 0 then return sizes.map fun _ => none
  layerRanges A total modelLayers 0 sizes

/-- Every eligible GPU, largest first, with the layers it is given. -/
def placements (A : Arithmetic) (req : PlacementRequest) (nodes : List NodeInfo) :
    Option (List ((NodeInfo × GpuInfo) × Option LayerRange)) :=
  let gpus := sortByFree (eligible req nodes)
  (planRanges A req.modelTotalLayers (gpus.map (·.2.vramFreeBytes))).map gpus.zip

/-- The stage of a GPU that is given layers. -/
def stageAt (placement : (NodeInfo × GpuInfo) × Option LayerRange) : Option StageAssignment :=
  placement.2.map fun range => stageOf placement.1.1 placement.1.2 range.1 range.2

section Loop

variable (A : Arithmetic) (total : UInt64) (modelLayers : UInt32)

theorem layerRanges_length {cursor : UInt32} {sizes : List UInt64}
    {ranges : List (Option LayerRange)}
    (hranges : layerRanges A total modelLayers cursor sizes = some ranges) :
    ranges.length = sizes.length := by
  induction sizes generalizing cursor ranges with
  | nil =>
      obtain rfl := Option.some.inj hranges
      rfl
  | cons free rest ih =>
      obtain ⟨layers, -, hranges⟩ := Option.bind_eq_some_iff.mp hranges
      split at hranges
      next =>
        obtain ⟨later, hlater, rfl⟩ := Option.map_eq_some_iff.mp hranges
        rw [List.length_cons, List.length_cons, ih hlater]
      next =>
        obtain ⟨layerEnd, -, hranges⟩ := Option.bind_eq_some_iff.mp hranges
        obtain ⟨later, hlater, rfl⟩ := Option.map_eq_some_iff.mp hranges
        rw [List.length_cons, List.length_cons, ih hlater]

theorem assign_cons (cursor : UInt32) (n : NodeInfo) (g : GpuInfo)
    (rest : List (NodeInfo × GpuInfo)) :
    assign A total modelLayers cursor ((n, g) :: rest) =
      (layersAt A total modelLayers cursor g.vramFreeBytes rest.isEmpty).bind fun layers =>
        if layers = 0 then assign A total modelLayers cursor rest
        else (A.addU32 cursor layers).bind fun layerEnd =>
          (assign A total modelLayers layerEnd rest).map (stageOf n g cursor layerEnd :: ·) := by
  simp only [assign, layersAt, Option.bind_eq_bind, Option.pure_def, Option.map_eq_bind]
  split <;> rfl

/-- The loop makes its stages from the ranges, each on the GPU at its position. -/
theorem assign_eq_layerRanges (cursor : UInt32) (gpus : List (NodeInfo × GpuInfo)) :
    assign A total modelLayers cursor gpus =
      (layerRanges A total modelLayers cursor (gpus.map (·.2.vramFreeBytes))).map fun ranges =>
        (gpus.zip ranges).filterMap stageAt := by
  induction gpus generalizing cursor with
  | nil => rfl
  | cons gpu rest ih =>
      obtain ⟨n, g⟩ := gpu
      rw [assign_cons, List.map_cons, layerRanges, List.isEmpty_map, Option.map_bind]
      congr 1
      funext layers
      dsimp only [Function.comp]
      split
      next =>
        rw [ih, Option.map_map]
        rfl
      next =>
        rw [Option.map_bind]
        congr 1
        funext layerEnd
        rw [Function.comp, ih, Option.map_map, Option.map_map]
        rfl

end Loop

section Plan

variable (A : Arithmetic)

theorem planRanges_length {modelLayers : UInt32} {sizes : List UInt64}
    {ranges : List (Option LayerRange)}
    (hranges : planRanges A modelLayers sizes = some ranges) :
    ranges.length = sizes.length := by
  simp only [planRanges, Option.bind_eq_bind, Option.bind_eq_some_iff] at hranges
  obtain ⟨total, -, hranges⟩ := hranges
  split at hranges
  next =>
    obtain rfl := Option.some.inj hranges
    exact List.length_map _
  next => exact layerRanges_length A total modelLayers hranges

theorem filterMap_stageAt_none (gpus : List (NodeInfo × GpuInfo)) (sizes : List UInt64) :
    (gpus.zip (sizes.map fun _ => none)).filterMap stageAt = [] := by
  apply List.filterMap_eq_nil_iff.mpr
  rintro ⟨gpu, range⟩ hmem
  obtain ⟨size, -, rfl⟩ := List.mem_map.mp (List.of_mem_zip hmem).2
  rfl

theorem filterMap_stageAt_unplaced (gpus : List (NodeInfo × GpuInfo)) :
    (gpus.map (·, none)).filterMap stageAt = [] := by
  apply List.filterMap_eq_nil_iff.mpr
  intro placement hmem
  obtain ⟨gpu, -, rfl⟩ := List.mem_map.mp hmem
  rfl

/-- The stages of a plan are those of its placements. -/
theorem plan_eq_placements (req : PlacementRequest) (nodes : List NodeInfo) :
    plan A req nodes = (placements A req nodes).map (·.filterMap stageAt) := by
  simp only [plan, placements, planRanges]
  generalize sortByFree (eligible req nodes) = gpus
  cases A.sumU64 (gpus.map (·.2.vramFreeBytes)) with
  | none => rfl
  | some total =>
      simp only [Option.bind_eq_bind, Option.bind_some]
      split
      next => exact congrArg some (filterMap_stageAt_none gpus _).symm
      next =>
        rw [assign_eq_layerRanges, Option.map_map]
        rfl

theorem plan_eq_some_iff {req : PlacementRequest} {nodes : List NodeInfo}
    {stages : List StageAssignment} :
    plan A req nodes = some stages ↔
      ∃ placed, placements A req nodes = some placed ∧ placed.filterMap stageAt = stages := by
  rw [plan_eq_placements, Option.map_eq_some_iff]

theorem plan_eq_none_iff {req : PlacementRequest} {nodes : List NodeInfo} :
    plan A req nodes = none ↔ placements A req nodes = none := by
  rw [plan_eq_placements, Option.map_eq_none_iff]

/-- The GPUs of the placements are the sorted list, whole. -/
theorem placements_gpus {req : PlacementRequest} {nodes : List NodeInfo}
    {placed : List ((NodeInfo × GpuInfo) × Option LayerRange)}
    (hplaced : placements A req nodes = some placed) :
    placed.map Prod.fst = sortByFree (eligible req nodes) := by
  obtain ⟨ranges, hranges, rfl⟩ := Option.map_eq_some_iff.mp hplaced
  have hlength := planRanges_length A hranges
  rw [List.length_map] at hlength
  exact List.map_fst_zip hlength.ge

section Sum

variable {A} {req : PlacementRequest} {nodes : List NodeInfo} {total : UInt64}

theorem placements_of_overflow
    (hsum : A.sumU64 ((sortByFree (eligible req nodes)).map (·.2.vramFreeBytes)) = none) :
    placements A req nodes = none := by
  rw [placements, planRanges, hsum]
  rfl

/-- Without free VRAM no GPU is given layers. -/
theorem placements_of_noFree
    (hsum : A.sumU64 ((sortByFree (eligible req nodes)).map (·.2.vramFreeBytes)) = some 0) :
    placements A req nodes = some ((sortByFree (eligible req nodes)).map (·, none)) := by
  have hself : (sortByFree (eligible req nodes)).zip
      ((sortByFree (eligible req nodes)).map fun _ => (none : Option LayerRange)) =
        (sortByFree (eligible req nodes)).map (·, none) := by
    simpa only [List.map_id, id_eq] using List.zip_map' (f := id)
      (g := fun _ => (none : Option LayerRange)) (l := sortByFree (eligible req nodes))
  rw [placements, planRanges, hsum, ← hself]
  simp only [Option.bind_eq_bind, Option.bind_some, if_true, Option.pure_def, Option.map_some,
    List.map_map, Function.comp_def]

theorem placements_of_free
    (hsum : A.sumU64 ((sortByFree (eligible req nodes)).map (·.2.vramFreeBytes)) = some total)
    (hpos : total ≠ 0) :
    placements A req nodes =
      (layerRanges A total req.modelTotalLayers 0
        ((sortByFree (eligible req nodes)).map (·.2.vramFreeBytes))).map
          (sortByFree (eligible req nodes)).zip := by
  rw [placements, planRanges, hsum]
  simp only [Option.bind_eq_bind, Option.bind_some, if_neg hpos]

end Sum

/-- A GPU may be used when it is some node's and its profile supports the
precision. -/
theorem mem_eligible {req : PlacementRequest} {nodes : List NodeInfo}
    {gpu : NodeInfo × GpuInfo} :
    gpu ∈ eligible req nodes ↔
      gpu.1 ∈ nodes ∧ gpu.2 ∈ gpu.1.gpus ∧
        ∃ cap, gpu.2.capability = some cap ∧ req.requiredPrecision.supportedBy cap = true := by
  obtain ⟨n, g⟩ := gpu
  simp only [eligible, List.mem_filter, List.mem_flatMap, List.mem_map, Prod.mk.injEq,
    Option.any_eq_true]
  constructor
  · rintro ⟨⟨node, hnode, found, hfound, rfl, rfl⟩, hcap⟩
    exact ⟨hnode, hfound, hcap⟩
  · rintro ⟨hnode, hgpu, hcap⟩
    exact ⟨⟨n, hnode, g, hgpu, rfl, rfl⟩, hcap⟩

/-! ## Stages come from distinct GPUs, in order -/

/-- A stage is on a GPU of these nodes that supports the required precision. -/
structure StageOn (req : PlacementRequest) (nodes : List NodeInfo) (stage : StageAssignment)
    (gpu : NodeInfo × GpuInfo) : Prop where
  node : gpu.1 ∈ nodes
  hosted : gpu.2 ∈ gpu.1.gpus
  nodeId : stage.nodeId = gpu.1.nodeId
  gpuIndex : stage.gpuIndex = gpu.2.index
  backend : stage.backend = .ofI32 gpu.2.backend
  supported : ∃ cap, gpu.2.capability = some cap ∧ req.requiredPrecision.supportedBy cap = true

theorem stageOn_of_stageAt {req : PlacementRequest} {nodes : List NodeInfo}
    {placement : (NodeInfo × GpuInfo) × Option LayerRange} {stage : StageAssignment}
    (hgpu : placement.1 ∈ eligible req nodes) (hstage : stageAt placement = some stage) :
    StageOn req nodes stage placement.1 := by
  obtain ⟨range, -, rfl⟩ := Option.map_eq_some_iff.mp hstage
  obtain ⟨hnode, hin, hcap⟩ := mem_eligible.mp hgpu
  exact ⟨hnode, hin, rfl, rfl, rfl, hcap⟩

/-- The stages of a plan are on GPUs at rising positions of the eligible GPUs
sorted by free VRAM, largest first. -/
theorem plan_stages_at_positions (req : PlacementRequest) (nodes : List NodeInfo) :
    let gpus := sortByFree (eligible req nodes)
    gpus.Perm (eligible req nodes) ∧
    gpus.Pairwise (fun a b => b.2.vramFreeBytes ≤ a.2.vramFreeBytes) ∧
    ∀ stages, plan A req nodes = some stages →
      ∃ positions : List ℕ, positions.Pairwise (· < ·) ∧
        List.Forall₂ (fun stage i => ∃ gpu, gpus[i]? = some gpu ∧ StageOn req nodes stage gpu)
          stages positions := by
  intro gpus
  refine ⟨sortByFree_perm _, sortByFree_pairwise _, fun stages hstages => ?_⟩
  obtain ⟨placed, hplaced, rfl⟩ := (plan_eq_some_iff A).mp hstages
  have hgpus : placed.map Prod.fst = gpus := placements_gpus A hplaced
  obtain ⟨positions, hrising, hkept⟩ := exists_positions_filterMap stageAt placed
  refine ⟨positions, hrising, hkept.imp fun stage i hstage => ?_⟩
  obtain ⟨placement, hat, hstage⟩ := hstage
  have hsorted : gpus[i]? = some placement.1 := by
    rw [← hgpus, List.getElem?_map, hat, Option.map_some]
  have hmem : placement.1 ∈ eligible req nodes :=
    (sortByFree_perm _).mem_iff.mp (List.mem_of_getElem? hsorted)
  exact ⟨placement.1, hsorted, stageOn_of_stageAt hmem hstage⟩

/-- A GPU of a capability that covers bfloat16 only. -/
def bf16Gpu (index : UInt32) (free : UInt64) : GpuInfo :=
  { index := index, vramFreeBytes := free, capability := some { supportsBf16 := true } }

/-- Two GPUs, the smaller one listed first, and one without a profile: two stages. -/
theorem two_stages_at_positions : ∃ positions : List ℕ, positions.Pairwise (· < ·) ∧
    List.Forall₂ (fun stage i => ∃ gpu,
        (sortByFree (eligible ⟨12, .bf16⟩ [{ nodeId := "a", gpus := [bf16Gpu 0 1, {}] },
          { nodeId := "b", gpus := [bf16Gpu 0 2] }]))[i]? = some gpu ∧
        StageOn ⟨12, .bf16⟩ [{ nodeId := "a", gpus := [bf16Gpu 0 1, {}] },
          { nodeId := "b", gpus := [bf16Gpu 0 2] }] stage gpu)
      [⟨"b", 0, 0, 8, .unspecified⟩, ⟨"a", 0, 8, 12, .unspecified⟩] positions :=
  (plan_stages_at_positions .checked ⟨12, .bf16⟩ [{ nodeId := "a", gpus := [bf16Gpu 0 1, {}] },
    { nodeId := "b", gpus := [bf16Gpu 0 2] }]).2.2 _ (by decide +kernel)

/-! ## The split does not depend on the order of the nodes -/

/-- The GPUs a request may use, each with its node's id. -/
def eligiblePairs (req : PlacementRequest) (nodes : List NodeInfo) : List (String × GpuInfo) :=
  (eligible req nodes).map fun gpu => (gpu.1.nodeId, gpu.2)

def StageAssignment.layers (stage : StageAssignment) : LayerRange :=
  (stage.layerStart, stage.layerEnd)

/-- The plan, each stage with the free VRAM of its GPU. -/
def sizedPlan (req : PlacementRequest) (nodes : List NodeInfo) :
    Option (List (StageAssignment × UInt64)) :=
  (placements A req nodes).map (·.filterMap fun placement =>
    (stageAt placement).map fun stage => (stage, placement.1.2.vramFreeBytes))

theorem sizedPlan_stages (req : PlacementRequest) (nodes : List NodeInfo) :
    (sizedPlan A req nodes).map (·.map Prod.fst) = plan A req nodes := by
  rw [sizedPlan, plan_eq_placements, Option.map_map]
  congr 1
  funext placed
  simp [Function.comp_def, List.map_filterMap]

/-- The sorted sizes depend on the sizes alone, not on how they were listed. -/
theorem sortByFree_sizes_eq {xs ys : List (NodeInfo × GpuInfo)}
    (hsizes : (xs.map (·.2.vramFreeBytes)).Perm (ys.map (·.2.vramFreeBytes))) :
    (sortByFree xs).map (·.2.vramFreeBytes) = (sortByFree ys).map (·.2.vramFreeBytes) := by
  have hfalling : ∀ gpus, ((sortByFree gpus).map (·.2.vramFreeBytes)).Pairwise
      fun a b => b ≤ a := fun gpus => List.pairwise_map.mpr (sortByFree_pairwise gpus)
  apply List.Perm.eq_of_pairwise _ (hfalling xs) (hfalling ys)
  · exact (((sortByFree_perm xs).map _).trans hsizes).trans ((sortByFree_perm ys).map _).symm
  · exact fun a b _ _ hba hab => UInt64.le_antisymm hab hba

/-- Distinct sizes leave the sort no choice. -/
theorem sortByFree_pairs_eq {xs ys : List (NodeInfo × GpuInfo)}
    (hpairs : (xs.map fun gpu => (gpu.1.nodeId, gpu.2)).Perm
      (ys.map fun gpu => (gpu.1.nodeId, gpu.2)))
    (hdistinct : (xs.map (·.2.vramFreeBytes)).Nodup) :
    (sortByFree xs).map (fun gpu => (gpu.1.nodeId, gpu.2)) =
      (sortByFree ys).map fun gpu => (gpu.1.nodeId, gpu.2) := by
  have hx := (sortByFree_perm xs).map fun gpu => (gpu.1.nodeId, gpu.2)
  have hy := (sortByFree_perm ys).map fun gpu => (gpu.1.nodeId, gpu.2)
  have hperm := (hx.trans hpairs).trans hy.symm
  have hfalling : ∀ gpus, ((sortByFree gpus).map fun gpu => (gpu.1.nodeId, gpu.2)).Pairwise
      fun a b => b.2.vramFreeBytes ≤ a.2.vramFreeBytes :=
    fun gpus => List.pairwise_map.mpr (sortByFree_pairwise gpus)
  apply List.Perm.eq_of_pairwise _ (hfalling xs) (hfalling ys) hperm
  · intro a b ha hb hba hab
    -- two entries of one size are one entry, as no two GPUs are of one size
    have hsize : a.2.vramFreeBytes = b.2.vramFreeBytes := UInt64.le_antisymm hab hba
    have hinj := List.inj_on_of_nodup_map (l := xs.map fun gpu => (gpu.1.nodeId, gpu.2))
      (f := fun pair => pair.2.vramFreeBytes) (by rwa [List.map_map])
    exact hinj (hx.mem_iff.mp ha) (hx.mem_iff.mp (hperm.mem_iff.mpr hb)) hsize

/-- The stages, from the node ids and GPUs in sorted order. -/
theorem stages_of_pairs (gpus : List (NodeInfo × GpuInfo)) (ranges : List (Option LayerRange)) :
    (gpus.zip ranges).filterMap stageAt =
      ((gpus.map fun gpu => (gpu.1.nodeId, gpu.2)).zip ranges).filterMap fun pair =>
        pair.2.map fun range =>
          stageOf { nodeId := pair.1.1 } pair.1.2 range.1 range.2 := by
  rw [List.zip_map_left, List.filterMap_map]
  rfl

/-- Layer ranges with sizes, from the sorted sizes. -/
theorem sizedRanges_of_sizes (gpus : List (NodeInfo × GpuInfo))
    (ranges : List (Option LayerRange)) :
    ((gpus.zip ranges).filterMap fun placement =>
        (stageAt placement).map fun stage => (stage.layers, placement.1.2.vramFreeBytes)) =
      ((gpus.map (·.2.vramFreeBytes)).zip ranges).filterMap fun sized =>
        sized.2.map fun range => (range, sized.1) := by
  rw [List.zip_map_left, List.filterMap_map]
  congr 1
  funext placement
  rw [stageAt, Option.map_map]
  rfl

/-- Two node lists with the same eligible GPUs split a model alike: the layer
ranges and the sizes they are put on agree, and so do the plans when no two
GPUs are of one size. -/
theorem plan_of_same_gpus (req : PlacementRequest) (xs ys : List NodeInfo)
    (hsame : (eligiblePairs req xs).Perm (eligiblePairs req ys)) :
    (sizedPlan A req xs).map (·.map fun sized => (sized.1.layers, sized.2)) =
      (sizedPlan A req ys).map (·.map fun sized => (sized.1.layers, sized.2)) ∧
    (plan A req xs).map (·.map StageAssignment.layers) =
      (plan A req ys).map (·.map StageAssignment.layers) ∧
    (((eligible req xs).map (·.2.vramFreeBytes)).Nodup → plan A req xs = plan A req ys) := by
  have hsizes : ((eligible req xs).map (·.2.vramFreeBytes)).Perm
      ((eligible req ys).map (·.2.vramFreeBytes)) := by
    have hmap := hsame.map fun pair => pair.2.vramFreeBytes
    rwa [eligiblePairs, eligiblePairs, List.map_map, List.map_map] at hmap
  have hsorted := sortByFree_sizes_eq hsizes
  have hsized : ∀ nodes, (sizedPlan A req nodes).map
      (·.map fun sized => (sized.1.layers, sized.2)) =
        (planRanges A req.modelTotalLayers
          ((sortByFree (eligible req nodes)).map (·.2.vramFreeBytes))).map fun ranges =>
            (((sortByFree (eligible req nodes)).map (·.2.vramFreeBytes)).zip ranges).filterMap
              fun sized => sized.2.map fun range => (range, sized.1) := by
    intro nodes
    rw [sizedPlan, placements, Option.map_map, Option.map_map]
    congr 1
    funext ranges
    rw [← sizedRanges_of_sizes]
    simp [Function.comp_def, List.map_filterMap]
  have hranges : (sizedPlan A req xs).map (·.map fun sized => (sized.1.layers, sized.2)) =
      (sizedPlan A req ys).map (·.map fun sized => (sized.1.layers, sized.2)) := by
    rw [hsized, hsized, hsorted]
  refine ⟨hranges, ?_, fun hdistinct => ?_⟩
  · have hfst := congrArg (Option.map (List.map Prod.fst)) hranges
    rw [← sizedPlan_stages, ← sizedPlan_stages]
    simpa [Option.map_map, Function.comp_def] using hfst
  · have hpairs := sortByFree_pairs_eq hsame hdistinct
    rw [plan_eq_placements, plan_eq_placements, placements, placements, hsorted,
      Option.map_map, Option.map_map]
    congr 1
    funext ranges
    rw [Function.comp, Function.comp, stages_of_pairs, stages_of_pairs, hpairs]

/-- The nodes listed the other way around, with a GPU that cannot be used. -/
theorem two_nodes_swapped :
    plan .checked ⟨12, .bf16⟩ [{ nodeId := "a", gpus := [bf16Gpu 0 1] },
        { nodeId := "b", gpus := [bf16Gpu 0 2] }] =
      plan .checked ⟨12, .bf16⟩ [{ nodeId := "b", gpus := [{}, bf16Gpu 0 2] },
        { nodeId := "a", gpus := [bf16Gpu 0 1] }] :=
  (plan_of_same_gpus .checked ⟨12, .bf16⟩ [{ nodeId := "a", gpus := [bf16Gpu 0 1] },
    { nodeId := "b", gpus := [bf16Gpu 0 2] }] [{ nodeId := "b", gpus := [{}, bf16Gpu 0 2] },
    { nodeId := "a", gpus := [bf16Gpu 0 1] }] (.swap _ _ [])).2.2 (by decide +kernel)

end Plan

end GpuCluster.Scheduler
