import GpuCluster.Scheduler.Stages
import Mathlib.Algebra.BigOperators.Ring.Finset
import Mathlib.Data.UInt

/-! # How far the layers of a GPU are from its share

Every GPU but the last gets its share to the nearest integer, and the rounding
errors of all of them end up in what is left for the last one.
-/

namespace GpuCluster.Scheduler

open Foundation Proto

/-- Where they do not overflow, the operations are those of the machine word. -/
structure Arithmetic.Modular (A : Arithmetic) : Prop where
  addU32 : ∀ {a b c}, A.addU32 a b = some c → c = a + b
  subU32 : ∀ {a b c}, A.subU32 a b = some c → c = a - b

theorem Arithmetic.checked_modular : Arithmetic.checked.Modular := by
  constructor
  · intro a b c hadd
    exact (Option.some.inj (Option.ite_none_right_eq_some.mp hadd).2).symm
  · intro a b c hsub
    exact (Option.some.inj (Option.ite_none_right_eq_some.mp hsub).2).symm

/-- How many layers a position is given. -/
def layersGiven (range : Option LayerRange) : UInt32 :=
  (range.map fun (layerStart, layerEnd) => layerEnd - layerStart).getD 0

section Loop

variable {A : Arithmetic} (hA : A.Modular) {total : UInt64} {modelLayers : UInt32}
include hA

theorem layersGiven_of_addU32 {cursor layers layerEnd : UInt32}
    (hadd : A.addU32 cursor layers = some layerEnd) :
    layersGiven (some (cursor, layerEnd)) = layers := by
  rw [hA.addU32 hadd]
  exact (congrArg (· - cursor) (UInt32.add_comm cursor layers)).trans
    (UInt32.add_sub_cancel layers cursor)

/-- All positions but the last are given their rounded share, the last one what
these leave of the model. -/
theorem layersGiven_layerRanges {sizes : List UInt64} {last : UInt64} {cursor : UInt32}
    {ranges : List (Option LayerRange)}
    (hranges : layerRanges A total modelLayers cursor (sizes ++ [last]) = some ranges) :
    ranges.map layersGiven =
      sizes.map (A.layersOf · total modelLayers) ++
        [modelLayers - (cursor + (sizes.map (A.layersOf · total modelLayers)).sum)] := by
  induction sizes generalizing cursor ranges with
  | nil =>
      obtain ⟨layers, hlayers, hranges⟩ := Option.bind_eq_some_iff.mp hranges
      have hsub : layers = modelLayers - cursor := hA.subU32 hlayers
      split at hranges
      next hzero =>
        obtain rfl := Option.some.inj hranges
        simp [layersGiven, ← hsub, hzero]
      next =>
        obtain ⟨layerEnd, hadd, hranges⟩ := Option.bind_eq_some_iff.mp hranges
        obtain rfl := Option.some.inj hranges
        simp [layersGiven_of_addU32 hA hadd, hsub]
  | cons free rest ih =>
      obtain ⟨layers, hlayers, hranges⟩ := Option.bind_eq_some_iff.mp hranges
      have hshare : A.layersOf free total modelLayers = layers := by
        simpa [layersAt] using hlayers
      simp only [List.map_cons, List.sum_cons, hshare, List.cons_append]
      split at hranges
      next hzero =>
        obtain ⟨later, hlater, rfl⟩ := Option.map_eq_some_iff.mp hranges
        rw [List.map_cons, ih hlater, hzero]
        simp [layersGiven]
      next =>
        obtain ⟨layerEnd, hadd, hranges⟩ := Option.bind_eq_some_iff.mp hranges
        obtain ⟨later, hlater, rfl⟩ := Option.map_eq_some_iff.mp hranges
        rw [List.map_cons, ih hlater, layersGiven_of_addU32 hA hadd, hA.addU32 hadd,
          UInt32.add_assoc]

/-- What a plan with free VRAM to share out gives every GPU. -/
theorem layersGiven_placements {req : PlacementRequest} {nodes : List NodeInfo}
    (hsum : A.sumU64 ((sortByFree (eligible req nodes)).map (·.2.vramFreeBytes)) = some total)
    (hpos : total ≠ 0) {others : List (NodeInfo × GpuInfo)} {last : NodeInfo × GpuInfo}
    (hsplit : sortByFree (eligible req nodes) = others ++ [last])
    {placed : List ((NodeInfo × GpuInfo) × Option LayerRange)}
    (hplaced : placements A req nodes = some placed) :
    placed.map (fun placement => layersGiven placement.2) =
      others.map (fun gpu => A.layersOf gpu.2.vramFreeBytes total req.modelTotalLayers) ++
        [req.modelTotalLayers - (others.map fun gpu =>
          A.layersOf gpu.2.vramFreeBytes total req.modelTotalLayers).sum] := by
  rw [placements_of_free hsum hpos] at hplaced
  obtain ⟨ranges, hranges, rfl⟩ := Option.map_eq_some_iff.mp hplaced
  have hlength := layerRanges_length A total req.modelTotalLayers hranges
  rw [List.length_map] at hlength
  have hzip : ((sortByFree (eligible req nodes)).zip ranges).map
      (fun placement => layersGiven placement.2) = ranges.map layersGiven := by
    conv_rhs => rw [← List.map_snd_zip hlength.le, List.map_map]
    rfl
  rw [hsplit, List.map_append, List.map_singleton] at hranges
  rw [hzip, layersGiven_layerRanges hA hranges, List.map_map, UInt32.zero_add]
  rfl

end Loop

/-- A sum of words that fits a word is the sum of their values. -/
theorem toNat_sum_map {α : Type} (count : α → UInt32) (items : List α)
    (hlt : (items.map fun item => (count item).toNat).sum < 2 ^ 32) :
    (items.map count).sum.toNat = (items.map fun item => (count item).toNat).sum := by
  induction items with
  | nil => rfl
  | cons item rest ih =>
      rw [List.map_cons, List.sum_cons] at hlt ⊢
      rw [List.map_cons, List.sum_cons, UInt32.toNat_add, ih (by omega), Nat.mod_eq_of_lt hlt]

/-! ## Exact shares -/

section Exact

variable (req : PlacementRequest) (nodes : List NodeInfo) (total : UInt64)

/-- The share of a GPU in the layers. -/
def exactShare (gpu : NodeInfo × GpuInfo) : ℚ :=
  req.modelTotalLayers.toNat * gpu.2.vramFreeBytes.toNat / total.toNat

/-- The layers computed from a GPU's share. -/
def roundedShare (gpu : NodeInfo × GpuInfo) : UInt32 :=
  Arithmetic.checked.layersOf gpu.2.vramFreeBytes total req.modelTotalLayers

/-- What the rounded shares of the other GPUs leave for the last one. -/
def remainderAfter (others : List (NodeInfo × GpuInfo)) : ℤ :=
  req.modelTotalLayers.toNat - (others.map fun gpu => (roundedShare req total gpu).toNat).sum

variable {req nodes total}

theorem toNat_pos_of_ne_zero (hpos : total ≠ 0) : 0 < total.toNat :=
  Nat.pos_of_ne_zero fun hzero => hpos (UInt64.toNat_inj.mp hzero)

theorem mem_of_mem_others {others : List (NodeInfo × GpuInfo)} {last gpu : NodeInfo × GpuInfo}
    (hsplit : sortByFree (eligible req nodes) = others ++ [last]) (hgpu : gpu ∈ others) :
    gpu ∈ sortByFree (eligible req nodes) := by
  rw [hsplit]
  exact List.mem_append_left _ hgpu

variable (hsum : Arithmetic.checked.sumU64
  ((sortByFree (eligible req nodes)).map (·.2.vramFreeBytes)) = some total)
include hsum

/-- A sum that does not overflow is the sum. -/
theorem toNat_of_sumU64 :
    total.toNat = ((sortByFree (eligible req nodes)).map (·.2.vramFreeBytes.toNat)).sum := by
  rw [Arithmetic.sumU64_checked, List.map_map] at hsum
  obtain ⟨hfits, htotal⟩ := Option.ite_none_right_eq_some.mp hsum
  rw [← Option.some.inj htotal, UInt64.toNat_ofNat_of_lt' hfits]
  rfl

theorem free_le_total {gpu : NodeInfo × GpuInfo}
    (hgpu : gpu ∈ sortByFree (eligible req nodes)) : gpu.2.vramFreeBytes ≤ total := by
  rw [UInt64.le_iff_toNat_le, toNat_of_sumU64 hsum]
  exact List.le_sum_of_mem (List.mem_map_of_mem hgpu)

variable (hpos : total ≠ 0)
include hpos

theorem roundedShare_eq {gpu : NodeInfo × GpuInfo}
    (hgpu : gpu ∈ sortByFree (eligible req nodes)) :
    (roundedShare req total gpu).toNat = gpuShare req.modelTotalLayers total gpu := by
  rw [roundedShare, gpuShare, Arithmetic.toNat_layersOf_checked
    (UInt64.lt_iff_toNat_lt.mpr (toNat_pos_of_ne_zero hpos)) (free_le_total hsum hgpu)]

theorem roundedShare_near {gpu : NodeInfo × GpuInfo}
    (hgpu : gpu ∈ sortByFree (eligible req nodes)) :
    |((roundedShare req total gpu).toNat : ℚ) - exactShare req total gpu| ≤ 1 / 2 := by
  have hbound := abs_nearestNat_sub_le (gpu.2.vramFreeBytes.toNat * req.modelTotalLayers.toNat)
    (toNat_pos_of_ne_zero hpos)
  rw [roundedShare_eq hsum hpos hgpu, exactShare, mul_comm]
  exact_mod_cast hbound

/-- The shares of all GPUs are the whole model. -/
theorem exactShare_sum :
    ((sortByFree (eligible req nodes)).map (exactShare req total)).sum =
      req.modelTotalLayers.toNat := by
  have hne : (total.toNat : ℚ) ≠ 0 := Nat.cast_ne_zero.mpr (toNat_pos_of_ne_zero hpos).ne'
  have hfactor : (sortByFree (eligible req nodes)).map (exactShare req total) =
      (sortByFree (eligible req nodes)).map fun gpu =>
        (req.modelTotalLayers.toNat : ℚ) / total.toNat * gpu.2.vramFreeBytes.toNat := by
    apply List.map_congr_left
    intro gpu _
    rw [exactShare]
    ring
  have htotal : ((sortByFree (eligible req nodes)).map
      fun gpu => (gpu.2.vramFreeBytes.toNat : ℚ)).sum = total.toNat := by
    rw [toNat_of_sumU64 hsum, Nat.cast_list_sum, List.map_map]
    rfl
  rw [hfactor, List.sum_map_mul_left, htotal, div_mul_cancel₀ _ hne]

/-- The rounding errors of the other GPUs add up in the remainder. -/
theorem remainderAfter_near {others : List (NodeInfo × GpuInfo)} {last : NodeInfo × GpuInfo}
    (hsplit : sortByFree (eligible req nodes) = others ++ [last]) :
    |(remainderAfter req total others : ℚ) - exactShare req total last| ≤
      (others.length : ℚ) / 2 := by
  have hnear : ∀ gpu ∈ others,
      |((roundedShare req total gpu).toNat : ℚ) - exactShare req total gpu| ≤ 1 / 2 := by
    intro gpu hgpu
    exact roundedShare_near hsum hpos (mem_of_mem_others hsplit hgpu)
  have hwhole := exactShare_sum hsum hpos
  rw [hsplit, List.map_append, List.sum_append, List.map_singleton, List.sum_singleton] at hwhole
  have hcast : (remainderAfter req total others : ℚ) = req.modelTotalLayers.toNat -
      (others.map fun gpu => ((roundedShare req total gpu).toNat : ℚ)).sum := by
    rw [remainderAfter, Int.cast_sub, Int.cast_natCast, Int.cast_natCast, Nat.cast_list_sum,
      List.map_map]
    rfl
  have herror : (remainderAfter req total others : ℚ) - exactShare req total last =
      -((others.map fun gpu => ((roundedShare req total gpu).toNat : ℚ)).sum -
        (others.map (exactShare req total)).sum) := by
    rw [hcast, ← hwhole]
    ring
  rw [herror, abs_neg]
  calc _ ≤ (others.length : ℚ) * (1 / 2) := abs_sum_sub_sum_le others hnear
    _ = (others.length : ℚ) / 2 := by ring

/-! ## The loop over exact shares -/

/-- The loop stops at an overflow exactly when the remainder is negative. -/
theorem placements_none_iff {others : List (NodeInfo × GpuInfo)} {last : NodeInfo × GpuInfo}
    (hsplit : sortByFree (eligible req nodes) = others ++ [last]) :
    placements .checked req nodes = none ↔ remainderAfter req total others < 0 := by
  have hpos' : 0 < total := UInt64.lt_iff_toNat_lt.mpr (toNat_pos_of_ne_zero hpos)
  have hne : sortByFree (eligible req nodes) ≠ [] := by simp [hsplit]
  have hle : ∀ gpu ∈ sortByFree (eligible req nodes), gpu.2.vramFreeBytes ≤ total :=
    fun _ hgpu => free_le_total hsum hgpu
  have hdrop : (sortByFree (eligible req nodes)).dropLast = others := by
    rw [hsplit, List.dropLast_concat]
  have hrounded : (others.map fun gpu => (roundedShare req total gpu).toNat) =
      others.map (gpuShare req.modelTotalLayers total) := by
    apply List.map_congr_left
    intro gpu hgpu
    exact roundedShare_eq hsum hpos (mem_of_mem_others hsplit hgpu)
  have hloop : placements .checked req nodes = none ↔
      assign .checked total req.modelTotalLayers 0 (sortByFree (eligible req nodes)) = none := by
    rw [placements_of_free hsum hpos, assign_eq_layerRanges, Option.map_eq_none_iff,
      Option.map_eq_none_iff]
  rw [hloop, remainderAfter, hrounded]
  constructor
  · intro hnone
    by_contra hfit
    obtain ⟨stages, hassign, -⟩ := assign_covers req.modelTotalLayers hpos' hne hle
      (show (0 : UInt32).toNat + _ ≤ _ by
        rw [UInt32.toNat_zero, hdrop]
        omega)
    rw [hnone] at hassign
    cases hassign
  · intro hover
    apply assign_overflows req.modelTotalLayers hpos' hne hle
    rw [UInt32.toNat_zero, hdrop]
    omega

/-- Every GPU is given its rounded share, and the last one the remainder. -/
theorem placements_layersGiven {others : List (NodeInfo × GpuInfo)} {last : NodeInfo × GpuInfo}
    (hsplit : sortByFree (eligible req nodes) = others ++ [last])
    {placed : List ((NodeInfo × GpuInfo) × Option LayerRange)}
    (hplaced : placements .checked req nodes = some placed) :
    placed.map (fun placement => ((layersGiven placement.2).toNat : ℤ)) =
      others.map (fun gpu => ((roundedShare req total gpu).toNat : ℤ)) ++
        [remainderAfter req total others] := by
  have hfit : 0 ≤ remainderAfter req total others := by
    by_contra hneg
    rw [(placements_none_iff hsum hpos hsplit).mpr (by omega)] at hplaced
    cases hplaced
  have hgiven := layersGiven_placements Arithmetic.checked_modular hsum hpos hsplit hplaced
  have hwords := congrArg (List.map fun layers : UInt32 => (layers.toNat : ℤ)) hgiven
  rw [List.map_map, List.map_append, List.map_map, List.map_singleton] at hwords
  have hbound := req.modelTotalLayers.toNat_lt
  have hleft := toNat_sum_map (roundedShare req total) others (by
    rw [remainderAfter] at hfit
    omega)
  have hlast : ((req.modelTotalLayers - (others.map (roundedShare req total)).sum).toNat : ℤ) =
      remainderAfter req total others := by
    rw [remainderAfter] at hfit ⊢
    rw [UInt32.toNat_sub_of_le _ _ (UInt32.le_iff_toNat_le.mpr (by omega)), hleft]
    omega
  rw [← hlast]
  exact hwords

omit hpos in
/-- Every eligible GPU but the last in sorted order gets a layer count within
1/2 of its share, and the remainder for the last of `n` GPUs is within
`(n - 1) / 2` of its own, so it is negative only if that share is smaller; the
plan stops exactly at a negative remainder, and otherwise its stages are those
of these counts. Without free VRAM there are no shares, no GPU is given a layer
and the plan has no stage. -/
theorem layers_near_shares :
    if total = 0 then
      placements .checked req nodes = some ((sortByFree (eligible req nodes)).map (·, none)) ∧
      plan .checked req nodes = some []
    else ∃ others last, sortByFree (eligible req nodes) = others ++ [last] ∧
      (∀ gpu ∈ others,
        |((roundedShare req total gpu).toNat : ℚ) - exactShare req total gpu| ≤ 1 / 2) ∧
      |(remainderAfter req total others : ℚ) - exactShare req total last| ≤
        (others.length : ℚ) / 2 ∧
      (remainderAfter req total others < 0 →
        exactShare req total last < (others.length : ℚ) / 2) ∧
      (plan .checked req nodes = none ↔ remainderAfter req total others < 0) ∧
      ∀ stages, plan .checked req nodes = some stages →
        ∃ placed, placements .checked req nodes = some placed ∧
          placed.filterMap stageAt = stages ∧
          placed.map Prod.fst = others ++ [last] ∧
          placed.map (fun placement => ((layersGiven placement.2).toNat : ℤ)) =
            others.map (fun gpu => ((roundedShare req total gpu).toNat : ℤ)) ++
              [remainderAfter req total others] := by
  split
  next hzero =>
    subst hzero
    have hnone := placements_of_noFree hsum
    refine ⟨hnone, (plan_eq_some_iff .checked).mpr ⟨_, hnone, ?_⟩⟩
    exact filterMap_stageAt_unplaced _
  next hpos =>
    have hne : sortByFree (eligible req nodes) ≠ [] := by
      intro hnil
      rw [hnil] at hsum
      exact hpos (Option.some.inj hsum).symm
    obtain ⟨others, last, hsplit⟩ := exists_eq_concat hne
    have hnear := remainderAfter_near hsum hpos hsplit
    have hstops := (plan_eq_none_iff .checked).trans (placements_none_iff hsum hpos hsplit)
    refine ⟨others, last, hsplit, fun gpu hgpu => ?_, hnear, fun hneg => ?_, hstops,
      fun stages hstages => ?_⟩
    · exact roundedShare_near hsum hpos (mem_of_mem_others hsplit hgpu)
    · have hneg' : (remainderAfter req total others : ℚ) < 0 := Int.cast_lt_zero.mpr hneg
      have hlow := (abs_le.mp hnear).1
      linarith
    · obtain ⟨placed, hplaced, hstages⟩ := (plan_eq_some_iff .checked).mp hstages
      refine ⟨placed, hplaced, hstages, ?_, placements_layersGiven hsum hpos hsplit hplaced⟩
      rw [placements_gpus .checked hplaced, hsplit]

end Exact

/-- GPUs of 2, 1 and 1 bytes and 10 layers: shares 5, 5/2 and 5/2, of which the
middle one rounds up and the last one gets the rest. -/
theorem three_gpus_near_shares :
    ∃ others last, sortByFree (eligible ⟨10, .bf16⟩
        [{ gpus := [bf16Gpu 0 2, bf16Gpu 1 1, bf16Gpu 2 1] }]) = others ++ [last] ∧
      |(remainderAfter ⟨10, .bf16⟩ 4 others : ℚ) - exactShare ⟨10, .bf16⟩ 4 last| ≤
        (others.length : ℚ) / 2 := by
  have hnear := @layers_near_shares ⟨10, .bf16⟩
    [{ gpus := [bf16Gpu 0 2, bf16Gpu 1 1, bf16Gpu 2 1] }] 4 (by decide +kernel)
  rw [if_neg (by decide)] at hnear
  obtain ⟨others, last, hsplit, -, hbound, -⟩ := hnear
  exact ⟨others, last, hsplit, hbound⟩

end GpuCluster.Scheduler
