import GpuCluster.Foundation.Binary
import GpuCluster.Scheduler.Shares
import Mathlib.Data.UInt

/-! # When a plan is weighted by free VRAM

The machine computes shares in `f64`. These are monotone in the free VRAM, but
the last GPU, the one with the least of it, is given what the others leave.
-/

namespace GpuCluster.Scheduler

open Foundation Proto

namespace Arithmetic

/-- A result of `f64` arithmetic. -/
def f64 (x : ℚ) : ℚ := roundBinary 53 x

/-- The rounded share as the code computes it; the cast of a `u32` is exact. -/
def layersOfF64 (free total : UInt64) (modelLayers : UInt32) : UInt32 :=
  let share := f64 (f64 free.toNat / f64 total.toNat)
  castU32 (f64 (share * modelLayers.toNat))

/-- Shares in `f64`, and integer operations that wrap unless overflow is checked. -/
def machine (overflowChecks : Bool) : Arithmetic where
  addU64 a b := if overflowChecks then checked.addU64 a b else some (a + b)
  addU32 a b := if overflowChecks then checked.addU32 a b else some (a + b)
  subU32 a b := if overflowChecks then checked.subU32 a b else some (a - b)
  layersOf := layersOfF64

theorem machine_modular (overflowChecks : Bool) : (machine overflowChecks).Modular := by
  cases overflowChecks with
  | true => exact ⟨checked_modular.addU32, checked_modular.subU32⟩
  | false =>
      exact ⟨fun hadd => (Option.some.inj hadd).symm, fun hsub => (Option.some.inj hsub).symm⟩

theorem foldlM_addU64_wrapping (values : List UInt64) (acc : UInt64) :
    values.foldlM (machine false).addU64 acc = some (acc + values.sum) := by
  induction values generalizing acc with
  | nil => simp
  | cons value rest ih =>
      rw [List.foldlM_cons, List.sum_cons, ← UInt64.add_assoc]
      exact ih (acc + value)

theorem ofNat_sum_toNat (values : List UInt64) :
    UInt64.ofNat (values.map UInt64.toNat).sum = values.sum := by
  induction values with
  | nil => rfl
  | cons value rest ih =>
      rw [List.map_cons, List.sum_cons, List.sum_cons, UInt64.ofNat_add, ih, UInt64.ofNat_toNat]

theorem sumU64_machine (overflowChecks : Bool) (values : List UInt64) :
    (machine overflowChecks).sumU64 values =
      if overflowChecks = true → (values.map UInt64.toNat).sum < 2 ^ 64 then some values.sum
      else none := by
  cases overflowChecks with
  | true =>
      change checked.sumU64 values = _
      rw [sumU64_checked, ofNat_sum_toNat]
      simp only [forall_const]
  | false =>
      rw [sumU64, foldlM_addU64_wrapping]
      simp

theorem castU32_mono {x y : ℚ} (hxy : x ≤ y) : castU32 x ≤ castU32 y := by
  have hround : (roundHalfAway x).toNat ≤ (roundHalfAway y).toNat :=
    Int.toNat_le_toNat (roundHalfAway_mono hxy)
  have hfits : ∀ n : ℕ, min n (2 ^ 32 - 1) < 2 ^ 32 := fun n => by omega
  rw [castU32, castU32, UInt32.le_iff_toNat_le, UInt32.toNat_ofNat_of_lt' (hfits _),
    UInt32.toNat_ofNat_of_lt' (hfits _)]
  exact min_le_min_right _ hround

theorem f64_nonneg {x : ℚ} (hx : 0 ≤ x) : 0 ≤ f64 x := roundBinary_nonneg hx

theorem f64_mono {x y : ℚ} (hx : 0 ≤ x) (hxy : x ≤ y) : f64 x ≤ f64 y :=
  roundBinary_mono (by norm_num) hx hxy

/-- More free VRAM is no fewer layers. -/
theorem layersOfF64_mono {free more : UInt64} (hle : free ≤ more) (total : UInt64)
    (modelLayers : UInt32) :
    layersOfF64 free total modelLayers ≤ layersOfF64 more total modelLayers := by
  have htotal : 0 ≤ f64 total.toNat := f64_nonneg (Nat.cast_nonneg _)
  have hfree : 0 ≤ f64 free.toNat := f64_nonneg (Nat.cast_nonneg _)
  have hcast : f64 free.toNat ≤ f64 more.toNat :=
    f64_mono (Nat.cast_nonneg _) (Nat.cast_le.mpr (UInt64.le_iff_toNat_le.mp hle))
  have hshare : f64 (f64 free.toNat / f64 total.toNat) ≤ f64 (f64 more.toNat / f64 total.toNat) :=
    f64_mono (div_nonneg hfree htotal) (div_le_div_of_nonneg_right hcast htotal)
  have hlayers : (0 : ℚ) ≤ modelLayers.toNat := Nat.cast_nonneg _
  apply castU32_mono
  exact f64_mono (mul_nonneg (f64_nonneg (div_nonneg hfree htotal)) hlayers)
    (mul_le_mul_of_nonneg_right hshare hlayers)

theorem layersOfF64_zero (total : UInt64) (modelLayers : UInt32) :
    layersOfF64 0 total modelLayers = 0 := by
  have hround : roundHalfAway 0 = 0 := by decide +kernel
  simp [layersOfF64, f64, castU32, hround]

end Arithmetic

section Loop

variable (total : UInt64) (modelLayers : UInt32)

/-- Wrapping arithmetic never stops the loop. -/
theorem layerRanges_wrapping_isSome (cursor : UInt32) (sizes : List UInt64) :
    (layerRanges (.machine false) total modelLayers cursor sizes).isSome = true := by
  induction sizes generalizing cursor with
  | nil => rfl
  | cons free rest ih =>
      obtain ⟨layers, hlayers⟩ : ∃ layers, layersAt (.machine false) total modelLayers cursor free
          rest.isEmpty = some layers := by
        rw [layersAt]
        split
        · exact ⟨_, rfl⟩
        · exact ⟨_, rfl⟩
      rw [layerRanges, hlayers, Option.bind_some]
      split
      · rw [Option.isSome_map]
        exact ih cursor
      · change (Option.map _ (layerRanges _ total modelLayers (cursor + layers) rest)).isSome = true
        rw [Option.isSome_map]
        exact ih (cursor + layers)

/-- Checked arithmetic stops the loop when the shares exceed the model. -/
theorem layerRanges_checked_isSome (cursor : UInt32) (sizes : List UInt64) (last : UInt64) :
    (layerRanges (.machine true) total modelLayers cursor (sizes ++ [last])).isSome = true ↔
      cursor.toNat + (sizes.map fun free =>
        (Arithmetic.layersOfF64 free total modelLayers).toNat).sum ≤ modelLayers.toNat := by
  have hbound := modelLayers.toNat_lt
  induction sizes generalizing cursor with
  | nil =>
      change ((Arithmetic.checked.subU32 modelLayers cursor).bind _).isSome = true ↔
        cursor.toNat ≤ modelLayers.toNat
      rcases Nat.lt_or_ge modelLayers.toNat cursor.toNat with hlt | hle
      · rw [Arithmetic.subU32_checked_none hlt]
        simp [hlt]
      · obtain ⟨layers, hsub, hlayers⟩ := Arithmetic.subU32_checked hle
        rw [hsub, Option.bind_some]
        refine iff_of_true ?_ hle
        split
        · rfl
        · obtain ⟨stop, hadd, -⟩ :=
            Arithmetic.addU32_checked (a := cursor) (b := layers) (by omega)
          change ((Arithmetic.checked.addU32 cursor layers).bind _).isSome = true
          rw [hadd]
          rfl
  | cons free rest ih =>
      have hlayers : layersAt (.machine true) total modelLayers cursor free
          (rest ++ [last]).isEmpty = some (Arithmetic.layersOfF64 free total modelLayers) := by
        simp [layersAt, Arithmetic.machine]
      rw [List.cons_append, layerRanges, hlayers, Option.bind_some, List.map_cons, List.sum_cons]
      generalize Arithmetic.layersOfF64 free total modelLayers = layers
      split
      next hzero =>
        rw [Option.isSome_map, hzero, UInt32.toNat_zero, Nat.zero_add]
        exact ih cursor
      next =>
        change ((Arithmetic.checked.addU32 cursor layers).bind _).isSome = true ↔ _
        cases hadd : Arithmetic.checked.addU32 cursor layers with
        | none =>
            have hover : 2 ^ 32 ≤ cursor.toNat + layers.toNat := by
              by_contra hlt
              obtain ⟨stop, hstop, -⟩ := Arithmetic.addU32_checked (not_le.mp hlt)
              rw [hadd] at hstop
              cases hstop
            rw [Option.bind_none]
            refine iff_of_false Bool.false_ne_true ?_
            omega
        | some stop =>
            have hstop := Arithmetic.addU32_checked_eq hadd
            rw [Option.bind_some, Option.isSome_map, ← Nat.add_assoc, ← hstop]
            exact ih stop

theorem layerRanges_machine_isSome (overflowChecks : Bool) (sizes : List UInt64) (last : UInt64) :
    (layerRanges (.machine overflowChecks) total modelLayers 0 (sizes ++ [last])).isSome = true ↔
      (overflowChecks = true → (sizes.map fun free =>
        (Arithmetic.layersOfF64 free total modelLayers).toNat).sum ≤ modelLayers.toNat) := by
  cases overflowChecks with
  | true =>
      rw [layerRanges_checked_isSome, UInt32.toNat_zero, Nat.zero_add]
      simp
  | false => simp [layerRanges_wrapping_isSome]

end Loop

/-! ## Weighted plans -/

/-- More free VRAM is no fewer layers, and none is none. -/
structure WeightedByFree (placed : List ((NodeInfo × GpuInfo) × Option LayerRange)) : Prop where
  monotone : ∀ a ∈ placed, ∀ b ∈ placed, b.1.2.vramFreeBytes < a.1.2.vramFreeBytes →
    layersGiven b.2 ≤ layersGiven a.2
  noFree : ∀ a ∈ placed, a.1.2.vramFreeBytes = 0 → layersGiven a.2 = 0

/-- The stages of the plan, if the arithmetic gives one, are those of layers
weighted by free VRAM. -/
def PlanWeighted (A : Arithmetic) (req : PlacementRequest) (nodes : List NodeInfo) : Prop :=
  ∀ stages, plan A req nodes = some stages →
    ∃ placed, placements A req nodes = some placed ∧ placed.filterMap stageAt = stages ∧
      WeightedByFree placed

theorem planWeighted_iff_placements {A : Arithmetic} {req : PlacementRequest}
    {nodes : List NodeInfo} :
    PlanWeighted A req nodes ↔
      ∀ placed, placements A req nodes = some placed → WeightedByFree placed := by
  constructor
  · intro hweighted placed hplaced
    obtain ⟨_, hagain, -, hfree⟩ := hweighted _ ((plan_eq_some_iff A).mpr ⟨placed, hplaced, rfl⟩)
    obtain rfl := Option.some.inj (hplaced.symm.trans hagain)
    exact hfree
  · intro hweighted stages hstages
    obtain ⟨placed, hplaced, hstages⟩ := (plan_eq_some_iff A).mp hstages
    exact ⟨placed, hplaced, hstages, hweighted placed hplaced⟩

/-- If there is free VRAM to share out, and neither its sum nor the shares
overflow where that is checked: what the rounded shares of the other GPUs leave
for the last one in sorted order is no more than the share of any GPU with more
free VRAM, and nothing if the last one has none. -/
def RemainderInLine (overflowChecks : Bool) (req : PlacementRequest) (nodes : List NodeInfo) :
    Prop :=
  let gpus := sortByFree (eligible req nodes)
  let total := (gpus.map (·.2.vramFreeBytes)).sum
  let share := fun gpu : NodeInfo × GpuInfo =>
    Arithmetic.layersOfF64 gpu.2.vramFreeBytes total req.modelTotalLayers
  ∀ others last, gpus = others ++ [last] → total ≠ 0 →
    (overflowChecks = true → (gpus.map (·.2.vramFreeBytes.toNat)).sum < 2 ^ 64 ∧
      (others.map fun gpu => (share gpu).toNat).sum ≤ req.modelTotalLayers.toNat) →
    (∀ gpu ∈ others, last.2.vramFreeBytes < gpu.2.vramFreeBytes →
      req.modelTotalLayers - (others.map share).sum ≤ share gpu) ∧
    (last.2.vramFreeBytes = 0 → req.modelTotalLayers - (others.map share).sum = 0)

section Weighted

variable {others : List (NodeInfo × GpuInfo)} {last : NodeInfo × GpuInfo}
  {placed : List ((NodeInfo × GpuInfo) × Option LayerRange)}
  {share : NodeInfo × GpuInfo → UInt32} {remainder : UInt32}
  (hgpus : placed.map Prod.fst = others ++ [last])
  (hgiven : placed.map (fun placement => layersGiven placement.2) =
    others.map share ++ [remainder])
include hgpus hgiven

theorem placed_pairs : placed.map (fun placement => (placement.1, layersGiven placement.2)) =
    others.map (fun gpu => (gpu, share gpu)) ++ [(last, remainder)] := by
  have hself : others.zip (others.map share) = others.map fun gpu => (gpu, share gpu) := by
    simpa only [List.map_id, id_eq] using
      List.zip_map' (f := id) (g := share) (l := others)
  have hzip := congrArg₂ List.zip hgpus hgiven
  rw [List.zip_map', List.zip_append (List.length_map _).symm, hself] at hzip
  exact hzip

theorem layersGiven_of_mem {placement : (NodeInfo × GpuInfo) × Option LayerRange}
    (hmem : placement ∈ placed) :
    (placement.1 ∈ others ∧ layersGiven placement.2 = share placement.1) ∨
      (placement.1 = last ∧ layersGiven placement.2 = remainder) := by
  have hpair := List.mem_map_of_mem (f := fun placement : (NodeInfo × GpuInfo) ×
    Option LayerRange => (placement.1, layersGiven placement.2)) hmem
  rw [placed_pairs hgpus hgiven, List.mem_append, List.mem_singleton] at hpair
  rcases hpair with hother | hlast
  · obtain ⟨gpu, hgpu, heq⟩ := List.mem_map.mp hother
    obtain ⟨hfst, hsnd⟩ := Prod.mk.inj heq
    rw [← hfst]
    exact .inl ⟨hgpu, hsnd.symm⟩
  · obtain ⟨hfst, hsnd⟩ := Prod.mk.inj hlast
    exact .inr ⟨hfst, hsnd⟩

theorem exists_placement_of_other {gpu : NodeInfo × GpuInfo} (hgpu : gpu ∈ others) :
    ∃ placement ∈ placed, placement.1 = gpu ∧ layersGiven placement.2 = share gpu := by
  have hpair : (gpu, share gpu) ∈ placed.map fun placement =>
      (placement.1, layersGiven placement.2) := by
    rw [placed_pairs hgpus hgiven]
    exact List.mem_append_left _ (List.mem_map_of_mem hgpu)
  obtain ⟨placement, hmem, heq⟩ := List.mem_map.mp hpair
  exact ⟨placement, hmem, Prod.mk.inj heq⟩

theorem exists_placement_of_last :
    ∃ placement ∈ placed, placement.1 = last ∧ layersGiven placement.2 = remainder := by
  have hpair : (last, remainder) ∈ placed.map fun placement =>
      (placement.1, layersGiven placement.2) := by
    rw [placed_pairs hgpus hgiven]
    exact List.mem_append_right _ (List.mem_singleton_self _)
  obtain ⟨placement, hmem, heq⟩ := List.mem_map.mp hpair
  exact ⟨placement, hmem, Prod.mk.inj heq⟩

/-- Among sorted GPUs with monotone shares, only the remainder can be out of line. -/
theorem weightedByFree_iff
    (hsorted : (others ++ [last]).Pairwise fun a b => b.2.vramFreeBytes ≤ a.2.vramFreeBytes)
    (hmono : ∀ a b : NodeInfo × GpuInfo, b.2.vramFreeBytes ≤ a.2.vramFreeBytes → share b ≤ share a)
    (hzero : ∀ a : NodeInfo × GpuInfo, a.2.vramFreeBytes = 0 → share a = 0) :
    WeightedByFree placed ↔
      (∀ gpu ∈ others, last.2.vramFreeBytes < gpu.2.vramFreeBytes → remainder ≤ share gpu) ∧
      (last.2.vramFreeBytes = 0 → remainder = 0) := by
  constructor
  · intro hweighted
    obtain ⟨final, hfinal, hlast, hremainder⟩ := exists_placement_of_last hgpus hgiven
    refine ⟨fun gpu hgpu hless => ?_, fun hnone => ?_⟩
    · obtain ⟨placement, hplacement, hfst, hshare⟩ := exists_placement_of_other hgpus hgiven hgpu
      have hle := hweighted.monotone placement hplacement final hfinal (by rwa [hfst, hlast])
      rwa [hremainder, hshare] at hle
    · have hnoLayers := hweighted.noFree final hfinal (by rw [hlast, hnone])
      rwa [hremainder] at hnoLayers
  · rintro ⟨hless, hnone⟩
    constructor
    · intro a ha b hb hba
      rcases layersGiven_of_mem hgpus hgiven ha with ⟨haIn, haGiven⟩ | ⟨haLast, haGiven⟩ <;>
      rcases layersGiven_of_mem hgpus hgiven hb with ⟨hbIn, hbGiven⟩ | ⟨hbLast, hbGiven⟩ <;>
      rw [haGiven, hbGiven]
      · exact hmono _ _ (UInt64.le_of_lt hba)
      · rw [hbLast] at hba
        exact hless _ haIn hba
      -- nothing before the last GPU is smaller than it
      · have hle := (List.pairwise_append.mp hsorted).2.2 _ hbIn _ (List.mem_singleton_self _)
        rw [haLast] at hba
        exact absurd hba (UInt64.not_lt.mpr hle)
      · exact UInt32.le_refl _
    · intro a ha hfree
      rcases layersGiven_of_mem hgpus hgiven ha with ⟨-, hgivenA⟩ | ⟨hlast, hgivenA⟩
      · rw [hgivenA, hzero _ hfree]
      · rw [hgivenA, hnone (hlast ▸ hfree)]

end Weighted

/-- A plan that gives nothing is weighted. -/
theorem weightedByFree_none {gpus : List (NodeInfo × GpuInfo)} :
    WeightedByFree (gpus.map (·, none)) := by
  have hnone : ∀ placement ∈ gpus.map (·, (none : Option LayerRange)),
      layersGiven placement.2 = 0 := by
    intro placement hmem
    obtain ⟨gpu, -, rfl⟩ := List.mem_map.mp hmem
    rfl
  constructor
  · intro a ha b hb _
    rw [hnone a ha, hnone b hb]
    exact UInt32.le_refl _
  · exact fun a ha _ => hnone a ha

section Plan

variable (overflowChecks : Bool) (req : PlacementRequest) (nodes : List NodeInfo)

variable {overflowChecks req nodes} in
/-- With free VRAM to share out, the loop decides. -/
theorem planWeighted_of_free {total : UInt64}
    (hsum : (Arithmetic.machine overflowChecks).sumU64
      ((sortByFree (eligible req nodes)).map (·.2.vramFreeBytes)) = some total)
    (hpos : total ≠ 0) {others : List (NodeInfo × GpuInfo)} {last : NodeInfo × GpuInfo}
    (hsplit : sortByFree (eligible req nodes) = others ++ [last])
    {share : NodeInfo × GpuInfo → UInt32} (hshare : share = fun gpu =>
      Arithmetic.layersOfF64 gpu.2.vramFreeBytes total req.modelTotalLayers) :
    PlanWeighted (.machine overflowChecks) req nodes ↔
      ((overflowChecks = true →
        (others.map fun gpu => (share gpu).toNat).sum ≤ req.modelTotalLayers.toNat) →
      (∀ gpu ∈ others, last.2.vramFreeBytes < gpu.2.vramFreeBytes →
        req.modelTotalLayers - (others.map share).sum ≤ share gpu) ∧
      (last.2.vramFreeBytes = 0 → req.modelTotalLayers - (others.map share).sum = 0)) := by
  rw [planWeighted_iff_placements]
  have hloop := layerRanges_machine_isSome total req.modelTotalLayers overflowChecks
    (others.map (·.2.vramFreeBytes)) last.2.vramFreeBytes
  have hplan := placements_of_free hsum hpos
  rw [List.map_map, ← List.map_singleton (f := fun gpu : NodeInfo × GpuInfo =>
    gpu.2.vramFreeBytes), ← List.map_append, ← hsplit] at hloop
  cases hranges : layerRanges (.machine overflowChecks) total req.modelTotalLayers 0
      ((sortByFree (eligible req nodes)).map (·.2.vramFreeBytes)) with
  -- an overflow: there is no plan, and the shares exceed the model
  | none =>
      rw [hranges] at hloop hplan
      refine iff_of_true (fun placed hplaced => ?_) fun hguard => ?_
      · rw [hplan] at hplaced
        cases hplaced
      · subst hshare
        exact absurd (hloop.mpr hguard) Bool.false_ne_true
  | some ranges =>
      rw [hranges] at hloop hplan
      have hguard := hloop.mp rfl
      have hgpus := (placements_gpus _ hplan).trans hsplit
      have hgiven := layersGiven_placements (Arithmetic.machine_modular overflowChecks) hsum hpos
        hsplit hplan
      have hsorted := sortByFree_pairwise (eligible req nodes)
      rw [hsplit] at hsorted
      have hiff := weightedByFree_iff hgpus hgiven hsorted
        (fun a b hle => Arithmetic.layersOfF64_mono hle total req.modelTotalLayers)
        (fun a hnone => by
          change Arithmetic.layersOfF64 a.2.vramFreeBytes total req.modelTotalLayers = 0
          rw [hnone, Arithmetic.layersOfF64_zero])
      subst hshare
      constructor
      · intro hweighted _
        exact hiff.mp (hweighted _ hplan)
      · intro hline placed hplaced
        rw [hplan] at hplaced
        obtain rfl := Option.some.inj hplaced
        exact hiff.mpr (hline hguard)

/-- A plan is weighted by free VRAM exactly when the remainder for the last GPU
is in line. -/
theorem planWeighted_iff :
    PlanWeighted (.machine overflowChecks) req nodes ↔
      RemainderInLine overflowChecks req nodes := by
  have hsorted := sortByFree_pairwise (eligible req nodes)
  have hsum := Arithmetic.sumU64_machine overflowChecks
    ((sortByFree (eligible req nodes)).map (·.2.vramFreeBytes))
  rw [List.map_map] at hsum
  by_cases hfits : overflowChecks = true →
    ((sortByFree (eligible req nodes)).map (·.2.vramFreeBytes.toNat)).sum < 2 ^ 64
  swap
  · have hnone := placements_of_overflow (hsum.trans (if_neg hfits))
    rw [planWeighted_iff_placements]
    refine iff_of_true (fun placed hplaced => ?_) fun others last _ _ hguard => ?_
    · rw [hnone] at hplaced
      cases hplaced
    · exact absurd (fun hchecks => (hguard hchecks).1) hfits
  replace hsum := hsum.trans (if_pos hfits)
  by_cases hzero : ((sortByFree (eligible req nodes)).map (·.2.vramFreeBytes)).sum = 0
  · have hplaced := placements_of_noFree (hsum.trans (congrArg some hzero))
    rw [planWeighted_iff_placements]
    refine iff_of_true (fun placed hsome => ?_) fun others last _ hpos => absurd hzero hpos
    rw [hplaced] at hsome
    obtain rfl := Option.some.inj hsome
    exact weightedByFree_none
  have hne : sortByFree (eligible req nodes) ≠ [] := by
    intro hnil
    rw [hnil] at hzero
    exact hzero rfl
  obtain ⟨others, last, hsplit⟩ := exists_eq_concat hne
  rw [planWeighted_of_free hsum hzero hsplit rfl]
  constructor
  · intro hline others' last' hsplit' _ hguard
    obtain ⟨rfl, hlast⟩ := List.append_inj' (hsplit.symm.trans hsplit') rfl
    obtain rfl := List.singleton_inj.mp hlast
    exact hline fun hchecks => (hguard hchecks).2
  · intro hline hguard
    exact hline others last hsplit hzero fun hchecks => ⟨hfits hchecks, hguard hchecks⟩

end Plan

/-- Five equal GPUs, one without free VRAM and 7 layers: each share of 7/5 rounds
to 1, and the GPU without free VRAM is given the other two. -/
theorem fullGpu_gets_remainder : ¬PlanWeighted (.machine true) ⟨7, .bf16⟩
    [{ nodeId := "a", gpus := [bf16Gpu 0 24000000000, bf16Gpu 1 24000000000,
      bf16Gpu 2 24000000000, bf16Gpu 3 24000000000, bf16Gpu 4 24000000000, bf16Gpu 5 0] }] := by
  intro hweighted
  have hrun : (placements (.machine true) ⟨7, .bf16⟩
      [{ nodeId := "a", gpus := [bf16Gpu 0 24000000000, bf16Gpu 1 24000000000,
        bf16Gpu 2 24000000000, bf16Gpu 3 24000000000, bf16Gpu 4 24000000000, bf16Gpu 5 0] }]).any
      (·.any fun placement =>
        placement.1.2.vramFreeBytes = 0 && layersGiven placement.2 == 2) = true := by
    decide +kernel
  obtain ⟨placed, hplaced, hany⟩ := (Option.any_eq_true _ _).mp hrun
  obtain ⟨placement, hmem, hfull⟩ := List.any_eq_true.mp hany
  simp only [Bool.and_eq_true, decide_eq_true_eq, beq_iff_eq] at hfull
  have hfree := planWeighted_iff_placements.mp hweighted placed hplaced
  have hnone := hfree.noFree placement hmem hfull.1
  rw [hfull.2] at hnone
  cases hnone

end GpuCluster.Scheduler