import GpuCluster.Foundation.Lists
import GpuCluster.Foundation.Tiling
import GpuCluster.Scheduler.Placement
import Mathlib.Algebra.Order.BigOperators.Group.List

/-! # When a plan tiles the model

The last GPU is given the difference between the model's layers and those
already placed. The plan exists, and then tiles the model, exactly when the
free VRAM adds up in 64 bits and the rounded shares of all GPUs but the
smallest stay within the model.
-/

namespace GpuCluster.Scheduler

open Foundation Proto

/-- The nearest integer to a GPU's share of the layers. -/
def shareOf (total modelLayers free : ℕ) : ℕ := nearestNat (free * modelLayers) total

/-- Free VRAM of the GPUs a request may use. -/
def freeVram (req : PlacementRequest) (nodes : List NodeInfo) : List ℕ :=
  (eligible req nodes).map (·.2.vramFreeBytes.toNat)

/-- `plan` returns, and the stages tile the model if there is anything to place
and something to place it on; otherwise there are none. -/
def PlanTiles (req : PlacementRequest) (nodes : List NodeInfo) : Prop :=
  ∃ stages, plan .checked req nodes = some stages ∧
    if 0 < req.modelTotalLayers ∧ ∃ g ∈ eligible req nodes, 0 < g.2.vramFreeBytes then
      Tiles (·.layerStart.toNat) (·.layerEnd.toNat) 0 req.modelTotalLayers.toNat stages
    else stages = []

/-- The free VRAM adds up in 64 bits, and the rounded shares of all GPUs but one
with the least free VRAM add up to no more than the layers. -/
def SharesFit (req : PlacementRequest) (nodes : List NodeInfo) : Prop :=
  let free := freeVram req nodes
  let share := shareOf free.sum req.modelTotalLayers.toNat
  free.sum < 2 ^ 64 ∧
    ∀ least ∈ free, (∀ v ∈ free, least ≤ v) →
      (free.map share).sum ≤ req.modelTotalLayers.toNat + share least

/-! ## Machine arithmetic -/

namespace Arithmetic

theorem foldlM_addU64_checked (values : List UInt64) (acc : UInt64) :
    values.foldlM checked.addU64 acc =
      if acc.toNat + (values.map UInt64.toNat).sum < 2 ^ 64 then
        some (.ofNat (acc.toNat + (values.map UInt64.toNat).sum))
      else none := by
  induction values generalizing acc with
  | nil => simp [acc.toNat_lt]
  | cons value rest ih =>
      simp only [List.foldlM_cons, List.map_cons, List.sum_cons]
      change (if acc.toNat + value.toNat < 2 ^ 64 then some (acc + value) else none).bind _ = _
      split
      next hfits =>
        have hadd : (acc + value).toNat = acc.toNat + value.toNat := by
          rw [UInt64.toNat_add, Nat.mod_eq_of_lt hfits]
        rw [Option.bind_some, ih, hadd, Nat.add_assoc]
      next hover =>
        rw [Option.bind_none, if_neg (by omega)]

/-- A checked sum is the sum of naturals, when that fits. -/
theorem sumU64_checked (values : List UInt64) :
    checked.sumU64 values =
      if (values.map UInt64.toNat).sum < 2 ^ 64 then
        some (.ofNat (values.map UInt64.toNat).sum)
      else none := by
  have h := foldlM_addU64_checked values 0
  simpa only [sumU64, UInt64.toNat_zero, Nat.zero_add] using h

/-- A share of part of a whole fits the cast, so it is the nearest integer. -/
theorem toNat_layersOf_checked {free total : UInt64} (hpos : 0 < total) (hle : free ≤ total)
    (modelLayers : UInt32) :
    (checked.layersOf free total modelLayers).toNat =
      shareOf total.toNat modelLayers.toNat free.toNat := by
  have hnat : (free.toNat : ℚ) / total.toNat * modelLayers.toNat =
      ((free.toNat * modelLayers.toNat : ℕ) : ℚ) / (total.toNat : ℕ) := by
    push_cast
    ring
  have hbound : nearestNat (free.toNat * modelLayers.toNat) total.toNat ≤ modelLayers.toNat :=
    nearestNat_mul_le (UInt64.le_iff_toNat_le.mp hle)
  have hlt := modelLayers.toNat_lt
  simp only [checked, castU32]
  rw [hnat, roundHalfAway_div _ (UInt64.lt_iff_toNat_lt.mp hpos), Int.toNat_natCast,
    Nat.min_eq_left (by omega), UInt32.toNat_ofNat_of_lt' (hbound.trans_lt hlt)]
  rfl

theorem subU32_checked {a b : UInt32} (hle : b.toNat ≤ a.toNat) :
    ∃ c, checked.subU32 a b = some c ∧ c.toNat = a.toNat - b.toNat := by
  have hle' : b ≤ a := UInt32.le_iff_toNat_le.mpr hle
  exact ⟨a - b, if_pos hle', UInt32.toNat_sub_of_le _ _ hle'⟩

theorem subU32_checked_none {a b : UInt32} (hlt : a.toNat < b.toNat) :
    checked.subU32 a b = none :=
  if_neg fun hle => absurd (UInt32.le_iff_toNat_le.mp hle) (not_le.mpr hlt)

theorem addU32_checked {a b : UInt32} (hlt : a.toNat + b.toNat < 2 ^ 32) :
    ∃ c, checked.addU32 a b = some c ∧ c.toNat = a.toNat + b.toNat := by
  refine ⟨a + b, if_pos hlt, ?_⟩
  rw [UInt32.toNat_add, Nat.mod_eq_of_lt hlt]

theorem addU32_checked_eq {a b c : UInt32} (hadd : checked.addU32 a b = some c) :
    c.toNat = a.toNat + b.toNat := by
  simp only [checked] at hadd
  split at hadd
  next hlt =>
    cases hadd
    rw [UInt32.toNat_add, Nat.mod_eq_of_lt hlt]
  next => cases hadd

end Arithmetic

/-! ## The loop -/

/-- The last GPU: whatever the cursor has left, if anything. -/
theorem assign_singleton (A : Arithmetic) (total : UInt64) (modelLayers cursor : UInt32)
    (n : NodeInfo) (g : GpuInfo) :
    assign A total modelLayers cursor [(n, g)] =
      (A.subU32 modelLayers cursor).bind fun layers =>
        if layers = 0 then some [] else
          (A.addU32 cursor layers).map fun layerEnd => [stageOf n g cursor layerEnd] := by
  simp only [assign, List.isEmpty_nil, if_true, Option.bind_eq_bind, Option.bind_some,
    Option.pure_def, Option.map_eq_bind]
  rfl

/-- Any earlier GPU: its rounded share, or nothing. -/
theorem assign_cons_cons (A : Arithmetic) (total : UInt64) (modelLayers cursor : UInt32)
    (n : NodeInfo) (g : GpuInfo) (next : NodeInfo × GpuInfo) (later : List (NodeInfo × GpuInfo)) :
    assign A total modelLayers cursor ((n, g) :: next :: later) =
      let layers := A.layersOf g.vramFreeBytes total modelLayers
      if layers = 0 then assign A total modelLayers cursor (next :: later) else
        (A.addU32 cursor layers).bind fun layerEnd =>
          (assign A total modelLayers layerEnd (next :: later)).map
            (stageOf n g cursor layerEnd :: ·) := by
  rw [assign]
  simp only [List.isEmpty_cons, Bool.false_eq_true, if_false, Option.bind_eq_bind,
    Option.bind_some, Option.pure_def, Option.map_eq_bind]
  rfl

section Loop

variable {total : UInt64} (modelLayers : UInt32)

/-- What a GPU of the list adds to the cursor, unless it is the last. -/
def gpuShare (total : UInt64) (gpu : NodeInfo × GpuInfo) : ℕ :=
  shareOf total.toNat modelLayers.toNat gpu.2.vramFreeBytes.toNat

/-- While the shares before the last GPU stay within the model, the loop covers
what the cursor has left. -/
theorem assign_covers (hpos : 0 < total) {gpus : List (NodeInfo × GpuInfo)} (hne : gpus ≠ [])
    (hle : ∀ gpu ∈ gpus, gpu.2.vramFreeBytes ≤ total) {cursor : UInt32}
    (hfit : cursor.toNat + (gpus.dropLast.map (gpuShare modelLayers total)).sum ≤
      modelLayers.toNat) :
    ∃ stages, assign .checked total modelLayers cursor gpus = some stages ∧
      Covers (·.layerStart.toNat) (·.layerEnd.toNat) cursor.toNat modelLayers.toNat stages := by
  have hbound := modelLayers.toNat_lt
  induction gpus generalizing cursor with
  | nil => exact absurd rfl hne
  | cons gpu rest ih =>
      obtain ⟨n, g⟩ := gpu
      cases rest with
      | nil =>
          simp only [List.dropLast_singleton, List.map_nil, List.sum_nil, Nat.add_zero] at hfit
          obtain ⟨layers, hsub, hlayers⟩ := Arithmetic.subU32_checked hfit
          rw [assign_singleton, hsub, Option.bind_some]
          split
          next hzero =>
            subst hzero
            rw [UInt32.toNat_zero] at hlayers
            exact ⟨[], rfl, show cursor.toNat = modelLayers.toNat by omega⟩
          next hsome =>
            have hlayersPos : layers.toNat ≠ 0 := fun h => hsome (UInt32.toNat_inj.mp h)
            obtain ⟨stop, hadd, hstop⟩ :=
              Arithmetic.addU32_checked (a := cursor) (b := layers) (by omega)
            rw [hadd]
            exact ⟨_, rfl, rfl, show cursor.toNat < stop.toNat by omega,
              show stop.toNat = modelLayers.toNat by omega⟩
      | cons next later =>
          have hshare := Arithmetic.toNat_layersOf_checked hpos (hle _ (List.mem_cons_self ..))
            modelLayers
          have hrest : ∀ gpu ∈ next :: later, gpu.2.vramFreeBytes ≤ total :=
            fun gpu hmem => hle gpu (List.mem_cons_of_mem _ hmem)
          simp only [List.dropLast_cons_cons, List.map_cons, List.sum_cons] at hfit
          simp only [assign_cons_cons]
          generalize Arithmetic.layersOf .checked g.vramFreeBytes total modelLayers = layers at *
          rw [gpuShare, ← hshare] at hfit
          split
          -- a share of no layers makes no stage and leaves the cursor
          next hzero =>
            subst hzero
            rw [UInt32.toNat_zero] at hfit
            exact ih (List.cons_ne_nil _ _) hrest (by omega)
          next hsome =>
            have hlayersPos : layers.toNat ≠ 0 := fun h => hsome (UInt32.toNat_inj.mp h)
            obtain ⟨stop, hadd, hstop⟩ :=
              Arithmetic.addU32_checked (a := cursor) (b := layers) (by omega)
            obtain ⟨stages, hassign, hcovers⟩ :=
              ih (List.cons_ne_nil _ _) hrest
                (show stop.toNat + _ ≤ modelLayers.toNat by omega)
            rw [hadd, Option.bind_some, hassign]
            exact ⟨_, rfl, rfl, show cursor.toNat < stop.toNat by omega, hcovers⟩

/-- Once the shares before the last GPU exceed the model, the loop overflows. -/
theorem assign_overflows (hpos : 0 < total) {gpus : List (NodeInfo × GpuInfo)} (hne : gpus ≠ [])
    (hle : ∀ gpu ∈ gpus, gpu.2.vramFreeBytes ≤ total) {cursor : UInt32}
    (hover : modelLayers.toNat <
      cursor.toNat + (gpus.dropLast.map (gpuShare modelLayers total)).sum) :
    assign .checked total modelLayers cursor gpus = none := by
  induction gpus generalizing cursor with
  | nil => exact absurd rfl hne
  | cons gpu rest ih =>
      obtain ⟨n, g⟩ := gpu
      cases rest with
      | nil =>
          simp only [List.dropLast_singleton, List.map_nil, List.sum_nil, Nat.add_zero] at hover
          rw [assign_singleton, Arithmetic.subU32_checked_none hover, Option.bind_none]
      | cons next later =>
          have hshare := Arithmetic.toNat_layersOf_checked hpos (hle _ (List.mem_cons_self ..))
            modelLayers
          have hrest : ∀ gpu ∈ next :: later, gpu.2.vramFreeBytes ≤ total :=
            fun gpu hmem => hle gpu (List.mem_cons_of_mem _ hmem)
          simp only [List.dropLast_cons_cons, List.map_cons, List.sum_cons] at hover
          simp only [assign_cons_cons]
          generalize Arithmetic.layersOf .checked g.vramFreeBytes total modelLayers = layers at *
          rw [gpuShare, ← hshare] at hover
          split
          next hzero =>
            subst hzero
            rw [UInt32.toNat_zero] at hover
            exact ih (List.cons_ne_nil _ _) hrest (by omega)
          next =>
            -- the cursor may overflow first, else the subtraction at the end does
            cases hadd : Arithmetic.addU32 .checked cursor layers with
            | none => rfl
            | some stop =>
                have hstop := Arithmetic.addU32_checked_eq hadd
                have hnone := ih (List.cons_ne_nil _ _) hrest
                  (show modelLayers.toNat < stop.toNat + _ by omega)
                rw [Option.bind_some, hnone, Option.map_none]

end Loop

/-! ## The whole plan -/

theorem sortByFree_perm (gpus : List (NodeInfo × GpuInfo)) : (sortByFree gpus).Perm gpus :=
  List.perm_insertionSort _ gpus

theorem sortByFree_pairwise (gpus : List (NodeInfo × GpuInfo)) :
    (sortByFree gpus).Pairwise fun a b => b.2.vramFreeBytes ≤ a.2.vramFreeBytes := by
  have : Std.Total fun a b : NodeInfo × GpuInfo => b.2.vramFreeBytes ≤ a.2.vramFreeBytes :=
    ⟨fun _ _ => UInt64.le_total _ _⟩
  have : IsTrans _ fun a b : NodeInfo × GpuInfo => b.2.vramFreeBytes ≤ a.2.vramFreeBytes :=
    ⟨fun _ _ _ hab hbc => UInt64.le_trans hbc hab⟩
  exact List.pairwise_insertionSort _ gpus

section Plan

variable (req : PlacementRequest) (nodes : List NodeInfo)

theorem plan_checked_eq :
    plan .checked req nodes =
      if (freeVram req nodes).sum < 2 ^ 64 then
        if (freeVram req nodes).sum = 0 then some []
        else assign .checked (.ofNat (freeVram req nodes).sum) req.modelTotalLayers 0
          (sortByFree (eligible req nodes))
      else none := by
  have hfree : (((sortByFree (eligible req nodes)).map (·.2.vramFreeBytes)).map
      UInt64.toNat).sum = (freeVram req nodes).sum := by
    rw [List.map_map]
    exact ((sortByFree_perm _).map _).sum_eq
  rw [plan]
  simp only [Arithmetic.sumU64_checked, hfree]
  split
  next hfits =>
    have hzero : UInt64.ofNat (freeVram req nodes).sum = 0 ↔ (freeVram req nodes).sum = 0 := by
      rw [← UInt64.toNat_inj, UInt64.toNat_ofNat_of_lt' hfits, UInt64.toNat_zero]
    simp only [Option.bind_eq_bind, Option.bind_some, hzero, Option.pure_def]
  next => rfl

/-- The shares before the last GPU, against a GPU with the least free VRAM. -/
theorem dropLast_shares_le_iff (share : ℕ → ℕ) (bound : ℕ) (hne : eligible req nodes ≠ []) :
    (∀ least ∈ freeVram req nodes, (∀ v ∈ freeVram req nodes, least ≤ v) →
        ((freeVram req nodes).map share).sum ≤ bound + share least) ↔
      ((sortByFree (eligible req nodes)).dropLast.map
        fun gpu => share gpu.2.vramFreeBytes.toNat).sum ≤ bound := by
  have hperm := sortByFree_perm (eligible req nodes)
  have hsorted := sortByFree_pairwise (eligible req nodes)
  generalize sortByFree (eligible req nodes) = gpus at hperm hsorted ⊢
  have hgpus : gpus ≠ [] := fun h => hne (hperm.symm.trans (h ▸ .refl _)).eq_nil
  obtain ⟨init, last, rfl⟩ := exists_eq_concat hgpus
  have hmem : ∀ v, v ∈ freeVram req nodes ↔
      (∃ gpu ∈ init, gpu.2.vramFreeBytes.toNat = v) ∨ last.2.vramFreeBytes.toNat = v := by
    intro v
    rw [freeVram, ← (hperm.map _).mem_iff]
    simp [eq_comm (a := v)]
  have hsum : ((freeVram req nodes).map share).sum =
      (init.map fun gpu => share gpu.2.vramFreeBytes.toNat).sum +
        share last.2.vramFreeBytes.toNat := by
    rw [freeVram, List.map_map, ← (hperm.map _).sum_eq, List.map_append, List.sum_append]
    simp [Function.comp_def]
  have hleast : ∀ v ∈ freeVram req nodes, last.2.vramFreeBytes.toNat ≤ v := by
    intro v hv
    rcases (hmem v).mp hv with ⟨gpu, hgpu, rfl⟩ | rfl
    · exact UInt64.le_iff_toNat_le.mp
        ((List.pairwise_append.mp hsorted).2.2 gpu hgpu last (List.mem_singleton_self _))
    · exact le_rfl
  rw [List.dropLast_concat]
  constructor
  · intro hall
    have := hall _ ((hmem _).mpr (.inr rfl)) hleast
    omega
  · intro hle least hin hmin
    have hlast := hmin _ ((hmem _).mpr (.inr rfl))
    obtain rfl : least = last.2.vramFreeBytes.toNat := le_antisymm hlast (hleast least hin)
    omega

/-- No free VRAM, nothing to place: every share is 0. -/
theorem shareOf_zero (modelLayers free : ℕ) : shareOf 0 modelLayers free = 0 := by
  simp [shareOf, nearestNat]

theorem exists_free_iff :
    (∃ g ∈ eligible req nodes, 0 < g.2.vramFreeBytes) ↔ (freeVram req nodes).sum ≠ 0 := by
  rw [ne_eq, List.sum_eq_zero_iff, freeVram]
  simp only [List.forall_mem_map, not_forall, exists_prop, UInt64.lt_iff_toNat_lt,
    UInt64.toNat_zero, Nat.pos_iff_ne_zero]

/-- With free VRAM to share out, the loop alone decides. -/
theorem planTiles_of_free (hfits : (freeVram req nodes).sum < 2 ^ 64)
    (hfree : (freeVram req nodes).sum ≠ 0) :
    PlanTiles req nodes ↔
      ((sortByFree (eligible req nodes)).dropLast.map (gpuShare req.modelTotalLayers
        (.ofNat (freeVram req nodes).sum))).sum ≤ req.modelTotalLayers.toNat := by
  have htotal : (UInt64.ofNat (freeVram req nodes).sum).toNat = (freeVram req nodes).sum :=
    UInt64.toNat_ofNat_of_lt' hfits
  have hpos : 0 < UInt64.ofNat (freeVram req nodes).sum := by
    rw [UInt64.lt_iff_toNat_lt, htotal, UInt64.toNat_zero]
    exact Nat.pos_of_ne_zero hfree
  have hperm := sortByFree_perm (eligible req nodes)
  have hle : ∀ gpu ∈ sortByFree (eligible req nodes),
      gpu.2.vramFreeBytes ≤ .ofNat (freeVram req nodes).sum := by
    intro gpu hgpu
    rw [UInt64.le_iff_toNat_le, htotal]
    exact List.le_sum_of_mem (List.mem_map_of_mem (hperm.mem_iff.mp hgpu))
  have hne : sortByFree (eligible req nodes) ≠ [] := by
    intro hnil
    obtain ⟨g, hg, -⟩ := (exists_free_iff req nodes).mpr hfree
    rw [← hperm.mem_iff, hnil] at hg
    cases hg
  simp only [PlanTiles, plan_checked_eq, if_pos hfits, exists_free_iff, hfree,
    ne_eq, not_false_eq_true, and_true]
  constructor
  -- the loop either covers the model or overflows, so a plan excludes the second
  · rintro ⟨stages, hassign, -⟩
    by_contra hover
    rw [assign_overflows req.modelTotalLayers hpos hne hle (by
      rw [UInt32.toNat_zero]
      omega)] at hassign
    cases hassign
  · intro hfit
    obtain ⟨stages, hassign, hcovers⟩ := assign_covers req.modelTotalLayers hpos hne hle
      (show (0 : UInt32).toNat + _ ≤ req.modelTotalLayers.toNat by
        rwa [UInt32.toNat_zero, zero_add])
    rw [UInt32.toNat_zero] at hcovers
    refine ⟨stages, hassign, ?_⟩
    split
    next hlayers => exact hcovers.tiles (Nat.ne_of_lt (UInt32.lt_iff_toNat_lt.mp hlayers))
    next hlayers =>
      have hnone : req.modelTotalLayers.toNat = 0 := by
        rw [UInt32.lt_iff_toNat_lt, UInt32.toNat_zero] at hlayers
        omega
      rw [hnone] at hcovers
      exact covers_self_iff.mp hcovers

end Plan

/-- `plan` tiles the model without overflow exactly when the free VRAM adds up in
64 bits and the rounded shares leave the smallest GPU a remainder. -/
theorem planTiles_iff_sharesFit (req : PlacementRequest) (nodes : List NodeInfo) :
    PlanTiles req nodes ↔ SharesFit req nodes := by
  by_cases hfits : (freeVram req nodes).sum < 2 ^ 64
  swap
  · have hplan : plan .checked req nodes = none := by rw [plan_checked_eq, if_neg hfits]
    refine iff_of_false ?_ fun hshares => hfits hshares.1
    rintro ⟨stages, hstages, -⟩
    rw [hplan] at hstages
    cases hstages
  by_cases hfree : (freeVram req nodes).sum = 0
  · have hnone : ¬∃ g ∈ eligible req nodes, 0 < g.2.vramFreeBytes := by
      rw [exists_free_iff, not_not]
      exact hfree
    refine iff_of_true ⟨[], ?_, ?_⟩ ⟨hfits, fun least _ _ => ?_⟩
    · rw [plan_checked_eq, if_pos hfits, if_pos hfree]
    · rw [if_neg fun h => hnone h.2]
    · have hshares : ((freeVram req nodes).map
          (shareOf (freeVram req nodes).sum req.modelTotalLayers.toNat)).sum = 0 := by
        rw [hfree, List.sum_eq_zero_iff]
        simp [shareOf_zero]
      exact hshares.trans_le (Nat.zero_le _)
  · have hne : eligible req nodes ≠ [] := by
      intro hnil
      rw [freeVram, hnil] at hfree
      exact hfree rfl
    have htotal : (UInt64.ofNat (freeVram req nodes).sum).toNat = (freeVram req nodes).sum :=
      UInt64.toNat_ofNat_of_lt' hfits
    have hgpuShare : gpuShare req.modelTotalLayers (.ofNat (freeVram req nodes).sum) = fun gpu =>
        shareOf (freeVram req nodes).sum req.modelTotalLayers.toNat
          gpu.2.vramFreeBytes.toNat := by
      funext gpu
      rw [gpuShare, htotal]
    rw [planTiles_of_free req nodes hfits hfree, hgpuShare,
      ← dropLast_shares_le_iff req nodes _ _ hne]
    exact ⟨fun hshares => ⟨hfits, hshares⟩, fun hshares => hshares.2⟩

/-- Eight equal GPUs and 12 layers: each share of 3/2 rounds to 2, seven of them
to 14, and the last GPU's remainder underflows. -/
theorem eightEqualGpus_overflow : ¬PlanTiles ⟨12, .bf16⟩
    [{ nodeId := "a", gpus := (List.range 8).map fun index => {
      index := .ofNat index, vramFreeBytes := 24000000000,
      capability := some { supportsBf16 := true } } }] := by
  rintro ⟨stages, hstages, -⟩
  have hnone : plan .checked ⟨12, .bf16⟩
      [{ nodeId := "a", gpus := (List.range 8).map fun index => {
        index := .ofNat index, vramFreeBytes := 24000000000,
        capability := some { supportsBf16 := true } } }] = none := by decide +kernel
  rw [hnone] at hstages
  cases hstages

end GpuCluster.Scheduler
