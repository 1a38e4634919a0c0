import GpuCluster.Foundation.Lists
import GpuCluster.Scheduler.Stages
import GpuCluster.Sysinfo.Gpu

/-! # Negotiating a precision

`cluster_gcd` walks down from the most aggressive precision and falls back to
FP16. The result is safe if some precision is supported by all GPUs, and a
minimum over the GPUs if their profiles were made by a detector.
-/

namespace GpuCluster.Scheduler

open Foundation Proto Sysinfo

/-! ## When the result is safe -/

/-- The negotiated precision is the best that every GPU supports, and planning
with it drops none of them. -/
structure Negotiates (gpus : List GpuInfo) : Prop where
  supported : ∀ g ∈ gpus, supports (clusterGcd gpus) g = true
  best : ∀ precision, clusterGcd gpus < precision →
    ∃ g ∈ gpus, supports precision g = false
  kept : ∀ modelTotalLayers nodes, ∀ n ∈ nodes, ∀ g ∈ n.gpus, g ∈ gpus →
    (n, g) ∈ eligible ⟨modelTotalLayers, clusterGcd gpus⟩ nodes

/-- The walk comes to every precision. -/
theorem mem_walk (precision : Precision) : precision ∈ [Precision.fp4, .fp8, .bf16, .fp16] := by
  cases precision <;> decide

/-- The result is the greatest precision that all GPUs support, or FP16 if there
is none. -/
theorem clusterGcd_cases (gpus : List GpuInfo) :
    ((∀ g ∈ gpus, supports (clusterGcd gpus) g = true) ∧
      ∀ precision, clusterGcd gpus < precision → ∃ g ∈ gpus, supports precision g = false) ∨
    (clusterGcd gpus = .fp16 ∧ ∀ precision, ∃ g ∈ gpus, supports precision g = false) := by
  cases hwalk : [Precision.fp4, .fp8, .bf16, .fp16].find? fun precision =>
      gpus.all (supports precision) with
  | none =>
      have hresult : clusterGcd gpus = .fp16 := by rw [clusterGcd, hwalk, Option.getD_none]
      refine .inr ⟨hresult, fun precision => ?_⟩
      have hnot := List.find?_eq_none.mp hwalk precision (mem_walk precision)
      simpa only [List.all_eq_false, Bool.not_eq_true] using hnot
  | some found =>
      have hresult : clusterGcd gpus = found := by rw [clusterGcd, hwalk, Option.getD_some]
      obtain ⟨-, hall, hgreatest⟩ := (find?_eq_some_iff_greatest (by decide)).mp hwalk
      rw [hresult]
      refine .inl ⟨List.all_eq_true.mp hall, fun precision hlt => ?_⟩
      have hnot := hgreatest precision (mem_walk precision) hlt
      simpa only [List.all_eq_false, Bool.not_eq_true] using hnot

/-- The negotiated precision is safe exactly when the GPUs have one in common. -/
theorem negotiates_iff (gpus : List GpuInfo) :
    Negotiates gpus ↔ ∃ precision, ∀ g ∈ gpus, supports precision g = true := by
  constructor
  · exact fun hnegotiates => ⟨_, hnegotiates.supported⟩
  · rintro ⟨common, hcommon⟩
    rcases clusterGcd_cases gpus with ⟨hall, hbest⟩ | ⟨-, hnone⟩
    · refine ⟨hall, hbest, fun modelTotalLayers nodes n hn g hg hin => ?_⟩
      exact mem_eligible.mpr ⟨hn, hg, (Option.any_eq_true _ _).mp (hall g hin)⟩
    · obtain ⟨g, hg, hunsupported⟩ := hnone common
      rw [hcommon g hg] at hunsupported
      cases hunsupported

/-- A GPU without a profile is given FP16, and planning with it drops the GPU. -/
theorem unprofiledGpu_not_negotiated : ¬Negotiates [{ name := "GPU" }] := fun hnegotiates =>
  absurd (hnegotiates.supported _ (List.mem_singleton_self _)) (by decide)

/-! ## Detected profiles -/

/-- The profile was made by a detector. -/
inductive Detected (g : GpuInfo) : Prop
  | nvml (arch : String) (cc : Option (Int32 × Int32)) (vram : UInt64)
      (hcapability : g.capability = some (buildCapability arch cc vram))
  | metal (family : AppleFamily) (totalRam : UInt64)
      (hcapability : g.capability = some (family.capability totalRam))

/-- Support for a precision is support for the less aggressive ones. -/
structure DownwardClosed (cap : GpuCapabilityProfile) : Prop where
  fp8 : cap.supportsFp4 = true → cap.supportsFp8 = true
  bf16 : cap.supportsFp8 = true → cap.supportsBf16 = true
  fp16 : cap.supportsBf16 = true → cap.supportsFp16 = true

theorem DownwardClosed.supportedBy_of_le {cap : GpuCapabilityProfile} (hcap : DownwardClosed cap)
    {less more : Precision} (hle : less ≤ more) (hmore : more.supportedBy cap = true) :
    less.supportedBy cap = true := by
  obtain ⟨hfp8, hbf16, hfp16⟩ := hcap
  cases more <;> cases less <;> simp_all [Precision.supportedBy] <;>
    exact absurd hle (by decide)

/-- The thresholds on the compute capability rise with the precision. -/
theorem buildCapability_closed (arch : String) (cc : Option (Int32 × Int32)) (vram : UInt64) :
    DownwardClosed (buildCapability arch cc vram) := by
  rw [buildCapability]
  generalize (cc.map (·.1.toUInt32)).getD 0 = major
  generalize (cc.map (·.2.toUInt32)).getD 0 = minor
  constructor <;>
    simp only [Bool.or_eq_true, Bool.and_eq_true, decide_eq_true_eq, ge_iff_le,
      UInt32.le_iff_toNat_le, ← UInt32.toNat_inj] <;>
    intro h
  · exact .inr (le_trans (by decide) h)
  · rcases h with ⟨h, -⟩ | h
    · exact h.ge
    · exact le_trans (by decide) h
  · exact le_trans (by decide) h

theorem capability_closed (family : AppleFamily) (totalRam : UInt64) :
    DownwardClosed (family.capability totalRam) where
  fp8 h := h
  bf16 h := nomatch h
  fp16 _ := rfl

/-- A detected GPU that supports a precision supports the less aggressive ones. -/
theorem Detected.supports_of_le {g : GpuInfo} (hg : Detected g) {less more : Precision}
    (hle : less ≤ more) (hmore : supports more g = true) : supports less g = true := by
  obtain ⟨cap, hcapability, hclosed⟩ : ∃ cap, g.capability = some cap ∧ DownwardClosed cap := by
    cases hg with
    | nvml arch cc vram hcapability => exact ⟨_, hcapability, buildCapability_closed arch cc vram⟩
    | metal family totalRam hcapability => exact ⟨_, hcapability, capability_closed family totalRam⟩
  rw [supports, hcapability, Option.any_some] at hmore ⊢
  exact hclosed.supportedBy_of_le hle hmore

/-- Below the negotiated precision is what all GPUs support, and FP16. -/
theorem le_clusterGcd_iff {gpus : List GpuInfo} (hgpus : ∀ g ∈ gpus, Detected g)
    (precision : Precision) :
    precision ≤ clusterGcd gpus ↔
      precision = .fp16 ∨ ∀ g ∈ gpus, supports precision g = true := by
  rcases clusterGcd_cases gpus with ⟨hall, hbest⟩ | ⟨hresult, hnone⟩
  · constructor
    · exact fun hle => .inr fun g hg => (hgpus g hg).supports_of_le hle (hall g hg)
    · rintro (rfl | hsupported)
      · exact Precision.fp16_le _
      · by_contra hnot
        obtain ⟨g, hg, hunsupported⟩ := hbest precision (not_le.mp hnot)
        rw [hsupported g hg] at hunsupported
        cases hunsupported
  · obtain ⟨g, hg, hunsupported⟩ := hnone precision
    rw [hresult]
    constructor
    · exact fun hle => .inl (le_antisymm hle (Precision.fp16_le _))
    · rintro (rfl | hsupported)
      · exact le_rfl
      · rw [hsupported g hg] at hunsupported
        cases hunsupported

/-- Negotiation over two lists is negotiation over each. -/
theorem clusterGcd_concat {xs ys : List GpuInfo} (hxs : ∀ g ∈ xs, Detected g)
    (hys : ∀ g ∈ ys, Detected g) :
    clusterGcd (xs ++ ys) = min (clusterGcd xs) (clusterGcd ys) := by
  have happend : ∀ g ∈ xs ++ ys, Detected g :=
    fun g hg => (List.mem_append.mp hg).elim (hxs g) (hys g)
  apply eq_of_forall_le_iff
  intro precision
  rw [le_min_iff, le_clusterGcd_iff happend, le_clusterGcd_iff hxs, le_clusterGcd_iff hys,
    List.forall_mem_append]
  tauto

/-- The order of the GPUs does not matter. -/
theorem clusterGcd_perm {xs ys : List GpuInfo} (hperm : xs.Perm ys) :
    clusterGcd xs = clusterGcd ys := by
  have hall : ∀ precision, xs.all (supports precision) = ys.all (supports precision) :=
    fun precision => hperm.all_eq
  rw [clusterGcd, clusterGcd]
  simp only [hall]

theorem clusterGcd_flatten (groups : List (List GpuInfo))
    (hgroups : ∀ g ∈ groups.flatten, Detected g) :
    clusterGcd groups.flatten = (groups.map clusterGcd).foldr min (clusterGcd []) := by
  induction groups with
  | nil => rfl
  | cons group rest ih =>
      rw [List.flatten_cons, List.forall_mem_append] at hgroups
      rw [List.flatten_cons, clusterGcd_concat hgroups.1 hgroups.2, ih hgroups.2]
      rfl

/-- Over detected GPUs `cluster_gcd` is a minimum with the empty list as identity:
it depends on neither order nor grouping, and a GPU that joins can only lower it. -/
theorem clusterGcd_append (xs ys : List GpuInfo) (hxs : ∀ g ∈ xs, Detected g)
    (hys : ∀ g ∈ ys, Detected g) :
    clusterGcd (xs ++ ys) = min (clusterGcd xs) (clusterGcd ys) ∧
    min (clusterGcd []) (clusterGcd xs) = clusterGcd xs ∧
    (∀ zs : List GpuInfo, zs.Perm (xs ++ ys) → clusterGcd zs = clusterGcd (xs ++ ys)) ∧
    (∀ groups : List (List GpuInfo), groups.flatten = xs →
      clusterGcd xs = (groups.map clusterGcd).foldr min (clusterGcd [])) ∧
    clusterGcd (xs ++ ys) ≤ clusterGcd xs := by
  have hconcat := clusterGcd_concat hxs hys
  refine ⟨hconcat, min_eq_right (Precision.le_fp4 _), fun zs hperm => clusterGcd_perm hperm,
    ?_, hconcat ▸ min_le_left _ _⟩
  rintro groups rfl
  exact clusterGcd_flatten groups hxs

/-- An H100 and an M3: FP8 and BF16, together BF16. -/
theorem h100_and_m3 : clusterGcd
    ([{ capability := some (buildCapability "Hopper" (some (9, 0)) 80000000000) }] ++
      [{ capability := some (AppleFamily.capability ⟨3, .max⟩ 64000000000) }]) = .bf16 :=
  (clusterGcd_append [{ capability := some (buildCapability "Hopper" (some (9, 0)) 80000000000) }]
    [{ capability := some (AppleFamily.capability ⟨3, .max⟩ 64000000000) }]
    (by simpa using Detected.nvml _ _ _ rfl) (by simpa using Detected.metal _ _ rfl)).1.trans
      (by decide)

end GpuCluster.Scheduler
