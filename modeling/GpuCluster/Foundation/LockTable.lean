import Mathlib.Data.List.Basic

/-! # Exclusive locks

A table that names the holder of each locked key. A key has one holder by
construction; taking keys that are free leaves the locks of others alone, and a
release gives up all locks of one holder at once.
-/

namespace GpuCluster.Foundation

universe u v

abbrev LockTable (κ : Type u) (τ : Type v) := κ → Option τ

namespace LockTable

variable {κ : Type u} {τ : Type v}

def empty : LockTable κ τ := fun _ => none

/-- Nobody else holds any of the keys. -/
def Free (locks : LockTable κ τ) (holder : τ) (keys : List κ) : Prop :=
  ∀ key ∈ keys, locks key = none ∨ locks key = some holder

instance [DecidableEq τ] (locks : LockTable κ τ) (holder : τ) (keys : List κ) :
    Decidable (locks.Free holder keys) :=
  inferInstanceAs (Decidable (∀ key ∈ keys, _))

def acquire [DecidableEq κ] (locks : LockTable κ τ) (holder : τ) (keys : List κ) :
    LockTable κ τ :=
  fun key => if key ∈ keys then some holder else locks key

def release [DecidableEq τ] (locks : LockTable κ τ) (holder : τ) : LockTable κ τ :=
  fun key => if locks key = some holder then none else locks key

variable {locks : LockTable κ τ} {holder other : τ} {keys : List κ} {key : κ}

theorem acquire_of_mem [DecidableEq κ] (hmem : key ∈ keys) :
    locks.acquire holder keys key = some holder :=
  if_pos hmem

/-- What a holder has, it keeps when it takes more. -/
theorem acquire_keeps [DecidableEq κ] (hheld : locks key = some holder) :
    locks.acquire holder keys key = some holder := by
  unfold acquire
  split
  · rfl
  · exact hheld

/-- Taking free keys takes nothing from others. -/
theorem acquire_other [DecidableEq κ] (hfree : locks.Free holder keys) (hne : other ≠ holder)
    (hheld : locks key = some other) : locks.acquire holder keys key = some other := by
  unfold acquire
  split
  next hmem =>
    rcases hfree key hmem with hnone | hself
    · rw [hnone] at hheld
      cases hheld
    · rw [hself, Option.some.injEq] at hheld
      exact absurd hheld.symm hne
  next => exact hheld

theorem release_other [DecidableEq τ] (hne : other ≠ holder) (hheld : locks key = some other) :
    locks.release holder key = some other := by
  unfold release
  rw [if_neg, hheld]
  rw [hheld, Option.some.injEq]
  exact hne

end LockTable

end GpuCluster.Foundation
