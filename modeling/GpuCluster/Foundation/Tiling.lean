import Mathlib.Data.List.Basic
import Mathlib.Order.Lattice

/-! # Lists of intervals that tile a range

Half-open intervals in order, each starting where the one before it ended.
`Covers` follows the list from the left; `Tiles` says the same of its ends, its
members and its neighbours.
-/

namespace GpuCluster.Foundation

universe u v

variable {α : Type u} {β : Type v} [LinearOrder β] (lo hi : α → β)

/-- The intervals run from `start` to `stop` without gap or overlap. -/
def Covers (start stop : β) : List α → Prop
  | [] => start = stop
  | interval :: rest =>
      lo interval = start ∧ lo interval < hi interval ∧ Covers (hi interval) stop rest

/-- The first interval starts at `start`, the last ends at `stop`, none is empty
and neighbours touch. -/
structure Tiles (start stop : β) (intervals : List α) : Prop where
  head : intervals.head?.map lo = some start
  last : intervals.getLast?.map hi = some stop
  nonempty : ∀ interval ∈ intervals, lo interval < hi interval
  touch : intervals.IsChain fun before after => hi before = lo after

variable {lo hi} {start stop : β} {intervals : List α}

theorem Covers.le (hcovers : Covers lo hi start stop intervals) : start ≤ stop := by
  induction intervals generalizing start with
  | nil => exact le_of_eq hcovers
  | cons interval rest ih =>
      obtain ⟨rfl, hlt, hrest⟩ := hcovers
      exact hlt.le.trans (ih hrest)

/-- An empty range is covered by no intervals only. -/
theorem covers_self_iff : Covers lo hi start start intervals ↔ intervals = [] := by
  constructor
  · intro hcovers
    cases intervals with
    | nil => rfl
    | cons interval rest =>
        obtain ⟨rfl, hlt, hrest⟩ := hcovers
        exact absurd hrest.le (not_le.mpr hlt)
  · rintro rfl
    rfl

/-- To cover a range that is not empty is to tile it. -/
theorem Covers.tiles (hcovers : Covers lo hi start stop intervals) (hne : start ≠ stop) :
    Tiles lo hi start stop intervals := by
  induction intervals generalizing start with
  | nil => exact absurd hcovers hne
  | cons interval rest ih =>
      obtain ⟨rfl, hlt, hrest⟩ := hcovers
      cases rest with
      | nil =>
          obtain rfl : hi interval = stop := hrest
          exact ⟨rfl, rfl, by simpa using hlt, .singleton _⟩
      | cons next later =>
          have hnext : hi interval ≠ stop := by
            rintro rfl
            exact absurd (covers_self_iff.mp hrest) (List.cons_ne_nil _ _)
          have htail := ih hrest hnext
          refine ⟨rfl, ?_, ?_, ?_⟩
          · simpa using htail.last
          · exact List.forall_mem_cons.mpr ⟨hlt, htail.nonempty⟩
          · exact List.isChain_cons_cons.mpr ⟨hrest.1.symm, htail.touch⟩

end GpuCluster.Foundation
