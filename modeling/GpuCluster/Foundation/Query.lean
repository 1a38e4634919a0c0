import Mathlib.Data.List.Perm.Lattice
import Mathlib.Data.List.Sort

/-! # Sorted and limited selections

What a database may answer to a statement that filters the rows of a table,
sorts what is left and cuts it off. Rows that the order does not tell apart come
in any order, so an answer is one of many; what every answer has is said here.
-/

namespace GpuCluster.Foundation

universe u

variable {α : Type u}

/-- `SELECT … WHERE keep ORDER BY … LIMIT limit`. `before a b` tells that `a` may
come before `b`. -/
structure Query (α : Type u) where
  keep : α → Bool
  before : α → α → Bool
  limit : Option ℕ

namespace Query

variable {q : Query α} {rows result : List α} {row other : α}

def cut (q : Query α) (sorted : List α) : List α :=
  match q.limit with
  | some limit => sorted.take limit
  | none => sorted

/-- A possible answer to a query on a table. -/
def Answers (q : Query α) (rows result : List α) : Prop :=
  ∃ sorted : List α, sorted.Perm (rows.filter q.keep) ∧
    sorted.Pairwise (fun a b => q.before a b = true) ∧ result = q.cut sorted

/-- The answer of a stable sort. -/
def run (q : Query α) (rows : List α) : List α :=
  q.cut ((rows.filter q.keep).mergeSort q.before)

theorem cut_of_some {limit : ℕ} (hlimit : q.limit = some limit) (sorted : List α) :
    q.cut sorted = sorted.take limit := by
  simp only [cut, hlimit]

theorem cut_of_none (hlimit : q.limit = none) (sorted : List α) : q.cut sorted = sorted := by
  simp only [cut, hlimit]

theorem cut_prefix (q : Query α) (sorted : List α) : q.cut sorted <+: sorted := by
  unfold cut
  split
  next limit _ => exact List.take_prefix limit sorted
  next => exact List.prefix_rfl

theorem answers_run (htrans : ∀ a b c, q.before a b = true → q.before b c = true →
      q.before a c = true) (htotal : ∀ a b, (q.before a b || q.before b a) = true)
    (rows : List α) : q.Answers rows (q.run rows) :=
  ⟨_, List.mergeSort_perm _ _, List.pairwise_mergeSort htrans htotal _, rfl⟩

theorem Answers.mem (hresult : q.Answers rows result) (hrow : row ∈ result) :
    row ∈ rows ∧ q.keep row = true := by
  obtain ⟨sorted, hperm, -, rfl⟩ := hresult
  exact List.mem_filter.mp (hperm.mem_iff.mp ((q.cut_prefix sorted).subset hrow))

theorem Answers.sorted (hresult : q.Answers rows result) :
    result.Pairwise fun a b => q.before a b = true := by
  obtain ⟨sorted, -, hsorted, rfl⟩ := hresult
  exact hsorted.sublist (q.cut_prefix sorted).sublist

/-- Without a limit every row that is kept is in the answer, as often as in the table. -/
theorem Answers.perm (hresult : q.Answers rows result) (hlimit : q.limit = none) :
    result.Perm (rows.filter q.keep) := by
  obtain ⟨sorted, hperm, -, rfl⟩ := hresult
  rwa [cut_of_none hlimit]

/-- Up to the limit the answer is complete. -/
theorem Answers.perm_of_le {limit : ℕ} (hresult : q.Answers rows result)
    (hlimit : q.limit = some limit) (hfew : rows.countP q.keep ≤ limit) :
    result.Perm (rows.filter q.keep) := by
  obtain ⟨sorted, hperm, -, rfl⟩ := hresult
  have hlength : sorted.length ≤ limit := by
    rwa [hperm.length_eq, ← List.countP_eq_length_filter]
  rwa [cut_of_some hlimit, List.take_of_length_le hlength]

/-- A row that is cut off comes after every row of the answer, which is full. -/
theorem Answers.of_missing {limit : ℕ} (hresult : q.Answers rows result)
    (hlimit : q.limit = some limit) (hrow : row ∈ rows) (hkeep : q.keep row = true)
    (hmissing : row ∉ result) :
    result.length = limit ∧ ∀ shown ∈ result, q.before shown row = true := by
  obtain ⟨sorted, hperm, hsorted, rfl⟩ := hresult
  rw [cut_of_some hlimit] at hmissing ⊢
  have hmem : row ∈ sorted := hperm.mem_iff.mpr (List.mem_filter.mpr ⟨hrow, hkeep⟩)
  have hparts := List.take_append_drop limit sorted
  have hdropped : row ∈ sorted.drop limit := by
    rw [← hparts] at hmem
    exact (List.mem_append.mp hmem).resolve_left hmissing
  refine ⟨?_, fun shown hshown => ?_⟩
  · have hpos := List.length_pos_of_mem hdropped
    rw [List.length_drop] at hpos
    rw [List.length_take]
    omega
  · rw [← hparts] at hsorted
    exact (List.pairwise_append.mp hsorted).2.2 shown hshown row hdropped

end Query

/-- Newest first, by a time. -/
def newestFirst (time : α → ℤ) (a b : α) : Bool := time b ≤ time a

theorem newestFirst_trans {time : α → ℤ} (a b c : α) (hab : newestFirst time a b = true)
    (hbc : newestFirst time b c = true) : newestFirst time a c = true := by
  simp only [newestFirst, decide_eq_true_eq] at hab hbc ⊢
  exact hbc.trans hab

theorem newestFirst_total {time : α → ℤ} (a b : α) :
    (newestFirst time a b || newestFirst time b a) = true := by
  simp only [newestFirst, Bool.or_eq_true, decide_eq_true_eq]
  exact le_total _ _

end GpuCluster.Foundation
