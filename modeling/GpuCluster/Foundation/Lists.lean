import Mathlib.Data.List.Forall2
import Mathlib.Order.Basic

/-! # Entries of lists that change in one place or are filtered -/

namespace GpuCluster.Foundation

universe u v

variable {α : Type u} {β : Type v} {entries : List α} {i j : ℕ} {new found : α}

/-- An entry of a list in which one was replaced. -/
theorem getElem?_set_eq_some (hfound : (entries.set i new)[j]? = some found) :
    (j = i ∧ found = new) ∨ (j ≠ i ∧ entries[j]? = some found) := by
  rw [List.getElem?_set] at hfound
  split at hfound
  next hsame =>
    split at hfound
    next => exact .inl ⟨hsame.symm, (Option.some.inj hfound).symm⟩
    next => cases hfound
  next hother => exact .inr ⟨fun hsame => hother hsame.symm, hfound⟩

/-- An entry of a list to which one was added. -/
theorem getElem?_concat_eq_some (hfound : (entries ++ [new])[j]? = some found) :
    entries[j]? = some found ∨ (j = entries.length ∧ found = new) := by
  obtain ⟨hbound, -⟩ := List.getElem?_eq_some_iff.mp hfound
  rw [List.length_append, List.length_singleton] at hbound
  by_cases hj : j < entries.length
  · rw [List.getElem?_append_left hj] at hfound
    exact .inl hfound
  · have hlast : j = entries.length := by omega
    subst hlast
    rw [List.getElem?_concat_length] at hfound
    exact .inr ⟨rfl, (Option.some.inj hfound).symm⟩

/-- The entries of a list keep their places when it grows. -/
theorem getElem?_append_of_some (hfound : entries[j]? = some found) (more : List α) :
    (entries ++ more)[j]? = some found := by
  rw [List.getElem?_append_left (List.getElem?_eq_some_iff.mp hfound).1]
  exact hfound

theorem exists_eq_concat (hne : entries ≠ []) : ∃ init last, entries = init ++ [last] :=
  ⟨_, _, (List.dropLast_append_getLast hne).symm⟩

/-- If one split of a list at a separator is before the other, the separator
occurs again after it. -/
theorem eq_nil_of_sep_not_mem {after after' more : List α} {sep : α} (hlast : sep ∉ after)
    (heq : sep :: after = more ++ sep :: after') : more = [] ∧ after = after' := by
  cases more with
  | nil => exact ⟨rfl, (List.cons.inj heq).2⟩
  | cons first rest =>
      have htail : after = rest ++ sep :: after' := (List.cons.inj heq).2
      refine absurd ?_ hlast
      rw [htail]
      exact List.mem_append_right _ (List.mem_cons_self ..)

/-- A list splits in one way at the last occurrence of a separator. -/
theorem append_cons_inj_of_last {before before' after after' : List α} {sep : α}
    (hlast : sep ∉ after) (hlast' : sep ∉ after')
    (heq : before ++ sep :: after = before' ++ sep :: after') :
    before = before' ∧ after = after' := by
  rcases List.append_eq_append_iff.mp heq with ⟨more, hbefore, hafter⟩ | ⟨more, hbefore, hafter⟩
  · obtain ⟨rfl, hsame⟩ := eq_nil_of_sep_not_mem hlast hafter
    exact ⟨by rw [hbefore, List.append_nil], hsame⟩
  · obtain ⟨rfl, hsame⟩ := eq_nil_of_sep_not_mem hlast' hafter
    exact ⟨by rw [hbefore, List.append_nil], hsame.symm⟩

/-- What is kept of a list keeps its order: it comes from rising positions. -/
theorem exists_positions_filterMap (keep : α → Option β) (entries : List α) :
    ∃ positions : List ℕ, positions.Pairwise (· < ·) ∧
      List.Forall₂ (fun kept i => ∃ entry, entries[i]? = some entry ∧ keep entry = some kept)
        (entries.filterMap keep) positions := by
  induction entries with
  | nil => exact ⟨[], .nil, .nil⟩
  | cons entry rest ih =>
      obtain ⟨positions, hrising, hkept⟩ := ih
      -- the positions of the tail, one further on
      have hshifted : (positions.map (· + 1)).Pairwise (· < ·) :=
        List.pairwise_map.mpr (hrising.imp Nat.succ_lt_succ)
      have htail : List.Forall₂
          (fun kept i => ∃ found, (entry :: rest)[i]? = some found ∧ keep found = some kept)
          (rest.filterMap keep) (positions.map (· + 1)) := by
        rw [List.forall₂_map_right_iff]
        simpa only [List.getElem?_cons_succ] using hkept
      cases hkeep : keep entry with
      | none =>
          rw [List.filterMap_cons_none hkeep]
          exact ⟨_, hshifted, htail⟩
      | some kept =>
          rw [List.filterMap_cons_some hkeep]
          refine ⟨0 :: positions.map (· + 1), List.pairwise_cons.mpr ⟨?_, hshifted⟩,
            .cons ⟨entry, rfl, hkeep⟩ htail⟩
          intro position hposition
          obtain ⟨earlier, -, rfl⟩ := List.mem_map.mp hposition
          exact Nat.succ_pos earlier

/-- Searching a falling list finds the greatest entry that passes the test. -/
theorem find?_eq_some_iff_greatest [PartialOrder α] {test : α → Bool} {items : List α}
    (hfalling : items.Pairwise fun a b => b < a) {item : α} :
    items.find? test = some item ↔
      item ∈ items ∧ test item = true ∧ ∀ other ∈ items, item < other → test other = false := by
  induction items with
  | nil => simp
  | cons first rest ih =>
      obtain ⟨hfirst, hrest⟩ := List.pairwise_cons.mp hfalling
      cases htest : test first with
      | true =>
          rw [List.find?_cons_of_pos htest, Option.some.injEq]
          constructor
          · rintro rfl
            refine ⟨List.mem_cons_self .., htest, fun other hother hlt => ?_⟩
            rcases List.mem_cons.mp hother with rfl | hmem
            · exact absurd hlt (lt_irrefl _)
            · exact absurd hlt (hfirst other hmem).not_gt
          · rintro ⟨hmem, -, hgreatest⟩
            rcases List.mem_cons.mp hmem with rfl | hmem
            · rfl
            · have hfalse := hgreatest first (List.mem_cons_self ..) (hfirst item hmem)
              rw [htest] at hfalse
              cases hfalse
      | false =>
          rw [List.find?_cons_of_neg (by simp [htest]), ih hrest]
          constructor
          · rintro ⟨hmem, hitem, hgreatest⟩
            refine ⟨List.mem_cons_of_mem _ hmem, hitem, fun other hother hlt => ?_⟩
            rcases List.mem_cons.mp hother with rfl | hother
            · exact htest
            · exact hgreatest other hother hlt
          · rintro ⟨hmem, hitem, hgreatest⟩
            rcases List.mem_cons.mp hmem with rfl | hmem
            · rw [htest] at hitem
              cases hitem
            · exact ⟨hmem, hitem, fun other hother =>
                hgreatest other (List.mem_cons_of_mem _ hother)⟩

/-- Sorting entries into buckets by key, one bucket for each key, keeps them all. -/
theorem flatMap_filter_perm [DecidableEq β] (keyOf : α → β) {keys : List β}
    (hnodup : keys.Nodup) {items : List α} (hcover : ∀ item ∈ items, keyOf item ∈ keys) :
    (keys.flatMap fun key => items.filter fun item => keyOf item = key).Perm items := by
  induction keys generalizing items with
  | nil =>
      rw [List.eq_nil_iff_forall_not_mem.mpr fun item hitem => List.not_mem_nil (hcover item hitem)]
      exact .refl _
  | cons key rest ih =>
      obtain ⟨hkey, hrest⟩ := List.nodup_cons.mp hnodup
      -- the other buckets are those of the entries without this key
      have hothers : (rest.flatMap fun other => items.filter fun item => keyOf item = other) =
          rest.flatMap fun other => (items.filter fun item => !decide (keyOf item = key)).filter
            fun item => keyOf item = other := by
        apply List.flatMap_congr
        intro other hother
        rw [List.filter_filter]
        apply List.filter_congr
        intro item _
        have hne : keyOf item = other → keyOf item ≠ key :=
          fun heq hsame => hkey (hsame ▸ heq ▸ hother)
        by_cases heq : keyOf item = other
        · simp [heq, heq ▸ hne heq]
        · simp [heq]
      have hcoverRest : ∀ item ∈ items.filter (fun item => !decide (keyOf item = key)),
          keyOf item ∈ rest := by
        intro item hitem
        obtain ⟨hin, hne⟩ := List.mem_filter.mp hitem
        rcases List.mem_cons.mp (hcover item hin) with heq | hmem
        · simp [heq] at hne
        · exact hmem
      rw [List.flatMap_cons, hothers]
      exact ((ih hrest hcoverRest).append_left _).trans (List.filter_append_perm _ items)

end GpuCluster.Foundation
