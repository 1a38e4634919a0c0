import Mathlib.Data.List.AList

/-! # Maps whose entries know their key

A finite map in which every value is stored under its own key: a hash map of
records by id, or a table with a primary key. Iteration order is part of the
representation and can be rearranged; lookups do not see it.
-/

namespace GpuCluster.Foundation

universe u v

variable {κ : Type u} {ρ : Type v} [DecidableEq κ]

structure KeyedMap (key : ρ → κ) where
  inner : AList fun _ : κ => ρ
  keyed : ∀ k row, inner.lookup k = some row → key row = k

namespace KeyedMap

variable {key : ρ → κ}

def empty : KeyedMap key where
  inner := ∅
  keyed _ _ h := by simp at h

def get (map : KeyedMap key) (k : κ) : Option ρ := map.inner.lookup k

/-- Store a row under its key, replacing the previous one. -/
def insert (map : KeyedMap key) (row : ρ) : KeyedMap key where
  inner := map.inner.insert (key row) row
  keyed k stored h := by
    by_cases hk : k = key row
    · subst hk
      rw [AList.lookup_insert, Option.some.injEq] at h
      rw [← h]
    · rw [AList.lookup_insert_ne hk] at h
      exact map.keyed k stored h

/-- Remove the row of a key. -/
def erase (map : KeyedMap key) (k : κ) : KeyedMap key where
  inner := map.inner.erase k
  keyed other stored h := by
    by_cases hk : other = k
    · subst hk
      rw [AList.lookup_erase] at h
      cases h
    · rw [AList.lookup_erase_ne hk] at h
      exact map.keyed other stored h

/-- Change the row of a key, if it has one. -/
def modify (map : KeyedMap key) (k : κ) (change : ρ → ρ) : KeyedMap key :=
  match map.get k with
  | some row => map.insert (change row)
  | none => map

/-- Keep the rows that satisfy a test. -/
def retain (map : KeyedMap key) (keep : ρ → Bool) : KeyedMap key where
  inner := ⟨map.inner.entries.filter fun stored => keep stored.2,
    map.inner.nodupKeys.sublist List.filter_sublist⟩
  keyed k row h := by
    have hmem := AList.mem_lookup_iff.mp (Option.mem_def.mpr h)
    exact map.keyed k row (AList.mem_lookup_iff.mpr (List.mem_filter.mp hmem).1)

/-- All rows, in iteration order. -/
def list (map : KeyedMap key) : List ρ := map.inner.entries.map Sigma.snd

/-- The same rows in another iteration order. -/
def rehash (map : KeyedMap key) (inner : AList fun _ : κ => ρ)
    (hperm : inner.entries.Perm map.inner.entries) : KeyedMap key where
  inner := inner
  keyed k row h := map.keyed k row (by rwa [AList.perm_lookup hperm] at h)

theorem key_of_get {map : KeyedMap key} {k : κ} {row : ρ} (hget : map.get k = some row) :
    key row = k :=
  map.keyed k row hget

@[simp] theorem get_empty (k : κ) : (empty : KeyedMap key).get k = none := AList.lookup_empty k

@[simp] theorem get_insert_self (map : KeyedMap key) (row : ρ) :
    (map.insert row).get (key row) = some row :=
  AList.lookup_insert map.inner

theorem get_insert_ne (map : KeyedMap key) (row : ρ) {k : κ} (hk : k ≠ key row) :
    (map.insert row).get k = map.get k :=
  AList.lookup_insert_ne hk

theorem get_insert (map : KeyedMap key) (row : ρ) (k : κ) :
    (map.insert row).get k = if k = key row then some row else map.get k := by
  split
  next hk => rw [hk, get_insert_self]
  next hk => exact map.get_insert_ne row hk

/-- What is found after an insertion is the new row or was there before. -/
theorem get_insert_eq_some {map : KeyedMap key} {row later : ρ} {k : κ} :
    (map.insert row).get k = some later ↔
      k = key row ∧ row = later ∨ k ≠ key row ∧ map.get k = some later := by
  rw [get_insert]
  split
  next hk => simp [hk]
  next hk => simp [hk]

/-- Insertions remove nothing. -/
theorem isSome_get_insert {map : KeyedMap key} (row : ρ) {k : κ} (hget : (map.get k).isSome) :
    ((map.insert row).get k).isSome := by
  rw [get_insert]
  split
  next => rfl
  next => exact hget

theorem get_erase (map : KeyedMap key) (k other : κ) :
    (map.erase k).get other = if other = k then none else map.get other := by
  split
  next hk =>
    rw [hk]
    exact AList.lookup_erase k map.inner
  next hk => exact AList.lookup_erase_ne hk

/-- A change that keeps the key is seen under that key only. -/
theorem get_modify (map : KeyedMap key) (k : κ) {change : ρ → ρ}
    (hchange : ∀ row, key (change row) = key row) (other : κ) :
    (map.modify k change).get other = if other = k then (map.get k).map change
      else map.get other := by
  unfold modify
  cases hget : map.get k with
  | none =>
      by_cases hk : other = k
      · rw [if_pos hk, hk]
        exact hget
      · rw [if_neg hk]
  | some row =>
      simp only [get_insert, hchange, key_of_get hget]
      rfl

theorem get_modify_ne (map : KeyedMap key) {k other : κ} {change : ρ → ρ}
    (hchange : ∀ row, key (change row) = key row) (hne : other ≠ k) :
    (map.modify k change).get other = map.get other := by
  rw [map.get_modify k hchange, if_neg hne]

/-- A column that the change keeps. -/
theorem map_get_modify {α : Type*} (map : KeyedMap key) (k : κ) {change : ρ → ρ}
    (hchange : ∀ row, key (change row) = key row) {column : ρ → α}
    (hcolumn : ∀ row, column (change row) = column row) (other : κ) :
    ((map.modify k change).get other).map column = (map.get other).map column := by
  rw [map.get_modify k hchange]
  split
  next heq =>
    rw [heq, Option.map_map]
    exact congrArg (Option.map · (map.get k)) (funext hcolumn)
  next => rfl

/-- What is found after a sweep was there before it and passes the test. -/
theorem get_retain_eq_some {map : KeyedMap key} {keep : ρ → Bool} {k : κ} {row : ρ} :
    (map.retain keep).get k = some row ↔ map.get k = some row ∧ keep row := by
  constructor
  · intro hget
    have hmem := List.mem_filter.mp (AList.mem_lookup_iff.mp (Option.mem_def.mpr hget))
    exact ⟨AList.mem_lookup_iff.mpr hmem.1, hmem.2⟩
  · intro ⟨hget, hkeep⟩
    apply Option.mem_def.mp
    apply AList.mem_lookup_iff.mpr
    exact List.mem_filter.mpr ⟨AList.mem_lookup_iff.mp (Option.mem_def.mpr hget), hkeep⟩

/-- A row under a new key comes first. -/
theorem list_insert_of_get_none {map : KeyedMap key} {row : ρ} (hnew : map.get (key row) = none) :
    (map.insert row).list = row :: map.list := by
  have habsent : key row ∉ map.inner := AList.lookup_eq_none.mp hnew
  rw [list, list, insert, AList.entries_insert_of_notMem habsent, List.map_cons]

/-- What a sweep keeps stays in order. -/
theorem list_retain (map : KeyedMap key) (keep : ρ → Bool) :
    (map.retain keep).list = map.list.filter keep := by
  rw [list, list, List.filter_map]
  rfl

/-- The row of a key satisfies a test and is written anew or removed; the others stay. -/
def Rewrites (map next : KeyedMap key) (k : κ) (admissible : ρ → Prop) (write : ρ → Option ρ) :
    Prop :=
  ∃ row, map.get k = some row ∧ admissible row ∧
    ∀ other, next.get other = if other = k then write row else map.get other

theorem Rewrites.insert {map : KeyedMap key} {k : κ} {row : ρ} {admissible : ρ → Prop}
    (change : ρ → ρ) (hget : map.get k = some row) (hadmissible : admissible row)
    (hkey : key (change row) = key row) :
    map.Rewrites (map.insert (change row)) k admissible fun row => some (change row) := by
  refine ⟨row, hget, hadmissible, fun other => ?_⟩
  rw [get_insert, hkey, key_of_get hget]

theorem Rewrites.erase {map : KeyedMap key} {k : κ} (hget : (map.get k).isSome) :
    map.Rewrites (map.erase k) k (fun _ => True) fun _ => none := by
  obtain ⟨row, hrow⟩ := Option.isSome_iff_exists.mp hget
  exact ⟨row, hrow, trivial, map.get_erase k⟩

@[simp] theorem get_rehash (map : KeyedMap key) (inner : AList fun _ : κ => ρ)
    (hperm : inner.entries.Perm map.inner.entries) (k : κ) :
    (map.rehash inner hperm).get k = map.get k :=
  AList.perm_lookup hperm

/-- The listing holds exactly the rows that lookups find. -/
theorem mem_list {map : KeyedMap key} {row : ρ} :
    row ∈ map.list ↔ map.get (key row) = some row := by
  simp only [list, List.mem_map, Sigma.exists, exists_eq_right, get]
  constructor
  · intro ⟨k, hrow⟩
    have hlookup : map.inner.lookup k = some row := AList.mem_lookup_iff.mpr hrow
    rwa [map.keyed k row hlookup]
  · intro hlookup
    exact ⟨key row, AList.mem_lookup_iff.mp hlookup⟩

/-- Searching the listing by key is a lookup. -/
theorem find?_list (map : KeyedMap key) (k : κ) :
    (map.list.find? fun row => key row = k) = map.get k := by
  cases hfind : map.list.find? fun row => key row = k with
  | some row =>
      have hkey : key row = k := by simpa using List.find?_some hfind
      exact (hkey ▸ mem_list.mp (List.mem_of_find?_eq_some hfind)).symm
  | none =>
      cases hget : map.get k with
      | none => rfl
      | some row =>
          have hkey := key_of_get hget
          have hmem : row ∈ map.list := mem_list.mpr (by rwa [hkey])
          have hother := List.find?_eq_none.mp hfind row hmem
          simp [hkey] at hother

/-- No two rows of a listing share a key. -/
theorem list_nodup (map : KeyedMap key) : (map.list.map key).Nodup := by
  have hkeys : map.list.map key = map.inner.keys := by
    simp only [list, List.map_map, AList.keys, List.keys]
    apply List.map_congr_left
    intro stored hstored
    exact map.keyed stored.1 stored.2 (AList.mem_lookup_iff.mpr hstored)
  rw [hkeys]
  exact map.inner.keys_nodup

end KeyedMap

end GpuCluster.Foundation
