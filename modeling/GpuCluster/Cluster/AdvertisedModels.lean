import GpuCluster.Coordinator.Server
import GpuCluster.Foundation.Query
import GpuCluster.Mgmt.Isolation
import GpuCluster.OpenaiApi.ModelList

/-! # From the model table to the list of a client

The backend sorts its registry with the default model first, and the dispatcher
advertises what is not disabled. Reads see committed rows only, so the list is
that of a table with at most one default row.
-/

namespace GpuCluster.Mgmt

open Foundation

/-! ## The registry's answer -/

/-- `ORDER BY is_default DESC, created_at DESC`. -/
def ModelRow.mayPrecede (a b : ModelRow) : Bool :=
  if a.isDefault = b.isDefault then b.createdAt ≤ a.createdAt else a.isDefault

/-- `models::list`. -/
def modelsQuery : Query ModelRow where
  keep _ := true
  before := ModelRow.mayPrecede
  limit := none

/-- The answer's body. -/
def modelsBody (toRfc3339 : ℤ → String) (rows : List ModelRow) : Json :=
  .array (rows.map (·.json toRfc3339))

section

variable {table : ModelTable} {rows : List ModelRow}

theorem perm_of_answers (hanswer : modelsQuery.Answers table.list rows) : rows.Perm table.list := by
  have hall : table.list.filter modelsQuery.keep = table.list :=
    List.filter_eq_self.mpr fun _ _ => rfl
  exact hall ▸ hanswer.perm rfl

/-- The rows of an answer are those of the table, each once. -/
theorem mem_rows_iff (hanswer : modelsQuery.Answers table.list rows) {row : ModelRow} :
    row ∈ rows ↔ table.get row.id = some row := by
  rw [(perm_of_answers hanswer).mem_iff, KeyedMap.mem_list]

theorem nodup_ids (hanswer : modelsQuery.Answers table.list rows) :
    (rows.map ModelRow.id).Nodup :=
  ((perm_of_answers hanswer).map ModelRow.id).nodup_iff.mpr table.list_nodup

/-- Where one row at most is default, it comes first among the rows that are kept. -/
theorem head_of_isDefault {tables : ModelTables} (hone : tables.OneDefault)
    (hanswer : modelsQuery.Answers tables.models.list rows) {keep : ModelRow → Bool}
    {row : ModelRow} (hrow : row ∈ rows.filter keep) (hdefault : row.isDefault) :
    (rows.filter keep).head? = some row := by
  have hsorted : (rows.filter keep).Pairwise fun a b => a.mayPrecede b = true :=
    hanswer.sorted.sublist List.filter_sublist
  have hstored : ∀ other ∈ rows.filter keep, tables.models.get other.id = some other :=
    fun other hother => (mem_rows_iff hanswer).mp (List.mem_filter.mp hother).1
  cases hlist : rows.filter keep with
  | nil =>
      rw [hlist] at hrow
      cases hrow
  | cons first rest =>
      rw [hlist] at hrow hsorted hstored
      rcases List.mem_cons.mp hrow with rfl | hlater
      · rfl
      · -- a row before the default one is default too
        have hbefore := (List.pairwise_cons.mp hsorted).1 row hlater
        have hfirst : first.isDefault = true := by
          simp only [ModelRow.mayPrecede, hdefault] at hbefore
          split at hbefore
          next hsame => exact hsame
          next => exact hbefore
        have hget := hstored first List.mem_cons_self
        have hget' := hstored row hrow
        have hid := hone _ _ first row hget hget' hfirst hdefault
        rw [hid] at hget
        exact congrArg some (Option.some.inj (hget.symm.trans hget'))

end

end GpuCluster.Mgmt

namespace GpuCluster.Cluster

open Foundation Mgmt OpenaiApi
open Coordinator (Registry listNodes nodesJson)

/-! ## What is advertised -/

/-- What the ids of a list tell of a table that is not empty. -/
structure Advertises (table : ModelTable) (ids : List String) : Prop where
  mem : ∀ id, id ∈ ids ↔ ∃ row, table.get id = some row ∧ row.status ≠ "disabled"
  nodup : ids.Nodup
  default : ∀ id row, table.get id = some row → row.isDefault → row.status ≠ "disabled" →
    ids.head? = some id
  newest : ids.Pairwise fun id other => ∀ row otherRow, table.get id = some row →
    table.get other = some otherRow → row.isDefault = otherRow.isDefault →
    otherRow.createdAt ≤ row.createdAt

section

variable {toRfc3339 : ℤ → String} {table : ModelTable} {rows : List ModelRow}

/-- The ids of the rows that are not disabled, in the order of the answer. -/
theorem ids_listModels (hrows : rows ≠ []) (nodes : Option Json) :
    (listModels (some (modelsBody toRfc3339 rows)) nodes).ids =
      (rows.filter fun row => row.status ≠ "disabled").map ModelRow.id := by
  obtain ⟨first, rest, rfl⟩ := List.exists_cons_of_ne_nil hrows
  rw [modelsBody, List.map_cons, ids_listModels_cons, ← List.map_cons, List.filter_map,
    List.map_map]
  rfl

/-- Each row that is kept stands for its id in the table. -/
theorem eq_of_mem_rows (hanswer : modelsQuery.Answers table.list rows) {row other : ModelRow}
    (hrow : row ∈ rows) (hget : table.get row.id = some other) : other = row :=
  Option.some.inj (hget.symm.trans ((mem_rows_iff hanswer).mp hrow))

theorem advertises_of_answers {tables : ModelTables} (hone : tables.OneDefault)
    (hanswer : modelsQuery.Answers tables.models.list rows) (hrows : rows ≠ [])
    (nodes : Option Json) :
    Advertises tables.models (listModels (some (modelsBody toRfc3339 rows)) nodes).ids := by
  rw [ids_listModels hrows]
  refine ⟨fun id => ?_, ?_, fun id row hget hdefault henabled => ?_, ?_⟩
  · simp only [List.mem_map, List.mem_filter, decide_eq_true_eq, mem_rows_iff hanswer]
    constructor
    · rintro ⟨row, ⟨hget, henabled⟩, rfl⟩
      exact ⟨row, hget, henabled⟩
    · rintro ⟨row, hget, henabled⟩
      have hid := KeyedMap.key_of_get hget
      exact ⟨row, ⟨hid.symm ▸ hget, henabled⟩, hid⟩
  · exact (nodup_ids hanswer).sublist (List.filter_sublist.map _)
  · have hid : row.id = id := KeyedMap.key_of_get hget
    have hmem : row ∈ rows.filter fun row => row.status ≠ "disabled" :=
      List.mem_filter.mpr ⟨(mem_rows_iff hanswer).mpr (hid.symm ▸ hget), by simpa using henabled⟩
    rw [List.head?_map, head_of_isDefault hone hanswer hmem hdefault, Option.map_some, hid]
  · rw [List.pairwise_map]
    refine (hanswer.sorted.sublist List.filter_sublist).imp_of_mem ?_
    intro a b ha hb hbefore row otherRow hget hget' hsame
    cases eq_of_mem_rows hanswer (List.mem_filter.mp ha).1 hget
    cases eq_of_mem_rows hanswer (List.mem_filter.mp hb).1 hget'
    have hbefore : a.mayPrecede b = true := hbefore
    simpa only [ModelRow.mayPrecede, hsame, if_true, decide_eq_true_eq] using hbefore

/-- A count is read back as long as it fits its 64 bits. -/
theorem probeClusterSize_listNodes (reg : Registry) (hsize : reg.list.length < 2 ^ 64) :
    probeClusterSize (some (listNodes toRfc3339 reg)) = reg.list.length := by
  have hcount : probeClusterSize (some (listNodes toRfc3339 reg)) =
      (UInt64.ofNat (reg.list.map (Coordinator.listedJson toRfc3339)).length).toNat := rfl
  rw [hcount, List.length_map, UInt64.toNat_ofNat_of_lt' hsize]

/-- In every state that concurrent handlers and the reconciler can reach, when both
services answer, a client sees the registered models that are not disabled, the default
one first and the others by age; of an empty registry it sees the size of the cluster.
Its list is empty when there are models and all are disabled, and only then. -/
theorem models_advertised {s : Catalog} (hs : catalog.Reachable s)
    (hanswer : modelsQuery.Answers s.models.list rows) (reg : Registry)
    (hsize : reg.list.length < 2 ^ 64) :
    let ids := (listModels (some (modelsBody toRfc3339 rows))
      (some (listNodes toRfc3339 reg))).ids
    (s.models.list ≠ [] → Advertises s.models ids) ∧
    (s.models.list = [] → ids = [s!"auto (cluster: {reg.list.length} nodes)"]) ∧
    (ids = [] ↔ s.models.list ≠ [] ∧
      ∀ id row, s.models.get id = some row → row.status = "disabled") := by
  have hone : s.tables.OneDefault := by
    have hisolated := hs.invariant (fun s => s.Snapshot ∧ s.Isolated) ?_
      fun _ _ _ hs hstep => Catalog.isolated_step hs hstep
    · exact hisolated.2.oneDefault
    · rintro _ ⟨tables, hone, rfl⟩
      exact ⟨Catalog.snapshot_initial tables, Catalog.isolated_initial hone⟩
  have hperm := perm_of_answers hanswer
  have hempty : s.models.list = [] → (listModels (some (modelsBody toRfc3339 rows))
      (some (listNodes toRfc3339 reg))).ids = [s!"auto (cluster: {reg.list.length} nodes)"] := by
    intro hnone
    have hprobe : probeClusterSize (some (listNodes toRfc3339 reg)) = reg.list.length :=
      probeClusterSize_listNodes reg hsize
    rw [hnone] at hperm
    rw [hperm.eq_nil, ← hprobe]
    rfl
  have hfull : s.models.list ≠ [] → Advertises s.models (listModels
      (some (modelsBody toRfc3339 rows)) (some (listNodes toRfc3339 reg))).ids := by
    intro hsome
    refine advertises_of_answers hone hanswer (fun hnil => hsome ?_) _
    rw [hnil] at hperm
    exact hperm.symm.eq_nil
  refine ⟨hfull, hempty, ?_⟩
  by_cases hnone : s.models.list = []
  · exact iff_of_false (by simp [hempty hnone]) fun hboth => hboth.1 hnone
  · rw [List.eq_nil_iff_forall_not_mem, and_iff_right hnone]
    simp only [(hfull hnone).mem, not_exists, not_and, not_not]

end

/-- A write with this many statements before its commit. -/
def wholeWrite (call statements : ℕ) (request : CatalogStep) : List CatalogStep :=
  request :: List.replicate statements (.exec call "") ++ [.commit call]

/-- Three models are created, the second as the default one, and the third is disabled. -/
def threeModels : List CatalogStep :=
  let creation (id : String) (isDefault : Bool) : CreateRequest :=
    ⟨id, none, none, none, isDefault, none, none, none⟩
  let disabling : UpdateRequest := ⟨none, none, some "disabled", none, none, none, none⟩
  wholeWrite 0 3 (.create 0 (creation "b" false) 0) ++
    wholeWrite 1 4 (.create 1 (creation "a" true) 1) ++
    wholeWrite 2 3 (.create 2 (creation "c" false) 2) ++
    wholeWrite 3 3 (.update 3 "c" disabling 3)

/-- Of the three models a client sees the two that are not disabled. -/
theorem threeModels_areAdvertised : ∃ s rows, catalog.Reachable s ∧ rows.length = 3 ∧
    modelsQuery.Answers s.models.list rows ∧ Advertises s.models ["a", "b"] := by
  let rows (s : Catalog) := ["a", "c", "b"].filterMap s.models.get
  let ids (s : Catalog) := (listModels (some (modelsBody (fun _ => "") (rows s)))
    (some (listNodes (fun _ => "") .empty))).ids
  have hrun : (catalog.exec (.initial ⟨.empty, []⟩) threeModels).any (fun s =>
      decide ((rows s).Perm s.models.list) &&
        (decide ((rows s).Pairwise fun a b => a.mayPrecede b = true) &&
          (decide ((rows s).length = 3) && decide (ids s = ["a", "b"])))) = true := by
    decide +kernel
  obtain ⟨s, hexec, hstate⟩ := (Option.any_eq_true _ _).mp hrun
  simp only [Bool.and_eq_true, decide_eq_true_eq] at hstate
  obtain ⟨hperm, hsorted, hlength, hids⟩ := hstate
  have hempty : ModelTables.OneDefault ⟨.empty, []⟩ := by
    intro id other row otherRow hrow
    cases hrow
  have hreach : catalog.Reachable s :=
    (Machine.Reachable.init (M := catalog) ⟨_, hempty, rfl⟩).exec hexec
  have hall : s.models.list.filter modelsQuery.keep = s.models.list :=
    List.filter_eq_self.mpr fun _ _ => rfl
  have hanswer : modelsQuery.Answers s.models.list (rows s) :=
    ⟨rows s, hall.symm ▸ hperm, hsorted, rfl⟩
  have hsome : s.models.list ≠ [] := by
    intro hnil
    rw [hperm.length_eq, hnil] at hlength
    cases hlength
  obtain ⟨hadvertises, -⟩ := @models_advertised (fun _ => "") (rows s) s hreach hanswer .empty
    (by decide)
  exact ⟨s, rows s, hreach, hlength, hanswer, hids ▸ hadvertises hsome⟩

end GpuCluster.Cluster
