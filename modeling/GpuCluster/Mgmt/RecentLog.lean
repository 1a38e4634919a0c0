import GpuCluster.Foundation.Query
import GpuCluster.Mgmt.ApiError
import GpuCluster.Mgmt.InferenceLog

/-! # Reading the inference log

The rows of the log with the time they were written at, and the newest of them
that pass an admin's filters. A filter that is not given or empty lets every row
pass; one on a column lets no row pass that has no value there.
-/

namespace GpuCluster.Mgmt

open Foundation

/-- A row of `inference_log`. -/
structure StoredLog where
  id : String
  row : LogRow
  createdAt : ℤ
  deriving DecidableEq

structure RecentQuery where
  limit : Option ℤ
  nodeId : Option String
  model : Option String
  status : Option String
  deriving DecidableEq

namespace RecentQuery

/-- `q.limit.unwrap_or(200).clamp(1, 1000)`. -/
def rows (q : RecentQuery) : ℕ := (max 1 (min (q.limit.getD 200) 1000)).toNat

def onlyErrors (q : RecentQuery) : Bool := q.status = some "errors"

def onlyOk (q : RecentQuery) : Bool := q.status = some "ok"

/-- The statement's `WHERE`. -/
def keeps (q : RecentQuery) (stored : StoredLog) : Bool :=
  let node := q.nodeId.filter (· ≠ "")
  let model := q.model.filter (· ≠ "")
  (node.isNone || stored.row.nodeId = node) && (model.isNone || some stored.row.model = model) &&
    (!q.onlyErrors || stored.row.errorType.isSome) && (!q.onlyOk || stored.row.errorType.isNone)

/-- `inference::recent`. -/
def query (q : RecentQuery) : Query StoredLog where
  keep := q.keeps
  before := newestFirst StoredLog.createdAt
  limit := some q.rows

/-- The filters on node and model let a row pass. -/
def admits (q : RecentQuery) (stored : StoredLog) : Bool :=
  ({ q with status := none } : RecentQuery).keeps stored

/-- The parameters of type `TEXT`. -/
def texts (q : RecentQuery) : List String :=
  (q.nodeId.filter (· ≠ "")).toList ++ (q.model.filter (· ≠ "")).toList

end RecentQuery

/-- What `recent` may answer. The database refuses a parameter with a NUL. -/
def recent (table : List StoredLog) (q : RecentQuery) (violation : String) :
    Except ApiError (List StoredLog) → Prop
  | .ok rows => q.texts.all storable ∧ q.query.Answers table rows
  | .error error => ¬q.texts.all storable ∧ error = .internal violation

namespace RecentQuery

variable {q : RecentQuery} {table answer : List StoredLog} {stored : StoredLog}

@[simp] theorem admits_status (q : RecentQuery) (status : Option String) :
    ({ q with status } : RecentQuery).admits = q.admits := rfl

/-- The status splits what the other filters admit. -/
theorem keeps_iff : q.keeps stored = true ↔ q.admits stored = true ∧
    (q.status = some "errors" → stored.row.errorType ≠ none) ∧
    (q.status = some "ok" → stored.row.errorType = none) := by
  simp only [admits, keeps, onlyErrors, onlyOk, Bool.and_eq_true, Bool.or_eq_true,
    Bool.not_eq_true', decide_eq_false_iff_not, Option.isSome_iff_ne_none,
    Option.isNone_iff_eq_none, reduceCtorEq, decide_false, Bool.not_false, Bool.true_or, and_true]
  tauto

/-- A row that passes the filters is shown, or as many rows as are asked for are
shown that are no older. -/
theorem shown_or_displaced (hanswer : q.query.Answers table answer) (hstored : stored ∈ table)
    (hkeeps : q.keeps stored = true) : stored ∈ answer ∨ answer.length = q.rows ∧
      ∀ shown ∈ answer, stored.createdAt ≤ shown.createdAt := by
  by_cases hshown : stored ∈ answer
  · exact .inl hshown
  · obtain ⟨hfull, hbefore⟩ := hanswer.of_missing rfl hstored hkeeps hshown
    exact .inr ⟨hfull, fun shown hmem => by simpa [query, newestFirst] using hbefore shown hmem⟩

end RecentQuery

/-- Where the limit leaves room, failures and successes together are what is shown
without a status, and nothing is among both. -/
theorem recent_splits (q : RecentQuery) {table errors ok both : List StoredLog}
    (hroom : table.countP q.admits ≤ q.rows)
    (herrors : ({ q with status := some "errors" } : RecentQuery).query.Answers table errors)
    (hok : ({ q with status := some "ok" } : RecentQuery).query.Answers table ok)
    (hboth : ({ q with status := none } : RecentQuery).query.Answers table both) :
    (errors ++ ok).Perm both ∧ errors.Disjoint ok := by
  have hfew : ∀ status, table.countP ({ q with status } : RecentQuery).keeps ≤ q.rows := by
    intro status
    refine le_trans (List.countP_mono_left fun stored _ hkeeps => ?_) hroom
    exact (RecentQuery.keeps_iff.mp hkeeps).1
  have hparts := (herrors.perm_of_le rfl (hfew _)).append (hok.perm_of_le rfl (hfew _))
  -- each status is one half of what the other filters admit
  have hfailed : table.filter ({ q with status := some "errors" } : RecentQuery).keeps =
      (table.filter q.admits).filter fun stored => stored.row.errorType.isSome := by
    rw [List.filter_filter]
    refine List.filter_congr fun stored _ => Bool.eq_iff_iff.mpr ?_
    simp [RecentQuery.keeps_iff, Option.isSome_iff_ne_none, and_comm]
  have hserved : table.filter ({ q with status := some "ok" } : RecentQuery).keeps =
      (table.filter q.admits).filter fun stored => !stored.row.errorType.isSome := by
    rw [List.filter_filter]
    refine List.filter_congr fun stored _ => Bool.eq_iff_iff.mpr ?_
    simp [RecentQuery.keeps_iff, and_comm]
  constructor
  · refine hparts.trans (List.Perm.trans ?_ (hboth.perm_of_le rfl (hfew none)).symm)
    exact (hfailed ▸ hserved ▸ List.filter_append_perm _ (table.filter q.admits))
  · intro stored hleft hright
    have hfailed := (RecentQuery.keeps_iff.mp (herrors.mem hleft).2).2.1 rfl
    exact hfailed ((RecentQuery.keeps_iff.mp (hok.mem hright).2).2.2 rfl)

/-- A log with one failure and one success of the same time. -/
def twoRequests : List StoredLog :=
  let entry (status : Int32) (errorType : Option String) : LogRow :=
    ⟨none, defaultEndpoint, "m", none, none, none, none, none, none, none, status, errorType, none⟩
  [⟨"a", entry 502 (some "worker_unreachable"), 3⟩, ⟨"b", entry 200 none, 3⟩]

def requestsOfM : RecentQuery := ⟨none, none, some "m", none⟩

theorem twoRequests_split :
    (({ requestsOfM with status := some "errors" } : RecentQuery).query.run twoRequests ++
      ({ requestsOfM with status := some "ok" } : RecentQuery).query.run twoRequests).Perm
        (({ requestsOfM with status := none } : RecentQuery).query.run twoRequests) := by
  exact (recent_splits requestsOfM (by decide)
    (Query.answers_run newestFirst_trans newestFirst_total _)
    (Query.answers_run newestFirst_trans newestFirst_total _)
    (Query.answers_run newestFirst_trans newestFirst_total _)).1

end GpuCluster.Mgmt
