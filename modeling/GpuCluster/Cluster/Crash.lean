import GpuCluster.Coordinator.Takeover
import GpuCluster.Mgmt.Reconciler

/-! # What the models table says about dead workers

The reconciler believes the coordinator's listing. The listing shows every entry,
also one that the watchdog has marked offline, with the model of its last report.
So a pass tells the truth exactly when the first listed node that serves a row's
model is not offline.
-/

namespace GpuCluster.Cluster

open Common Foundation Proto Coordinator Mgmt

/-! ## Runs -/

/-- The coordinator, the model tables, and the nodes whose worker has stopped. -/
structure Fleet where
  coordinator : Recorded
  tables : ModelTables
  stopped : List String

def Fleet.initial (start : ℤ) (tables : ModelTables) : Fleet := ⟨.initial start, tables, []⟩

/-- A call to the coordinator, the death of a worker, or a whole pass. -/
inductive FleetStep
  | call (made : Call)
  | die (nodeId : String)
  | reconcile

/-- The worker that makes a call. -/
def sender : Call → Option String
  | .reportNode peer body => (decodeReport peer body).toOption.map (·.info.nodeId)
  | .register _ req => some req.nodeId
  | .watchdogTick => none
  | .rehash _ => none

section Listing

variable (toRfc3339 : ℤ → String)

/-- The tables after a pass that reads the coordinator's listing. -/
def Fleet.reconciled (s : Fleet) (now : ℤ) : ModelTables :=
  reconcileOnce (listNodes toRfc3339 s.coordinator.registry) now s.tables

/-- A worker that calls is running again. -/
def FleetStep.run (s : Fleet) (now : ℤ) : FleetStep → Option Fleet
  | .call made => (made.run s.coordinator now).map fun next =>
      { s with coordinator := next, stopped := s.stopped.filter (sender made != some ·) }
  | .die nodeId => some { s with
      coordinator := { s.coordinator with clock := now }
      stopped := nodeId :: s.stopped }
  | .reconcile => some { s with
      coordinator := { s.coordinator with clock := now }
      tables := s.reconciled toRfc3339 now }

/-- Atomic steps at non-decreasing times. -/
def fleet : Machine Fleet (ℤ × FleetStep) where
  init s := ∃ start tables, s = .initial start tables
  step s action :=
    if s.coordinator.clock ≤ action.1 then action.2.run toRfc3339 s action.1 else none

end Listing

/-! ## What an entry's model is -/

/-- The last accepted report of a node. -/
def lastReport (log : List Write) (node : String) : Option Report :=
  log.findSome? fun
    | .report _ sent => if sent.info.nodeId = node then some sent else none
    | _ => none

/-- The last accepted report of a node carried this model. -/
def Reported (log : List Write) (node model : String) : Prop :=
  ∃ sent, lastReport log node = some sent ∧ sent.currentModel = some model

theorem lastReport_cons_ne {write : Write} (log : List Write) {node : String}
    (hne : write.nodeId ≠ node) : lastReport (write :: log) node = lastReport log node := by
  cases write with
  | report time sent =>
      have hskip : (if sent.info.nodeId = node then some sent else none) = none := if_neg hne
      simp only [lastReport, List.findSome?_cons, hskip]
  | register | mark => rfl

/-- A model in the registry was carried by the last report of its node. -/
def ModelsReported (state : Recorded) : Prop :=
  ∀ id entry model, state.registry.get id = some entry → entry.currentModel = some model →
    Reported state.log id model

variable {state next : Recorded}

theorem ModelsReported.write (hreported : ModelsReported state) {write : Write}
    (hwrite : ∀ model, write.entry.currentModel = some model →
      Reported (write :: state.log) write.nodeId model) : ModelsReported (state.write write) := by
  intro id entry model hget hmodel
  simp only [Recorded.write, KeyedMap.get_insert] at hget
  split at hget
  next hid =>
    cases hget
    exact hid ▸ hwrite model hmodel
  next hid =>
    obtain ⟨sent, hsent, hsame⟩ := hreported id entry model hget hmodel
    exact ⟨sent, (lastReport_cons_ne state.log (Ne.symm hid)).trans hsent, hsame⟩

/-- A mark copies the entry it listed, model included. -/
theorem ModelsReported.tick (hreported : ModelsReported state) {now : ℤ}
    (snapshots : List NodeEntry)
    (hsnapshots : ∀ snapshot ∈ snapshots, ∀ model, snapshot.currentModel = some model →
      Reported state.log snapshot.nodeId model) :
    ModelsReported (snapshots.foldl (fun state snapshot => state.write (.mark now snapshot))
      state) := by
  induction snapshots generalizing state with
  | nil => exact hreported
  | cons snapshot rest ih =>
      obtain ⟨hfirst, hrest⟩ := List.forall_mem_cons.mp hsnapshots
      exact ih (hreported.write hfirst) hrest

theorem ModelsReported.run (hreported : ModelsReported state) {now : ℤ} {call : Call}
    (hrun : call.run state now = some next) : ModelsReported next := by
  cases call with
  | reportNode peer body =>
      cases hrun
      unfold Recorded.reportNode
      split
      · exact hreported
      · split
        · exact hreported
        -- an accepted report is the last one of its node
        · refine hreported.write fun model hmodel => ⟨_, ?_, hmodel⟩
          simp [lastReport, Write.nodeId, Write.entry, Report.entry, NodeEntry.make]
  | register freshId req =>
      cases hrun
      unfold Recorded.register
      split
      · exact hreported
      · exact hreported.write fun model hmodel => nomatch hmodel
  | watchdogTick =>
      cases hrun
      have hlater : ModelsReported { state with clock := now } := hreported
      refine hlater.tick _ fun snapshot hmem model hmodel => ?_
      have hlisted := KeyedMap.mem_list.mp (List.mem_filter.mp hmem).1
      exact hreported _ _ model hlisted hmodel
  | rehash inner =>
      simp only [Call.run, Recorded.rehash] at hrun
      split at hrun
      next hperm =>
        cases hrun
        intro id entry model hget
        exact hreported id entry model ((KeyedMap.get_rehash _ inner hperm id).symm.trans hget)
      next => cases hrun

theorem fleet_modelsReported {toRfc3339 : ℤ → String} {s after : Fleet} {action : ℤ × FleetStep}
    (hreported : ModelsReported s.coordinator)
    (hstep : (fleet toRfc3339).step s action = some after) :
    ModelsReported after.coordinator := by
  simp only [fleet] at hstep
  split at hstep
  case isFalse => cases hstep
  obtain ⟨now, step⟩ := action
  cases step with
  | call made =>
      obtain ⟨next, hrun, rfl⟩ := Option.map_eq_some_iff.mp hstep
      exact hreported.run hrun
  | die | reconcile =>
      cases hstep
      exact hreported

/-! ## What a pass reads -/

/-- The entry counts as serving the model. -/
def serves (entry : NodeEntry) (model : String) : Bool :=
  entry.nodeId ≠ "" ∧ model ≠ "" ∧ entry.currentModel = some model

/-- A lookup among computed pairs is a search for the first element that computes
the key. -/
theorem lookup_filterMap {α β : Type} {f : α → Option (String × β)} {key : String}
    {found : α → Bool} {value : α → β}
    (hf : ∀ x v, f x = some (key, v) ↔ found x ∧ value x = v) (items : List α) :
    (items.filterMap f).lookup key = (items.find? found).map value := by
  induction items with
  | nil => rfl
  | cons item rest ih =>
      rw [List.find?_cons]
      by_cases hfound : found item
      · have hitem : f item = some (key, value item) := (hf _ _).mpr ⟨hfound, rfl⟩
        simp [hitem, hfound]
      · cases hitem : f item with
        | none => simpa [hitem, hfound] using ih
        | some pair =>
            obtain ⟨other, v⟩ := pair
            have hne : key ≠ other := by
              rintro rfl
              exact hfound ((hf item v).mp hitem).1
            simpa [hitem, hfound, List.lookup_cons, beq_eq_false_iff_ne.mpr hne] using ih

theorem serving_listedJson (toRfc3339 : ℤ → String) (entry : NodeEntry) (model node : String) :
    serving (listedJson toRfc3339 entry) = some (model, node) ↔
      serves entry model ∧ entry.nodeId = node := by
  have hid : ((listedJson toRfc3339 entry).str? "node_id").getD "" = entry.nodeId := rfl
  have hmodel : ((listedJson toRfc3339 entry).str? "current_model").getD "" =
      entry.currentModel.getD "" :=
    congrArg (·.getD "") (Json.asStr?_ofOption entry.currentModel)
  simp only [serving, hid, hmodel, serves, decide_eq_true_eq]
  cases entry.currentModel with
  | none => simp
  | some served =>
      simp only [Option.getD_some, Option.some.injEq]
      split <;> grind

/-- The pass sees the first listed entry that serves the model, offline or not. -/
theorem loadedOn_listNodes (toRfc3339 : ℤ → String) (reg : Registry) (model : String) :
    loadedOn (listNodes toRfc3339 reg) model =
      (reg.list.find? (serves · model)).map NodeEntry.nodeId := by
  rw [loadedOn, listNodes, nodesOf_nodesJson, List.filterMap_map]
  exact lookup_filterMap (fun entry node => serving_listedJson toRfc3339 entry model node) reg.list

/-! ## What a pass leaves -/

def IsOffline (entry : NodeEntry) : Prop := NodeStatus.ofI32 entry.info.status = .offline

/-- The tables a pass leaves say of no model that it is available on a node that
is offline, or whose last report did not carry it; and a dead worker that is
marked offline serves nothing any more. -/
structure Truthful (before : Fleet) (after : ModelTables) : Prop where
  serving : ∀ id row, after.models.get id = some row → row.status = "available" →
    row.loadedOnNode ≠ "" →
    (∃ entry, before.coordinator.registry.get row.loadedOnNode = some entry ∧ ¬IsOffline entry) ∧
      Reported before.coordinator.log row.loadedOnNode id
  cleared : ∀ node ∈ before.stopped, node ≠ "" → ∀ entry,
    before.coordinator.registry.get node = some entry → IsOffline entry →
    ∀ id row, after.models.get id = some row → row.status = "available" → row.loadedOnNode ≠ node

/-- For every row that a pass can leave available, the first listed node that
serves the model is not offline. -/
def FirstServingAlive (s : Fleet) : Prop :=
  ∀ id row entry, s.tables.models.get id = some row →
    row.status ∈ ["available", "downloading", "loading"] →
    s.coordinator.registry.list.find? (serves · id) = some entry → ¬IsOffline entry

section Pass

variable {toRfc3339 : ℤ → String} {s : Fleet} {now : ℤ}

/-- Which rows a pass leaves available on a node. -/
theorem reconciled_available {id node : String} (hnode : node ≠ "") :
    (∃ row, (s.reconciled toRfc3339 now).models.get id = some row ∧ row.status = "available" ∧
        row.loadedOnNode = node) ↔
      ∃ row entry, s.tables.models.get id = some row ∧
        row.status ∈ ["available", "downloading", "loading"] ∧
        s.coordinator.registry.list.find? (serves · id) = some entry ∧ entry.nodeId = node := by
  rw [Fleet.reconciled, reconcileOnce_get]
  cases hget : s.tables.models.get id with
  | none => simp
  | some stored =>
      have hid : stored.id = id := KeyedMap.key_of_get hget
      simp only [Option.map_some, Option.some.injEq, exists_eq_left']
      by_cases hstatus : reconciles stored.status
      · rw [if_pos hstatus, ← ModelRow.current_read, ReconcileRow.write_current, hid,
          ReconcileRow.decide_available _ _ _ _ hnode, loadedOn_listNodes, Option.map_eq_some_iff,
          and_comm]
        simp only [exists_and_left, exists_eq_left']
        rfl
      · rw [if_neg hstatus]
        have hout : stored.status = "disabled" ∨ stored.status = "error" := by
          simpa [reconciles, or_iff_not_imp_left] using hstatus
        rcases hout with h | h <;> simp [h]

/-- A pass is truthful exactly when the first nodes it finds are alive. -/
theorem truthful_iff (hreported : ModelsReported s.coordinator) :
    Truthful s (s.reconciled toRfc3339 now) ↔ FirstServingAlive s := by
  constructor
  · intro htruthful id row entry hget hstatus hfind
    have hserves := List.find?_some hfind
    simp only [serves, decide_eq_true_eq] at hserves
    have hlisted := KeyedMap.mem_list.mp (List.mem_of_find?_eq_some hfind)
    -- the pass leaves the row available on the node it found first
    obtain ⟨left, hleft, havailable, hnode⟩ :=
      (reconciled_available hserves.1).mpr ⟨row, entry, hget, hstatus, hfind, rfl⟩
    obtain ⟨⟨other, hother, halive⟩, -⟩ := htruthful.serving id left hleft havailable
      (hnode ▸ hserves.1)
    rw [hnode, hlisted] at hother
    exact Option.some.inj hother ▸ halive
  · intro halive
    have hserving : ∀ id left, (s.reconciled toRfc3339 now).models.get id = some left →
        left.status = "available" → left.loadedOnNode ≠ "" →
        ∃ entry, s.coordinator.registry.get left.loadedOnNode = some entry ∧
          ¬IsOffline entry ∧ Reported s.coordinator.log left.loadedOnNode id := by
      intro id left hleft havailable hnode
      obtain ⟨row, entry, hget, hstatus, hfind, hid⟩ :=
        (reconciled_available hnode).mp ⟨left, hleft, havailable, rfl⟩
      have hserves := List.find?_some hfind
      simp only [serves, decide_eq_true_eq] at hserves
      have hlisted := KeyedMap.mem_list.mp (List.mem_of_find?_eq_some hfind)
      rw [hid] at hlisted
      exact ⟨entry, hlisted, halive id row entry hget hstatus hfind,
        hreported _ entry id hlisted hserves.2.2⟩
    constructor
    · intro id left hleft havailable hnode
      obtain ⟨entry, hlisted, hon, hsent⟩ := hserving id left hleft havailable hnode
      exact ⟨⟨entry, hlisted, hon⟩, hsent⟩
    · rintro node - hnode entry hlisted hoffline id left hleft havailable rfl
      obtain ⟨other, hother, hon, -⟩ := hserving id left hleft havailable hnode
      rw [hlisted] at hother
      exact hon (Option.some.inj hother ▸ hoffline)

end Pass

/-! ## Every run -/

/-- The passes of the run are truthful. -/
def PassesTruthful (toRfc3339 : ℤ → String) (s : Fleet) (action : ℤ × FleetStep) : Prop :=
  action.2 = .reconcile → Truthful s (s.reconciled toRfc3339 action.1)

/-- The passes of the run find living nodes first. -/
def PassesFindAlive (s : Fleet) (action : ℤ × FleetStep) : Prop :=
  action.2 = .reconcile → FirstServingAlive s

/-- In every run of reports, deaths, watchdog ticks and passes, the passes tell
the truth exactly when the first listed node that serves a model is never one
that is marked offline. -/
theorem passesTruthful_iff_passesFindAlive (toRfc3339 : ℤ → String) (start : ℤ)
    (tables : ModelTables) (actions : List (ℤ × FleetStep)) :
    (fleet toRfc3339).Meets (PassesTruthful toRfc3339) (.initial start tables) actions ↔
      (fleet toRfc3339).Meets PassesFindAlive (.initial start tables) actions := by
  refine Machine.meets_iff (M := fleet toRfc3339)
    (fun _ _ _ (hreported : ModelsReported _) hstep => fleet_modelsReported hreported hstep)
    (fun s action _ hreported _ => ?_) ?_ actions
  · simp only [PassesTruthful, PassesFindAlive, truthful_iff hreported]
  · intro id entry model hget
    cases hget

/-- A model that a worker was asked to download. -/
def downloadingTable : ModelTables :=
  ⟨KeyedMap.empty.insert ⟨"m", "", "", "downloading", false, "repo", "file", "file", "x", 0, 0⟩, []⟩

/-- A worker reports the model and dies; the watchdog marks it offline, and the
next pass declares the model available on it. -/
theorem deadWorker_servesModel :
    ¬(fleet fun _ => "").Meets (PassesTruthful fun _ => "") (.initial 0 downloadingTable)
      [(0, .call (.reportNode "10.0.0.1" (bareBody "x" "hw" (some "m")))), (0, .die "x"),
        (seconds 61, .call .watchdogTick), (seconds 62, .reconcile)] := by
  intro hmeets
  iterate 3 obtain ⟨-, hmeets⟩ := hmeets _ rfl
  obtain ⟨htruthful, -⟩ := hmeets _ rfl
  obtain ⟨⟨entry, hget, halive⟩, -⟩ := (htruthful rfl).serving "m" _ rfl rfl (by decide)
  cases hget
  exact halive rfl

end GpuCluster.Cluster
