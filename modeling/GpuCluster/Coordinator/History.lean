import GpuCluster.Coordinator.Server

/-! # What the registry remembers

Every entry of the registry was put there by a report, a registration or the
watchdog. A recorded registry keeps the writes beside the map, so that a
statement about the past can be made of a state. The log is ghost state: no
operation reads it.
-/

namespace GpuCluster.Coordinator

open Common Foundation Proto

/-- A write to the registry, with what it was made from. -/
inductive Write
  | report (time : ℤ) (sent : Report)
  | register (time : ℤ) (info : NodeInfo)
  | mark (time : ℤ) (snapshot : NodeEntry)
  deriving DecidableEq

namespace Write

def time : Write → ℤ
  | .report time _ => time
  | .register time _ => time
  | .mark time _ => time

/-- The entry the write stores. -/
def entry : Write → NodeEntry
  | .report time sent => sent.entry time
  | .register time info => registerEntry time info
  | .mark time snapshot => offlineEntry time snapshot

abbrev nodeId (write : Write) : String := write.entry.nodeId

/-- Reports and registrations come from a worker; a mark does not. -/
def isAccepted : Write → Bool
  | .report .. => true
  | .register .. => true
  | .mark .. => false

/-- The heartbeat time of an entry is the time of its write, whoever wrote it. -/
@[simp] theorem entry_lastHeartbeat (write : Write) : write.entry.lastHeartbeat = write.time := by
  cases write <;> rfl

/-- A marked entry is out of dispatch. -/
theorem inDispatch_mark {write : Write} (hmark : write.isAccepted = false) :
    inDispatch (.ofI32 write.entry.info.status) = false := by
  cases write with
  | report => cases hmark
  | register => cases hmark
  | mark => rfl

end Write

/-- The registry, the last clock reading, and the writes so far, newest first. -/
structure Recorded where
  registry : Registry
  clock : ℤ
  log : List Write

/-- The newest write to a node's entry. -/
def lastWrite (log : List Write) (id : String) : Option Write := log.find? (·.nodeId = id)

theorem lastWrite_cons (write : Write) (log : List Write) (id : String) :
    lastWrite (write :: log) id = if write.nodeId = id then some write else lastWrite log id := by
  simp only [lastWrite, List.find?_cons]
  split <;> simp_all

theorem lastWrite_some {log : List Write} {id : String} {write : Write}
    (hlast : lastWrite log id = some write) : write ∈ log ∧ write.nodeId = id := by
  refine ⟨List.mem_of_find?_eq_some hlast, ?_⟩
  simpa using List.find?_some hlast

/-- In a log in order of time, the last write is the newest one to its node. -/
theorem time_le_lastWrite {log : List Write}
    (hsorted : log.Pairwise fun newer older => older.time ≤ newer.time) {write : Write}
    (hmem : write ∈ log) :
    ∃ newest, lastWrite log write.nodeId = some newest ∧ write.time ≤ newest.time := by
  induction log with
  | nil => cases hmem
  | cons head rest ih =>
      rw [lastWrite_cons]
      obtain ⟨hhead, hrest⟩ := List.pairwise_cons.mp hsorted
      split
      -- the head is the newest write of all
      next hsame =>
        refine ⟨head, rfl, ?_⟩
        rcases List.mem_cons.mp hmem with rfl | hmem
        · exact le_rfl
        · exact hhead write hmem
      next hother =>
        rcases List.mem_cons.mp hmem with rfl | hmem
        · exact absurd rfl hother
        · exact ih hrest hmem

namespace Recorded

/-- A coordinator that just started. -/
def initial (start : ℤ) : Recorded := ⟨.empty, start, []⟩

/-- Apply a write to the registry and record it. -/
def write (state : Recorded) (write : Write) : Recorded :=
  ⟨state.registry.insert write.entry, write.time, write :: state.log⟩

/-- The map holds exactly the last write to each node, and the log is in order
of time up to the clock. -/
structure Faithful (state : Recorded) : Prop where
  get_eq : ∀ id, state.registry.get id = (lastWrite state.log id).map Write.entry
  sorted : state.log.Pairwise fun newer older => older.time ≤ newer.time
  past : ∀ write ∈ state.log, write.time ≤ state.clock

theorem faithful_initial (start : ℤ) : (initial start).Faithful where
  get_eq id := by simp [initial, lastWrite]
  sorted := .nil
  past := by simp [initial]

theorem Faithful.write {state : Recorded} (hstate : state.Faithful) {write : Write}
    (htime : state.clock ≤ write.time) : (state.write write).Faithful where
  get_eq id := by
    simp only [Recorded.write, KeyedMap.get_insert, lastWrite_cons, eq_comm (a := id)]
    split
    · rfl
    · exact hstate.get_eq id
  sorted := List.pairwise_cons.mpr
    ⟨fun older holder => (hstate.past older holder).trans htime, hstate.sorted⟩
  past older holder := by
    rcases List.mem_cons.mp holder with rfl | holder
    · exact le_rfl
    · exact (hstate.past older holder).trans htime

/-- Time passes and the map may be rearranged; lookups do not notice. -/
theorem Faithful.advance {state next : Recorded} (hstate : state.Faithful)
    (hget : ∀ id, next.registry.get id = state.registry.get id) (hlog : next.log = state.log)
    (htime : state.clock ≤ next.clock) : next.Faithful where
  get_eq id := by rw [hget, hlog, hstate.get_eq]
  sorted := hlog ▸ hstate.sorted
  past older holder := (hstate.past older (hlog ▸ holder)).trans htime

/-- A stored entry comes from the last write to its node. -/
theorem Faithful.lastWrite_of_get {state : Recorded} (hstate : state.Faithful) {id : String}
    {entry : NodeEntry} (hget : state.registry.get id = some entry) :
    ∃ write, lastWrite state.log id = some write ∧ write.entry = entry :=
  Option.map_eq_some_iff.mp ((hstate.get_eq id).symm.trans hget)

/-- No write to a node is newer than its stored heartbeat time. -/
theorem Faithful.time_le_lastHeartbeat {state : Recorded} (hstate : state.Faithful)
    {write : Write} (hmem : write ∈ state.log) {entry : NodeEntry}
    (hget : state.registry.get write.nodeId = some entry) : write.time ≤ entry.lastHeartbeat := by
  obtain ⟨newest, hlast, hle⟩ := time_le_lastWrite hstate.sorted hmem
  rw [hstate.get_eq, hlast, Option.map_some, Option.some.injEq] at hget
  rw [← hget, Write.entry_lastHeartbeat]
  exact hle

/-! ## Recorded operations -/

/-- `reportNode`, recorded. -/
def reportNode (state : Recorded) (now : ℤ) (peer : String) (body : Json) : Recorded :=
  match decodeReport peer body with
  | .error _ => { state with clock := now }
  | .ok report =>
      match checkDuplicate state.registry now report with
      | .error _ => { state with clock := now }
      | .ok _ => state.write (.report now report)

/-- `register`, recorded. -/
def register (state : Recorded) (now : ℤ) (freshId : String) (req : RegisterRequest) : Recorded :=
  match req.stored freshId with
  | none => { state with clock := now }
  | some info => state.write (.register now info)

/-- `watchdogTick`, recorded. -/
def watchdogTick (state : Recorded) (now : ℤ) : Recorded :=
  (state.registry.list.filter (·.isStale now)).foldl
    (fun state snapshot => state.write (.mark now snapshot)) { state with clock := now }

/-- Another iteration order of the same map. -/
def rehash (state : Recorded) (now : ℤ) (inner : AList fun _ : String => NodeEntry) :
    Option Recorded :=
  if hperm : inner.entries.Perm state.registry.inner.entries then
    some { state with registry := state.registry.rehash inner hperm, clock := now }
  else none

/-- What the recorded report does to the map is what the handler does. -/
theorem reportNode_registry (state : Recorded) (now : ℤ) (peer : String) (body : Json) :
    (state.reportNode now peer body).registry =
      match Coordinator.reportNode state.registry now peer body with
      | .ok (registry, _) => registry
      | .error _ => state.registry := by
  unfold Recorded.reportNode
  cases hdecode : decodeReport peer body with
  | error refusal => rw [reportNode_of_error hdecode]
  | ok report =>
      rw [reportNode_of_decode hdecode]
      simp only [checkDuplicate]
      cases state.registry.findActiveWithHwFingerprint now report.info.hwFingerprint
        report.info.nodeId stale <;> rfl

theorem register_registry (state : Recorded) (now : ℤ) (freshId : String)
    (req : RegisterRequest) :
    (state.register now freshId req).registry =
      match Coordinator.register state.registry now freshId req with
      | .ok (registry, _) => registry
      | .error _ => state.registry := by
  unfold Recorded.register Coordinator.register
  cases req.stored freshId <;> rfl

theorem foldl_write_registry (now : ℤ) (snapshots : List NodeEntry) (state : Recorded) :
    (snapshots.foldl (fun state snapshot => state.write (.mark now snapshot)) state).registry =
      snapshots.foldl (fun reg entry => reg.insert (offlineEntry now entry)) state.registry := by
  induction snapshots generalizing state with
  | nil => rfl
  | cons snapshot rest ih => exact ih _

theorem watchdogTick_registry (state : Recorded) (now : ℤ) :
    (state.watchdogTick now).registry = Coordinator.watchdogTick state.registry now :=
  foldl_write_registry now _ _

end Recorded

end GpuCluster.Coordinator
