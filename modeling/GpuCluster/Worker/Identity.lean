import GpuCluster.Foundation.Text
import GpuCluster.Worker.Heartbeat

/-! # The worker's start

A worker takes its configuration from its environment and its node id from the
file `node.id` of its data directory, which it creates when there is none.
-/

namespace GpuCluster.Worker

open Foundation Proto

structure WorkerConfig where
  coordinatorUrl : String
  dataDir : String
  displayName : Option String
  deriving DecidableEq

/-- `Args::parse`. The first entry for a name counts, and a flag is an entry
before the environment's own. -/
def WorkerConfig.parse (env : List (String × String)) : WorkerConfig where
  coordinatorUrl := (env.lookup "COORDINATOR_URL").getD "http://coordinator:7000"
  dataDir := (env.lookup "NODE_DATA_DIR").getD "/var/lib/gpucluster"
  displayName := env.lookup "NODE_DISPLAY_NAME"

/-- An I/O error on the way to the id. A failed write may leave the first
characters of the id behind. -/
inductive IdFault
  | directory
  | file (written : Option ℕ)
  deriving DecidableEq

/-- `load_or_create_node_id`: the id or the context of the error, and what
`node.id` holds afterwards. -/
def loadOrCreateNodeId (file : Option String) (freshId : String) (fault : Option IdFault) :
    Except String String × Option String :=
  match file, fault with
  | some content, none => (.ok (trim content), some content)
  | some content, some _ => (.error "read node.id", some content)
  | none, none => (.ok freshId, some freshId)
  | none, some .directory => (.error "create data dir", none)
  | none, some (.file written) => (.error "write node.id", written.map (takeChars · freshId))

/-- A file that is there decides the id; otherwise it is the fresh one. -/
theorem loadOrCreateNodeId_ok {file later : Option String} {freshId id : String}
    {fault : Option IdFault} (hload : loadOrCreateNodeId file freshId fault = (.ok id, later)) :
    fault = none ∧ (file.map trim).getD freshId = id := by
  unfold loadOrCreateNodeId at hload
  split at hload
  case h_1 | h_3 =>
    cases hload
    exact ⟨rfl, rfl⟩
  all_goals cases hload

/-- Without an error there is an id. -/
theorem loadOrCreateNodeId_none (file : Option String) (freshId : String) :
    (loadOrCreateNodeId file freshId none).1 = .ok ((file.map trim).getD freshId) := by
  cases file <;> rfl

/-- The inventory a worker reports: what it collected, under its own id. The
configured name replaces the collected one. -/
def identified (config : WorkerConfig) (nodeId : String) (collected : NodeInfo) : NodeInfo :=
  { collected with nodeId, displayName := config.displayName.getD collected.displayName }

/-- The next inventory of the heartbeat loop keeps the id and the name. -/
def refreshed (info fresh : NodeInfo) : NodeInfo :=
  { fresh with nodeId := info.nodeId, displayName := info.displayName }

/-- The inventory of the last heartbeat before a shutdown. -/
def draining (info : NodeInfo) : NodeInfo := { info with status := NodeStatus.draining.toI32 }

end GpuCluster.Worker
