import GpuCluster.Mgmt.EnrollResponse
import GpuCluster.Worker.Identity

/-! # The agent of a host

`enroll` persists what the management backend answered, and `run_loop` starts
the worker, as a process on macOS and in a container elsewhere.
-/

namespace GpuCluster.Bootstrapper

open Mgmt Worker

structure Identity where
  nodeId : String
  signingKeyB64 : String
  clientCert : NodeCert
  clientKeyPem : String
  caChainPem : String
  wgConfigIni : Option String
  coordinatorEndpoint : String
  deriving DecidableEq

/-- The identity `enroll::run` persists. -/
def Identity.ofResponse (resp : EnrollResponse) (signingKeyB64 : String) : Identity where
  nodeId := resp.nodeId
  signingKeyB64 := signingKeyB64
  clientCert := resp.clientCert
  clientKeyPem := resp.clientKeyPem
  caChainPem := resp.caChainPem
  wgConfigIni := resp.wgConfigIni
  coordinatorEndpoint := resp.coordinatorEndpoint

/-- The file `identity.json`. It is truncated before it is written. -/
inductive IdentityFile
  | absent
  | truncated
  | written (identity : Identity)
  deriving DecidableEq

/-- `load_identity`. `parseMessage` is the text of the parser's error. -/
def loadIdentity (parseMessage : String) : IdentityFile → Except String (Option Identity)
  | .absent => .ok none
  | .truncated => .error parseMessage
  | .written identity => .ok (some identity)

/-- The variables `run_loop` hands to the worker. -/
def Identity.env (identity : Identity) : List (String × String) :=
  [("COORDINATOR_URL", identity.coordinatorEndpoint), ("NODE_ID", identity.nodeId)]

/-- The way a host starts its worker: `native_worker_required`, or not. -/
inductive Launch
  | native
  | docker
  deriving DecidableEq

/-- The worker's environment. A process inherits the agent's; a container gets
the image's. -/
def Launch.env (dataDir : String) (env inherited : List (String × String)) :
    Launch → List (String × String)
  | .native => env ++ ("NODE_DATA_DIR", dataDir) :: inherited
  | .docker => env ++ [("NODE_DATA_DIR", "/var/lib/gpucluster")]

/-- Directories of the worker and the host's directories they are. -/
def Launch.mounts (dataDir : String) : Launch → List (String × String)
  | .native => []
  | .docker => [("/var/lib/gpucluster", dataDir)]

/-- Either way the worker's data directory is the agent's. -/
theorem Launch.mounted_dataDir (launch : Launch) (dataDir : String) (identity : Identity)
    (inherited : List (String × String)) :
    let config := WorkerConfig.parse (launch.env dataDir identity.env inherited)
    ((launch.mounts dataDir).lookup config.dataDir).getD config.dataDir = dataDir := by
  cases launch with
  | native => rfl
  | docker => rfl

/-- `run_loop` up to the start of the worker. -/
def runLoop (parseMessage : String) (file : IdentityFile) : Except String Identity :=
  match loadIdentity parseMessage file with
  | .ok (some identity) => .ok identity
  | .ok none => .error "not enrolled — run `gpucluster-agent enroll` first"
  | .error message => .error message

/-- The agent starts a worker for the identity it has on disk. -/
theorem runLoop_ok {parseMessage : String} {file : IdentityFile} {identity : Identity} :
    runLoop parseMessage file = .ok identity ↔ file = .written identity := by
  cases file with
  | absent | truncated => simp [runLoop, loadIdentity]
  | written other => simp [runLoop, loadIdentity]

end GpuCluster.Bootstrapper
