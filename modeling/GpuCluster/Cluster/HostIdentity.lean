import GpuCluster.Bootstrapper.Service
import GpuCluster.Cluster.Wire
import GpuCluster.Coordinator.Takeover
import GpuCluster.Mgmt.NodeStatus

/-! # The two ids of a host

The management backend issues a node id, which the agent keeps in its identity
file and hands to the worker. The worker reports under the id of its own file.
The runs in which the two are the same are characterised by what that file holds
when a worker starts.
-/

namespace GpuCluster.Cluster

open Bootstrapper Common Foundation Mgmt Proto Worker
open Coordinator (Call Recorded)

/-! ## A host -/

/-- A running worker. `acknowledged` is the id in the coordinator's last
acceptance of a report. -/
structure WorkerProcess where
  pid : ℕ
  container : Bool
  config : WorkerConfig
  info : NodeInfo
  acknowledged : Option String

/-- A host with the two services it talks to. `nodeIdFiles` is the content of
`node.id` in each of its directories. -/
structure Host where
  mgmt : NodeTable
  coordinator : Recorded
  identityFile : IdentityFile
  nodeIdFiles : String → Option String
  workers : KeyedMap WorkerProcess.pid

/-- What does not change in a run. -/
structure HostSetup where
  verify : String → String → Bool
  launch : Launch
  dataDir : String
  parseMessage : String

/-- What a start of a worker finds besides its environment and its files. -/
structure Startup where
  pid : ℕ
  collected : NodeInfo
  freshId : String
  fault : Option IdFault

inductive HostStep
  | mgmt (step : NodeStep)
  /-- The answer to an enrollment arrives; `complete` tells whether the identity is
  written to its end. -/
  | enroll (call : ℕ) (context : EnrollContext) (signingKeyB64 : String) (complete : Bool)
  | runAgent (inherited : List (String × String)) (startup : Startup)
  /-- A worker that is started by hand. -/
  | runWorker (env : List (String × String)) (startup : Startup)
  | collect (pid : ℕ) (fresh : NodeInfo)
  | publish (pid : ℕ) (now : ℤ) (peer : String) (sup : Supervisor) (advertisedHost : Option String)
      (controlEndpoint : String) (draining : Bool)
  | exit (pid : ℕ)
  /-- Any other call to the coordinator. -/
  | coordinator (now : ℤ) (call : Call)
  /-- `uninstall --purge`, which may stop on the way. -/
  | purge (identity nodeId : Bool)
  /-- A `node.id` that somebody else writes or removes. -/
  | editNodeId (dir : String) (content : Option String)

namespace Host

/-- A fresh host. -/
def initial (db : Database) (nodeIdFiles : String → Option String) (start : ℤ) : Host where
  mgmt := ⟨.initial { db with nodes := .empty }, []⟩
  coordinator := .initial start
  identityFile := .absent
  nodeIdFiles := nodeIdFiles
  workers := .empty

/-- The container's name is taken, so `docker run` fails. -/
def refusesLaunch (s : Host) (setup : HostSetup) : Bool :=
  setup.launch = .docker && s.workers.list.any (·.container)

/-- A worker's `main` up to its first inventory. An error ends the process. -/
def startWorker (s : Host) (container : Bool) (env mounts : List (String × String))
    (startup : Startup) : Option Host :=
  let config := WorkerConfig.parse env
  let dir := (mounts.lookup config.dataDir).getD config.dataDir
  let (outcome, file) := loadOrCreateNodeId (s.nodeIdFiles dir) startup.freshId startup.fault
  let s' := { s with nodeIdFiles := Function.update s.nodeIdFiles dir file }
  -- version 7 ids do not repeat
  if s.mgmt.enrolling.minted startup.freshId = none ∧
      s.mgmt.enrolling.db.nodes.get startup.freshId = none ∧
      s.workers.get startup.pid = none then
    match outcome with
    | .error _ => some s'
    | .ok nodeId => some { s' with workers := s'.workers.insert {
        pid := startup.pid
        container := container
        config := config
        info := identified config nodeId startup.collected
        acknowledged := none } }
  else none

/-- `run_loop` up to its endless loop. -/
def runAgent (s : Host) (setup : HostSetup) (inherited : List (String × String))
    (startup : Startup) : Option Host :=
  match runLoop setup.parseMessage s.identityFile with
  | .error _ => some s
  | .ok identity =>
      if s.refusesLaunch setup then some s
      else s.startWorker (setup.launch = .docker)
        (setup.launch.env setup.dataDir identity.env inherited) (setup.launch.mounts setup.dataDir)
        startup

/-- `publish` or `publish_draining`, with the coordinator's answer. -/
def publish (s : Host) (pid : ℕ) (now : ℤ) (peer : String) (sup : Supervisor)
    (advertisedHost : Option String) (controlEndpoint : String) (isDraining : Bool) :
    Option Host := do
  let worker ← s.workers.get pid
  let info := if isDraining then draining worker.info else worker.info
  let body := publishBody info sup advertisedHost controlEndpoint
  let coordinator ← Coordinator.coordinator.step s.coordinator (now, .reportNode peer body)
  let acknowledged :=
    match Coordinator.reportNode s.coordinator.registry now peer body with
    | .ok (_, id) => some id
    | .error _ => worker.acknowledged
  return { s with coordinator, workers := s.workers.insert { worker with acknowledged } }

end Host

def HostStep.run (setup : HostSetup) (s : Host) : HostStep → Option Host
  | .mgmt step => ((nodeTable setup.verify).step s.mgmt step).map fun mgmt => { s with mgmt }
  | .enroll call context signingKeyB64 complete =>
      match s.mgmt.enrolling.calls call with
      | .succeeded a nodeId => some { s with
          identityFile := if complete then
            .written (.ofResponse (a.response nodeId context) signingKeyB64) else .truncated }
      | _ => none
  | .runAgent inherited startup => s.runAgent setup inherited startup
  | .runWorker env startup => s.startWorker false env [] startup
  | .collect pid fresh => (s.workers.get pid).map fun worker =>
      { s with workers := s.workers.insert { worker with info := refreshed worker.info fresh } }
  | .publish pid now peer sup advertisedHost controlEndpoint draining =>
      s.publish pid now peer sup advertisedHost controlEndpoint draining
  | .exit pid => some { s with workers := s.workers.erase pid }
  | .coordinator now call => (Coordinator.coordinator.step s.coordinator (now, call)).map
      fun coordinator => { s with coordinator }
  | .purge identity nodeId => some { s with
      identityFile := if identity then .absent else s.identityFile
      nodeIdFiles := if nodeId then Function.update s.nodeIdFiles setup.dataDir none
        else s.nodeIdFiles }
  | .editNodeId dir content => some { s with
      nodeIdFiles := Function.update s.nodeIdFiles dir content }

/-- One host's agent and workers, in any order of their starts. -/
def hosts (setup : HostSetup) : Machine Host HostStep where
  init s := ∃ db nodeIdFiles start, s = .initial db nodeIdFiles start
  step s action := action.run setup s

/-! ## One node -/

/-- Certificate, management row, workers and coordinator entries of an enrolled
host go by the issued id. -/
structure Host.OneNode (s : Host) (identity : Identity) : Prop where
  certificate : identity.clientCert.commonName = identity.nodeId
  row : (s.mgmt.enrolling.db.nodes.get identity.nodeId).isSome
  worker : ∀ pid worker, s.workers.get pid = some worker → worker.info.nodeId = identity.nodeId
  entry : ∀ pid worker id, s.workers.get pid = some worker → worker.acknowledged = some id →
    id = identity.nodeId ∧ (s.coordinator.registry.get id).isSome

def Host.NamesOneNode (s : Host) : Prop :=
  ∀ identity, s.identityFile = .written identity → s.OneNode identity

/-- The directory's `node.id` holds the id, up to white space around it. -/
def Host.HoldsNodeId (s : Host) (dir nodeId : String) : Prop :=
  (s.nodeIdFiles dir).map trim = some nodeId

/-- A worker that starts on an enrolled host finds the issued id in its file, and
a host that enrolls runs workers of the id it is issued only. -/
def FindsIssuedId (setup : HostSetup) (s : Host) : HostStep → Prop
  | .enroll call _ _ true => ∀ a nodeId, s.mgmt.enrolling.calls call = .succeeded a nodeId →
      ∀ pid worker, s.workers.get pid = some worker → worker.info.nodeId = nodeId
  | .runAgent _ startup => ∀ identity, s.identityFile = .written identity →
      s.refusesLaunch setup = false → startup.fault = none →
      s.HoldsNodeId setup.dataDir identity.nodeId
  | .runWorker env startup => ∀ identity, s.identityFile = .written identity →
      startup.fault = none → s.HoldsNodeId (WorkerConfig.parse env).dataDir identity.nodeId
  | _ => True

/-! ## What a step does -/

/-- Rows, entries and workers stay or go; no worker changes its id, and an
identity that is read afterwards was there before. -/
structure Host.Follows (s next : Host) : Prop where
  identified : s.mgmt.enrolling.Identified → next.mgmt.enrolling.Identified
  row : ∀ id, (s.mgmt.enrolling.db.nodes.get id).isSome →
    (next.mgmt.enrolling.db.nodes.get id).isSome
  entry : ∀ id, (s.coordinator.registry.get id).isSome → (next.coordinator.registry.get id).isSome
  identity : ∀ identity, next.identityFile = .written identity → s.identityFile = .written identity
  worker : ∀ pid worker, next.workers.get pid = some worker → ∃ old,
    s.workers.get pid = some old ∧ worker.info.nodeId = old.info.nodeId ∧
      ∀ id, worker.acknowledged = some id → old.acknowledged = some id ∨
        id = worker.info.nodeId ∧ (next.coordinator.registry.get id).isSome

inductive HostMove (setup : HostSetup) (s : Host) : HostStep → Host → Prop
  | follows (action : HostStep) (next : Host) (hfollows : s.Follows next)
      (hfinds : FindsIssuedId setup s action) : HostMove setup s action next
  | enrolled (call : ℕ) (a : Attempt) (nodeId : String) (context : EnrollContext)
      (signingKeyB64 : String) (hcall : s.mgmt.enrolling.calls call = .succeeded a nodeId) :
      HostMove setup s (.enroll call context signingKeyB64 true) { s with
        identityFile := .written (.ofResponse (a.response nodeId context) signingKeyB64) }
  | started (action : HostStep) (dir freshId : String) (worker : WorkerProcess)
      (nodeIdFiles : String → Option String)
      (hfresh : s.mgmt.enrolling.db.nodes.get freshId = none)
      (hid : worker.info.nodeId = ((s.nodeIdFiles dir).map trim).getD freshId)
      (hnew : worker.acknowledged = none)
      (hfinds : FindsIssuedId setup s action ↔
        ∀ identity, s.identityFile = .written identity → s.HoldsNodeId dir identity.nodeId) :
      HostMove setup s action { s with nodeIdFiles, workers := s.workers.insert worker }

section Moves

variable {setup : HostSetup} {s next : Host}

/-- A step that leaves the two services and the workers alone. -/
theorem Host.Follows.of_files {identityFile : IdentityFile} {nodeIdFiles : String → Option String}
    (hidentity : ∀ identity, identityFile = .written identity →
      s.identityFile = .written identity) :
    s.Follows { s with identityFile, nodeIdFiles } where
  identified := id
  row _ h := h
  entry _ h := h
  identity := hidentity
  worker _ worker hget := ⟨worker, hget, rfl, fun _ hid => .inl hid⟩

theorem coordinator_get_isSome {now : ℤ} {call : Call} {coordinator : Recorded}
    (hstep : Coordinator.coordinator.step s.coordinator (now, call) = some coordinator)
    {id : String} (hentry : (s.coordinator.registry.get id).isSome) :
    (coordinator.registry.get id).isSome := by
  obtain ⟨htime, hrun⟩ := Coordinator.clock_le_of_step hstep
  exact Call.run_get_isSome htime hrun hentry

/-- A worker gets an id from its file, or a fresh one. -/
theorem startWorker_moves {action : HostStep} {container : Bool}
    {env mounts : List (String × String)} {startup : Startup} {dir : String}
    (hdir : (mounts.lookup (WorkerConfig.parse env).dataDir).getD
      (WorkerConfig.parse env).dataDir = dir)
    (hfinds : FindsIssuedId setup s action ↔ ∀ identity, s.identityFile = .written identity →
      startup.fault = none → s.HoldsNodeId dir identity.nodeId)
    (hstart : s.startWorker container env mounts startup = some next) :
    HostMove setup s action next := by
  simp only [Host.startWorker, hdir] at hstart
  split at hstart
  next hguard =>
    cases hload : (loadOrCreateNodeId (s.nodeIdFiles dir) startup.freshId startup.fault).1 with
    | error message =>
        rw [hload] at hstart
        cases hstart
        refine .follows action _ (.of_files fun _ h => h) (hfinds.mpr fun _ _ hfault => ?_)
        exact absurd hload (by simp [hfault, loadOrCreateNodeId_none])
    | ok nodeId =>
        rw [hload] at hstart
        cases hstart
        obtain ⟨hfault, hid⟩ := loadOrCreateNodeId_ok (Prod.ext hload rfl)
        refine .started action dir startup.freshId _ _ hguard.2.1 hid.symm rfl (hfinds.trans ?_)
        simp only [hfault, true_imp_iff]
  next => cases hstart

theorem publish_moves {pid : ℕ} {now : ℤ} {peer : String} {sup : Supervisor}
    {advertisedHost : Option String} {controlEndpoint : String} {isDraining : Bool}
    (hpublish : s.publish pid now peer sup advertisedHost controlEndpoint isDraining = some next) :
    s.Follows next := by
  obtain ⟨worker, hworker, hpublish⟩ := Option.bind_eq_some_iff.mp hpublish
  obtain ⟨coordinator, hstep, hpublish⟩ := Option.bind_eq_some_iff.mp hpublish
  cases hpublish
  have hpid : worker.pid = pid := KeyedMap.key_of_get hworker
  refine ⟨id, fun _ h => h, fun _ h => coordinator_get_isSome hstep h, fun _ h => h, ?_⟩
  intro other later hget
  rcases KeyedMap.get_insert_eq_some.mp hget with ⟨hother, rfl⟩ | ⟨-, hold⟩
  · have hsame : other = pid := hother.trans hpid
    subst hsame
    refine ⟨worker, hworker, rfl, ?_⟩
    intro id hack
    simp only at hack
    split at hack
    next registry answered hanswer =>
      cases hack
      obtain ⟨hid, hentry⟩ := nodeId_of_reportNode_publishBody hanswer
      refine .inr ⟨?_, ?_⟩
      · rw [hid]
        cases isDraining <;> rfl
      · obtain ⟨-, hrun⟩ := Coordinator.clock_le_of_step hstep
        cases hrun
        simp only
        rw [Coordinator.Recorded.reportNode_registry, hanswer]
        exact hentry
    next => exact .inl hack
  · exact ⟨later, hold, rfl, fun _ hid => .inl hid⟩

theorem run_moves {action : HostStep} (hrun : action.run setup s = some next) :
    HostMove setup s action next := by
  cases action with
  | mgmt step =>
      obtain ⟨mgmt, hstep, rfl⟩ := Option.map_eq_some_iff.mp hrun
      have hmove := nodeTable_moves hstep
      exact .follows _ _ ⟨hmove.identified, fun _ h => hmove.stays h, fun _ h => h, fun _ h => h,
        fun _ worker hget => ⟨worker, hget, rfl, fun _ hid => .inl hid⟩⟩ trivial
  | enroll call context signingKeyB64 complete =>
      simp only [HostStep.run] at hrun
      split at hrun
      next a nodeId hcall =>
        cases hrun
        cases complete with
        | true => exact .enrolled call a nodeId context signingKeyB64 hcall
        | false => exact .follows _ _ (.of_files nofun) trivial
      next => cases hrun
  | runAgent inherited startup =>
      simp only [HostStep.run, Host.runAgent] at hrun
      split at hrun
      next message hloop =>
        cases hrun
        refine .follows _ _ (.of_files fun _ h => h) ?_
        intro identity hwritten
        rw [runLoop_ok.mpr hwritten] at hloop
        cases hloop
      next identity hloop =>
        have hwritten := runLoop_ok.mp hloop
        split at hrun
        next hrefuses =>
          cases hrun
          refine .follows _ _ (.of_files fun _ h => h) ?_
          intro _ _ hnot
          rw [hrefuses] at hnot
          cases hnot
        next hrefuses =>
          refine startWorker_moves (Launch.mounted_dataDir _ _ identity _) ?_ hrun
          simp only [FindsIssuedId, Bool.not_eq_true] at hrefuses ⊢
          simp only [hrefuses, true_imp_iff]
  | runWorker env startup => exact startWorker_moves rfl Iff.rfl hrun
  | collect pid fresh =>
      obtain ⟨worker, hworker, rfl⟩ := Option.map_eq_some_iff.mp hrun
      have hpid : worker.pid = pid := KeyedMap.key_of_get hworker
      refine .follows _ _ ⟨id, fun _ h => h, fun _ h => h, fun _ h => h, ?_⟩ trivial
      intro other later hget
      rcases KeyedMap.get_insert_eq_some.mp hget with ⟨hother, rfl⟩ | ⟨-, hold⟩
      · have hsame : other = pid := hother.trans hpid
        subst hsame
        exact ⟨worker, hworker, rfl, fun _ hid => .inl hid⟩
      · exact ⟨later, hold, rfl, fun _ hid => .inl hid⟩
  | publish pid now peer sup advertisedHost controlEndpoint isDraining =>
      exact .follows _ _ (publish_moves hrun) trivial
  | exit pid =>
      cases hrun
      refine .follows _ _ ⟨id, fun _ h => h, fun _ h => h, fun _ h => h, ?_⟩ trivial
      intro other worker hget
      rw [KeyedMap.get_erase] at hget
      split at hget
      next => cases hget
      next => exact ⟨worker, hget, rfl, fun _ hid => .inl hid⟩
  | coordinator now call =>
      obtain ⟨coordinator, hstep, rfl⟩ := Option.map_eq_some_iff.mp hrun
      exact .follows _ _ ⟨id, fun _ h => h, fun _ h => coordinator_get_isSome hstep h,
        fun _ h => h, fun _ worker hget => ⟨worker, hget, rfl, fun _ hid => .inl hid⟩⟩ trivial
  | purge identity nodeId =>
      cases hrun
      refine .follows _ _ (.of_files fun written h => ?_) trivial
      cases identity with
      | true => cases h
      | false => exact h
  | editNodeId dir content =>
      cases hrun
      exact .follows _ _ (.of_files fun _ h => h) trivial

/-! ## Every run -/

/-- What holds of a host in every run. -/
structure Host.Regular (s : Host) : Prop where
  identified : s.mgmt.enrolling.Identified
  issued : ∀ identity, s.identityFile = .written identity →
    identity.clientCert.commonName = identity.nodeId ∧
      (s.mgmt.enrolling.db.nodes.get identity.nodeId).isSome
  acknowledged : ∀ pid worker id, s.workers.get pid = some worker →
    worker.acknowledged = some id →
      id = worker.info.nodeId ∧ (s.coordinator.registry.get id).isSome

theorem Host.regular_initial (db : Database) (nodeIdFiles : String → Option String) (start : ℤ) :
    (initial db nodeIdFiles start).Regular where
  identified := ⟨fun _ _ _ _ (hrow : none = some _) => (nomatch hrow), fun _ => trivial⟩
  issued := nofun
  acknowledged _ _ _ hget := by cases hget

theorem HostMove.regular {action : HostStep} (hmove : HostMove setup s action next)
    (hs : s.Regular) : next.Regular := by
  cases hmove with
  | follows action next hfollows =>
      refine ⟨hfollows.identified hs.identified, ?_, ?_⟩
      · intro identity hwritten
        obtain ⟨hcert, hrow⟩ := hs.issued identity (hfollows.identity identity hwritten)
        exact ⟨hcert, hfollows.row _ hrow⟩
      · intro pid worker id hget hack
        obtain ⟨old, hold, hsame, hstory⟩ := hfollows.worker pid worker hget
        rcases hstory id hack with holdAck | hnew
        · obtain ⟨hid, hentry⟩ := hs.acknowledged pid old id hold holdAck
          exact ⟨hid.trans hsame.symm, hfollows.entry id hentry⟩
        · exact hnew
  | enrolled call a nodeId context signingKeyB64 hcall =>
      refine ⟨hs.identified, ?_, hs.acknowledged⟩
      intro identity hwritten
      cases hwritten
      have hanswered := hs.identified.calls call
      rw [hcall] at hanswered
      obtain ⟨row, hrow, -⟩ := hanswered
      exact ⟨rfl, Option.isSome_iff_exists.mpr ⟨row, hrow⟩⟩
  | started action dir freshId worker nodeIdFiles hfresh hid hnew hfinds =>
      refine ⟨hs.identified, hs.issued, ?_⟩
      intro pid later id hget hack
      rcases KeyedMap.get_insert_eq_some.mp hget with ⟨-, rfl⟩ | ⟨-, hold⟩
      · rw [hnew] at hack
        cases hack
      · exact hs.acknowledged pid later id hold hack

/-- What is left to show of a regular host is about its workers. -/
theorem Host.Regular.namesOneNode_iff (hs : s.Regular) :
    s.NamesOneNode ↔ ∀ identity, s.identityFile = .written identity →
      ∀ pid worker, s.workers.get pid = some worker → worker.info.nodeId = identity.nodeId := by
  constructor
  · intro hnames identity hwritten
    exact (hnames identity hwritten).worker
  · intro hworkers identity hwritten
    obtain ⟨hcert, hrow⟩ := hs.issued identity hwritten
    refine ⟨hcert, hrow, hworkers identity hwritten, ?_⟩
    intro pid worker id hget hack
    obtain ⟨hid, hentry⟩ := hs.acknowledged pid worker id hget hack
    exact ⟨hid.trans (hworkers identity hwritten pid worker hget), hentry⟩

/-- The step lemma: the names agree after a step exactly when it found the
issued id. -/
theorem HostMove.namesOneNode_iff {action : HostStep} (hmove : HostMove setup s action next)
    (hs : s.Regular) (hnames : s.NamesOneNode) :
    next.NamesOneNode ↔ FindsIssuedId setup s action := by
  rw [(hmove.regular hs).namesOneNode_iff]
  rw [hs.namesOneNode_iff] at hnames
  cases hmove with
  | follows action next hfollows hfinds =>
      refine iff_of_true ?_ hfinds
      intro identity hwritten pid worker hget
      obtain ⟨old, hold, hsame, -⟩ := hfollows.worker pid worker hget
      exact hsame.trans (hnames identity (hfollows.identity identity hwritten) pid old hold)
  | enrolled call a nodeId context signingKeyB64 hcall =>
      constructor
      · intro hworkers b otherId hanswer pid worker hget
        rw [hcall] at hanswer
        cases hanswer
        exact hworkers _ rfl pid worker hget
      · intro hfinds identity hwritten
        cases hwritten
        exact hfinds a nodeId hcall
  | started action dir freshId worker nodeIdFiles hfresh hid hnew hfinds =>
      rw [hfinds]
      refine forall_congr' fun identity => forall_congr' fun hwritten => ?_
      -- no fresh id is the one the host was issued
      have hother : freshId ≠ identity.nodeId := by
        rintro rfl
        have hrow := (hs.issued identity hwritten).2
        rw [hfresh] at hrow
        cases hrow
      have hholds : worker.info.nodeId = identity.nodeId ↔ s.HoldsNodeId dir identity.nodeId := by
        rw [hid, Host.HoldsNodeId]
        cases (s.nodeIdFiles dir).map trim with
        | none => exact iff_of_false hother nofun
        | some content => exact Option.some_inj.symm
      rw [← hholds]
      constructor
      · intro hworkers
        exact hworkers worker.pid worker (KeyedMap.get_insert_self _ worker)
      · intro hsame pid later hget
        rcases KeyedMap.get_insert_eq_some.mp hget with ⟨-, rfl⟩ | ⟨-, hold⟩
        · exact hsame
        · exact hnames identity hwritten pid later hold

end Moves

/-- Certificate, management row, worker and coordinator entry name one node in
every state of a run exactly when each worker that starts on the enrolled host
finds the issued id in its own file, and each enrollment issues the id its
running workers have. -/
theorem namesOneNode_iff_findsIssuedId (setup : HostSetup) (db : Database)
    (nodeIdFiles : String → Option String) (start : ℤ) (actions : List HostStep) :
    (hosts setup).Throughout Host.NamesOneNode (.initial db nodeIdFiles start) actions ↔
      (hosts setup).Meets (FindsIssuedId setup) (.initial db nodeIdFiles start) actions := by
  have hregular := Host.regular_initial db nodeIdFiles start
  apply Machine.throughout_iff_meets _ _ hregular (hregular.namesOneNode_iff.mpr nofun)
  · intro s action next hs hstep
    exact (run_moves hstep).regular hs
  · intro s action next hs hnames hstep
    exact (run_moves hstep).namesOneNode_iff hs hnames

/-! ## One run -/

def Host.issuedId (s : Host) : Option String :=
  match s.identityFile with
  | .written identity => some identity.nodeId
  | _ => none

/-- A native host whose password hasher compares. -/
def plainSetup : HostSetup where
  verify hash secret := hash == secret
  launch := .native
  dataDir := "/data"
  parseMessage := ""

/-- The host enrolls as the first node, the agent starts its worker, and the worker
reports once. -/
def firstReport : List HostStep :=
  (untilCommit 0 "hw" "issued" ++ [EnrollStep.commit 0]).map (fun step => .mgmt (.enroll step)) ++
    [.enroll 0 ⟨⟨"pub", "pem"⟩, "ca", "http://gateway/cluster", none⟩ "seed" true,
      .runAgent [] ⟨1, { hwFingerprint := "hw" }, "drawn", none⟩,
      .publish 1 0 "10.0.0.1" ⟨50053, none, none, none⟩ none ":50054" false]

/-- On its first start the worker of an enrolled host draws an id of its own,
and the coordinator has its entry under that id only. -/
theorem firstReport_underDrawnId :
    ¬(hosts plainSetup).Throughout Host.NamesOneNode (.initial oneToken (fun _ => none) 0)
      firstReport := by
  intro hnames
  have hrun : ((hosts plainSetup).exec (.initial oneToken (fun _ => none) 0) firstReport).any
      (fun s => s.issuedId = some "issued" && (s.coordinator.registry.get "issued").isNone &&
        (s.workers.get 1).any (·.acknowledged = some "drawn")) = true := by decide +kernel
  obtain ⟨s, hexec, hids⟩ := (Option.any_eq_true _ _).mp hrun
  simp only [Bool.and_eq_true, decide_eq_true_eq, Option.any_eq_true] at hids
  obtain ⟨⟨hissued, -⟩, worker, hget, hack⟩ := hids
  cases hfile : s.identityFile with
  | absent | truncated =>
      rw [Host.issuedId, hfile] at hissued
      cases hissued
  | written identity =>
      have hsame : identity.nodeId = "issued" := by simpa [Host.issuedId, hfile] using hissued
      have hdrawn := ((hnames.last hexec identity hfile).entry 1 worker "drawn" hget hack).1
      rw [← hdrawn] at hsame
      exact absurd hsame (by decide)

/-- With the issued id in the file from the start, the same run ends with one id. -/
example : ((hosts plainSetup).exec (.initial oneToken (fun _ => some "issued\n") 0)
    firstReport).any (fun s => s.issuedId = some "issued" &&
      (s.coordinator.registry.get "issued").isSome &&
      (s.workers.get 1).any (·.acknowledged = some "issued")) = true := by decide +kernel

end GpuCluster.Cluster
