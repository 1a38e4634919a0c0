import GpuCluster.Foundation.Simulation
import GpuCluster.Worker.ControlServer
import GpuCluster.Worker.ModelDownloader

/-! # A download that runs alone

What `fetch` does between two others, with the Hub as a function from a repository
and a file in it to the file's bytes. Downloads that follow one another are runs of
the steps that concurrent ones take.
-/

namespace GpuCluster.Worker

open Foundation

/-- The download of a task that `load_model` starts. -/
def LoadModelReq.download (req : LoadModelReq) : DownloadRequest where
  repo := req.hfRepo
  file := req.hfFile
  localFilename := req.saveAs
  token := req.hfToken

variable {ν : Type} [DecidableEq ν] (dir : ModelsDir ν) (hub : String → String → List UInt8)

/-- A file that is there and not empty is taken for the one asked for. -/
def cached (fs : FileSystem ν) (req : DownloadRequest) (found : Bool) : Bool :=
  found && (fs.read (dir.dest req)).any fun content => !content.isEmpty

/-- The files before the partial file is opened. -/
def clearedFiles (fs : FileSystem ν) (req : DownloadRequest) (removed : Bool) : FileSystem ν :=
  if removed then fs.remove (dir.partialEntry req) else fs

/-- The files once the body of the response is written. -/
def writtenFiles (fs : FileSystem ν) (req : DownloadRequest) : FileSystem ν :=
  (fs.create (dir.partialEntry req)).writeAt (fs.opened (dir.partialEntry req)) 0
    (hub req.repo req.file)

/-- `fetch`: the files it leaves, and the path it returns. -/
def fetch (fs : FileSystem ν) (req : DownloadRequest) (found removed : Bool) :
    FileSystem ν × Except String String :=
  match req.validate with
  | .error message => (fs, .error message)
  | .ok () =>
      if cached dir fs req found then (fs, .ok (dir.destPath req))
      else
        let written := writtenFiles dir hub (clearedFiles dir fs req removed) req
        match written.rename (dir.partialEntry req) (dir.dest req) with
        | some renamed => (renamed, .ok (dir.destPath req))
        | none => (written, .error ("rename to " ++ dir.destPath req))

section Files

variable {dir hub} {fs : FileSystem ν} {req : DownloadRequest} {found removed : Bool}

/-- The partial file is there to be renamed, and holds the whole body. -/
theorem read_writtenFiles (fs : FileSystem ν) (req : DownloadRequest) (name : ν) :
    (writtenFiles dir hub fs req).read name =
      if name = dir.partialEntry req then some (hub req.repo req.file) else fs.read name := by
  have hempty := fs.content_create (dir.partialEntry req)
  by_cases hname : name = dir.partialEntry req
  · subst hname
    have hentry : (writtenFiles dir hub fs req).entry (dir.partialEntry req) =
        some (fs.opened (dir.partialEntry req)) := fs.entry_create _
    rw [if_pos rfl, FileSystem.read, hentry, Option.map_some, writtenFiles,
      FileSystem.content_writeAt (by rw [hempty]; rfl), hempty, List.nil_append]
  · have howns := fs.owns_opened (dir.partialEntry req)
    rw [if_neg hname, writtenFiles, howns.read_writeAt hname, FileSystem.read_create hname]

theorem read_clearedFiles {name : ν} (hname : name ≠ dir.partialEntry req) :
    (clearedFiles dir fs req removed).read name = fs.read name := by
  unfold clearedFiles
  split
  next => exact FileSystem.read_remove hname
  next => rfl

/-- Without a file to take, `fetch` saves the body of the response. -/
theorem fetch_of_not_cached (hub : String → String → List UInt8) (removed : Bool)
    (hvalid : req.validate = .ok ()) (hcached : cached dir fs req found = false) :
    ∃ renamed, (writtenFiles dir hub (clearedFiles dir fs req removed) req).rename
        (dir.partialEntry req) (dir.dest req) = some renamed ∧
      fetch dir hub fs req found removed = (renamed, .ok (dir.destPath req)) := by
  have hentry : (writtenFiles dir hub (clearedFiles dir fs req removed) req).entry
      (dir.partialEntry req) = some _ := FileSystem.entry_create _ _
  obtain ⟨renamed, hrename⟩ := FileSystem.exists_rename hentry (dir.dest req)
  refine ⟨renamed, hrename, ?_⟩
  simp only [fetch, hvalid, hcached, Bool.false_eq_true, if_false, hrename]

/-- The path that is returned is the request's own. -/
theorem fetch_ok {path : String} (hpath : (fetch dir hub fs req found removed).2 = .ok path) :
    req.validate = .ok () ∧ path = dir.destPath req := by
  unfold fetch at hpath
  split at hpath
  next => cases hpath
  next hvalid =>
    refine ⟨hvalid, ?_⟩
    split at hpath
    next =>
      cases hpath
      rfl
    next =>
      dsimp only at hpath
      split at hpath
      next =>
        cases hpath
        rfl
      next => cases hpath

/-- A request that is valid is answered with its path. -/
theorem fetch_returns (hub : String → String → List UInt8) (found removed : Bool)
    (hvalid : req.validate = .ok ()) :
    (fetch dir hub fs req found removed).2 = .ok (dir.destPath req) := by
  cases hcached : cached dir fs req found with
  | true => simp only [fetch, hvalid, hcached, if_true]
  | false =>
      obtain ⟨renamed, -, hfetch⟩ := fetch_of_not_cached hub removed hvalid hcached
      rw [hfetch]

/-- What a download leaves under each name. -/
theorem read_fetch_of_not_cached (hvalid : req.validate = .ok ())
    (hcached : cached dir fs req found = false) (name : ν) :
    (fetch dir hub fs req found removed).1.read name =
      if name = dir.dest req then some (hub req.repo req.file)
      else if name = dir.partialEntry req then none else fs.read name := by
  obtain ⟨renamed, hrename, hfetch⟩ := fetch_of_not_cached hub removed hvalid hcached
  rw [hfetch, FileSystem.read_rename hrename, read_writtenFiles, if_pos rfl]
  split
  next => rfl
  next =>
    split
    next => rfl
    next hname => rw [read_writtenFiles, if_neg hname, read_clearedFiles hname]

end Files

/-! ## Step by step -/

/-- The chunks of a response, each written before the next one comes. -/
def soloChunks (i : ℕ) (chunks : List (List UInt8)) : List FetchAction :=
  chunks.flatMap fun bytes => [.chunk i bytes, .settle i none]

/-- A call that nothing interrupts. -/
def soloFetch (fs : FileSystem ν) (i : ℕ) (req : DownloadRequest) (found removed : Bool)
    (chunks : List (List UInt8)) : List FetchAction :=
  .start req :: .look i found ::
    if cached dir fs req found then []
    else .clear i removed :: .respond i :: .create i ::
      (soloChunks i chunks ++ [.finish i, .rename i true])

/-- The call while it writes, `received` having come. -/
def writingTask (req : DownloadRequest) (inode : ℕ) (received : List UInt8) : FetchTask ν :=
  ⟨dir.dest req, dir.partialEntry req, received, .writing ⟨inode, received.length, none, false⟩⟩

section Steps

variable {dir hub} {fs : FileSystem ν} {before : List (FetchTask ν)} {bodies : List (List UInt8)}

omit [DecidableEq ν] in
/-- The call that started last. -/
theorem withTask_last (task : FetchTask ν) (step : FetchTask ν → Option (Downloads ν)) :
    Downloads.withTask ⟨fs, before ++ [task], bodies⟩ before.length step = step task := by
  simp only [Downloads.withTask, List.getElem?_concat_length, Option.bind_some]

omit [DecidableEq ν] in
theorem set_last (task next : FetchTask ν) :
    (before ++ [task]).set before.length next = before ++ [next] := by
  rw [List.set_append_right _ _ (Nat.le_refl _), Nat.sub_self, List.set_cons_zero]

/-- One chunk: it is handed over, and then written. -/
theorem exec_soloChunk {req : DownloadRequest} {inode : ℕ} {received : List UInt8}
    (bytes : List UInt8) (rest : List FetchAction) :
    (downloads dir).exec ⟨fs, before ++ [writingTask dir req inode received], bodies⟩
        (.chunk before.length bytes :: .settle before.length none :: rest) =
      (downloads dir).exec ⟨fs.writeAt inode received.length bytes,
        before ++ [writingTask dir req inode (received ++ bytes)], bodies⟩ rest := by
  have hchunk : (downloads dir).step ⟨fs, before ++ [writingTask dir req inode received], bodies⟩
      (.chunk before.length bytes) = some ⟨fs, before ++ [⟨dir.dest req, dir.partialEntry req,
        received ++ bytes, .writing ⟨inode, received.length, some bytes, false⟩⟩], bodies⟩ := by
    simp only [downloads, Downloads.step, withTask_last, Downloads.chunk, writingTask, set_last]
  have hsettle : ∀ task : FetchTask ν,
      task.phase = .writing ⟨inode, received.length, some bytes, false⟩ →
      (downloads dir).step ⟨fs, before ++ [task], bodies⟩ (.settle before.length none) =
        some ⟨fs.writeAt inode received.length bytes, before ++ [{ task with
          phase := .writing ⟨inode, received.length + bytes.length, none, false⟩ }], bodies⟩ := by
    intro task hphase
    simp only [downloads, Downloads.step, withTask_last, Downloads.settle, hphase,
      Downloads.settleHandle, Option.map_some, Downloads.writtenOf, Downloads.setPhase, set_last,
      Option.isSome_none, Bool.or_false]
  rw [Machine.exec_cons hchunk, Machine.exec_cons (hsettle _ rfl)]
  simp only [writingTask, List.length_append]

theorem exec_soloChunks {req : DownloadRequest} {inode : ℕ} {received : List UInt8}
    (hreceived : received.length = (fs.content inode).length) (chunks : List (List UInt8))
    (rest : List FetchAction) :
    (downloads dir).exec ⟨fs, before ++ [writingTask dir req inode received], bodies⟩
        (soloChunks before.length chunks ++ rest) =
      (downloads dir).exec ⟨fs.writeAt inode received.length chunks.flatten,
        before ++ [writingTask dir req inode (received ++ chunks.flatten)], bodies⟩ rest := by
  induction chunks generalizing fs received with
  | nil =>
      rw [List.flatten_nil, FileSystem.writeAt_nil hreceived, List.append_nil]
      rfl
  | cons bytes more ih =>
      have hnext : (received ++ bytes).length =
          ((fs.writeAt inode received.length bytes).content inode).length := by
        rw [FileSystem.content_writeAt hreceived, List.length_append, List.length_append, hreceived]
      have hcons : soloChunks before.length (bytes :: more) ++ rest =
          .chunk before.length bytes :: .settle before.length none ::
            (soloChunks before.length more ++ rest) := rfl
      rw [hcons, exec_soloChunk, ih hnext, List.length_append,
        FileSystem.writeAt_writeAt hreceived, List.flatten_cons, List.append_assoc]

/-- A call before it writes. -/
def waitingTask (dir : ModelsDir ν) (req : DownloadRequest) (phase : FetchPhase) : FetchTask ν :=
  ⟨dir.dest req, dir.partialEntry req, [], phase⟩

theorem exec_soloLook {req : DownloadRequest} (hvalid : req.validate = .ok ()) (found : Bool)
    (rest : List FetchAction) :
    (downloads dir).exec ⟨fs, before, bodies⟩ (.start req :: .look before.length found :: rest) =
      (downloads dir).exec ⟨fs, before ++ [waitingTask dir req
        (if cached dir fs req found then .returned else .clearing)], bodies⟩ rest := by
  have hstart : (downloads dir).step ⟨fs, before, bodies⟩ (.start req) =
      some ⟨fs, before ++ [waitingTask dir req .looking], bodies⟩ := by
    simp only [downloads, Downloads.step, Downloads.start, hvalid, waitingTask]
  have hlook : (downloads dir).step ⟨fs, before ++ [waitingTask dir req .looking], bodies⟩
      (.look before.length found) = some ⟨fs, before ++ [waitingTask dir req
        (if cached dir fs req found then .returned else .clearing)], bodies⟩ := by
    simp only [downloads, Downloads.step, withTask_last, Downloads.look, waitingTask,
      Downloads.setPhase, set_last]
    rfl
  rw [Machine.exec_cons hstart, Machine.exec_cons hlook]

/-- What comes between the look and the first chunk. -/
theorem exec_soloOpen {req : DownloadRequest} (removed : Bool) (rest : List FetchAction) :
    (downloads dir).exec ⟨fs, before ++ [waitingTask dir req .clearing], bodies⟩
        (.clear before.length removed :: .respond before.length :: .create before.length :: rest) =
      (downloads dir).exec ⟨(clearedFiles dir fs req removed).create (dir.partialEntry req),
        before ++ [writingTask dir req ((clearedFiles dir fs req removed).opened
          (dir.partialEntry req)) []], bodies⟩ rest := by
  have hclear : (downloads dir).step ⟨fs, before ++ [waitingTask dir req .clearing], bodies⟩
      (.clear before.length removed) = some ⟨clearedFiles dir fs req removed,
        before ++ [waitingTask dir req .requesting], bodies⟩ := by
    simp only [downloads, Downloads.step, withTask_last, Downloads.clear, waitingTask,
      Downloads.setPhase, set_last, clearedFiles]
  have hrespond : ∀ files : FileSystem ν, (downloads dir).step
      ⟨files, before ++ [waitingTask dir req .requesting], bodies⟩ (.respond before.length) =
        some ⟨files, before ++ [waitingTask dir req .opening], bodies⟩ := by
    intro files
    simp only [downloads, Downloads.step, withTask_last, Downloads.respond, waitingTask,
      Downloads.setPhase, set_last]
  have hcreate : ∀ files : FileSystem ν, (downloads dir).step
      ⟨files, before ++ [waitingTask dir req .opening], bodies⟩ (.create before.length) =
        some ⟨files.create (dir.partialEntry req), before ++ [writingTask dir req
          (files.opened (dir.partialEntry req)) []], bodies⟩ := by
    intro files
    simp only [downloads, Downloads.step, withTask_last, Downloads.create, waitingTask, set_last,
      writingTask, List.length_nil]
  rw [Machine.exec_cons hclear, Machine.exec_cons (hrespond _), Machine.exec_cons (hcreate _)]

/-- The end of the stream, and the rename. -/
theorem exec_soloRename {req : DownloadRequest} {inode : ℕ} {received : List UInt8}
    {renamed : FileSystem ν}
    (hrename : fs.rename (dir.partialEntry req) (dir.dest req) = some renamed) :
    (downloads dir).exec ⟨fs, before ++ [writingTask dir req inode received], bodies⟩
        [.finish before.length, .rename before.length true] =
      some ⟨renamed, before ++ [⟨dir.dest req, dir.partialEntry req, received, .returned⟩],
        received :: bodies⟩ := by
  have hfinish : (downloads dir).step
      ⟨fs, before ++ [writingTask dir req inode received], bodies⟩ (.finish before.length) =
        some ⟨fs, before ++ [⟨dir.dest req, dir.partialEntry req, received,
          .ended ⟨inode, received.length, none, false⟩⟩], received :: bodies⟩ := by
    simp only [downloads, Downloads.step, withTask_last, Downloads.finish, writingTask,
      Downloads.setPhase, set_last]
  rw [Machine.exec_cons hfinish]
  simp only [Machine.exec, downloads, Downloads.step, withTask_last, Downloads.rename, hrename,
    Downloads.setPhase, set_last, Option.bind_some]

/-- A call that nothing interrupts does what `fetch` says. -/
theorem exec_soloFetch {req : DownloadRequest} (hvalid : req.validate = .ok ())
    (found removed : Bool) {chunks : List (List UInt8)}
    (hbody : chunks.flatten = hub req.repo req.file) : ∃ received complete,
      (downloads dir).exec ⟨fs, before, bodies⟩
          (soloFetch dir fs before.length req found removed chunks) =
        some ⟨(fetch dir hub fs req found removed).1,
          before ++ [⟨dir.dest req, dir.partialEntry req, received, .returned⟩], complete⟩ := by
  rw [soloFetch, exec_soloLook hvalid]
  cases hcached : cached dir fs req found with
  | true =>
      refine ⟨[], bodies, ?_⟩
      simp only [fetch, hvalid, hcached, if_true, Machine.exec, waitingTask]
  | false =>
      obtain ⟨renamed, hrename, hfetch⟩ := fetch_of_not_cached hub removed hvalid hcached
      refine ⟨hub req.repo req.file, hub req.repo req.file :: bodies, ?_⟩
      have hempty := (clearedFiles dir fs req removed).content_create (dir.partialEntry req)
      rw [if_neg Bool.false_ne_true, if_neg Bool.false_ne_true, exec_soloOpen,
        exec_soloChunks (congrArg List.length hempty).symm, hbody, List.nil_append, hfetch]
      exact exec_soloRename hrename

end Steps

/-! ## One call after the other -/

/-- A call of `fetch`, with what the operating system answers and the chunks of the
response. -/
structure WholeFetch where
  req : DownloadRequest
  found : Bool
  removed : Bool
  chunks : List (List UInt8)

/-- The files, and the paths that calls returned. -/
structure Fetched (ν : Type) where
  fs : FileSystem ν
  paths : List String

/-- Calls that follow one another, each taken whole. The Hub answers them with what it
has, cut into chunks in any way. -/
def fetches : Machine (Fetched ν) WholeFetch where
  init s := s = ⟨.empty ν, []⟩
  step s call :=
    let fetched := fetch dir hub s.fs call.req call.found call.removed
    if call.chunks.flatten = hub call.req.repo call.req.file then
      some ⟨fetched.1, s.paths ++ fetched.2.toOption.toList⟩
    else none

/-- The same files, and a finished call for each path that was returned. -/
structure Fetched.Matches (s : Fetched ν) (d : Downloads ν) : Prop where
  fs : d.fs = s.fs
  tasks : d.tasks.map (fun task => (task.dest, task.phase)) =
    s.paths.map fun path => (dir.entryOf path, .returned)

theorem fetches_simulated :
    (fetches dir hub).Simulates (downloads dir) (Fetched.Matches dir) := by
  rintro s ⟨fs, tasks, bodies⟩ call next ⟨hfs, htasks⟩ hstep
  obtain rfl : fs = s.fs := hfs
  obtain ⟨hbody, hnext⟩ := Option.ite_none_right_eq_some.mp hstep
  obtain rfl := Option.some.inj hnext
  cases hvalid : call.req.validate with
  | error message =>
      -- a request that is refused makes no task
      refine ⟨[], _, rfl, ?_, ?_⟩
      · simp only [fetch, hvalid]
      · simp only [fetch, hvalid, Except.toOption, Option.toList_none, List.append_nil, htasks]
  | ok =>
      obtain ⟨received, complete, hexec⟩ := @exec_soloFetch _ _ dir hub s.fs tasks bodies _ hvalid
        call.found call.removed _ hbody
      refine ⟨_, _, hexec, rfl, ?_⟩
      rw [fetch_returns hub call.found call.removed hvalid, List.map_append, List.map_append,
        htasks]
      rfl

/-- Downloads that follow one another leave the files, and return the paths, that `fetch`
says of each in turn: some run of the steps that concurrent ones take ends there. -/
theorem fetches_areDownloads {s : Fetched ν} (hreach : (fetches dir hub).Reachable s) :
    ∃ d, (downloads dir).Reachable d ∧ d.fs = s.fs ∧
      d.tasks.map (fun task => (task.dest, task.phase)) =
        s.paths.map fun path => (dir.entryOf path, .returned) := by
  have hinit : ∀ s, (fetches dir hub).init s →
      ∃ d, (downloads dir).init d ∧ Fetched.Matches dir s d := by
    rintro _ rfl
    exact ⟨.initial ν, rfl, rfl, rfl⟩
  obtain ⟨d, hd, hmatches⟩ := (fetches_simulated dir hub).reachable hinit hreach
  exact ⟨d, hd, hmatches.fs, hmatches.tasks⟩

/-- One file is downloaded in two chunks, and then found. -/
theorem fileFoundAgain_isDownloaded : ∃ d : Downloads String,
    (downloads ⟨"models", id⟩).Reachable d ∧ d.fs.read "models/m.gguf" = some [1, 2, 3] ∧
      d.tasks.map (fun task => (task.dest, task.phase)) =
        [("models/m.gguf", .returned), ("models/m.gguf", .returned)] := by
  let dir : ModelsDir String := ⟨"models", id⟩
  let hub : String → String → List UInt8 := fun _ _ => [1, 2, 3]
  let req : DownloadRequest := ⟨"org/m", "m.gguf", "m.gguf", ""⟩
  have hrun : ((fetches dir hub).exec ⟨.empty String, []⟩
      [⟨req, false, false, [[1], [2, 3]]⟩, ⟨req, true, false, [[1, 2, 3]]⟩]).any (fun s =>
        decide (s.fs.read "models/m.gguf" = some [1, 2, 3]) &&
        decide (s.paths = ["models/m.gguf", "models/m.gguf"])) = true := by
    decide +kernel
  obtain ⟨s, hexec, hstate⟩ := (Option.any_eq_true _ _).mp hrun
  obtain ⟨hread, hpaths⟩ := Bool.and_eq_true_iff.mp hstate
  have hreach : (fetches dir hub).Reachable s := (Machine.Reachable.init rfl).exec hexec
  obtain ⟨d, hd, hfs, htasks⟩ := fetches_areDownloads dir hub hreach
  rw [of_decide_eq_true hpaths] at htasks
  exact ⟨d, hd, hfs ▸ of_decide_eq_true hread, htasks⟩

end GpuCluster.Worker
