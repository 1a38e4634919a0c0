import GpuCluster.Foundation.FileSystem
import GpuCluster.Foundation.Lists
import GpuCluster.Foundation.Machine
import GpuCluster.Foundation.Paths

/-! # Downloading models

A download writes to a file with the extension `partial` and renames it in the
end. Downloads run side by side, one step of one download at a time, and a crash
ends them all. A write is handed over and done later, so its failure is seen by
the next one.
-/

namespace GpuCluster.Worker

open Foundation

structure DownloadRequest where
  repo : String
  file : String
  localFilename : String
  token : String
  deriving DecidableEq

/-- The checks before anything is touched. -/
def DownloadRequest.validate (req : DownloadRequest) : Except String Unit :=
  if req.repo = "" then .error "hf_repo must not be empty"
  else if req.file = "" then .error "hf_file must not be empty"
  else .ok ()

/-- `models_dir`, and the directory entry that a path leads to. -/
structure ModelsDir (ν : Type) where
  path : String
  entryOf : String → ν

namespace ModelsDir

variable {ν : Type} (dir : ModelsDir ν)

def destPath (req : DownloadRequest) : String := joinPath dir.path req.localFilename

/-- The entry of the finished file. -/
def dest (req : DownloadRequest) : ν := dir.entryOf (dir.destPath req)

/-- The entry that is written to. -/
def partialEntry (req : DownloadRequest) : ν :=
  dir.entryOf (withExtension "partial" (dir.destPath req))

end ModelsDir

/-- An open file: the bytes of the last write while it is under way, and whether one
has failed. -/
structure Handle where
  inode : ℕ
  offset : ℕ
  pending : Option (List UInt8)
  broken : Bool
  deriving DecidableEq

/-- Where `fetch` stands. The stream of the response ends before the file is closed. -/
inductive FetchPhase
  | looking
  | clearing
  | requesting
  | opening
  | writing (handle : Handle)
  | ended (handle : Handle)
  | abandoned (handle : Handle)
  | returned
  | failed
  deriving DecidableEq

/-- A call of `fetch`, with the bytes of the response so far. -/
structure FetchTask (ν : Type) where
  dest : ν
  partialEntry : ν
  received : List UInt8
  phase : FetchPhase
  deriving DecidableEq

/-- The file a call may still write to or rename. -/
def FetchPhase.inode : FetchPhase → Option ℕ
  | .writing handle | .ended handle => some handle.inode
  | .abandoned handle => handle.pending.map fun _ => handle.inode
  | _ => none

/-- What a crash leaves of a task. -/
def FetchPhase.crashed : FetchPhase → FetchPhase
  | .returned => .returned
  | _ => .failed

/-- The files, the calls, and the bodies of the responses whose stream has ended. -/
structure Downloads (ν : Type) where
  fs : FileSystem ν
  tasks : List (FetchTask ν)
  bodies : List (List UInt8)

/-- A step of a call, by its place in the list. `found` and `removed` tell whether the
call to the operating system succeeds; a write may fail after some bytes. -/
inductive FetchAction
  | start (req : DownloadRequest)
  | look (task : ℕ) (found : Bool)
  | clear (task : ℕ) (removed : Bool)
  | respond (task : ℕ)
  | create (task : ℕ)
  | chunk (task : ℕ) (bytes : List UInt8)
  | settle (task : ℕ) (failedAfter : Option ℕ)
  | finish (task : ℕ)
  | stop (task : ℕ)
  | rename (task : ℕ) (renamed : Bool)
  | crash

variable {ν : Type}

section Machine

variable [DecidableEq ν]

namespace Downloads

def initial (ν : Type) : Downloads ν := ⟨.empty ν, [], []⟩

def start (dir : ModelsDir ν) (s : Downloads ν) (req : DownloadRequest) : Downloads ν :=
  match req.validate with
  | .ok () => { s with tasks := s.tasks ++ [⟨dir.dest req, dir.partialEntry req, [], .looking⟩] }
  | .error _ => s

def setPhase (s : Downloads ν) (i : ℕ) (task : FetchTask ν) (phase : FetchPhase) : Downloads ν :=
  { s with tasks := s.tasks.set i { task with phase } }

/-- A file that is there and not empty is taken as it is. -/
def look (s : Downloads ν) (i : ℕ) (task : FetchTask ν) (found : Bool) : Option (Downloads ν) :=
  match task.phase with
  | .looking =>
      let cached := found && (s.fs.read task.dest).any fun content => !content.isEmpty
      some (s.setPhase i task (if cached then .returned else .clearing))
  | _ => none

/-- A failure to remove what an earlier download left is ignored. -/
def clear (s : Downloads ν) (i : ℕ) (task : FetchTask ν) (removed : Bool) :
    Option (Downloads ν) :=
  match task.phase with
  | .clearing =>
      let fs := if removed then s.fs.remove task.partialEntry else s.fs
      some { s.setPhase i task .requesting with fs }
  | _ => none

def respond (s : Downloads ν) (i : ℕ) (task : FetchTask ν) : Option (Downloads ν) :=
  match task.phase with
  | .requesting => some (s.setPhase i task .opening)
  | _ => none

def create (s : Downloads ν) (i : ℕ) (task : FetchTask ν) : Option (Downloads ν) :=
  match task.phase with
  | .opening =>
      let phase := .writing ⟨s.fs.opened task.partialEntry, 0, none, false⟩
      let tasks := s.tasks.set i { task with received := [], phase }
      some { s with fs := s.fs.create task.partialEntry, tasks }
  | _ => none

/-- The next bytes are handed over once the last ones are written. -/
def chunk (s : Downloads ν) (i : ℕ) (task : FetchTask ν) (bytes : List UInt8) :
    Option (Downloads ν) :=
  match task.phase with
  | .writing ⟨inode, offset, none, false⟩ =>
      let received := task.received ++ bytes
      let phase := .writing ⟨inode, offset, some bytes, false⟩
      some { s with tasks := s.tasks.set i { task with received, phase } }
  | _ => none

/-- The bytes of a write that reach the file. -/
def writtenOf (bytes : List UInt8) : Option ℕ → List UInt8
  | none => bytes
  | some count => bytes.take count

/-- A write that was handed over is done, or fails. -/
def settleHandle (fs : FileSystem ν) (handle : Handle) (failedAfter : Option ℕ) :
    Option (FileSystem ν × Handle) :=
  handle.pending.map fun bytes =>
    let written := writtenOf bytes failedAfter
    (fs.writeAt handle.inode handle.offset written,
      ⟨handle.inode, handle.offset + written.length, none, handle.broken || failedAfter.isSome⟩)

def settle (s : Downloads ν) (i : ℕ) (task : FetchTask ν) (failedAfter : Option ℕ) :
    Option (Downloads ν) :=
  match task.phase with
  | .writing handle => (settleHandle s.fs handle failedAfter).map fun result =>
      { s.setPhase i task (.writing result.2) with fs := result.1 }
  | .ended handle => (settleHandle s.fs handle failedAfter).map fun result =>
      { s.setPhase i task (.ended result.2) with fs := result.1 }
  | .abandoned handle => (settleHandle s.fs handle failedAfter).map fun result =>
      { s.setPhase i task (.abandoned result.2) with fs := result.1 }
  | _ => none

/-- The stream ends; what `flush` reports is ignored. -/
def finish (s : Downloads ν) (i : ℕ) (task : FetchTask ν) : Option (Downloads ν) :=
  match task.phase with
  | .writing handle =>
      some { s.setPhase i task (.ended handle) with bodies := task.received :: s.bodies }
  | _ => none

/-- An error of the network, of the operating system or of an earlier write. -/
def stop (s : Downloads ν) (i : ℕ) (task : FetchTask ν) : Option (Downloads ν) :=
  match task.phase with
  | .looking | .clearing | .requesting | .opening => some (s.setPhase i task .failed)
  | .writing handle => some (s.setPhase i task (.abandoned handle))
  | _ => none

def rename (s : Downloads ν) (i : ℕ) (task : FetchTask ν) (renamed : Bool) :
    Option (Downloads ν) :=
  match task.phase with
  | .ended ⟨_, _, none, _⟩ =>
      match renamed, s.fs.rename task.partialEntry task.dest with
      | true, some fs => some { s.setPhase i task .returned with fs }
      | _, _ => some (s.setPhase i task .failed)
  | _ => none

def crash (s : Downloads ν) : Downloads ν :=
  { s with tasks := s.tasks.map fun task => { task with phase := task.phase.crashed } }

/-- A step of a call that has started. -/
def withTask (s : Downloads ν) (i : ℕ) (step : FetchTask ν → Option (Downloads ν)) :
    Option (Downloads ν) := (s.tasks[i]?).bind step

def step (dir : ModelsDir ν) (s : Downloads ν) : FetchAction → Option (Downloads ν)
  | .start req => some (s.start dir req)
  | .look i found => s.withTask i (s.look i · found)
  | .clear i removed => s.withTask i (s.clear i · removed)
  | .respond i => s.withTask i (s.respond i)
  | .create i => s.withTask i (s.create i)
  | .chunk i bytes => s.withTask i (s.chunk i · bytes)
  | .settle i failedAfter => s.withTask i (s.settle i · failedAfter)
  | .finish i => s.withTask i (s.finish i)
  | .stop i => s.withTask i (s.stop i)
  | .rename i renamed => s.withTask i (s.rename i · renamed)
  | .crash => some s.crash

end Downloads

def downloads (dir : ModelsDir ν) : Machine (Downloads ν) FetchAction where
  init s := s = .initial ν
  step s action := s.step dir action

/-- The file at a destination is the body of one response. -/
def Published (s : Downloads ν) : Prop :=
  ∀ task ∈ s.tasks, ∀ content, s.fs.read task.dest = some content → content ∈ s.bodies

/-- No destination is another call's partial file, a partial file is opened while no
other call has it open, and a file is renamed if none of its writes has failed. -/
def KeepsApart (dir : ModelsDir ν) (s : Downloads ν) : FetchAction → Prop
  | .start req => dir.dest req ≠ dir.partialEntry req ∧ ∀ task ∈ s.tasks,
      dir.dest req ≠ task.partialEntry ∧ task.dest ≠ dir.partialEntry req
  | .create i => ∀ task, s.tasks[i]? = some task → ∀ (j : ℕ) (other : FetchTask ν), j ≠ i →
      s.tasks[j]? = some other → other.phase.inode.isSome →
        other.partialEntry ≠ task.partialEntry
  | .rename i _ => ∀ task handle, s.tasks[i]? = some task → task.phase = .ended handle →
      handle.broken = false
  | _ => True

end Machine

/-! ## What a run keeps -/

/-- The bytes that were handed over are in the file, the last of them perhaps still on
their way. -/
def Handle.Wrote (fs : FileSystem ν) (handle : Handle) (received : List UInt8) : Prop :=
  fs.content handle.inode ++ handle.pending.getD [] = received ∧
    handle.offset = (fs.content handle.inode).length

structure FetchTask.Sound (fs : FileSystem ν) (bodies : List (List UInt8))
    (task : FetchTask ν) : Prop where
  owns : ∀ inode, task.phase.inode = some inode → fs.Owns task.partialEntry inode
  writing : ∀ handle, task.phase = .writing handle → handle.broken = false →
    handle.Wrote fs task.received
  ended : ∀ handle, task.phase = .ended handle →
    (handle.broken = false → handle.Wrote fs task.received) ∧ task.received ∈ bodies

/-- Two calls that have a file open have different ones, under different names. -/
def Separate (task other : FetchTask ν) : Prop :=
  ∀ mine yours, task.phase.inode = some mine → other.phase.inode = some yours →
    mine ≠ yours ∧ task.partialEntry ≠ other.partialEntry

structure Downloads.Sound (s : Downloads ν) : Prop where
  apart : ∀ {i j : ℕ} {task other : FetchTask ν}, s.tasks[i]? = some task →
    s.tasks[j]? = some other → task.dest ≠ other.partialEntry
  stored : ∀ {name : ν} {content : List UInt8},
    (∀ (i : ℕ) (task : FetchTask ν), s.tasks[i]? = some task → name ≠ task.partialEntry) →
    s.fs.read name = some content → content ∈ s.bodies
  each : ∀ {i : ℕ} {task : FetchTask ν}, s.tasks[i]? = some task → task.Sound s.fs s.bodies
  separate : ∀ {i j : ℕ} {task other : FetchTask ν}, i ≠ j → s.tasks[i]? = some task →
    s.tasks[j]? = some other → Separate task other

theorem Separate.symm {task other : FetchTask ν} (hseparate : Separate task other) :
    Separate other task := by
  intro mine yours hmine hyours
  obtain ⟨hinode, hname⟩ := hseparate yours mine hyours hmine
  exact ⟨hinode.symm, hname.symm⟩

/-- A call without an open file has nothing to keep. -/
theorem FetchTask.sound_of_closed {fs : FileSystem ν} {bodies : List (List UInt8)}
    {task : FetchTask ν} (hclosed : task.phase.inode = none) : task.Sound fs bodies where
  owns inode hinode := by
    rw [hclosed] at hinode
    cases hinode
  writing handle hphase := by
    rw [hphase] at hclosed
    cases hclosed
  ended handle hphase := by
    rw [hphase] at hclosed
    cases hclosed

theorem Separate.of_closed {task other : FetchTask ν} (hclosed : task.phase.inode = none) :
    Separate task other := by
  intro mine yours hmine
  rw [hclosed] at hmine
  cases hmine

/-- What the other calls' steps leave of a call's own file. -/
theorem FetchTask.Sound.frame {fs after : FileSystem ν} {bodies more : List (List UInt8)}
    {task : FetchTask ν} (hsound : task.Sound fs bodies) (hmore : bodies ⊆ more)
    (hfile : ∀ inode, task.phase.inode = some inode →
      after.Owns task.partialEntry inode ∧ after.content inode = fs.content inode) :
    task.Sound after more where
  owns inode hinode := (hfile inode hinode).1
  writing handle hphase hbroken := by
    have hcontent : after.content handle.inode = fs.content handle.inode :=
      (hfile handle.inode (by rw [hphase]; rfl)).2
    unfold Handle.Wrote
    rw [hcontent]
    exact hsound.writing handle hphase hbroken
  ended handle hphase := by
    have hcontent : after.content handle.inode = fs.content handle.inode :=
      (hfile handle.inode (by rw [hphase]; rfl)).2
    obtain ⟨hwrote, hbody⟩ := hsound.ended handle hphase
    unfold Handle.Wrote
    rw [hcontent]
    exact ⟨hwrote, hmore hbody⟩

namespace Downloads

/-- A step of one call: what it has to show for the others' files and for its own. -/
theorem Sound.set {s : Downloads ν} (hsound : s.Sound) {i : ℕ} {task : FetchTask ν}
    (htask : s.tasks[i]? = some task) {fs : FileSystem ν} {received : List UInt8}
    {phase : FetchPhase} {bodies : List (List UInt8)} (hbodies : s.bodies ⊆ bodies)
    (hstored : ∀ name content, (∀ (j : ℕ) (other : FetchTask ν), s.tasks[j]? = some other →
      name ≠ other.partialEntry) → fs.read name = some content → content ∈ bodies)
    (hothers : ∀ (j : ℕ) (other : FetchTask ν) (inode : ℕ), j ≠ i → s.tasks[j]? = some other →
      other.phase.inode = some inode →
      fs.Owns other.partialEntry inode ∧ fs.content inode = s.fs.content inode)
    (hnext : FetchTask.Sound fs bodies { task with received, phase })
    (hseparate : ∀ (j : ℕ) (other : FetchTask ν), j ≠ i → s.tasks[j]? = some other →
      Separate { task with received, phase } other) :
    Sound ⟨fs, s.tasks.set i { task with received, phase }, bodies⟩ where
  apart {j k first second} hfirst hsecond := by
    rcases getElem?_set_eq_some hfirst with ⟨-, rfl⟩ | ⟨-, hj⟩ <;>
      rcases getElem?_set_eq_some hsecond with ⟨-, rfl⟩ | ⟨-, hk⟩
    · have happart : task.dest ≠ task.partialEntry := hsound.apart htask htask
      exact happart
    · have happart : task.dest ≠ second.partialEntry := hsound.apart htask hk
      exact happart
    · have happart : first.dest ≠ task.partialEntry := hsound.apart hj htask
      exact happart
    · exact hsound.apart hj hk
  stored {name content} hname hread := by
    apply hstored name content _ hread
    intro j other hother
    by_cases hj : j = i
    · subst hj
      have hlt : j < s.tasks.length := (List.getElem?_eq_some_iff.mp hother).1
      rw [Option.some.inj (hother.symm.trans htask)]
      exact hname j { task with received, phase } (List.getElem?_set_self hlt)
    · apply hname j other
      rw [List.getElem?_set_ne (Ne.symm hj)]
      exact hother
  each {j other} hother := by
    rcases getElem?_set_eq_some hother with ⟨-, rfl⟩ | ⟨hi, hj⟩
    · exact hnext
    · exact (hsound.each hj).frame hbodies fun inode hinode => hothers j other inode hi hj hinode
  separate {j k first second} hjk hfirst hsecond := by
    rcases getElem?_set_eq_some hfirst with ⟨hi, rfl⟩ | ⟨hi, hj⟩ <;>
      rcases getElem?_set_eq_some hsecond with ⟨hi', rfl⟩ | ⟨hi', hk⟩
    · exact absurd (hi.trans hi'.symm) hjk
    · exact hseparate k second hi' hk
    · exact (hseparate j first hi hj).symm
    · exact hsound.separate hjk hj hk

/-- A step that touches no file and opens none. -/
theorem Sound.set_sameFiles {s : Downloads ν} (hsound : s.Sound) {i : ℕ} {task : FetchTask ν}
    (htask : s.tasks[i]? = some task) {received : List UInt8} {phase : FetchPhase}
    {bodies : List (List UInt8)} (hbodies : s.bodies ⊆ bodies)
    (hnext : FetchTask.Sound s.fs bodies { task with received, phase })
    (hinode : ∀ inode, phase.inode = some inode → task.phase.inode = some inode) :
    Sound ⟨s.fs, s.tasks.set i { task with received, phase }, bodies⟩ := by
  apply hsound.set htask hbodies _ _ hnext
  · intro j other hj hother mine yours hmine hyours
    exact hsound.separate (Ne.symm hj) htask hother mine yours (hinode mine hmine) hyours
  · intro name content hname hread
    exact hbodies (hsound.stored hname hread)
  · intro j other inode _ hother hopen
    exact ⟨(hsound.each hother).owns inode hopen, rfl⟩

/-- A call that closes its file, or has none. -/
theorem Sound.setPhase_closed {s : Downloads ν} (hsound : s.Sound) {i : ℕ} {task : FetchTask ν}
    (htask : s.tasks[i]? = some task) {phase : FetchPhase} (hclosed : phase.inode = none) :
    (s.setPhase i task phase).Sound := by
  apply hsound.set_sameFiles htask (List.Subset.refl _) (FetchTask.sound_of_closed hclosed)
  intro inode hinode
  cases hclosed.symm.trans hinode

/-! ## The steps of one call -/

section Steps

variable {s next : Downloads ν} {i : ℕ} {task : FetchTask ν}

theorem Sound.look (hsound : s.Sound) (htask : s.tasks[i]? = some task) {found : Bool}
    (hlook : s.look i task found = some next) : next.Sound := by
  unfold Downloads.look at hlook
  split at hlook
  next =>
    cases hlook
    apply hsound.setPhase_closed htask
    split <;> rfl
  next => cases hlook

theorem Sound.respond (hsound : s.Sound) (htask : s.tasks[i]? = some task)
    (hrespond : s.respond i task = some next) : next.Sound := by
  unfold Downloads.respond at hrespond
  split at hrespond
  next =>
    cases hrespond
    exact hsound.setPhase_closed htask rfl
  next => cases hrespond

/-- The next bytes are under way. -/
theorem Sound.chunk (hsound : s.Sound) (htask : s.tasks[i]? = some task) {bytes : List UInt8}
    (hchunk : s.chunk i task bytes = some next) : next.Sound := by
  unfold Downloads.chunk at hchunk
  split at hchunk
  next inode offset hphase =>
    cases hchunk
    have hold : task.Sound s.fs s.bodies := hsound.each htask
    refine hsound.set_sameFiles htask (List.Subset.refl _) ⟨?_, ?_, ?_⟩ ?_
    · intro found hfound
      exact hold.owns found (by rw [hphase]; exact hfound)
    · intro handle hwriting _
      cases hwriting
      obtain ⟨hcontent, hoffset⟩ := hold.writing _ hphase rfl
      refine ⟨?_, hoffset⟩
      have hsofar : s.fs.content inode = task.received := (List.append_nil _).symm.trans hcontent
      exact congrArg (· ++ bytes) hsofar
    · intro handle hended
      cases hended
    · intro found hfound
      rw [hphase]
      exact hfound
  next => cases hchunk

theorem Sound.finish (hsound : s.Sound) (htask : s.tasks[i]? = some task)
    (hfinish : s.finish i task = some next) : next.Sound := by
  unfold Downloads.finish at hfinish
  split at hfinish
  next handle hphase =>
    cases hfinish
    have hold : task.Sound s.fs s.bodies := hsound.each htask
    refine hsound.set_sameFiles htask (List.subset_cons_self _ _) ⟨?_, ?_, ?_⟩ ?_
    · intro inode hinode
      exact hold.owns inode (by rw [hphase]; exact hinode)
    · intro found hwriting
      cases hwriting
    · intro found hended
      cases hended
      exact ⟨hold.writing handle hphase, List.mem_cons_self⟩
    · intro inode hinode
      rw [hphase]
      exact hinode
  next => cases hfinish

theorem Sound.stop (hsound : s.Sound) (htask : s.tasks[i]? = some task)
    (hstop : s.stop i task = some next) : next.Sound := by
  unfold Downloads.stop at hstop
  split at hstop
  case h_5 handle hphase =>
    cases hstop
    have hinode : ∀ inode, (FetchPhase.abandoned handle).inode = some inode →
        task.phase.inode = some inode := by
      intro inode hinode
      rw [hphase]
      obtain ⟨_, _, hsame⟩ := Option.map_eq_some_iff.mp hinode
      exact congrArg some hsame
    refine hsound.set_sameFiles htask (List.Subset.refl _) ⟨?_, ?_, ?_⟩ hinode
    · intro inode hopen
      exact (hsound.each htask).owns inode (hinode inode hopen)
    · intro found hwriting
      cases hwriting
    · intro found hended
      cases hended
  case h_6 => cases hstop
  all_goals
    cases hstop
    exact hsound.setPhase_closed htask rfl

theorem settleHandle_eq_some {fs : FileSystem ν} {handle : Handle} {failedAfter : Option ℕ}
    {result : FileSystem ν × Handle} (hsettle : settleHandle fs handle failedAfter = some result) :
    handle.pending.isSome ∧ result.2.inode = handle.inode ∧ result.2.pending = none := by
  obtain ⟨bytes, hpending, rfl⟩ := Option.map_eq_some_iff.mp hsettle
  exact ⟨Option.isSome_of_eq_some hpending, rfl, rfl⟩

/-- A write that succeeds adds its bytes at the end. -/
theorem wrote_of_settleHandle {fs : FileSystem ν} {handle : Handle} {received : List UInt8}
    {failedAfter : Option ℕ} {result : FileSystem ν × Handle}
    (hwrote : handle.broken = false → handle.Wrote fs received)
    (hsettle : settleHandle fs handle failedAfter = some result)
    (hunbroken : result.2.broken = false) : result.2.Wrote result.1 received := by
  obtain ⟨bytes, hpending, rfl⟩ := Option.map_eq_some_iff.mp hsettle
  obtain ⟨hbefore, hsuccess⟩ := Bool.or_eq_false_iff.mp hunbroken
  obtain ⟨hcontent, hoffset⟩ := hwrote hbefore
  cases failedAfter with
  | some => cases hsuccess
  | none =>
      rw [hpending, Option.getD_some] at hcontent
      subst hcontent
      simp only [Handle.Wrote, FileSystem.writeAt, writtenOf, Function.update_self, hoffset,
        overwrite_length, Option.getD_none, List.append_nil, List.length_append, and_self]

/-- A write touches its own file only. -/
theorem Sound.settled (hsound : s.Sound) (htask : s.tasks[i]? = some task) {handle : Handle}
    {failedAfter : Option ℕ} {result : FileSystem ν × Handle}
    (hsettle : settleHandle s.fs handle failedAfter = some result)
    (hopen : task.phase.inode = some handle.inode) {phase : FetchPhase}
    (hinode : ∀ inode, phase.inode = some inode → inode = handle.inode)
    (hwriting : ∀ found, phase = .writing found → found.broken = false →
      found.Wrote result.1 task.received)
    (hended : ∀ found, phase = .ended found →
      (found.broken = false → found.Wrote result.1 task.received) ∧ task.received ∈ s.bodies) :
    Sound ⟨result.1, s.tasks.set i { task with phase }, s.bodies⟩ := by
  obtain ⟨bytes, -, rfl⟩ := Option.map_eq_some_iff.mp hsettle
  have howns : s.fs.Owns task.partialEntry handle.inode := (hsound.each htask).owns _ hopen
  refine hsound.set htask (List.Subset.refl _) ?_ ?_ ⟨?_, hwriting, hended⟩ ?_
  · intro name content hname hread
    rw [howns.read_writeAt (hname i task htask)] at hread
    exact hsound.stored hname hread
  · intro j other inode hj hother hyours
    have hne : handle.inode ≠ inode :=
      (hsound.separate (Ne.symm hj) htask hother _ _ hopen hyours).1
    exact ⟨((hsound.each hother).owns inode hyours).writeAt .., Function.update_of_ne hne.symm ..⟩
  · intro inode hmine
    rw [hinode inode hmine]
    exact howns.writeAt ..
  · intro j other hj hother mine yours hmine hyours
    rw [hinode mine hmine]
    exact hsound.separate (Ne.symm hj) htask hother _ _ hopen hyours

theorem Sound.settle (hsound : s.Sound) (htask : s.tasks[i]? = some task)
    {failedAfter : Option ℕ} (hsettle : s.settle i task failedAfter = some next) : next.Sound := by
  have hold : task.Sound s.fs s.bodies := hsound.each htask
  unfold Downloads.settle at hsettle
  split at hsettle
  next handle hphase =>
    obtain ⟨result, hresult, rfl⟩ := Option.map_eq_some_iff.mp hsettle
    obtain ⟨-, hsame, -⟩ := settleHandle_eq_some hresult
    refine hsound.settled htask hresult (by rw [hphase]; rfl) ?_ ?_ ?_
    · intro inode hinode
      cases hinode
      exact hsame
    · intro found hwriting
      cases hwriting
      exact wrote_of_settleHandle (hold.writing handle hphase) hresult
    · intro found hended
      cases hended
  next handle hphase =>
    obtain ⟨result, hresult, rfl⟩ := Option.map_eq_some_iff.mp hsettle
    obtain ⟨-, hsame, -⟩ := settleHandle_eq_some hresult
    obtain ⟨hwrote, hbody⟩ := hold.ended handle hphase
    refine hsound.settled htask hresult (by rw [hphase]; rfl) ?_ ?_ ?_
    · intro inode hinode
      cases hinode
      exact hsame
    · intro found hwriting
      cases hwriting
    · intro found hended
      cases hended
      exact ⟨wrote_of_settleHandle hwrote hresult, hbody⟩
  next handle hphase =>
    -- nobody looks at the file of a call that has given up
    obtain ⟨result, hresult, rfl⟩ := Option.map_eq_some_iff.mp hsettle
    obtain ⟨hpending, -, hidle⟩ := settleHandle_eq_some hresult
    obtain ⟨bytes, hbytes⟩ := Option.isSome_iff_exists.mp hpending
    refine hsound.settled htask hresult ?_ ?_ ?_ ?_
    · rw [hphase, FetchPhase.inode, hbytes]
      rfl
    · intro inode hinode
      rw [FetchPhase.inode, hidle] at hinode
      cases hinode
    · intro found hwriting
      cases hwriting
    · intro found hended
      cases hended
  next => cases hsettle

variable [DecidableEq ν]

theorem Sound.clear (hsound : s.Sound) (htask : s.tasks[i]? = some task) {removed : Bool}
    (hclear : s.clear i task removed = some next) : next.Sound := by
  unfold Downloads.clear at hclear
  split at hclear
  next =>
    cases hclear
    cases removed with
    | false => exact hsound.setPhase_closed htask rfl
    | true =>
        refine hsound.set htask (List.Subset.refl _) ?_ ?_ ?_ ?_
        · intro name content hname hread
          rw [if_pos rfl, FileSystem.read_remove (hname i task htask)] at hread
          exact hsound.stored hname hread
        · intro j other inode _ hother hinode
          exact ⟨((hsound.each hother).owns inode hinode).remove _, rfl⟩
        · exact FetchTask.sound_of_closed rfl
        · intro j other _ _
          exact Separate.of_closed rfl
  next => cases hclear

/-- A new or emptied file is nobody else's, unless another call has the name open. -/
theorem Sound.create (hsound : s.Sound) (htask : s.tasks[i]? = some task)
    (hfree : ∀ (j : ℕ) (other : FetchTask ν), j ≠ i → s.tasks[j]? = some other →
      other.phase.inode.isSome → other.partialEntry ≠ task.partialEntry)
    (hcreate : s.create i task = some next) : next.Sound := by
  unfold Downloads.create at hcreate
  split at hcreate
  next =>
    cases hcreate
    have hopen : ∀ (j : ℕ) (other : FetchTask ν) (inode : ℕ), j ≠ i →
        s.tasks[j]? = some other → other.phase.inode = some inode →
        task.partialEntry ≠ other.partialEntry ∧ inode ≠ s.fs.opened task.partialEntry := by
      intro j other inode hj hother hinode
      have hname := (hfree j other hj hother (Option.isSome_of_eq_some hinode)).symm
      exact ⟨hname, ((hsound.each hother).owns inode hinode).ne_opened hname⟩
    refine hsound.set htask (List.Subset.refl _) ?_ ?_ ?_ ?_
    · intro name content hname hread
      rw [FileSystem.read_create (hname i task htask)] at hread
      exact hsound.stored hname hread
    · intro j other inode hj hother hinode
      obtain ⟨hname, hne⟩ := hopen j other inode hj hother hinode
      exact ⟨((hsound.each hother).owns inode hinode).create hname, Function.update_of_ne hne ..⟩
    · refine ⟨?_, ?_, ?_⟩
      · intro inode hinode
        cases hinode
        exact s.fs.owns_opened task.partialEntry
      · intro handle hphase _
        cases hphase
        have hempty := s.fs.content_create task.partialEntry
        constructor
        · exact (List.append_nil _).trans hempty
        · exact (congrArg List.length hempty).symm
      · intro handle hphase
        cases hphase
    · intro j other hj hother mine yours hmine hyours
      cases hmine
      obtain ⟨hname, hne⟩ := hopen j other yours hj hother hyours
      exact ⟨hne.symm, hname⟩
  next => cases hcreate

/-- The finished file becomes visible, and the name it was written under free. -/
theorem Sound.rename (hsound : s.Sound) (htask : s.tasks[i]? = some task) {renamed : Bool}
    (hunbroken : ∀ handle, task.phase = .ended handle → handle.broken = false)
    (hrename : s.rename i task renamed = some next) : next.Sound := by
  unfold Downloads.rename at hrename
  split at hrename
  next inode offset broken hphase =>
    split at hrename
    next fs hfs =>
      cases hrename
      have hold : task.Sound s.fs s.bodies := hsound.each htask
      have hopen : task.phase.inode = some inode := by rw [hphase]; rfl
      obtain ⟨hwrote, hbody⟩ := hold.ended _ hphase
      obtain ⟨hcontent, -⟩ := hwrote (hunbroken _ hphase)
      rw [Option.getD_none, List.append_nil] at hcontent
      refine hsound.set htask (List.Subset.refl _) ?_ ?_ (FetchTask.sound_of_closed rfl) ?_
      · intro name content hname hread
        rw [(hold.owns inode hopen).read_rename hfs (hname i task htask)] at hread
        split at hread
        next =>
          rw [← Option.some.inj hread, hcontent]
          exact hbody
        next => exact hsound.stored hname hread
      · intro j other found hj hother hfound
        have hname : task.partialEntry ≠ other.partialEntry :=
          (hsound.separate (Ne.symm hj) htask hother _ _ hopen hfound).2
        obtain ⟨_, -, hcontents, -, -⟩ := FileSystem.rename_eq_some hfs
        exact ⟨((hsound.each hother).owns found hfound).rename hfs hname
          (hsound.apart htask hother), congrFun hcontents found⟩
      · intro j other _ _
        exact Separate.of_closed rfl
    next =>
      cases hrename
      exact hsound.setPhase_closed htask rfl
  next => cases hrename

end Steps

/-! ## All steps -/

theorem sound_initial (ν : Type) : (initial ν).Sound where
  apart h := by cases h
  stored _ hread := by cases hread
  each h := by cases h
  separate _ h := by cases h

/-- A new call's files are nobody's partial file, and its own is nobody's destination. -/
theorem Sound.start {dir : ModelsDir ν} {s : Downloads ν} (hsound : s.Sound)
    {req : DownloadRequest} (hown : dir.dest req ≠ dir.partialEntry req)
    (hothers : ∀ task ∈ s.tasks,
      dir.dest req ≠ task.partialEntry ∧ task.dest ≠ dir.partialEntry req) :
    (s.start dir req).Sound := by
  unfold Downloads.start
  split
  next =>
    refine ⟨?_, ?_, ?_, ?_⟩
    · intro j k first second hfirst hsecond
      rcases getElem?_concat_eq_some hfirst with hj | ⟨-, rfl⟩ <;>
        rcases getElem?_concat_eq_some hsecond with hk | ⟨-, rfl⟩
      · exact hsound.apart hj hk
      · exact (hothers first (List.mem_of_getElem? hj)).2
      · exact (hothers second (List.mem_of_getElem? hk)).1
      · exact hown
    · intro name content hname hread
      apply hsound.stored _ hread
      intro j task htask
      exact hname j task (getElem?_append_of_some htask _)
    · intro j task htask
      rcases getElem?_concat_eq_some htask with hj | ⟨-, rfl⟩
      · exact hsound.each hj
      · exact FetchTask.sound_of_closed rfl
    · intro j k first second hjk hfirst hsecond
      rcases getElem?_concat_eq_some hfirst with hj | ⟨-, rfl⟩
      · rcases getElem?_concat_eq_some hsecond with hk | ⟨-, rfl⟩
        · exact hsound.separate hjk hj hk
        · exact (Separate.of_closed rfl).symm
      · exact Separate.of_closed rfl
  next => exact hsound

/-- A crash leaves no file open. -/
theorem inode_crashed (phase : FetchPhase) : phase.crashed.inode = none := by
  cases phase <;> rfl

theorem Sound.crash {s : Downloads ν} (hsound : s.Sound) : s.crash.Sound := by
  have hold : ∀ {j : ℕ} {task : FetchTask ν}, s.crash.tasks[j]? = some task →
      ∃ before, s.tasks[j]? = some before ∧
        task = { before with phase := before.phase.crashed } := by
    intro j task htask
    rw [Downloads.crash, List.getElem?_map] at htask
    obtain ⟨before, hbefore, hsame⟩ := Option.map_eq_some_iff.mp htask
    exact ⟨before, hbefore, hsame.symm⟩
  refine ⟨?_, ?_, ?_, ?_⟩
  · intro j k first second hfirst hsecond
    obtain ⟨before, hj, rfl⟩ := hold hfirst
    obtain ⟨other, hk, rfl⟩ := hold hsecond
    have happart : before.dest ≠ other.partialEntry := hsound.apart hj hk
    exact happart
  · intro name content hname hread
    apply hsound.stored _ hread
    intro j task htask
    have hafter : s.crash.tasks[j]? = some { task with phase := task.phase.crashed } := by
      rw [Downloads.crash, List.getElem?_map, htask]
      rfl
    have hne : name ≠ task.partialEntry := by
      apply hname j { task with phase := task.phase.crashed } hafter
    exact hne
  · intro j task htask
    obtain ⟨before, -, rfl⟩ := hold htask
    exact FetchTask.sound_of_closed (inode_crashed before.phase)
  · intro j k first second _ hfirst _
    obtain ⟨before, -, rfl⟩ := hold hfirst
    exact Separate.of_closed (inode_crashed before.phase)

end Downloads

variable [DecidableEq ν] {dir : ModelsDir ν}

theorem sound_step {s next : Downloads ν} {action : FetchAction} (hsound : s.Sound)
    (hkeeps : KeepsApart dir s action) (hstep : (downloads dir).step s action = some next) :
    next.Sound := by
  cases action with
  | start req =>
      cases hstep
      exact hsound.start hkeeps.1 hkeeps.2
  | crash =>
      cases hstep
      exact hsound.crash
  | look i found =>
      obtain ⟨task, htask, hlook⟩ := Option.bind_eq_some_iff.mp hstep
      exact hsound.look htask hlook
  | clear i removed =>
      obtain ⟨task, htask, hclear⟩ := Option.bind_eq_some_iff.mp hstep
      exact hsound.clear htask hclear
  | respond i =>
      obtain ⟨task, htask, hrespond⟩ := Option.bind_eq_some_iff.mp hstep
      exact hsound.respond htask hrespond
  | create i =>
      obtain ⟨task, htask, hcreate⟩ := Option.bind_eq_some_iff.mp hstep
      exact hsound.create htask (hkeeps task htask) hcreate
  | chunk i bytes =>
      obtain ⟨task, htask, hchunk⟩ := Option.bind_eq_some_iff.mp hstep
      exact hsound.chunk htask hchunk
  | settle i failedAfter =>
      obtain ⟨task, htask, hsettle⟩ := Option.bind_eq_some_iff.mp hstep
      exact hsound.settle htask hsettle
  | finish i =>
      obtain ⟨task, htask, hfinish⟩ := Option.bind_eq_some_iff.mp hstep
      exact hsound.finish htask hfinish
  | stop i =>
      obtain ⟨task, htask, hstop⟩ := Option.bind_eq_some_iff.mp hstep
      exact hsound.stop htask hstop
  | rename i renamed =>
      obtain ⟨task, htask, hrename⟩ := Option.bind_eq_some_iff.mp hstep
      exact hsound.rename htask (hkeeps task · htask) hrename

omit [DecidableEq ν] in
theorem published_of_sound {s : Downloads ν} (hsound : s.Sound) : Published s := by
  intro task hmem content hread
  obtain ⟨i, htask⟩ := List.mem_iff_getElem?.mp hmem
  exact hsound.stored (fun _ _ hother => hsound.apart htask hother) hread

/-- Calls that keep apart publish complete bodies only, wherever they are interrupted. -/
theorem published_of_keepsApart {actions : List FetchAction}
    (hmeets : (downloads dir).Meets (KeepsApart dir) (.initial ν) actions) :
    (downloads dir).Throughout Published (.initial ν) actions := by
  apply Machine.Meets.throughout _ _ (Downloads.sound_initial ν) hmeets
  · intro s action next
    exact sound_step
  · intro s
    exact published_of_sound

def homeModels : ModelsDir String := ⟨"/var/lib/gpucluster/models", id⟩

def llamaDownload : DownloadRequest :=
  ⟨"bartowski/Llama-3.2-1B-Instruct-GGUF", "Llama-3.2-1B-Instruct-Q4_K_M.gguf",
    "Llama-3.2-1B-Instruct-Q4_K_M.gguf", ""⟩

/-- One call of `fetch`, to its end. -/
def oneFetch : List FetchAction :=
  [.start llamaDownload, .look 0 true, .clear 0 true, .respond 0, .create 0, .chunk 0 [1, 2],
    .settle 0 none, .finish 0, .rename 0 true]

theorem oneFetch_published :
    ∃ s, (downloads homeModels).exec (.initial String) oneFetch = some s ∧ Published s ∧
      s.fs.read (homeModels.dest llamaDownload) = some [1, 2] := by
  have hrun : ((downloads homeModels).exec (.initial String) oneFetch).any (fun s =>
      decide (s.fs.read (homeModels.dest llamaDownload) = some [1, 2])) = true := by
    decide +kernel
  obtain ⟨s, hexec, hread⟩ := (Option.any_eq_true _ _).mp hrun
  have hmeets :
      (downloads homeModels).Meets (KeepsApart homeModels) (.initial String) oneFetch := by
    apply Machine.Meets.cons rfl
    · constructor
      · decide +kernel
      · intro task hmem
        cases hmem
    refine .cons rfl trivial (.cons rfl trivial (.cons rfl trivial (.cons rfl ?_ ?_)))
    · -- there is no other call
      intro task _ j other hj hother
      cases j with
      | zero => exact absurd rfl hj
      | succ => cases hother
    refine .cons rfl trivial (.cons rfl trivial (.cons rfl trivial (.cons rfl ?_ trivial)))
    intro task handle htask hphase
    cases htask
    cases hphase
    rfl
  exact ⟨s, hexec, (published_of_keepsApart hmeets).last hexec, of_decide_eq_true hread⟩

/-- A second call for the same file empties the partial file of the first. -/
def twoFetches : List FetchAction :=
  [.start llamaDownload, .start llamaDownload, .look 0 true, .look 1 true, .clear 0 true,
    .clear 1 true, .respond 0, .respond 1, .create 0, .chunk 0 [1, 2], .settle 0 none, .create 1,
    .chunk 1 [1], .settle 1 none, .finish 0, .rename 0 true]

/-- The first call publishes what the second has received so far. -/
theorem twoFetches_publishesHalf :
    ¬ ∀ actions, (downloads homeModels).Throughout Published (.initial String) actions := by
  intro hall
  have hrun : ((downloads homeModels).exec (.initial String) twoFetches).any (fun s =>
      decide (s.fs.read (homeModels.dest llamaDownload) = some [1]) &&
        decide (s.bodies = [[1, 2]]) &&
        decide (s.tasks.map FetchTask.dest = List.replicate 2 (homeModels.dest llamaDownload))) =
      true := by
    decide +kernel
  obtain ⟨s, hexec, h⟩ := (Option.any_eq_true _ _).mp hrun
  simp only [Bool.and_eq_true, decide_eq_true_eq] at h
  obtain ⟨⟨hread, hbodies⟩, hdests⟩ := h
  have hdest : homeModels.dest llamaDownload ∈ s.tasks.map FetchTask.dest := by
    rw [hdests]
    exact List.mem_cons_self
  obtain ⟨task, hmem, hsame⟩ := List.mem_map.mp hdest
  rw [← hsame] at hread
  have hbody : [1] ∈ s.bodies := (hall twoFetches).last hexec task hmem [1] hread
  rw [hbodies] at hbody
  exact absurd hbody (by decide)

end GpuCluster.Worker
