import GpuCluster.Cluster.Wire
import GpuCluster.Foundation.Simulation
import GpuCluster.Worker.Identity

/-! # Starts of a worker on one data directory

The file `node.id` is made first and written afterwards, and a file that is there
is read, whatever it holds. A start can end between any two of these calls to the
operating system: it is killed, or the next call fails.
-/

namespace GpuCluster.Cluster

open Common Foundation Proto Sysinfo Worker
open Coordinator hiding statusLabel

/-! ## A start, one call after the other -/

/-- `Uuid::now_v7` as text. -/
structure Uuid where
  text : String
  length : text.length = 36
  digits : ∀ c ∈ text.toList, c ∈ "0123456789abcdef-".toList
  deriving DecidableEq

/-- Where `load_or_create_node_id` stands, or that no start is under way. `written`
counts the characters that are in the file, one byte each. -/
inductive IdPhase
  | idle
  | looking
  | reading
  | making
  | creating (fresh : Uuid)
  | writing (fresh : Uuid) (written : ℕ)

/-- `node.id`, the start that is under way, and the ids that earlier starts returned. -/
structure NodeIdDir where
  file : Option String
  phase : IdPhase
  returned : List String

inductive IdStep
  | start
  /-- `path.exists()`. -/
  | look
  | read
  /-- The directory is there, and the id is made. -/
  | makeDir (fresh : Uuid)
  | create
  /-- A write that takes this many bytes. -/
  | write (count : ℕ)
  /-- All bytes are written. -/
  | finish
  /-- The start is killed, or its next call fails. -/
  | stop
  deriving DecidableEq

namespace NodeIdDir

def initial (file : Option String) : NodeIdDir := ⟨file, .idle, []⟩

def answer (s : NodeIdDir) (id : String) : NodeIdDir :=
  { s with phase := .idle, returned := id :: s.returned }

def step (s : NodeIdDir) : IdStep → Option NodeIdDir
  | .start =>
      match s.phase with
      | .idle => some { s with phase := .looking }
      | _ => none
  | .look =>
      match s.phase with
      | .looking => some { s with phase := if s.file.isSome then .reading else .making }
      | _ => none
  | .read =>
      match s.phase, s.file with
      | .reading, some content => some (s.answer (trim content))
      | _, _ => none
  | .makeDir fresh =>
      match s.phase with
      | .making => some { s with phase := .creating fresh }
      | _ => none
  | .create =>
      match s.phase with
      | .creating fresh => some { s with file := some "", phase := .writing fresh 0 }
      | _ => none
  | .write count =>
      match s.phase with
      | .writing fresh written =>
          if 0 < count ∧ written + count ≤ fresh.text.length then
            some { s with
              file := some (takeChars (written + count) fresh.text)
              phase := .writing fresh (written + count) }
          else none
      | _ => none
  | .finish =>
      match s.phase with
      | .writing fresh written =>
          if written = fresh.text.length then some (s.answer fresh.text) else none
      | _ => none
  | .stop =>
      match s.phase with
      | .idle => none
      | _ => some { s with phase := .idle }

end NodeIdDir

/-- Starts on a directory, one after the other. -/
def nodeIdStarts : Machine NodeIdDir IdStep where
  init s := ∃ file, s = .initial file
  step := NodeIdDir.step

/-! ## What is promised -/

/-- The ids that starts return are not empty, and all the same; and no report under
one of them is refused for want of an id. -/
structure NodeIdDir.Agree (s : NodeIdDir) : Prop where
  nonempty : ∀ id ∈ s.returned, id ≠ ""
  same : ∀ id ∈ s.returned, ∀ other ∈ s.returned, id = other
  reported : ∀ id ∈ s.returned, ∀ (info : NodeInfo) (sup : Supervisor)
    (advertisedHost : Option String) (controlEndpoint peer : String) (reg : Registry) (now : ℤ),
    info.nodeId = id → reportNode reg now peer
      (publishBody info sup advertisedHost controlEndpoint) ≠ .error .missingNodeId

/-- No characters but white space. -/
def Blank (content : String) : Prop :=
  ∀ c ∈ content.toList, isWhitespace c

/-- A file that is read is not blank. -/
def NodeIdDir.FindsText (s : NodeIdDir) (step : IdStep) : Prop :=
  step = .read → ∀ content, s.file = some content → ¬Blank content

/-- No start ends between the creation of the file and its first byte. -/
def NodeIdDir.StaysToWrite (s : NodeIdDir) (step : IdStep) : Prop :=
  step = .stop → ∀ fresh, s.phase ≠ .writing fresh 0

/-! ## Ids as texts -/

namespace Uuid

variable (fresh : Uuid)

theorem trim_takeChars (n : ℕ) : trim (takeChars n fresh.text) = takeChars n fresh.text := by
  have hdigits : ∀ c ∈ "0123456789abcdef-".toList, isWhitespace c = false := by
    simp [isWhitespace]
  refine trim_eq_self fun c hc => ?_
  rw [takeChars, String.toList_ofList] at hc
  exact hdigits c (fresh.digits c (List.mem_of_mem_take hc))

theorem takeChars_eq_empty {n : ℕ} : takeChars n fresh.text = "" ↔ n = 0 := by
  have hlength : fresh.text.toList.length = 36 := fresh.length
  rw [takeChars, ← String.toList_inj, String.toList_ofList, String.toList_empty,
    List.take_eq_nil_iff, ← List.length_eq_zero_iff, hlength]
  simp

theorem takeChars_length : takeChars fresh.text.length fresh.text = fresh.text := by
  rw [takeChars, ← String.length_toList, List.take_length, String.ofList_toList]

end Uuid

/-- A heartbeat is refused for want of an id only if the worker has none. -/
theorem nodeId_of_missingNodeId {info : NodeInfo} {sup : Supervisor}
    {advertisedHost : Option String} {controlEndpoint peer : String} {reg : Registry} {now : ℤ}
    (hreport : reportNode reg now peer (publishBody info sup advertisedHost controlEndpoint) =
      .error .missingNodeId) : info.nodeId = "" := by
  cases hdecode : decodeReport peer (publishBody info sup advertisedHost controlEndpoint) with
  | ok report =>
      rw [reportNode_of_decode hdecode] at hreport
      split at hreport <;> cases hreport
  | error refusal =>
      rw [reportNode_of_error hdecode] at hreport
      cases hreport
      unfold decodeReport at hdecode
      split at hdecode
      next => cases hdecode
      next view hview =>
        dsimp only at hdecode
        split at hdecode
        next hempty => rw [← (view_of_publishBody hview).1, hempty]
        next => cases hdecode

/-! ## One call -/

namespace NodeIdDir

/-- What a call does, and when it can come. -/
inductive Moves (s : NodeIdDir) : IdStep → NodeIdDir → Prop
  | start (hphase : s.phase = .idle) : s.Moves .start { s with phase := .looking }
  | found (content : String) (hphase : s.phase = .looking) (hfile : s.file = some content) :
      s.Moves .look { s with phase := .reading }
  | absent (hphase : s.phase = .looking) (hfile : s.file = none) :
      s.Moves .look { s with phase := .making }
  | read (content : String) (hphase : s.phase = .reading) (hfile : s.file = some content) :
      s.Moves .read (s.answer (trim content))
  | makeDir (fresh : Uuid) (hphase : s.phase = .making) :
      s.Moves (.makeDir fresh) { s with phase := .creating fresh }
  | create (fresh : Uuid) (hphase : s.phase = .creating fresh) :
      s.Moves .create { s with file := some "", phase := .writing fresh 0 }
  | write (fresh : Uuid) (written count : ℕ) (hphase : s.phase = .writing fresh written)
      (hcount : 0 < count) :
      s.Moves (.write count) { s with
        file := some (takeChars (written + count) fresh.text)
        phase := .writing fresh (written + count) }
  | finish (fresh : Uuid) (hphase : s.phase = .writing fresh fresh.text.length) :
      s.Moves .finish (s.answer fresh.text)
  | stop : s.Moves .stop { s with phase := .idle }

variable {s next : NodeIdDir} {step : IdStep}

theorem step_moves (hstep : s.step step = some next) : s.Moves step next := by
  unfold NodeIdDir.step at hstep
  split at hstep
  next =>
    split at hstep
    next hphase =>
      cases hstep
      exact .start hphase
    next => cases hstep
  next =>
    split at hstep
    next hphase =>
      cases hstep
      split
      next hsome =>
        obtain ⟨content, hfile⟩ := Option.isSome_iff_exists.mp hsome
        exact .found content hphase hfile
      next hnone => exact .absent hphase (Option.not_isSome_iff_eq_none.mp hnone)
    next => cases hstep
  next =>
    split at hstep
    next content hphase hfile =>
      cases hstep
      exact .read content hphase hfile
    next => cases hstep
  next fresh =>
    split at hstep
    next hphase =>
      cases hstep
      exact .makeDir fresh hphase
    next => cases hstep
  next =>
    split at hstep
    next fresh hphase =>
      cases hstep
      exact .create fresh hphase
    next => cases hstep
  next count =>
    split at hstep
    next fresh written hphase =>
      split at hstep
      next hcount =>
        cases hstep
        exact .write fresh written count hphase hcount.1
      next => cases hstep
    next => cases hstep
  next =>
    split at hstep
    next fresh written hphase =>
      split at hstep
      next hwritten =>
        cases hstep
        exact .finish fresh (hwritten ▸ hphase)
      next => cases hstep
    next => cases hstep
  next =>
    split at hstep
    next => cases hstep
    next =>
      cases hstep
      exact .stop

/-- What the file holds while a start is under way, and that the returned ids are in it. -/
structure Consistent (s : NodeIdDir) : Prop where
  kept : ∀ id ∈ s.returned, ∃ content, s.file = some content ∧ trim content = id
  making : s.phase = .making → s.file = none
  creating : ∀ fresh, s.phase = .creating fresh → s.file = none
  writing : ∀ fresh written, s.phase = .writing fresh written →
    s.file = some (takeChars written fresh.text) ∧ s.returned = []

theorem consistent_initial (file : Option String) : Consistent (.initial file) where
  kept _ hmem := by cases hmem
  making h := by cases h
  creating _ h := by cases h
  writing _ _ h := by cases h

theorem Consistent.returned_eq_nil (hs : s.Consistent) (hfile : s.file = none) :
    s.returned = [] := by
  by_contra hne
  obtain ⟨id, hid⟩ := List.exists_mem_of_ne_nil _ hne
  obtain ⟨content, hcontent, -⟩ := hs.kept id hid
  cases hfile.symm.trans hcontent

theorem Consistent.move (hs : s.Consistent) (hmoves : s.Moves step next) : next.Consistent := by
  cases hmoves with
  | start | stop | found => exact ⟨hs.kept, nofun, nofun, nofun⟩
  | absent hphase hfile =>
      exact ⟨hs.kept, fun _ => hfile, nofun, nofun⟩
  | read content hphase hfile =>
      refine ⟨fun id hid => ?_, nofun, nofun, nofun⟩
      rcases List.mem_cons.mp hid with rfl | hold
      · exact ⟨content, hfile, rfl⟩
      · exact hs.kept id hold
  | makeDir fresh hphase =>
      exact ⟨hs.kept, nofun, fun _ _ => hs.making hphase, nofun⟩
  | create fresh hphase =>
      have hnone := hs.returned_eq_nil (hs.creating fresh hphase)
      refine ⟨fun id hid => ?_, nofun, nofun, ?_⟩
      · rw [hnone] at hid
        cases hid
      · rintro _ _ ⟨rfl⟩
        exact ⟨rfl, hnone⟩
  | write fresh written count hphase =>
      obtain ⟨-, hnone⟩ := hs.writing fresh written hphase
      refine ⟨fun id hid => ?_, nofun, nofun, ?_⟩
      · rw [hnone] at hid
        cases hid
      · rintro _ _ ⟨rfl⟩
        exact ⟨rfl, hnone⟩
  | finish fresh hphase =>
      obtain ⟨hfile, hnone⟩ := hs.writing fresh _ hphase
      refine ⟨fun id hid => ?_, nofun, nofun, nofun⟩
      rw [answer, hnone] at hid
      obtain rfl := List.mem_singleton.mp hid
      exact ⟨_, hfile, (fresh.trim_takeChars _).trans fresh.takeChars_length⟩

/-- A start returns what the others did, and it has to be an id. -/
theorem agree_answer_iff {id : String} (hsame : ∀ other ∈ s.returned, other = id) :
    (s.answer id).Agree ↔ id ≠ "" := by
  constructor
  · intro hafter
    exact hafter.nonempty id List.mem_cons_self
  · intro hne
    have hall : ∀ other ∈ (s.answer id).returned, other = id :=
      List.forall_mem_cons.mpr ⟨rfl, hsame⟩
    refine ⟨fun other hother => hall other hother ▸ hne, fun first hfirst second hsecond => ?_, ?_⟩
    · rw [hall first hfirst, hall second hsecond]
    · rintro other hother info sup advertisedHost controlEndpoint peer reg now hid hrefused
      exact hne (hall other hother ▸ hid ▸ nodeId_of_missingNodeId hrefused)

theorem agree_step_iff (hs : s.Consistent) (hagree : s.Agree) (hmoves : s.Moves step next) :
    next.Agree ↔ s.FindsText step := by
  cases hmoves with
  | read content hphase hfile =>
      have hsame : ∀ other ∈ s.returned, other = trim content := by
        intro other hother
        obtain ⟨stored, hstored, htrim⟩ := hs.kept other hother
        cases hfile.symm.trans hstored
        exact htrim.symm
      rw [agree_answer_iff hsame, ne_eq, trim_eq_empty_iff]
      constructor
      · intro hblank _ stored hstored
        cases hfile.symm.trans hstored
        exact hblank
      · intro hfinds
        exact hfinds rfl content hfile
  | finish fresh hphase =>
      obtain ⟨-, hnone⟩ := hs.writing fresh _ hphase
      refine iff_of_true ?_ fun h => by cases h
      refine (agree_answer_iff (hnone ▸ fun _ hmem => by cases hmem)).mpr fun hempty => ?_
      have hlength := fresh.length
      rw [hempty] at hlength
      cases hlength
  | _ => exact iff_of_true ⟨hagree.nonempty, hagree.same, hagree.reported⟩ fun h => by cases h

/-- The file is not blank, unless a start is about to write its first byte. -/
def Readable (s : NodeIdDir) : Prop :=
  ∀ content, s.file = some content → ¬Blank content ∨ ∃ fresh, s.phase = .writing fresh 0

theorem Readable.move (hreadable : s.Readable) (hstays : s.StaysToWrite step)
    (hmoves : s.Moves step next) : next.Readable := by
  have hkeep : (∀ fresh, s.phase ≠ .writing fresh 0) → ∀ content, s.file = some content →
      ¬Blank content := by
    intro hnot content hfile
    refine (hreadable content hfile).resolve_right ?_
    rintro ⟨fresh, hphase⟩
    exact hnot fresh hphase
  cases hmoves with
  | start hphase | found content hphase | absent hphase | read content hphase
  | makeDir fresh hphase =>
      intro content hfile
      refine .inl (hkeep (fun fresh h => ?_) content hfile)
      cases hphase.symm.trans h
  | create fresh => exact fun _ _ => .inr ⟨fresh, rfl⟩
  | write fresh written count hphase hcount =>
      rintro _ ⟨rfl⟩
      refine .inl fun hblank => ?_
      have hnone := trim_eq_empty_iff.mpr hblank
      rw [fresh.trim_takeChars, fresh.takeChars_eq_empty] at hnone
      omega
  | finish fresh hphase =>
      intro content hfile
      refine .inl (hkeep (fun other h => ?_) content hfile)
      obtain ⟨-, hnone⟩ := IdPhase.writing.inj (hphase.symm.trans h)
      have hlength := fresh.length
      omega
  | stop => exact fun content hfile => .inl (hkeep (hstays rfl) content hfile)

theorem Readable.findsText (hreadable : s.Readable) (hmoves : s.Moves step next) :
    s.FindsText step := by
  rintro rfl content hfile
  cases hmoves with
  | read _ hphase =>
      refine (hreadable content hfile).resolve_right ?_
      rintro ⟨fresh, hwriting⟩
      cases hphase.symm.trans hwriting

/-- What holds as long as no start ends before the first byte. -/
structure Sound (s : NodeIdDir) : Prop where
  consistent : s.Consistent
  readable : s.Readable
  agree : s.Agree

theorem Sound.move (hs : s.Sound) (hstays : s.StaysToWrite step) (hmoves : s.Moves step next) :
    next.Sound where
  consistent := hs.consistent.move hmoves
  readable := hs.readable.move hstays hmoves
  agree := (agree_step_iff hs.consistent hs.agree hmoves).mpr (hs.readable.findsText hmoves)

end NodeIdDir

/-! ## Runs -/

section Runs

variable (file : Option String) (steps : List IdStep)

theorem agree_initial : (NodeIdDir.initial file).Agree where
  nonempty _ hmem := by cases hmem
  same _ hmem := by cases hmem
  reported _ hmem := by cases hmem

theorem readable_initial (hfile : ∀ content, file = some content → ¬Blank content) :
    (NodeIdDir.initial file).Readable :=
  fun content hcontent => .inl (hfile content hcontent)

theorem throughout_agree_iff_findsText :
    nodeIdStarts.Throughout NodeIdDir.Agree (.initial file) steps ↔
      nodeIdStarts.Meets NodeIdDir.FindsText (.initial file) steps := by
  refine Machine.throughout_iff_meets (M := nodeIdStarts) ?_ ?_
    (NodeIdDir.consistent_initial file) (agree_initial file) steps
  · intro s step next hs hstep
    exact hs.move (NodeIdDir.step_moves hstep)
  · intro s step next hs hagree hstep
    exact NodeIdDir.agree_step_iff hs hagree (NodeIdDir.step_moves hstep)

theorem throughout_agree_of_staysToWrite
    (hfile : ∀ content, file = some content → ¬Blank content)
    (hstays : nodeIdStarts.Meets NodeIdDir.StaysToWrite (.initial file) steps) :
    nodeIdStarts.Throughout NodeIdDir.Agree (.initial file) steps := by
  have hinitial : (NodeIdDir.initial file).Sound :=
    ⟨NodeIdDir.consistent_initial file, readable_initial file hfile, agree_initial file⟩
  have hkeeps : ∀ s step next, NodeIdDir.Sound s → s.StaysToWrite step →
      nodeIdStarts.step s step = some next → next.Sound := by
    intro s step next hs hstays hstep
    exact hs.move hstays (NodeIdDir.step_moves hstep)
  exact hstays.throughout hkeeps (fun _ hs => hs.agree) hinitial

/-- All starts return one id that is not empty exactly as long as none of them finds a blank
file. Where there was none to begin with, a blank file comes from a start that ends before
the first byte. -/
theorem starts_agree_iff :
    (nodeIdStarts.Throughout NodeIdDir.Agree (.initial file) steps ↔
      nodeIdStarts.Meets NodeIdDir.FindsText (.initial file) steps) ∧
    ((∀ content, file = some content → ¬Blank content) →
      nodeIdStarts.Meets NodeIdDir.StaysToWrite (.initial file) steps →
      nodeIdStarts.Throughout NodeIdDir.Agree (.initial file) steps) :=
  ⟨throughout_agree_iff_findsText file steps, throughout_agree_of_staysToWrite file steps⟩

end Runs

def freshUuid : Uuid where
  text := "019a2b3c-4d5e-7f60-8123-456789abcdef"
  length := rfl
  digits := by simp

/-- A start that is killed in the middle of the id leaves a shorter one to the next. -/
theorem starts_agree_shortId :
    nodeIdStarts.Throughout NodeIdDir.Agree (.initial none)
      [.start, .look, .makeDir freshUuid, .create, .write 8, .stop, .start, .look, .read] := by
  have hother : ∀ steps : List IdStep, .stop ∉ steps → ∀ s,
      nodeIdStarts.Meets NodeIdDir.StaysToWrite s steps := by
    intro steps hsteps
    exact Machine.Meets.of_forall fun step hmem _ hstop => absurd (hstop ▸ hmem) hsteps
  refine (starts_agree_iff none _).2 (fun content hfile => by cases hfile) ?_
  refine (hother [.start, .look, .makeDir freshUuid, .create, .write 8] (by decide) _).append ?_
  rintro _ ⟨rfl⟩
  refine Machine.Meets.cons rfl ?_ (hother _ (by decide) _)
  rintro - fresh ⟨⟩

/-- A start that is killed before the first byte. -/
theorem stoppedStart_disagrees :
    (nodeIdStarts.exec (.initial none)
      [.start, .look, .makeDir freshUuid, .create, .stop, .start, .look, .read] =
        some ⟨some "", .idle, [""]⟩) ∧
    ¬nodeIdStarts.Throughout NodeIdDir.Agree (.initial none)
      [.start, .look, .makeDir freshUuid, .create, .stop, .start, .look, .read] := by
  have hexec : nodeIdStarts.exec (.initial none)
      [.start, .look, .makeDir freshUuid, .create, .stop, .start, .look, .read] =
        some ⟨some "", .idle, [""]⟩ := rfl
  refine ⟨hexec, fun hagree => ?_⟩
  exact (hagree.last hexec).nonempty "" List.mem_cons_self rfl

/-! ## Starts that are not killed -/

/-- How a start comes to the end that `load_or_create_node_id` has with this fault. -/
def startSteps (file : Option String) (fresh : Uuid) (fault : Option IdFault) : List IdStep :=
  match file, fault with
  | some _, none => [.start, .look, .read]
  | some _, some _ => [.start, .look, .stop]
  | none, none => [.start, .look, .makeDir fresh, .create, .write fresh.text.length, .finish]
  | none, some .directory => [.start, .look, .stop]
  | none, some (.file none) => [.start, .look, .makeDir fresh, .stop]
  | none, some (.file (some 0)) => [.start, .look, .makeDir fresh, .create, .stop]
  | none, some (.file (some (written + 1))) =>
      [.start, .look, .makeDir fresh, .create, .write (min (written + 1) fresh.text.length), .stop]

/-- A start without a kill is `load_or_create_node_id`. -/
theorem exec_startSteps (file : Option String) (fresh : Uuid) (fault : Option IdFault)
    (returned : List String) :
    nodeIdStarts.exec ⟨file, .idle, returned⟩ (startSteps file fresh fault) =
      some ⟨(loadOrCreateNodeId file fresh.text fault).2, .idle,
        match (loadOrCreateNodeId file fresh.text fault).1 with
        | .ok id => id :: returned
        | .error _ => returned⟩ := by
  have hlength : 0 < fresh.text.length := fresh.length ▸ Nat.succ_pos 35
  have hwrite : ∀ count, 0 < count → count ≤ fresh.text.length →
      nodeIdStarts.step ⟨some "", .writing fresh 0, returned⟩ (.write count) =
        some ⟨some (takeChars count fresh.text), .writing fresh count, returned⟩ := by
    intro count hpos hle
    simp only [nodeIdStarts, NodeIdDir.step, Nat.zero_add, if_pos (And.intro hpos hle)]
  cases file with
  | some content => cases fault <;> rfl
  | none =>
      match fault with
      | none =>
          have hfinish : nodeIdStarts.step
              ⟨some (takeChars fresh.text.length fresh.text), .writing fresh fresh.text.length,
                returned⟩ .finish = some ⟨some fresh.text, .idle, fresh.text :: returned⟩ := by
            rw [fresh.takeChars_length]
            exact if_pos rfl
          rw [startSteps]
          iterate 4 rw [Machine.exec_cons rfl]
          rw [Machine.exec_cons (hwrite _ hlength le_rfl), Machine.exec_cons hfinish]
          rfl
      | some .directory | some (.file none) | some (.file (some 0)) => rfl
      | some (.file (some (written + 1))) =>
          have hcount : 0 < min (written + 1) fresh.text.length :=
            lt_min (Nat.succ_pos _) hlength
          have htake : takeChars (min (written + 1) fresh.text.length) fresh.text =
              takeChars (written + 1) fresh.text := by
            rw [takeChars, takeChars, ← String.length_toList, ← List.take_eq_take_min]
          rw [startSteps]
          iterate 4 rw [Machine.exec_cons rfl]
          rw [Machine.exec_cons (hwrite _ hcount (min_le_right _ _)), htake]
          rfl

/-- A start, with the id that it makes if it has to, and the call that fails. -/
structure WholeStart where
  fresh : Uuid
  fault : Option IdFault

/-- `node.id`, and the ids that starts returned. -/
structure Started where
  file : Option String
  returned : List String
  deriving DecidableEq

/-- Starts on a directory, each taken whole. -/
def wholeStarts : Machine Started WholeStart where
  init s := s.returned = []
  step s start :=
    let loaded := loadOrCreateNodeId s.file start.fresh.text start.fault
    some ⟨loaded.2, match loaded.1 with
      | .ok id => id :: s.returned
      | .error _ => s.returned⟩

theorem wholeStarts_simulated :
    wholeStarts.Simulates nodeIdStarts fun s d => d = ⟨s.file, .idle, s.returned⟩ := by
  rintro s _ ⟨fresh, fault⟩ next rfl hstep
  obtain rfl := Option.some.inj hstep
  exact ⟨_, _, exec_startSteps s.file fresh fault s.returned, rfl⟩

theorem consistent_of_reachable {d : NodeIdDir} (hreach : nodeIdStarts.Reachable d) :
    d.Consistent := by
  apply hreach.invariant
  · rintro _ ⟨file, rfl⟩
    exact NodeIdDir.consistent_initial file
  · intro d step next hd hstep
    exact hd.move (NodeIdDir.step_moves hstep)

/-- Starts that are not killed come, one call after the other, to the file and the ids that
`load_or_create_node_id` gives; and each of these ids is what the file holds. -/
theorem wholeStarts_areStarts {s : Started} (hreach : wholeStarts.Reachable s) :
    nodeIdStarts.Reachable ⟨s.file, .idle, s.returned⟩ ∧
      ∀ id ∈ s.returned, s.file.map trim = some id := by
  have hinit : ∀ s, wholeStarts.init s →
      ∃ d, nodeIdStarts.init d ∧ d = ⟨s.file, .idle, s.returned⟩ := by
    rintro ⟨file, _⟩ rfl
    exact ⟨_, ⟨file, rfl⟩, rfl⟩
  obtain ⟨d, hd, rfl⟩ := wholeStarts_simulated.reachable hinit hreach
  refine ⟨hd, fun id hid => ?_⟩
  obtain ⟨content, hfile, htrim⟩ := (consistent_of_reachable hd).kept id hid
  exact Option.map_eq_some_iff.mpr ⟨content, hfile, htrim⟩

/-- A start fails after eight bytes, and the next ones return those. -/
theorem fullDisk_leavesShortId :
    nodeIdStarts.Reachable ⟨some "019a2b3c", .idle, ["019a2b3c", "019a2b3c"]⟩ := by
  have hrun : wholeStarts.exec ⟨none, []⟩ [⟨freshUuid, some (.file (some 8))⟩,
      ⟨freshUuid, none⟩, ⟨freshUuid, none⟩] =
        some ⟨some "019a2b3c", ["019a2b3c", "019a2b3c"]⟩ := by
    decide +kernel
  exact (wholeStarts_areStarts ((Machine.Reachable.init rfl).exec hrun)).1

end GpuCluster.Cluster
