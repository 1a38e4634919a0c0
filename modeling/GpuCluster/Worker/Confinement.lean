import GpuCluster.Foundation.Paths
import GpuCluster.Worker.ModelFetch

/-! # The paths of a download

Which paths `fetch` makes, truncates, renames to, removes or returns, given what
the operating system answers, and when all of them are in `models_dir`. The
name a file is saved under comes from the network and is joined to `models_dir`
as it is.
-/

namespace GpuCluster.Worker

open Foundation

/-- `models_dir`, below the worker's data directory, with paths resolved as texts. -/
def dataModels (cwd : List (List Char)) (dataDir : String) : ModelsDir (List (List Char)) where
  path := joinPath dataDir "models"
  entryOf := resolve cwd

variable {ν : Type}

def ModelsDir.partialPath (dir : ModelsDir ν) (req : DownloadRequest) : String :=
  withExtension "partial" (dir.destPath req)

/-- What the calls of `fetch` report: whether `models_dir` is there, whether a
file that is not empty is found at the destination, and which of the calls after
that succeed. -/
structure FetchOutcomes where
  dirReady : Bool
  cached : Bool
  removed : Bool
  responded : Bool
  created : Bool
  streamed : Bool
  renamed : Bool

/-- Outcomes of an operating system: regular files are under paths that can name one. -/
structure FetchOutcomes.Possible (os : FetchOutcomes) (dir : ModelsDir ν)
    (req : DownloadRequest) : Prop where
  cached : os.cached → canNameFile (dir.destPath req)
  removed : os.removed → canNameFile (dir.partialPath req)
  created : os.created → canNameFile (dir.partialPath req)
  renamed : os.renamed → canNameFile (dir.destPath req)

/-- The paths that `fetch` changes or returns, in order. -/
def fetchPaths (dir : ModelsDir ν) (req : DownloadRequest) (os : FetchOutcomes) : List String :=
  match req.validate with
  | .error _ => []
  | .ok () =>
      if ¬ os.dirReady then []
      else if os.cached then [dir.path, dir.destPath req]
      else
        let removed := if os.removed then [dir.partialPath req] else []
        let created := if os.responded ∧ os.created then [dir.partialPath req] else []
        let renamed :=
          if os.responded ∧ os.created ∧ os.streamed ∧ os.renamed then
            [dir.partialPath req, dir.destPath req]
          else []
        dir.path :: removed ++ created ++ renamed

/-- Whatever the operating system answers, the paths lead into `models_dir`. -/
def Confined (dir : ModelsDir (List (List Char))) (req : DownloadRequest) : Prop :=
  ∀ os : FetchOutcomes, os.Possible dir req →
    ∀ path ∈ fetchPaths dir req os, dir.entryOf dir.path <+: dir.entryOf path

/-- The saved name stays in `models_dir`, or nothing can be written for it. -/
def SavesInside (cwd : List (List Char)) (dir : ModelsDir (List (List Char)))
    (req : DownloadRequest) : Prop :=
  ¬ hasFileName (dir.destPath req) ∨ Char.ofNat 0 ∈ (dir.partialPath req).toList ∨
    dir.entryOf dir.path <+: parentOf cwd (dir.destPath req)

/-! ## Where the paths lead -/

@[simp] theorem dataModels_entryOf (cwd : List (List Char)) (dataDir path : String) :
    (dataModels cwd dataDir).entryOf path = resolve cwd path := rfl

theorem dataModels_toList (cwd : List (List Char)) (dataDir : String) :
    ∃ before, IsDirectory before ∧
      (dataModels cwd dataDir).path.toList = before ++ "models".toList := by
  rw [dataModels, joinPath, if_neg (by decide)]
  split
  next hdir =>
    refine ⟨dataDir.toList, ?_, String.toList_append⟩
    rcases hdir with rfl | hslash
    · exact .inl rfl
    · obtain ⟨before, hbefore⟩ := List.getLast?_eq_some_iff.mp hslash
      exact .inr ⟨before, hbefore⟩
  next => exact ⟨dataDir.toList ++ ['/'], .inr ⟨_, rfl⟩, by simp⟩

theorem dataModels_path (cwd : List (List Char)) (dataDir : String) :
    ∃ above, resolve cwd (dataModels cwd dataDir).path = above ++ ["models".toList] := by
  obtain ⟨before, hbefore, htext⟩ := dataModels_toList cwd dataDir
  exact ⟨_, resolve_of_append cwd htext hbefore (by decide) (by decide)⟩

theorem partial_spec {path : String} (hname : hasFileName path) (cwd : List (List Char)) :
    ∃ stem, (withExtension "partial" path).toList =
        beforeName path ++ (stem ++ '.' :: "partial".toList) ∧
      stem <+: nameChars path ∧
      resolve cwd (withExtension "partial" path) =
        parentOf cwd path ++ [stem ++ '.' :: "partial".toList] ∧
      canNameFile (withExtension "partial" path) =
        decide (Char.ofNat 0 ∉ (withExtension "partial" path).toList) :=
  withExtension_spec hname (by decide) (by decide) cwd

/-- A name ending in another extension is not `models_dir` itself. -/
theorem models_prefix_of_partialName {cwd : List (List Char)} {dataDir : String}
    {parent : List (List Char)} {stem : List Char}
    (hunder : resolve cwd (dataModels cwd dataDir).path <+:
      parent ++ [stem ++ '.' :: "partial".toList]) :
    resolve cwd (dataModels cwd dataDir).path <+: parent := by
  rcases List.prefix_concat_iff.mp hunder with heq | hbegins
  · obtain ⟨above, habove⟩ := dataModels_path cwd dataDir
    rw [habove] at heq
    have hname := congrArg List.getLast? heq
    have hdot : '.' ∈ "models".toList := by
      rw [List.getLast?_concat, List.getLast?_concat, Option.some.injEq] at hname
      rw [hname]
      simp
    exact absurd hdot (by decide)
  · exact hbegins

theorem fetchPaths_mem {dir : ModelsDir ν} {req : DownloadRequest} {os : FetchOutcomes}
    (hpossible : os.Possible dir req) {path : String} (hpath : path ∈ fetchPaths dir req os) :
    path = dir.path ∨ path = dir.partialPath req ∧ canNameFile (dir.partialPath req) ∨
      path = dir.destPath req ∧ canNameFile (dir.destPath req) := by
  unfold fetchPaths at hpath
  split at hpath
  next => cases hpath
  next =>
    split at hpath
    next => cases hpath
    next =>
      split at hpath
      next hcached =>
        rcases List.mem_pair.mp hpath with rfl | rfl
        · exact .inl rfl
        · exact .inr (.inr ⟨rfl, hpossible.cached hcached⟩)
      next =>
        simp only [List.cons_append, List.mem_cons, List.mem_append] at hpath
        rcases hpath with hdir | (hremoved | hcreated) | hrenamed
        · exact .inl hdir
        · split at hremoved
          next hos => exact .inr (.inl ⟨List.mem_singleton.mp hremoved, hpossible.removed hos⟩)
          next => cases hremoved
        · split at hcreated
          next hos => exact .inr (.inl ⟨List.mem_singleton.mp hcreated, hpossible.created hos.2⟩)
          next => cases hcreated
        · split at hrenamed
          next hos =>
            rcases List.mem_pair.mp hrenamed with rfl | rfl
            · exact .inr (.inl ⟨rfl, hpossible.created hos.2.1⟩)
            · exact .inr (.inr ⟨rfl, hpossible.renamed hos.2.2.2⟩)
          next => cases hrenamed

section Valid

variable {cwd : List (List Char)} {dataDir : String} {req : DownloadRequest}

theorem SavesInside.parent (hinside : SavesInside cwd (dataModels cwd dataDir) req)
    (hname : hasFileName ((dataModels cwd dataDir).destPath req))
    (hnul : Char.ofNat 0 ∉ ((dataModels cwd dataDir).partialPath req).toList) :
    resolve cwd (dataModels cwd dataDir).path <+:
      parentOf cwd ((dataModels cwd dataDir).destPath req) :=
  (hinside.resolve_left (not_not.mpr hname)).resolve_left hnul

/-- What is written to is next to the destination. -/
theorem SavesInside.partialPath (hinside : SavesInside cwd (dataModels cwd dataDir) req)
    (hfile : canNameFile ((dataModels cwd dataDir).partialPath req)) :
    resolve cwd (dataModels cwd dataDir).path <+:
      resolve cwd ((dataModels cwd dataDir).partialPath req) := by
  have hname : hasFileName ((dataModels cwd dataDir).destPath req) := by
    by_contra hno
    rw [ModelsDir.partialPath, withExtension_of_no_name hno] at hfile
    exact hno (hasFileName_of_canNameFile hfile)
  obtain ⟨stem, -, -, hresolve, hcan⟩ := partial_spec hname cwd
  rw [ModelsDir.partialPath, hcan, decide_eq_true_eq] at hfile
  rw [ModelsDir.partialPath, hresolve]
  exact (hinside.parent hname hfile).trans (List.prefix_append ..)

theorem SavesInside.destPath (hinside : SavesInside cwd (dataModels cwd dataDir) req)
    (hfile : canNameFile ((dataModels cwd dataDir).destPath req)) :
    resolve cwd (dataModels cwd dataDir).path <+:
      resolve cwd ((dataModels cwd dataDir).destPath req) := by
  have hname := hasFileName_of_canNameFile hfile
  have hnul : Char.ofNat 0 ∉ ((dataModels cwd dataDir).partialPath req).toList :=
    nul_not_mem_withExtension hname (by decide) (nul_not_mem_of_canNameFile hfile)
  rw [resolve_eq cwd hname]
  exact (hinside.parent hname hnul).trans (List.prefix_append ..)

/-- A response that breaks off: the partial file is made, and nothing else. -/
def brokenOff : FetchOutcomes := ⟨true, false, false, true, true, false, false⟩

theorem fetchPaths_brokenOff {dir : ModelsDir ν} (hvalid : req.validate = .ok ()) :
    fetchPaths dir req brokenOff = [dir.path, dir.partialPath req] := by
  simp [fetchPaths, hvalid, brokenOff]

theorem brokenOff_possible {dir : ModelsDir ν} (hfile : canNameFile (dir.partialPath req)) :
    brokenOff.Possible dir req where
  cached h := by cases h
  removed h := by cases h
  created _ := hfile
  renamed h := by cases h

/-- All paths of a valid download are in `models_dir` exactly when the saved name
stays there. -/
theorem confined_iff_savesInside (hvalid : req.validate = .ok ()) :
    Confined (dataModels cwd dataDir) req ↔ SavesInside cwd (dataModels cwd dataDir) req := by
  constructor
  · intro hconfined
    by_contra houtside
    simp only [SavesInside, not_or, not_not] at houtside
    obtain ⟨hname, hnul, hescapes⟩ := houtside
    obtain ⟨stem, -, -, hresolve, hcan⟩ := partial_spec hname cwd
    have hfile : canNameFile ((dataModels cwd dataDir).partialPath req) := by
      rw [ModelsDir.partialPath, hcan, decide_eq_true_eq]
      exact hnul
    have hunder := hconfined brokenOff (brokenOff_possible hfile)
      ((dataModels cwd dataDir).partialPath req)
      (by rw [fetchPaths_brokenOff hvalid]; exact List.mem_pair.mpr (.inr rfl))
    rw [dataModels_entryOf, dataModels_entryOf, ModelsDir.partialPath, hresolve] at hunder
    exact hescapes (models_prefix_of_partialName hunder)
  · intro hinside os hpossible path hpath
    rw [dataModels_entryOf, dataModels_entryOf]
    rcases fetchPaths_mem hpossible hpath with h | ⟨h, hfile⟩ | ⟨h, hfile⟩ <;> rw [h]
    · exact hinside.partialPath hfile
    · exact hinside.destPath hfile

end Valid

/-- A worker that accepts a request keeps all its files in `models_dir` exactly
when the directory of the saved name is `models_dir` or below, or the name is no
file's. -/
theorem loadModel_confined_iff (cwd : List (List Char)) (dataDir : String) (req : LoadModelReq)
    (ack : Json) (haccepted : req.answer = .ok ack) :
    Confined (dataModels cwd dataDir) req.download ↔
      SavesInside cwd (dataModels cwd dataDir) req.download := by
  apply confined_iff_savesInside
  unfold LoadModelReq.answer at haccepted
  split at haccepted
  next => cases haccepted
  next hfields =>
    simp only [not_or] at hfields
    exact (if_neg hfields.2.1).trans (if_neg hfields.2.2)

def plainLoad : LoadModelReq where
  modelId := "llama"
  hfRepo := "org/llama"
  hfFile := "llama.gguf"

theorem loadModel_confined_iff_plainLoad :
    Confined (dataModels [] "/var/lib/worker") plainLoad.download ↔
      SavesInside [] (dataModels [] "/var/lib/worker") plainLoad.download :=
  loadModel_confined_iff [] "/var/lib/worker" plainLoad _ rfl

/-- A name with a parent component: the partial file is made in the data directory. -/
def escapingLoad : LoadModelReq := { plainLoad with localFilename := "../identity.pem" }

theorem escapingLoad_not_confined :
    (∃ ack, escapingLoad.answer = .ok ack) ∧
    resolve [] ((dataModels [] "/var/lib/worker").partialPath escapingLoad.download) =
      ["var", "lib", "worker", "identity.partial"].map String.toList ∧
    ¬ Confined (dataModels [] "/var/lib/worker") escapingLoad.download := by
  refine ⟨⟨_, rfl⟩, by decide, ?_⟩
  rw [confined_iff_savesInside rfl, SavesInside]
  decide

end GpuCluster.Worker
