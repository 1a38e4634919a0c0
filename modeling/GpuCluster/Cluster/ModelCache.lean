import GpuCluster.Mgmt.Catalog
import GpuCluster.Worker.ModelFetch

/-! # Whose file a worker serves

Loads reach a worker with the repository, the file and the local name that the
registry's row has then. The worker looks at the local name alone to tell whether it
has the file.
-/

namespace GpuCluster.Cluster

open Foundation Mgmt Worker

/-- The registry, one worker's files, and for each of them the repository and the file of
the request whose download put it there, which the code does not record. -/
structure ModelStore (ν : Type) where
  catalog : Catalog
  fs : FileSystem ν
  origin : ν → Option (String × String)

/-- A step of the registry, a load that it forwards or one that comes from elsewhere,
with its download, and an admin's removal of a file. -/
inductive StoreStep (ν : Type)
  | registry (step : CatalogStep)
  | load (call : ℕ) (found removed : Bool)
  | request (req : LoadModelReq) (found removed : Bool)
  | deleteFile (name : ν)

variable {ν : Type} [DecidableEq ν]

namespace ModelStore

/-- The request a call of `load` forwards. -/
def requestAt (s : ModelStore ν) (call : ℕ) : Option LoadModelReq :=
  match s.catalog.calls call with
  | .forwarding _ _ body => LoadModelReq.decode body
  | _ => none

variable (dir : ModelsDir ν) (hub : String → String → List UInt8)

/-- The task of a request up to its switch: `fetch`, and what it returns. -/
def serve (s : ModelStore ν) (req : LoadModelReq) (found removed : Bool) :
    ModelStore ν × Except String String :=
  let download := req.download
  let fetched := fetch dir hub s.fs download found removed
  let origin :=
    if cached dir s.fs download found then s.origin
    else Function.update (Function.update s.origin (dir.partialEntry download) none)
      (dir.dest download) (some (req.hfRepo, req.hfFile))
  ({ s with fs := fetched.1, origin }, fetched.2)

/-- A request that is refused starts no task. -/
def request (s : ModelStore ν) (req : LoadModelReq) (found removed : Bool) : ModelStore ν :=
  match req.answer with
  | .ok _ => (s.serve dir hub req found removed).1
  | .error _ => s

def deleteFile (s : ModelStore ν) (name : ν) : ModelStore ν :=
  { s with fs := s.fs.remove name, origin := Function.update s.origin name none }

def step (s : ModelStore ν) : StoreStep ν → Option (ModelStore ν)
  | .registry step => (step.run s.catalog).map fun catalog => { s with catalog }
  | .load call found removed => (s.requestAt call).map (s.request dir hub · found removed)
  | .request req found removed => some (s.request dir hub req found removed)
  | .deleteFile name => some (s.deleteFile name)

end ModelStore

def modelStore (dir : ModelsDir ν) (hub : String → String → List UInt8) :
    Machine (ModelStore ν) (StoreStep ν) where
  init s := ∃ tables : ModelTables, tables.OneDefault ∧
    s = ⟨.initial tables, .empty ν, fun _ => none⟩
  step s step := s.step dir hub step

/-! ## Files and their origins -/

variable {dir : ModelsDir ν} {hub : String → String → List UInt8} {s : ModelStore ν}

/-- Every file holds what the Hub has for its origin. -/
def ModelStore.Faithful (hub : String → String → List UInt8) (s : ModelStore ν) : Prop :=
  ∀ name, s.fs.read name = (s.origin name).map fun source => hub source.1 source.2

theorem validate_download {req : LoadModelReq} {ack : Json} (hanswer : req.answer = .ok ack) :
    req.download.validate = .ok () := by
  unfold LoadModelReq.answer at hanswer
  split at hanswer
  next => cases hanswer
  next hmissing =>
    simp only [not_or] at hmissing
    simp only [DownloadRequest.validate, LoadModelReq.download, hmissing, if_false]

theorem faithful_serve (hfaithful : s.Faithful hub) {req : LoadModelReq}
    (hvalid : req.download.validate = .ok ()) (found removed : Bool) :
    (s.serve dir hub req found removed).1.Faithful hub := by
  intro name
  cases hcached : cached dir s.fs req.download found with
  | true =>
      simp only [ModelStore.serve, fetch, hvalid, hcached, if_true]
      exact hfaithful name
  | false =>
      simp only [ModelStore.serve, hcached, Bool.false_eq_true, if_false]
      rw [read_fetch_of_not_cached hvalid hcached, Function.update_apply, Function.update_apply]
      split
      next => rfl
      next =>
        split
        next => rfl
        next => exact hfaithful name

theorem faithful_step {next : ModelStore ν} {step : StoreStep ν} (hfaithful : s.Faithful hub)
    (hstep : (modelStore dir hub).step s step = some next) : next.Faithful hub := by
  have hrequest : ∀ (req : LoadModelReq) (found removed : Bool),
      (s.request dir hub req found removed).Faithful hub := by
    intro req found removed
    unfold ModelStore.request
    split
    next hanswer => exact faithful_serve hfaithful (validate_download hanswer) found removed
    next => exact hfaithful
  cases step with
  | registry step =>
      obtain ⟨catalog, -, rfl⟩ := Option.map_eq_some_iff.mp hstep
      exact hfaithful
  | load call found removed =>
      obtain ⟨req, -, rfl⟩ := Option.map_eq_some_iff.mp hstep
      exact hrequest req found removed
  | request req found removed =>
      cases hstep
      exact hrequest req found removed
  | deleteFile name =>
      cases hstep
      intro other
      by_cases hother : other = name
      · subst hother
        simp only [ModelStore.deleteFile, FileSystem.read, FileSystem.remove, Function.update_self,
          Option.map_none]
      · simp only [ModelStore.deleteFile, Function.update_of_ne hother]
        rw [FileSystem.read_remove hother]
        exact hfaithful other

theorem faithful_of_reachable (hreach : (modelStore dir hub).Reachable s) : s.Faithful hub := by
  apply hreach.invariant
  · rintro _ ⟨tables, -, rfl⟩ name
    rfl
  · intro s step next hfaithful
    exact faithful_step hfaithful

/-- The file at the path that `fetch` returns holds what the Hub has for the request whose
download put it there: this one if there was nothing to take, else an earlier one. -/
theorem content_of_served (hreach : (modelStore dir hub).Reachable s) {next : ModelStore ν}
    {req : LoadModelReq} {found removed : Bool} {path : String}
    (hserve : s.serve dir hub req found removed = (next, .ok path)) : ∃ repo file,
      next.origin (dir.entryOf path) = some (repo, file) ∧
      next.fs.read (dir.entryOf path) = some (hub repo file) ∧
      (cached dir s.fs req.download found = false → repo = req.hfRepo ∧ file = req.hfFile) ∧
      (cached dir s.fs req.download found = true →
        next.fs = s.fs ∧ s.origin (dir.entryOf path) = some (repo, file)) := by
  have hnext : (s.serve dir hub req found removed).1 = next := congrArg Prod.fst hserve
  have hfetched : (s.serve dir hub req found removed).2 = .ok path := congrArg Prod.snd hserve
  obtain ⟨hvalid, rfl⟩ := fetch_ok hfetched
  have hfaithful := faithful_of_reachable hreach
  cases hcached : cached dir s.fs req.download found with
  | true =>
      have hsame : (s.serve dir hub req found removed).1 = s := by
        simp only [ModelStore.serve, fetch, hvalid, hcached, if_true]
      have hsome : (s.fs.read (dir.dest req.download)).isSome := by
        obtain ⟨-, hthere⟩ := Bool.and_eq_true_iff.mp hcached
        obtain ⟨content, hread, -⟩ := (Option.any_eq_true _ _).mp hthere
        exact Option.isSome_of_eq_some hread
      rw [hfaithful, Option.isSome_map] at hsome
      obtain ⟨⟨repo, file⟩, horigin⟩ := Option.isSome_iff_exists.mp hsome
      rw [← hnext, hsame]
      refine ⟨repo, file, horigin, ?_, fun hnot => (by cases hnot), fun _ => ⟨rfl, horigin⟩⟩
      exact (hfaithful _).trans (congrArg _ horigin)
  | false =>
      have horigin : (s.serve dir hub req found removed).1.origin (dir.dest req.download) =
          some (req.hfRepo, req.hfFile) := by
        simp only [ModelStore.serve, hcached, Bool.false_eq_true, if_false, Function.update_self]
      rw [← hnext]
      refine ⟨req.hfRepo, req.hfFile, horigin, ?_, fun _ => ⟨rfl, rfl⟩, fun hnot => (by cases hnot)⟩
      have hcontent : (s.serve dir hub req found removed).1.Faithful hub :=
        faithful_serve hfaithful hvalid found removed
      exact (hcontent _).trans (congrArg _ horigin)

def emptyStore : ModelStore String := ⟨.initial ⟨.empty, []⟩, .empty String, fun _ => none⟩

/-- What the Hub has for the two files of the repository below. -/
def twoQuants (_repo file : String) : List UInt8 := if file = "Q4_K_M.gguf" then [4] else [8]

def quantsQuery : LoadQuery := ⟨"4c4c4544", false⟩

/-- A model is created and loaded, and then set to another file of its repository. -/
def repointedModel : List (StoreStep String) :=
  let creation : CreateRequest :=
    ⟨"llama", none, none, none, false, some "org/llama", some "Q4_K_M.gguf", none⟩
  let change : UpdateRequest := ⟨none, none, none, none, none, some "Q8_0.gguf", none⟩
  [.registry (.create 0 creation 0), .registry (.exec 0 ""), .registry (.exec 0 ""),
    .registry (.exec 0 ""), .registry (.commit 0),
    .registry (.load 1 "llama" quantsQuery none none), .load 1 true true,
    .registry (.loadUpdate 1 1 true),
    .registry (.update 2 "llama" change 2), .registry (.exec 2 ""), .registry (.exec 2 ""),
    .registry (.exec 2 ""), .registry (.commit 2),
    .registry (.load 3 "llama" quantsQuery none none)]

/-- Where that run ends: the worker has the file it was asked for before. -/
theorem repointedModel_end : ∃ (s next : ModelStore String) (req : LoadModelReq) (path : String),
    (modelStore homeModels twoQuants).Reachable s ∧ s.requestAt 3 = some req ∧
    req.hfFile = "Q8_0.gguf" ∧ s.serve homeModels twoQuants req true true = (next, .ok path) ∧
    next.origin (homeModels.entryOf path) = some ("org/llama", "Q4_K_M.gguf") ∧
    next.fs.read (homeModels.entryOf path) = some [4] := by
  have hrun : ((modelStore homeModels twoQuants).exec emptyStore repointedModel).any (fun s =>
      (s.requestAt 3).any fun req =>
        let served := s.serve homeModels twoQuants req true true
        decide (req.hfFile = "Q8_0.gguf") && served.2.toOption.any fun path =>
          decide (served.1.origin (homeModels.entryOf path) = some ("org/llama", "Q4_K_M.gguf")) &&
          decide (served.1.fs.read (homeModels.entryOf path) = some [4])) = true := by
    decide +kernel
  obtain ⟨s, hexec, hstate⟩ := (Option.any_eq_true _ _).mp hrun
  obtain ⟨req, hreq, hserved⟩ := (Option.any_eq_true _ _).mp hstate
  obtain ⟨hfile, hpath⟩ := Bool.and_eq_true_iff.mp hserved
  obtain ⟨path, hok, hend⟩ := (Option.any_eq_true _ _).mp hpath
  obtain ⟨horigin, hread⟩ := Bool.and_eq_true_iff.mp hend
  have hempty : ModelTables.OneDefault ⟨.empty, []⟩ := by
    intro id other row otherRow hrow
    cases hrow
  have hinit : (modelStore homeModels twoQuants).init emptyStore := ⟨_, hempty, rfl⟩
  have hreach : (modelStore homeModels twoQuants).Reachable s :=
    (Machine.Reachable.init hinit).exec hexec
  have hserve : (s.serve homeModels twoQuants req true true).2 = .ok path := by
    cases hresult : (s.serve homeModels twoQuants req true true).2 with
    | ok returned =>
        rw [hresult] at hok
        exact congrArg Except.ok (Option.some.inj hok)
    | error =>
        rw [hresult] at hok
        cases hok
  exact ⟨s, _, req, path, hreach, hreq, of_decide_eq_true hfile, Prod.ext rfl hserve,
    of_decide_eq_true horigin, of_decide_eq_true hread⟩

/-- The model's new file is not the one that is served under its name. -/
theorem repointedModel_servesOldFile :
    ¬ ∀ (s next : ModelStore String) (call : ℕ) (req : LoadModelReq) (found removed : Bool)
      (path : String), (modelStore homeModels twoQuants).Reachable s →
      s.requestAt call = some req →
      s.serve homeModels twoQuants req found removed = (next, .ok path) →
      next.fs.read (homeModels.entryOf path) = some (twoQuants req.hfRepo req.hfFile) := by
  intro hall
  obtain ⟨s, next, req, path, hreach, hreq, hfile, hserve, -, hread⟩ := repointedModel_end
  have hnew := hall s next 3 req true true path hreach hreq hserve
  have hfirst : twoQuants req.hfRepo "Q8_0.gguf" = [8] := if_neg (by decide)
  rw [hread, hfile, hfirst] at hnew
  exact absurd hnew (by decide)

/-- The file that is served is the one the model was created with. -/
theorem repointedModel_origin : ∃ (s next : ModelStore String) (req : LoadModelReq) (path : String),
    (modelStore homeModels twoQuants).Reachable s ∧ req.hfFile = "Q8_0.gguf" ∧
    next.origin (homeModels.entryOf path) = some ("org/llama", "Q4_K_M.gguf") ∧
    next.fs.read (homeModels.entryOf path) = some (twoQuants "org/llama" "Q4_K_M.gguf") := by
  obtain ⟨s, next, req, path, hreach, -, hfile, hserve, horigin, -⟩ := repointedModel_end
  obtain ⟨repo, file, hsource, hcontent, -⟩ := content_of_served hreach hserve
  obtain ⟨rfl, rfl⟩ : repo = "org/llama" ∧ file = "Q4_K_M.gguf" := by
    simpa using hsource.symm.trans horigin
  exact ⟨s, next, req, path, hreach, hfile, horigin, hcontent⟩

end GpuCluster.Cluster
