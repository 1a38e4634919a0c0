import GpuCluster.Mgmt.Isolation

/-! # Where models come from

A row with a repository has to name a file of it. `create` checks this, `update`
writes the two columns one by one, and nothing else writes them.
-/

namespace GpuCluster.Mgmt

open Foundation

/-- A repository on the hub and the file in it. -/
structure HfSource where
  repo : String
  file : String

/-- The file is named if there is a repository. -/
def HfSource.Complete (source : HfSource) : Prop := source.repo ≠ "" → source.file ≠ ""

def ModelRow.source (row : ModelRow) : HfSource := ⟨row.hfRepo, row.hfFile⟩

/-- Every row with a repository has a file. -/
def ModelTables.Sourced (tables : ModelTables) : Prop :=
  ∀ id row, tables.models.get id = some row → row.hfRepo ≠ "" → row.hfFile ≠ ""

/-- An update leaves the row a file: it clears the file only of a row without a
repository, and sets no repository alone on a row without a file. -/
structure UpdateRequest.NamesFile (req : UpdateRequest) (row : ModelRow) : Prop where
  cleared : req.hfFile = some "" → req.hfRepo.getD row.hfRepo = ""
  missing : req.hfFile = none → row.hfFile = "" → req.hfRepo.getD "" = ""

/-- The step commits no update that leaves its row without a file. -/
def Catalog.CommitsFile (s : Catalog) (step : CatalogStep) : Prop :=
  ∀ call tx result id req row, step = .commit call → s.calls call = .writing tx (.commit result) →
    tx.failed = false → tx.request = .update id req → s.models.get id = some row →
    req.NamesFile row

/-- The two columns after an update. -/
def UpdateRequest.setSource (req : UpdateRequest) (source : HfSource) : HfSource :=
  ⟨req.hfRepo.getD source.repo, req.hfFile.getD source.file⟩

theorem UpdateRequest.complete_setSource_iff {req : UpdateRequest} {row : ModelRow}
    (hrow : row.source.Complete) : (req.setSource row.source).Complete ↔ req.NamesFile row := by
  have hmissing : row.hfFile = "" → row.hfRepo = "" := fun hfile => by
    by_contra hrepo
    exact hrow hrepo hfile
  unfold setSource HfSource.Complete
  cases hfile : req.hfFile with
  | none =>
      constructor
      · intro hcomplete
        refine ⟨fun h => absurd (hfile.symm.trans h) (by simp), fun _ hnone => ?_⟩
        by_contra hrepo
        exact hcomplete (by simpa [ModelRow.source, hmissing hnone] using hrepo) hnone
      · rintro ⟨-, hkeeps⟩ hrepo hnone
        refine hrepo ?_
        simpa [ModelRow.source, hmissing hnone] using hkeeps hfile hnone
  | some file =>
      constructor
      · intro hcomplete
        refine ⟨fun h => ?_, fun h => absurd (hfile.symm.trans h) (by simp)⟩
        by_contra hrepo
        exact hcomplete hrepo (Option.some.inj (hfile.symm.trans h))
      · rintro ⟨hclears, -⟩ hrepo hnone
        exact hrepo (hclears (hfile.trans (congrArg some hnone)))

/-- What a creation inserts has been checked. -/
theorem CreateRequest.complete_of_toRow {req : CreateRequest} {now : ℤ} {row : ModelRow}
    (hrow : req.toRow now = .ok row) : row.source.Complete := by
  unfold toRow at hrow
  dsimp only at hrow
  split at hrow
  next => cases hrow
  next =>
    cases hstatus : validateStatus (req.status.getD "available") with
    | error error =>
        rw [hstatus] at hrow
        cases hrow
    | ok _ =>
        rw [hstatus] at hrow
        dsimp only [bind, Except.bind] at hrow
        split at hrow
        next => cases hrow
        next hfile =>
          cases hrow
          exact fun hrepo hnone => hfile ⟨hrepo, hnone⟩

/-! ## Sources in a table -/

/-- The two columns of the row under an id. -/
def sourceAt (models : ModelTable) (id : String) : Option HfSource :=
  (models.get id).map ModelRow.source

theorem ModelTables.sourced_iff {tables : ModelTables} :
    tables.Sourced ↔ ∀ id, ∀ source ∈ sourceAt tables.models id, source.Complete := by
  constructor
  · intro hsourced id source hsource
    obtain ⟨row, hrow, rfl⟩ := Option.map_eq_some_iff.mp hsource
    exact hsourced id row hrow
  · intro hall id row hrow
    exact hall id row.source (Option.map_eq_some_iff.mpr ⟨row, hrow, rfl⟩)

theorem ModelTables.Sourced.of_sourceAt {before after : ModelTables} (hbefore : before.Sourced)
    (hsame : ∀ id, sourceAt after.models id = sourceAt before.models id) : after.Sourced := by
  rw [sourced_iff] at hbefore ⊢
  intro id source hsource
  rw [hsame id] at hsource
  exact hbefore id source hsource

theorem sourceAt_modify (models : ModelTable) {id : String} {change : ModelRow → ModelRow}
    (hid : ∀ row, (change row).id = row.id) (hsource : ∀ row, (change row).source = row.source)
    (other : String) : sourceAt (models.modify id change) other = sourceAt models other :=
  models.map_get_modify id hid hsource other

theorem ModelTables.sourceAt_applyAll (tables : ModelTables) (effects : List ModelEffect)
    {id : String} (hother : ∀ effect ∈ effects, effect.target? ≠ some id) :
    sourceAt (tables.applyAll effects).models id = sourceAt tables.models id :=
  map_get_applyAll (fun _ => rfl) tables effects hother

/-! ## Transactions -/

/-- The source that the statement of a request leaves. -/
def WriteRequest.source (models : ModelTable) : WriteRequest → Option HfSource
  | .create row => some row.source
  | .update id req => (sourceAt models id).map req.setSource

/-- What an open transaction knows of the source it writes. -/
structure ModelTx.Prepared (models : ModelTable) (tx : ModelTx) (stage : WriteStage) : Prop where
  created : ∀ row, tx.request = .create row → row.source.Complete
  early : stage.result? = none → ∀ effect ∈ tx.effects, effect.target? = none
  result : ∀ row, stage.result? = some row → tx.request.source models = some row.source

/-- The source under the request's id has not changed since the statement. -/
theorem ModelTx.Prepared.frame {before after : ModelTable} {tx : ModelTx} {stage : WriteStage}
    (hprepared : tx.Prepared before stage)
    (hsame : ∀ row, stage.result? = some row →
      sourceAt after tx.request.id = sourceAt before tx.request.id) :
    tx.Prepared after stage where
  created := hprepared.created
  early := hprepared.early
  result row hrow := by
    have hsource := hprepared.result row hrow
    cases hrequest : tx.request with
    | create created => rwa [hrequest] at hsource
    | update id req =>
        have hid := hsame row hrow
        rw [hrequest] at hsource hid
        exact (congrArg (Option.map req.setSource) hid).trans hsource

/-- A transaction that adds no effect on the two columns. -/
theorem ModelTx.Prepared.advance {models : ModelTable} {tx later : ModelTx}
    {stage next : WriteStage} (hprepared : tx.Prepared models stage)
    (hrequest : later.request = tx.request) (hresult : next.result? = stage.result?)
    (heffects : ∀ effect ∈ later.effects, effect ∈ tx.effects ∨ effect.target? = none) :
    later.Prepared models next where
  created row hrow := hprepared.created row (hrequest.symm.trans hrow)
  early hnone effect hmem := by
    rcases heffects effect hmem with hold | hnew
    · exact hprepared.early (hresult.symm.trans hnone) effect hold
    · exact hnew
  result row hrow := hrequest ▸ hprepared.result row (hresult.symm.trans hrow)

namespace Catalog

variable {s next : Catalog} {step : CatalogStep}

def Prepared (s : Catalog) : Prop :=
  ∀ call tx stage, s.calls call = .writing tx stage → tx.Prepared s.models stage

/-- A transaction can be committed exactly when its update names a file. -/
theorem sourced_applyAll_iff (hsnap : s.Snapshot) (hs : s.Isolated) (hprepared : s.Prepared)
    (hsourced : s.tables.Sourced) {call : ℕ} {tx : ModelTx} {result : ModelRow}
    (hcall : s.calls call = .writing tx (.commit result)) :
    (s.tables.applyAll tx.effects).Sourced ↔ ∀ id req row, tx.request = .update id req →
      s.models.get id = some row → req.NamesFile row := by
  have hwritten := ((hs.holds call tx _ hcall).written result rfl).2
  have htx := hprepared call tx _ hcall
  have hresult : (s.tables.applyAll tx.effects).Sourced ↔ result.source.Complete := by
    constructor
    · intro hafter
      exact hafter tx.request.id result hwritten
    · intro hcomplete
      rw [ModelTables.sourced_iff]
      intro id source hsource
      by_cases hid : id = tx.request.id
      · rw [hid, sourceAt, hwritten] at hsource
        obtain rfl := Option.some.inj hsource
        exact hcomplete
      · rw [s.tables.sourceAt_applyAll tx.effects fun effect hmem htarget =>
          hid (hsnap.own call tx _ hcall effect hmem id htarget)] at hsource
        exact ModelTables.sourced_iff.mp hsourced id source hsource
  rw [hresult]
  have hsource := htx.result result rfl
  cases hrequest : tx.request with
  | create row =>
      rw [hrequest] at hsource
      rw [← Option.some.inj hsource]
      refine iff_of_true (htx.created row hrequest) ?_
      rintro _ _ _ ⟨⟩
  | update id req =>
      rw [hrequest] at hsource
      obtain ⟨source, hstored, hset⟩ := Option.map_eq_some_iff.mp hsource
      obtain ⟨stored, hget, rfl⟩ := Option.map_eq_some_iff.mp hstored
      rw [← hset, UpdateRequest.complete_setSource_iff (hsourced id stored hget)]
      constructor
      · rintro hnames _ _ row ⟨rfl⟩ hrow
        exact Option.some.inj (hget.symm.trans hrow) ▸ hnames
      · intro hall
        exact hall id req stored rfl hget

/-- A step moves its own call only. -/
theorem CallMove.call?_of_ne {call : ℕ} (hmove : s.CallMove step next)
    (hmoved : next.calls call ≠ s.calls call) : step.call? = some call := by
  have hother : ∀ {other : ℕ} {after : ModelCall},
      next.calls = Function.update s.calls other after → other = call := by
    intro other after hcalls
    by_contra hne
    exact hmoved (by rw [hcalls, Function.update_of_ne (Ne.symm hne)])
  cases hmove with
  | pass _ hcalls => exact absurd (congrFun hcalls call) hmoved
  | quiet other after hstep _ hcalls => exact hother hcalls ▸ hstep
  | single other answer hstep _ _ hcalls => exact hother hcalls ▸ hstep
  | commit other tx row _ hcalls => exact congrArg some (hother hcalls)

/-- A transaction succeeds with its commit. -/
theorem CallMove.step_of_answered {call : ℕ} {tx : ModelTx} {stage : WriteStage} {row : ModelRow}
    (hmove : s.CallMove step next) (hcall : s.calls call = .writing tx stage)
    (hanswer : next.calls call = .answered (.ok (.row row))) : step = .commit call := by
  have hmoved : next.calls call ≠ s.calls call := by
    rw [hcall, hanswer]
    simp
  have hstep := hmove.call?_of_ne hmoved
  cases hmove with
  | pass hnone =>
      rw [hnone] at hstep
      cases hstep
  | quiet other after hother _ hcalls hquiet =>
      obtain rfl := Option.some.inj (hother.symm.trans hstep)
      rw [hcalls, Function.update_self] at hanswer
      exact absurd hanswer (hquiet _)
  | single other answer hother hnot =>
      obtain rfl := Option.some.inj (hother.symm.trans hstep)
      exact absurd hcall (hnot tx stage)
  | commit other => exact congrArg _ (Option.some.inj hstep)

theorem openTx_opens {call : ℕ} {request : Except ApiError WriteRequest} {started : ℤ}
    {tx : ModelTx} {stage : WriteStage} (hopen : s.openTx call request started = some next)
    (hopened : next.calls call = .writing tx stage) : request = .ok tx.request := by
  unfold openTx at hopen
  split at hopen
  next =>
    cases hopen
    simp [answer, setCall] at hopened
  next =>
    cases hopen
    simp only [setCall, Function.update_self, ModelCall.writing.injEq] at hopened
    obtain ⟨rfl, -⟩ := hopened
    rfl
  next => cases hopen

theorem delete_opens_nothing {call : ℕ} {id : String} {audited : Bool} {tx : ModelTx}
    {stage : WriteStage} (hdelete : s.delete call id audited = some next) :
    next.calls call ≠ .writing tx stage := by
  unfold delete at hdelete
  split at hdelete
  next =>
    cases hdelete
    simp [answer, setCall]
  next =>
    split at hdelete
    next =>
      cases hdelete
      simp [answer, setCall]
    next => cases hdelete
  next => cases hdelete

theorem load_opens_nothing {call : ℕ} {id : String} {query : LoadQuery}
    {token eligible : Option Json} {tx : ModelTx} {stage : WriteStage}
    (hload : s.load call id query token eligible = some next) :
    next.calls call ≠ .writing tx stage := by
  unfold load at hload
  split at hload
  next =>
    cases hload
    simp [answer, setCall]
  next =>
    split at hload <;> cases hload <;> simp [answer, setCall]
  next => cases hload

/-- A transaction that is opened for a creation has a checked row. -/
theorem complete_of_opened {call : ℕ} {row : ModelRow} {tx : ModelTx} {stage : WriteStage}
    (hidle : s.calls call = .idle) (hrun : step.run s = some next)
    (hopened : next.calls call = .writing tx stage) (hrequest : tx.request = .create row) :
    row.source.Complete := by
  have hstep : step.call? = some call := by
    refine (CatalogStep.run_callMove hrun).call?_of_ne ?_
    rw [hopened, hidle]
    simp
  cases step with
  | create moved req started =>
      obtain rfl := Option.some.inj hstep
      have hrow := openTx_opens hrun hopened
      rw [hrequest] at hrow
      cases hto : req.toRow started with
      | error error =>
          rw [hto] at hrow
          cases hrow
      | ok stored =>
          rw [hto] at hrow
          cases hrow
          exact CreateRequest.complete_of_toRow hto
  | update moved id req started =>
      obtain rfl := Option.some.inj hstep
      have hrow := openTx_opens hrun hopened
      rw [hrequest] at hrow
      cases hvalid : req.validate <;> rw [hvalid] at hrow <;> cases hrow
  | exec | auditFails | commit | loadUpdate | fail =>
      obtain rfl := Option.some.inj hstep
      simp [CatalogStep.run, exec, auditFails, commit, loadUpdate, fail, hidle] at hrun
  | delete moved id audited =>
      obtain rfl := Option.some.inj hstep
      exact absurd hopened (delete_opens_nothing hrun)
  | load moved id query token eligible =>
      obtain rfl := Option.some.inj hstep
      exact absurd hopened (load_opens_nothing hrun)
  | readView | readRows | reconcileRow | passEnds => cases hstep

/-! ## The invariant -/

/-- A locked row keeps its source while its call waits. -/
theorem Moves.sourceAt_of_locked (hmoves : s.Moves next) (hs : s.Isolated) {call : ℕ}
    {id : String} (hlock : s.locks (.row id) = some call) {tx : ModelTx} {stage : WriteStage}
    (hcall : s.calls call = .writing tx stage) (hstays : next.calls call = s.calls call) :
    sourceAt next.models id = sourceAt s.models id := by
  cases hmoves with
  | finish other otherTx result hother =>
      by_cases hsame : call = other
      · subst hsame
        have hanswered : (s.finish call otherTx result).calls call =
            .answered (.ok (.row result)) := Function.update_self ..
        rw [hanswered, hcall] at hstays
        cases hstays
      · have hlocked := (hs.holds other otherTx _ hother).locked
        refine congrArg (Option.map ModelRow.source) (ModelTables.get_applyAll_other ?_)
        intro effect hmem hid
        exact hsame (Option.some.inj (hlock.symm.trans (hlocked effect hmem id hid)))
  | delete other deleted audited hother hfree =>
      refine congrArg (Option.map ModelRow.source) ?_
      change (s.models.erase deleted).get id = s.models.get id
      rw [KeyedMap.get_erase]
      split
      next heq =>
        rcases hfree with hnone | hunlocked
        · rw [heq, hnone]
        · rw [← heq, hlock] at hunlocked
          cases hunlocked
      next => rfl
  | load other loaded query body now =>
      exact sourceAt_modify s.models (query.set_id now) (fun _ => rfl) id
  | overwrite body row rest decision now =>
      exact sourceAt_modify s.models (decision.set_id now) (fun _ => rfl) id
  | _ => rfl

/-- A call moves, the others keep what they know. -/
theorem Prepared.move (hprepared : s.Prepared) (hmoves : s.Moves next) (hs : s.Isolated) {call : ℕ}
    {after : ModelCall} (hcalls : next.calls = Function.update s.calls call after)
    (hself : ∀ tx stage, after = .writing tx stage → tx.Prepared next.models stage) :
    next.Prepared := by
  intro other tx stage hother
  by_cases hsame : other = call
  · rw [hcalls, hsame, Function.update_self] at hother
    exact hself tx stage hother
  · have hstays : next.calls other = s.calls other := by rw [hcalls, Function.update_of_ne hsame]
    rw [hstays] at hother
    refine (hprepared other tx stage hother).frame fun row hrow => ?_
    exact hmoves.sourceAt_of_locked hs ((hs.holds other tx stage hother).written row hrow).1 hother
      hstays

/-- A statement that changes no source of its transaction. -/
theorem Prepared.advance (hprepared : s.Prepared) (hmoves : s.Moves next) (hs : s.Isolated)
    {call : ℕ} {tx later : ModelTx} {stage after : WriteStage}
    (hcall : s.calls call = .writing tx stage)
    (hcalls : next.calls = Function.update s.calls call (.writing later after))
    (hmodels : next.models = s.models) (hrequest : later.request = tx.request)
    (hresult : after.result? = stage.result?)
    (heffects : ∀ effect ∈ later.effects, effect ∈ tx.effects ∨ effect.target? = none) :
    next.Prepared := by
  refine hprepared.move hmoves hs hcalls ?_
  rintro _ _ ⟨rfl⟩
  rw [hmodels]
  exact (hprepared call tx stage hcall).advance hrequest hresult heffects

theorem prepared_step (hs : s.Isolated) (hprepared : s.Prepared)
    (hrun : step.run s = some next) : next.Prepared := by
  have hmoves : s.Moves next := CatalogStep.run_moves hrun
  have hmove : ∀ {call : ℕ} {after : ModelCall}, next.calls = Function.update s.calls call after →
      (∀ tx stage, after = .writing tx stage → tx.Prepared next.models stage) → next.Prepared :=
    fun hcalls hself => hprepared.move hmoves hs hcalls hself
  cases CatalogStep.run_moves hrun with
  | refuse | rollback | forward | finish | delete | load =>
      exact hmove rfl fun _ _ h => by cases h
  | openTx call request started hidle =>
      refine hmove rfl ?_
      rintro _ _ ⟨rfl⟩
      refine ⟨fun row hrow => ?_, fun _ _ hmem => (by cases hmem), fun _ h => (by cases h)⟩
      exact complete_of_opened hidle hrun (Function.update_self ..) hrow
  | clear call tx hcall | skipClear call tx hcall =>
      refine hprepared.advance hmoves hs hcall rfl rfl rfl rfl fun effect hmem => ?_
      exact .inl (List.append_nil tx.effects ▸ hmem)
  | clearDefaults call tx targets cleared hcall =>
      refine hprepared.advance hmoves hs hcall rfl rfl rfl rfl fun effect hmem => ?_
      refine (List.mem_append.mp hmem).imp_right fun hmem => ?_
      obtain ⟨_, -, rfl⟩ := List.mem_map.mp hmem
      rfl
  | insert call tx row hcall hrequest =>
      have htx := hprepared call tx _ hcall
      refine hmove rfl ?_
      rintro _ _ ⟨rfl⟩
      refine ⟨htx.created, fun h => (by cases h), ?_⟩
      rintro _ ⟨rfl⟩
      change tx.request.source s.models = _
      rw [hrequest]
      rfl
  | update call tx id req stored row hcall hrequest hstored hrow =>
      have htx := hprepared call tx _ hcall
      -- nothing of the transaction has changed a source yet
      have hsource : sourceAt s.models id = some stored.source := by
        refine (s.tables.sourceAt_applyAll tx.effects fun effect hmem htarget => ?_).symm.trans
          (congrArg (Option.map ModelRow.source) hstored)
        rw [htx.early rfl effect hmem] at htarget
        cases htarget
      refine hmove rfl ?_
      rintro _ _ ⟨rfl⟩
      refine ⟨htx.created, fun h => (by cases h), ?_⟩
      rintro _ ⟨rfl⟩
      change tx.request.source s.models = _
      rw [hrequest, WriteRequest.source, hsource, hrow]
      rfl
  | addAudit call tx result hcall =>
      refine hprepared.advance hmoves hs hcall rfl rfl rfl rfl fun effect hmem => ?_
      refine (List.mem_append.mp hmem).imp_right fun hmem => ?_
      rw [List.mem_singleton.mp hmem]
      rfl
  | auditFails call tx result hcall =>
      refine hprepared.advance hmoves hs hcall rfl rfl rfl rfl fun effect hmem => ?_
      exact .inl (List.append_nil tx.effects ▸ hmem)
  | overwrite body row rest decision now =>
      intro call tx stage hcall
      refine (hprepared call tx stage hcall).frame fun _ _ => ?_
      exact sourceAt_modify s.models (decision.set_id now) (fun _ => rfl) tx.request.id
  | readView | readRows | keep | passEnds => exact hprepared

/-- A step keeps the sources complete exactly when it commits no update that leaves
its row without a file. -/
theorem sourced_step_iff (hsnap : s.Snapshot) (hs : s.Isolated) (hprepared : s.Prepared)
    (hsourced : s.tables.Sourced) (hrun : step.run s = some next) :
    next.tables.Sourced ↔ s.CommitsFile step := by
  constructor
  · rintro hafter call tx result id req row rfl hcall hok
    have hnext : next = s.finish call tx result := by
      simpa [CatalogStep.run, commit, hcall, hok] using hrun.symm
    rw [hnext] at hafter
    exact (sourced_applyAll_iff hsnap hs hprepared hsourced hcall).mp hafter id req row
  · intro hcommits
    have hmoves := CatalogStep.run_moves hrun
    cases hmoves with
    | finish call tx result hcall hok =>
        have hstep := (CatalogStep.run_callMove hrun).step_of_answered hcall
          (Function.update_self ..)
        refine (sourced_applyAll_iff hsnap hs hprepared hsourced hcall).mpr fun id req row => ?_
        exact hcommits call tx result id req row hstep hcall hok
    | delete call id =>
        intro other row hrow
        change (s.models.erase id).get other = some row at hrow
        rw [KeyedMap.get_erase] at hrow
        split at hrow
        next => cases hrow
        next => exact hsourced other row hrow
    | load call id query body now =>
        exact hsourced.of_sourceAt (sourceAt_modify s.models (query.set_id now) fun _ => rfl)
    | overwrite body row rest decision now =>
        exact hsourced.of_sourceAt (sourceAt_modify s.models (decision.set_id now) fun _ => rfl)
    | _ => exact hsourced

end Catalog

/-! ## Every run -/

/-- Tables that meet the index, with a file in every row with a repository. -/
abbrev SourcedTables := {tables : ModelTables // tables.OneDefault ∧ tables.Sourced}

/-- Every row with a repository has a file, in every state of a run of the handlers and
the reconciler, exactly when the run commits no update that clears the file of a row
with a repository or sets a repository alone on a row without a file. -/
theorem sourced_iff_commitsFile (tables : SourcedTables) (steps : List CatalogStep) :
    catalog.Throughout (fun s => s.tables.Sourced) (.initial tables) steps ↔
      catalog.Meets Catalog.CommitsFile (.initial tables) steps := by
  obtain ⟨tables, hone, hsourced⟩ := tables
  have hkeeps : ∀ s step next, (Catalog.Snapshot s ∧ Catalog.Isolated s) ∧ s.Prepared →
      catalog.step s step = some next → (next.Snapshot ∧ next.Isolated) ∧ next.Prepared :=
    fun _ _ _ hs hrun =>
      ⟨Catalog.isolated_step hs.1 hrun, Catalog.prepared_step hs.1.2 hs.2 hrun⟩
  have hinitial : ((Catalog.initial tables).Snapshot ∧ (Catalog.initial tables).Isolated) ∧
      (Catalog.initial tables).Prepared :=
    ⟨⟨Catalog.snapshot_initial tables, Catalog.isolated_initial hone⟩,
      fun _ _ _ h => by cases h⟩
  exact Machine.throughout_iff_meets hkeeps
    (fun s step next hs hP hrun => Catalog.sourced_step_iff hs.1.1 hs.1.2 hs.2 hP hrun)
    hinitial hsourced steps

/-- Right after the migrations. -/
def noModels : ModelTables := ⟨KeyedMap.empty, []⟩

/-- Without models to begin with, one is given a repository and no file. -/
theorem repositoryAlone_isCommitted :
    let steps : List CatalogStep :=
      [.create 0 ⟨"m", none, none, none, false, none, none, none⟩ 1, .exec 0 "", .exec 0 "",
        .exec 0 "", .commit 0,
        .update 1 "m" ⟨none, none, none, none, some "org/m-GGUF", none, none⟩ 2, .exec 1 "",
        .exec 1 "", .exec 1 "", .commit 1]
    ¬catalog.Throughout (fun s => s.tables.Sourced) (.initial noModels) steps := by
  intro steps hthroughout
  iterate 10 obtain ⟨-, hthroughout⟩ := hthroughout; replace hthroughout := hthroughout _ rfl
  exact hthroughout "m" _ rfl (by decide) rfl

end GpuCluster.Mgmt
