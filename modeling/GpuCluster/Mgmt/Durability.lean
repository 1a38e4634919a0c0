import GpuCluster.Mgmt.DefaultModel
import GpuCluster.Mgmt.Settings

/-! # Answers and what is committed

The audit statement of `create`, `update` and `put` runs inside their
transaction and its failure is ignored, so the commit that follows rolls back
and still reports success. `put` also reads the table after its commit, and
answers with an error when only that read fails.
-/

namespace GpuCluster.Mgmt

open Foundation

/-- Both services, and what the database has committed for their calls: the
requested row, and the values under the document's keys, as the table holds them
right after the commit. -/
structure Durable where
  catalog : Catalog
  settings : Settings
  committedRows : List (ℕ × Option ModelRow)
  committedValues : List (ℕ × List (String × Option Json))

/-- The commit of a transaction that has not failed. -/
def Catalog.committed (s next : Catalog) : CatalogStep → List (ℕ × Option ModelRow)
  | .commit call =>
      match s.calls call with
      | .writing tx _ => if tx.failed then [] else [(call, next.models.get tx.request.id)]
      | _ => []
  | _ => []

def Settings.committed (s next : Settings) : SettingsStep → List (ℕ × List (String × Option Json))
  | .exec call =>
      match s.calls call with
      | .writing tx .commit => if tx.failed then [] else [(call, next.table.held tx.doc)]
      | _ => []
  | _ => []

/-- A call that has answered has committed a row exactly when it answered with it. -/
def ModelCall.Truthful (committed : List (ℕ × Option ModelRow)) (call : ℕ) (state : ModelCall) :
    Prop :=
  ∀ answer, state = .answered answer → ∀ found,
    (call, found) ∈ committed ↔ ∃ row, answer = .ok (.row row) ∧ found = some row

/-- A call that has answered has committed what it was asked exactly when it
answered with a success. -/
def PutCall.Truthful (committed : List (ℕ × List (String × Option Json))) (call : ℕ)
    (state : PutCall) : Prop :=
  ∀ doc answer, state = .answered doc answer → ∀ found,
    (call, found) ∈ committed ↔ (∃ result, answer = .ok result) ∧ found = doc.asked

namespace Durable

def initial (tables : ModelTables) (table : SettingsTable) : Durable :=
  ⟨.initial tables, .initial table, [], []⟩

/-- Every call that has answered did so truthfully. -/
structure Truthful (s : Durable) : Prop where
  rows : ∀ call, (s.catalog.calls call).Truthful s.committedRows call
  values : ∀ call, (s.settings.calls call).Truthful s.committedValues call

end Durable

inductive DurableStep
  | catalog (step : CatalogStep)
  | settings (step : SettingsStep)

def DurableStep.run (s : Durable) : DurableStep → Option Durable
  | .catalog step => (step.run s.catalog).map fun next => { s with
      catalog := next, committedRows := s.catalog.committed next step ++ s.committedRows }
  | .settings step => (step.run s.settings).map fun next => { s with
      settings := next, committedValues := s.settings.committed next step ++ s.committedValues }

def durable : Machine Durable DurableStep where
  init s := ∃ (tables : IndexedTables) (table : SettingsTable), s = .initial tables table
  step := DurableStep.run

/-- A transaction is committed only after its audit statement succeeded. -/
def Catalog.AuditSucceeds (s : Catalog) : CatalogStep → Prop
  | .commit call => ∀ tx row, s.calls call = .writing tx (.commit row) → tx.failed = false
  | _ => True

/-- The `SELECT` after a commit succeeds exactly if the audit statement did. -/
def Settings.AuditSucceeds (s : Settings) : SettingsStep → Prop
  | .exec call => ∀ tx, s.calls call = .writing tx .select → tx.failed = false
  | .fail call _ => ∀ tx, s.calls call = .writing tx .select → tx.failed
  | _ => True

def AuditsSucceed (s : Durable) : DurableStep → Prop
  | .catalog step => s.catalog.AuditSucceeds step
  | .settings step => s.settings.AuditSucceeds step

/-! ## Settings -/

/-- What is committed for a call that has not answered yet. -/
def PutCall.Recorded (committed : List (ℕ × List (String × Option Json))) (call : ℕ) :
    PutCall → Prop
  | .idle => ∀ found, (call, found) ∉ committed
  | .writing tx stage => tx.Written stage ∧ ∀ found,
      (call, found) ∈ committed ↔ stage = .select ∧ tx.failed = false ∧ found = tx.doc.asked
  | .answered .. => True

section Settings

variable {s next : Settings} {step : SettingsStep}
  {committed : List (ℕ × List (String × Option Json))}

theorem Settings.mem_committed_other {other : ℕ} (hne : other ≠ step.call)
    {found : List (String × Option Json)} :
    (other, found) ∈ s.committed next step ++ committed ↔ (other, found) ∈ committed := by
  rw [List.mem_append, or_iff_right_iff_imp]
  intro hmem
  cases step with
  | exec call =>
      simp only [Settings.committed] at hmem
      split at hmem
      next =>
        split at hmem
        · cases hmem
        · obtain ⟨rfl, -⟩ := Prod.mk.inj (List.mem_singleton.mp hmem)
          exact absurd rfl hne
      next => cases hmem
  | _ => cases hmem

/-- Nothing is committed for a call on the way to its commit. -/
theorem PutCall.Recorded.unwritten {call : ℕ} {tx : PutTx} {stage : PutStage}
    (hs : (PutCall.writing tx stage).Recorded committed call) (hstage : stage ≠ .select)
    (found : List (String × Option Json)) : (call, found) ∉ committed := by
  rw [hs.2 found]
  exact fun h => hstage h.1

/-- The call goes on to a statement before its commit, or to the commit. -/
theorem PutCall.Recorded.advance {call : ℕ} {tx : PutTx} {stage : PutStage}
    (hwritten : tx.Written stage) (hstage : stage ≠ .select)
    (hnone : ∀ found, (call, found) ∉ committed) :
    (PutCall.writing tx stage).Recorded committed call :=
  ⟨hwritten, fun found => iff_of_false (hnone found) fun h => hstage h.1⟩

theorem Settings.Moves.recorded_self (hmove : s.Moves step next)
    (hs : (s.calls step.call).Recorded committed step.call) :
    (next.calls step.call).Recorded (s.committed next step ++ committed) step.call := by
  cases hmove with
  | empty | unknown | select | fail =>
      simp only [Settings.answer, Settings.setCall, SettingsStep.call, Function.update_self]
      trivial
  | start call doc hidle =>
      simp only [SettingsStep.call, hidle, Settings.setCall, Function.update_self] at hs ⊢
      exact .advance rfl (by simp) hs
  | upsert call tx field rest hwriting =>
      simp only [SettingsStep.call, hwriting, Settings.setCall, Function.update_self,
        Settings.committed] at hs ⊢
      refine .advance ?_ (by simp) (hs.unwritten (by simp))
      have hwritten : tx.written ++ field :: rest = tx.doc.fields := hs.1
      simpa [PutTx.Written] using hwritten
  | upserted call tx hwriting =>
      simp only [SettingsStep.call, hwriting, Settings.setCall, Function.update_self,
        Settings.committed] at hs ⊢
      refine .advance ?_ (by simp) (hs.unwritten (by simp))
      have hwritten : tx.written ++ [] = tx.doc.fields := hs.1
      rwa [List.append_nil] at hwritten
  | addAudit call tx hwriting =>
      simp only [SettingsStep.call, hwriting, Settings.setCall, Function.update_self,
        Settings.committed] at hs ⊢
      exact .advance hs.1 (by simp) (hs.unwritten (by simp))
  | auditFails call tx hwriting =>
      simp only [SettingsStep.call, hwriting, Settings.setCall, Function.update_self] at hs ⊢
      exact .advance hs.1 (by simp) (hs.unwritten (by simp))
  | rollback call tx hwriting hfailed =>
      simp only [SettingsStep.call, hwriting, Settings.setCall, Function.update_self,
        Settings.committed, hfailed, if_pos] at hs ⊢
      refine ⟨hs.1, fun found => ?_⟩
      simpa [hfailed] using hs.unwritten (by simp) found
  | commit call tx hwriting hok =>
      simp only [SettingsStep.call, hwriting, Settings.setCall, Function.update_self,
        Settings.committed] at hs ⊢
      have hnone := hs.unwritten (by simp)
      refine ⟨hs.1, fun found => ?_⟩
      have hwritten : tx.written = tx.doc.fields := hs.1
      have hheld : (s.table.upsertAll tx.written).held tx.doc = tx.doc.asked := by
        rw [hwritten]
        exact s.table.held_upsertAll tx.doc
      simp [hheld, hnone found, hok]

theorem Settings.Moves.recorded (hmove : s.Moves step next)
    (hs : ∀ call, (s.calls call).Recorded committed call) (call : ℕ) :
    (next.calls call).Recorded (s.committed next step ++ committed) call := by
  by_cases hne : call = step.call
  · subst hne
    exact hmove.recorded_self (hs step.call)
  · have hcall := hs call
    rw [hmove.calls_other hne]
    cases hstate : s.calls call with
    | idle =>
        rw [hstate] at hcall
        intro found
        rw [Settings.mem_committed_other hne]
        exact hcall found
    | writing tx stage =>
        rw [hstate] at hcall
        refine ⟨hcall.1, fun found => ?_⟩
        rw [Settings.mem_committed_other hne]
        exact hcall.2 found
    | answered => trivial

theorem PutCall.truthful_of_writing {call : ℕ} {tx : PutTx} {stage : PutStage} :
    (PutCall.writing tx stage).Truthful committed call := by
  intro doc answer hstate
  cases hstate

theorem PutCall.truthful_error {call : ℕ} {doc : SettingsDoc} {error : ApiError} :
    (PutCall.answered doc (.error error)).Truthful committed call ↔
      ∀ found, (call, found) ∉ committed := by
  constructor
  · intro htruthful found
    rw [htruthful doc _ rfl found]
    rintro ⟨⟨_, h⟩, -⟩
    cases h
  · rintro hnone _ _ ⟨rfl⟩ found
    refine iff_of_false (hnone found) ?_
    rintro ⟨⟨_, h⟩, -⟩
    cases h

theorem Settings.Moves.truthful_self (hmove : s.Moves step next)
    (hs : (s.calls step.call).Recorded committed step.call) :
    (next.calls step.call).Truthful (s.committed next step ++ committed) step.call ↔
      s.AuditSucceeds step := by
  cases hmove with
  | empty call doc error hidle =>
      simp only [SettingsStep.call, hidle, Settings.answer, Settings.setCall,
        Function.update_self] at hs ⊢
      exact iff_of_true (PutCall.truthful_error.mpr hs) trivial
  | start | auditFails =>
      simp only [SettingsStep.call, Settings.setCall, Function.update_self]
      exact iff_of_true PutCall.truthful_of_writing trivial
  | unknown call tx field rest error hwriting =>
      simp only [SettingsStep.call, hwriting, Settings.answer, Settings.setCall,
        Function.update_self, Settings.committed, Settings.AuditSucceeds] at hs ⊢
      exact iff_of_true (PutCall.truthful_error.mpr (hs.unwritten (by simp))) (by simp)
  | upsert call tx field rest hwriting | upserted call tx hwriting | addAudit call tx hwriting
    | rollback call tx hwriting | commit call tx hwriting =>
      simp only [SettingsStep.call, hwriting, Settings.setCall, Function.update_self,
        Settings.AuditSucceeds]
      exact iff_of_true PutCall.truthful_of_writing (by simp)
  | select call tx hwriting =>
      simp only [SettingsStep.call, hwriting, Settings.answer, Settings.setCall,
        Function.update_self, Settings.committed, Settings.AuditSucceeds] at hs ⊢
      constructor
      · rintro htruthful _ ⟨rfl⟩
        have hasked := (htruthful tx.doc _ rfl tx.doc.asked).mpr ⟨⟨_, rfl⟩, rfl⟩
        exact ((hs.2 _).mp hasked).2.1
      · rintro hok _ _ ⟨rfl⟩ found
        refine (hs.2 found).trans ?_
        simp [hok tx rfl]
  | fail call message tx stage hwriting =>
      simp only [SettingsStep.call, hwriting, Settings.answer, Settings.setCall,
        Function.update_self, Settings.committed, Settings.AuditSucceeds] at hs ⊢
      refine PutCall.truthful_error.trans ?_
      constructor
      · rintro hnone _ ⟨rfl⟩
        by_contra hok
        exact hnone _ ((hs.2 _).mpr ⟨rfl, by simpa using hok, rfl⟩)
      · intro hfailed found hmem
        obtain ⟨rfl, hok, -⟩ := (hs.2 found).mp hmem
        exact absurd (hfailed tx rfl) (by simp [hok])

/-- Only the step's own call can turn untruthful. -/
theorem Settings.Moves.truthful_iff (hmove : s.Moves step next)
    (hs : ∀ call, (s.calls call).Recorded committed call)
    (htruthful : ∀ call, (s.calls call).Truthful committed call) :
    (∀ call, (next.calls call).Truthful (s.committed next step ++ committed) call) ↔
      s.AuditSucceeds step := by
  rw [← hmove.truthful_self (hs step.call)]
  refine ⟨fun hall => hall step.call, fun hself call => ?_⟩
  by_cases hne : call = step.call
  · exact hne ▸ hself
  · intro doc answer hstate found
    rw [hmove.calls_other hne] at hstate
    rw [Settings.mem_committed_other hne]
    exact htruthful call doc answer hstate found

end Settings

/-! ## Models -/

section Catalog

variable {s next : Catalog} {step : CatalogStep} {committed : List (ℕ × Option ModelRow)}

/-- Other steps than commits commit nothing for a handler, and answer with no row. -/
theorem Catalog.CallMove.truthful (hmove : s.CallMove step next)
    (hcommit : ∀ call, step ≠ .commit call)
    (hopen : ∀ call, (s.calls call).Open → ∀ found, (call, found) ∉ committed)
    (htruthful : ∀ call, (s.calls call).Truthful committed call) (call : ℕ) :
    (next.calls call).Truthful committed call := by
  have hmoved : ∀ {moved : ℕ} {after : ModelCall}, (s.calls moved).Open →
      next.calls = Function.update s.calls moved after →
      (∀ row, after ≠ .answered (.ok (.row row))) → (next.calls call).Truthful committed call := by
    intro moved after hunanswered hcalls hafter
    rw [hcalls]
    by_cases hsame : call = moved
    · subst hsame
      rw [Function.update_self]
      rintro answer rfl found
      refine iff_of_false (hopen call hunanswered found) ?_
      rintro ⟨row, rfl, -⟩
      exact hafter row rfl
    · rw [Function.update_of_ne hsame]
      exact htruthful call
  cases hmove with
  | pass _ hcalls =>
      rw [hcalls]
      exact htruthful call
  | quiet moved after _ hunanswered hcalls hquiet =>
      exact hmoved hunanswered hcalls fun row => hquiet (.row row)
  | single moved answer _ _ hunanswered hcalls hsingle =>
      refine hmoved hunanswered hcalls fun row h => hsingle row ?_
      cases h
      rfl
  | commit moved => exact absurd rfl (hcommit moved)

/-- A commit is answered truthfully exactly when its transaction has not failed. -/
theorem Catalog.truthful_commit {call : ℕ} (hrun : s.commit call = some next) (hs : s.Isolated)
    (hopen : ∀ call, (s.calls call).Open → ∀ found, (call, found) ∉ committed)
    (htruthful : ∀ call, (s.calls call).Truthful committed call) :
    (∀ other, (next.calls other).Truthful (s.committed next (.commit call) ++ committed) other) ↔
      s.AuditSucceeds (.commit call) := by
  obtain ⟨tx, row, hcall, hcalls, htables⟩ := Catalog.commit_spec hrun
  have hnone : ∀ found, (call, found) ∉ committed := hopen call (hcall ▸ fun _ h => by cases h)
  simp only [Catalog.committed, hcall, hcalls, Catalog.AuditSucceeds]
  constructor
  · rintro hall _ _ ⟨rfl, rfl⟩
    by_contra hfailed
    have hself := hall call
    rw [Function.update_self, if_pos (by simpa using hfailed)] at hself
    exact hnone _ ((hself _ rfl (some row)).mpr ⟨row, rfl, rfl⟩)
  · intro hok other
    have hok : tx.failed = false := hok tx row rfl
    obtain ⟨-, hget⟩ := (hs.holds call tx _ hcall).written row rfl
    have hfound : next.models.get tx.request.id = some row := by
      rw [hok, if_neg Bool.false_ne_true] at htables
      rw [Catalog.models, htables]
      exact hget
    rw [hok, if_neg Bool.false_ne_true, hfound]
    by_cases hsame : other = call
    · subst hsame
      rw [Function.update_self]
      rintro _ ⟨rfl⟩ found
      simp [hnone found]
    · rw [Function.update_of_ne hsame]
      intro answer hstate found
      simpa [hsame] using htruthful other answer hstate found

theorem CatalogStep.truthful_iff (hrun : step.run s = some next) (hs : s.Isolated)
    (hopen : ∀ call, (s.calls call).Open → ∀ found, (call, found) ∉ committed)
    (htruthful : ∀ call, (s.calls call).Truthful committed call) :
    (∀ call, (next.calls call).Truthful (s.committed next step ++ committed) call) ↔
      s.AuditSucceeds step := by
  cases step with
  | commit call => exact Catalog.truthful_commit hrun hs hopen htruthful
  | _ =>
      refine iff_of_true ?_ trivial
      exact (CatalogStep.run_callMove hrun).truthful (fun _ h => by cases h) hopen htruthful

/-- What is committed belongs to calls that have answered. -/
theorem CatalogStep.committed_answered (hrun : step.run s = some next)
    (hopen : ∀ call, (s.calls call).Open → ∀ found, (call, found) ∉ committed) (call : ℕ)
    (hunanswered : (next.calls call).Open) (found : Option ModelRow) :
    (call, found) ∉ s.committed next step ++ committed := by
  have hmove := CatalogStep.run_callMove hrun
  have hbefore : (s.calls call).Open := fun answer hanswer =>
    hunanswered answer (hmove.answered hanswer)
  rw [List.mem_append, not_or]
  refine ⟨fun hmem => ?_, hopen call hbefore found⟩
  cases step with
  | commit moved =>
      obtain ⟨tx, row, hcall, hcalls, -⟩ := Catalog.commit_spec hrun
      simp only [Catalog.committed, hcall] at hmem
      split at hmem
      · cases hmem
      · obtain ⟨rfl, -⟩ := Prod.mk.inj (List.mem_singleton.mp hmem)
        exact hunanswered _ (by rw [hcalls, Function.update_self])
  | _ => cases hmem

end Catalog

/-! ## Every run -/

/-- What holds whatever statements fail. -/
structure Durable.Sound (s : Durable) : Prop where
  snapshot : s.catalog.Snapshot
  isolated : s.catalog.Isolated
  unanswered : ∀ call, (s.catalog.calls call).Open → ∀ found, (call, found) ∉ s.committedRows
  recorded : ∀ call, (s.settings.calls call).Recorded s.committedValues call

theorem Durable.sound_initial (tables : IndexedTables) (table : SettingsTable) :
    (Durable.initial tables table).Sound where
  snapshot := Catalog.snapshot_initial tables
  isolated := Catalog.isolated_initial tables.2
  unanswered _ _ _ hmem := by cases hmem
  recorded _ _ hmem := by cases hmem

theorem DurableStep.sound {s next : Durable} {step : DurableStep} (hrun : step.run s = some next)
    (hs : s.Sound) : next.Sound := by
  cases step with
  | catalog step =>
      obtain ⟨catalog, hcatalog, rfl⟩ := Option.map_eq_some_iff.mp hrun
      have hmoves := CatalogStep.run_moves hcatalog
      exact ⟨hmoves.snapshot hs.snapshot, hmoves.isolated hs.snapshot hs.isolated,
        CatalogStep.committed_answered hcatalog hs.unanswered, hs.recorded⟩
  | settings step =>
      obtain ⟨settings, hsettings, rfl⟩ := Option.map_eq_some_iff.mp hrun
      exact ⟨hs.snapshot, hs.isolated, hs.unanswered,
        (SettingsStep.run_moves hsettings).recorded hs.recorded⟩

theorem DurableStep.truthful_iff {s next : Durable} {step : DurableStep}
    (hrun : step.run s = some next) (hs : s.Sound) (htruthful : s.Truthful) :
    next.Truthful ↔ AuditsSucceed s step := by
  cases step with
  | catalog step =>
      obtain ⟨catalog, hcatalog, rfl⟩ := Option.map_eq_some_iff.mp hrun
      have hiff := CatalogStep.truthful_iff hcatalog hs.isolated hs.unanswered htruthful.rows
      exact ⟨fun h => hiff.mp h.rows, fun h => ⟨hiff.mpr h, htruthful.values⟩⟩
  | settings step =>
      obtain ⟨settings, hsettings, rfl⟩ := Option.map_eq_some_iff.mp hrun
      have hiff := (SettingsStep.run_moves hsettings).truthful_iff hs.recorded htruthful.values
      exact ⟨fun h => hiff.mp h.values, fun h => ⟨htruthful.rows, hiff.mpr h⟩⟩

/-- In a run of both services, successes and commits go together exactly when no
transaction is committed after its audit statement failed, and the reads of
`put` fail only after such a failure, and then always. -/
theorem truthful_iff_auditsSucceed (tables : IndexedTables) (table : SettingsTable)
    (steps : List DurableStep) :
    durable.Throughout Durable.Truthful (.initial tables table) steps ↔
      durable.Meets AuditsSucceed (.initial tables table) steps := by
  have hkeeps : ∀ s step next, Durable.Sound s → durable.step s step = some next → next.Sound :=
    fun s step next hs hrun => DurableStep.sound hrun hs
  refine Machine.throughout_iff_meets hkeeps
    (fun s step next hs htruthful hrun => DurableStep.truthful_iff hrun hs htruthful)
    (Durable.sound_initial tables table) ⟨fun _ _ h => (by cases h), fun _ _ _ h => (by cases h)⟩
    steps

/-- The audit statement of an update fails: the call answers with a row that is
not committed. -/
theorem unauditedUpdate_untruthful :
    let disable : UpdateRequest := ⟨none, none, some "disabled", none, none, none, none⟩
    let steps : List CatalogStep :=
      [.update 0 "m" disable 1, .exec 0 "", .exec 0 "", .auditFails 0, .commit 0]
    ¬durable.Throughout Durable.Truthful (.initial servedTable .empty) (steps.map .catalog) := by
  intro disable steps hall
  let reported : ModelRow := { servedModel with status := "disabled", updatedAt := 1 }
  have hlast := (hall.last rfl).rows 0 (.ok (.row reported)) rfl (some reported)
  exact nomatch hlast.mpr ⟨_, rfl, rfl⟩

end GpuCluster.Mgmt
