import GpuCluster.Mgmt.Settings

/-! # A settings document is written as a whole

Keys are checked one by one in the loop that writes them, so a refused document has
written some of its keys; they go with the transaction. The audit log gets the document
without the token.
-/

namespace GpuCluster.Mgmt

open Foundation

/-- Requests of any number of callers. -/
def settingsService : Machine Settings SettingsStep where
  init s := ∃ table, s = .initial table
  step := SettingsStep.run

/-- There are keys, and all of them are known. -/
def SettingsDoc.Accepted (doc : SettingsDoc) : Prop :=
  doc.fields ≠ [] ∧ ∀ field ∈ doc.fields, field.1 ∈ allowedSettings

namespace Settings

/-! ## What is promised -/

/-- The statements of the call up to its commit succeed. -/
def Succeeds (call : ℕ) (s : Settings) : SettingsStep → Prop
  | .auditFails other => other ≠ call
  | .fail other _ => other = call → ∃ tx, s.calls call = .writing tx .select
  | _ => True

/-- The call's own step leaves settings and audit log as they are. -/
def Spares (call : ℕ) (s : Settings) (step : SettingsStep) : Prop :=
  step.call = call → ∀ next, step.run s = some next →
    next.table = s.table ∧ next.auditLog = s.auditLog

/-- The document's keys take its values, and one entry is added to the audit log. -/
structure Applies (doc : SettingsDoc) (s next : Settings) : Prop where
  named : ∀ field ∈ doc.fields, next.table.get field.1 = some ⟨field.1, field.2⟩
  others : ∀ key, key ∉ doc.fields.map Prod.fst → next.table.get key = s.table.get key
  audit : next.auditLog = s.auditLog ++ [doc.auditRow]

/-- One step of the call in a run applies the document, and the others change nothing. -/
inductive AppliesOnce (call : ℕ) (doc : SettingsDoc) : Settings → List SettingsStep → Prop
  | now {s next : Settings} {step : SettingsStep} {rest : List SettingsStep} :
      step.call = call → step.run s = some next → Applies doc s next →
      settingsService.Meets (Spares call) next rest → AppliesOnce call doc s (step :: rest)
  | later {s next : Settings} {step : SettingsStep} {rest : List SettingsStep} :
      step.run s = some next → Spares call s step → AppliesOnce call doc next rest →
      AppliesOnce call doc s (step :: rest)

/-- The document is applied once, or not at all. -/
structure AllOrNothing (call : ℕ) (doc : SettingsDoc) (s : Settings) (steps : List SettingsStep) :
    Prop where
  all : doc.Accepted → AppliesOnce call doc s steps
  nothing : ¬doc.Accepted → settingsService.Meets (Spares call) s steps

/-! ## One call in a run of many -/

variable {s next : Settings} {step : SettingsStep} {rest : List SettingsStep} {call : ℕ}
  {doc : SettingsDoc}

theorem spares_of_eq (hrun : step.run s = some next) (htable : next.table = s.table)
    (haudit : next.auditLog = s.auditLog) : Spares call s step := by
  rintro - other hother
  cases hrun.symm.trans hother
  exact ⟨htable, haudit⟩

theorem AllOrNothing.later (hrun : step.run s = some next) (hspares : Spares call s step)
    (hrest : AllOrNothing call doc next rest) : AllOrNothing call doc s (step :: rest) where
  all haccepted := .later hrun hspares (hrest.all haccepted)
  nothing hrefused := Machine.Meets.cons hrun hspares (hrest.nothing hrefused)

/-- A transaction on the way to its commit. -/
structure Writes (tx : PutTx) (stage : PutStage) : Prop where
  written : tx.Written stage
  known : ∀ field ∈ tx.written, field.1 ∈ allowedSettings
  nonempty : tx.doc.fields ≠ []
  ok : tx.failed = false

/-- What the rest of a run does, by how far the call has come. -/
def Ahead (call : ℕ) (doc : SettingsDoc) (s : Settings) (steps : List SettingsStep) : Prop :=
  match s.calls call with
  | .idle => AllOrNothing call doc s steps
  | .writing tx .select => tx.doc = doc ∧ settingsService.Meets (Spares call) s steps
  | .writing tx stage => tx.doc = doc ∧ (Writes tx stage → AllOrNothing call doc s steps)
  | .answered asked _ => asked = doc ∧ settingsService.Meets (Spares call) s steps

theorem ahead_of_other (hrun : step.run s = some next) (hother : step.call ≠ call)
    (hrest : Ahead call doc next rest) : Ahead call doc s (step :: rest) := by
  have hspares : Spares call s step := fun hown => absurd hown hother
  have hcalls := (SettingsStep.run_moves hrun).calls_other (Ne.symm hother)
  unfold Ahead at hrest ⊢
  rw [hcalls] at hrest
  split at hrest
  next => exact hrest.later hrun hspares
  next => exact ⟨hrest.1, .cons hrun hspares hrest.2⟩
  next => exact ⟨hrest.1, fun hwrites => (hrest.2 hwrites).later hrun hspares⟩
  next => exact ⟨hrest.1, .cons hrun hspares hrest.2⟩

theorem ahead_answered_iff {asked : SettingsDoc} {answer : Except ApiError SettingsDoc}
    {steps : List SettingsStep} (hcall : s.calls call = .answered asked answer) :
    Ahead call doc s steps ↔ asked = doc ∧ settingsService.Meets (Spares call) s steps := by
  rw [Ahead, hcall]

theorem ahead_select_iff {tx : PutTx} {steps : List SettingsStep}
    (hcall : s.calls call = .writing tx .select) :
    Ahead call doc s steps ↔ tx.doc = doc ∧ settingsService.Meets (Spares call) s steps := by
  rw [Ahead, hcall]

theorem ahead_writing_iff {tx : PutTx} {stage : PutStage} {steps : List SettingsStep}
    (hcall : s.calls call = .writing tx stage) (hstage : stage ≠ .select) :
    Ahead call doc s steps ↔
      tx.doc = doc ∧ (Writes tx stage → AllOrNothing call doc s steps) := by
  rw [Ahead, hcall]
  cases stage with
  | select => exact absurd rfl hstage
  | upsert | addAudit | commit => exact Iff.rfl

theorem ahead_put {asked : SettingsDoc} (hrun : s.put call asked = some next)
    (hrest : Ahead call doc next rest) : Ahead call doc s (.put call asked :: rest) := by
  have hstep : SettingsStep.run s (.put call asked) = some next := hrun
  unfold Settings.put at hrun
  split at hrun
  next hidle =>
    unfold Ahead
    rw [hidle]
    split at hrun
    next hempty =>
      cases hrun
      obtain ⟨rfl, hmeets⟩ := (ahead_answered_iff (Function.update_self ..)).mp hrest
      exact ⟨fun haccepted => absurd hempty haccepted.1,
        fun _ => .cons hstep (spares_of_eq hstep rfl rfl) hmeets⟩
    next hnonempty =>
      cases hrun
      obtain ⟨rfl, hlater⟩ :=
        (ahead_writing_iff (Function.update_self ..) PutStage.noConfusion).mp hrest
      have hwrites : Writes ⟨asked, [], false⟩ (.upsert asked.fields) :=
        ⟨rfl, fun _ hmem => (by cases hmem), hnonempty, rfl⟩
      exact (hlater hwrites).later hstep (spares_of_eq hstep rfl rfl)
  next => cases hrun

/-- A statement that changes nothing yet takes the transaction one stage further. -/
theorem ahead_advance {tx later : PutTx} {stage after : PutStage} (hrun : step.run s = some next)
    (hcall : s.calls call = .writing tx stage) (hstage : stage ≠ .select)
    (hnext : next.calls call = .writing later after) (hafter : after ≠ .select)
    (hdoc : later.doc = tx.doc) (hwrites : Writes tx stage → Writes later after)
    (hspares : Spares call s step) (hrest : Ahead call doc next rest) :
    Ahead call doc s (step :: rest) := by
  obtain ⟨rfl, hlater⟩ := (ahead_writing_iff hnext hafter).mp hrest
  refine (ahead_writing_iff hcall hstage).mpr ⟨hdoc.symm, fun hearlier => ?_⟩
  exact (hlater (hwrites hearlier)).later hrun hspares

/-- A field that is not known ends the call. -/
theorem ahead_refuse {tx : PutTx} {field : String × Json} {more : List (String × Json)}
    {answer : Except ApiError SettingsDoc} (hrun : step.run s = some next)
    (hcall : s.calls call = .writing tx (.upsert (field :: more)))
    (hunknown : field.1 ∉ allowedSettings) (hnext : next.calls call = .answered tx.doc answer)
    (hspares : Spares call s step) (hrest : Ahead call doc next rest) :
    Ahead call doc s (step :: rest) := by
  obtain ⟨rfl, hmeets⟩ := (ahead_answered_iff hnext).mp hrest
  refine (ahead_writing_iff hcall PutStage.noConfusion).mpr ⟨rfl, fun hwrites => ⟨?_, ?_⟩⟩
  · intro haccepted
    have hmem : field ∈ tx.doc.fields := by
      rw [← hwrites.written]
      exact List.mem_append_right _ List.mem_cons_self
    exact absurd (haccepted.2 field hmem) hunknown
  · exact fun _ => .cons hrun hspares hmeets

/-- A call that reads the table back has nothing more to change. -/
theorem ahead_answer {tx : PutTx} {answer : Except ApiError SettingsDoc}
    (hrun : step.run s = some next) (hcall : s.calls call = .writing tx .select)
    (hnext : next.calls call = .answered tx.doc answer) (hspares : Spares call s step)
    (hrest : Ahead call doc next rest) : Ahead call doc s (step :: rest) := by
  obtain ⟨rfl, hmeets⟩ := (ahead_answered_iff hnext).mp hrest
  exact (ahead_select_iff hcall).mpr ⟨rfl, .cons hrun hspares hmeets⟩

theorem Writes.upsert {tx : PutTx} {field : String × Json} {more : List (String × Json)}
    (hwrites : Writes tx (.upsert (field :: more))) (hknown : field.1 ∈ allowedSettings) :
    Writes { tx with written := tx.written ++ [field] } (.upsert more) := by
  refine ⟨?_, ?_, hwrites.nonempty, hwrites.ok⟩
  · have hwritten : tx.written ++ field :: more = tx.doc.fields := hwrites.written
    simpa [PutTx.Written] using hwritten
  · intro other hmem
    rcases List.mem_append.mp hmem with hmem | hmem
    · exact hwrites.known other hmem
    · rw [List.mem_singleton.mp hmem]
      exact hknown

/-- The commit applies the document. -/
theorem ahead_commit {tx : PutTx} (hcall : s.calls call = .writing tx .commit)
    (hrun : s.exec call = some next) (hrest : Ahead call doc next rest) :
    Ahead call doc s (.exec call :: rest) := by
  have hstep : SettingsStep.run s (.exec call) = some next := hrun
  rw [exec, hcall] at hrun
  dsimp only at hrun
  have hselect : next.calls call = .writing tx .select := by
    split at hrun <;> cases hrun <;> exact Function.update_self ..
  obtain ⟨rfl, hmeets⟩ := (ahead_select_iff hselect).mp hrest
  refine (ahead_writing_iff hcall PutStage.noConfusion).mpr ⟨rfl, fun hwrites => ?_⟩
  have hwritten : tx.written = tx.doc.fields := hwrites.written
  have haccepted : tx.doc.Accepted :=
    ⟨hwrites.nonempty, fun field hmem => hwrites.known field (hwritten ▸ hmem)⟩
  refine ⟨fun _ => .now rfl hstep ?_ hmeets, fun hrefused => absurd haccepted hrefused⟩
  simp only [hwrites.ok, Bool.false_eq_true, if_false, hwritten] at hrun
  cases hrun
  exact ⟨fun field hmem => s.table.get_upsertAll tx.doc.nodup hmem,
    fun key hother => s.table.get_upsertAll_other hother, rfl⟩

theorem ahead_exec (hrun : s.exec call = some next) (hrest : Ahead call doc next rest) :
    Ahead call doc s (.exec call :: rest) := by
  have hstep : SettingsStep.run s (.exec call) = some next := hrun
  have hcommit : ∀ tx, s.calls call = .writing tx .commit →
      Ahead call doc s (.exec call :: rest) := fun _ hcall => ahead_commit hcall hrun hrest
  unfold Settings.exec at hrun
  split at hrun
  next tx field more hcall =>
    split at hrun
    next hunknown =>
      cases hrun
      exact ahead_refuse hstep hcall hunknown (Function.update_self ..)
        (spares_of_eq hstep rfl rfl) hrest
    next hknown =>
      split at hrun
      next =>
        cases hrun
        exact ahead_advance hstep hcall PutStage.noConfusion (Function.update_self ..)
          PutStage.noConfusion rfl (fun hwrites => hwrites.upsert (not_not.mp hknown))
          (spares_of_eq hstep rfl rfl) hrest
      next => cases hrun
  next tx hcall =>
    cases hrun
    refine ahead_advance hstep hcall PutStage.noConfusion (Function.update_self ..)
      PutStage.noConfusion rfl (fun hwrites => ?_) (spares_of_eq hstep rfl rfl) hrest
    have hwritten : tx.written ++ [] = tx.doc.fields := hwrites.written
    rw [List.append_nil] at hwritten
    exact ⟨hwritten, hwrites.known, hwrites.nonempty, hwrites.ok⟩
  next tx hcall =>
    cases hrun
    exact ahead_advance hstep hcall PutStage.noConfusion (Function.update_self ..)
      PutStage.noConfusion rfl
      (fun hwrites => ⟨hwrites.written, hwrites.known, hwrites.nonempty, hwrites.ok⟩)
      (spares_of_eq hstep rfl rfl) hrest
  next tx hcall => exact hcommit tx hcall
  next tx hcall =>
    cases hrun
    exact ahead_answer hstep hcall (Function.update_self ..) (spares_of_eq hstep rfl rfl) hrest
  next => cases hrun

/-- Only the read after the commit may fail. -/
theorem ahead_fail {message : String} {tx : PutTx} (hcall : s.calls call = .writing tx .select)
    (hrun : s.fail call message = some next) (hrest : Ahead call doc next rest) :
    Ahead call doc s (.fail call message :: rest) := by
  have hstep : SettingsStep.run s (.fail call message) = some next := hrun
  simp only [Settings.fail, hcall, Option.some.injEq] at hrun
  subst hrun
  exact ahead_answer hstep hcall (Function.update_self ..) (spares_of_eq hstep rfl rfl) hrest

theorem ahead_of_answered {steps : List SettingsStep} {last : Settings}
    {answer : Except ApiError SettingsDoc} (hexec : settingsService.exec s steps = some last)
    (hanswered : last.calls call = .answered doc answer)
    (hsucceeds : settingsService.Meets (Succeeds call) s steps) : Ahead call doc s steps := by
  induction steps generalizing s with
  | nil =>
      cases hexec
      unfold Ahead
      rw [hanswered]
      exact ⟨rfl, trivial⟩
  | cons step rest ih =>
      obtain ⟨next, hrun, hmore⟩ := Option.bind_eq_some_iff.mp hexec
      obtain ⟨hsucceeds, hlater⟩ := hsucceeds next hrun
      have hrest := ih hmore hlater
      by_cases hown : step.call = call
      · subst hown
        cases step with
        | put other asked => exact ahead_put hrun hrest
        | exec other => exact ahead_exec hrun hrest
        | auditFails other => exact absurd rfl hsucceeds
        | fail other message =>
            obtain ⟨tx, hcall⟩ := hsucceeds rfl
            exact ahead_fail hcall hrun hrest
      · exact ahead_of_other hrun hown hrest

/-! ## A call alone -/

/-- The call answers if it is left alone. -/
def Finishes (call : ℕ) (doc : SettingsDoc) (s : Settings) : Prop :=
  ∃ n last answer, settingsService.exec s (List.replicate n (.exec call)) = some last ∧
    last.calls call = .answered doc answer

theorem Finishes.of_exec (hrun : s.exec call = some next) (hnext : Finishes call doc next) :
    Finishes call doc s := by
  obtain ⟨n, last, answer, hexec, hanswered⟩ := hnext
  have hstep : settingsService.step s (.exec call) = some next := hrun
  exact ⟨n + 1, last, answer, (Machine.exec_cons hstep _).trans hexec, hanswered⟩

/-- A call with an answer has finished. -/
theorem Finishes.of_answered {answer : Except ApiError SettingsDoc}
    (hanswered : s.calls call = .answered doc answer) : Finishes call doc s :=
  ⟨0, s, answer, rfl, hanswered⟩

theorem finishes_of_commit {tx : PutTx} (hcall : s.calls call = .writing tx .commit) :
    Finishes call tx.doc s := by
  -- committed or rolled back, the read is next
  obtain ⟨read, hread, hselect⟩ : ∃ read : Settings,
      s.exec call = some read ∧ read.calls call = .writing tx .select := by
    rw [exec, hcall]
    dsimp only
    split <;> exact ⟨_, rfl, Function.update_self ..⟩
  refine .of_exec hread (.of_exec (by rw [exec, hselect]) ?_)
  exact .of_answered (Function.update_self ..)

theorem finishes_of_addAudit {tx : PutTx} (hcall : s.calls call = .writing tx .addAudit) :
    Finishes call tx.doc s :=
  .of_exec (by rw [exec, hcall]) (finishes_of_commit (Function.update_self ..))

theorem finishes_of_upsert {fields : List (String × Json)} {tx : PutTx}
    (hcall : s.calls call = .writing tx (.upsert fields)) (hdoc : tx.doc = doc)
    (hlocks : ∀ key, s.locks key = none ∨ s.locks key = some call) : Finishes call doc s := by
  induction fields generalizing s tx with
  | nil =>
      subst hdoc
      exact .of_exec (by rw [exec, hcall]) (finishes_of_addAudit (Function.update_self ..))
  | cons field rest ih =>
      by_cases hknown : field.1 ∈ allowedSettings
      · have hfree : s.locks.Free call [field.1] := fun key _ => hlocks key
        have hupsert : s.exec call = some { s.setCall call
            (.writing { tx with written := tx.written ++ [field] } (.upsert rest)) with
            locks := s.locks.acquire call [field.1] } := by
          rw [exec, hcall]
          dsimp only
          rw [if_neg (not_not.mpr hknown), if_pos hfree]
        have hwriting := Function.update_self call
          (PutCall.writing { tx with written := tx.written ++ [field] } (.upsert rest)) s.calls
        refine .of_exec hupsert (ih hwriting hdoc fun key => ?_)
        dsimp only [LockTable.acquire]
        split
        · exact .inr rfl
        · exact hlocks key
      · have hrefuse : s.exec call = some (s.answer call tx.doc
            (.error (.badRequest ("unknown setting: " ++ field.1)))) := by
          rw [exec, hcall]
          dsimp only
          rw [if_pos hknown]
        subst hdoc
        exact .of_exec hrefuse (.of_answered (Function.update_self ..))

/-- A put that no other call holds up answers. -/
theorem exists_finishes (hidle : s.calls call = .idle) (hlocks : ∀ key, s.locks key = none)
    (doc : SettingsDoc) :
    ∃ next, s.put call doc = some next ∧ Finishes call doc next := by
  unfold Settings.put
  rw [hidle]
  dsimp only
  split
  next => exact ⟨_, rfl, .of_answered (Function.update_self ..)⟩
  next =>
    have hwriting := Function.update_self call
      (PutCall.writing ⟨doc, [], false⟩ (.upsert doc.fields)) s.calls
    exact ⟨_, rfl, finishes_of_upsert hwriting rfl fun key => .inl (hlocks key)⟩

end Settings

/-! ## What the audit log gets -/

/-- A token that is set. -/
def IsToken (value : Json) : Prop := ∃ text, value = .string text ∧ text ≠ ""

/-- The documents differ in the value of the token, which is set in both or in none. -/
def SettingsDoc.SameButToken (doc other : SettingsDoc) : Prop :=
  List.Forall₂ (fun field twin => field.1 = twin.1 ∧
    if field.1 = "huggingface_api_token" then (IsToken field.2 ↔ IsToken twin.2)
    else field.2 = twin.2) doc.fields other.fields

theorem redactToken_of_isToken {value : Json} (htoken : IsToken value) :
    redactToken value = .string "<redacted>" := by
  obtain ⟨text, rfl, hset⟩ := htoken
  simp [redactToken, Json.asStr?, hset]

theorem redactToken_of_not_isToken {value : Json} (hcleared : ¬IsToken value) :
    redactToken value = .string "<cleared>" := by
  cases value with
  | string text =>
      have hempty : text = "" := by
        by_contra hset
        exact hcleared ⟨text, rfl, hset⟩
      simp [redactToken, Json.asStr?, hempty]
  | _ => rfl

theorem redactToken_congr {value other : Json} (hsame : IsToken value ↔ IsToken other) :
    redactToken value = redactToken other := by
  by_cases htoken : IsToken value
  · rw [redactToken_of_isToken htoken, redactToken_of_isToken (hsame.mp htoken)]
  · rw [redactToken_of_not_isToken htoken, redactToken_of_not_isToken (mt hsame.mpr htoken)]

theorem SettingsDoc.SameButToken.redacted {doc other : SettingsDoc}
    (hsame : doc.SameButToken other) : doc.redacted = other.redacted := by
  refine congrArg Json.object ?_
  unfold SameButToken at hsame
  generalize doc.fields = fields at hsame ⊢
  generalize other.fields = twins at hsame ⊢
  induction hsame with
  | nil => rfl
  | @cons field twin fields twins hhead _ ih =>
      obtain ⟨hkey, hvalue⟩ := hhead
      obtain ⟨key, value⟩ := field
      obtain ⟨_, other⟩ := twin
      obtain rfl := hkey
      rw [List.map_cons, List.map_cons]
      congr 1
      by_cases htoken : key = "huggingface_api_token"
      · simp only [if_pos htoken] at hvalue ⊢
        rw [redactToken_congr hvalue]
      · simp only [if_neg htoken] at hvalue ⊢
        rw [hvalue]

/-- Among any other calls, a document whose keys are all known is applied by one step of
its call, and any other by none; a call alone comes to its end; and the audit log does
not show what the token is. -/
theorem put_allOrNothing :
    (∀ (s : Settings) (call : ℕ) (doc : SettingsDoc), s.calls call = .idle →
      ∀ (steps : List SettingsStep) (last : Settings) (answer : Except ApiError SettingsDoc),
        settingsService.exec s steps = some last → last.calls call = .answered doc answer →
        settingsService.Meets (Settings.Succeeds call) s steps →
        Settings.AllOrNothing call doc s steps) ∧
    (∀ (s : Settings) (call : ℕ) (doc : SettingsDoc), s.calls call = .idle →
      (∀ key, s.locks key = none) →
      ∃ next, s.put call doc = some next ∧ Settings.Finishes call doc next) ∧
    ∀ doc other : SettingsDoc, doc.SameButToken other → doc.auditRow = other.auditRow := by
  refine ⟨?_, fun s call doc hidle hlocks => Settings.exists_finishes hidle hlocks doc, ?_⟩
  · intro s call doc hidle steps last answer hexec hanswered hsucceeds
    have hahead := Settings.ahead_of_answered hexec hanswered hsucceeds
    unfold Settings.Ahead at hahead
    rwa [hidle] at hahead
  · intro doc other hsame
    rw [SettingsDoc.auditRow, SettingsDoc.auditRow, hsame.redacted]

/-- A key is misspelt, after one that is not. -/
def misspeltDoc : SettingsDoc where
  fields := [("rate_limit_rpm", .ofU64 30), ("max_token_default", .ofU64 2048)]
  nodup := by decide

/-- The refused document has written its first key by then. -/
theorem misspeltDoc_changesNothing :
    settingsService.Meets (Settings.Spares 0) (.initial .empty)
      [.put 0 misspeltDoc, .exec 0, .put 1 misspeltDoc, .exec 0] := by
  refine (put_allOrNothing.1 (.initial .empty) 0 misspeltDoc rfl _ _ _ rfl rfl ?_).nothing ?_
  · rintro _ ⟨rfl⟩
    refine ⟨trivial, ?_⟩
    rintro _ ⟨rfl⟩
    refine ⟨trivial, ?_⟩
    rintro _ ⟨rfl⟩
    refine ⟨trivial, ?_⟩
    rintro _ ⟨rfl⟩
    exact ⟨trivial, trivial⟩
  · intro haccepted
    have hmem : ("max_token_default", .ofU64 2048) ∈ misspeltDoc.fields := by simp [misspeltDoc]
    exact absurd (haccepted.2 _ hmem) (by decide)

end GpuCluster.Mgmt
