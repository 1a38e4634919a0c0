import GpuCluster.Mgmt.EnrollMoves

/-! # One enrollment for each token

The token is checked when it is read and consumed by an `UPDATE` that looks at
its id only. Two calls that read the same unused row can both consume it. The
runs in which a token enrolls at most one node are those whose commits find
their token still unused.
-/

namespace GpuCluster.Mgmt

open Foundation

section Once

variable (verify : String → String → Bool)

/-- No secret matches two tokens. -/
def Database.TokensDistinct (db : Database) : Prop :=
  ∀ id other row otherRow secret, db.enrollTokens.get id = some row →
    db.enrollTokens.get other = some otherRow → verify row.tokenHash secret →
    verify otherRow.tokenHash secret → id = other

/-- The call's secret matched a row that is still stored with that hash. -/
def Enrolling.HoldsToken (s : Enrolling) (a : Attempt) : Prop :=
  verify a.token.tokenHash a.req.token ∧
    ∃ row, s.db.enrollTokens.get a.token.id = some row ∧ row.tokenHash = a.token.tokenHash

/-- A token row that the call's `UPDATE` leaves pending. -/
structure Attempt.Uses (a : Attempt) (row : TokenRow) : Prop where
  id_eq : row.id = a.token.id
  tokenHash_eq : row.tokenHash = a.token.tokenHash
  used : row.usedAt ≠ none

def Enrolling.TokenInv (s : Enrolling) : CallState → Prop
  | .matched a => s.HoldsToken verify a
  | .identified a _ _ => s.HoldsToken verify a
  | .writing a _ _ _ stage pending =>
      s.HoldsToken verify a ∧ (∀ row, .putToken row ∈ pending → a.Uses row) ∧
        (stage = .addAudit ∨ stage = .commit → ∃ row, .putToken row ∈ pending)
  | .succeeded a _ => s.HoldsToken verify a ∧
      ∃ row, s.db.enrollTokens.get a.token.id = some row ∧ row.usedAt ≠ none
  | _ => True

/-- A call that answered `Ok` for this token row. -/
def Enrolling.Consumed (s : Enrolling) (tokenId : String) : Prop :=
  ∃ call a nodeId, s.calls call = .succeeded a nodeId ∧ a.token.id = tokenId

structure Enrolling.Tokened (s : Enrolling) : Prop where
  distinct : s.db.TokensDistinct verify
  calls : ∀ call, s.TokenInv verify (s.calls call)
  /-- A row that was read unused and is used now was used by a call that returned `Ok`. -/
  usedBy : ∀ call a row, (s.calls call).InFlight a →
    s.db.enrollTokens.get a.token.id = some row → row.usedAt ≠ none → s.Consumed a.token.id

/-- No two calls that returned `Ok` presented the same token or used the same row. -/
def TokensOnce (s : Enrolling) : Prop :=
  ∀ call other a b nodeId otherId, s.calls call = .succeeded a nodeId →
    s.calls other = .succeeded b otherId →
    a.req.token = b.req.token ∨ a.token.id = b.token.id → call = other

/-- A commit finds the token it consumes unused. -/
def CommitsUnused (s : Enrolling) (step : EnrollStep) : Prop :=
  ∀ call a nodeId certSha started pending row, step = .commit call →
    s.calls call = .writing a nodeId certSha started .commit pending →
    s.db.enrollTokens.get a.token.id = some row → row.usedAt = none

end Once

/-- How the token table changes: hashes stay, no row is added, and used stays used. -/
structure Database.Spends (db next : Database) : Prop where
  kept : ∀ id row, db.enrollTokens.get id = some row → ∃ later,
    next.enrollTokens.get id = some later ∧ later.tokenHash = row.tokenHash ∧
      (row.usedAt ≠ none → later.usedAt ≠ none)
  back : ∀ id later, next.enrollTokens.get id = some later → ∃ row,
    db.enrollTokens.get id = some row ∧ row.tokenHash = later.tokenHash

variable {verify : String → String → Bool} {s next : Enrolling}

theorem Database.Spends.refl (db : Database) : db.Spends db :=
  ⟨fun _ row hget => ⟨row, hget, rfl, id⟩, fun _ row hget => ⟨row, hget, rfl⟩⟩

theorem Database.TokensDistinct.spends {db next : Database}
    (hdistinct : db.TokensDistinct verify) (hspends : db.Spends next) :
    next.TokensDistinct verify := by
  intro id other row otherRow secret hrow hother hverify hverify'
  obtain ⟨old, hold, hhash⟩ := hspends.back id row hrow
  obtain ⟨old', hold', hhash'⟩ := hspends.back other otherRow hother
  exact hdistinct id other old old' secret hold hold' (hhash ▸ hverify) (hhash' ▸ hverify')

namespace Enrolling

theorem HoldsToken.spends {a : Attempt} (hholds : s.HoldsToken verify a)
    (hspends : s.db.Spends next.db) : next.HoldsToken verify a := by
  obtain ⟨hverify, row, hget, hhash⟩ := hholds
  obtain ⟨later, hlater, hsame, -⟩ := hspends.kept _ row hget
  exact ⟨hverify, later, hlater, hsame.trans hhash⟩

/-- The frame rule: a call's token stays held while others spend theirs. -/
theorem TokenInv.spends {callState : CallState} (hinv : s.TokenInv verify callState)
    (hspends : s.db.Spends next.db) : next.TokenInv verify callState := by
  cases callState with
  | matched a => exact HoldsToken.spends hinv hspends
  | identified a nodeId certSha => exact HoldsToken.spends hinv hspends
  | writing a nodeId certSha started stage pending =>
      exact ⟨hinv.1.spends hspends, hinv.2⟩
  | succeeded a nodeId =>
      obtain ⟨hholds, row, hget, hused⟩ := hinv
      obtain ⟨later, hlater, -, hkept⟩ := hspends.kept _ row hget
      exact ⟨hholds.spends hspends, later, hlater, hkept hused⟩
  | absent | failed => trivial

/-- A commit uses its own token row and leaves the others. -/
theorem commit_token {a : Attempt} {nodeId certSha : String} {started : ℤ} {stage : Stage}
    {pending : List Effect}
    (hinv : s.TokenInv verify (.writing a nodeId certSha started stage pending)) (id : String) :
    (s.db.applyAll pending).enrollTokens.get id = s.db.enrollTokens.get id ∧
        (∀ row, Effect.putToken row ∈ pending → row.id ≠ id) ∨
      id = a.token.id ∧ ∃ row, a.Uses row ∧
        (s.db.applyAll pending).enrollTokens.get id = some row := by
  rcases s.db.applyAll_enrollTokens pending id with hsame | ⟨row, hmem, rfl, hget⟩
  · exact .inl hsame
  · have huses := hinv.2.1 row hmem
    exact .inr ⟨huses.id_eq, row, huses, hget⟩

theorem spends_commit {a : Attempt} {nodeId certSha : String} {started : ℤ} {stage : Stage}
    {pending : List Effect}
    (hinv : s.TokenInv verify (.writing a nodeId certSha started stage pending)) :
    s.db.Spends (s.db.applyAll pending) where
  kept id row hget := by
    rcases commit_token hinv id with ⟨hsame, -⟩ | ⟨rfl, later, huses, hlater⟩
    · exact ⟨row, hsame.trans hget, rfl, fun h => h⟩
    · obtain ⟨-, stored, hstored, hhash⟩ := hinv.1
      obtain rfl := Option.some.inj (hstored.symm.trans hget)
      exact ⟨later, hlater, huses.tokenHash_eq.trans hhash.symm, fun _ => huses.used⟩
  back id later hlater := by
    rcases commit_token hinv id with ⟨hsame, -⟩ | ⟨rfl, row, huses, hrow⟩
    · exact ⟨later, hsame ▸ hlater, rfl⟩
    · obtain rfl := Option.some.inj (hrow.symm.trans hlater)
      obtain ⟨-, stored, hstored, hhash⟩ := hinv.1
      exact ⟨stored, hstored, hhash.trans huses.tokenHash_eq.symm⟩

end Enrolling

/-! ## Every step -/

section Steps

variable {call : ℕ} {commits : Bool}

theorem Moves.spends (hmoves : Moves verify s call commits next) (hinv : s.Tokened verify) :
    s.db.Spends next.db := by
  cases commits with
  | false =>
      rw [hmoves.quiet.1]
      exact .refl s.db
  | true =>
      have hcalls := hinv.calls call
      cases hmoves with
      | commit a nodeId certSha started pending hcall =>
          rw [hcall] at hcalls
          exact Enrolling.spends_commit hcalls

/-- A statement that writes no token adds to the pending effects. -/
theorem Enrolling.TokenInv.append {a : Attempt} {nodeId certSha : String} {started : ℤ}
    {stage later : Stage} {pending more : List Effect}
    (hinv : s.TokenInv verify (.writing a nodeId certSha started stage pending))
    (hspends : s.db.Spends next.db) (hmore : ∀ row, Effect.putToken row ∉ more)
    (hstage : later = .addAudit ∨ later = .commit → stage = .addAudit ∨ stage = .commit) :
    next.TokenInv verify (.writing a nodeId certSha started later (pending ++ more)) := by
  obtain ⟨hholds, hpending, hput⟩ := hinv
  refine ⟨hholds.spends hspends, fun row hmem => ?_, fun hlater => ?_⟩
  · exact hpending row ((List.mem_append.mp hmem).resolve_right (hmore row))
  · obtain ⟨row, hmem⟩ := hput (hstage hlater)
    exact ⟨row, List.mem_append_left _ hmem⟩

/-- What a move makes of its own call. -/
theorem Moves.tokenInv (hmoves : Moves verify s call commits next) (hinv : s.Tokened verify) :
    next.TokenInv verify (next.calls call) := by
  have hcalls := hinv.calls call
  have hspends := hmoves.spends hinv
  cases hmoves with
  | refuse | abort =>
      simp only [Enrolling.abort, Enrolling.setCall, Function.update_self]
      trivial
  | pick a _ hget _ hverify =>
      simp only [Enrolling.setCall, Function.update_self]
      exact ⟨hverify, a.token, hget, rfl⟩
  | found a nodeId certSha hcall _ | drawn a freshId certSha hcall _ _ =>
      rw [hcall] at hcalls
      simp only [Enrolling.setCall, Function.update_self]
      exact hcalls.spends hspends
  | begin a nodeId certSha started hcall =>
      rw [hcall] at hcalls
      simp only [Enrolling.setCall, Function.update_self]
      refine ⟨hcalls.spends hspends, fun _ hmem => (by cases hmem), fun hstage => ?_⟩
      rcases hstage with h | h <;> cases h
  | upsert a nodeId certSha started pending row hcall _ _ =>
      rw [hcall] at hcalls
      simp only [Enrolling.setCall, Function.update_self]
      refine ⟨hcalls.1.spends hspends, fun _ hmem => (by simp at hmem), fun hstage => ?_⟩
      rcases hstage with h | h <;> cases h
  | history a nodeId certSha started pending hcall =>
      rw [hcall] at hcalls
      simp only [Enrolling.setCall, Function.update_self]
      exact hcalls.append hspends (by simp) (by simp)
  | use a nodeId certSha started pending hcall _ =>
      rw [hcall] at hcalls
      simp only [Enrolling.setCall, Function.update_self]
      obtain ⟨hholds, hpending, -⟩ := hcalls
      obtain ⟨hverify, stored, hstored, hhash⟩ := hholds
      have hid : stored.id = a.token.id := KeyedMap.key_of_get hstored
      rw [hstored]
      -- the row is still stored, so the statement finds it, used or not
      refine ⟨⟨hverify, stored, hstored, hhash⟩, fun row hmem => ?_, fun _ => ?_⟩
      · rcases List.mem_append.mp hmem with hmem | hmem
        · exact hpending row hmem
        · obtain rfl : row = stored.use started nodeId a.publicIp := by simpa using hmem
          exact ⟨hid, hhash, Option.some_ne_none _⟩
      · exact ⟨stored.use started nodeId a.publicIp, List.mem_append_right _ (by simp)⟩
  | audit a nodeId certSha started pending hcall =>
      rw [hcall] at hcalls
      simp only [Enrolling.setCall, Function.update_self]
      exact hcalls.append hspends (by simp) (by simp)
  | commit a nodeId certSha started pending hcall =>
      rw [hcall] at hcalls
      simp only [Enrolling.finish, Enrolling.setCall, Function.update_self]
      refine ⟨hcalls.1.spends hspends, ?_⟩
      rcases Enrolling.commit_token hcalls a.token.id with ⟨-, hnone⟩ | ⟨-, row, huses, hrow⟩
      · obtain ⟨row, hmem⟩ := hcalls.2.2 (.inr rfl)
        exact absurd (hcalls.2.1 row hmem).id_eq (hnone row hmem)
      · exact ⟨row, hrow, huses.used⟩

/-- Answers are final. -/
theorem Moves.succeeded (hmoves : Moves verify s call commits next) {other : ℕ} {a : Attempt}
    {nodeId : String} (hother : s.calls other = .succeeded a nodeId) :
    next.calls other = .succeeded a nodeId := by
  cases commits with
  | false => exact (hmoves.quiet.2.2 other a nodeId).mpr hother
  | true =>
      cases hmoves with
      | commit b otherId certSha started pending hcall =>
          have hne : other ≠ call := by
            rintro rfl
            rw [hcall] at hother
            cases hother
          exact (Function.update_of_ne hne _ _).trans hother

theorem Moves.tokened (hmoves : Moves verify s call commits next) (hinv : s.Tokened verify) :
    next.Tokened verify where
  distinct := hinv.distinct.spends (hmoves.spends hinv)
  calls other := by
    by_cases hother : other = call
    · subst hother
      exact hmoves.tokenInv hinv
    · rw [hmoves.calls_ne hother]
      exact (hinv.calls other).spends (hmoves.spends hinv)
  usedBy other a row hflight hget hused := by
    have hkeeps : s.Consumed a.token.id → next.Consumed a.token.id :=
      fun ⟨first, b, nodeId, hfirst, hid⟩ => ⟨first, b, nodeId, hmoves.succeeded hfirst, hid⟩
    rcases hmoves.inFlight hflight with hbefore | ⟨-, hread, hunused⟩
    · have hcalls := hinv.calls call
      cases commits with
      | false => exact hkeeps (hinv.usedBy other a row hbefore (hmoves.quiet.1 ▸ hget) hused)
      | true =>
          cases hmoves with
          | commit b nodeId certSha started pending hcall =>
              rw [hcall] at hcalls
              rcases Enrolling.commit_token hcalls a.token.id with ⟨hsame, -⟩ | ⟨hid, -⟩
              · exact hkeeps (hinv.usedBy other a row hbefore (hsame ▸ hget) hused)
              · exact ⟨call, b, nodeId, Function.update_self .., hid.symm⟩
    -- the call has just read the row, and read it unused
    · obtain rfl := Option.some.inj (hread.symm.trans hget)
      exact absurd hunused hused

/-- Two calls that hold tokens and presented one secret read the same row. -/
theorem Enrolling.Tokened.token_eq (hinv : s.Tokened verify) {a b : Attempt}
    (hholds : s.HoldsToken verify a) (hother : s.HoldsToken verify b)
    (hsame : a.req.token = b.req.token ∨ a.token.id = b.token.id) : a.token.id = b.token.id := by
  rcases hsame with hsecret | hid
  · obtain ⟨hverify, row, hget, hhash⟩ := hholds
    obtain ⟨hverify', row', hget', hhash'⟩ := hother
    exact hinv.distinct _ _ row row' a.req.token hget hget' (hhash ▸ hverify)
      (hhash' ▸ hsecret ▸ hverify')
  · exact hid

/-- One commit keeps tokens single exactly when its own token is still unused. -/
theorem tokensOnce_finish (hinv : s.Tokened verify) (honce : TokensOnce s) {a : Attempt}
    {nodeId certSha : String} {started : ℤ} {pending : List Effect}
    (hcall : s.calls call = .writing a nodeId certSha started .commit pending) :
    TokensOnce (s.finish call a nodeId pending) ↔
      ∀ row, s.db.enrollTokens.get a.token.id = some row → row.usedAt = none := by
  have hself : (s.finish call a nodeId pending).calls call = .succeeded a nodeId :=
    Function.update_self ..
  have hbefore : ∀ other ≠ call,
      (s.finish call a nodeId pending).calls other = s.calls other := fun other hne =>
    Function.update_of_ne hne _ _
  have hcalls := hinv.calls call
  rw [hcall] at hcalls
  constructor
  · intro hfinish row hget
    by_contra hused
    -- a row that was read unused and is used now was used by a call that answered
    obtain ⟨other, b, otherId, hother, hid⟩ :=
      hinv.usedBy call a row (by rw [hcall]; rfl) hget hused
    have hne : other ≠ call := by
      rintro rfl
      rw [hcall] at hother
      cases hother
    exact hne (hfinish other call b a otherId nodeId ((hbefore other hne).trans hother) hself
      (.inr hid))
  · intro hunused
    -- another call that has answered used its row, so it held another token
    have hclash : ∀ other b otherId, other ≠ call →
        (s.finish call a nodeId pending).calls other = .succeeded b otherId →
        ¬(b.req.token = a.req.token ∨ b.token.id = a.token.id) := by
      intro other b otherId hne hother hsame
      rw [hbefore other hne] at hother
      have hspent := hinv.calls other
      rw [hother] at hspent
      obtain ⟨hholds, row, hget, hused⟩ := hspent
      rw [hinv.token_eq hholds hcalls.1 hsame] at hget
      exact hused (hunused row hget)
    intro first second b c firstId secondId hfirst hsecond hsame
    by_cases hf : first = call <;> by_cases hs : second = call
    · exact hf.trans hs.symm
    · subst hf
      obtain ⟨rfl, -⟩ : a = b ∧ nodeId = firstId := by simpa [hself] using hfirst
      exact absurd (hsame.imp Eq.symm Eq.symm) (hclash second c secondId hs hsecond)
    · subst hs
      obtain ⟨rfl, -⟩ : a = c ∧ nodeId = secondId := by simpa [hself] using hsecond
      exact absurd hsame (hclash first b firstId hf hfirst)
    · exact honce first second b c firstId secondId ((hbefore first hf).symm.trans hfirst)
        ((hbefore second hs).symm.trans hsecond) hsame

end Steps

/-! ## Every run -/

theorem Enrolling.Tokened.initial {origin : Database} (hdistinct : origin.TokensDistinct verify) :
    (Enrolling.initial origin).Tokened verify :=
  ⟨hdistinct, fun _ => trivial, fun _ _ _ hflight => hflight.elim⟩

theorem EnrollStep.run_tokened {step : EnrollStep} (hinv : s.Tokened verify)
    (hrun : step.run verify s = some next) : next.Tokened verify := by
  obtain ⟨commits, hmoves, -⟩ := EnrollStep.run_moves hrun
  exact hmoves.tokened hinv

theorem EnrollStep.run_tokensOnce {step : EnrollStep} (hinv : s.Tokened verify)
    (honce : TokensOnce s) (hrun : step.run verify s = some next) :
    TokensOnce next ↔ CommitsUnused s step := by
  obtain ⟨commits, hmoves, hcommit⟩ := EnrollStep.run_moves hrun
  cases commits with
  | true =>
      obtain ⟨call, rfl⟩ : ∃ call, step = .commit call := ⟨_, hcommit rfl⟩
      change Moves verify s call true next at hmoves
      cases hmoves with
      | commit a nodeId certSha started pending hcall =>
          rw [tokensOnce_finish hinv honce hcall]
          constructor
          · intro hunused _ b otherId certSha' started' pending' row hstep hother hget
            cases hstep
            obtain ⟨rfl, -⟩ : a = b ∧ _ := by simpa [hcall] using hother
            exact hunused row hget
          · intro hunused row hget
            exact hunused call a nodeId certSha started pending row rfl hcall hget
  | false =>
      apply iff_of_true
      · intro first second a b firstId secondId hfirst hsecond
        exact honce first second a b firstId secondId ((hmoves.quiet.2.2 ..).mp hfirst)
          ((hmoves.quiet.2.2 ..).mp hsecond)
      · rintro other a nodeId certSha started pending row rfl hcall -
        exfalso
        have hanswered : next.calls other = .succeeded a nodeId := by
          simp only [EnrollStep.run, Enrolling.commit, hcall, Option.some.injEq] at hrun
          subst hrun
          exact Function.update_self ..
        have hstill := (hmoves.quiet.2.2 other a nodeId).mp hanswered
        rw [hcall] at hstill
        cases hstill

/-- When no secret matches two tokens, a run of concurrent enrollments consumes
every token at most once exactly when each commit of it finds its token unused. -/
theorem tokensOnce_iff_commitsUnused (verify : String → String → Bool) (origin : Database)
    (hdistinct : origin.TokensDistinct verify) (steps : List EnrollStep) :
    (enrolling verify).Throughout TokensOnce (.initial origin) steps ↔
      (enrolling verify).Meets CommitsUnused (.initial origin) steps := by
  exact Machine.throughout_iff_meets (M := enrolling verify)
    (fun _ _ _ (hinv : Enrolling.Tokened verify _) hrun => EnrollStep.run_tokened hinv hrun)
    (fun _ _ _ => EnrollStep.run_tokensOnce) (Enrolling.Tokened.initial hdistinct)
    (fun _ _ _ _ _ _ h => nomatch h) steps

/-- An unused token, whose hash is the secret itself. -/
def plainToken (id secret : String) : TokenRow := ⟨id, secret, none, 100, none, none, none⟩

/-- The request of a machine with a token. -/
def tokenReq (secret hwFingerprint : String) : EnrollRequest :=
  ⟨secret, "key", none, .object [("hw_fingerprint", .string hwFingerprint)]⟩

def twoTokens : Database :=
  ⟨(KeyedMap.empty.insert (plainToken "t1" "one")).insert (plainToken "t2" "two"), .empty, [], []⟩

theorem twoTokens_distinct : twoTokens.TokensDistinct fun hash secret => hash == secret := by
  have hrows : ∀ id row, twoTokens.enrollTokens.get id = some row →
      id = "t2" ∧ row.tokenHash = "two" ∨ id = "t1" ∧ row.tokenHash = "one" := by
    intro id row hrow
    rcases KeyedMap.get_insert_eq_some.mp hrow with ⟨hid, rfl⟩ | ⟨-, hrow⟩
    · exact .inl ⟨hid, rfl⟩
    rcases KeyedMap.get_insert_eq_some.mp hrow with ⟨hid, rfl⟩ | ⟨-, hnone⟩
    · exact .inr ⟨hid, rfl⟩
    · cases hnone
  intro id other row otherRow secret hrow hother hmatch hotherMatch
  have hsame := (eq_of_beq hmatch).trans (eq_of_beq hotherMatch).symm
  rcases hrows id row hrow with ⟨rfl, hhash⟩ | ⟨rfl, hhash⟩ <;>
  rcases hrows other otherRow hother with ⟨rfl, hotherHash⟩ | ⟨rfl, hotherHash⟩ <;>
  rw [hhash, hotherHash] at hsame <;>
  first | rfl | exact absurd hsame (by decide)

/-- Two machines enroll statement by statement in turn, each with its own token, and the
second one commits first. -/
def twoCalls : List EnrollStep :=
  [.start 0 (tokenReq "one" "hw1") "10.0.0.1/32" 0 (some "t1"),
    .start 1 (tokenReq "two" "hw2") "10.0.0.2/32" 0 (some "t2"), .lookup 0 "n1" "cert1",
    .lookup 1 "n2" "cert2", .begin 0 0, .begin 1 0, .exec 0 "", .exec 1 "", .exec 0 "",
    .exec 1 "", .exec 0 "", .exec 1 "", .exec 0 "", .exec 1 "", .commit 1, .commit 0]

/-- Both calls find their tokens unused. -/
theorem twoCalls_tokensOnce :
    (enrolling fun hash secret => hash == secret).Throughout TokensOnce (.initial twoTokens)
      twoCalls ∧
    ∃ s a b, (enrolling fun hash secret => hash == secret).exec (.initial twoTokens) twoCalls =
      some s ∧ s.calls 0 = .succeeded a "n1" ∧ s.calls 1 = .succeeded b "n2" := by
  refine ⟨(tokensOnce_iff_commitsUnused _ twoTokens twoTokens_distinct _).mpr ?_,
    _, _, _, rfl, rfl, rfl⟩
  iterate 14
    rintro _ ⟨rfl⟩
    refine ⟨fun _ _ _ _ _ _ _ hstep _ _ => (by cases hstep), ?_⟩
  iterate 2
    rintro _ ⟨rfl⟩
    refine ⟨fun call a nodeId certSha started pending row hstep hcall hget => ?_, ?_⟩
    · cases hstep
      cases hcall
      cases hget
      rfl
  trivial

/-- Tables with one token. -/
def oneToken : Database := ⟨KeyedMap.empty.insert (plainToken "t" "secret"), .empty, [], []⟩

/-- A call up to its commit. -/
def untilCommit (call : ℕ) (hwFingerprint freshId : String) : List EnrollStep :=
  [.start call (tokenReq "secret" hwFingerprint) "10.0.0.1/32" 0 (some "t"),
    .lookup call freshId "cert", .begin call 0, .exec call "", .exec call "", .exec call "",
    .exec call ""]

/-- A second machine reads the token before the first one's commit, waits for the
row, and enrolls with it too. -/
theorem racingCalls_shareToken : ∃ s a b,
    (enrolling fun hash secret => hash == secret).exec (.initial oneToken)
      ([.start 1 (tokenReq "secret" "hw2") "10.0.0.2/32" 0 (some "t")] ++
        untilCommit 0 "hw1" "n1" ++
        [.commit 0] ++ (untilCommit 1 "hw2" "n2").tail ++ [.commit 1]) = some s ∧
    s.calls 0 = .succeeded a "n1" ∧ s.calls 1 = .succeeded b "n2" ∧
    a.req.token = b.req.token ∧ ¬TokensOnce s := by
  refine ⟨_, _, _, rfl, rfl, rfl, rfl, fun honce => ?_⟩
  exact absurd (honce 0 1 _ _ _ _ rfl rfl (.inl rfl)) (by decide)

end GpuCluster.Mgmt
