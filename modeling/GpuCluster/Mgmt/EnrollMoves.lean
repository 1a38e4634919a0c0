import GpuCluster.Mgmt.Enroll

/-! # What one step of an enrollment can do

Every step belongs to one call. `Moves` lists the steps with their guards and
their results, so that an invariant is checked against eleven cases instead of
the bodies of the step functions; its flag tells the commit from the rest.
-/

namespace GpuCluster.Mgmt

open Foundation

/-- A call that holds a token and has not answered. -/
def CallState.InFlight : CallState → Attempt → Prop
  | .matched a, b => a = b
  | .identified a _ _, b => a = b
  | .writing a _ _ _ _ _, b => a = b
  | _, _ => False

inductive Moves (verify : String → String → Bool) (s : Enrolling) (call : ℕ) :
    Bool → Enrolling → Prop
  | refuse (req : EnrollRequest) (error : ApiError) : s.calls call = .absent →
      Moves verify s call false (s.setCall call (.failed req error))
  | pick (a : Attempt) : s.calls call = .absent →
      s.db.enrollTokens.get a.token.id = some a.token → a.token.isCandidate a.now →
      verify a.token.tokenHash a.req.token →
      Moves verify s call false (s.setCall call (.matched a))
  | found (a : Attempt) (nodeId certSha : String) : s.calls call = .matched a →
      s.db.nodeIdByFingerprint a.req.hwFingerprint = some nodeId →
      Moves verify s call false (s.setCall call (.identified a nodeId certSha))
  | drawn (a : Attempt) (freshId certSha : String) : s.calls call = .matched a →
      s.minted freshId = none → s.db.nodes.get freshId = none →
      Moves verify s call false { s.setCall call (.identified a freshId certSha) with
        minted := Function.update s.minted freshId (some call) }
  | begin (a : Attempt) (nodeId certSha : String) (started : ℤ) :
      s.calls call = .identified a nodeId certSha →
      Moves verify s call false (s.setCall call (.writing a nodeId certSha started .upsertNode []))
  | upsert (a : Attempt) (nodeId certSha : String) (started : ℤ) (pending : List Effect)
      (row : NodeRow) :
      s.calls call = .writing a nodeId certSha started .upsertNode pending →
      s.locks.Free call [.nodeId nodeId, .fingerprint a.req.hwFingerprint] →
      ((∃ stored, s.db.nodes.get nodeId = some stored ∧
          row = stored.onConflict (a.nodeRow nodeId certSha)) ∨
        s.db.nodes.get nodeId = none ∧
          s.db.nodeIdByFingerprint a.req.hwFingerprint = none ∧
          row = a.nodeRow nodeId certSha) →
      Moves verify s call false
        { s.setCall call (.writing a nodeId certSha started .addIpHistory [.putNode row]) with
          locks := s.locks.acquire call [.nodeId nodeId, .fingerprint a.req.hwFingerprint] }
  | history (a : Attempt) (nodeId certSha : String) (started : ℤ) (pending : List Effect) :
      s.calls call = .writing a nodeId certSha started .addIpHistory pending →
      Moves verify s call false (s.setCall call (.writing a nodeId certSha started .useToken
        (pending ++ [.addIpHistory (a.ipHistoryRow nodeId)])))
  | use (a : Attempt) (nodeId certSha : String) (started : ℤ) (pending : List Effect) :
      s.calls call = .writing a nodeId certSha started .useToken pending →
      s.locks.Free call [.token a.token.id] →
      Moves verify s call false
        { s.setCall call (.writing a nodeId certSha started .addAudit (pending ++
            ((s.db.enrollTokens.get a.token.id).map
              (·.use started nodeId a.publicIp)).toList.map .putToken)) with
          locks := s.locks.acquire call [.token a.token.id] }
  | audit (a : Attempt) (nodeId certSha : String) (started : ℤ) (pending : List Effect) :
      s.calls call = .writing a nodeId certSha started .addAudit pending →
      Moves verify s call false (s.setCall call (.writing a nodeId certSha started .commit
        (pending ++ [.addAudit (a.auditRow nodeId)])))
  | commit (a : Attempt) (nodeId certSha : String) (started : ℤ) (pending : List Effect) :
      s.calls call = .writing a nodeId certSha started .commit pending →
      Moves verify s call true (s.finish call a nodeId pending)
  | abort (a : Attempt) (error : ApiError) : (s.calls call).InFlight a →
      Moves verify s call false (s.abort call a.req error)

variable {verify : String → String → Bool} {s next : Enrolling}

theorem Enrolling.start_moves {call : ℕ} {req : EnrollRequest} {publicIp : String} {now : ℤ}
    {choice : Option String} (hrun : s.start verify call req publicIp now choice = some next) :
    Moves verify s call false next := by
  unfold Enrolling.start at hrun
  split at hrun
  next habsent _ =>
    cases hrun
    exact .refuse _ _ habsent
  next tokenId habsent _ =>
    split at hrun
    next row hget =>
      split at hrun
      next hmatch =>
        cases hrun
        simp only [Bool.and_eq_true] at hmatch
        have hid := KeyedMap.key_of_get hget
        exact .pick ⟨req, publicIp, now, row⟩ habsent (hid.symm ▸ hget) hmatch.1 hmatch.2
      next => cases hrun
    next => cases hrun
  next habsent _ =>
    split at hrun
    next => cases hrun
    next =>
      cases hrun
      exact .refuse _ _ habsent
  next => cases hrun

theorem Enrolling.upsertNode_moves {call : ℕ} {a : Attempt} {nodeId certSha violation : String}
    {started : ℤ} {pending : List Effect}
    (hcall : s.calls call = .writing a nodeId certSha started .upsertNode pending)
    (hrun : s.upsertNode call a nodeId certSha started violation = some next) :
    Moves verify s call false next := by
  simp only [Enrolling.upsertNode] at hrun
  split at hrun
  next hfree =>
    split at hrun
    next stored hget =>
      cases hrun
      exact .upsert a nodeId certSha started pending _ hcall hfree (.inl ⟨stored, hget, rfl⟩)
    next hget =>
      split at hrun
      next =>
        cases hrun
        exact .abort a _ (by rw [hcall]; rfl)
      next hnone =>
        cases hrun
        exact .upsert a nodeId certSha started pending _ hcall hfree (.inr ⟨hget, hnone, rfl⟩)
  next => cases hrun

theorem Enrolling.exec_moves {call : ℕ} {violation : String}
    (hrun : s.exec call violation = some next) : Moves verify s call false next := by
  unfold Enrolling.exec at hrun
  split at hrun
  next a nodeId certSha started stage pending hcall =>
    cases stage with
    | upsertNode => exact Enrolling.upsertNode_moves hcall hrun
    | addIpHistory =>
        cases hrun
        exact .history a nodeId certSha started pending hcall
    | useToken =>
        simp only [Enrolling.useToken] at hrun
        split at hrun
        next hfree =>
          cases hrun
          exact .use a nodeId certSha started pending hcall hfree
        next => cases hrun
    | addAudit =>
        cases hrun
        exact .audit a nodeId certSha started pending hcall
    | commit => cases hrun
  next => cases hrun

/-- Only the call that moves has a new state. -/
theorem Moves.calls_ne {call other : ℕ} {commits : Bool}
    (hmoves : Moves verify s call commits next) (hother : other ≠ call) :
    next.calls other = s.calls other := by
  cases hmoves <;> exact Function.update_of_ne hother _ _

/-- A call in flight was so before, or has just begun and read its token unused. -/
theorem Moves.inFlight {call other : ℕ} {commits : Bool} {a : Attempt}
    (hmoves : Moves verify s call commits next) (hflight : (next.calls other).InFlight a) :
    (s.calls other).InFlight a ∨ s.calls call = .absent ∧
      next.db.enrollTokens.get a.token.id = some a.token ∧ a.token.usedAt = none := by
  by_cases hsame : other = call
  · subst hsame
    cases hmoves with
    | pick b habsent hget hcandidate =>
        simp only [Enrolling.setCall, Function.update_self, CallState.InFlight] at hflight
        subst hflight
        simp only [TokenRow.isCandidate, Bool.and_eq_true, Option.isNone_iff_eq_none] at hcandidate
        exact .inr ⟨habsent, hget, hcandidate.1⟩
    | refuse | abort | commit =>
        simp [Enrolling.abort, Enrolling.finish, Enrolling.setCall, CallState.InFlight] at hflight
    | found _ _ _ hcall | drawn _ _ _ hcall | begin _ _ _ _ hcall | upsert _ _ _ _ _ _ hcall
    | history _ _ _ _ _ hcall | use _ _ _ _ _ hcall | audit _ _ _ _ _ hcall =>
        simp only [Enrolling.setCall, Function.update_self] at hflight
        rw [hcall]
        exact .inl hflight
  · exact .inl (hmoves.calls_ne hsame ▸ hflight)

/-- Short of a commit, tables and answers stay. -/
theorem Moves.quiet {call : ℕ} (hmoves : Moves verify s call false next) :
    next.db = s.db ∧ next.commits = s.commits ∧ ∀ other a nodeId,
      next.calls other = .succeeded a nodeId ↔ s.calls other = .succeeded a nodeId := by
  have hother : ∀ {before after : CallState}, s.calls call = before →
      (∀ a nodeId, before ≠ .succeeded a nodeId) → (∀ a nodeId, after ≠ .succeeded a nodeId) →
      ∀ other a nodeId, Function.update s.calls call after other = .succeeded a nodeId ↔
        s.calls other = .succeeded a nodeId := by
    intro before after hcall hbefore hafter other a nodeId
    by_cases hsame : other = call
    · subst hsame
      rw [Function.update_self, hcall]
      exact iff_of_false (hafter a nodeId) (hbefore a nodeId)
    · rw [Function.update_of_ne hsame]
  cases hmoves with
  | refuse _ _ hcall | pick _ hcall | found _ _ _ hcall | drawn _ _ _ hcall
  | begin _ _ _ _ hcall | upsert _ _ _ _ _ _ hcall | history _ _ _ _ _ hcall
  | use _ _ _ _ _ hcall | audit _ _ _ _ _ hcall =>
      exact ⟨rfl, rfl, hother hcall (fun _ _ h => nomatch h) fun _ _ h => nomatch h⟩
  -- a call that has answered is not in flight any more
  | abort b error hcall =>
      refine ⟨rfl, rfl, hother rfl (fun a nodeId h => ?_) fun _ _ h => nomatch h⟩
      rw [h] at hcall
      exact hcall

def EnrollStep.call : EnrollStep → ℕ
  | .start call .. => call
  | .lookup call .. => call
  | .begin call _ => call
  | .exec call _ => call
  | .commit call => call
  | .fail call _ => call

/-- Every step is a move of its call, and only `commit` commits. -/
theorem EnrollStep.run_moves {step : EnrollStep} (hrun : step.run verify s = some next) :
    ∃ commits, Moves verify s step.call commits next ∧
      (commits = true → step = .commit step.call) := by
  cases step with
  | start call req publicIp now choice => exact ⟨false, Enrolling.start_moves hrun, nofun⟩
  | lookup call freshId certSha =>
      refine ⟨false, ?_, nofun⟩
      simp only [EnrollStep.run, Enrolling.lookup] at hrun
      split at hrun
      next a hcall =>
        split at hrun
        next nodeId hfound =>
          cases hrun
          exact .found a nodeId certSha hcall hfound
        next =>
          split at hrun
          next hfresh =>
            cases hrun
            exact .drawn a freshId certSha hcall hfresh.1 hfresh.2
          next => cases hrun
      next => cases hrun
  | begin call started =>
      refine ⟨false, ?_, nofun⟩
      simp only [EnrollStep.run, Enrolling.begin] at hrun
      split at hrun
      next a nodeId certSha hcall =>
        cases hrun
        exact .begin a nodeId certSha started hcall
      next => cases hrun
  | exec call violation => exact ⟨false, Enrolling.exec_moves hrun, nofun⟩
  | commit call =>
      refine ⟨true, ?_, fun _ => rfl⟩
      simp only [EnrollStep.run, Enrolling.commit] at hrun
      split at hrun
      next a nodeId certSha started pending hcall =>
        cases hrun
        exact .commit a nodeId certSha started pending hcall
      next => cases hrun
  | fail call message =>
      refine ⟨false, ?_, nofun⟩
      simp only [EnrollStep.run, Enrolling.fail] at hrun
      split at hrun
      case h_4 => cases hrun
      all_goals
        cases hrun
        apply Moves.abort
        simp only [*, EnrollStep.call, CallState.InFlight]

/-- Only `start` begins a call. -/
theorem EnrollStep.begun {step : EnrollStep} (hrun : step.run verify s = some next)
    (hstart : ∀ call req publicIp now choice, step ≠ .start call req publicIp now choice) :
    s.calls step.call ≠ .absent := by
  intro habsent
  cases step with
  | start => exact hstart _ _ _ _ _ rfl
  | lookup call =>
      have habsent : s.calls call = .absent := habsent
      simp [EnrollStep.run, Enrolling.lookup, habsent] at hrun
  | begin call =>
      have habsent : s.calls call = .absent := habsent
      simp [EnrollStep.run, Enrolling.begin, habsent] at hrun
  | exec call =>
      have habsent : s.calls call = .absent := habsent
      simp [EnrollStep.run, Enrolling.exec, habsent] at hrun
  | commit call =>
      have habsent : s.calls call = .absent := habsent
      simp [EnrollStep.run, Enrolling.commit, habsent] at hrun
  | fail call =>
      have habsent : s.calls call = .absent := habsent
      simp [EnrollStep.run, Enrolling.fail, habsent] at hrun

end GpuCluster.Mgmt
