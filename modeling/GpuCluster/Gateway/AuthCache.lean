import GpuCluster.Gateway.Auth

/-! # Where verdicts come from

Every verdict the gateway holds, in the cache or in the hands of a request, was
received for its token at its time. A request passes on a fresh positive one
and is refused from the cache on a fresh negative one only.
-/

namespace GpuCluster.Gateway

open Common Foundation

/-! ## What a step does -/

/-- The effect of one request's step on the request, the cache and the receipts. -/
inductive StepEffect (adminApiKey : Option String) (g : GatewayState) (now : ℤ) (i : ℕ)
    (r : Request) :
    RequestStep → Request → KeyedMap CacheEntry.token → List Receipt → Prop
  | lookup (token : String) (hphase : r.phase = .looking token) :
      StepEffect adminApiKey g now i r .lookup
        { r with phase := .found token (g.cache.get token) } g.cache g.receipts
  | hit (token : String) (entry : CacheEntry) (hphase : r.phase = .found token (some entry))
      (hfresh : entry.verdict.fresh now) :
      StepEffect adminApiKey g now i r .check
        { r with phase := .applying entry true } g.cache g.receipts
  | miss (token : String) (entry : Option CacheEntry) (hphase : r.phase = .found token entry) :
      StepEffect adminApiKey g now i r .check
        { r with phase := .verifying token } g.cache g.receipts
  | unanswered (token : String) (outcome : VerifyOutcome) (hphase : r.phase = .verifying token)
      (hnone : verifyWithMgmt adminApiKey outcome now = none) :
      StepEffect adminApiKey g now i r (.respond outcome)
        { r with outcome := some outcome, phase := .refused .backendUnreachable none now }
        g.cache g.receipts
  | answered (token : String) (outcome : VerifyOutcome) (verdict : CachedAuth)
      (hphase : r.phase = .verifying token)
      (hverdict : verifyWithMgmt adminApiKey outcome now = some verdict) :
      StepEffect adminApiKey g now i r (.respond outcome)
        { r with outcome := some outcome, phase := .caching ⟨token, verdict, i⟩ }
        g.cache (⟨i, token, now, verdict.ok⟩ :: g.receipts)
  | insert (entry : CacheEntry) (hphase : r.phase = .caching entry) :
      StepEffect adminApiKey g now i r .insert
        { r with phase := .sweeping entry } (g.cache.insert entry) g.receipts
  | sweep (entry : CacheEntry) (cache : KeyedMap CacheEntry.token)
      (hphase : r.phase = .sweeping entry)
      (hcache : ∀ token kept, cache.get token = some kept → g.cache.get token = some kept) :
      StepEffect adminApiKey g now i r .sweep
        { r with phase := .applying entry false } cache g.receipts
  | pass (entry : CacheEntry) (cached : Bool) (hphase : r.phase = .applying entry cached)
      (hok : entry.verdict.ok = true) :
      StepEffect adminApiKey g now i r .applyVerdict
        { r with phase := .passed entry entry.verdict.authedKey now } g.cache g.receipts
  | refuse (entry : CacheEntry) (cached : Bool) (hphase : r.phase = .applying entry cached)
      (hnot : entry.verdict.ok = false) :
      StepEffect adminApiKey g now i r .applyVerdict
        { r with phase := .refused .invalidKey (if cached then some entry else none) now }
        g.cache g.receipts
  | forward (entry : CacheEntry) (key : Option AuthedKey) (passedAt : ℤ)
      (hphase : r.phase = .passed entry key passedAt) :
      StepEffect adminApiKey g now i r .forward
        { r with phase := .forwarded entry key passedAt now } g.cache g.receipts

theorem requestStep_effect {adminApiKey : Option String} {g next : GatewayState} {now : ℤ} {i : ℕ}
    {r : Request} {step : RequestStep}
    (hstep : g.requestStep adminApiKey i r now step = some next) :
    ∃ request cache receipts,
      StepEffect adminApiKey g now i r step request cache receipts ∧
        next = ⟨cache, g.requests.set i request, g.clock, receipts⟩ := by
  cases step with
  | lookup =>
      simp only [GatewayState.requestStep, GatewayState.lookup] at hstep
      split at hstep
      next token hphase =>
        cases hstep
        exact ⟨_, _, _, .lookup token hphase, rfl⟩
      next => cases hstep
  | check =>
      simp only [GatewayState.requestStep, GatewayState.check] at hstep
      split at hstep
      next token entry hphase =>
        cases hstep
        cases hfresh : entry.verdict.fresh now with
        | true => exact ⟨_, _, _, .hit token entry hphase hfresh, rfl⟩
        | false => exact ⟨_, _, _, .miss token (some entry) hphase, rfl⟩
      next token hphase =>
        cases hstep
        exact ⟨_, _, _, .miss token none hphase, rfl⟩
      next => cases hstep
  | respond outcome =>
      simp only [GatewayState.requestStep, GatewayState.respond] at hstep
      split at hstep
      next token hphase =>
        cases hverdict : verifyWithMgmt adminApiKey outcome now with
        | none =>
            rw [hverdict] at hstep
            cases hstep
            exact ⟨_, _, _, .unanswered token outcome hphase hverdict, rfl⟩
        | some verdict =>
            rw [hverdict] at hstep
            cases hstep
            exact ⟨_, _, _, .answered token outcome verdict hphase hverdict, rfl⟩
      next => cases hstep
  | insert =>
      simp only [GatewayState.requestStep, GatewayState.insert] at hstep
      split at hstep
      next entry hphase =>
        cases hstep
        exact ⟨_, _, _, .insert entry hphase, rfl⟩
      next => cases hstep
  | sweep =>
      simp only [GatewayState.requestStep, GatewayState.sweep] at hstep
      split at hstep
      next entry hphase =>
        cases hstep
        refine ⟨_, _, _, .sweep entry _ hphase (fun token kept hget => ?_), rfl⟩
        split at hget
        next => exact (KeyedMap.get_retain_eq_some.mp hget).1
        next => exact hget
      next => cases hstep
  | applyVerdict =>
      simp only [GatewayState.requestStep, GatewayState.applyVerdict] at hstep
      split at hstep
      next entry cached hphase =>
        cases hstep
        cases hok : entry.verdict.ok with
        | true => exact ⟨_, _, _, .pass entry cached hphase hok, rfl⟩
        | false => exact ⟨_, _, _, .refuse entry cached hphase hok, rfl⟩
      next => cases hstep
  | forward =>
      simp only [GatewayState.requestStep, GatewayState.forward] at hstep
      split at hstep
      next entry key passedAt hphase =>
        cases hstep
        exact ⟨_, _, _, .forward entry key passedAt hphase, rfl⟩
      next => cases hstep

/-! ## The entries in use -/

/-- The entry is in the cache, or a request works with a copy of it. -/
def GatewayState.Holds (g : GatewayState) (entry : CacheEntry) : Prop :=
  g.cache.get entry.token = some entry ∨ ∃ r ∈ g.requests, r.phase.held = some entry

/-- A request's step brings one entry into use at most, the one it received. -/
theorem StepEffect.holds {adminApiKey : Option String} {g : GatewayState} {now : ℤ} {i : ℕ}
    {r request : Request} {step : RequestStep} {cache : KeyedMap CacheEntry.token}
    {receipts : List Receipt} (hr : r ∈ g.requests)
    (heffect : StepEffect adminApiKey g now i r step request cache receipts) {clock : ℤ}
    {entry : CacheEntry}
    (hholds : GatewayState.Holds ⟨cache, g.requests.set i request, clock, receipts⟩ entry) :
    g.Holds entry ∨ ∃ token outcome verdict, step = .respond outcome ∧
      r.phase = .verifying token ∧ verifyWithMgmt adminApiKey outcome now = some verdict ∧
      entry = ⟨token, verdict, i⟩ := by
  have hcopy : ∀ {e}, r.phase.held = some e → g.Holds e := fun he => .inr ⟨r, hr, he⟩
  rcases hholds with hget | ⟨other, hmem, hother⟩
  · -- found in the cache
    cases heffect with
    | insert stored hphase =>
        rw [KeyedMap.get_insert] at hget
        split at hget
        next =>
          cases hget
          exact .inl (hcopy (by rw [hphase]; rfl))
        next => exact .inl (.inl hget)
    | sweep stored cache hphase hcache => exact .inl (.inl (hcache _ _ hget))
    | _ => exact .inl (.inl hget)
  · rcases List.mem_or_eq_of_mem_set hmem with hold | rfl
    · exact .inl (.inr ⟨other, hold, hother⟩)
    · -- held by the request that made the step
      cases heffect with
      | lookup token hphase =>
          have htoken : entry.token = token := KeyedMap.key_of_get hother
          exact .inl (.inl (htoken ▸ hother))
      | answered token outcome verdict hphase hverdict =>
          cases hother
          exact .inr ⟨token, outcome, verdict, rfl, hphase, hverdict, rfl⟩
      | hit token stored hphase hfresh => exact .inl (hcopy (by rw [hphase]; exact hother))
      | miss | unanswered => cases hother
      | insert stored hphase => exact .inl (hcopy (by rw [hphase]; exact hother))
      | sweep stored cache hphase hcache => exact .inl (hcopy (by rw [hphase]; exact hother))
      | pass stored cached hphase hok => exact .inl (hcopy (by rw [hphase]; exact hother))
      | refuse stored cached hphase hnot =>
          cases cached with
          | true => exact .inl (hcopy (by rw [hphase]; exact hother))
          | false => cases hother
      | forward stored key passedAt hphase => exact .inl (hcopy (by rw [hphase]; exact hother))

/-- A step of the gateway is an arrival or the effect of a request's step. -/
theorem step_cases {adminApiKey : Option String} {g next : GatewayState} {now : ℤ}
    {action : GatewayAction} (hstep : g.step adminApiKey now action = some next) :
    g.Allows now ∧
      ((∃ authorization, action = .arrive authorization ∧
          next = { g with clock := now }.arrive authorization now) ∨
        ∃ i r step request cache receipts, action = .request i step ∧ g.requests[i]? = some r ∧
          StepEffect adminApiKey g now i r step request cache receipts ∧
          next = ⟨cache, g.requests.set i request, now, receipts⟩) := by
  simp only [GatewayState.step] at hstep
  split at hstep
  next hallows =>
    refine ⟨hallows, ?_⟩
    cases action with
    | arrive authorization =>
        cases hstep
        exact .inl ⟨authorization, rfl, rfl⟩
    | request i step =>
        obtain ⟨r, hr, hrequest⟩ := Option.bind_eq_some_iff.mp hstep
        obtain ⟨request, cache, receipts, heffect, rfl⟩ := requestStep_effect hrequest
        refine .inr ⟨i, r, step, request, cache, receipts, rfl, hr, ?_, rfl⟩
        cases heffect <;> constructor <;> assumption
  next => cases hstep

theorem step_clock {adminApiKey : Option String} {g next : GatewayState} {now : ℤ}
    {action : GatewayAction} (hstep : g.step adminApiKey now action = some next) :
    next.clock = now := by
  obtain ⟨-, hcases⟩ := step_cases hstep
  rcases hcases with ⟨authorization, -, rfl⟩ | ⟨i, r, step, request, cache, receipts, -, -, -, rfl⟩
  · rfl
  · rfl

/-- A request keeps its place and its header. -/
theorem step_authorization {adminApiKey : Option String} {g next : GatewayState} {now : ℤ}
    {action : GatewayAction} (hstep : g.step adminApiKey now action = some next) {i : ℕ}
    {r : Request} (hr : g.requests[i]? = some r) :
    ∃ r', next.requests[i]? = some r' ∧ r'.authorization = r.authorization := by
  obtain ⟨-, hcases⟩ := step_cases hstep
  have hlt : i < g.requests.length := (List.getElem?_eq_some_iff.mp hr).1
  rcases hcases with ⟨authorization, -, rfl⟩ |
    ⟨j, other, step, request, cache, receipts, -, hother, heffect, rfl⟩
  · exact ⟨r, (List.getElem?_append_left hlt).trans hr, rfl⟩
  · by_cases hcase : j = i
    · subst hcase
      cases hr.symm.trans hother
      refine ⟨request, List.getElem?_set_self hlt, ?_⟩
      cases heffect <;> rfl
    · exact ⟨r, (List.getElem?_set_ne hcase).trans hr, rfl⟩

/-! ## The invariant -/

/-- The request's header holds this token, in the form the backend issues. -/
def Request.Bears (r : Request) (token : String) : Prop :=
  extractBearer r.authorization = some token ∧ looksLikeKey token = true

/-- The request's own call, if it made one, was answered with this verdict. -/
def Request.Agrees (r : Request) (ok : Bool) : Prop :=
  ∀ outcome ∈ r.outcome, outcome.body.map okOf = some ok

/-- What a phase says about its request at a clock reading. -/
def Request.Ok (r : Request) (clock : ℤ) : Prop :=
  match r.phase with
  | .looking token | .verifying token => r.Bears token ∧ r.outcome = none
  | .found token entry => r.Bears token ∧ r.outcome = none ∧ ∀ e ∈ entry, e.token = token
  | .caching e | .sweeping e =>
      r.Bears e.token ∧ r.Agrees e.verdict.ok ∧ e.verdict.fetchedAt = clock
  | .applying e _ =>
      r.Bears e.token ∧ r.Agrees e.verdict.ok ∧ clock - e.verdict.fetchedAt < e.verdict.ttl
  | .passed e _ time | .forwarded e _ time _ =>
      r.Bears e.token ∧ r.Agrees true ∧ e.verdict.ok = true ∧
        time - e.verdict.fetchedAt < seconds 60 ∧ e.verdict.fetchedAt ≤ time
  | .refused _ cached time => ∀ e ∈ cached, r.Bears e.token ∧ e.verdict.ok = false ∧
      time - e.verdict.fetchedAt < seconds 5 ∧ e.verdict.fetchedAt ≤ time

/-- The receipt an entry was made from. -/
def CacheEntry.receipt (entry : CacheEntry) : Receipt :=
  ⟨entry.source, entry.token, entry.verdict.fetchedAt, entry.verdict.ok⟩

structure Justified (g : GatewayState) : Prop where
  received : ∀ entry, g.Holds entry → entry.receipt ∈ g.receipts
  requests : ∀ r ∈ g.requests, r.Ok g.clock
  past : ∀ receipt ∈ g.receipts, receipt.time ≤ g.clock

theorem justified_initial (start : ℤ) : Justified (.initial start) where
  received entry hholds := by
    rcases hholds with hget | ⟨r, hmem, -⟩
    · rw [GatewayState.initial, KeyedMap.get_empty] at hget
      cases hget
    · cases hmem
  requests r hmem := by cases hmem
  past receipt hmem := by cases hmem

/-- What is said of a request at rest does not depend on the clock. -/
theorem Request.Ok.atRest {r : Request} {clock : ℤ} (hr : r.Ok clock) (hrest : r.phase.atRest)
    (now : ℤ) : r.Ok now := by
  unfold Request.Ok at hr ⊢
  cases hphase : r.phase with
  | verifying | passed | forwarded | refused => rw [hphase] at hr; exact hr
  | looking | found | caching | sweeping | applying => rw [hphase] at hrest; cases hrest

theorem Justified.advance {g : GatewayState} (hg : Justified g) {now : ℤ} (hallows : g.Allows now) :
    Justified { g with clock := now } := by
  rcases hallows with rfl | ⟨htime, hrest⟩
  · exact hg
  · refine ⟨hg.received, fun r hmem => ?_, fun receipt hmem => ?_⟩
    · exact (hg.requests r hmem).atRest (List.all_eq_true.mp hrest r hmem) now
    · exact (hg.past receipt hmem).trans htime.le

/-- The verdict of an answered call is stamped with the time of the answer. -/
theorem verifyWithMgmt_some {adminApiKey : Option String} {outcome : VerifyOutcome} {now : ℤ}
    {verdict : CachedAuth} (hverdict : verifyWithMgmt adminApiKey outcome now = some verdict) :
    verdict.fetchedAt = now ∧ outcome.body.map okOf = some verdict.ok := by
  unfold verifyWithMgmt at hverdict
  split at hverdict
  next => cases hverdict
  next =>
    obtain ⟨body, hbody, rfl⟩ := Option.map_eq_some_iff.mp hverdict
    exact ⟨rfl, by rw [hbody]; rfl⟩

theorem CachedAuth.ttl_pos (verdict : CachedAuth) : 0 < verdict.ttl := by
  unfold CachedAuth.ttl
  split <;> decide

/-- A step leaves its request in a phase that says the truth. -/
theorem StepEffect.requestOk {adminApiKey : Option String} {g : GatewayState} {now : ℤ} {i : ℕ}
    {r request : Request} {step : RequestStep} {cache : KeyedMap CacheEntry.token}
    {receipts : List Receipt} (hg : Justified { g with clock := now }) (hr : r ∈ g.requests)
    (heffect : StepEffect adminApiKey g now i r step request cache receipts) :
    request.Ok now := by
  have hok : r.Ok now := hg.requests r hr
  unfold Request.Ok at hok
  cases heffect with
  | lookup token hphase =>
      rw [hphase] at hok
      exact ⟨hok.1, hok.2, fun e he => KeyedMap.key_of_get he⟩
  | hit token entry hphase hfresh =>
      rw [hphase] at hok
      obtain ⟨hbears, hnone, htoken⟩ := hok
      refine ⟨(htoken entry rfl).symm ▸ hbears, fun outcome houtcome => ?_, ?_⟩
      · rw [hnone] at houtcome
        cases houtcome
      · simpa [CachedAuth.fresh] using hfresh
  | miss token entry hphase =>
      rw [hphase] at hok
      exact ⟨hok.1, hok.2.1⟩
  | unanswered token outcome hphase hnone => exact fun e he => by cases he
  | answered token outcome verdict hphase hverdict =>
      rw [hphase] at hok
      obtain ⟨hstamp, hagrees⟩ := verifyWithMgmt_some hverdict
      refine ⟨hok.1, fun other hother => ?_, hstamp⟩
      cases hother
      exact hagrees
  | insert entry hphase =>
      rw [hphase] at hok
      exact hok
  | sweep entry cache hphase =>
      rw [hphase] at hok
      obtain ⟨hbears, hagrees, hstamp⟩ := hok
      refine ⟨hbears, hagrees, ?_⟩
      rw [hstamp, sub_self]
      exact entry.verdict.ttl_pos
  | pass entry cached hphase hpositive =>
      have hpast := hg.past _ (hg.received entry (.inr ⟨r, hr, by rw [hphase]; rfl⟩))
      rw [hphase] at hok
      obtain ⟨hbears, hagrees, hfresh⟩ := hok
      rw [hpositive] at hagrees
      rw [CachedAuth.ttl, if_pos hpositive] at hfresh
      exact ⟨hbears, hagrees, hpositive, hfresh, hpast⟩
  | refuse entry cached hphase hnegative =>
      have hpast := hg.past _ (hg.received entry (.inr ⟨r, hr, by rw [hphase]; rfl⟩))
      rw [hphase] at hok
      obtain ⟨hbears, -, hfresh⟩ := hok
      rw [CachedAuth.ttl, if_neg (by simp [hnegative])] at hfresh
      intro e he
      cases cached with
      | true =>
          cases he
          exact ⟨hbears, hnegative, hfresh, hpast⟩
      | false => cases he
  | forward entry key passedAt hphase =>
      rw [hphase] at hok
      exact hok

theorem arrived_ok (authorization : Option String) (now : ℤ) :
    Request.Ok ⟨authorization, none, arrivedPhase authorization now⟩ now := by
  cases hbearer : extractBearer authorization with
  | none => simp [Request.Ok, arrivedPhase, hbearer]
  | some token =>
      cases hformed : looksLikeKey token <;>
        simp [Request.Ok, arrivedPhase, hbearer, hformed, Request.Bears]

theorem arrivedPhase_entry (authorization : Option String) (now : ℤ) :
    (arrivedPhase authorization now).held = none := by
  unfold arrivedPhase
  split
  next => rfl
  next => split <;> rfl

/-- A request that arrives brings no entry into use. -/
theorem GatewayState.Holds.of_arrive {g : GatewayState} {authorization : Option String} {now : ℤ}
    {entry : CacheEntry} (hholds : (g.arrive authorization now).Holds entry) : g.Holds entry := by
  rcases hholds with hget | ⟨r, hmem, hentry⟩
  · exact .inl hget
  · rcases List.mem_append.mp hmem with hold | hnew
    · exact .inr ⟨r, hold, hentry⟩
    · obtain rfl := List.mem_singleton.mp hnew
      rw [arrivedPhase_entry] at hentry
      cases hentry

theorem Justified.step {adminApiKey : Option String} {g next : GatewayState} {now : ℤ}
    {action : GatewayAction} (hg : Justified g)
    (hstep : g.step adminApiKey now action = some next) : Justified next := by
  obtain ⟨hallows, hcases⟩ := step_cases hstep
  have hnow := hg.advance hallows
  rcases hcases with ⟨authorization, -, rfl⟩ |
    ⟨i, r, step, request, cache, receipts, -, hr, heffect, rfl⟩
  · refine ⟨fun entry hholds => ?_, fun r hmem => ?_, hnow.past⟩
    · exact hnow.received entry hholds.of_arrive
    · rcases List.mem_append.mp hmem with hold | hnew
      · exact hnow.requests r hold
      · obtain rfl := List.mem_singleton.mp hnew
        exact arrived_ok authorization now
  · have hmem : r ∈ g.requests := List.mem_of_getElem? hr
    have hmore : ∀ receipt ∈ g.receipts, receipt ∈ receipts := by
      cases heffect <;> first | exact fun _ h => h | exact fun _ h => List.mem_cons_of_mem _ h
    refine ⟨fun entry hholds => ?_, fun other hother => ?_, fun receipt hreceipt => ?_⟩
    · rcases heffect.holds hmem hholds with
        hold | ⟨token, outcome, verdict, rfl, hphase, hverdict, rfl⟩
      · exact hmore _ (hnow.received entry hold)
      · -- the entry that was just received
        obtain ⟨hstamp, -⟩ := verifyWithMgmt_some hverdict
        cases heffect with
        | unanswered other _ hother hnone => cases hverdict.symm.trans hnone
        | answered other _ stored hother hstored =>
            cases hphase.symm.trans hother
            cases hverdict.symm.trans hstored
            exact List.mem_cons.mpr (.inl (by rw [CacheEntry.receipt, hstamp]))
    · rcases List.mem_or_eq_of_mem_set hother with hold | rfl
      · exact hnow.requests other hold
      · exact StepEffect.requestOk hnow hmem heffect
    · have hkept := hnow.past
      cases heffect with
      | answered token outcome verdict hphase hverdict =>
          rcases List.mem_cons.mp hreceipt with rfl | hold
          · exact le_rfl
          · exact hkept receipt hold
      | _ => exact hkept receipt hreceipt

theorem justified_of_reachable {adminApiKey : Option String} {g : GatewayState}
    (hreach : (gateway adminApiKey).Reachable g) : Justified g := by
  apply hreach.invariant
  · intro state hinit
    obtain ⟨start, rfl⟩ := hinit
    exact justified_initial start
  · intro state action next hg hstep
    exact hg.step hstep

/-! ## Who passes -/

/-- When the request was let through to its handler. -/
def Phase.passedAt? : Phase → Option ℤ
  | .passed _ _ time | .forwarded _ _ time _ => some time
  | _ => none

def Phase.isForwarded : Phase → Bool
  | .forwarded .. => true
  | _ => false

/-- When the request was refused on a verdict found in the cache. -/
def Phase.cacheRefusalAt? : Phase → Option ℤ
  | .refused _ (some _) time => some time
  | _ => none

/-- Without a token of the right form, or with an own call to the backend that
did not return a success with `ok` true. -/
def Request.Unproven (r : Request) : Prop :=
  (∀ token, ¬r.Bears token) ∨ ∃ outcome ∈ r.outcome, outcome.body.map okOf ≠ some true

section Requests

variable {g : GatewayState} (hg : Justified g) {r : Request} (hr : r ∈ g.requests)

include hg hr

theorem receipt_of_passed {token : String} {time : ℤ}
    (htoken : extractBearer r.authorization = some token) (htime : r.phase.passedAt? = some time) :
    ∃ receipt ∈ g.receipts, receipt.token = token ∧ receipt.ok = true ∧
      receipt.time ≤ time ∧ time - receipt.time < seconds 60 := by
  have hok := hg.requests r hr
  have hreceived : ∀ entry, r.phase.held = some entry → entry.receipt ∈ g.receipts :=
    fun entry hentry => hg.received entry (.inr ⟨r, hr, hentry⟩)
  unfold Request.Ok at hok
  cases hphase : r.phase with
  | passed entry key passedAt | forwarded entry key passedAt =>
      rw [hphase] at hok hreceived htime
      obtain ⟨hbears, -, hpositive, hfresh, hpast⟩ := hok
      cases htime
      cases hbears.1.symm.trans htoken
      exact ⟨entry.receipt, hreceived entry rfl, rfl, hpositive, hpast, hfresh⟩
  | _ =>
      rw [hphase] at htime
      cases htime

theorem not_forwarded_of_unproven (hunproven : r.Unproven) : r.phase.isForwarded = false := by
  have hok := hg.requests r hr
  unfold Request.Ok at hok
  cases hphase : r.phase with
  | forwarded entry key passedAt time =>
      rw [hphase] at hok
      obtain ⟨hbears, hagrees, -⟩ := hok
      rcases hunproven with hnone | ⟨outcome, houtcome, hnot⟩
      · exact absurd hbears (hnone entry.token)
      · exact absurd (hagrees outcome houtcome) hnot
  | _ => rfl

theorem receipt_of_cacheRefusal {token : String} {time : ℤ}
    (htoken : extractBearer r.authorization = some token)
    (htime : r.phase.cacheRefusalAt? = some time) :
    ∃ receipt ∈ g.receipts, receipt.token = token ∧ receipt.ok = false ∧
      receipt.time ≤ time ∧ time - receipt.time < seconds 5 := by
  have hok := hg.requests r hr
  unfold Request.Ok at hok
  cases hphase : r.phase with
  | refused refusal cached refusedAt =>
      rw [hphase] at hok htime
      cases cached with
      | none => cases htime
      | some entry =>
          have hreceived := hg.received entry (.inr ⟨r, hr, by rw [hphase]; rfl⟩)
          cases htime
          obtain ⟨hbears, hnegative, hfresh, hpast⟩ := hok entry rfl
          cases hbears.1.symm.trans htoken
          exact ⟨entry.receipt, hreceived, rfl, hnegative, hpast, hfresh⟩
  | _ =>
      rw [hphase] at htime
      cases htime

end Requests

/-- In every state of every run: a request passes only within 60 s after a
positive response for its token, an unproven one is not forwarded, and one is
refused from the cache only within 5 s after a negative response for its token. The
times are those of verdicts; a cached one is looked up at that same instant. -/
theorem v1_requests_justified {adminApiKey : Option String} {g : GatewayState}
    (hreach : (gateway adminApiKey).Reachable g) {r : Request} (hr : r ∈ g.requests) :
    (∀ token time, extractBearer r.authorization = some token → r.phase.passedAt? = some time →
      ∃ receipt ∈ g.receipts, receipt.token = token ∧ receipt.ok = true ∧
        receipt.time ≤ time ∧ time - receipt.time < seconds 60) ∧
    (r.Unproven → r.phase.isForwarded = false) ∧
    (∀ token time, extractBearer r.authorization = some token →
      r.phase.cacheRefusalAt? = some time →
      ∃ receipt ∈ g.receipts, receipt.token = token ∧ receipt.ok = false ∧
        receipt.time ≤ time ∧ time - receipt.time < seconds 5) := by
  have hg := justified_of_reachable hreach
  refine ⟨fun token time htoken htime => ?_, fun hunproven => ?_, fun token time htoken htime => ?_⟩
  · exact receipt_of_passed hg hr htoken htime
  · exact not_forwarded_of_unproven hg hr hunproven
  · exact receipt_of_cacheRefusal hg hr htoken htime

/-- The steps of a request that is not in the cache. -/
def fetched (i : ℕ) (time : ℤ) (outcome : VerifyOutcome) : List (ℤ × GatewayAction) :=
  [(time, .request i .lookup), (time, .request i .check), (time, .request i (.respond outcome)),
    (time, .request i .insert), (time, .request i .sweep), (time, .request i .applyVerdict)]

/-- The `Authorization` header of a token. -/
def bearer (token : String) : Option String := some ("Bearer " ++ token)

/-- A success that says whether the key is valid. -/
def verified (ok : Bool) : VerifyOutcome := .response 200 (some (.object [("ok", .bool ok)]))

/-- A second request passes on the first one's verdict 59 s later. -/
theorem passes_on_cached_verdict :
    ∃ g r, (gateway (some "admin")).exec (.initial 0)
        ((0, .arrive (bearer "mgc_0123456789ab")) :: fetched 0 0 (verified true) ++
          [(seconds 59, .arrive (bearer "mgc_0123456789ab")), (seconds 59, .request 1 .lookup),
            (seconds 59, .request 1 .check), (seconds 59, .request 1 .applyVerdict)]) = some g ∧
      r ∈ g.requests ∧ r.phase.passedAt? = some (seconds 59) ∧
      ∃ receipt ∈ g.receipts, receipt.token = "mgc_0123456789ab" ∧ receipt.ok = true ∧
        receipt.time ≤ seconds 59 ∧ seconds 59 - receipt.time < seconds 60 := by
  let entry : CacheEntry := ⟨"mgc_0123456789ab", ⟨true, none, none, none, 0⟩, 0⟩
  let second : Request := ⟨bearer "mgc_0123456789ab", none, .passed entry none (seconds 59)⟩
  let g : GatewayState := ⟨KeyedMap.empty.insert entry,
    [⟨bearer "mgc_0123456789ab", some (verified true), .passed entry none 0⟩, second], seconds 59,
    [⟨0, "mgc_0123456789ab", 0, true⟩]⟩
  have hrun : (gateway (some "admin")).exec (.initial 0)
      ((0, .arrive (bearer "mgc_0123456789ab")) :: fetched 0 0 (verified true) ++
        [(seconds 59, .arrive (bearer "mgc_0123456789ab")), (seconds 59, .request 1 .lookup),
          (seconds 59, .request 1 .check), (seconds 59, .request 1 .applyVerdict)]) = some g := rfl
  have hmem : second ∈ g.requests := List.mem_cons_of_mem _ (List.mem_singleton_self _)
  refine ⟨g, second, hrun, hmem, rfl, ?_⟩
  exact (v1_requests_justified (.exec (.init ⟨0, rfl⟩) hrun) hmem).1 _ (seconds 59) rfl rfl

end GpuCluster.Gateway
