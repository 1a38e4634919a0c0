import GpuCluster.Gateway.AuthCache
import GpuCluster.Mgmt.KeyRevocation

/-! # Revocation seen through the gateway's cache

The gateway and the management backend side by side. The backend computes a
verify answer at one moment, the gateway receives it at a later one, and other
calls and requests run in between. The gateway dates a verdict by its receipt,
so how long a revoked key is still forwarded depends on the way of the answer.
-/

namespace GpuCluster.Cluster

open Common Foundation Gateway Mgmt

/-! ## The two services -/

/-- The answer to one request's call. `order` counts the answers before it and
`store` is the table it was computed from; neither is recorded. -/
structure KeyAnswer where
  request : ℕ
  token : String
  order : ℕ
  time : ℤ
  store : KeyStore
  response : VerifyResponse

/-- `answers` are the computed ones, on their way or received. -/
structure AuthSystem where
  gateway : GatewayState
  mgmt : KeyStore
  answers : KeyedMap KeyAnswer.request

/-- A call to the key handlers, the computing of an answer, its receipt, or a
step of the gateway. A lost answer is a step of the gateway too. -/
inductive AuthAction
  | key (call : KeyCall)
  | compute (i : ℕ) (rows : List ApiKeyRow) (touched : Bool)
  | receive (i : ℕ)
  | gateway (action : GatewayAction)

/-- The step brings no answer of the backend. -/
def answerless : GatewayAction → Bool
  | .request _ (.respond outcome) => outcome.body.isNone
  | _ => true

def KeyAnswer.outcome (answer : KeyAnswer) : VerifyOutcome :=
  .response 200 (some answer.response.json)

namespace AuthSystem

def initial (start : ℤ) : AuthSystem := ⟨.initial start, .initial start, .empty⟩

/-- Both services read the same time. -/
def setClock (s : AuthSystem) (now : ℤ) : AuthSystem :=
  { s with gateway := { s.gateway with clock := now }, mgmt := { s.mgmt with clock := now } }

/-- The generator of tokens does not repeat itself. -/
def key (s : AuthSystem) (argon : Argon2) (now : ℤ) (call : KeyCall) : Option AuthSystem :=
  (s.mgmt.call argon now call).bind fun mgmt =>
    if (mintedTokens mgmt.events).Nodup then some { s with mgmt } else none

/-- The token a request waits for a verdict on. -/
def waitsFor (s : AuthSystem) (i : ℕ) : Option String :=
  (s.gateway.requests[i]?).bind fun r =>
    match r.phase with
    | .verifying token => some token
    | _ => none

/-- The backend answers a call of the gateway, which is made with the admin key. -/
def compute (s : AuthSystem) (argon : Argon2) (adminApiKey : Option String) (now : ℤ) (i : ℕ)
    (rows : List ApiKeyRow) (touched : Bool) : Option AuthSystem :=
  if adminApiKey.isSome ∧ (s.answers.get i).isNone then
    (s.waitsFor i).bind fun token =>
      (s.mgmt.call argon now (.verify token rows touched)).map fun mgmt =>
        let answer : KeyAnswer := {
          request := i
          token
          order := s.answers.list.length
          time := now
          store := s.mgmt
          response := verify argon rows now token }
        { s with mgmt, answers := s.answers.insert answer }
  else none

def gatewayStep (s : AuthSystem) (adminApiKey : Option String) (now : ℤ) (action : GatewayAction) :
    Option AuthSystem :=
  (s.gateway.step adminApiKey now action).map fun gateway => { s with gateway }

def step (s : AuthSystem) (argon : Argon2) (adminApiKey : Option String) (now : ℤ)
    (action : AuthAction) : Option AuthSystem :=
  if s.gateway.Allows now then
    let s := s.setClock now
    match action with
    | .key call => s.key argon now call
    | .compute i rows touched => s.compute argon adminApiKey now i rows touched
    | .receive i => (s.answers.get i).bind fun answer =>
        s.gatewayStep adminApiKey now (.request i (.respond answer.outcome))
    | .gateway action => if answerless action then s.gatewayStep adminApiKey now action else none
  else none

end AuthSystem

/-- A call changes the keys, an answer is computed from the current table, or
the gateway makes a step, in which it takes no answer but the computed one. -/
inductive AuthMove (argon : Argon2) (adminApiKey : Option String) (now : ℤ) (s : AuthSystem) :
    AuthSystem → Prop
  | key (mgmt : KeyStore) (hmove : KeyMove argon now s.mgmt mgmt)
      (hdistinct : (mintedTokens mgmt.events).Nodup) :
      AuthMove argon adminApiKey now s ⟨{ s.gateway with clock := now }, mgmt, s.answers⟩
  | computed (i : ℕ) (r : Request) (token : String) (mgmt : KeyStore)
      (rows : List ApiKeyRow) (hr : s.gateway.requests[i]? = some r)
      (hphase : r.phase = .verifying token) (hnew : s.answers.get i = none)
      (hmove : KeyMove argon now s.mgmt mgmt) (hevents : mgmt.events = s.mgmt.events)
      (hrows : rows.Perm (candidates s.mgmt.keys (storedPrefixOf (trim token)))) :
      AuthMove argon adminApiKey now s ⟨{ s.gateway with clock := now }, mgmt,
        s.answers.insert ⟨i, token, s.answers.list.length, now, { s.mgmt with clock := now },
          verify argon rows now token⟩⟩
  | gateway (action : GatewayAction) (gateway : GatewayState)
      (hstep : { s.gateway with clock := now }.step adminApiKey now action = some gateway)
      (hanswer : ∀ i outcome body, action = .request i (.respond outcome) →
        outcome.body = some body →
        ∃ answer, s.answers.get i = some answer ∧ body = answer.response.json) :
      AuthMove argon adminApiKey now s ⟨gateway, { s.mgmt with clock := now }, s.answers⟩

/-- What is known of a computed answer: which request asked, and that the token
was ended after it if the answer is positive. -/
structure AuthSystem.Explains (s : AuthSystem) (answer : KeyAnswer) : Prop where
  asked : ∃ r, s.gateway.requests[answer.request]? = some r ∧
    extractBearer r.authorization = some answer.token
  past : answer.time ≤ s.gateway.clock
  usable : answer.response.ok = true ↔ answer.store.Usable answer.token answer.time
  unended : answer.response.ok = true → ∀ time, EndedAt s.mgmt.events answer.token time →
    answer.time ≤ time

structure Consistent (argon : Argon2) (s : AuthSystem) : Prop where
  justified : Justified s.gateway
  sound : Sound argon s.mgmt
  final : EndsFinally s.mgmt
  distinct : (mintedTokens s.mgmt.events).Nodup
  clock : s.mgmt.clock = s.gateway.clock
  answers : ∀ i answer, s.answers.get i = some answer → s.Explains answer
  verdicts : ∀ entry, s.gateway.Holds entry → ∃ answer, s.answers.get entry.source = some answer ∧
    answer.token = entry.token ∧ answer.response.ok = entry.verdict.ok

theorem consistent_initial (argon : Argon2) (start : ℤ) : Consistent argon (.initial start) where
  justified := justified_initial start
  sound := sound_initial argon start
  final := endsFinally_initial start
  distinct := List.nodup_nil
  clock := rfl
  answers i answer hget := by
    rw [AuthSystem.initial, KeyedMap.get_empty] at hget
    cases hget
  verdicts entry hholds := by
    have hnone := (justified_initial start).received entry hholds
    cases hnone

/-- An explained answer stays explained when later events are later. -/
theorem AuthSystem.Explains.mono {s next : AuthSystem} {answer : KeyAnswer}
    (hexplains : s.Explains answer)
    (hrequests : ∀ (i : ℕ) (r : Request), s.gateway.requests[i]? = some r →
      ∃ r' : Request, next.gateway.requests[i]? = some r' ∧ r'.authorization = r.authorization)
    (hclock : s.gateway.clock ≤ next.gateway.clock)
    (hevents : ∀ token time, EndedAt next.mgmt.events token time →
      s.gateway.clock ≤ time ∨ EndedAt s.mgmt.events token time) : next.Explains answer where
  asked := by
    obtain ⟨r, hr, hbearer⟩ := hexplains.asked
    obtain ⟨r', hr', hsame⟩ := hrequests _ r hr
    exact ⟨r', hr', hsame ▸ hbearer⟩
  past := hexplains.past.trans hclock
  usable := hexplains.usable
  unended := by
    intro hok time hended
    rcases hevents _ time hended with hlate | hold
    · exact hexplains.past.trans hlate
    · exact hexplains.unended hok time hold

/-- The backend reads its own answer's verdict back. -/
theorem okOf_json (response : VerifyResponse) : okOf response.json = response.ok := rfl

theorem extractBearer_trimmed {authorization : Option String} {token : String}
    (hbearer : extractBearer authorization = some token) : trim token = token := by
  obtain ⟨hmapped, -⟩ := Option.filter_eq_some_iff.mp hbearer
  obtain ⟨text, -, rfl⟩ := Option.map_eq_some_iff.mp hmapped
  exact trim_trim text

theorem Allows_le {g : GatewayState} {now : ℤ} (hallows : g.Allows now) : g.clock ≤ now := by
  rcases hallows with rfl | ⟨htime, -⟩
  · exact le_rfl
  · exact htime.le

/-- The gateway holds no verdict but those of the answers it had before, and the
one of the answer it takes. -/
theorem gatewayVerdicts {adminApiKey : Option String} {g next : GatewayState} {now : ℤ}
    {action : GatewayAction} {answers : KeyedMap KeyAnswer.request} (hg : Justified g)
    (hasked : ∀ i answer, answers.get i = some answer → ∃ r, g.requests[i]? = some r ∧
      extractBearer r.authorization = some answer.token)
    (hverdicts : ∀ entry, g.Holds entry → ∃ answer, answers.get entry.source = some answer ∧
      answer.token = entry.token ∧ answer.response.ok = entry.verdict.ok)
    (hanswer : ∀ i outcome body, action = .request i (.respond outcome) →
      outcome.body = some body →
      ∃ answer, answers.get i = some answer ∧ body = answer.response.json)
    (hstep : g.step adminApiKey now action = some next) {entry : CacheEntry}
    (hholds : next.Holds entry) :
    ∃ answer, answers.get entry.source = some answer ∧ answer.token = entry.token ∧
      answer.response.ok = entry.verdict.ok := by
  obtain ⟨-, hcases⟩ := step_cases hstep
  rcases hcases with ⟨authorization, -, rfl⟩ |
    ⟨i, r, step, request, cache, receipts, rfl, hr, heffect, rfl⟩
  · exact hverdicts entry hholds.of_arrive
  · rcases heffect.holds (List.mem_of_getElem? hr) hholds with
      hold | ⟨token, outcome, verdict, rfl, hphase, hverdict, rfl⟩
    · exact hverdicts entry hold
    · obtain ⟨-, hok⟩ := verifyWithMgmt_some hverdict
      obtain ⟨body, hbody, hbodyOk⟩ := Option.map_eq_some_iff.mp hok
      obtain ⟨answer, hget, rfl⟩ := hanswer i outcome body rfl hbody
      -- the answer was computed for the token the request bears
      obtain ⟨asking, hasking, hbearer⟩ := hasked i answer hget
      cases hasking.symm.trans hr
      have hbears := hg.requests r (List.mem_of_getElem? hr)
      rw [Request.Ok, hphase] at hbears
      cases hbears.1.1.symm.trans hbearer
      exact ⟨answer, hget, rfl, (okOf_json answer.response).symm.trans hbodyOk⟩

/-- An answer says whether the token can be used, and so comes before its end. -/
theorem explains_computed {argon : Argon2} (hexact : argon.Exact) {s : AuthSystem} {now : ℤ}
    (hs : Consistent argon s) {i order : ℕ} {r : Request} {token : String} {mgmt : KeyStore}
    {rows : List ApiKeyRow}
    (hr : s.gateway.requests[i]? = some r) (hphase : r.phase = .verifying token)
    (hevents : mgmt.events = s.mgmt.events)
    (hrows : rows.Perm (candidates s.mgmt.keys (storedPrefixOf (trim token)))) :
    AuthSystem.Explains ⟨{ s.gateway with clock := now }, mgmt,
        s.answers.insert ⟨i, token, order, now, { s.mgmt with clock := now },
          verify argon rows now token⟩⟩
      ⟨i, token, order, now, { s.mgmt with clock := now }, verify argon rows now token⟩ := by
  have hbears : r.Bears token := by
    have hok := hs.justified.requests r (List.mem_of_getElem? hr)
    rw [Request.Ok, hphase] at hok
    exact hok.1
  have htrim : trim token = token := extractBearer_trimmed hbears.1
  have husable : (verify argon rows now token).ok = true ↔ s.mgmt.Usable (trim token) now :=
    verify_ok_iff hexact hs.sound hrows hs.distinct
  have hnot : (verify argon rows now token).ok = true →
      ∀ time, ¬EndedAt s.mgmt.events (trim token) time :=
    verify_refuses_ended hexact hs.sound hs.final hrows
  rw [htrim] at husable hnot
  generalize verify argon rows now token = response at husable hnot ⊢
  refine ⟨⟨r, hr, hbears.1⟩, le_rfl, husable, fun hok time hended => ?_⟩
  -- an accepted token was not ended yet
  rw [hevents] at hended
  exact absurd hended (hnot hok time)

theorem Consistent.move {argon : Argon2} (hexact : argon.Exact) {adminApiKey : Option String}
    {s next : AuthSystem} {now : ℤ} (hs : Consistent argon s) (hallows : s.gateway.Allows now)
    (hmove : AuthMove argon adminApiKey now s next) : Consistent argon next := by
  have hlater : s.gateway.clock ≤ now := Allows_le hallows
  have hadvanced : Justified { s.gateway with clock := now } := hs.justified.advance hallows
  have hpast : s.mgmt.clock ≤ now := hs.clock.trans_le hlater
  cases hmove with
  | key mgmt hmove hdistinct =>
      refine ⟨hadvanced, hs.sound.move hmove, hs.final.move hs.sound hpast hmove hdistinct,
        hdistinct, hmove.clock, fun i answer hget => ?_, hs.verdicts⟩
      refine (hs.answers i answer hget).mono (fun j r hr => ⟨r, hr, rfl⟩) hlater
        (fun token time hended => ?_)
      rcases hmove.endedAt hended with rfl | hold
      · exact .inl hlater
      · exact .inr hold
  | computed i r token mgmt rows hr hphase hnew hmove hevents hrows =>
      have hdistinct : (mintedTokens mgmt.events).Nodup := hevents ▸ hs.distinct
      refine ⟨hadvanced, hs.sound.move hmove, hs.final.move hs.sound hpast hmove hdistinct,
        hdistinct, hmove.clock, fun j answer hget => ?_, fun entry hholds => ?_⟩
      · rw [KeyedMap.get_insert] at hget
        split at hget
        next =>
          cases hget
          exact explains_computed hexact hs hr hphase hevents hrows
        next =>
          refine (hs.answers j answer hget).mono (fun j r hr => ⟨r, hr, rfl⟩) hlater
            (fun token time hended => ?_)
          rw [hevents] at hended
          exact .inr hended
      · obtain ⟨answer, hget, hrest⟩ := hs.verdicts entry hholds
        have hne : entry.source ≠ i := by
          intro hcase
          rw [hcase, hnew] at hget
          cases hget
        exact ⟨answer, (s.answers.get_insert_ne _ hne).trans hget, hrest⟩
  | gateway action gateway hstep hanswer =>
      have hclock : gateway.clock = now := step_clock hstep
      refine ⟨hadvanced.step hstep, hs.sound.move .kept,
        hs.final.move hs.sound hpast .kept hs.distinct, hs.distinct, hclock.symm,
        fun i answer hget => ?_, fun entry hholds => ?_⟩
      · exact (hs.answers i answer hget).mono (fun j r hr => step_authorization hstep hr)
          (hlater.trans hclock.ge) (fun token time hended => .inr hended)
      · exact gatewayVerdicts hadvanced (fun i answer hget => by
          have hasked := (hs.answers i answer hget).asked
          rwa [KeyedMap.key_of_get hget] at hasked) hs.verdicts hanswer hstep hholds

/-! ## Answers in order -/

/-- The tokens of a table are distinct, and its ended keys stay ended. -/
structure KeyStoreFinal (s : KeyStore) : Prop where
  distinct : (mintedTokens s.events).Nodup
  final : EndsFinally s

/-- The order of the answers is that of the tables they were computed from: a key that
one answer accepts is there for the later ones, unless it was ended. -/
structure AuthSystem.Ordered (s : AuthSystem) : Prop where
  orders : ∀ i answer, s.answers.get i = some answer → answer.order < s.answers.list.length
  stores : ∀ i answer, s.answers.get i = some answer → KeyStoreFinal answer.store
  current : ∀ i answer, s.answers.get i = some answer → answer.response.ok = true →
    s.mgmt.KeepsOrEnds answer.token
  later : ∀ i answer j later, s.answers.get i = some answer → s.answers.get j = some later →
    answer.order < later.order → answer.response.ok = true →
    later.store.KeepsOrEnds answer.token

/-- A new answer is the last one so far. -/
theorem AuthSystem.Ordered.insert {s : AuthSystem} (hs : s.Ordered) {answer : KeyAnswer}
    {gateway : GatewayState} {mgmt : KeyStore} (hnew : s.answers.get answer.request = none)
    (horder : answer.order = s.answers.list.length) (hstore : KeyStoreFinal answer.store)
    (hstored : ∀ token, s.mgmt.KeepsOrEnds token → answer.store.KeepsOrEnds token)
    (hkept : ∀ token, s.mgmt.KeepsOrEnds token → mgmt.KeepsOrEnds token)
    (hlive : answer.response.ok = true → mgmt.KeepsOrEnds answer.token) :
    AuthSystem.Ordered ⟨gateway, mgmt, s.answers.insert answer⟩ := by
  have hlength : (s.answers.insert answer).list.length = s.answers.list.length + 1 := by
    rw [KeyedMap.list_insert_of_get_none hnew, List.length_cons]
  refine ⟨fun i other hget => ?_, fun i other hget => ?_, fun i other hget hok => ?_,
    fun i other j later hget hlater hbefore hok => ?_⟩
  · rw [hlength]
    rcases KeyedMap.get_insert_eq_some.mp hget with ⟨-, rfl⟩ | ⟨-, hold⟩
    · rw [horder]
      exact Nat.lt_succ_self _
    · exact (hs.orders i other hold).trans (Nat.lt_succ_self _)
  · rcases KeyedMap.get_insert_eq_some.mp hget with ⟨-, rfl⟩ | ⟨-, hold⟩
    · exact hstore
    · exact hs.stores i other hold
  · rcases KeyedMap.get_insert_eq_some.mp hget with ⟨-, rfl⟩ | ⟨-, hold⟩
    · exact hlive hok
    · exact hkept _ (hs.current i other hold hok)
  · rcases KeyedMap.get_insert_eq_some.mp hlater with ⟨-, rfl⟩ | ⟨-, hlaterOld⟩
    · rcases KeyedMap.get_insert_eq_some.mp hget with ⟨-, rfl⟩ | ⟨-, hold⟩
      · exact absurd hbefore (Nat.lt_irrefl _)
      · exact hstored _ (hs.current i other hold hok)
    · rcases KeyedMap.get_insert_eq_some.mp hget with ⟨-, rfl⟩ | ⟨-, hold⟩
      · have hlast := hs.orders j later hlaterOld
        omega
      · exact hs.later i other j later hold hlaterOld hbefore hok

theorem AuthSystem.Ordered.move {argon : Argon2} (hexact : argon.Exact)
    {adminApiKey : Option String} {s next : AuthSystem} {now : ℤ} (hs : Consistent argon s)
    (hordered : s.Ordered) (hallows : s.gateway.Allows now)
    (hmove : AuthMove argon adminApiKey now s next) : next.Ordered := by
  have hpast : s.mgmt.clock ≤ now := hs.clock.trans_le (Allows_le hallows)
  cases hmove with
  | key mgmt hkeys hdistinct =>
      exact ⟨hordered.orders, hordered.stores,
        fun i answer hget hok => hkeys.keepsOrEnds (hordered.current i answer hget hok),
        hordered.later⟩
  | computed i r token mgmt rows hr hphase hnew hkeys hevents hrows =>
      have hfinal : EndsFinally { s.mgmt with clock := now } :=
        hs.final.move hs.sound hpast .kept hs.distinct
      have hexplains := @explains_computed _ hexact _ now hs _ s.answers.list.length _ _ _ _ hr
        hphase hevents hrows
      refine hordered.insert hnew rfl ⟨hs.distinct, hfinal⟩ (fun _ hkept => hkept)
        (fun _ hkept => hkeys.keepsOrEnds hkept) fun hok => ?_
      exact hkeys.keepsOrEnds (hexplains.usable.mp hok).keepsOrEnds
  | gateway action gateway hstep hanswer =>
      exact ⟨hordered.orders, hordered.stores, hordered.current, hordered.later⟩

section Steps

variable {argon : Argon2} {adminApiKey : Option String} {s next : AuthSystem} {now : ℤ} {i : ℕ}
  (hs : Consistent argon s)

include hs

end Steps

def leakedToken : String := tokenOf (.replicate 32 0)

/-- The request arrives and looks its token up. -/
def asks (i : ℕ) (time : ℤ) : List (ℤ × AuthAction) :=
  [(time, .gateway (.arrive (bearer leakedToken))), (time, .gateway (.request i .lookup)),
    (time, .gateway (.request i .check))]

/-- The answer is received and, after the insert, applied. -/
def applies (i : ℕ) (time : ℤ) : List (ℤ × AuthAction) :=
  [(time, .gateway (.request i .sweep)), (time, .gateway (.request i .applyVerdict))]

end GpuCluster.Cluster
