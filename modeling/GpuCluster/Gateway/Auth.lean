import GpuCluster.Common.Clock
import GpuCluster.Foundation.Http
import GpuCluster.Foundation.KeyedMap
import GpuCluster.Foundation.Machine
import GpuCluster.Foundation.Text

/-! # Authentication of `/v1` requests at the gateway

`require_v1_api_key` asks the management backend about a token and shares the
verdicts of all requests in one cache. Each operation on the cache is a step of
its own, so steps of different requests interleave freely. Time passes only
while every request waits: for the backend's answer, for its body, or for
nothing any more.
-/

namespace GpuCluster.Gateway

open Common Foundation

/-! ## Verdicts -/

structure CachedAuth where
  ok : Bool
  keyId : Option String
  name : Option String
  scope : Option String
  fetchedAt : ℤ
  deriving DecidableEq

/-- Positive verdicts are kept longer than negative ones. -/
def CachedAuth.ttl (verdict : CachedAuth) : ℤ :=
  if verdict.ok then seconds 60 else seconds 5

def CachedAuth.fresh (verdict : CachedAuth) (now : ℤ) : Bool :=
  now - verdict.fetchedAt < verdict.ttl

/-- What becomes of a call to the backend: no response within the client's
limits, or a response, whose body may fail to parse. -/
inductive VerifyOutcome
  | failed (message : String)
  | response (status : ℕ) (body : Option Json)

/-- The body of a response that has a success status and parses. -/
def VerifyOutcome.body : VerifyOutcome → Option Json
  | .failed _ => none
  | .response status body => if 200 ≤ status ∧ status < 300 then body else none

/-- The `ok` of a body: anything but `true` is a refusal. -/
def okOf (body : Json) : Bool :=
  match body.get? "ok" with
  | some (.bool ok) => ok
  | _ => false

/-- The end of `verify_with_mgmt`, at the clock reading it makes. -/
def verifyWithMgmt (adminApiKey : Option String) (outcome : VerifyOutcome) (now : ℤ) :
    Option CachedAuth :=
  match adminApiKey with
  | none => none
  | some _ => outcome.body.map fun body => {
      ok := okOf body
      keyId := body.str? "key_id"
      name := body.str? "name"
      scope := body.str? "scope"
      fetchedAt := now }

/-- The token of an `Authorization` header. -/
def extractBearer (authorization : Option String) : Option String :=
  (((authorization.bind headerText).bind fun v =>
    (stripPrefix? "Bearer " v).or (stripPrefix? "bearer " v)).map trim).filter (· ≠ "")

/-- The structural check before any lookup. -/
def looksLikeKey (token : String) : Bool :=
  "mgc_".toList.isPrefixOf token.toList && 16 ≤ token.utf8ByteSize

/-! ## Requests -/

/-- A verdict under its token. `source` is the request that fetched it, which
the code does not record. -/
structure CacheEntry where
  token : String
  verdict : CachedAuth
  source : ℕ
  deriving DecidableEq

inductive Refusal
  | missingToken
  | malformedToken
  | invalidKey
  | backendUnreachable
  deriving DecidableEq

/-- Status and body of a refusal. -/
def Refusal.response : Refusal → ℕ × Json
  | .missingToken => (401, error "unauthorized" "missing Authorization: Bearer <token>")
  | .malformedToken => (401, error "unauthorized" "invalid api key format (expected mgc_*)")
  | .invalidKey => (401, error "unauthorized" "invalid or revoked api key")
  | .backendUnreachable => (503, error "service_unavailable" "auth backend unreachable")
where
  error (kind message : String) : Json := .object
    [("error", .string kind), ("message", .string message)]

/-- The identity that an accepted request carries on. -/
structure AuthedKey where
  keyId : String
  name : String
  scope : String
  deriving DecidableEq

/-- All three fields, or no identity. -/
def CachedAuth.authedKey (verdict : CachedAuth) : Option AuthedKey :=
  match verdict.keyId, verdict.name, verdict.scope with
  | some keyId, some name, some scope => some ⟨keyId, name, scope⟩
  | _, _, _ => none

/-- How far a request has come. A copy of a cache entry is taken first and
tested for freshness afterwards. -/
inductive Phase
  | looking (token : String)
  | found (token : String) (entry : Option CacheEntry)
  | verifying (token : String)
  | caching (entry : CacheEntry)
  | sweeping (entry : CacheEntry)
  | applying (entry : CacheEntry) (cached : Bool)
  | passed (entry : CacheEntry) (key : Option AuthedKey) (time : ℤ)
  | forwarded (entry : CacheEntry) (key : Option AuthedKey) (passedAt time : ℤ)
  | refused (refusal : Refusal) (cached : Option CacheEntry) (time : ℤ)

/-- The request waits for the network, or is finished. -/
def Phase.atRest : Phase → Bool
  | .verifying _ | .passed .. | .forwarded .. | .refused .. => true
  | _ => false

/-- The cache entry a request holds a copy of. -/
def Phase.held : Phase → Option CacheEntry
  | .found _ entry => entry
  | .caching entry | .sweeping entry | .applying entry _ | .passed entry .. |
    .forwarded entry .. => some entry
  | .refused _ cached _ => cached
  | .looking _ | .verifying _ => none

/-- A request's header, the outcome of its own call to the backend once there is
one, and its phase. -/
structure Request where
  authorization : Option String
  outcome : Option VerifyOutcome
  phase : Phase

/-- The phase of a request that just arrived. -/
def arrivedPhase (authorization : Option String) (now : ℤ) : Phase :=
  match extractBearer authorization with
  | none => .refused .missingToken none now
  | some token =>
      if looksLikeKey token then .looking token else .refused .malformedToken none now

/-- A verify response with a success status and a JSON body, as received. -/
structure Receipt where
  request : ℕ
  token : String
  time : ℤ
  ok : Bool
  deriving DecidableEq

/-! ## The gateway -/

/-- The cache, the requests in order of arrival, the last clock reading, and the
receipts so far, which the code does not record. -/
structure GatewayState where
  cache : KeyedMap CacheEntry.token
  requests : List Request
  clock : ℤ
  receipts : List Receipt

namespace GatewayState

def initial (start : ℤ) : GatewayState := ⟨.empty, [], start, []⟩

def setPhase (g : GatewayState) (i : ℕ) (r : Request) (phase : Phase) : GatewayState :=
  { g with requests := g.requests.set i { r with phase } }

def arrive (g : GatewayState) (authorization : Option String) (now : ℤ) : GatewayState :=
  { g with requests := g.requests ++ [⟨authorization, none, arrivedPhase authorization now⟩] }

/-- `auth_cache.get(&token)`, cloned. -/
def lookup (g : GatewayState) (i : ℕ) (r : Request) : Option GatewayState :=
  match r.phase with
  | .looking token => some (g.setPhase i r (.found token (g.cache.get token)))
  | _ => none

/-- The freshness test; a miss goes to the backend. -/
def check (g : GatewayState) (i : ℕ) (r : Request) (now : ℤ) : Option GatewayState :=
  match r.phase with
  | .found token (some entry) =>
      some (g.setPhase i r (if entry.verdict.fresh now then .applying entry true
        else .verifying token))
  | .found token none => some (g.setPhase i r (.verifying token))
  | _ => none

/-- The call to the backend ends. -/
def respond (g : GatewayState) (adminApiKey : Option String) (i : ℕ) (r : Request)
    (outcome : VerifyOutcome) (now : ℤ) : Option GatewayState :=
  match r.phase with
  | .verifying token =>
      let answered := { r with outcome := some outcome }
      match verifyWithMgmt adminApiKey outcome now with
      | none => some (g.setPhase i answered (.refused .backendUnreachable none now))
      | some verdict =>
          some { g.setPhase i answered (.caching ⟨token, verdict, i⟩) with
            receipts := ⟨i, token, now, verdict.ok⟩ :: g.receipts }
  | _ => none

/-- `auth_cache.insert`, which replaces what is there. -/
def insert (g : GatewayState) (i : ℕ) (r : Request) : Option GatewayState :=
  match r.phase with
  | .caching entry =>
      some { g.setPhase i r (.sweeping entry) with cache := g.cache.insert entry }
  | _ => none

/-- The eviction above 1024 entries. -/
def sweep (g : GatewayState) (i : ℕ) (r : Request) (now : ℤ) : Option GatewayState :=
  match r.phase with
  | .sweeping entry =>
      some { g.setPhase i r (.applying entry false) with
        cache := if 1024 < g.cache.list.length then g.cache.retain (·.verdict.fresh now)
          else g.cache }
  | _ => none

/-- `apply_verdict` up to `next.run`. -/
def applyVerdict (g : GatewayState) (i : ℕ) (r : Request) (now : ℤ) : Option GatewayState :=
  match r.phase with
  | .applying entry cached =>
      some (g.setPhase i r (if entry.verdict.ok then .passed entry entry.verdict.authedKey now
        else .refused .invalidKey (if cached then some entry else none) now))
  | _ => none

/-- The body has been read, and the request goes to its upstream. -/
def forward (g : GatewayState) (i : ℕ) (r : Request) (now : ℤ) : Option GatewayState :=
  match r.phase with
  | .passed entry key passedAt => some (g.setPhase i r (.forwarded entry key passedAt now))
  | _ => none

end GatewayState

/-- A step of one request. -/
inductive RequestStep
  | lookup
  | check
  | respond (outcome : VerifyOutcome)
  | insert
  | sweep
  | applyVerdict
  | forward

inductive GatewayAction
  | arrive (authorization : Option String)
  | request (i : ℕ) (step : RequestStep)

namespace GatewayState

def requestStep (g : GatewayState) (adminApiKey : Option String) (i : ℕ) (r : Request) (now : ℤ) :
    RequestStep → Option GatewayState
  | .lookup => g.lookup i r
  | .check => g.check i r now
  | .respond outcome => g.respond adminApiKey i r outcome now
  | .insert => g.insert i r
  | .sweep => g.sweep i r now
  | .applyVerdict => g.applyVerdict i r now
  | .forward => g.forward i r now

/-- Time does not pass while a request runs: it awaits nothing between a lookup, or the receipt
of a response, and its verdict, so these are one instant of the clock. -/
def Allows (g : GatewayState) (now : ℤ) : Prop :=
  g.clock = now ∨ g.clock < now ∧ g.requests.all (·.phase.atRest)

instance (g : GatewayState) (now : ℤ) : Decidable (g.Allows now) :=
  inferInstanceAs (Decidable (_ ∨ _ ∧ _))

def step (g : GatewayState) (adminApiKey : Option String) (now : ℤ) (action : GatewayAction) :
    Option GatewayState :=
  if g.Allows now then
    let g := { g with clock := now }
    match action with
    | .arrive authorization => some (g.arrive authorization now)
    | .request i step => (g.requests[i]?).bind fun r => g.requestStep adminApiKey i r now step
  else none

end GatewayState

/-- A gateway with its configured admin key. -/
def gateway (adminApiKey : Option String) : Machine GatewayState (ℤ × GatewayAction) where
  init g := ∃ start, g = .initial start
  step g action := g.step adminApiKey action.1 action.2

end GpuCluster.Gateway
