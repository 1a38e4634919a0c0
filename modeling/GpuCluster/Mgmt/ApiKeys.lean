import GpuCluster.Common.Clock
import GpuCluster.Foundation.Machine
import GpuCluster.Foundation.Text
import GpuCluster.Mgmt.ApiError
import GpuCluster.Mgmt.Database

/-! # Customer API keys

The handlers of `/api/v1/keys`. A token is shown once, at its creation; the
table keeps a slow hash of it and its first twelve characters. `verify` finds
the rows with the prefix of the presented text and tries the hash of each one
that is neither revoked nor expired.
-/

namespace GpuCluster.Mgmt

open Common Foundation

/-- A row of `api_keys`. Keys minted by an admin belong to no user. -/
structure ApiKeyRow where
  id : String
  hash : String
  scope : String
  name : String
  storedPrefix : String
  createdAt : ℤ
  lastUsedAt : Option ℤ
  expiresAt : Option ℤ
  revokedAt : Option ℤ
  deriving DecidableEq

/-- The table, by its primary key. -/
abbrev ApiKeyTable := KeyedMap ApiKeyRow.id

/-- The password hashing library: a salted hash in its text form, the parser of
that form, and the comparison with a password. -/
structure Argon2 where
  Phc : Type
  hashPassword : String → String → Except String String
  parse : String → Option Phc
  verifyPassword : String → Phc → Bool

/-- A hash is accepted with the password it was made from and with no other. -/
def Argon2.Exact (argon : Argon2) : Prop :=
  ∀ token salt hash, argon.hashPassword token salt = .ok hash →
    ∃ phc, argon.parse hash = some phc ∧
      ∀ other, argon.verifyPassword other phc = true ↔ other = token

def tokenPrefix : String := "mgc_"

def storedPrefixLen : ℕ := 12

/-- The part of a token that its row keeps in clear. -/
def storedPrefixOf (token : String) : String := takeChars storedPrefixLen token

/-! ## Creation -/

structure CreateKeyRequest where
  name : String
  scope : Option String
  ttlSecs : Option Int64

/-- What a creation draws: 32 random bytes unless the generator fails, a salt,
and an id. -/
structure Mint where
  bytes : Option (Vector UInt8 32)
  salt : String
  id : String

/-- The token made of random bytes. -/
def tokenOf (bytes : Vector UInt8 32) : String :=
  .ofList (tokenPrefix.toList ++ base64Url bytes.toList)

structure CreateKeyResponse where
  id : String
  token : String
  storedPrefix : String
  name : String
  scope : String
  expiresAt : Option ℤ
  deriving DecidableEq

def validateScope (scope : String) : Except ApiError Unit :=
  if scope ∈ ["inference", "admin"] then .ok ()
  else .error (.badRequest "scope must be 'inference' or 'admin'")

/-- The expiry of a positive lifetime, which is kept between a minute and a year. -/
def expiryOf (now : ℤ) (ttlSecs : Option Int64) : Option ℤ :=
  (ttlSecs.filter (0 < ·)).map fun n => now + seconds (max 60 (min n.toInt (365 * 24 * 3600)))

/-- `create`. `violation` is the database's text when the id is taken. -/
def createKey (argon : Argon2) (keys : ApiKeyTable) (now : ℤ) (mint : Mint) (violation : String)
    (req : CreateKeyRequest) : Except ApiError (CreateKeyResponse × ApiKeyTable) := do
  let name := trim req.name
  if name = "" then throw (.badRequest "name must not be empty")
  let scope := req.scope.getD "inference"
  validateScope scope
  let some bytes := mint.bytes | throw (.internal "rng failed")
  let token := tokenOf bytes
  let storedPrefix := storedPrefixOf token
  let hash ← (argon.hashPassword token mint.salt).mapError fun e => .internal ("argon2: " ++ e)
  let expiresAt := expiryOf now req.ttlSecs
  if (keys.get mint.id).isSome then throw (.internal violation)
  let row : ApiKeyRow := {
    id := mint.id
    hash, scope, name, storedPrefix, expiresAt
    createdAt := now
    lastUsedAt := none
    revokedAt := none }
  return ({ id := mint.id, token, storedPrefix, name, scope, expiresAt }, keys.insert row)

def createKeyAudit (created : CreateKeyResponse) : AuditRow where
  actor := "admin"
  action := "API_KEY_CREATED"
  resource := created.id
  details := some (.object
    [("name", .string created.name), ("scope", .string created.scope),
      ("prefix", .string created.storedPrefix)])

/-! ## Revocation, update and deletion -/

/-- `revoke`: `UPDATE … WHERE id = $1 AND revoked_at IS NULL`. -/
def revokeKey (keys : ApiKeyTable) (now : ℤ) (id : String) : Except ApiError ApiKeyTable :=
  match keys.get id with
  | some row =>
      if row.revokedAt = none then .ok (keys.insert { row with revokedAt := some now })
      else .error .notFound
  | none => .error .notFound

/-- `ttlSecs` is absent, clears the expiry, or replaces it. -/
structure UpdateKeyRequest where
  name : Option String
  scope : Option String
  ttlSecs : Option (Option Int64)

def UpdateKeyRequest.validate (req : UpdateKeyRequest) : Except ApiError Unit := do
  if let some name := req.name then
    if trim name = "" then throw (.badRequest "name must not be empty")
  if let some scope := req.scope then validateScope scope

/-- The statement's `SET`. -/
def UpdateKeyRequest.set (req : UpdateKeyRequest) (now : ℤ) (row : ApiKeyRow) : ApiKeyRow :=
  { row with
    name := req.name.getD row.name
    scope := req.scope.getD row.scope
    expiresAt := match req.ttlSecs with
      | some ttlSecs => expiryOf now ttlSecs
      | none => row.expiresAt }

def updateKey (keys : ApiKeyTable) (now : ℤ) (id : String) (req : UpdateKeyRequest) :
    Except ApiError (ApiKeyRow × ApiKeyTable) := do
  req.validate
  match keys.get id with
  | some row => return (req.set now row, keys.insert (req.set now row))
  | none => throw .notFound

def updateKeyAudit (id : String) (req : UpdateKeyRequest) : AuditRow where
  actor := "admin"
  action := "API_KEY_UPDATED"
  resource := id
  details := some (.object
    [("name", .ofOption Json.string req.name), ("scope", .ofOption Json.string req.scope),
      ("ttl_secs", .ofOption (.ofOption Json.ofI64) req.ttlSecs)])

def purgeKey (keys : ApiKeyTable) (id : String) : Except ApiError ApiKeyTable :=
  match keys.get id with
  | some _ => .ok (keys.erase id)
  | none => .error .notFound

def keyAudit (action id : String) : AuditRow where
  actor := "admin"
  action := action
  resource := id

/-! ## Verification -/

structure VerifyResponse where
  ok : Bool
  keyId : Option String
  name : Option String
  scope : Option String
  deriving DecidableEq

def VerifyResponse.refused : VerifyResponse := ⟨false, none, none, none⟩

/-- The fields of an accepted key. -/
def VerifyResponse.ofRow (row : ApiKeyRow) : VerifyResponse :=
  ⟨true, some row.id, some row.name, some row.scope⟩

def VerifyResponse.json (response : VerifyResponse) : Json := .object
  [("ok", .bool response.ok), ("key_id", .ofOption Json.string response.keyId),
    ("name", .ofOption Json.string response.name), ("scope", .ofOption Json.string response.scope)]

/-- The loop over the candidates: the first one that is not skipped and whose
hash accepts the token. -/
def firstMatch (argon : Argon2) (token : String) (now : ℤ) : List ApiKeyRow → Option ApiKeyRow
  | [] => none
  | c :: rest =>
      if c.revokedAt.isSome then firstMatch argon token now rest
      else if c.expiresAt.any (· < now) then firstMatch argon token now rest
      else match argon.parse c.hash with
        | none => firstMatch argon token now rest
        | some phc =>
            if argon.verifyPassword token phc then some c else firstMatch argon token now rest

/-- The structural check that every minted token passes. -/
def wellFormedToken (token : String) : Bool :=
  tokenPrefix.toList.isPrefixOf token.toList && storedPrefixLen + 4 ≤ token.utf8ByteSize

/-- The rows of `SELECT … WHERE prefix = $1`, which come in any order. -/
def candidates (keys : ApiKeyTable) (storedPrefix : String) : List ApiKeyRow :=
  keys.list.filter (·.storedPrefix = storedPrefix)

/-- The row `verify` accepts, if any; `rows` is the answer to its query. -/
def verifiedRow (argon : Argon2) (rows : List ApiKeyRow) (now : ℤ) (text : String) :
    Option ApiKeyRow :=
  if wellFormedToken (trim text) then firstMatch argon (trim text) now rows else none

def verify (argon : Argon2) (rows : List ApiKeyRow) (now : ℤ) (text : String) : VerifyResponse :=
  match verifiedRow argon rows now text with
  | some row => .ofRow row
  | none => .refused

/-- The best-effort `UPDATE` of `last_used_at` after an acceptance. -/
def touch (keys : ApiKeyTable) (now : ℤ) (row : ApiKeyRow) : ApiKeyTable :=
  keys.modify row.id fun stored => { stored with lastUsedAt := some now }

/-! ## Runs -/

/-- What the calls so far did to keys, newest first. -/
inductive KeyEvent
  | created (time : ℤ) (id token : String)
  | revoked (time : ℤ) (id : String)
  | purged (time : ℤ) (id : String)
  deriving DecidableEq

/-- The table, the audit log, the last clock reading, and the events, which no
handler reads. -/
structure KeyStore where
  keys : ApiKeyTable
  auditLog : List AuditRow
  clock : ℤ
  events : List KeyEvent

/-- A call of one of the handlers. The audit entry and the touch are
best-effort; `audited` and `touched` tell whether they succeed. `rows` is the
answer to the query of `verify`. -/
inductive KeyCall
  | create (mint : Mint) (violation : String) (req : CreateKeyRequest) (audited : Bool)
  | update (id : String) (req : UpdateKeyRequest) (audited : Bool)
  | revoke (id : String) (audited : Bool)
  | delete (id : String) (purge : Bool) (audited : Bool)
  | verify (text : String) (rows : List ApiKeyRow) (touched : Bool)

namespace KeyStore

def initial (start : ℤ) : KeyStore := ⟨.empty, [], start, []⟩

/-- A statement on the table and the audit entry after it. -/
def put (s : KeyStore) (keys : ApiKeyTable) (audited : Bool) (audit : AuditRow)
    (events : List KeyEvent) : KeyStore :=
  { s with
    keys
    auditLog := s.auditLog ++ if audited then [audit] else []
    events := events ++ s.events }

def create (s : KeyStore) (argon : Argon2) (now : ℤ) (mint : Mint) (violation : String)
    (req : CreateKeyRequest) (audited : Bool) : KeyStore :=
  match createKey argon s.keys now mint violation req with
  | .ok (created, keys) =>
      s.put keys audited (createKeyAudit created) [.created now created.id created.token]
  | .error _ => s

def update (s : KeyStore) (now : ℤ) (id : String) (req : UpdateKeyRequest) (audited : Bool) :
    KeyStore :=
  match updateKey s.keys now id req with
  | .ok (_, keys) => s.put keys audited (updateKeyAudit id req) []
  | .error _ => s

def revoke (s : KeyStore) (now : ℤ) (id : String) (audited : Bool) : KeyStore :=
  match revokeKey s.keys now id with
  | .ok keys => s.put keys audited (keyAudit "API_KEY_REVOKED" id) [.revoked now id]
  | .error _ => s

def delete (s : KeyStore) (now : ℤ) (id : String) (purge audited : Bool) : KeyStore :=
  if purge then
    match purgeKey s.keys id with
    | .ok keys => s.put keys audited (keyAudit "API_KEY_PURGED" id) [.purged now id]
    | .error _ => s
  else s.revoke now id audited

def verified (s : KeyStore) (argon : Argon2) (now : ℤ) (text : String) (rows : List ApiKeyRow)
    (touched : Bool) : KeyStore :=
  match verifiedRow argon rows now text with
  | some row => if touched then { s with keys := touch s.keys now row } else s
  | none => s

/-- One call, from a state whose clock shows the call's time. -/
def call (s : KeyStore) (argon : Argon2) (now : ℤ) : KeyCall → Option KeyStore
  | .create mint violation req audited => some (s.create argon now mint violation req audited)
  | .update id req audited => some (s.update now id req audited)
  | .revoke id audited => some (s.revoke now id audited)
  | .delete id purge audited => some (s.delete now id purge audited)
  | .verify text rows touched =>
      if rows.Perm (candidates s.keys (storedPrefixOf (trim text))) then
        some (s.verified argon now text rows touched)
      else none

end KeyStore

/-- The calls on the table, one after the other. -/
def apiKeys (argon : Argon2) : Machine KeyStore (ℤ × KeyCall) where
  init s := ∃ start, s = .initial start
  step s action :=
    if s.clock ≤ action.1 then { s with clock := action.1 }.call argon action.1 action.2 else none

end GpuCluster.Mgmt
