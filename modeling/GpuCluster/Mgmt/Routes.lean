import GpuCluster.Foundation.Http
import GpuCluster.Foundation.Uuid
import GpuCluster.Mgmt.ApiError

/-! # Routes of the management backend

Two tables merged into one. Every route of the second one stands behind
`require_admin`, which compares the bearer token with the admin key.
-/

namespace GpuCluster.Mgmt

open Foundation

/-! ## The admin key -/

/-- Bytes are compared to the end even after a difference. -/
def constantTimeEq (a b : List UInt8) : Bool :=
  if a.length ≠ b.length then false
  else (a.zip b).foldl (fun diff pair => diff ||| (pair.1 ^^^ pair.2)) (0 : UInt8) = 0

/-- No bit of the running difference is ever cleared. -/
private theorem foldl_diff_eq_zero (pairs : List (UInt8 × UInt8)) (diff : UInt8) :
    pairs.foldl (fun diff pair => diff ||| (pair.1 ^^^ pair.2)) diff = 0 ↔
      diff = 0 ∧ ∀ pair ∈ pairs, pair.1 = pair.2 := by
  induction pairs generalizing diff with
  | nil => simp
  | cons pair rest ih =>
      simp only [List.foldl_cons, ih, UInt8.or_eq_zero_iff, UInt8.xor_eq_zero_iff,
        List.forall_mem_cons, and_assoc]

theorem constantTimeEq_iff (a b : List UInt8) : constantTimeEq a b = true ↔ a = b := by
  unfold constantTimeEq
  split
  next hlength =>
    constructor
    · intro hfalse
      cases hfalse
    · intro hsame
      exact absurd (congrArg List.length hsame) hlength
  next hlength =>
    have hsame : a.length = b.length := not_not.mp hlength
    have hpairs : (∀ pair ∈ a.zip b, pair.1 = pair.2) ↔ a = b := by
      rw [← List.forall₂_eq_eq_eq, List.forall₂_iff_zip]
      simp [hsame]
    simp only [decide_eq_true_eq, foldl_diff_eq_zero, true_and, hpairs]

/-- `require_admin`. -/
def requireAdmin (adminApiKey : String) (req : HttpRequest) : Except ApiError Unit :=
  match req.header "authorization" with
  | none => .error .unauthorized
  | some value =>
      match headerText value with
      | none => .error .unauthorized
      | some text =>
          match stripPrefix? "Bearer " text with
          | none => .error .unauthorized
          | some token =>
              if constantTimeEq token.toUTF8.data.toList adminApiKey.toUTF8.data.toList then .ok ()
              else .error .unauthorized

/-- The request's first `Authorization` header is that of the key. -/
def BearsAdminKey (adminApiKey : String) (req : HttpRequest) : Prop :=
  req.header "authorization" = some ("Bearer " ++ adminApiKey)

/-- Whoever is let in bears the key. -/
theorem bearsAdminKey_of_requireAdmin {adminApiKey : String} {req : HttpRequest}
    (hok : requireAdmin adminApiKey req = .ok ()) : BearsAdminKey adminApiKey req := by
  unfold requireAdmin at hok
  split at hok
  next => cases hok
  next value hvalue =>
    split at hok
    next => cases hok
    next text htext =>
      split at hok
      next => cases hok
      next token htoken =>
        split at hok
        next hsame =>
          have hbytes := (constantTimeEq_iff _ _).mp hsame
          have hkey : token = adminApiKey := by
            rw [← String.toByteArray_inj, ByteArray.ext_iff, ← Array.toList_inj]
            exact hbytes
          rw [BearsAdminKey, hvalue, eq_of_headerText htext, eq_append_of_stripPrefix htoken, hkey]
        next => cases hok

/-! ## The tables -/

inductive PublicHandler
  | health
  | completeEnrollment
  deriving DecidableEq

inductive AdminHandler
  | createToken
  | listNodes
  | getNode
  | approveNode
  | revokeNode
  | drainNode
  | listAudit
  | createKey
  | listKeys
  | updateKey
  | deleteKey
  | revokeKey
  | verifyKey
  | getSettings
  | putSettings
  | listModels
  | createModel
  | updateModel
  | deleteModel
  | loadModel
  | logInference
  | recentInference
  deriving DecidableEq

/-- A captured segment, as a handler takes it. -/
inductive PathValue
  | uuid (uuid : UuidDigits)
  | text (text : String)
  deriving DecidableEq

/-- Nodes and keys have UUIDs (`Path<Uuid>`), models have texts (`Path<String>`). -/
def AdminHandler.takesUuid : AdminHandler → Bool
  | .getNode | .approveNode | .revokeNode | .drainNode => true
  | .updateKey | .deleteKey | .revokeKey => true
  | _ => false

/-- What a handler takes from a decoded segment. A text that is no UUID is refused before
the handler runs. -/
def AdminHandler.pathValue (parseUuid : String → Option UuidDigits) (handler : AdminHandler)
    (text : String) : Option PathValue :=
  if handler.takesUuid then (parseUuid text).map .uuid else some (.text text)

/-- Routes for the workers and the health check. -/
def publicRoutes : List (Route PublicHandler) := [
  ⟨"/health", .only "GET", .health⟩,
  ⟨"/api/v1/enroll", .only "POST", .completeEnrollment⟩]

/-- Routes behind `require_admin`. -/
def adminRoutes : List (Route AdminHandler) := [
  ⟨"/api/v1/enroll/tokens", .only "POST", .createToken⟩,
  ⟨"/api/v1/nodes", .only "GET", .listNodes⟩,
  ⟨"/api/v1/nodes/{id}", .only "GET", .getNode⟩,
  ⟨"/api/v1/nodes/{id}/approve", .only "POST", .approveNode⟩,
  ⟨"/api/v1/nodes/{id}/revoke", .only "POST", .revokeNode⟩,
  ⟨"/api/v1/nodes/{id}/drain", .only "POST", .drainNode⟩,
  ⟨"/api/v1/audit", .only "GET", .listAudit⟩,
  ⟨"/api/v1/keys", .only "POST", .createKey⟩,
  ⟨"/api/v1/keys", .only "GET", .listKeys⟩,
  ⟨"/api/v1/keys/{id}", .only "PATCH", .updateKey⟩,
  ⟨"/api/v1/keys/{id}", .only "DELETE", .deleteKey⟩,
  ⟨"/api/v1/keys/{id}/revoke", .only "POST", .revokeKey⟩,
  ⟨"/api/v1/keys/verify", .only "POST", .verifyKey⟩,
  ⟨"/api/v1/settings", .only "GET", .getSettings⟩,
  ⟨"/api/v1/settings", .only "PUT", .putSettings⟩,
  ⟨"/api/v1/models", .only "GET", .listModels⟩,
  ⟨"/api/v1/models", .only "POST", .createModel⟩,
  ⟨"/api/v1/models/{id}", .only "PATCH", .updateModel⟩,
  ⟨"/api/v1/models/{id}", .only "DELETE", .deleteModel⟩,
  ⟨"/api/v1/models/{id}/load", .only "POST", .loadModel⟩,
  ⟨"/api/v1/inference/log", .only "POST", .logInference⟩,
  ⟨"/api/v1/inference/recent", .only "GET", .recentInference⟩]

inductive MgmtHandler
  | free (handler : PublicHandler)
  | admin (handler : AdminHandler)
  deriving DecidableEq

/-- `public.merge(admin)`. -/
def mgmtRoutes : List (Route MgmtHandler) :=
  publicRoutes.map (.map .free) ++ adminRoutes.map (.map .admin)

/-- The handler that runs for a request, if any. -/
def mgmtRun (stack : WebStack) (adminApiKey : String) (req : HttpRequest) : Option MgmtHandler :=
  match handlerFor stack mgmtRoutes req with
  | some (.free handler, _) => some (.free handler)
  | some (.admin handler, _) =>
      match requireAdmin adminApiKey req with
      | .ok () => some (.admin handler)
      | .error _ => none
  | none => none

/-- No handler behind `require_admin` runs without the key. -/
theorem bearsAdminKey_of_run {stack : WebStack} {adminApiKey : String} {req : HttpRequest}
    {handler : AdminHandler} (hrun : mgmtRun stack adminApiKey req = some (.admin handler)) :
    BearsAdminKey adminApiKey req := by
  unfold mgmtRun at hrun
  split at hrun
  next => cases hrun
  next =>
    split at hrun
    next hok => exact bearsAdminKey_of_requireAdmin hok
    next => cases hrun
  next => cases hrun

end GpuCluster.Mgmt
