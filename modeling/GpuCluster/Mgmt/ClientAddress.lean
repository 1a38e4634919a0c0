import GpuCluster.Foundation.Http
import GpuCluster.Mgmt.EnrollMoves

/-! # The address an enrollment records

`complete` takes the client's address from the request's headers, and from the
connection only if no header names one. One address then goes into all rows that
the transaction writes.
-/

namespace GpuCluster.Mgmt

open Foundation

/-- Addresses and their text form, as the standard library has them. -/
structure IpText where
  Addr : Type
  isV4 : Addr → Bool
  parse : String → Option Addr
  display : Addr → String

/-- The network of one address. -/
def IpText.network (text : IpText) (ip : text.Addr) : String :=
  if text.isV4 ip then text.display ip ++ "/32" else text.display ip ++ "/128"

/-- `str::split(',').next()`. -/
def firstListed (value : String) : String := .ofList (value.toList.takeWhile (· ≠ ','))

/-- The address that the headers name. -/
def clientIp (text : IpText) (headers : List (String × String)) : Option text.Addr :=
  (((headers.lookup "x-forwarded-for").bind headerText).bind fun value =>
      text.parse (trim (firstListed value))).or
    (((headers.lookup "x-real-ip").bind headerText).bind text.parse)

open Decoder in
def EnrollRequest.decode : Decoder EnrollRequest := fun document => do
  let field ← fieldsOf 4 document
  return {
    token := ← (field "token" 0).bind string
    pubkeyB64 := ← (field "pubkey_b64" 1).bind string
    displayName := ← orDefault none (option string) (field "display_name" 2)
    node := (field "node" 3).getD .null }

/-! ## What a transaction writes -/

/-- The node row of a call. -/
def Attempt.Puts (a : Attempt) (nodeId : String) (row : NodeRow) : Prop :=
  row.id = nodeId ∧ row.currentPublicIpV4 = a.publicIp

/-- The effects that await the statement a transaction is at. -/
def Attempt.Pending (a : Attempt) (nodeId : String) (pending : List Effect) : Stage → Prop
  | .upsertNode => True
  | .addIpHistory => ∃ row, a.Puts nodeId row ∧ pending = [.putNode row]
  | .useToken => ∃ row, a.Puts nodeId row ∧
      pending = [.putNode row, .addIpHistory (a.ipHistoryRow nodeId)]
  | .addAudit => ∃ row, ∃ tokens : List TokenRow, a.Puts nodeId row ∧
      pending = [.putNode row, .addIpHistory (a.ipHistoryRow nodeId)] ++ tokens.map .putToken
  | .commit => ∃ row, ∃ tokens : List TokenRow, a.Puts nodeId row ∧
      pending = [.putNode row, .addIpHistory (a.ipHistoryRow nodeId)] ++ tokens.map .putToken ++
        [.addAudit (a.auditRow nodeId)]

/-- Every open transaction writes the address its call was started with. -/
def Enrolling.WritesAddress (s : Enrolling) : Prop :=
  ∀ call a nodeId certSha started stage pending,
    s.calls call = .writing a nodeId certSha started stage pending →
      a.Pending nodeId pending stage

/-- A node row, a line of the address history and an audit entry all name one
address. -/
structure Database.Records (before after : Database) (nodeId ip : String) : Prop where
  node : (after.nodes.get nodeId).map NodeRow.currentPublicIpV4 = some ip
  history : after.nodeIpHistory = before.nodeIpHistory ++ [⟨nodeId, ip, "tls_socket"⟩]
  audit : ∃ row, after.auditLog = before.auditLog ++ [row] ∧ row.action = "NODE_ENROLLED" ∧
    row.resource = nodeId ∧ row.ip = some ip

theorem Database.applyAll_putTokens (db : Database) (tokens : List TokenRow) :
    (db.applyAll (tokens.map .putToken)).nodes = db.nodes ∧
      (db.applyAll (tokens.map .putToken)).nodeIpHistory = db.nodeIpHistory ∧
      (db.applyAll (tokens.map .putToken)).auditLog = db.auditLog := by
  induction tokens generalizing db with
  | nil => exact ⟨rfl, rfl, rfl⟩
  | cons token rest ih => exact ih (db.apply (.putToken token))

/-- The address a commit records is the one the call was started with. -/
theorem Attempt.Pending.records_iff {a : Attempt} {nodeId : String} {pending : List Effect}
    (hpending : a.Pending nodeId pending .commit) (db : Database) (ip : String) :
    db.Records (db.applyAll pending) nodeId ip ↔ a.publicIp = ip := by
  obtain ⟨row, tokens, ⟨rfl, hip⟩, rfl⟩ := hpending
  let written := (db.apply (.putNode row)).apply (.addIpHistory (a.ipHistoryRow row.id))
  obtain ⟨hnodes, hhistory, haudit⟩ := written.applyAll_putTokens tokens
  have happly : db.applyAll ([.putNode row, .addIpHistory (a.ipHistoryRow row.id)] ++
      tokens.map .putToken ++ [.addAudit (a.auditRow row.id)]) =
      (written.applyAll (tokens.map .putToken)).apply (.addAudit (a.auditRow row.id)) := by
    simp only [Database.applyAll, List.foldl_append]
    rfl
  rw [happly]
  constructor
  · intro hrecords
    have hsame := List.append_cancel_left (hhistory.symm.trans hrecords.history)
    exact congrArg IpHistoryRow.publicIpV4 (List.cons.inj hsame).1
  · rintro rfl
    refine ⟨?_, hhistory, a.auditRow row.id, ?_, rfl, rfl, rfl⟩
    · change ((written.applyAll _).nodes.get row.id).map _ = _
      rw [hnodes]
      change ((db.nodes.insert row).get row.id).map _ = _
      rw [KeyedMap.get_insert_self, Option.map_some, hip]
    · exact congrArg (· ++ [a.auditRow row.id]) haudit

variable {verify : String → String → Bool} {s next : Enrolling} {call : ℕ} {commits : Bool}

theorem Moves.writesAddress (hmoves : Moves verify s call commits next) (hs : s.WritesAddress) :
    next.WritesAddress := by
  intro other a nodeId certSha started stage pending hother
  by_cases hsame : other = call
  · subst hsame
    cases hmoves with
    | refuse | pick | found | drawn | commit | abort =>
        simp [Enrolling.abort, Enrolling.finish, Enrolling.setCall] at hother
    | begin =>
        simp only [Enrolling.setCall, Function.update_self, CallState.writing.injEq] at hother
        obtain ⟨rfl, rfl, rfl, rfl, rfl, rfl⟩ := hother
        trivial
    | upsert b otherId sha began before row hcall hfree hrow =>
        simp only [Enrolling.setCall, Function.update_self, CallState.writing.injEq] at hother
        obtain ⟨rfl, rfl, rfl, rfl, rfl, rfl⟩ := hother
        refine ⟨row, ?_, rfl⟩
        rcases hrow with ⟨stored, hstored, rfl⟩ | ⟨-, -, rfl⟩
        · have hid : stored.id = otherId := KeyedMap.key_of_get hstored
          exact ⟨hid, rfl⟩
        · exact ⟨rfl, rfl⟩
    | history b otherId sha began before hcall =>
        simp only [Enrolling.setCall, Function.update_self, CallState.writing.injEq] at hother
        obtain ⟨rfl, rfl, rfl, rfl, rfl, rfl⟩ := hother
        obtain ⟨row, hrow, rfl⟩ := hs other _ _ _ _ _ _ hcall
        exact ⟨row, hrow, rfl⟩
    | use b otherId sha began before hcall =>
        simp only [Enrolling.setCall, Function.update_self, CallState.writing.injEq] at hother
        obtain ⟨rfl, rfl, rfl, rfl, rfl, rfl⟩ := hother
        obtain ⟨row, hrow, rfl⟩ := hs other _ _ _ _ _ _ hcall
        exact ⟨row, _, hrow, rfl⟩
    | audit b otherId sha began before hcall =>
        simp only [Enrolling.setCall, Function.update_self, CallState.writing.injEq] at hother
        obtain ⟨rfl, rfl, rfl, rfl, rfl, rfl⟩ := hother
        obtain ⟨row, tokens, hrow, rfl⟩ := hs other _ _ _ _ _ _ hcall
        exact ⟨row, tokens, hrow, rfl⟩
  · rw [hmoves.calls_ne hsame] at hother
    exact hs other a nodeId certSha started stage pending hother

/-- A call that has begun goes on with the same attempt. -/
theorem Moves.attempt (hmoves : Moves verify s call commits next)
    (hbegun : s.calls call ≠ .absent) {other : ℕ} {a : Attempt}
    (hflight : (next.calls other).InFlight a) : (s.calls other).InFlight a :=
  (hmoves.inFlight hflight).resolve_right fun hread => hbegun hread.1

/-- A call starts with the address it is given. -/
theorem Enrolling.start_inFlight {req : EnrollRequest} {publicIp : String} {now : ℤ}
    {choice : Option String} (hrun : s.start verify call req publicIp now choice = some next)
    {other : ℕ} {a : Attempt} (hflight : (next.calls other).InFlight a) :
    other = call ∧ a.publicIp = publicIp ∨ other ≠ call ∧ (s.calls other).InFlight a := by
  by_cases hsame : other = call
  · subst hsame
    refine .inl ⟨rfl, ?_⟩
    unfold Enrolling.start at hrun
    split at hrun
    next =>
      cases hrun
      simp [Enrolling.setCall, CallState.InFlight] at hflight
    next =>
      split at hrun
      next =>
        split at hrun
        next =>
          cases hrun
          simp only [Enrolling.setCall, Function.update_self, CallState.InFlight] at hflight
          rw [← hflight]
        next => cases hrun
      next => cases hrun
    next =>
      split at hrun
      next => cases hrun
      next =>
        cases hrun
        simp [Enrolling.setCall, CallState.InFlight] at hflight
    next => cases hrun
  · have hmoves := Enrolling.start_moves hrun
    exact .inr ⟨hsame, hmoves.calls_ne hsame ▸ hflight⟩

end GpuCluster.Mgmt
