import GpuCluster.Cluster.Authorization
import GpuCluster.Mgmt.ClientAddress
import GpuCluster.Mgmt.EnrollOnce

/-! # A client's address behind the gateway

The gateway notes the peer address of a client's connection and passes it on to
nobody. The coordinator records the peer of its own connection, which is the
gateway; the management backend believes the client's headers before it falls
back to the gateway's address as well.
-/

namespace GpuCluster.Cluster

open Foundation Gateway Coordinator Mgmt

/-- The deployment, and the address each upstream sees the gateway under. -/
structure AddressSetup (text : IpText) where
  stack : WebStack
  config : GatewayConfig
  adminApiKey : String
  verify : String → String → Bool
  gatewayIp : Upstream → text.Addr

/-- The body of a report that reaches the coordinator. -/
def reportOf (stack : WebStack) (sent : Outgoing) : Option Json :=
  match sent.upstream, handlerFor stack coordinatorRoutes sent.request with
  | .coordinator, some (.reportNode, _) => stack.jsonBody sent.request
  | _, _ => none

/-- An enrollment that reaches the management backend, with its headers. -/
def enrollmentOf (stack : WebStack) (adminApiKey : String) (sent : Outgoing) :
    Option (EnrollRequest × List (String × String)) :=
  match sent.sender, sent.upstream, mgmtRun stack adminApiKey sent.request with
  | .client, .mgmt, some (.free .completeEnrollment) =>
      ((stack.jsonBody sent.request).bind EnrollRequest.decode).map (·, sent.request.headers)
  | _, _, _ => none

/-- The registry, the calls of `complete`, and the client and the request that
each of them serves. -/
structure Addressed (text : IpText) where
  registry : Registry
  enrolling : Enrolling
  clients : ℕ → Option (text.Addr × HttpRequest)

inductive AddressStep (text : IpText)
  | report (client : text.Addr) (check : V1Check) (req : HttpRequest) (now : ℤ)
  | registry (next : Registry)
  | enroll (client : text.Addr) (check : V1Check) (req : HttpRequest) (call : ℕ) (now : ℤ)
      (choice : Option String)
  | proceed (step : EnrollStep)

variable {text : IpText} (setup : AddressSetup text)

namespace Addressed

def initial (text : IpText) (db : Database) : Addressed text :=
  ⟨.empty, .initial db, fun _ => none⟩

/-- A client's request to the gateway that becomes a report. -/
def report (s : Addressed text) (check : V1Check) (req : HttpRequest) (now : ℤ) :
    Option (Addressed text) :=
  ((gatewayRun setup.stack setup.config check req).findSome? (reportOf setup.stack)).map fun body =>
    let peer := text.display (setup.gatewayIp .coordinator)
    match reportNode s.registry now peer body with
    | .ok (registry, _) => { s with registry }
    | .error _ => s

/-- A client's request to the gateway that starts `complete`. -/
def enroll (s : Addressed text) (client : text.Addr) (check : V1Check) (req : HttpRequest)
    (call : ℕ) (now : ℤ) (choice : Option String) : Option (Addressed text) :=
  ((gatewayRun setup.stack setup.config check req).findSome?
      (enrollmentOf setup.stack setup.adminApiKey)).bind fun enrollment =>
    let ip := (clientIp text enrollment.2).getD (setup.gatewayIp .mgmt)
    (s.enrolling.start setup.verify call enrollment.1 (text.network ip) now choice).map
      fun enrolling => { s with
        enrolling, clients := Function.update s.clients call (some (client, req)) }

end Addressed

/-- Besides reports, the registry may change in any way. -/
def AddressStep.run (s : Addressed text) : AddressStep text → Option (Addressed text)
  | .report _ check req now => s.report setup check req now
  | .registry next => some { s with registry := next }
  | .enroll client check req call now choice => s.enroll setup client check req call now choice
  | .proceed (.start ..) => none
  | .proceed step =>
      (step.run setup.verify s.enrolling).map fun enrolling => { s with enrolling }

def addressing : Machine (Addressed text) (AddressStep text) where
  init s := ∃ db, s = .initial text db
  step s step := step.run setup s

/-- The report is accepted. -/
def Addressed.Accepts (s : Addressed text) (check : V1Check) (req : HttpRequest) (now : ℤ)
    (registry : Registry) (id : String) : Prop :=
  ∃ body, (gatewayRun setup.stack setup.config check req).findSome? (reportOf setup.stack) =
      some body ∧
    reportNode s.registry now (text.display (setup.gatewayIp .coordinator)) body =
      .ok (registry, id)

theorem Addressed.Accepts.report {setup : AddressSetup text} {s : Addressed text}
    {check : V1Check} {req : HttpRequest} {now : ℤ} {registry : Registry} {id : String}
    (haccepts : s.Accepts setup check req now registry id) :
    s.report setup check req now = some { s with registry } := by
  obtain ⟨body, hbody, hok⟩ := haccepts
  simp only [Addressed.report, hbody, Option.map_some, hok]

/-- The call is about to commit for a client. -/
def Addressed.Commits (s : Addressed text) (call : ℕ) (a : Attempt) (nodeId : String)
    (pending : List Mgmt.Effect) (client : text.Addr) (req : HttpRequest) : Prop :=
  (∃ certSha started, s.enrolling.calls call = .writing a nodeId certSha started .commit pending) ∧
    s.clients call = some (client, req)

/-- What a step records is the address of the client's socket. -/
def RecordsClient (s : Addressed text) : AddressStep text → Prop
  | .report client check req now => ∀ registry id, s.Accepts setup check req now registry id →
      (registry.get id).bind (·.currentPublicIp) = some (text.display client)
  | .proceed (.commit call) => ∀ a nodeId pending client req,
      s.Commits call a nodeId pending client req →
        s.enrolling.db.Records (s.enrolling.db.applyAll pending) nodeId (text.network client)
  | _ => True

/-- The address that is believed is the client's: the gateway's own for a report,
and for an enrollment the one its headers name, else again the gateway's. -/
def BelievesClient (s : Addressed text) : AddressStep text → Prop
  | .report client check req now => ∀ registry id, s.Accepts setup check req now registry id →
      text.display (setup.gatewayIp .coordinator) = text.display client
  | .proceed (.commit call) => ∀ a nodeId pending client req,
      s.Commits call a nodeId pending client req →
        text.network ((clientIp text req.headers).getD (setup.gatewayIp .mgmt)) =
          text.network client
  | _ => True

/-! ## What reaches the upstreams -/

/-- `complete` answers `POST` only. -/
theorem post_of_completeEnrollment {stack : WebStack} {adminApiKey : String} {req : HttpRequest}
    (hrun : mgmtRun stack adminApiKey req = some (.free .completeEnrollment)) :
    req.method = "POST" := by
  unfold mgmtRun at hrun
  split at hrun
  next handler _ hhandler =>
    cases hrun
    obtain ⟨route, hmem, hroute, haccepts⟩ := handlerFor_accepts hhandler
    have hfilter : ∀ route ∈ mgmtRoutes,
        route.handler = .free .completeEnrollment → route.filter = .only "POST" := by decide
    simpa [hfilter route hmem hroute, MethodFilter.accepts] using haccepts
  next =>
    split at hrun <;> cases hrun
  next => cases hrun

/-- Stripping hop-by-hop headers leaves the headers that are believed. -/
theorem clientIp_stripHopByHop (headers : List (String × String)) :
    clientIp text (stripHopByHop headers) = clientIp text headers := by
  rw [clientIp, header_stripHopByHop (by decide), header_stripHopByHop (by decide), clientIp]

/-- An enrollment comes with the client's own claim about its address. -/
theorem clientIp_of_enrollment {stack : WebStack} {config : GatewayConfig} {adminApiKey : String}
    {check : V1Check} {req : HttpRequest} {enrollReq : EnrollRequest}
    {headers : List (String × String)}
    (hfound : (gatewayRun stack config check req).findSome? (enrollmentOf stack adminApiKey) =
      some (enrollReq, headers)) : clientIp text headers = clientIp text req.headers := by
  obtain ⟨sent, hsent, henrollment⟩ := List.exists_of_findSome?_eq_some hfound
  have hsends := sends_of_mem hsent
  unfold enrollmentOf at henrollment
  split at henrollment
  next hsender hupstream hrun =>
    obtain ⟨decoded, -, hpair⟩ := Option.map_eq_some_iff.mp henrollment
    obtain rfl : sent.request.headers = headers := congrArg Prod.snd hpair
    cases hsends with
    | forwarded upstream pathAndQuery request hforward =>
        obtain ⟨delivered, rfl⟩ := forward_eq hforward
        exact clientIp_stripHopByHop req.headers
    | get =>
        have hpost : "GET" = "POST" := post_of_completeEnrollment hrun
        simp at hpost
    | verify => cases hsender
  next => cases henrollment

/-- An accepted report leaves its sender's address in the entry. -/
theorem currentPublicIp_of_reportNode {registry next : Registry} {now : ℤ} {peer id : String}
    {body : Json} (hok : reportNode registry now peer body = .ok (next, id)) :
    (next.get id).bind (·.currentPublicIp) = some peer := by
  cases hdecode : decodeReport peer body with
  | error =>
      rw [reportNode_of_error hdecode] at hok
      cases hok
  | ok report =>
      have hpeer : report.publicIp = some peer := by
        unfold decodeReport at hdecode
        split at hdecode
        next => cases hdecode
        next =>
          dsimp only at hdecode
          split at hdecode <;> cases hdecode
          rfl
      rw [reportNode_of_decode hdecode] at hok
      split at hok <;> cases hok
      have hget : (registry.insert (report.entry now)).get report.info.nodeId =
          some (report.entry now) := registry.get_insert_self (report.entry now)
      rw [hget]
      exact hpeer

/-! ## Every run -/

variable {setup : AddressSetup text}

/-- An open call of `complete` is some client's, and its address is the one that
client's headers name. -/
structure Addressed.Sound (setup : AddressSetup text) (s : Addressed text) : Prop where
  writes : s.enrolling.WritesAddress
  served : ∀ call a, (s.enrolling.calls call).InFlight a → ∃ client req,
    s.clients call = some (client, req) ∧ a.publicIp =
      text.network ((clientIp text req.headers).getD (setup.gatewayIp .mgmt))

theorem Addressed.sound_initial (db : Database) : (Addressed.initial text db).Sound setup :=
  ⟨fun _ _ _ _ _ _ _ h => (by cases h), fun _ _ h => h.elim⟩

theorem AddressStep.sound {s next : Addressed text} {step : AddressStep text}
    (hs : s.Sound setup) (hrun : step.run setup s = some next) : next.Sound setup := by
  cases step with
  | report client check req now =>
      obtain ⟨body, -, rfl⟩ := Option.map_eq_some_iff.mp hrun
      dsimp only
      split <;> exact ⟨hs.writes, hs.served⟩
  | registry later =>
      cases hrun
      exact ⟨hs.writes, hs.served⟩
  | enroll client check req call now choice =>
      obtain ⟨⟨enrollReq, headers⟩, hfound, hstart⟩ := Option.bind_eq_some_iff.mp hrun
      obtain ⟨enrolling, hstarted, rfl⟩ := Option.map_eq_some_iff.mp hstart
      refine ⟨(Enrolling.start_moves hstarted).writesAddress hs.writes, fun other a hflight => ?_⟩
      dsimp only at hflight ⊢
      rcases Enrolling.start_inFlight hstarted hflight with ⟨rfl, hip⟩ | ⟨hne, hbefore⟩
      · refine ⟨client, req, Function.update_self .., ?_⟩
        rw [hip, clientIp_of_enrollment hfound]
      · rw [Function.update_of_ne hne]
        exact hs.served other a hbefore
  | proceed step =>
      have hproceed : (∀ call req publicIp now choice, step ≠ .start call req publicIp now choice) ∧
          ∃ enrolling, step.run setup.verify s.enrolling = some enrolling ∧
            { s with enrolling } = next := by
        cases step with
        | start => cases hrun
        | _ => exact ⟨fun _ _ _ _ _ h => (by cases h), Option.map_eq_some_iff.mp hrun⟩
      obtain ⟨hstart, enrolling, hstep, rfl⟩ := hproceed
      obtain ⟨commits, hmoves, -⟩ := EnrollStep.run_moves hstep
      exact ⟨hmoves.writesAddress hs.writes, fun other a hflight =>
        hs.served other a (hmoves.attempt (EnrollStep.begun hstep hstart) hflight)⟩

theorem sound_of_exec (db : Database) {steps : List (AddressStep text)} {s : Addressed text}
    (hexec : (addressing setup).exec (.initial text db) steps = some s) : s.Sound setup :=
  Machine.exec_invariant (M := addressing setup) (Addressed.Sound setup)
    (fun _ _ _ hs hrun => AddressStep.sound hs hrun) (Addressed.sound_initial db) hexec

theorem recordsClient_iff {s : Addressed text} (hs : s.Sound setup) (step : AddressStep text) :
    RecordsClient setup s step ↔ BelievesClient setup s step := by
  cases step with
  | registry | enroll => exact Iff.rfl
  | report client check req now =>
      refine forall_congr' fun registry => forall_congr' fun id => forall_congr' fun haccepts => ?_
      obtain ⟨body, -, hok⟩ := haccepts
      rw [currentPublicIp_of_reportNode hok, Option.some.injEq]
  | proceed step =>
      cases step with
      | commit call =>
          refine forall_congr' fun a => forall_congr' fun nodeId => forall_congr' fun pending =>
            forall_congr' fun client => forall_congr' fun req => forall_congr' fun hcommits => ?_
          obtain ⟨⟨certSha, started, hcall⟩, hclient⟩ := hcommits
          have hpending := hs.writes call a nodeId certSha started .commit pending hcall
          obtain ⟨other, otherReq, hserved, hip⟩ := hs.served call a (by rw [hcall]; rfl)
          obtain ⟨rfl, rfl⟩ := Prod.mk.inj (Option.some.inj (hclient.symm.trans hserved))
          rw [hpending.records_iff, hip]
      | _ => exact Iff.rfl

/-- In a run of reports and enrollments through the gateway, everything recorded
is the address of the client's socket exactly when the addresses believed are:
the gateway's own for reports, and for enrollments what the headers say. -/
theorem recordsClients_iff_believesClients (db : Database) (steps : List (AddressStep text)) :
    (addressing setup).Meets (RecordsClient setup) (.initial text db) steps ↔
      (addressing setup).Meets (BelievesClient setup) (.initial text db) steps := by
  have hkeeps : ∀ s step next, Addressed.Sound setup s →
      (addressing setup).step s step = some next → next.Sound setup :=
    fun s step next hs hrun => AddressStep.sound hs hrun
  exact Machine.meets_iff hkeeps (fun s step next hs _ => recordsClient_iff hs step)
    (Addressed.sound_initial db) steps

/-! ## Two requests -/

def plainIp : IpText where
  Addr := String
  isV4 _ := true
  parse s := if s = "6.6.6.6" then some s else none
  display := id

def reportText : String := "\x7b\"node_id\":\"x\",\"hw_fingerprint\":\"hw\"\x7d"

def enrollText : String :=
  "\x7b\"token\":\"secret\",\"pubkey_b64\":\"key\",\"node\":\x7b\"hw_fingerprint\":\"hw\"\x7d\x7d"

/-- A gateway that its upstreams see as `172.18.0.5`. -/
def behindGateway : AddressSetup plainIp where
  stack := { plainStack with
    jsonBody := fun req =>
      if req.body = reportText.toUTF8.data.toList then some (bareBody "x" "hw" none)
      else if req.body = enrollText.toUTF8.data.toList then some (.object
        [("token", .string "secret"), ("pubkey_b64", .string "key"),
          ("node", .object [("hw_fingerprint", .string "hw")])])
      else none }
  config := plainDeployment.config
  adminApiKey := "admin"
  verify hash secret := hash == secret
  gatewayIp _ := "172.18.0.5"

def jsonPost (pathAndQuery body : String) (headers : List (String × String)) : HttpRequest where
  method := "POST"
  pathAndQuery := pathAndQuery
  headers := ("content-type", "application/json") :: headers
  body := body.toUTF8.data.toList

def plainReport : HttpRequest := jsonPost "/cluster/nodes/report" reportText []

def forgedEnrollment : HttpRequest :=
  jsonPost "/enroll" enrollText [("x-forwarded-for", "6.6.6.6")]

def untilForgedCommit : List (AddressStep plainIp) :=
  [.enroll "203.0.113.9" ⟨none, false⟩ forgedEnrollment 0 0 (some "t"),
    .proceed (.lookup 0 "n" "cert"), .proceed (.begin 0 0), .proceed (.exec 0 ""),
    .proceed (.exec 0 ""), .proceed (.exec 0 ""), .proceed (.exec 0 "")]

theorem plainReport_accepted : ∃ registry id,
    (Addressed.initial plainIp oneToken).Accepts behindGateway ⟨none, false⟩ plainReport 0
      registry id := by
  have hfound : ((gatewayRun behindGateway.stack behindGateway.config ⟨none, false⟩
      plainReport).findSome? (reportOf behindGateway.stack)).any (fun body =>
        match reportNode (Addressed.initial plainIp oneToken).registry 0
            (plainIp.display (behindGateway.gatewayIp .coordinator)) body with
        | .ok _ => true
        | .error _ => false) = true := by
    decide +kernel
  obtain ⟨body, hbody, haccepted⟩ := (Option.any_eq_true _ _).mp hfound
  split at haccepted
  next result hok => exact ⟨result.1, result.2, body, hbody, hok⟩
  next => cases haccepted

theorem forgedEnrollment_commits : ∃ s a nodeId pending req,
    (addressing behindGateway).exec (.initial plainIp oneToken) untilForgedCommit = some s ∧
      s.Commits 0 a nodeId pending "203.0.113.9" req ∧ a.publicIp = "6.6.6.6/32" := by
  have hrun : ((addressing behindGateway).exec (.initial plainIp oneToken) untilForgedCommit).any
      (fun s =>
        ((s.enrolling.calls 0).committing.any fun a => a.publicIp = "6.6.6.6/32") &&
        (s.clients 0).any (fun served => served.1 = ("203.0.113.9" : String))) = true := by
    decide +kernel
  obtain ⟨s, hexec, hstate⟩ := (Option.any_eq_true _ _).mp hrun
  simp only [Bool.and_eq_true, Option.any_eq_true, decide_eq_true_eq] at hstate
  obtain ⟨⟨a, hcommitting, hip⟩, ⟨client, req⟩, hclient, rfl⟩ := hstate
  obtain ⟨nodeId, certSha, started, pending, hwriting⟩ := CallState.committing_eq_some hcommitting
  exact ⟨s, a, nodeId, pending, req, hexec, ⟨⟨certSha, started, hwriting⟩, hclient⟩, hip⟩

/-- A client at `203.0.113.9` reports, and the entry has the gateway's address; it
enrolls with a header of its choosing, and the rows have the header's. -/
theorem otherAddress_isRecorded :
    ¬(addressing behindGateway).Meets (RecordsClient behindGateway) (.initial plainIp oneToken)
        [.report "203.0.113.9" ⟨none, false⟩ plainReport 0] ∧
      ¬(addressing behindGateway).Meets (RecordsClient behindGateway) (.initial plainIp oneToken)
        (untilForgedCommit ++ [.proceed (.commit 0)]) := by
  constructor
  · intro hmeets
    obtain ⟨registry, id, haccepts⟩ := plainReport_accepted
    have hrecorded := (hmeets _ haccepts.report).1 registry id haccepts
    obtain ⟨_, _, hok⟩ := haccepts
    rw [currentPublicIp_of_reportNode hok] at hrecorded
    exact absurd hrecorded (by decide)
  · intro hmeets
    obtain ⟨s, a, nodeId, pending, req, hexec, hcommits, hip⟩ := forgedEnrollment_commits
    obtain ⟨⟨certSha, started, hwriting⟩, -⟩ := id hcommits
    have hstep : (addressing behindGateway).step s (.proceed (.commit 0)) =
        some { s with enrolling := s.enrolling.finish 0 a nodeId pending } := by
      simp only [addressing, AddressStep.run, EnrollStep.run, Enrolling.commit, hwriting,
        Option.map_some]
    have hrecords := hmeets.after hexec hstep a nodeId pending _ req hcommits
    have hsound : s.Sound behindGateway :=
      sound_of_exec oneToken hexec
    have hpending := hsound.writes 0 a nodeId certSha started .commit pending hwriting
    have hsame := (hpending.records_iff _ _).mp hrecords
    exact absurd (hip.symm.trans hsame) (by decide)

end GpuCluster.Cluster
