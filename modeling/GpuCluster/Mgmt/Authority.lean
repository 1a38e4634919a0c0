import GpuCluster.Mgmt.Certificates

/-! # One certificate authority

Every backend that starts asks the table `ca_state` for the cluster's root and
makes one up when there is none. Backends may start at the same time, with
different names in their settings, and may stop at any point; the primary key of
the table decides which of two new roots stays.
-/

namespace GpuCluster.Mgmt

open Foundation

inductive DnType
  | commonName
  | organizationName
  | organizationalUnitName
  deriving DecidableEq

/-- A certificate by what was signed and the key that signed it. `nonce` tells
two signatures of the same key apart. -/
structure Certificate (Key : Type) where
  subject : List (DnType × String)
  issuer : List (DnType × String)
  isCa : Bool
  subjectAltNames : List String
  notAfter : Option ℤ
  publicKey : String
  signer : Key
  nonce : ℕ
  deriving DecidableEq

/-- The certificate library: key pairs, and the PEM texts of keys and certificates. -/
structure Rcgen (Key : Type) where
  publicKey : Key → String
  serializePem : Key → String
  fromPem : String → Option Key
  pem : Certificate Key → String

/-- `Ca`. The certificate in memory is built anew at every start. -/
structure Ca (Key : Type) where
  cert : Certificate Key
  key : Key
  originalCertPem : Option String
  commonName : String
  deriving DecidableEq

/-- A row of `ca_state`; there is one id. -/
structure CaRow where
  commonName : String
  certPem : String
  keyPem : String
  deriving DecidableEq

/-- The signature of `issue_node_cert`: `params.signed_by(&leaf_key, &ca.cert, &ca.key)`. -/
def Ca.signed {Key : Type} (ca : Ca Key) (cert : NodeCert) (nonce : ℕ) : Certificate Key where
  subject := [(.commonName, cert.commonName), (.organizationalUnitName, cert.organizationalUnit)]
  issuer := ca.cert.subject
  isCa := false
  subjectAltNames := [cert.subjectAltName]
  notAfter := some cert.notAfter
  publicKey := cert.publicKey
  signer := ca.key
  nonce := nonce

namespace Rcgen

variable {Key : Type} (rcgen : Rcgen Key)

def rootName (commonName : String) : List (DnType × String) :=
  [(.commonName, commonName), (.organizationName, "MultiGPUCluster")]

/-- `build_root_cert`: a self-signed certificate. -/
def buildRootCert (commonName : String) (key : Key) (nonce : ℕ) : Certificate Key where
  subject := rootName commonName
  issuer := rootName commonName
  isCa := true
  subjectAltNames := []
  notAfter := none
  publicKey := rcgen.publicKey key
  signer := key
  nonce := nonce

def generateRootCa (commonName : String) (key : Key) (nonce : ℕ) : Ca Key where
  cert := rcgen.buildRootCert commonName key nonce
  key := key
  originalCertPem := none
  commonName := commonName

def loadCa (commonName originalCertPem keyPem : String) (nonce : ℕ) : Option (Ca Key) :=
  (rcgen.fromPem keyPem).map fun key =>
    { cert := rcgen.buildRootCert commonName key nonce
      key := key
      originalCertPem := some originalCertPem
      commonName := commonName }

def certPem (ca : Ca Key) : String := ca.originalCertPem.getD (rcgen.pem ca.cert)

def keyPem (ca : Ca Key) : String := rcgen.serializePem ca.key

/-- The `VALUES` of the statement that stores a new root. -/
def row (ca : Ca Key) : CaRow := ⟨ca.commonName, rcgen.certPem ca, rcgen.keyPem ca⟩

/-- A client that trusts `root` accepts `leaf`. -/
structure Verifies (root leaf : Certificate Key) : Prop where
  isCa : root.isCa = true
  issuer : leaf.issuer = root.subject
  signature : rcgen.publicKey leaf.signer = root.publicKey

end Rcgen

/-! ## Backends -/

/-- A backend process, from its start to the end of `load_or_init`. -/
inductive Backend (Key : Type)
  | down
  | unrooted (commonName : String)
  | generated (ca : Ca Key)
  | serving (ca : Ca Key)

/-- The tables with the enrollments, the backends, and the certificates that
went out with the answers. -/
structure Authority (Key : Type) where
  issuing : Issuing
  caState : Option CaRow
  backends : ℕ → Backend Key
  leaves : ℕ → Option (Certificate Key)

inductive AuthorityStep (Key : Type)
  | table (step : NodeStep)
  | select (backend : ℕ) (commonName : String) (nonce : ℕ)
  | generate (backend : ℕ) (key : Key) (nonce : ℕ)
  | insert (backend : ℕ) (answered : Bool)
  | stop (backend : ℕ)
  | answer (backend call : ℕ) (leafKey : LeafKey) (nonce : ℕ) (coordinatorEndpoint : String)
      (wgConfigIni : Option String)

namespace Authority

variable {Key : Type} (rcgen : Rcgen Key)

def initial (db : Database) : Authority Key :=
  ⟨.initial db, none, fun _ => .down, fun _ => none⟩

def setBackend (s : Authority Key) (backend : ℕ) (next : Backend Key) : Authority Key :=
  { s with backends := Function.update s.backends backend next }

/-- The first statement of `load_or_init`. The process ends when the stored key
cannot be read. -/
def select (s : Authority Key) (backend : ℕ) (commonName : String) (nonce : ℕ) :
    Option (Authority Key) :=
  match s.backends backend, s.caState with
  | .down, some row =>
      match rcgen.loadCa row.commonName row.certPem row.keyPem nonce with
      | some ca => some (s.setBackend backend (.serving ca))
      | none => some s
  | .down, none => some (s.setBackend backend (.unrooted commonName))
  | _, _ => none

def generate (s : Authority Key) (backend : ℕ) (key : Key) (nonce : ℕ) :
    Option (Authority Key) :=
  match s.backends backend with
  | .unrooted commonName =>
      some (s.setBackend backend (.generated (rcgen.generateRootCa commonName key nonce)))
  | _ => none

/-- The `INSERT`. A row that is there already violates the primary key, and a
backend whose statement is not answered ends, whether or not the row is stored. -/
def insert (s : Authority Key) (backend : ℕ) (answered : Bool) : Option (Authority Key) :=
  match s.backends backend, s.caState with
  | .generated ca, none =>
      let stored := { s with caState := some (rcgen.row ca) }
      some (stored.setBackend backend (if answered then .serving ca else .down))
  | .generated _, some _ => some (s.setBackend backend .down)
  | _, _ => none

/-- The end of `complete` in a backend that serves. The certificate was signed
earlier in the same call, with the same `Ca`. -/
def answer (s : Authority Key) (backend call : ℕ) (leafKey : LeafKey) (nonce : ℕ)
    (coordinatorEndpoint : String) (wgConfigIni : Option String) : Option (Authority Key) :=
  match s.backends backend with
  | .serving ca =>
      (s.issuing.answer call ⟨leafKey, rcgen.certPem ca, coordinatorEndpoint, wgConfigIni⟩).map
        fun issuing => { s with
          issuing := issuing
          leaves := Function.update s.leaves call ((issuing.answers call).map fun response =>
            ca.signed response.clientCert nonce) }
  | _ => none

end Authority

def AuthorityStep.run {Key : Type} (rcgen : Rcgen Key) (verify : String → String → Bool)
    (s : Authority Key) : AuthorityStep Key → Option (Authority Key)
  | .table step =>
      ((nodeTable verify).step s.issuing.table step).map fun table =>
        { s with issuing := { s.issuing with table } }
  | .select backend commonName nonce => s.select rcgen backend commonName nonce
  | .generate backend key nonce => s.generate rcgen backend key nonce
  | .insert backend answered => s.insert rcgen backend answered
  | .stop backend => some (s.setBackend backend .down)
  | .answer backend call leafKey nonce coordinatorEndpoint wgConfigIni =>
      s.answer rcgen backend call leafKey nonce coordinatorEndpoint wgConfigIni

/-- Backends that start, stop and enroll, on a database that has just been migrated. -/
def authority {Key : Type} (rcgen : Rcgen Key) (verify : String → String → Bool) :
    Machine (Authority Key) (AuthorityStep Key) where
  init s := ∃ db, s = .initial db
  step s step := step.run rcgen verify s

/-! ## Loading -/

section Loading

variable {Key : Type} {rcgen : Rcgen Key}

/-- What every holder of the root `cert` has: its key, its name and its text. -/
structure Ca.Holds (rcgen : Rcgen Key) (root : Certificate Key) (ca : Ca Key) : Prop where
  key : ca.key = root.signer
  subject : ca.cert.subject = root.subject
  certPem : rcgen.certPem ca = rcgen.pem root

theorem holds_generateRootCa (commonName : String) (key : Key) (nonce : ℕ) :
    (rcgen.generateRootCa commonName key nonce).Holds rcgen
      (rcgen.buildRootCert commonName key nonce) :=
  ⟨rfl, rfl, rfl⟩

/-- The stored row of a new root is read back, under the name it was made with. -/
theorem loadCa_row (hpem : ∀ key, rcgen.fromPem (rcgen.serializePem key) = some key)
    (commonName : String) (key : Key) (nonce later : ℕ) :
    ∃ ca, ca.Holds rcgen (rcgen.buildRootCert commonName key nonce) ∧
      rcgen.loadCa commonName (rcgen.pem (rcgen.buildRootCert commonName key nonce))
        (rcgen.serializePem key) later = some ca := by
  refine ⟨⟨rcgen.buildRootCert commonName key later, key,
    some (rcgen.pem (rcgen.buildRootCert commonName key nonce)), commonName⟩, ⟨rfl, rfl, rfl⟩, ?_⟩
  rw [Rcgen.loadCa, hpem, Option.map_some]

end Loading

/-! ## Every run -/

section Runs

variable {Key : Type} {rcgen : Rcgen Key} {verify : String → String → Bool}

/-- The stored root, and what it was made from. -/
structure Authority.Stored (rcgen : Rcgen Key) (s : Authority Key) (commonName : String)
    (key : Key) (nonce : ℕ) : Prop where
  row : s.caState = some (rcgen.row (rcgen.generateRootCa commonName key nonce))
  serving : ∀ backend ca, s.backends backend = .serving ca →
    ca.Holds rcgen (rcgen.buildRootCert commonName key nonce)
  leaves : ∀ call leaf, s.leaves call = some leaf →
    rcgen.Verifies (rcgen.buildRootCert commonName key nonce) leaf
  answers : ∀ call response, s.issuing.answers call = some response →
    response.caChainPem = rcgen.pem (rcgen.buildRootCert commonName key nonce) ∧
      ∃ leaf, s.leaves call = some leaf ∧ leaf.subject = [(.commonName, response.nodeId),
        (.organizationalUnitName, "worker-node")]

/-- Before a root is stored nobody serves and nothing is handed out. -/
structure Authority.Unrooted (s : Authority Key) : Prop where
  row : s.caState = none
  serving : ∀ backend ca, s.backends backend ≠ .serving ca
  leaves : ∀ call, s.leaves call = none
  answers : ∀ call, s.issuing.answers call = none

/-- A root that waits for its `INSERT` has just been generated. -/
def Authority.Fresh (rcgen : Rcgen Key) (s : Authority Key) : Prop :=
  ∀ backend ca, s.backends backend = .generated ca →
    ∃ commonName key nonce, ca = rcgen.generateRootCa commonName key nonce

def Authority.Rooted (rcgen : Rcgen Key) (s : Authority Key) : Prop :=
  s.Fresh rcgen ∧ (s.Unrooted ∨ ∃ commonName key nonce, s.Stored rcgen commonName key nonce)

variable {s next : Authority Key} {commonName : String} {key : Key} {nonce : ℕ}

/-- A property of every backend, when one of them moves on. -/
theorem Authority.forall_setBackend {P : Backend Key → Prop} {backend : ℕ} {moved : Backend Key}
    (hs : ∀ other, P (s.backends other)) (hmoved : P moved) (other : ℕ) :
    P ((s.setBackend backend moved).backends other) := by
  by_cases hsame : other = backend
  · subst hsame
    simpa only [setBackend, Function.update_self] using hmoved
  · simpa only [setBackend, Function.update_of_ne hsame] using hs other

namespace Authority

theorem Fresh.setBackend (hs : s.Fresh rcgen) (backend : ℕ) {moved : Backend Key}
    (hmoved : ∀ ca, moved = .generated ca →
      ∃ commonName key nonce, ca = rcgen.generateRootCa commonName key nonce) :
    (s.setBackend backend moved).Fresh rcgen := fun other =>
  forall_setBackend (P := fun backend => ∀ ca, backend = .generated ca →
    ∃ commonName key nonce, ca = rcgen.generateRootCa commonName key nonce) hs hmoved other

theorem Unrooted.setBackend (hs : s.Unrooted) (backend : ℕ) {moved : Backend Key}
    (hmoved : ∀ ca, moved ≠ .serving ca) : (s.setBackend backend moved).Unrooted :=
  ⟨hs.row, forall_setBackend (P := fun backend => ∀ ca, backend ≠ .serving ca) hs.serving hmoved,
    hs.leaves, hs.answers⟩

theorem Stored.setBackend (hs : s.Stored rcgen commonName key nonce) (backend : ℕ)
    {moved : Backend Key} (hmoved : ∀ ca, moved = .serving ca →
      ca.Holds rcgen (rcgen.buildRootCert commonName key nonce)) :
    (s.setBackend backend moved).Stored rcgen commonName key nonce :=
  ⟨hs.row, forall_setBackend (P := fun backend => ∀ ca, backend = .serving ca →
    ca.Holds rcgen (rcgen.buildRootCert commonName key nonce)) hs.serving hmoved,
    hs.leaves, hs.answers⟩

/-- A backend that neither generates nor serves is of no account. -/
theorem Rooted.setBackend (hs : s.Rooted rcgen) (backend : ℕ) {moved : Backend Key}
    (hgenerated : ∀ ca, moved = .generated ca →
      ∃ commonName key nonce, ca = rcgen.generateRootCa commonName key nonce)
    (hserving : ∀ ca, moved ≠ .serving ca) : (s.setBackend backend moved).Rooted rcgen := by
  refine ⟨hs.1.setBackend backend hgenerated, ?_⟩
  rcases hs.2 with hunrooted | ⟨commonName, key, nonce, hstored⟩
  · exact .inl (hunrooted.setBackend backend hserving)
  · exact .inr ⟨commonName, key, nonce,
      hstored.setBackend backend fun ca hca => absurd hca (hserving ca)⟩

end Authority

/-! ### Every step -/

namespace Authority

variable (hpem : ∀ key, rcgen.fromPem (rcgen.serializePem key) = some key)

include hpem in
theorem select_rooted (hs : s.Rooted rcgen) {backend : ℕ} {name : String} {later : ℕ}
    (hstep : s.select rcgen backend name later = some next) : next.Rooted rcgen := by
  unfold select at hstep
  split at hstep
  next row _ hrow =>
    rcases hs.2 with hunrooted | ⟨commonName, key, nonce, hstored⟩
    · exact nomatch hunrooted.row.symm.trans hrow
    · -- the row was written with a root, so it loads
      cases hstored.row.symm.trans hrow
      obtain ⟨ca, hholds, hload⟩ := loadCa_row hpem commonName key nonce later
      simp only [Rcgen.row, Rcgen.keyPem, Rcgen.certPem, Rcgen.generateRootCa,
        Option.getD_none, hload] at hstep
      cases hstep
      refine ⟨hs.1.setBackend backend nofun, .inr ⟨commonName, key, nonce, ?_⟩⟩
      apply hstored.setBackend backend
      rintro _ ⟨⟩
      exact hholds
  next =>
    cases hstep
    exact hs.setBackend backend nofun nofun
  next => cases hstep

theorem generate_rooted (hs : s.Rooted rcgen) {backend : ℕ}
    (hstep : s.generate rcgen backend key nonce = some next) : next.Rooted rcgen := by
  unfold generate at hstep
  split at hstep
  next name _ =>
    cases hstep
    refine hs.setBackend backend (fun ca hca => ?_) nofun
    cases hca
    exact ⟨name, key, nonce, rfl⟩
  next => cases hstep

/-- The first root that is stored. -/
theorem Unrooted.store (hs : s.Unrooted) (commonName : String) (key : Key) (nonce : ℕ) :
    ({ s with caState := some (rcgen.row (rcgen.generateRootCa commonName key nonce)) } :
      Authority Key).Stored rcgen commonName key nonce where
  row := rfl
  serving backend ca hca := absurd hca (hs.serving backend ca)
  leaves call _ hleaf := nomatch (hs.leaves call).symm.trans hleaf
  answers call _ hresponse := nomatch (hs.answers call).symm.trans hresponse

theorem insert_rooted (hs : s.Rooted rcgen) {backend : ℕ} {answered : Bool}
    (hstep : s.insert rcgen backend answered = some next) : next.Rooted rcgen := by
  unfold insert at hstep
  split at hstep
  next ca hbackend hrow =>
    cases hstep
    obtain ⟨commonName, key, nonce, rfl⟩ := hs.1 backend ca hbackend
    have hunrooted : s.Unrooted := by
      rcases hs.2 with hunrooted | ⟨_, _, _, hstored⟩
      · exact hunrooted
      · exact nomatch hstored.row.symm.trans hrow
    have hstored : Stored rcgen _ commonName key nonce := hunrooted.store commonName key nonce
    have hfresh : Fresh rcgen { s with
        caState := some (rcgen.row (rcgen.generateRootCa commonName key nonce)) } := hs.1
    refine ⟨hfresh.setBackend backend fun ca hca => ?_,
      .inr ⟨commonName, key, nonce, hstored.setBackend backend fun ca hca => ?_⟩⟩
    · split at hca <;> cases hca
    · split at hca
      next =>
        cases hca
        exact holds_generateRootCa commonName key nonce
      next => cases hca
  next =>
    cases hstep
    exact hs.setBackend backend nofun nofun
  next => cases hstep

/-- What a holder of the root signs verifies under it. -/
theorem verifies_signed {root : Certificate Key} {ca : Ca Key} (hholds : ca.Holds rcgen root)
    (hroot : root.isCa = true) (hkey : root.publicKey = rcgen.publicKey root.signer)
    (cert : NodeCert) (nonce : ℕ) : rcgen.Verifies root (ca.signed cert nonce) where
  isCa := hroot
  issuer := hholds.subject
  signature := by
    rw [hkey]
    exact congrArg rcgen.publicKey hholds.key

/-- An answer carries the text of its backend's root and a certificate signed with it. -/
theorem answer_cases {backend call : ℕ} {leafKey : LeafKey} {later : ℕ}
    {coordinatorEndpoint : String} {wgConfigIni : Option String}
    (hstep : s.answer rcgen backend call leafKey later coordinatorEndpoint wgConfigIni =
      some next) :
    ∃ (ca : Ca Key) (a : Attempt) (nodeId : String) (context : EnrollContext),
      s.backends backend = .serving ca ∧ context.caChainPem = rcgen.certPem ca ∧
        next = { s with
          issuing := { s.issuing with
            answers := Function.update s.issuing.answers call (some (a.response nodeId context)) }
          leaves := Function.update s.leaves call
            (some (ca.signed (a.response nodeId context).clientCert later)) } := by
  unfold answer at hstep
  split at hstep
  next ca hbackend =>
    obtain ⟨issuing, hissuing, rfl⟩ := Option.map_eq_some_iff.mp hstep
    unfold Issuing.answer at hissuing
    split at hissuing
    next a nodeId _ _ =>
      cases hissuing
      refine ⟨ca, a, nodeId, ⟨leafKey, rcgen.certPem ca, coordinatorEndpoint, wgConfigIni⟩,
        hbackend, rfl, ?_⟩
      simp only [Function.update_self, Option.map_some]
    next => cases hissuing
  next => cases hstep

theorem answer_rooted (hs : s.Rooted rcgen) {backend call : ℕ} {leafKey : LeafKey}
    {later : ℕ} {coordinatorEndpoint : String} {wgConfigIni : Option String}
    (hstep : s.answer rcgen backend call leafKey later coordinatorEndpoint wgConfigIni =
      some next) : next.Rooted rcgen := by
  obtain ⟨ca, a, nodeId, context, hbackend, hchain, rfl⟩ := answer_cases hstep
  rcases hs.2 with hunrooted | ⟨commonName, key, nonce, hstored⟩
  · exact absurd hbackend (hunrooted.serving backend ca)
  have hholds := hstored.serving backend ca hbackend
  refine ⟨hs.1, .inr ⟨commonName, key, nonce, hstored.row, hstored.serving, ?_, ?_⟩⟩
  · intro other leaf hleaf
    by_cases hsame : other = call
    · subst hsame
      simp only [Function.update_self, Option.some.injEq] at hleaf
      subst hleaf
      exact verifies_signed hholds rfl rfl _ later
    · simp only [Function.update_of_ne hsame] at hleaf
      exact hstored.leaves other leaf hleaf
  · intro other response hresponse
    by_cases hsame : other = call
    · subst hsame
      simp only [Function.update_self, Option.some.injEq] at hresponse ⊢
      subst hresponse
      exact ⟨hchain.trans hholds.certPem, _, rfl, rfl⟩
    · simp only [Function.update_of_ne hsame] at hresponse ⊢
      exact hstored.answers other response hresponse

include hpem in
theorem step_rooted (hs : s.Rooted rcgen) {step : AuthorityStep Key}
    (hstep : (authority rcgen verify).step s step = some next) : next.Rooted rcgen := by
  cases step with
  | table step =>
      obtain ⟨table, -, rfl⟩ := Option.map_eq_some_iff.mp hstep
      refine ⟨hs.1, ?_⟩
      rcases hs.2 with hunrooted | ⟨commonName, key, nonce, hstored⟩
      · exact .inl ⟨hunrooted.row, hunrooted.serving, hunrooted.leaves, hunrooted.answers⟩
      · exact .inr ⟨commonName, key, nonce, hstored.row, hstored.serving, hstored.leaves,
          hstored.answers⟩
  | select => exact select_rooted hpem hs hstep
  | generate => exact generate_rooted hs hstep
  | insert => exact insert_rooted hs hstep
  | stop backend =>
      cases hstep
      exact hs.setBackend backend nofun nofun
  | answer => exact answer_rooted hs hstep

include hpem in
theorem rooted_of_reachable (hs : (authority rcgen verify).Reachable s) : s.Rooted rcgen := by
  refine hs.invariant (Rooted rcgen) ?_ fun _ _ _ hs hstep => step_rooted hpem hs hstep
  rintro _ ⟨db, rfl⟩
  exact ⟨nofun, .inl ⟨rfl, nofun, fun _ => rfl, fun _ => rfl⟩⟩

include hpem in
/-- However backends start, race and restart, either nothing has been handed out,
or there is one root that the stored row has, that every serving backend holds, that
comes with every answer, and that every certificate verifies under. -/
theorem answers_haveOneRoot (hs : (authority rcgen verify).Reachable s) :
    s.Unrooted ∨ ∃ root : Certificate Key,
      (∃ row, s.caState = some row ∧ row.certPem = rcgen.pem root ∧
        rcgen.fromPem row.keyPem = some root.signer) ∧
      (∀ backend ca, s.backends backend = .serving ca → ca.Holds rcgen root) ∧
        ∀ call response, s.issuing.answers call = some response →
          response.caChainPem = rcgen.pem root ∧ ∃ leaf, s.leaves call = some leaf ∧
            rcgen.Verifies root leaf ∧ leaf.subject = [(.commonName, response.nodeId),
              (.organizationalUnitName, "worker-node")] := by
  rcases (rooted_of_reachable hpem hs).2 with hunrooted | ⟨commonName, key, nonce, hstored⟩
  · exact .inl hunrooted
  · refine .inr ⟨rcgen.buildRootCert commonName key nonce, ⟨_, hstored.row, rfl, hpem key⟩,
      hstored.serving, fun call response hresponse => ?_⟩
    obtain ⟨hchain, leaf, hleaf, hsubject⟩ := hstored.answers call response hresponse
    exact ⟨hchain, leaf, hleaf, hstored.leaves call leaf hleaf, hsubject⟩

end Authority

end Runs

/-! ## One run -/

/-- Keys that are their own PEM text. -/
def plainKeys : Rcgen String where
  publicKey key := "public " ++ key
  serializePem key := key
  fromPem text := some text
  pem cert := cert.signer ++ " for " ++ toString (cert.subject.map Prod.snd)

/-- Two backends make up a root at the same time. The second one loses, starts
again, and answers for a node. -/
def racingStarts : List (AuthorityStep String) :=
  let req : EnrollRequest := ⟨"one", "key", none, .object [("hw_fingerprint", .string "hw")]⟩
  let enrollment : List EnrollStep :=
    [.start 0 req "10.0.0.1/32" 0 (some "t1"), .lookup 0 "n" "sha", .begin 0 0, .exec 0 "",
      .exec 0 "", .exec 0 "", .exec 0 "", .commit 0]
  [.select 0 "Root A" 0, .select 1 "Root B" 1, .generate 1 "kb" 2, .generate 0 "ka" 3,
    .insert 0 true, .insert 1 true, .select 1 "Root B" 4] ++
    (enrollment.map fun step => .table (.enroll step)) ++
    [.answer 1 0 ⟨"leaf", "leaf key"⟩ 5 "http://gateway" none]

theorem racingStarts_haveOneRoot :
    ∃ s, (authority plainKeys fun hash secret => hash == secret).exec (.initial twoTokens)
        racingStarts = some s ∧
      (s.issuing.answers 0).isSome ∧
      (s.Unrooted ∨ ∃ root : Certificate String,
        (∃ row, s.caState = some row ∧ row.certPem = plainKeys.pem root ∧
          plainKeys.fromPem row.keyPem = some root.signer) ∧
        (∀ backend ca, s.backends backend = .serving ca → ca.Holds plainKeys root) ∧
          ∀ call response, s.issuing.answers call = some response →
            response.caChainPem = plainKeys.pem root ∧ ∃ leaf, s.leaves call = some leaf ∧
              plainKeys.Verifies root leaf ∧ leaf.subject = [(.commonName, response.nodeId),
                (.organizationalUnitName, "worker-node")]) := by
  have hrun : ((authority plainKeys fun hash secret => hash == secret).exec (.initial twoTokens)
      racingStarts).any (fun s => (s.issuing.answers 0).isSome) = true := by
    decide +kernel
  obtain ⟨s, hexec, hanswer⟩ := (Option.any_eq_true _ _).mp hrun
  have hreach : (authority plainKeys fun hash secret => hash == secret).Reachable s :=
    .exec (.init ⟨twoTokens, rfl⟩) hexec
  exact ⟨s, hexec, hanswer, Authority.answers_haveOneRoot (fun _ => rfl) hreach⟩

end GpuCluster.Mgmt
