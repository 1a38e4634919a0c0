import GpuCluster.Cluster.CollectedReports
import GpuCluster.Coordinator.Eligibility
import GpuCluster.Coordinator.LoadModel
import GpuCluster.Foundation.Uri
import GpuCluster.Mgmt.Models

/-! # Where a node is reached

Three places turn an entry of the registry into an address: `eligible_nodes`
and `load_model_proxy` in the coordinator, and the peer list of a multi-node
load, which starts over from the published view. They choose the same host and
join it to a port by a colon, which the authority grammar reads back for IPv4
and refuses for IPv6.
-/

namespace GpuCluster.Cluster

open Coordinator Foundation Mgmt Proto Worker

/-- The authority a node with this address listens at. -/
def listensAt (address : IpAddr) (port : ℕ) : Authority := ⟨none, .ip address, some port⟩

/-- What the worker advertises when only the port is known. -/
def portOnly (port : UInt16) : String := ":" ++ toString port.toNat

/-- The two URLs and the peer entry of a node all lead to its address. -/
structure WellAddressed (entry : NodeEntry) (self : String) (address : IpAddr)
    (inferencePort controlPort : UInt16) : Prop where
  inference : ∃ url, entry.inferenceUrl = some url ∧
    parseHttp url = some (listensAt address inferencePort.toNat, "")
  control : ∃ url, entry.controlUrl = .ok url ∧
    controlClientUrl ((stripSuffix? controlPath url).getD url) = url ∧
    parseHttp url = some (listensAt address controlPort.toNat, controlPath)
  peer : ∃ peer, peerOf self (eligibleJson entry) = some peer ∧
    Authority.parse peer.toList = some (listensAt address workerRpcPort.toNat)

/-! ## The texts -/

variable {entry : NodeEntry} {host : String}

theorem inferenceUrl_portOnly (hhost : entry.dispatchIp = some host) {port : UInt16}
    (hport : entry.inferenceEndpoint = some (portOnly port)) :
    entry.inferenceUrl =
      some ("http://" ++ String.ofList (bareAuthority host.toList port.toNat) ++ "") := by
  have htext : host ++ portOnly port = String.ofList (bareAuthority host.toList port.toNat) := by
    simp [← String.toList_inj, portOnly, bareAuthority]
  have hcolon : (portOnly port).toList.head? = some ':' := by simp [portOnly]
  rw [NodeEntry.inferenceUrl, hport]
  simp only [if_pos hcolon, hhost, Option.map_some]
  rw [← htext, String.append_empty, String.append_assoc]

theorem controlUrl_portOnly (hhost : entry.dispatchIp = some host) {port : UInt16}
    (hport : entry.controlEndpoint = some (portOnly port)) :
    entry.controlUrl =
      .ok ("http://" ++ String.ofList (bareAuthority host.toList port.toNat) ++ controlPath) := by
  have htext : host ++ portOnly port = String.ofList (bareAuthority host.toList port.toNat) := by
    simp [← String.toList_inj, portOnly, bareAuthority]
  have hcolon : (portOnly port).toList.head? = some ':' := by simp [portOnly]
  rw [NodeEntry.controlUrl, hport]
  simp only [if_pos hcolon, hhost]
  rw [← htext, ← String.append_assoc]

/-- The reader of the published view picks the host that the coordinator picks. -/
theorem peerOf_eligibleJson (hhost : entry.dispatchIp = some host) (hne : host ≠ "")
    {self : String} (hself : entry.info.nodeId ≠ self) :
    peerOf self (eligibleJson entry) =
      some (.ofList (bareAuthority host.toList workerRpcPort.toNat)) := by
  have hrow := eligibleJson_shows entry
  have hchosen : (((eligibleJson entry).str? "wg_ip").filter (· ≠ "")).or
      ((eligibleJson entry).str? "public_ip") = some host := by
    rw [hrow.wgIp, hrow.publicIp]
    exact hhost
  simp only [peerOf, hchosen, hrow.nodeId, hrow.rpcPort, Option.getD_some,
    if_neg (not_or.mpr ⟨hself, hne⟩)]
  have hdigits : (toString (50052 : UInt64)).toList = Nat.toDigits 10 50052 := Nat.toList_repr
  simp [← String.toList_inj, bareAuthority, workerRpcPort, hdigits]

/-- The control client posts to the URL that was built: it takes the path off
and puts it back. -/
theorem controlClientUrl_append (base : String) (hbase : base.toList.getLast? ≠ some '/') :
    controlClientUrl ((stripSuffix? controlPath (base ++ controlPath)).getD (base ++ controlPath)) =
      base ++ controlPath := by
  have hstrip : stripSuffix? controlPath (base ++ controlPath) = some base := by
    have hsuffix : controlPath.toList.isSuffixOf (base ++ controlPath).toList = true := by
      rw [String.toList_append, List.isSuffixOf_iff_suffix]
      exact List.suffix_append ..
    rw [stripSuffix?, if_pos hsuffix, String.length_append, Nat.add_sub_cancel,
      String.toList_append, ← String.length_toList, List.take_left, String.ofList_toList]
  have htrim : trimEnd '/' base = base := by
    have hlast : base.toList.reverse.head? ≠ some '/' := by rwa [List.head?_reverse]
    have hdrop : base.toList.reverse.dropWhile (· = '/') = base.toList.reverse := by
      rw [List.dropWhile_eq_self_iff]
      intro hpos hslash
      rw [decide_eq_true_eq] at hslash
      rw [List.head?_eq_getElem?, List.getElem?_eq_getElem hpos, hslash] at hlast
      exact hlast rfl
    rw [trimEnd, hdrop, List.reverse_reverse, String.ofList_toList]
  rw [hstrip, Option.getD_some, controlClientUrl, htrim]

/-- A URL that ends with a port does not end with a slash. -/
theorem getLast?_bareAuthority (text : List Char) (port : ℕ) :
    ("http://" ++ String.ofList (bareAuthority text port)).toList.getLast? ≠ some '/' := by
  have hdigits : ("http://" ++ String.ofList (bareAuthority text port)).toList =
      ("http://".toList ++ text ++ [':']) ++ Nat.toDigits 10 port := by
    simp [bareAuthority]
  intro hslash
  rw [hdigits, List.getLast?_append_of_ne_nil _ Nat.toDigits_ne_nil] at hslash
  exact not_mem_toDigits (by decide) (by decide) (by decide) port
    (List.mem_of_mem_getLast? hslash)

/-! ## When they are authorities -/

variable {address : IpAddr}

theorem parseHttp_bareAuthority (hparse : IpAddr.parse host.toList = some address) (port : ℕ)
    {path : String} (hpath : path = "" ∨ path.toList.head? = some '/') :
    parseHttp ("http://" ++ String.ofList (bareAuthority host.toList port) ++ path) =
      if address.isIpv4 then some (listensAt address port, path) else none := by
  rw [parseHttp_append _ _ _ hpath, Authority.parse_bareAuthority hparse]
  · cases address.isIpv4 <;> rfl
  · rintro c hc (rfl | rfl | rfl) <;>
    exact not_mem_bareAuthority hparse port (by decide) (by decide) (by decide) hc

/-- A node that is dispatched to by address and advertises ports only. -/
structure PortsAt (entry : NodeEntry) (host : String) (inferencePort controlPort : UInt16) :
    Prop where
  host : entry.dispatchIp = some host
  inference : entry.inferenceEndpoint = some (portOnly inferencePort)
  control : entry.controlEndpoint = some (portOnly controlPort)

theorem PortsAt.wellAddressed_iff {inferencePort controlPort : UInt16}
    (hports : PortsAt entry host inferencePort controlPort)
    (haddress : IpAddr.parse host.toList = some address) {self : String}
    (hself : entry.info.nodeId ≠ self) :
    WellAddressed entry self address inferencePort controlPort ↔ address.isIpv4 := by
  have hne : host ≠ "" := by
    rintro rfl
    exact IpAddr.ne_nil_of_parse haddress rfl
  have hinferenceUrl := inferenceUrl_portOnly hports.host hports.inference
  have hcontrolUrl := controlUrl_portOnly hports.host hports.control
  have hpeer := peerOf_eligibleJson hports.host hne hself
  have hinferenceParse := parseHttp_bareAuthority haddress inferencePort.toNat (.inl rfl)
  have hcontrolPath : controlPath = "" ∨ controlPath.toList.head? = some '/' := .inr (by decide)
  have hcontrolParse := parseHttp_bareAuthority haddress controlPort.toNat hcontrolPath
  have hpeerParse := Authority.parse_bareAuthority haddress workerRpcPort.toNat
  constructor
  · rintro ⟨⟨url, hurl, hreached⟩, -, -⟩
    rw [hinferenceUrl, Option.some.injEq] at hurl
    subst hurl
    rw [hinferenceParse] at hreached
    by_contra hfamily
    rw [if_neg hfamily] at hreached
    cases hreached
  · intro hfamily
    rw [if_pos hfamily] at hinferenceParse hcontrolParse hpeerParse
    have hposted := controlClientUrl_append _
      (getLast?_bareAuthority host.toList controlPort.toNat)
    exact ⟨⟨_, hinferenceUrl, hinferenceParse⟩, ⟨_, hcontrolUrl, hposted, hcontrolParse⟩,
      ⟨_, hpeer, by rw [String.toList_ofList]; exact hpeerParse⟩⟩

/-- For a node that is dispatched to by address and advertises ports only, the
three texts lead to that address exactly when it is an IPv4 address. -/
theorem wellAddressed_iff_isIpv4 (entry : NodeEntry) (host : String) (address : IpAddr)
    (inferencePort controlPort : UInt16) (self : String)
    (hhost : entry.dispatchIp = some host) (haddress : IpAddr.parse host.toList = some address)
    (hinference : entry.inferenceEndpoint = some (portOnly inferencePort))
    (hcontrol : entry.controlEndpoint = some (portOnly controlPort))
    (hself : entry.info.nodeId ≠ self) :
    WellAddressed entry self address inferencePort controlPort ↔ address.isIpv4 :=
  have hports : PortsAt entry host inferencePort controlPort := ⟨hhost, hinference, hcontrol⟩
  hports.wellAddressed_iff haddress hself

/-- A reported node on the default ports, seen at an address. -/
def seenAt (publicIp : String) : NodeEntry :=
  .make 0 { nodeId := "n" } (some publicIp) (some (portOnly 50053)) (some (portOnly 50054)) none

theorem wellAddressed_seenAt :
    WellAddressed (seenAt "192.0.2.7") "m" (.v4 ⟨192, 0, 2, 7⟩) 50053 50054 :=
  (wellAddressed_iff_isIpv4 (seenAt "192.0.2.7") "192.0.2.7" _ 50053 50054 "m" rfl
    (IpAddr.parse_eq_v4.mpr (by decide)) rfl rfl (by decide)).mpr rfl

def ipv6Address : IpAddr := .v6 ⟨[0x2001, 0xdb8, 0, 0, 0, 0, 0, 1], rfl⟩

/-- A worker that connects over IPv6 is published under a URL that is none. -/
theorem seenAt_ipv6_unreachable :
    ipv6Address.display = "2001:db8::1" ∧
    (seenAt "2001:db8::1").inferenceUrl = some "http://2001:db8::1:50053" ∧
    parseHttp "http://2001:db8::1:50053" = none ∧
    ¬ WellAddressed (seenAt "2001:db8::1") "m" ipv6Address 50053 50054 := by
  have hurl : (seenAt "2001:db8::1").inferenceUrl = some "http://2001:db8::1:50053" := by decide
  have hnone : parseHttp "http://2001:db8::1:50053" = none := by decide
  refine ⟨by decide, hurl, hnone, ?_⟩
  rintro ⟨⟨url, hbuilt, hparse⟩, -, -⟩
  rw [hurl, Option.some.injEq] at hbuilt
  rw [← hbuilt, hnone] at hparse
  cases hparse

/-! ## Workers that report -/

section Reported

variable {config : WorkerConfig} {nodeId : String} {s : AgentRun} {p : Posted}

theorem portsAt_collected (config : WorkerConfig) (nodeId : String) (facts : Sysinfo.HostFacts)
    (status : NodeStatus) (now : ℤ) (hserves : p.sup.child.isSome) (controlPort : UInt16)
    (peer : String) :
    PortsAt ((collectedReport config nodeId facts status p.sup none (portOnly controlPort)
      peer).entry now) peer p.sup.port controlPort := by
  have hports : ∀ port : UInt16, nonEmpty (some (portOnly port)) = some (portOnly port) := by
    intro port
    have hne : portOnly port ≠ "" := by simp [portOnly]
    simp [nonEmpty, hne]
  obtain ⟨pid, hpid⟩ := Option.isSome_iff_exists.mp hserves
  have hendpoint : p.sup.endpointAdvertise none = some (portOnly p.sup.port) := by
    rw [Supervisor.endpointAdvertise, hpid]
    rfl
  refine ⟨rfl, ?_, hports controlPort⟩
  change nonEmpty (p.sup.endpointAdvertise none) = some (portOnly p.sup.port)
  rw [hendpoint, hports]

/-- A worker that runs an inference server and is told no host to advertise: when its
report is accepted, its URLs and its peer entry lead to the address that it connected
from exactly when this is an IPv4 address. -/
theorem reportedWorker_isReached (hs : (agent config nodeId).Reachable s) (hp : p ∈ s.posted)
    (hid : nodeId ≠ "") (hserves : p.sup.child.isSome) (controlPort : UInt16) (address : IpAddr)
    {reg later : Registry} {now : ℤ} {id : String}
    (haccepted : reportNode reg now address.display
      (publishBody p.info p.sup none (portOnly controlPort)) = .ok (later, id))
    {self : String} (hself : nodeId ≠ self) :
    ∃ entry, later.get nodeId = some entry ∧
      (WellAddressed entry self address p.sup.port controlPort ↔ address.isIpv4) := by
  obtain ⟨facts, -, status, hinfo, -⟩ := posted_info hs hp
  have hdecode := decodeReport_collected hinfo hid none (portOnly controlPort) address.display
  rw [reportNode_of_decode hdecode] at haccepted
  split at haccepted
  next => cases haccepted
  next =>
    cases haccepted
    have hread : IpAddr.parse address.display.toList = some address := by
      rw [IpAddr.display, String.toList_ofList, IpAddr.parse_text]
    have hports := portsAt_collected config nodeId facts status now hserves controlPort
      address.display
    exact ⟨_, reg.get_insert_self _, hports.wellAddressed_iff hread hself⟩

/-- A worker that connects over IPv4 is reached there. -/
theorem plainWorker_isReached : ∃ s p later entry,
    (agent ⟨"http://coordinator:7000", "/data", none⟩ "n1").Reachable s ∧ p ∈ s.posted ∧
      reportNode .empty 7 "192.0.2.7" (publishBody p.info p.sup none ":50054") =
        .ok (later, "n1") ∧
      later.get "n1" = some entry ∧
      WellAddressed entry "m" (.v4 ⟨192, 0, 2, 7⟩) 50053 50054 := by
  let config : WorkerConfig := ⟨"http://coordinator:7000", "/data", none⟩
  let sup : Supervisor := ⟨50053, some 7, some "/data/models/m.gguf", some "m"⟩
  let host := plainHost .unsupported
  obtain ⟨s, hrun, p, hp, hsup⟩ : ∃ s, (agent config "n1").exec (.start config "n1" host)
      [.publish sup] = some s ∧ ∃ p ∈ s.posted, p.sup = sup :=
    ⟨_, rfl, _, List.mem_cons_self, rfl⟩
  have hreach : (agent config "n1").Reachable s := .exec (.init ⟨host, rfl⟩) hrun
  obtain ⟨later, haccepted⟩ : ∃ later, reportNode .empty 7 "192.0.2.7"
      (publishBody p.info p.sup none ":50054") = .ok (later, "n1") := by
    obtain ⟨facts, -, status, hinfo, -⟩ := posted_info hreach hp
    have hdecode := decodeReport_collected hinfo (by decide) none ":50054" "192.0.2.7"
    rw [reportNode_of_decode hdecode, Registry.findActive_empty]
    exact ⟨_, rfl⟩
  have hserves : p.sup.child.isSome := by rw [hsup]; rfl
  let address : IpAddr := .v4 ⟨192, 0, 2, 7⟩
  have hdisplay : address.display = "192.0.2.7" := by decide
  obtain ⟨entry, hentry, hreached⟩ := reportedWorker_isReached hreach hp (by decide) hserves 50054
    address (hdisplay ▸ haccepted) (show "n1" ≠ "m" by decide)
  rw [hsup] at hreached
  exact ⟨s, p, later, entry, hreach, hp, haccepted, hentry, hreached.mpr rfl⟩

end Reported

end GpuCluster.Cluster
