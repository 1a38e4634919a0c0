import GpuCluster.Common.RoundTrip
import GpuCluster.Coordinator.Server
import GpuCluster.Worker.Heartbeat

/-! # From the worker's inventory to the registry

What the coordinator stores is what the worker collected, less the fields that
the wire does not carry. The encoder, the decoder and the conversions agree on
every other field.
-/

namespace GpuCluster.Cluster

open Common Foundation Proto Sysinfo Worker
open Coordinator hiding statusLabel

/-! ## What a message keeps -/

def carriedCapability (c : GpuCapabilityProfile) : GpuCapabilityProfile :=
  { c with benchmark := none, backend := (GpuBackend.ofI32 c.backend).toI32 }

def carriedGpu (g : GpuInfo) : GpuInfo :=
  { g with
    pciBusId := ""
    capability := g.capability.map carriedCapability
    backend := (GpuBackend.ofI32 g.backend).toI32 }

def carriedNetwork (n : NetworkInfo) : NetworkInfo :=
  { n with
    asn := ""
    isp := ""
    countryCode := ""
    city := ""
    publicIpIsDynamic := false
    publicIpChangedAt := 0 }

/-- The message with defaults for what the wire does not carry, and the integers
of its enumerations in range. -/
def carried (info : NodeInfo) : NodeInfo :=
  { info with
    ownerUserId := ""
    gpus := info.gpus.map carriedGpu
    network := info.network.map carriedNetwork
    geo := none
    status := (NodeStatus.ofI32 info.status).toI32
    firstSeen := 0
    lastHeartbeat := 0
    clientCertSha := "" }

theorem toPb_ofPb_capability (c : GpuCapabilityProfile) :
    (GpuCapabilityProfileView.ofPb c).toPb = carriedCapability c := by
  simp only [GpuCapabilityProfileView.ofPb, GpuCapabilityProfileView.toPb,
    BackendView.toPb_ofPb, carriedCapability]

theorem toPb_ofPb_gpu (g : GpuInfo) : (GpuInfoView.ofPb g).toPb = carriedGpu g := by
  simp only [GpuInfoView.ofPb, GpuInfoView.toPb, BackendView.toPb_ofPb, carriedGpu,
    Option.map_map]
  congr 2
  funext c
  exact toPb_ofPb_capability c

/-- Reading a view back loses what views do not hold, and nothing else. -/
theorem toPb_ofPb_node (info : NodeInfo) : (NodeInfoView.ofPb info).toPb = carried info := by
  have hos : (info.os.map OsInfoView.ofPb).map OsInfoView.toPb = info.os := by
    cases info.os <;> rfl
  have hcpu : (info.cpuMem.map CpuMemInfoView.ofPb).map CpuMemInfoView.toPb = info.cpuMem := by
    cases info.cpuMem <;> rfl
  have hnetwork : (info.network.map NetworkInfoView.ofPb).map NetworkInfoView.toPb =
      info.network.map carriedNetwork := by
    cases info.network <;> rfl
  have hgpus : (info.gpus.map GpuInfoView.ofPb).map GpuInfoView.toPb =
      info.gpus.map carriedGpu := by
    rw [List.map_map]
    exact List.map_congr_left fun g _ => toPb_ofPb_gpu g
  simp only [NodeInfoView.ofPb, NodeInfoView.toPb, hos, hcpu, hnetwork, hgpus, carried,
    Option.map_some, NodeStatusView.toPb_ofPb, Option.getD_some]

/-! ## What the decoder reads -/

/-- The heartbeat decodes to the view of its inventory with the sidecars, if its
GPUs decode. -/
theorem decode_publishBody_gpus (info : NodeInfo) (sup : Supervisor)
    (advertisedHost : Option String) (controlEndpoint : String) :
    NodeInfoView.decode (publishBody info sup advertisedHost controlEndpoint) =
      (Decoder.seq GpuInfoView.decode (.array (info.gpus.map gpuJson))).map fun gpus =>
        { NodeInfoView.ofPb info with
          gpus
          inferenceEndpoint := sup.endpointAdvertise advertisedHost
          controlEndpoint := some controlEndpoint
          currentModel := sup.modelId } := by
  obtain ⟨hholds, hinferenceKey, hcontrolKey, hmodelKey⟩ :=
    publishBody_sidecars info sup advertisedHost controlEndpoint
  exact NodeInfoView.decode_of_holds hholds (Decoder.orDefault_string hinferenceKey)
    (Decoder.orDefault_string hcontrolKey) (Decoder.orDefault_string hmodelKey)

theorem decode_publishBody (info : NodeInfo) (sup : Supervisor) (advertisedHost : Option String)
    (controlEndpoint : String) (hfinite : FiniteBandwidth info) :
    NodeInfoView.decode (publishBody info sup advertisedHost controlEndpoint) = some
      { NodeInfoView.ofPb info with
        inferenceEndpoint := sup.endpointAdvertise advertisedHost
        controlEndpoint := some controlEndpoint
        currentModel := sup.modelId } := by
  rw [decode_publishBody_gpus, decode_gpus info hfinite]
  rfl

/-- What a heartbeat decodes to has the worker's own id and status. -/
theorem view_of_publishBody {info : NodeInfo} {sup : Supervisor} {advertisedHost : Option String}
    {controlEndpoint : String} {view : NodeInfoView}
    (hview : NodeInfoView.decode (publishBody info sup advertisedHost controlEndpoint) =
      some view) :
    view.toPb.nodeId = info.nodeId ∧
      view.toPb.status = (NodeStatus.ofI32 info.status).toI32 := by
  rw [decode_publishBody_gpus] at hview
  obtain ⟨gpus, -, rfl⟩ := Option.map_eq_some_iff.mp hview
  refine ⟨rfl, ?_⟩
  simp only [NodeInfoView.toPb, NodeInfoView.ofPb, Option.map_some,
    NodeStatusView.toPb_ofPb, Option.getD_some]

theorem report_of_publishBody {info : NodeInfo} {sup : Supervisor} {advertisedHost : Option String}
    {controlEndpoint peer : String} {report : Report}
    (hdecode : decodeReport peer (publishBody info sup advertisedHost controlEndpoint) =
      .ok report) :
    report.info.nodeId = info.nodeId ∧
      report.info.status = (NodeStatus.ofI32 info.status).toI32 := by
  unfold decodeReport at hdecode
  split at hdecode
  next => cases hdecode
  next view hview =>
    dsimp only at hdecode
    split at hdecode
    next => cases hdecode
    next =>
      cases hdecode
      exact view_of_publishBody hview

/-- The coordinator answers a heartbeat with the worker's own id and has an
entry for it. -/
theorem nodeId_of_reportNode_publishBody {info : NodeInfo} {sup : Supervisor}
    {advertisedHost : Option String} {controlEndpoint peer id : String} {reg later : Registry}
    {now : ℤ} (hreport : reportNode reg now peer
      (publishBody info sup advertisedHost controlEndpoint) = .ok (later, id)) :
    id = info.nodeId ∧ (later.get id).isSome := by
  cases hdecode : decodeReport peer (publishBody info sup advertisedHost controlEndpoint) with
  | error refusal =>
      rw [reportNode_of_error hdecode] at hreport
      cases hreport
  | ok report =>
      obtain ⟨hid, -⟩ := report_of_publishBody hdecode
      rw [reportNode_of_decode hdecode] at hreport
      split at hreport
      next => cases hreport
      next =>
        cases hreport
        have hself : report.info.nodeId = (report.entry now).nodeId := rfl
        refine ⟨hid, ?_⟩
        rw [KeyedMap.get_insert, if_pos hself]
        rfl

/-- Every heartbeat with a node id and finite bandwidths is accepted, and what
`upsert` gets is the worker's message less what the wire does not carry,
with the three sidecars as sent. -/
theorem decodeReport_publishBody (info : NodeInfo) (sup : Supervisor)
    (advertisedHost : Option String) (controlEndpoint peer : String) (hid : info.nodeId ≠ "")
    (hfinite : FiniteBandwidth info) :
    let body := publishBody info sup advertisedHost controlEndpoint
    let report : Report := {
      info := carried info
      publicIp := some peer
      inferenceEndpoint := nonEmpty (sup.endpointAdvertise advertisedHost)
      controlEndpoint := nonEmpty (some controlEndpoint)
      currentModel := nonEmpty sup.modelId }
    decodeReport peer body = .ok report ∧
      ∀ reg now, checkDuplicate reg now report = .ok () →
        reportNode reg now peer body = .ok (reg.upsert now (carried info) (some peer)
          (nonEmpty (sup.endpointAdvertise advertisedHost)) (nonEmpty (some controlEndpoint))
          (nonEmpty sup.modelId), info.nodeId) := by
  intro body report
  have hdecode : decodeReport peer body = .ok report := by
    have hview := decode_publishBody info sup advertisedHost controlEndpoint hfinite
    rw [decodeReport_of_view peer hview hid]
    exact congrArg (fun info => Except.ok { report with info := info }) (toPb_ofPb_node info)
  refine ⟨hdecode, fun reg now hcheck => ?_⟩
  rw [reportNode, hdecode]
  change (do checkDuplicate reg now report; _) = _
  rw [hcheck]
  rfl

/-- A GPU with an unknown backend integer and a finite bandwidth arrives with
`Unspecified` and without its PCI id; the empty model id arrives as absent. -/
theorem decodeReport_publishBody_gpu :
    let gpu : GpuInfo := {
      name := "A100", pciBusId := "0000:01:00.0", backend := 9
      capability := some { memBandwidthGbs := .ofBits 0x44480000 } }
    decodeReport "10.0.0.1" (publishBody { nodeId := "x", ownerUserId := "u", gpus := [gpu] }
        ⟨50053, some 7, none, some ""⟩ none ":50054") =
      .ok {
        info := { nodeId := "x", gpus := [{ gpu with pciBusId := "", backend := 0 }] }
        publicIp := some "10.0.0.1"
        inferenceEndpoint := some ":50053"
        controlEndpoint := some ":50054"
        currentModel := none } := by
  intro gpu
  have hfinite : FiniteBandwidth { nodeId := "x", ownerUserId := "u", gpus := [gpu] } := by
    intro g hg capability hcapability
    obtain rfl := List.mem_singleton.mp hg
    obtain rfl := Option.mem_some_iff.mp hcapability
    decide
  exact (decodeReport_publishBody _ ⟨50053, some 7, none, some ""⟩ none ":50054" "10.0.0.1"
    (by decide) hfinite).1.trans rfl

end GpuCluster.Cluster
