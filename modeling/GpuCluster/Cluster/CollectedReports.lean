import GpuCluster.Cluster.Wire
import GpuCluster.Scheduler.ComputeGroup
import GpuCluster.Scheduler.Negotiation
import GpuCluster.Worker.Agent

/-! # From a host's devices to the coordinator's registry

Whatever a worker collects can be sent, and what the coordinator reads is what was
collected, less the PCI bus ids. So the scheduler sees the devices of the host: it
groups GPUs by their chips.
-/

namespace GpuCluster.Cluster

open Common Coordinator Foundation Proto Scheduler Sysinfo Worker

/-! ## What arrives -/

def withoutPciIds (info : NodeInfo) : NodeInfo :=
  { info with gpus := info.gpus.map fun g => { g with pciBusId := "" } }

/-- The detectors fill in no benchmark, name a known backend, and know the bandwidth. -/
structure Settled (g : GpuInfo) : Prop where
  backend : (GpuBackend.ofI32 g.backend).toI32 = g.backend
  capability : ∀ c, g.capability = some c → carriedCapability c = c
  bandwidth : ∀ c, g.capability = some c → c.memBandwidthGbs.isFinite

theorem estimatedBandwidthGbs_finite (family : AppleFamily) :
    family.estimatedBandwidthGbs.isFinite := by
  unfold AppleFamily.estimatedBandwidthGbs
  split <;> decide

theorem settled_of_mem {source : GpuSource} {g : GpuInfo} (hg : g ∈ source.detect) :
    Settled g := by
  obtain ⟨_, hchip⟩ := exists_chip hg
  cases hchip with
  | nvidia nvml i dev =>
      refine ⟨rfl, ?_, ?_⟩
      · rintro c ⟨rfl⟩
        rfl
      · have hzero : (0 : Float32).isFinite = true := by decide
        rintro c ⟨rfl⟩
        exact hzero
  | apple host i name dev =>
      refine ⟨rfl, ?_, ?_⟩
      · rintro c ⟨rfl⟩
        rfl
      · rintro c ⟨rfl⟩
        exact estimatedBandwidthGbs_finite _

theorem carriedGpu_of_settled {g : GpuInfo} (hg : Settled g) :
    carriedGpu g = { g with pciBusId := "" } := by
  have hcapability : g.capability.map carriedCapability = g.capability := by
    cases hc : g.capability with
    | none => rfl
    | some c => rw [Option.map_some, hg.capability c hc]
  simp only [carriedGpu, hg.backend, hcapability]

variable {config : WorkerConfig} {nodeId : String} {s : AgentRun} {p : Posted}

theorem finiteBandwidth_collect (facts : HostFacts) : FiniteBandwidth facts.collect :=
  fun _ hg c hc => (settled_of_mem hg).bandwidth c hc

/-- Nothing but the PCI bus ids is lost of what a host collects. -/
theorem carried_collect (facts : HostFacts) (nodeId displayName : String) (status : NodeStatus) :
    carried { facts.collect with nodeId, displayName, status := status.toI32 } =
      { withoutPciIds facts.collect with nodeId, displayName, status := status.toI32 } := by
  have hgpus : facts.collect.gpus.map carriedGpu =
      facts.collect.gpus.map fun g => { g with pciBusId := "" } :=
    List.map_congr_left fun g hg => carriedGpu_of_settled (settled_of_mem hg)
  simp only [carried, withoutPciIds, hgpus, NodeStatus.ofI32_toI32]
  rfl

/-- What the coordinator reads from a worker's report. -/
def collectedReport (config : WorkerConfig) (nodeId : String) (facts : HostFacts)
    (status : NodeStatus) (sup : Supervisor) (advertisedHost : Option String)
    (controlEndpoint peer : String) : Report where
  info := { withoutPciIds facts.collect with
    nodeId, displayName := config.displayName.getD "", status := status.toI32 }
  publicIp := some peer
  inferenceEndpoint := nonEmpty (sup.endpointAdvertise advertisedHost)
  controlEndpoint := nonEmpty (some controlEndpoint)
  currentModel := nonEmpty sup.modelId

theorem decodeReport_collected {facts : HostFacts} {status : NodeStatus}
    (hinfo : p.info = { facts.collect with
      nodeId, displayName := config.displayName.getD "", status := status.toI32 })
    (hid : nodeId ≠ "") (advertisedHost : Option String) (controlEndpoint peer : String) :
    decodeReport peer (publishBody p.info p.sup advertisedHost controlEndpoint) = .ok
      (collectedReport config nodeId facts status p.sup advertisedHost controlEndpoint peer) := by
  have hfinite : FiniteBandwidth p.info := by
    rw [hinfo]
    exact finiteBandwidth_collect facts
  have hview := decode_publishBody p.info p.sup advertisedHost controlEndpoint hfinite
  have hcarried : (NodeInfoView.ofPb p.info).toPb = { withoutPciIds facts.collect with
      nodeId, displayName := config.displayName.getD "", status := status.toI32 } := by
    rw [toPb_ofPb_node, hinfo, carried_collect]
  have hnode : (NodeInfoView.ofPb p.info).toPb.nodeId ≠ "" := by
    rw [hcarried]
    exact hid
  rw [decodeReport_of_view peer hview hnode, collectedReport, ← hcarried]
  rfl

/-- A report is made of an inventory that was collected, under the worker's id and name. -/
theorem posted_info (hs : (agent config nodeId).Reachable s) (hp : p ∈ s.posted) :
    ∃ facts ∈ s.collected, ∃ status : NodeStatus,
      p.info = { facts.collect with
        nodeId, displayName := config.displayName.getD "", status := status.toI32 } ∧
      (status = .online ∨ status = .draining ∧ facts = s.startup ∧ s.phase = .stopped ∧
        s.posted.head? = some p) := by
  have hregular := AgentRun.regular_of_reachable hs
  cases hregular.posted p hp with
  | online facts hfacts hinfo => exact ⟨facts, hfacts, .online, hinfo, .inl rfl⟩
  | drained hstopped hlast hinfo =>
      exact ⟨s.startup, hregular.startup, .draining, hinfo, .inr ⟨rfl, rfl, hstopped, hlast⟩⟩

theorem archString_toList (family : AppleFamily) : family.archString.toList =
    "Apple-M".toList ++ (toString family.generation).toList ++
      if family.variant = .base then [] else '-' :: family.variant.text.toList := by
  unfold AppleFamily.archString
  split <;> simp

theorem text_injective : Function.Injective AppleVariant.text := by
  intro variant other heq
  cases variant <;> cases other <;> first | rfl | exact absurd heq (by decide)

/-- The name of an architecture tells generation and variant apart. -/
theorem archString_injective : Function.Injective AppleFamily.archString := by
  intro family other heq
  have hchars := congrArg String.toList heq
  rw [archString_toList, archString_toList, List.append_assoc, List.append_assoc,
    List.append_cancel_left_eq] at hchars
  obtain ⟨generation, variant⟩ := family
  obtain ⟨generation', variant'⟩ := other
  have hdigits := fun n => @not_mem_toString n '-' rfl
  dsimp only at hchars
  split at hchars <;> split at hchars
  next hbase hbase' =>
    rw [List.append_nil, List.append_nil, String.toList_inj] at hchars
    rw [toString_inj hchars, hbase, hbase']
  next =>
    rw [List.append_nil] at hchars
    exact absurd (hchars ▸ List.mem_append_right _ List.mem_cons_self) (hdigits generation)
  next =>
    rw [List.append_nil] at hchars
    exact absurd (hchars ▸ List.mem_append_right _ List.mem_cons_self) (hdigits generation')
  next =>
    have htext : ∀ variant : AppleVariant, '-' ∉ variant.text.toList := by
      intro variant
      cases variant <;> decide
    obtain ⟨hgeneration, hvariant⟩ := append_cons_inj_of_last (htext _) (htext _) hchars
    rw [toString_inj (String.toList_inj.mp hgeneration),
      text_injective (String.toList_inj.mp hvariant)]

theorem toUInt32_injective : Function.Injective Int32.toUInt32 :=
  Function.LeftInverse.injective Int32.toInt32_toUInt32

/-- An unknown compute capability is told apart from `0.0` by its architecture. -/
theorem computeCapability_eq {cc cc' : Option (Int32 × Int32)} (harch : archOf cc = archOf cc')
    (hmajor : (cc.map (·.1.toUInt32)).getD 0 = (cc'.map (·.1.toUInt32)).getD 0)
    (hminor : (cc.map (·.2.toUInt32)).getD 0 = (cc'.map (·.2.toUInt32)).getD 0) : cc = cc' := by
  have hzero : ∀ pair : Int32 × Int32, pair.1.toUInt32 = 0 → pair.2.toUInt32 = 0 →
      archOf (some pair) ≠ archOf none := by
    rintro ⟨major, minor⟩ hmajor hminor
    obtain rfl : major = 0 := toUInt32_injective hmajor
    obtain rfl : minor = 0 := toUInt32_injective hminor
    decide
  cases cc with
  | none =>
      cases cc' with
      | none => rfl
      | some pair => exact absurd harch.symm (hzero pair hmajor.symm hminor.symm)
  | some pair =>
      cases cc' with
      | none => exact absurd harch (hzero pair hmajor hminor)
      | some other =>
          exact congrArg some
            (Prod.ext (toUInt32_injective hmajor) (toUInt32_injective hminor))

/-- The compute group of a chip. -/
def chipKey : Chip → String
  | .nvidia cc => "cuda-" ++ archOf cc ++ "-" ++ toString ((cc.map (·.1.toUInt32)).getD 0) ++
      "." ++ toString ((cc.map (·.2.toUInt32)).getD 0)
  | .apple family => "metal-" ++ family.archString

theorem chipKey_injective : Function.Injective chipKey := by
  intro chip other heq
  have hfirst : (chipKey chip).toList.head? = (chipKey other).toList.head? := by rw [heq]
  cases chip with
  | nvidia cc =>
      cases other with
      | nvidia cc' =>
          obtain ⟨harch, hmajor, hminor⟩ := cuda_key_inj heq
          rw [computeCapability_eq harch hmajor hminor]
      | apple family => exact absurd hfirst (by simp [chipKey])
  | apple family =>
      cases other with
      | nvidia cc => exact absurd hfirst (by simp [chipKey])
      | apple family' => rw [archString_injective ((String.append_right_inj _).mp heq)]

theorem groupKey_of_detected {source : GpuSource} {g : GpuInfo} {chip : Chip}
    (hg : DetectedAs source g chip) : groupKey (carriedGpu g) = chipKey chip := by
  cases hg <;> rfl

/-- Registered under different ids, two hosts may share the tensors of a layer exactly
when their first GPUs are the same chip. -/
theorem grouped_iff_sameChip {nodes : List NodeInfo} {groups : List ComputeGroup}
    (hgroups : Partitions nodes groups) (hids : (nodes.map NodeInfo.nodeId).Nodup)
    {n m : NodeInfo} (hn : n ∈ nodes) (hm : m ∈ nodes) {source other : GpuSource} {g h : GpuInfo}
    {chip chip' : Chip} (hg : DetectedAs source g chip) (hh : DetectedAs other h chip')
    (hfirst : n.gpus.head? = some (carriedGpu g)) (hfirst' : m.gpus.head? = some (carriedGpu h)) :
    (∃ group ∈ groups, n.nodeId ∈ group.members ∧ m.nodeId ∈ group.members) ↔ chip = chip' := by
  -- an id stands for one node, which is in the group of its key
  have hmembers : ∀ group ∈ groups, ∀ node ∈ nodes,
      node.nodeId ∈ group.members ↔ nodeKey node = some group.key := by
    intro group hgroup node hnode
    rw [((mem_of_partitions hgroups group).mp hgroup).1, mem_membersOf]
    constructor
    · rintro ⟨same, hsame, hkey, hid⟩
      rwa [← List.inj_on_of_nodup_map hids hsame hnode hid]
    · intro hkey
      exact ⟨node, hnode, hkey, rfl⟩
  have hkey : nodeKey n = some (chipKey chip) := by
    rw [nodeKey, hfirst, Option.map_some, groupKey_of_detected hg]
  have hkey' : nodeKey m = some (chipKey chip') := by
    rw [nodeKey, hfirst', Option.map_some, groupKey_of_detected hh]
  constructor
  · rintro ⟨group, hgroup, hleft, hright⟩
    rw [hmembers group hgroup n hn, hkey] at hleft
    rw [hmembers group hgroup m hm, hkey', ← hleft, Option.some.injEq] at hright
    exact (chipKey_injective hright).symm
  · rintro rfl
    obtain ⟨group, hgroup, hgroupKey⟩ := (exactPartition hgroups).complete n hn _ hkey
    refine ⟨group, hgroup, ?_, ?_⟩
    · rw [hmembers group hgroup n hn, hkey, hgroupKey]
    · rw [hmembers group hgroup m hm, hkey', hgroupKey]

/-! ## Two hosts -/

/-- A host whose NVML answers with one device. -/
def oneDevice (name : String) (cc : Int32 × Int32) : Nvml where
  deviceCount := some 1
  sysDriverVersion := some "555.42"
  sysCudaDriverVersion := some 12050
  deviceByIndex i :=
    if i = 0 then some ⟨some (0, 0), some cc, some "0000:01:00.0", none, some name, none, none⟩
    else none

def plainHost (gpus : GpuSource) : HostFacts :=
  ⟨"linux", none, none, "x86_64", none, some "host", none, none, [], none, 0, 0, none, 7, gpus,
    "0.1.0"⟩

theorem twoAdas_grouped :
    let gpu (name : String) := (oneDevice name (8, 9)).gpu 0
      ⟨some (0, 0), some (8, 9), none, none, some name, none, none⟩
    let nodes : List NodeInfo := [{ nodeId := "a", gpus := [carriedGpu (gpu "RTX 4090")] },
      { nodeId := "b", gpus := [carriedGpu (gpu "L40S")] }]
    ∃ group ∈ (bucketsOf nodes).list, "a" ∈ group.members ∧ "b" ∈ group.members := by
  intro gpu nodes
  have hgroups : Partitions nodes (bucketsOf nodes).list := .refl _
  exact (grouped_iff_sameChip hgroups (by decide) List.mem_cons_self
    (List.mem_cons_of_mem _ List.mem_cons_self) (.nvidia _ 0 _) (.nvidia _ 0 _) rfl rfl).mpr rfl

end GpuCluster.Cluster
