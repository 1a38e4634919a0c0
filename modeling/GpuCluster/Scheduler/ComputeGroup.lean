import GpuCluster.Foundation.KeyedMap
import GpuCluster.Foundation.Lists
import GpuCluster.Proto.Node
import Mathlib.Data.List.Induction
import Mathlib.Data.Option.Basic
import Std.Data.String.ToNat

/-! # Compute groups

Tensor parallelism is allowed inside a group. Nodes are put into groups by the
key of their first GPU.
-/

namespace GpuCluster.Scheduler

open Foundation Proto

structure ComputeGroup where
  key : String
  members : List String
  deriving DecidableEq

/-- The key of a GPU of a backend; one without a prefix of its own is taken for
CUDA. -/
def keyFor (backend : GpuBackend) (g : GpuInfo) : String :=
  match backend with
  | .metal => "metal-" ++ g.architecture
  | .rocm => "rocm-" ++ g.architecture
  | .vulkan => "vulkan-" ++ g.architecture
  | _ => "cuda-" ++ g.architecture ++ "-" ++ toString g.computeCapMajor ++ "." ++
      toString g.computeCapMinor

/-- The compute-group bucket of a GPU. -/
def groupKey (g : GpuInfo) : String := keyFor (.ofI32 g.backend) g

/-- One node of the loop of `partition`: its id goes into the bucket of its first
GPU, made for the first id. -/
def place (buckets : KeyedMap ComputeGroup.key) (n : NodeInfo) : KeyedMap ComputeGroup.key :=
  match n.gpus.head? with
  | some g =>
      let bucket := (buckets.get (groupKey g)).getD { key := groupKey g, members := [] }
      buckets.insert { bucket with members := bucket.members ++ [n.nodeId] }
  | none => buckets

/-- The map that `partition` fills. -/
def bucketsOf (nodes : List NodeInfo) : KeyedMap ComputeGroup.key := nodes.foldl place .empty

/-- `partition` may return these groups: those of the map, in some iteration order. -/
def Partitions (nodes : List NodeInfo) (groups : List ComputeGroup) : Prop :=
  groups.Perm (bucketsOf nodes).list

instance (nodes : List NodeInfo) (groups : List ComputeGroup) :
    Decidable (Partitions nodes groups) :=
  inferInstanceAs (Decidable (groups.Perm (bucketsOf nodes).list))

/-! ## What a key says -/

/-- The class a backend is keyed as. -/
def classOf : GpuBackend → GpuBackend
  | .metal => .metal
  | .rocm => .rocm
  | .vulkan => .vulkan
  | _ => .cuda

def backendClass (g : GpuInfo) : GpuBackend := classOf (.ofI32 g.backend)

theorem classOf_ne_unspecified (backend : GpuBackend) : classOf backend ≠ .unspecified := by
  cases backend <;> decide

theorem keyFor_classOf (backend : GpuBackend) (g : GpuInfo) :
    keyFor (classOf backend) g = keyFor backend g := by
  cases backend <;> rfl

/-- A decimal number has digits only, so no separator. -/
theorem not_mem_toString {n : UInt32} {c : Char} (hc : c.isDigit = false) :
    c ∉ (toString n).toList := by
  intro hmem
  have hdigits : (toString n).toList = Nat.toDigits 10 n.toNat := Nat.toList_repr
  rw [hdigits] at hmem
  have hdigit := Nat.isDigit_of_mem_toDigits (by decide) (by decide) hmem
  rw [hc] at hdigit
  cases hdigit

theorem toString_inj {m n : UInt32} (heq : toString m = toString n) : m = n :=
  UInt32.toNat_inj.mp (Nat.repr_injective heq)

/-- The version after the last hyphen, and in it the last point, can be told
apart from any architecture. -/
theorem cuda_key_inj {arch arch' : String} {major major' minor minor' : UInt32}
    (heq : "cuda-" ++ arch ++ "-" ++ toString major ++ "." ++ toString minor =
      "cuda-" ++ arch' ++ "-" ++ toString major' ++ "." ++ toString minor') :
    arch = arch' ∧ major = major' ∧ minor = minor' := by
  have hchars := congrArg String.toList heq
  simp only [String.toList_append] at hchars
  obtain ⟨hleft, hminor⟩ := append_cons_inj_of_last (not_mem_toString rfl) (not_mem_toString rfl)
    (show (("cuda-".toList ++ arch.toList ++ "-".toList ++ (toString major).toList) ++
        '.' :: (toString minor).toList) =
      (("cuda-".toList ++ arch'.toList ++ "-".toList ++ (toString major').toList) ++
        '.' :: (toString minor').toList) by simpa using hchars)
  obtain ⟨harch, hmajor⟩ := append_cons_inj_of_last (not_mem_toString rfl) (not_mem_toString rfl)
    (show ("cuda-".toList ++ arch.toList) ++ '-' :: (toString major).toList =
      ("cuda-".toList ++ arch'.toList) ++ '-' :: (toString major').toList by simpa using hleft)
  exact ⟨String.toList_inj.mp (List.append_cancel_left harch),
    toString_inj (String.toList_inj.mp hmajor), toString_inj (String.toList_inj.mp hminor)⟩

/-- A key starts with a letter of its class. -/
def firstChar : GpuBackend → Char
  | .metal => 'm'
  | .rocm => 'r'
  | .vulkan => 'v'
  | _ => 'c'

theorem keyFor_first (backend : GpuBackend) (g : GpuInfo) :
    (keyFor backend g).toList.head? = some (firstChar backend) := by
  cases backend <;> simp [keyFor, firstChar]

theorem firstChar_classOf_inj {backend other : GpuBackend}
    (heq : firstChar (classOf backend) = firstChar (classOf other)) :
    classOf backend = classOf other := by
  cases backend <;> cases other <;> first | rfl | exact absurd heq (by decide)

theorem backendClass_eq_of_groupKey {g h : GpuInfo} (heq : groupKey g = groupKey h) :
    backendClass g = backendClass h := by
  apply firstChar_classOf_inj
  apply Option.some.inj
  rw [← keyFor_first _ g, ← keyFor_first _ h, keyFor_classOf, keyFor_classOf]
  exact congrArg (·.toList.head?) heq

theorem groupKey_eq (g : GpuInfo) : groupKey g = keyFor (backendClass g) g :=
  (keyFor_classOf _ g).symm

/-- Two GPUs have one key exactly when backend class, architecture and, for CUDA,
compute capability agree. -/
theorem groupKey_eq_iff (g h : GpuInfo) :
    groupKey g = groupKey h ↔
      backendClass g = backendClass h ∧ g.architecture = h.architecture ∧
        (backendClass g = .cuda → g.computeCapMajor = h.computeCapMajor ∧
          g.computeCapMinor = h.computeCapMinor) := by
  have hspecified := classOf_ne_unspecified (.ofI32 g.backend)
  constructor
  · intro heq
    have hclass := backendClass_eq_of_groupKey heq
    refine ⟨hclass, ?_⟩
    rw [groupKey_eq, groupKey_eq, ← hclass] at heq
    cases hg : backendClass g with
    | unspecified => exact absurd hg hspecified
    | cuda =>
        rw [hg] at heq
        obtain ⟨harch, hmajor, hminor⟩ := cuda_key_inj heq
        exact ⟨harch, fun _ => ⟨hmajor, hminor⟩⟩
    | metal | rocm | vulkan =>
        rw [hg] at heq
        exact ⟨(String.append_right_inj _).mp heq, fun h => nomatch h⟩
  · rintro ⟨hclass, harch, hversion⟩
    rw [groupKey_eq, groupKey_eq, ← hclass]
    cases hg : backendClass g with
    | unspecified => exact absurd hg hspecified
    | cuda =>
        obtain ⟨hmajor, hminor⟩ := hversion hg
        simp only [keyFor, harch, hmajor, hminor]
    | metal | rocm | vulkan => simp only [keyFor, harch]

/-! ## The partition is exact -/

/-- The key of the group of a node; a node without GPUs has none. -/
def nodeKey (n : NodeInfo) : Option String := n.gpus.head?.map groupKey

/-- The ids of the nodes with a key, in order. -/
def membersOf (key : String) (nodes : List NodeInfo) : List String :=
  (nodes.filter fun n => nodeKey n = some key).map (·.nodeId)

theorem membersOf_concat (key : String) (nodes : List NodeInfo) (n : NodeInfo) :
    membersOf key (nodes ++ [n]) =
      membersOf key nodes ++ if nodeKey n = some key then [n.nodeId] else [] := by
  rw [membersOf, List.filter_append, List.map_append, membersOf]
  congr 1
  by_cases hkey : nodeKey n = some key <;> simp [hkey]

/-- A node changes the bucket of its key only. -/
theorem get_place (buckets : KeyedMap ComputeGroup.key) (n : NodeInfo) (key : String) :
    (place buckets n).get key =
      if nodeKey n = some key then
        some { key := key, members := ((buckets.get key).map (·.members)).getD [] ++ [n.nodeId] }
      else buckets.get key := by
  unfold place nodeKey
  cases n.gpus.head? with
  | none => rfl
  | some g =>
      simp only [Option.map_some, Option.some.injEq]
      have hbucket : ((buckets.get (groupKey g)).getD { key := groupKey g, members := [] }).key =
          groupKey g := by
        cases hget : buckets.get (groupKey g) with
        | none => rfl
        | some bucket => exact KeyedMap.key_of_get hget
      rw [KeyedMap.get_insert, hbucket]
      by_cases hkey : groupKey g = key
      · subst hkey
        rw [if_pos rfl, if_pos rfl]
        cases buckets.get (groupKey g) with
        | none => rfl
        | some bucket => rfl
      · rw [if_neg (Ne.symm hkey), if_neg hkey]

/-- After any nodes, a bucket holds the ids of the nodes with its key. -/
theorem get_bucketsOf (nodes : List NodeInfo) (key : String) :
    (bucketsOf nodes).get key =
      if membersOf key nodes = [] then none
      else some { key := key, members := membersOf key nodes } := by
  induction nodes using List.reverseRec with
  | nil => rfl
  | append_singleton nodes n ih =>
      rw [bucketsOf, List.foldl_append, List.foldl_cons, List.foldl_nil, ← bucketsOf, get_place,
        ih, membersOf_concat]
      by_cases hkey : nodeKey n = some key
      · by_cases hnone : membersOf key nodes = [] <;> simp [hkey, hnone]
      · simp [hkey]

/-- The groups are the keys that some node has, with the ids of its nodes. -/
theorem mem_of_partitions {nodes : List NodeInfo} {groups : List ComputeGroup}
    (hgroups : Partitions nodes groups) (group : ComputeGroup) :
    group ∈ groups ↔ group.members = membersOf group.key nodes ∧ group.members ≠ [] := by
  rw [hgroups.mem_iff, KeyedMap.mem_list, get_bucketsOf]
  obtain ⟨key, members⟩ := group
  by_cases hnone : membersOf key nodes = []
  · simp only [hnone, if_true]
    constructor
    · intro h
      cases h
    · rintro ⟨hmembers, hne⟩
      exact absurd hmembers hne
  · simp only [if_neg hnone, Option.some.injEq, ComputeGroup.mk.injEq, true_and]
    constructor
    · rintro rfl
      exact ⟨rfl, hnone⟩
    · exact fun h => h.1.symm

theorem mem_keys_of_partitions {nodes : List NodeInfo} {groups : List ComputeGroup}
    (hgroups : Partitions nodes groups) (key : String) :
    key ∈ groups.map ComputeGroup.key ↔ membersOf key nodes ≠ [] := by
  rw [List.mem_map]
  constructor
  · rintro ⟨group, hgroup, rfl⟩
    obtain ⟨hmembers, hne⟩ := (mem_of_partitions hgroups group).mp hgroup
    rwa [← hmembers]
  · intro hne
    exact ⟨⟨key, membersOf key nodes⟩, (mem_of_partitions hgroups _).mpr ⟨rfl, hne⟩, rfl⟩

/-- Every node with a GPU is in one group, that of its first GPU. -/
structure ExactPartition (nodes : List NodeInfo) (groups : List ComputeGroup) : Prop where
  keys : (groups.map ComputeGroup.key).Nodup
  nonempty : ∀ group ∈ groups, group.members ≠ []
  members : ∀ group ∈ groups, group.members = membersOf group.key nodes
  complete : ∀ n ∈ nodes, ∀ key, nodeKey n = some key → ∃ group ∈ groups, group.key = key
  once : (groups.flatMap ComputeGroup.members).Perm
    ((nodes.filter fun n => (nodeKey n).isSome).map (·.nodeId))

theorem exactPartition {nodes : List NodeInfo} {groups : List ComputeGroup}
    (hgroups : Partitions nodes groups) : ExactPartition nodes groups := by
  have hmem := mem_of_partitions hgroups
  have hkeys : (groups.map ComputeGroup.key).Nodup :=
    ((hgroups.map _).nodup_iff).mpr (bucketsOf nodes).list_nodup
  have hcomplete : ∀ n ∈ nodes, ∀ key, nodeKey n = some key →
      ∃ group ∈ groups, group.key = key := by
    intro n hn key hkey
    refine ⟨{ key := key, members := membersOf key nodes }, (hmem _).mpr ⟨rfl, ?_⟩, rfl⟩
    apply List.ne_nil_of_mem (a := n.nodeId)
    exact List.mem_map_of_mem (List.mem_filter.mpr ⟨hn, by simpa using hkey⟩)
  refine ⟨hkeys, fun group hgroup => ((hmem group).mp hgroup).2,
    fun group hgroup => ((hmem group).mp hgroup).1, hcomplete, ?_⟩
  -- the groups are the nodes with a key, sorted by it
  have hsomeKeys : (groups.map fun group => some group.key).Nodup := by
    have := hkeys.map (Option.some_injective String)
    rwa [List.map_map] at this
  have hcover : ∀ n ∈ nodes.filter (fun n => (nodeKey n).isSome),
      nodeKey n ∈ groups.map fun group => some group.key := by
    intro n hn
    obtain ⟨hin, hsome⟩ := List.mem_filter.mp hn
    obtain ⟨key, hkey⟩ := Option.isSome_iff_exists.mp hsome
    obtain ⟨group, hgroup, rfl⟩ := hcomplete n hin key hkey
    rw [hkey]
    exact List.mem_map_of_mem hgroup
  have hmembers : groups.flatMap ComputeGroup.members = ((groups.map fun group =>
      some group.key).flatMap fun key => (nodes.filter fun n => (nodeKey n).isSome).filter
        fun n => nodeKey n = key).map (·.nodeId) := by
    rw [List.flatMap_map, List.map_flatMap]
    apply List.flatMap_congr
    intro group hgroup
    rw [((hmem group).mp hgroup).1, membersOf, List.filter_filter]
    congr 1
    apply List.filter_congr
    intro n _
    by_cases hkey : nodeKey n = some group.key <;> simp [hkey]
  rw [hmembers]
  exact (flatMap_filter_perm nodeKey hsomeKeys hcover).map _

theorem membersOf_perm {nodes shuffled : List NodeInfo} (hperm : shuffled.Perm nodes)
    (key : String) : (membersOf key shuffled).Perm (membersOf key nodes) :=
  (hperm.filter _).map _

/-- `partition` is exact; the groups do not depend on the iteration order of the
map, and the order of the nodes only orders the members. -/
theorem partition_exact (nodes : List NodeInfo) {groups : List ComputeGroup}
    (hgroups : Partitions nodes groups) :
    ExactPartition nodes groups ∧
    (∀ other, Partitions nodes other → ∀ group, group ∈ other ↔ group ∈ groups) ∧
    ∀ shuffled : List NodeInfo, shuffled.Perm nodes → ∀ other, Partitions shuffled other →
      (other.map ComputeGroup.key).Perm (groups.map ComputeGroup.key) ∧
      ∀ first ∈ groups, ∀ second ∈ other, first.key = second.key →
        second.members.Perm first.members := by
  have hmem := mem_of_partitions hgroups
  refine ⟨exactPartition hgroups, fun other hother group => ?_,
    fun shuffled hperm other hother => ⟨?_, fun first hfirst second hsecond hkey => ?_⟩⟩
  · rw [hmem, mem_of_partitions hother]
  · apply (List.perm_ext_iff_of_nodup (exactPartition hother).keys
      (exactPartition hgroups).keys).mpr
    intro key
    rw [mem_keys_of_partitions hother, mem_keys_of_partitions hgroups,
      ← List.length_pos_iff_ne_nil, ← List.length_pos_iff_ne_nil,
      (membersOf_perm hperm key).length_eq]
  · rw [((hmem first).mp hfirst).1, ((mem_of_partitions hother second).mp hsecond).1, hkey]
    exact membersOf_perm hperm _

/-- Two nodes of one key around a node without GPUs. -/
theorem two_nodes_one_group : ExactPartition
    [{ nodeId := "a", gpus := [{ architecture := "Ada", backend := 1 }] }, { nodeId := "b" },
      { nodeId := "c", gpus := [{ architecture := "Ada", backend := 1 }] }]
    [⟨"cuda-Ada-0.0", ["a", "c"]⟩] :=
  (partition_exact _ (by decide +kernel)).1

/-! ## When groups are homogeneous -/

/-- Any two GPUs of nodes with an id in the group have one key. -/
def Homogeneous (nodes : List NodeInfo) (group : ComputeGroup) : Prop :=
  ∀ n ∈ nodes, ∀ m ∈ nodes, n.nodeId ∈ group.members → m.nodeId ∈ group.members →
    ∀ g ∈ n.gpus, ∀ h ∈ m.gpus, groupKey g = groupKey h

/-- Every group that `partition` may return is homogeneous. -/
def GroupsHomogeneous (nodes : List NodeInfo) : Prop :=
  ∀ groups, Partitions nodes groups → ∀ group ∈ groups, Homogeneous nodes group

/-- The GPUs listed under one node id have one key. -/
def OneKeyPerNode (nodes : List NodeInfo) : Prop :=
  ∀ n ∈ nodes, ∀ m ∈ nodes, n.nodeId = m.nodeId →
    ∀ g ∈ n.gpus, ∀ h ∈ m.gpus, groupKey g = groupKey h

theorem mem_membersOf {key id : String} {nodes : List NodeInfo} :
    id ∈ membersOf key nodes ↔ ∃ n ∈ nodes, nodeKey n = some key ∧ n.nodeId = id := by
  simp [membersOf, and_assoc]

theorem exists_first_of_nodeKey {n : NodeInfo} {key : String} (hkey : nodeKey n = some key) :
    ∃ g ∈ n.gpus, groupKey g = key := by
  obtain ⟨g, hhead, hkey⟩ := Option.map_eq_some_iff.mp hkey
  exact ⟨g, List.mem_of_head? hhead, hkey⟩

/-- The groups are homogeneous exactly when no node mixes keys: only its first GPU
is looked at. -/
theorem groupsHomogeneous_iff (nodes : List NodeInfo) :
    GroupsHomogeneous nodes ↔ OneKeyPerNode nodes := by
  constructor
  · intro hhomogeneous n hn m hm hid g hg h hh
    obtain ⟨first, hfirst⟩ : ∃ first, n.gpus.head? = some first :=
      ⟨_, List.head?_eq_some_head (List.ne_nil_of_mem hg)⟩
    have hkey : nodeKey n = some (groupKey first) := by rw [nodeKey, hfirst, Option.map_some]
    have hmember := mem_membersOf.mpr ⟨n, hn, hkey, rfl⟩
    have hgroup := (@mem_of_partitions nodes (bucketsOf nodes).list (.refl _)
      ⟨groupKey first, membersOf (groupKey first) nodes⟩).mpr ⟨rfl, List.ne_nil_of_mem hmember⟩
    exact hhomogeneous _ (.refl _) _ hgroup n hn m hm hmember (hid ▸ hmember) g hg h hh
  · intro hone groups hgroups group hgroup n hn m hm hnIn hmIn g hg h hh
    have hmembers := ((mem_of_partitions hgroups group).mp hgroup).1
    rw [hmembers] at hnIn hmIn
    -- a GPU of a member has the key of the first GPU listed under its id
    have hkeyOf : ∀ p ∈ nodes, p.nodeId ∈ membersOf group.key nodes →
        ∀ x ∈ p.gpus, groupKey x = group.key := by
      intro p hp hpIn x hx
      obtain ⟨q, hq, hqKey, hid⟩ := mem_membersOf.mp hpIn
      obtain ⟨first, hfirst, hfirstKey⟩ := exists_first_of_nodeKey hqKey
      rw [← hfirstKey]
      exact hone p hp q hq hid.symm x hx first hfirst
    rw [hkeyOf n hn hnIn g hg, hkeyOf m hm hmIn h hh]

/-- A node with an Ada and an Ampere GPU is a group of its own. -/
theorem mixedNode_not_homogeneous : ¬GroupsHomogeneous [{ nodeId := "a", gpus := [
    { architecture := "Ada", computeCapMajor := 8, computeCapMinor := 9, backend := 1 },
    { architecture := "Ampere", computeCapMajor := 8, computeCapMinor := 6, backend := 1 }] }] := by
  intro hhomogeneous
  have hkey := hhomogeneous [⟨"cuda-Ada-8.9", ["a"]⟩] (by decide +kernel) _
    (List.mem_singleton_self _) _ (List.mem_singleton_self _) _ (List.mem_singleton_self _)
    (List.mem_singleton_self _) (List.mem_singleton_self _) _ (List.mem_cons_self ..) _
    (List.mem_cons_of_mem _ (List.mem_cons_self ..))
  exact absurd hkey (by decide +kernel)

end GpuCluster.Scheduler
