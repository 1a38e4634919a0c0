import GpuCluster.Foundation.KeyedMap
import GpuCluster.Common.Clock
import GpuCluster.Proto.Node

/-! # The coordinator's node registry

The concurrent map from node ids to entries. Each operation is atomic. The
map's iteration order is unspecified, so `rehash` may rearrange it between any
two operations; lookups do not see the difference.
-/

namespace GpuCluster.Coordinator

open Common Foundation Proto

structure NodeEntry where
  info : NodeInfo
  lastHeartbeat : ℤ
  currentPublicIp : Option String
  status : NodeStatus
  inferenceEndpoint : Option String
  controlEndpoint : Option String
  currentModel : Option String
  deriving DecidableEq

abbrev NodeEntry.nodeId (entry : NodeEntry) : String := entry.info.nodeId

/-- The entry `upsert` builds from its arguments at a clock reading. -/
def NodeEntry.make (now : ℤ) (info : NodeInfo)
    (publicIp inferenceEndpoint controlEndpoint currentModel : Option String) : NodeEntry where
  info := info
  lastHeartbeat := now
  currentPublicIp := publicIp
  status := .ofI32 info.status
  inferenceEndpoint := inferenceEndpoint
  controlEndpoint := controlEndpoint
  currentModel := currentModel

/-- Entries by node id. -/
abbrev Registry := KeyedMap NodeEntry.nodeId

namespace Registry

def upsert (reg : Registry) (now : ℤ) (info : NodeInfo)
    (publicIp inferenceEndpoint controlEndpoint currentModel : Option String) : Registry :=
  reg.insert (.make now info publicIp inferenceEndpoint controlEndpoint currentModel)

/-- `Some` other entry with the same fingerprint and a heartbeat no older than
`staleAfter`, unless the fingerprint is empty. -/
def findActiveWithHwFingerprint (reg : Registry) (now : ℤ)
    (hwFingerprint excludeNodeId : String) (staleAfter : ℤ) : Option String :=
  if hwFingerprint = "" then none
  else
    (reg.list.find? fun entry => entry.nodeId ≠ excludeNodeId ∧
      entry.info.hwFingerprint = hwFingerprint ∧
      now - entry.lastHeartbeat ≤ staleAfter).map NodeEntry.nodeId

/-- When the duplicate guard answers, and for which entry. -/
theorem findActive_eq_some {reg : Registry} {now : ℤ} {hwFingerprint exclude id : String}
    {staleAfter : ℤ}
    (hfind : reg.findActiveWithHwFingerprint now hwFingerprint exclude staleAfter = some id) :
    hwFingerprint ≠ "" ∧ ∃ entry, reg.get id = some entry ∧ id ≠ exclude ∧
      entry.info.hwFingerprint = hwFingerprint ∧ now - entry.lastHeartbeat ≤ staleAfter := by
  unfold findActiveWithHwFingerprint at hfind
  split at hfind
  next => cases hfind
  next hne =>
    obtain ⟨entry, hentry, rfl⟩ := Option.map_eq_some_iff.mp hfind
    have hmem := List.mem_of_find?_eq_some hentry
    have hmatch := List.find?_some hentry
    simp only [ne_eq, decide_eq_true_eq] at hmatch
    exact ⟨hne, entry, KeyedMap.mem_list.mp hmem, hmatch⟩

/-- When the duplicate guard lets a report through. -/
theorem findActive_eq_none {reg : Registry} {now : ℤ} {hwFingerprint exclude : String}
    {staleAfter : ℤ} :
    reg.findActiveWithHwFingerprint now hwFingerprint exclude staleAfter = none ↔
      hwFingerprint = "" ∨ ∀ id entry, reg.get id = some entry → id ≠ exclude →
        entry.info.hwFingerprint = hwFingerprint → staleAfter < now - entry.lastHeartbeat := by
  unfold findActiveWithHwFingerprint
  split
  next hempty => simp [hempty]
  next hne =>
    simp only [Option.map_eq_none_iff, List.find?_eq_none, hne, false_or, decide_eq_true_eq]
    constructor
    · intro hnone id entry hget hid hfp
      have hnode := KeyedMap.key_of_get hget
      have hmem : entry ∈ reg.list := KeyedMap.mem_list.mpr (by rw [hnode]; exact hget)
      by_contra hle
      exact hnone entry hmem ⟨by rw [hnode]; exact hid, hfp, by omega⟩
    · intro hall entry hmem ⟨hid, hfp, hle⟩
      have := hall entry.nodeId entry (KeyedMap.mem_list.mp hmem) hid hfp
      omega

theorem findActive_empty {now : ℤ} {hwFingerprint exclude : String} {staleAfter : ℤ} :
    findActiveWithHwFingerprint .empty now hwFingerprint exclude staleAfter = none := by
  refine findActive_eq_none.mpr (.inr fun id entry hget => ?_)
  exact nomatch (KeyedMap.get_empty id).symm.trans hget

end Registry

end GpuCluster.Coordinator
