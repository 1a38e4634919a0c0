import GpuCluster.Coordinator.Interleaving

/-! # Who is offered work

A mark refreshes the heartbeat time but leaves a status that is out of
dispatch, so only a report or a registration can make a node eligible.
-/

namespace GpuCluster.Coordinator

open Common Foundation Proto

/-- A write after which its node can take a job at time `now`. -/
def Write.Offers (write : Write) (now : ℤ) : Prop :=
  write.isAccepted ∧ now - write.time < stale ∧ write.entry.info.gpus ≠ [] ∧
    inDispatch (.ofI32 write.entry.info.status)

/-- The filter of `eligible_nodes`, on the entry a write stores. -/
theorem isEligible_entry_iff (write : Write) (now : ℤ) :
    write.entry.isEligible now ↔ write.Offers now := by
  simp only [NodeEntry.isEligible, Write.Offers, Write.entry_lastHeartbeat, Bool.and_eq_true,
    decide_eq_true_eq, Bool.not_eq_eq_eq_not, Bool.not_true, List.isEmpty_eq_false_iff]
  constructor
  · intro ⟨⟨hfresh, hgpus⟩, hdispatch⟩
    refine ⟨?_, hfresh, hgpus, hdispatch⟩
    cases haccepted : write.isAccepted with
    | true => rfl
    | false => rw [Write.inDispatch_mark haccepted] at hdispatch; cases hdispatch
  · rintro ⟨-, hfresh, hgpus, hdispatch⟩
    exact ⟨⟨hfresh, hgpus⟩, hdispatch⟩

/-- The fields of a row, as its readers take them, are those of the entry. -/
structure ShowsEntry (row : Json) (entry : NodeEntry) : Prop where
  nodeId : row.str? "node_id" = some entry.nodeId
  deviceName : row.str? "device_name" = entry.info.os.map OsInfo.deviceName
  wgIp : row.str? "wg_ip" = entry.info.network.map NetworkInfo.wgIp
  publicIp : row.str? "public_ip" = entry.currentPublicIp
  rpcPort : (row.get? "rpc_port").bind Decoder.u64 = some 50052
  inferenceUrl : row.str? "inference_url" = entry.inferenceUrl
  gpu : row.get? "gpu" = some (.ofOption eligibleGpuJson entry.info.gpus.head?)

theorem eligibleJson_shows (entry : NodeEntry) : ShowsEntry (eligibleJson entry) entry where
  nodeId := rfl
  deviceName := Json.asStr?_ofOption _
  wgIp := Json.asStr?_ofOption _
  publicIp := Json.asStr?_ofOption _
  rpcPort := rfl
  inferenceUrl := Json.asStr?_ofOption _
  gpu := rfl

theorem get?_eligibleJson_nodeId (entry : NodeEntry) :
    (eligibleJson entry).get? "node_id" = some (.string entry.nodeId) :=
  Json.str?_eq_some.mp (eligibleJson_shows entry).nodeId

/-- The rows served for a node are those of its stored entry, when eligible. -/
theorem mem_eligibleNodes_iff {reg : Registry} {now : ℤ} {id : String} {row : Json} :
    (row ∈ nodesOf (eligibleNodes reg now) ∧ row.get? "node_id" = some (.string id)) ↔
      ∃ entry, reg.get id = some entry ∧ entry.isEligible now ∧ row = eligibleJson entry := by
  simp only [eligibleNodes, nodesOf_nodesJson, eligibleEntries, List.mem_map, List.mem_filter]
  constructor
  · rintro ⟨⟨entry, ⟨hmem, heligible⟩, rfl⟩, hid⟩
    rw [get?_eligibleJson_nodeId, Option.some.injEq, Json.string.injEq] at hid
    exact ⟨entry, hid ▸ KeyedMap.mem_list.mp hmem, heligible, rfl⟩
  · rintro ⟨entry, hget, heligible, rfl⟩
    have hid := KeyedMap.key_of_get hget
    refine ⟨⟨entry, ⟨KeyedMap.mem_list.mpr (hid.symm ▸ hget), heligible⟩, rfl⟩, ?_⟩
    rw [get?_eligibleJson_nodeId, hid]

/-- Where the map shows the last writes, so do the rows. -/
theorem mem_eligibleNodes_iff_lastWrite {recorded : Recorded} (hstate : recorded.Faithful)
    {now : ℤ} {id : String} {row : Json} :
    (row ∈ nodesOf (eligibleNodes recorded.registry now) ∧
        row.get? "node_id" = some (.string id)) ↔
      ∃ write, lastWrite recorded.log id = some write ∧ write.Offers now ∧
        row = eligibleJson write.entry := by
  simp only [mem_eligibleNodes_iff, hstate.get_eq, Option.map_eq_some_iff]
  constructor
  · rintro ⟨_, ⟨write, hlast, rfl⟩, heligible, rfl⟩
    exact ⟨write, hlast, (isEligible_entry_iff write now).mp heligible, rfl⟩
  · rintro ⟨write, hlast, hoffers, rfl⟩
    exact ⟨write.entry, ⟨write, hlast, rfl⟩, (isEligible_entry_iff write now).mpr hoffers, rfl⟩

theorem mem_eligibleEntries {recorded : Recorded} (hfaithful : recorded.Faithful) {now : ℤ}
    {entry : NodeEntry} : entry ∈ eligibleEntries recorded.registry now ↔
      ∃ write, lastWrite recorded.log write.nodeId = some write ∧ write.Offers now ∧
        write.entry = entry := by
  rw [eligibleEntries, List.mem_filter, KeyedMap.mem_list, hfaithful.get_eq, Option.map_eq_some_iff]
  constructor
  · rintro ⟨⟨write, hlast, rfl⟩, heligible⟩
    exact ⟨write, hlast, (isEligible_entry_iff write now).mp heligible, rfl⟩
  · rintro ⟨write, hlast, hoffers, rfl⟩
    exact ⟨⟨write, hlast, rfl⟩, (isEligible_entry_iff write now).mpr hoffers⟩

/-- Each row that is served tells, field by field, of the last write of the node it names. -/
theorem eligibleNodes_show_lastWrite {recorded : Recorded} (hstate : recorded.Faithful)
    {now : ℤ} {row : Json} (hrow : row ∈ nodesOf (eligibleNodes recorded.registry now)) :
    ∃ write, lastWrite recorded.log write.nodeId = some write ∧ write.Offers now ∧
      ShowsEntry row write.entry := by
  rw [eligibleNodes, nodesOf_nodesJson, List.mem_map] at hrow
  obtain ⟨entry, hentry, rfl⟩ := hrow
  obtain ⟨write, hlast, hoffers, rfl⟩ := (mem_eligibleEntries hstate).mp hentry
  exact ⟨write, hlast, hoffers, eligibleJson_shows write.entry⟩

/-- In every state of every interleaving, the row served for a node is that of
its last write, which was a report or registration less than 60 s old with GPUs
and a status in dispatch; a node not heard of for 60 s has no row. -/
theorem eligibleNodes_iff_lastWrite {state : Interleaved} (hreach : interleaved.Reachable state)
    (now : ℤ) (id : String) :
    (∀ row, row ∈ nodesOf (eligibleNodes state.recorded.registry now) ∧
        row.get? "node_id" = some (.string id) ↔
      ∃ write, lastWrite state.recorded.log id = some write ∧ write.Offers now ∧
        row = eligibleJson write.entry) ∧
    ((∀ write ∈ state.recorded.log, write.nodeId = id → write.isAccepted →
        stale ≤ now - write.time) →
      ∀ row ∈ nodesOf (eligibleNodes state.recorded.registry now),
        row.get? "node_id" ≠ some (.string id)) := by
  have hstate := interleaved_faithful hreach
  have hrows : ∀ row, row ∈ nodesOf (eligibleNodes state.recorded.registry now) ∧
        row.get? "node_id" = some (.string id) ↔
      ∃ write, lastWrite state.recorded.log id = some write ∧ write.Offers now ∧
        row = eligibleJson write.entry := fun row => mem_eligibleNodes_iff_lastWrite hstate
  refine ⟨hrows, fun hsilent row hrow hid => ?_⟩
  obtain ⟨write, hlast, ⟨haccepted, hfresh, -⟩, -⟩ := (hrows row).mp ⟨hrow, hid⟩
  obtain ⟨hmem, hnode⟩ := lastWrite_some hlast
  have := hsilent write hmem hnode haccepted
  omega

/-- A node that just registered with a GPU is served, at that instant and for
less than 60 s. -/
theorem registered_isOffered :
    let entry := registerEntry 0 { nodeId := "x", gpus := [{}] }
    eligibleJson entry ∈ nodesOf (eligibleNodes (KeyedMap.empty.insert entry) 0) ∧
      ∀ row ∈ nodesOf (eligibleNodes (KeyedMap.empty.insert entry) (seconds 60)),
        row.get? "node_id" ≠ some (.string "x") := by
  intro entry
  let state : Interleaved :=
    { Interleaved.initial 0 with
      recorded := (Recorded.initial 0).write (.register 0 { nodeId := "x", gpus := [{}] }) }
  have hstep : interleaved.step (.initial 0) (0, .register "fresh"
      { nodeId := "x", info := some { nodeId := "", gpus := [{}] } }) = some state := rfl
  have hreach : interleaved.Reachable state := (interleaved_initial 0).step hstep
  refine ⟨?_, ?_⟩
  · have hserved := ((eligibleNodes_iff_lastWrite hreach 0 "x").1 (eligibleJson entry)).mpr
      ⟨_, rfl, ⟨rfl, by decide, by decide, rfl⟩, rfl⟩
    exact hserved.1
  · refine (eligibleNodes_iff_lastWrite hreach (seconds 60) "x").2 fun write hmem _ _ => ?_
    obtain rfl := List.mem_singleton.mp hmem
    decide

end GpuCluster.Coordinator
