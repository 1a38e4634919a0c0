import GpuCluster.Foundation.Json

/-! # The models a client may ask for

`/v1/models` lists the rows of the management backend's registry that are not
disabled. Without a registry, or with an empty one, it makes up an entry that
tells the size of the cluster.
-/

namespace GpuCluster.OpenaiApi

open Foundation

structure ModelEntry where
  id : String
  object : String
  ownedBy : String
  deriving DecidableEq

structure ModelList where
  object : String
  data : List ModelEntry
  deriving DecidableEq

def modelEntry (id : String) : ModelEntry := ⟨id, "model", "gpucluster"⟩

/-- `fetch_registry`: the rows of a successful answer of the management backend;
`none` without one. -/
def fetchRegistry (answer : Option Json) : Option (List Json) := answer.bind Json.asArray?

/-- `probe_cluster_size`, on the coordinator's answer. -/
def probeClusterSize (answer : Option Json) : ℕ :=
  ((answer.bind (·.get? "count")).bind Decoder.u64).elim 0 UInt64.toNat

/-- Rows whose status cannot be read are advertised. -/
def isAdvertised (row : Json) : Bool :=
  match row.str? "status" with
  | some status => status ≠ "disabled"
  | none => true

/-- `list_models`, on the answers of the management backend and the coordinator. -/
def listModels (registry nodes : Option Json) : ModelList :=
  let auto : ModelEntry := modelEntry s!"auto (cluster: {probeClusterSize nodes} nodes)"
  match fetchRegistry registry with
  | some (first :: rest) => ⟨"list", ((first :: rest).filter isAdvertised).map fun row =>
      modelEntry ((row.str? "id").getD "")⟩
  | _ => ⟨"list", [auto]⟩

/-- The ids that a client can name. -/
def ModelList.ids (list : ModelList) : List String := list.data.map ModelEntry.id

theorem ids_listModels_cons (first : Json) (rest : List Json) (nodes : Option Json) :
    (listModels (some (.array (first :: rest))) nodes).ids =
      ((first :: rest).filter isAdvertised).map fun row => (row.str? "id").getD "" := by
  simp only [listModels, fetchRegistry, Option.bind_some, Json.asArray?, ModelList.ids,
    List.map_map]
  rfl

end GpuCluster.OpenaiApi
