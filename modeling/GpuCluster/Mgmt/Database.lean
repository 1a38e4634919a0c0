import GpuCluster.Foundation.Json
import GpuCluster.Foundation.KeyedMap

/-! # The tables an enrollment touches

Rows with the columns that enrollment reads or writes, and the effects its
statements leave pending until the commit. Generated ids and timestamps that
nothing reads back are left out.
-/

namespace GpuCluster.Mgmt

open Foundation

/-- The database refuses texts with a NUL. -/
def storable (text : String) : Bool := Char.ofNat 0 ∉ text.toList

/-- A row of `enroll_tokens`. -/
structure TokenRow where
  id : String
  tokenHash : String
  displayHint : Option String
  expiresAt : ℤ
  usedAt : Option ℤ
  usedByNode : Option String
  usedFromIp : Option String
  deriving DecidableEq

/-- A row of `nodes`. -/
structure NodeRow where
  id : String
  hwFingerprint : String
  hostname : String
  displayName : Option String
  status : String
  agentVersion : String
  clientCertSha : String
  certExpiresAt : ℤ
  currentPublicIpV4 : String
  publicIpFirstSeen : ℤ
  publicIpLastChanged : ℤ
  firstSeen : ℤ
  deriving DecidableEq

/-- A row of `node_ip_history`. -/
structure IpHistoryRow where
  nodeId : String
  publicIpV4 : String
  source : String
  deriving DecidableEq

/-- A row of `audit_log`. -/
structure AuditRow where
  actor : String
  action : String
  resource : String
  ip : Option String := none
  details : Option Json := none

structure Database where
  enrollTokens : KeyedMap TokenRow.id
  nodes : KeyedMap NodeRow.id
  nodeIpHistory : List IpHistoryRow
  auditLog : List AuditRow

/-- What an executed statement will do to the tables when its transaction commits. -/
inductive Effect
  | putNode (row : NodeRow)
  | addIpHistory (row : IpHistoryRow)
  | putToken (row : TokenRow)
  | addAudit (row : AuditRow)

namespace Database

def apply (db : Database) : Effect → Database
  | .putNode row => { db with nodes := db.nodes.insert row }
  | .addIpHistory row => { db with nodeIpHistory := db.nodeIpHistory ++ [row] }
  | .putToken row => { db with enrollTokens := db.enrollTokens.insert row }
  | .addAudit row => { db with auditLog := db.auditLog ++ [row] }

/-- The effects of one transaction, in statement order. -/
def applyAll (db : Database) (effects : List Effect) : Database := effects.foldl apply db

/-- `SELECT id FROM nodes WHERE hw_fingerprint = $1`. -/
def nodeIdByFingerprint (db : Database) (hwFingerprint : String) : Option String :=
  (db.nodes.list.find? (·.hwFingerprint = hwFingerprint)).map NodeRow.id

/-- The `UNIQUE` constraint on `nodes.hw_fingerprint`. -/
def UniqueFingerprints (db : Database) : Prop :=
  ∀ id other row otherRow, db.nodes.get id = some row → db.nodes.get other = some otherRow →
    row.hwFingerprint = otherRow.hwFingerprint → id = other

theorem nodeIdByFingerprint_some {db : Database} {hwFingerprint id : String}
    (hid : db.nodeIdByFingerprint hwFingerprint = some id) :
    ∃ row, db.nodes.get id = some row ∧ row.hwFingerprint = hwFingerprint := by
  obtain ⟨row, hrow, rfl⟩ := Option.map_eq_some_iff.mp hid
  refine ⟨row, KeyedMap.mem_list.mp (List.mem_of_find?_eq_some hrow), ?_⟩
  simpa using List.find?_some hrow

theorem nodeIdByFingerprint_none {db : Database} {hwFingerprint : String}
    (hnone : db.nodeIdByFingerprint hwFingerprint = none) {id : String} {row : NodeRow}
    (hget : db.nodes.get id = some row) : row.hwFingerprint ≠ hwFingerprint := by
  rw [nodeIdByFingerprint, Option.map_eq_none_iff, List.find?_eq_none] at hnone
  have hmem : row ∈ db.nodes.list :=
    KeyedMap.mem_list.mpr ((KeyedMap.key_of_get hget).symm ▸ hget)
  simpa using hnone row hmem

/-- What one looks up after a transaction was written by one of its effects, or
none of them writes it and it is what one found before. -/
theorem applyAll_view {ω : Type} (view : Database → ω) (writes : Effect → ω → Prop)
    (hview : ∀ db effect, view (db.apply effect) = view db ∧ (∀ w, ¬writes effect w) ∨
      writes effect (view (db.apply effect)))
    (db : Database) (effects : List Effect) :
    view (db.applyAll effects) = view db ∧ (∀ effect ∈ effects, ∀ w, ¬writes effect w) ∨
      ∃ effect ∈ effects, writes effect (view (db.applyAll effects)) := by
  induction effects generalizing db with
  | nil => exact .inl ⟨rfl, fun _ hmem => nomatch hmem⟩
  | cons effect rest ih =>
      rcases ih (db.apply effect) with ⟨hsame, hrest⟩ | ⟨later, hmem, hwrites⟩
      -- the rest writes nothing here, so the first effect decides
      · rcases hview db effect with ⟨hkept, hnone⟩ | hwrites
        · exact .inl ⟨hsame.trans hkept, List.forall_mem_cons.mpr ⟨hnone, hrest⟩⟩
        · exact .inr ⟨effect, List.mem_cons_self .., hsame.symm ▸ hwrites⟩
      · exact .inr ⟨later, List.mem_cons_of_mem _ hmem, hwrites⟩

/-- A node row after a transaction: one it wrote, else the row before it. -/
theorem applyAll_nodes (db : Database) (effects : List Effect) (id : String) :
    (db.applyAll effects).nodes.get id = db.nodes.get id ∧
        (∀ row, Effect.putNode row ∈ effects → row.id ≠ id) ∨
      ∃ row, Effect.putNode row ∈ effects ∧ row.id = id ∧
        (db.applyAll effects).nodes.get id = some row := by
  let writes (effect : Effect) (found : Option NodeRow) : Prop :=
    ∃ row, effect = .putNode row ∧ row.id = id ∧ found = some row
  have hview : ∀ (db : Database) effect,
      (db.apply effect).nodes.get id = db.nodes.get id ∧ (∀ w, ¬writes effect w) ∨
        writes effect ((db.apply effect).nodes.get id) := by
    intro db effect
    cases effect with
    | putNode row =>
        by_cases hid : row.id = id
        · exact .inr ⟨row, rfl, hid, hid ▸ db.nodes.get_insert_self row⟩
        · refine .inl ⟨db.nodes.get_insert_ne row (Ne.symm hid), ?_⟩
          rintro _ ⟨_, ⟨rfl⟩, hsame, -⟩
          exact hid hsame
    | addIpHistory | putToken | addAudit =>
        exact .inl ⟨rfl, fun _ ⟨_, h, _⟩ => nomatch h⟩
  rcases applyAll_view (fun db => db.nodes.get id) writes hview db effects with
    ⟨hsame, hnone⟩ | ⟨_, hmem, row, rfl, hid, hget⟩
  · exact .inl ⟨hsame, fun row hmem hid => hnone _ hmem _ ⟨row, rfl, hid, rfl⟩⟩
  · exact .inr ⟨row, hmem, hid, hget⟩

/-- A token row after a transaction: one it wrote, else the row before it. -/
theorem applyAll_enrollTokens (db : Database) (effects : List Effect) (id : String) :
    (db.applyAll effects).enrollTokens.get id = db.enrollTokens.get id ∧
        (∀ row, Effect.putToken row ∈ effects → row.id ≠ id) ∨
      ∃ row, Effect.putToken row ∈ effects ∧ row.id = id ∧
        (db.applyAll effects).enrollTokens.get id = some row := by
  let writes (effect : Effect) (found : Option TokenRow) : Prop :=
    ∃ row, effect = .putToken row ∧ row.id = id ∧ found = some row
  have hview : ∀ (db : Database) effect,
      (db.apply effect).enrollTokens.get id = db.enrollTokens.get id ∧ (∀ w, ¬writes effect w) ∨
        writes effect ((db.apply effect).enrollTokens.get id) := by
    intro db effect
    cases effect with
    | putToken row =>
        by_cases hid : row.id = id
        · exact .inr ⟨row, rfl, hid, hid ▸ db.enrollTokens.get_insert_self row⟩
        · refine .inl ⟨db.enrollTokens.get_insert_ne row (Ne.symm hid), ?_⟩
          rintro _ ⟨_, ⟨rfl⟩, hsame, -⟩
          exact hid hsame
    | putNode | addIpHistory | addAudit =>
        exact .inl ⟨rfl, fun _ ⟨_, h, _⟩ => nomatch h⟩
  rcases applyAll_view (fun db => db.enrollTokens.get id) writes hview db effects with
    ⟨hsame, hnone⟩ | ⟨_, hmem, row, rfl, hid, hget⟩
  · exact .inl ⟨hsame, fun row hmem hid => hnone _ hmem _ ⟨row, rfl, hid, rfl⟩⟩
  · exact .inr ⟨row, hmem, hid, hget⟩

/-- A row that was there or was written is there after the transaction. -/
theorem applyAll_nodes_isSome (db : Database) (effects : List Effect) (id : String)
    (hrow : (db.nodes.get id).isSome ∨ ∃ row, Effect.putNode row ∈ effects ∧ row.id = id) :
    ((db.applyAll effects).nodes.get id).isSome := by
  rcases db.applyAll_nodes effects id with ⟨hsame, hnone⟩ | ⟨row, -, -, hget⟩
  · rcases hrow with hstored | ⟨row, hmem, hid⟩
    · rwa [hsame]
    · exact absurd hid (hnone row hmem)
  · rw [hget]
    rfl

end Database

end GpuCluster.Mgmt
