import GpuCluster.Foundation.Text
import GpuCluster.Mgmt.Database

/-! # Entries of the inference log

What a dispatcher reports, and the row that the handler makes of it. Long
messages are cut at a byte position. The database takes every text that has no
NUL in it.
-/

namespace GpuCluster.Mgmt

open Foundation

/-- What a dispatcher reports of one request. -/
structure LogRequest where
  requestId : Option String
  endpoint : String
  model : String
  nodeId : Option String
  inferenceUrl : Option String
  apiKeyPrefix : Option String
  promptTokens : Option Int32
  completionTokens : Option Int32
  totalTokens : Option Int32
  latencyMs : Option Int32
  statusCode : Int32
  errorType : Option String
  errorMessage : Option String
  deriving DecidableEq

def defaultEndpoint : String := "chat.completions"

open Decoder in
/-- Everything but the status may be left out. -/
def LogRequest.decode : Decoder LogRequest := fun document => do
  let field ← fieldsOf 13 document
  return {
    requestId := ← orDefault none (option string) (field "request_id" 0)
    endpoint := ← orDefault defaultEndpoint string (field "endpoint" 1)
    model := ← orDefault "" string (field "model" 2)
    nodeId := ← orDefault none (option string) (field "node_id" 3)
    inferenceUrl := ← orDefault none (option string) (field "inference_url" 4)
    apiKeyPrefix := ← orDefault none (option string) (field "api_key_prefix" 5)
    promptTokens := ← orDefault none (option i32) (field "prompt_tokens" 6)
    completionTokens := ← orDefault none (option i32) (field "completion_tokens" 7)
    totalTokens := ← orDefault none (option i32) (field "total_tokens" 8)
    latencyMs := ← orDefault none (option i32) (field "latency_ms" 9)
    statusCode := ← (field "status_code" 10).bind i32
    errorType := ← orDefault none (option string) (field "error_type" 11)
    errorMessage := ← orDefault none (option string) (field "error_message" 12) }

/-! ## The handler -/

/-- A row has the columns of an entry, with the message cut. The id and the time
are the database's. -/
abbrev LogRow := LogRequest

/-- Bytes that are kept of a message. -/
def messageCap : ℕ := 4096

/-- The message that is stored, or `none` for a panic. -/
def LogRequest.truncatedMessage (req : LogRequest) : Option (Option String) :=
  match req.errorMessage with
  | none => some none
  | some s =>
      if messageCap < s.utf8ByteSize then (sliceTo? s messageCap).map some else some (some s)

/-- The columns of type `TEXT` that are not null. -/
def LogRequest.texts (row : LogRow) : List String :=
  row.requestId.toList ++ [row.endpoint, row.model] ++ row.nodeId.toList ++
    row.inferenceUrl.toList ++ row.apiKeyPrefix.toList ++ row.errorType.toList ++
    row.errorMessage.toList

inductive LogOutcome
  | panicked
  | refused
  | stored (table : List LogRow)

/-- `inference::log`, with a database that refuses nothing else. -/
def log (table : List LogRow) (req : LogRequest) : LogOutcome :=
  match req.truncatedMessage with
  | none => .panicked
  | some errorMessage =>
      let row := { req with errorMessage }
      if row.texts.all storable then .stored (row :: table) else .refused

/-- What has to be in the row of a message. -/
def IsCutOf (stored message : String) : Prop :=
  stored.toList <+: message.toList ∧ stored.utf8ByteSize ≤ messageCap ∧
    (message.utf8ByteSize ≤ messageCap → stored = message)

/-- The handler stores one row, with the message or the beginning of it. -/
def Records (table : List LogRow) (req : LogRequest) : Prop :=
  ∃ errorMessage, log table req = .stored ({ req with errorMessage } :: table) ∧
    Option.Rel IsCutOf errorMessage req.errorMessage

/-- The message is short or can be cut after the cap, and what is stored has no NUL. -/
structure Recordable (req : LogRequest) : Prop where
  boundary : ∀ message ∈ req.errorMessage,
    message.utf8ByteSize ≤ messageCap ∨ isCharBoundary message messageCap
  texts : ∀ text ∈ ({ req with errorMessage := none } : LogRequest).texts, storable text
  message : ∀ message ∈ req.errorMessage, ∀ before : List Char, before <+: message.toList →
    (String.ofList before).utf8ByteSize ≤ messageCap → Char.ofNat 0 ∉ before

/-! ## When a row is stored -/

/-- A message that does not end the handler is cut at its cap, not before it. -/
theorem truncatedMessage_eq_some {req : LogRequest} {errorMessage : Option String}
    (hcut : req.truncatedMessage = some errorMessage) :
    Option.Rel IsCutOf errorMessage req.errorMessage ∧
    (∀ message ∈ req.errorMessage,
      message.utf8ByteSize ≤ messageCap ∨ isCharBoundary message messageCap) ∧
    ∀ message ∈ req.errorMessage, ∀ cut ∈ errorMessage, ∀ before : List Char,
      before <+: message.toList → (String.ofList before).utf8ByteSize ≤ messageCap →
        before <+: cut.toList := by
  unfold LogRequest.truncatedMessage at hcut
  cases hmessage : req.errorMessage with
  | none =>
      rw [hmessage] at hcut
      cases hcut
      refine ⟨.none, ?_, ?_⟩ <;> rintro _ ⟨⟩
  | some s =>
      rw [hmessage] at hcut
      dsimp only at hcut
      split at hcut
      next hlong =>
        obtain ⟨cut, hslice, rfl⟩ := Option.map_eq_some_iff.mp hcut
        obtain ⟨kept, htake, rfl⟩ := Option.map_eq_some_iff.mp hslice
        obtain ⟨hbegins, hsize⟩ := takeBytes_eq_some.mp htake
        refine ⟨.some ⟨?_, hsize.le, fun hshort => absurd hlong hshort.not_gt⟩, ?_, ?_⟩
        · rwa [String.toList_ofList]
        · rintro message ⟨⟩
          exact .inr (by rw [isCharBoundary, htake]; rfl)
        · rintro message ⟨⟩ cut ⟨⟩ before hbefore hcap
          rw [String.toList_ofList]
          exact prefix_of_utf8ByteSize_le hbefore hbegins (hcap.trans hsize.ge)
      next hshort =>
        cases hcut
        refine ⟨.some ⟨List.prefix_rfl, not_lt.mp hshort, fun _ => rfl⟩, ?_, ?_⟩
        · rintro message ⟨⟩
          exact .inl (not_lt.mp hshort)
        · rintro message ⟨⟩ cut ⟨⟩ before hbefore -
          exact hbefore

theorem exists_truncatedMessage {req : LogRequest}
    (hboundary : ∀ message ∈ req.errorMessage,
      message.utf8ByteSize ≤ messageCap ∨ isCharBoundary message messageCap) :
    ∃ errorMessage, req.truncatedMessage = some errorMessage := by
  unfold LogRequest.truncatedMessage
  cases hmessage : req.errorMessage with
  | none => exact ⟨none, rfl⟩
  | some s =>
      dsimp only
      split
      next hlong =>
        have hslice := (hboundary s hmessage).resolve_left hlong.not_ge
        rw [← sliceTo?_isSome] at hslice
        obtain ⟨cut, hcut⟩ := Option.isSome_iff_exists.mp hslice
        exact ⟨some cut, by rw [hcut]; rfl⟩
      next => exact ⟨some s, rfl⟩

/-- A long message that cannot be cut at the cap ends the handler. -/
theorem log_eq_panicked (table : List LogRow) {req : LogRequest} {message : String}
    (hmessage : req.errorMessage = some message) (hlong : messageCap < message.utf8ByteSize)
    (hboundary : isCharBoundary message messageCap = false) :
    log table req = .panicked := by
  have hslice : sliceTo? message messageCap = none := by
    rw [← Option.isNone_iff_eq_none, ← Option.isSome_eq_false_iff, sliceTo?_isSome, hboundary]
  have hcut : req.truncatedMessage = none := by
    rw [LogRequest.truncatedMessage, hmessage]
    dsimp only
    rw [if_pos hlong, hslice]
    rfl
  rw [log, hcut]

theorem texts_errorMessage (req : LogRequest) (errorMessage : Option String) :
    ({ req with errorMessage } : LogRequest).texts =
      ({ req with errorMessage := none } : LogRequest).texts ++ errorMessage.toList := by
  simp [LogRequest.texts]

/-- The row can be stored exactly when no text of it has a NUL; of the message, that
is each beginning up to the cap. -/
theorem all_storable_iff {req : LogRequest} {errorMessage : Option String}
    (hcut : req.truncatedMessage = some errorMessage) :
    ({ req with errorMessage } : LogRequest).texts.all storable ↔
      (∀ text ∈ ({ req with errorMessage := none } : LogRequest).texts, storable text) ∧
      ∀ message ∈ req.errorMessage, ∀ before : List Char, before <+: message.toList →
        (String.ofList before).utf8ByteSize ≤ messageCap → Char.ofNat 0 ∉ before := by
  obtain ⟨hrel, -, hmaximal⟩ := truncatedMessage_eq_some hcut
  rw [texts_errorMessage, List.all_append, Bool.and_eq_true, List.all_eq_true]
  refine and_congr_right fun _ => ?_
  clear hcut
  generalize req.errorMessage = whole at hrel hmaximal ⊢
  cases hrel with
  | none => simp
  | @some cut message hcut =>
      obtain ⟨hbegins, hsize, -⟩ := hcut
      simp only [Option.toList_some, List.all_cons, List.all_nil, Bool.and_true, storable,
        decide_eq_true_eq]
      constructor
      · rintro hnul _ ⟨⟩ before hbefore hcap hmem
        exact hnul ((hmaximal message rfl cut rfl before hbefore hcap).subset hmem)
      · intro hall
        exact hall message rfl cut.toList hbegins (by rwa [String.ofList_toList])

/-- The handler records a report exactly when it can be cut and stored. -/
theorem records_iff_recordable (table : List LogRow) (req : LogRequest) :
    Records table req ↔ Recordable req := by
  unfold Records log
  constructor
  · rintro ⟨stored, hlog, -⟩
    split at hlog
    next => cases hlog
    next errorMessage hcut =>
      dsimp only at hlog
      split at hlog
      next hall =>
        obtain ⟨htexts, hmessage⟩ := (all_storable_iff hcut).mp hall
        exact ⟨(truncatedMessage_eq_some hcut).2.1, htexts, hmessage⟩
      next => cases hlog
  · intro hrecordable
    obtain ⟨errorMessage, hcut⟩ := exists_truncatedMessage hrecordable.boundary
    have hall := (all_storable_iff hcut).mpr ⟨hrecordable.texts, hrecordable.message⟩
    refine ⟨errorMessage, ?_, (truncatedMessage_eq_some hcut).1⟩
    rw [hcut]
    exact if_pos hall

end GpuCluster.Mgmt
