import GpuCluster.Foundation.Html
import GpuCluster.Gateway.RowClicks

/-! # The tables of the admin page

Rows are written as HTML text from what the management backend and the coordinator
answer. Every text of a row is escaped where it stands, in a cell or in a quoted
value of a tag. A row is made of parts that begin and end outside of tags.
-/

namespace GpuCluster.Gateway

open Foundation

/-- What the page takes from the language: `toLowerCase`, the time since a date, and
whether a date is past. -/
structure PageRuntime where
  lower : String → String
  relTime : Option String → String
  isPast : String → Bool

/-! ## Pills -/

inductive PillKind
  | unknown
  | ok
  | err
  | warn
  | info
  deriving DecidableEq

def pillKind (runtime : PageRuntime) (status : String) : PillKind :=
  if status = "" then .unknown
  else
    let s := runtime.lower status
    if s ∈ ["ok", "online", "healthy", "available"] then .ok
    else if s ∈ ["down", "offline", "revoked", "quarantined", "error"] then .err
    else if s ∈ ["degraded", "draining", "pending_approval", "loading", "downloading"] then .warn
    else .info

/-- `pillFor`, with the field where the status stands. -/
def pillFor {φ : Type} (kind : PillKind) (status : φ) : HtmlTemplate φ :=
  match kind with
  | .unknown => [.markup "<span class=\"pill muted\">", .markup "unknown</span>"]
  | .ok => [.markup "<span class=\"pill ok\">", .field status, .markup "</span>"]
  | .err => [.markup "<span class=\"pill err\">", .field status, .markup "</span>"]
  | .warn => [.markup "<span class=\"pill warn\">", .field status, .markup "</span>"]
  | .info => [.markup "<span class=\"pill info\">", .field status, .markup "</span>"]

/-! ## Live nodes -/

/-- An entry of `coordinator.nodes` in the overview. -/
structure LiveEntry where
  id : String
  hostname : Option String
  status : String
  lastHeartbeat : Option String

inductive LiveField
  | id
  | hostname
  | status
  | lastHeartbeat
  | lastSeen
  deriving DecidableEq

def LiveEntry.value (runtime : PageRuntime) (entry : LiveEntry) : LiveField → String
  | .id => entry.id
  | .hostname => orElseText entry.hostname "—"
  | .status => entry.status
  | .lastHeartbeat => orElseText entry.lastHeartbeat "—"
  | .lastSeen => runtime.relTime entry.lastHeartbeat

/-- A row of `fillTable` for the live nodes. -/
def liveRow (kind : PillKind) : List (HtmlTemplate LiveField) := [
  [.markup "<tr>", .markup "<td class=\"id\">", .field .id, .markup "</td>",
    .markup "<td class=\"\">", .field .hostname, .markup "</td>", .markup "<td class=\"\">"],
  pillFor kind .status,
  [.markup "</td>", .markup "<td class=\"muted\">", .field .lastHeartbeat, .markup "</td>",
    .markup "<td class=\"muted\">", .field .lastSeen, .markup "</td>", .markup "</tr>"]]

/-! ## Registered nodes -/

/-- An entry of `/api/v1/nodes`. -/
structure NodeEntry where
  id : String
  displayName : Option String
  status : String
  firstSeen : Option String

inductive NodeField
  | id
  | displayName
  | status
  | firstSeen
  deriving DecidableEq

def NodeEntry.value (runtime : PageRuntime) (entry : NodeEntry) : NodeField → String
  | .id => entry.id
  | .displayName => orElseText entry.displayName "—"
  | .status => entry.status
  | .firstSeen =>
      if orElseText entry.firstSeen "" = "" then "—" else runtime.relTime entry.firstSeen

/-- `btn` of `nodeActionsHtml`. -/
def nodeButton (action label cls : String) : HtmlTemplate NodeField := [
  .markup "<button class=\"row-action ", .markup cls, .markup "\" data-action=\"", .markup action,
  .markup "\" data-id=\"", .field .id, .markup "\">", .markup label, .markup "</button>"]

/-- `nodeActionsHtml` of a status in lower case. -/
def nodeActionsHtml (status : String) : List (HtmlTemplate NodeField) := [
  [.markup "<div class=\"row-actions\">"],
  if status = "pending_approval" then nodeButton "approve" "Approve" "approve" else [],
  if status ∈ ["online", "degraded"] then nodeButton "drain" "Drain" "" else [],
  if status ≠ "revoked" then nodeButton "revoke" "Revoke" "danger" else [],
  [.markup "</div>"]]

/-- A row of `fillTable` for the registered nodes. -/
def nodeRow (kind : PillKind) (status : String) : List (HtmlTemplate NodeField) := [
  [.markup "<tr>", .markup "<td class=\"id\">", .field .id, .markup "</td>",
    .markup "<td class=\"\">", .field .displayName, .markup "</td>", .markup "<td class=\"\">"],
  pillFor kind .status,
  [.markup "</td>", .markup "<td class=\"muted\">", .field .firstSeen, .markup "</td>",
    .markup "<td class=\"\">"]] ++
  nodeActionsHtml status ++ [
  [.markup "</td>", .markup "</tr>"]]

/-! ## API keys -/

/-- An entry of `/api/v1/keys`. -/
structure KeyEntry where
  id : String
  name : String
  storedPrefix : String
  scope : String
  createdAt : String
  lastUsedAt : Option String
  expiresAt : Option String
  revokedAt : Option String

inductive KeyField
  | id
  | name
  | shownName
  | storedPrefix
  | scope
  | createdAt
  | lastUsedAt
  deriving DecidableEq

def KeyEntry.value (runtime : PageRuntime) (entry : KeyEntry) : KeyField → String
  | .id => entry.id
  | .name => entry.name
  | .shownName => orElseText (some entry.name) "—"
  | .storedPrefix => entry.storedPrefix
  | .scope => entry.scope
  | .createdAt => runtime.relTime (some entry.createdAt)
  | .lastUsedAt =>
      if orElseText entry.lastUsedAt "" = "" then "never" else runtime.relTime entry.lastUsedAt

/-- Text that counts as true. -/
def isGiven (value : Option String) : Bool := orElseText value "" ≠ ""

def keyActionsHtml (revoked : Bool) : List (HtmlTemplate KeyField) := [
  [.markup "<div class=\"row-actions\">"],
  [.markup "<button class=\"row-action\" ", .markup "data-action=\"key-edit\"",
    .markup "\n                   data-id=\"", .field .id, .markup "\" data-name=\"", .field .name,
    .markup "\" data-scope=\"", .field .scope, .markup "\">Edit</button>"],
  if revoked then [.markup "<button class=\"row-action\" ", .markup "disabled>Revoked</button>"]
  else
    [.markup "<button class=\"row-action\" ", .markup "data-action=\"key-revoke\" ",
      .markup "data-id=\"", .field .id, .markup "\">Revoke</button>"],
  [.markup "<button class=\"row-action danger\" ", .markup "data-action=\"key-delete\" ",
    .markup "data-id=\"", .field .id, .markup "\">Delete</button>", .markup "</div>"]]

def keyStatusPill (revoked expired : Bool) : HtmlTemplate KeyField :=
  if revoked then [.markup "<span class=\"pill err\">", .markup "revoked</span>"]
  else if expired then [.markup "<span class=\"pill warn\">", .markup "expired</span>"]
  else [.markup "<span class=\"pill ok\">", .markup "active</span>"]

/-- A row of `loadKeys`. -/
def keyRow (kind : PillKind) (revoked expired : Bool) : List (HtmlTemplate KeyField) := [
  [.markup "\n      <tr>", .markup "\n        <td>", .field .shownName, .markup "</td>",
    .markup "\n        <td class=\"muted\">", .field .storedPrefix, .markup "…</td>",
    .markup "\n        <td>"],
  pillFor kind .scope,
  [.markup "</td>", .markup "\n        <td class=\"muted\">", .field .createdAt, .markup "</td>",
    .markup "\n        <td class=\"muted\">", .field .lastUsedAt, .markup "</td>",
    .markup "\n        <td>"],
  keyStatusPill revoked expired,
  [.markup "</td>", .markup "\n        <td>"]] ++
  keyActionsHtml revoked ++ [
  [.markup "</td>", .markup "\n      </tr>"]]

/-! ## Models -/

/-- An entry of `/api/v1/models`. -/
structure ModelEntry where
  id : String
  displayName : String
  status : String
  isDefault : Bool
  hfRepo : String
  hfFile : String
  loadedOnNode : String
  createdAt : String

inductive ModelField
  | id
  | displayName
  | status
  | hfRepo
  | hfFile
  | loadedOnNode
  | createdAt
  deriving DecidableEq

def ModelEntry.value (runtime : PageRuntime) (entry : ModelEntry) : ModelField → String
  | .id => entry.id
  | .displayName => orElseText (some entry.displayName) "—"
  | .status => entry.status
  | .hfRepo => entry.hfRepo
  | .hfFile => entry.hfFile
  | .loadedOnNode => orElseText (some entry.loadedOnNode) "—"
  | .createdAt => runtime.relTime (some entry.createdAt)

def ModelEntry.hasHf (entry : ModelEntry) : Bool := entry.hfRepo ≠ "" && entry.hfFile ≠ ""

def hfCell (hasHf : Bool) : HtmlTemplate ModelField :=
  if hasHf then
    [.markup "<span class=\"muted small\">", .field .hfRepo, .markup "<br>", .field .hfFile,
      .markup "</span>"]
  else [.markup "<span class=\"pill muted\">", .markup "manual</span>"]

def defaultPill (isDefault : Bool) : HtmlTemplate ModelField :=
  if isDefault then [.markup "<span class=\"pill ok\">", .markup "default</span>"]
  else [.markup "<span class=\"pill muted\">", .markup "—</span>"]

def loadBtn (hasHf : Bool) : HtmlTemplate ModelField :=
  if hasHf then
    [.markup "<button class=\"row-action\" ", .markup "data-action=\"model-load\" ",
      .markup "data-id=\"", .field .id, .markup "\">Load…</button>"]
  else []

def toggleBtn (disabled : Bool) : HtmlTemplate ModelField := [
  .markup "<button class=\"row-action\" ", .markup "data-action=\"model-toggle\"",
  .markup "\n                    data-id=\"", .field .id, .markup "\" data-status=\"",
  .field .status, .markup "\">\n              ",
  .markup (if disabled then "Enable" else "Disable"), .markup "\n            </button>"]

def defaultBtn (isDefault : Bool) : HtmlTemplate ModelField :=
  if isDefault then []
  else
    [.markup "<button class=\"row-action\" ", .markup "data-action=\"model-default\" ",
      .markup "data-id=\"", .field .id, .markup "\">Set default</button>"]

def deleteBtn : HtmlTemplate ModelField := [
  .markup "<button class=\"row-action danger\" ", .markup "data-action=\"model-delete\" ",
  .markup "data-id=\"", .field .id, .markup "\">Delete</button>"]

/-- A row of `loadModels`. -/
def modelRow (kind : PillKind) (hasHf isDefault disabled : Bool) :
    List (HtmlTemplate ModelField) := [
  [.markup "\n      <tr>", .markup "\n        <td class=\"id\">", .field .id, .markup "</td>",
    .markup "\n        <td>", .field .displayName, .markup "</td>", .markup "\n        <td>"],
  hfCell hasHf,
  [.markup "</td>", .markup "\n        <td>"],
  pillFor kind .status,
  [.markup "</td>", .markup "\n        <td>"],
  defaultPill isDefault,
  [.markup "</td>", .markup "\n        <td class=\"muted small\">", .field .loadedOnNode,
    .markup "</td>", .markup "\n        <td class=\"muted\">", .field .createdAt, .markup "</td>",
    .markup "\n        <td>", .markup "\n          <div class=\"row-actions\">",
    .markup "\n            "],
  loadBtn hasHf,
  [.markup "\n            "],
  toggleBtn disabled,
  [.markup "\n            "],
  defaultBtn isDefault,
  [.markup "\n            "],
  deleteBtn,
  [.markup "\n          </div>", .markup "\n        </td>", .markup "\n      </tr>"]]

/-! ## Requests -/

/-- An entry of `/api/v1/inference/recent`. -/
structure LogEntry where
  createdAt : String
  statusCode : ℤ
  model : String
  inferenceUrl : Option String
  nodeId : Option String
  promptTokens : Option ℤ
  completionTokens : Option ℤ
  totalTokens : Option ℤ
  latencyMs : Option ℤ
  apiKeyPrefix : Option String
  errorType : Option String
  errorMessage : Option String

inductive LogField
  | createdAt
  | shownTime
  | statusCode
  | model
  | inferenceUrl
  | nodeId
  | tokens
  | latency
  | apiKeyPrefix
  | errorType
  | errorMessage
  deriving DecidableEq

/-- `${n ?? "?"}`. -/
def countText (count : Option ℤ) : String := (count.map toString).getD "?"

def LogEntry.value (runtime : PageRuntime) (entry : LogEntry) : LogField → String
  | .createdAt => entry.createdAt
  | .shownTime => runtime.relTime (some entry.createdAt)
  | .statusCode => toString entry.statusCode
  | .model => orElseText (some entry.model) "—"
  | .inferenceUrl => orElseText entry.inferenceUrl ""
  | .nodeId => orElseText entry.nodeId "—"
  | .tokens =>
      if entry.promptTokens.isSome ∨ entry.completionTokens.isSome ∨ entry.totalTokens.isSome then
        countText entry.promptTokens ++ " / " ++ countText entry.completionTokens ++ " / " ++
          countText entry.totalTokens
      else "—"
  | .latency => match entry.latencyMs with
      | some ms => toString ms ++ " ms"
      | none => "—"
  | .apiKeyPrefix => orElseText entry.apiKeyPrefix "—"
  | .errorType => orElseText entry.errorType ""
  | .errorMessage => orElseText entry.errorMessage ""

def LogEntry.ok (entry : LogEntry) : Bool := 200 ≤ entry.statusCode && entry.statusCode < 300

/-- A number is written as it is; its text has nothing that would be escaped. -/
def statusPill (ok : Bool) : HtmlTemplate LogField := [
  .markup (if ok then "<span class=\"pill ok\">" else "<span class=\"pill err\">"),
  .field .statusCode, .markup "</span>"]

/-- The style of a message that does not fit. -/
def messageStyle : List String := [
  "margin-top: 4px; ", "max-width: 280px; ", "overflow: hidden; ", "text-overflow: ellipsis; ",
  "white-space: nowrap;"]

def errCell (hasType hasMessage : Bool) : HtmlTemplate LogField :=
  if hasType then
    [.markup "<span class=\"pill warn\">", .field .errorType, .markup "</span>"] ++
      if hasMessage then
        [.markup "<div class=\"muted small\" ", .markup "style=\""] ++ messageStyle.map .markup ++
          [.markup "\" title=\"", .field .errorMessage, .markup "\">", .field .errorMessage,
            .markup "</div>"]
      else []
  else [.markup "—"]

/-- A row of `loadInferenceLog`. -/
def logRow (ok hasType hasMessage : Bool) : List (HtmlTemplate LogField) := [
  [.markup "\n      <tr>", .markup "\n        <td class=\"muted\" ", .markup "title=\"",
    .field .createdAt, .markup "\">", .field .shownTime, .markup "</td>",
    .markup "\n        <td>"],
  statusPill ok,
  [.markup "</td>", .markup "\n        <td class=\"id\">", .field .model, .markup "</td>",
    .markup "\n        <td class=\"muted small\" ", .markup "title=\"", .field .inferenceUrl,
    .markup "\">", .field .nodeId, .markup "</td>"],
  [.markup "\n        <td class=\"muted small\">", .field .tokens, .markup "</td>",
    .markup "\n        <td class=\"muted\">", .field .latency, .markup "</td>",
    .markup "\n        <td class=\"muted small\">", .field .apiKeyPrefix, .markup "</td>",
    .markup "\n        <td>"],
  errCell hasType hasMessage,
  [.markup "</td>", .markup "\n      </tr>"]]

/-! ## Dialogs and failures -/

/-- A row in place of the keys, or of models or requests, that could not be read. -/
def failureRow (keys : Bool) : HtmlTemplate Unit := [
  .markup "<tr><td colspan=\"", .markup (if keys then "7" else "8"), .markup "\" class=\"empty\">",
  .field (), .markup "</td></tr>"]

/-- The body of `confirmModal`. -/
def confirmBody : HtmlTemplate Unit := [.markup "<p>", .field (), .markup "</p>"]

/-- The body of `editKeyDialog`. -/
def editKeyBody (inference admin : Bool) : List (HtmlTemplate Unit) := [
  [.markup "\n    <label for=\"m-key-name\">", .markup "Name</label>", .markup "\n    <input ",
    .markup "id=\"m-key-name\" type=\"text\" ", .markup "value=\"", .field (), .markup "\" />"],
  [.markup "\n    <label for=\"m-key-scope\">", .markup "Scope</label>",
    .markup "\n    <select id=\"m-key-scope\">"],
  [.markup "\n      <option value=\"inference\"", .markup (if inference then " selected" else ""),
    .markup ">inference</option>"],
  [.markup "\n      <option value=\"admin\"", .markup (if admin then " selected" else ""),
    .markup ">admin</option>", .markup "\n    </select>"]]

/-- An option of `loadModelDialog`. -/
def candidateOption : HtmlTemplate Unit := [
  .markup "<option value=\"", .field (), .markup "\">", .field (), .markup "</option>"]

/-- What stands before the options of `loadModelDialog` and behind them. -/
def loadDialogStart : HtmlTemplate Unit := [
  .markup "\n      <p>The selected worker ", .markup "will download the GGUF from ",
  .markup "HuggingFace and restart its ", .markup "<code>llama-server</code>.</p>",
  .markup "\n      <label for=\"m-load-node\">", .markup "Worker</label>",
  .markup "\n      <select id=\"m-load-node\">"]

def loadDialogEnd : HtmlTemplate Unit := [.markup "</select>"]

/-- The body of `loadModelDialog` where no worker can be chosen. -/
def noWorkerBody : HtmlTemplate Unit := [
  .markup "\n      <p>No worker has registered ", .markup "a control endpoint yet. ",
  .markup "Paste a node ID to dispatch anyway.</p>", .markup "\n      <label for=\"m-load-node\">",
  .markup "Node ID</label>", .markup "\n      <input id=\"m-load-node\" ",
  .markup "type=\"text\" ", .markup "placeholder=\"node id\" />"]

/-! ## Rows -/

/-- A row of one of the page's tables. -/
inductive AdminRow
  | live (entry : LiveEntry)
  | node (entry : NodeEntry)
  | key (entry : KeyEntry)
  | model (entry : ModelEntry)
  | request (entry : LogEntry)

/-- The text that is written for a row. -/
def AdminRow.html (runtime : PageRuntime) : AdminRow → List Char
  | .live entry =>
      HtmlTemplate.render (entry.value runtime) (liveRow (pillKind runtime entry.status)).flatten
  | .node entry =>
      HtmlTemplate.render (entry.value runtime)
        (nodeRow (pillKind runtime entry.status) (runtime.lower entry.status)).flatten
  | .key entry =>
      HtmlTemplate.render (entry.value runtime)
        (keyRow (pillKind runtime entry.scope) (isGiven entry.revokedAt)
          (isGiven entry.expiresAt && runtime.isPast (orElseText entry.expiresAt ""))).flatten
  | .model entry =>
      HtmlTemplate.render (entry.value runtime)
        (modelRow (pillKind runtime entry.status) entry.hasHf entry.isDefault
          (entry.status = "disabled")).flatten
  | .request entry =>
      HtmlTemplate.render (entry.value runtime)
        (logRow entry.ok (isGiven entry.errorType) (isGiven entry.errorMessage)).flatten

/-- What is given to `innerHTML` with a text from elsewhere in it. -/
inductive PageText
  | table (rows : List AdminRow)
  | failure (keys : Bool) (message : String)
  | confirm (message : String)
  | editKey (name scope : String)
  | loadModel (candidates : List String)

def PageText.html (runtime : PageRuntime) : PageText → List Char
  | .table rows => rows.flatMap (AdminRow.html runtime)
  | .failure keys message => HtmlTemplate.render (fun _ => message) (failureRow keys)
  | .confirm message => HtmlTemplate.render (fun _ => message) confirmBody
  | .editKey name scope =>
      HtmlTemplate.render (fun _ => name)
        (editKeyBody (scope = "inference") (scope = "admin")).flatten
  | .loadModel candidates =>
      if candidates = [] then HtmlTemplate.render (fun _ => "") noWorkerBody
      else
        HtmlTemplate.render (fun _ => "") loadDialogStart ++
          candidates.flatMap (fun c => HtmlTemplate.render (fun _ => c) candidateOption) ++
            HtmlTemplate.render (fun _ => "") loadDialogEnd

/-! ## Buttons -/

/-- What a tag has of a row's button. -/
structure RowButton (φ : Type) where
  action : List (HtmlAtom φ)
  id : Option (List (HtmlAtom φ))
  name : Option (List (HtmlAtom φ))
  scope : Option (List (HtmlAtom φ))
  status : Option (List (HtmlAtom φ))
  deriving DecidableEq

def buttonOf {φ : Type} (tag : HtmlTag φ) : Option (RowButton φ) :=
  (tag.attributes.lookup "data-action".toList).map fun action =>
    ⟨action, tag.attributes.lookup "data-id".toList, tag.attributes.lookup "data-name".toList,
      tag.attributes.lookup "data-scope".toList, tag.attributes.lookup "data-status".toList⟩

/-- The text of a value, with what is shown for its fields. -/
def atomsShown {φ : Type} (value : φ → String) (atoms : List (HtmlAtom φ)) : String :=
  .ofList (atoms.flatMap fun
    | .char c => [c]
    | .field f => (shownText (value f)).toList)

/-- The button's `dataset`. One without an id is like one with an empty id. -/
def RowButton.shown {φ : Type} (value : φ → String) (button : RowButton φ) : Dataset where
  action := atomsShown value button.action
  id := (button.id.map (atomsShown value)).getD ""
  name := button.name.map (atomsShown value)
  scope := button.scope.map (atomsShown value)
  status := button.status.map (atomsShown value)

/-- What `closest("[data-action]")` can find among the elements of a text. -/
def buttonsOf (tags : List (HtmlTag Empty)) : List Dataset :=
  (tags.filterMap buttonOf).map (RowButton.shown Empty.elim)

end GpuCluster.Gateway
