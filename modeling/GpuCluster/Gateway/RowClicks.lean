import GpuCluster.Foundation.Routing

/-! # Clicks on the rows of the admin page

A row's button carries the row's id. A click on it opens a dialog, except for the
harmless actions, and then calls the management backend through the gateway.
-/

namespace GpuCluster.Gateway

open Foundation

/-- `btn.dataset`. -/
structure Dataset where
  action : String
  id : String
  name : Option String
  scope : Option String
  status : Option String
  deriving DecidableEq

/-- What is done in the dialogs: whether they are confirmed, and what their fields
hold then, trimmed. -/
structure Dialog where
  ok : Bool
  name : String
  scope : String
  nodeId : String

/-- The arguments of `mgmtCall`. -/
structure MgmtCall where
  method : String
  path : String
  body : Option Json

/-! ## The handlers -/

def handleNodeAction (action id : String) (dialog : Dialog) : Option MgmtCall :=
  if action ≠ "approve" ∧ ¬ dialog.ok then none
  else some ⟨"POST", "/api/v1/nodes/" ++ encodeURIComponent id ++ "/" ++ action, none⟩

/-- The fields that `editKeyDialog` sends: those that were changed. -/
def keyUpdate (currentName currentScope : String) (dialog : Dialog) : List (String × Json) :=
  (if dialog.name ≠ "" ∧ dialog.name ≠ currentName then [("name", .string dialog.name)] else []) ++
    if dialog.scope ≠ "" ∧ dialog.scope ≠ currentScope then [("scope", .string dialog.scope)]
    else []

def editKeyDialog (id currentName currentScope : String) (dialog : Dialog) : Option MgmtCall :=
  if ¬ dialog.ok then none
  else
    let update := keyUpdate currentName currentScope dialog
    if update = [] then none
    else some ⟨"PATCH", "/api/v1/keys/" ++ encodeURIComponent id, some (.object update)⟩

/-- `value || fallback`. -/
def orElseText (value : Option String) (fallback : String) : String :=
  match value with
  | some text => if text = "" then fallback else text
  | none => fallback

def handleKeyAction (data : Dataset) (dialog : Dialog) : Option MgmtCall :=
  if data.action = "key-revoke" then
    if dialog.ok then
      some ⟨"POST", "/api/v1/keys/" ++ encodeURIComponent data.id ++ "/revoke", none⟩
    else none
  else if data.action = "key-delete" then
    if dialog.ok then
      some ⟨"DELETE", "/api/v1/keys/" ++ encodeURIComponent data.id ++ "?purge=true", none⟩
    else none
  else if data.action = "key-edit" then
    editKeyDialog data.id (orElseText data.name "") (orElseText data.scope "inference") dialog
  else none

def loadModelDialog (modelId : String) (dialog : Dialog) : Option MgmtCall :=
  if ¬ dialog.ok ∨ dialog.nodeId = "" then none
  else some ⟨"POST", "/api/v1/models/" ++ encodeURIComponent modelId ++ "/load?node_id=" ++
    encodeURIComponent dialog.nodeId, none⟩

def handleModelAction (data : Dataset) (dialog : Dialog) : Option MgmtCall :=
  if data.action = "model-delete" then
    if dialog.ok then
      some ⟨"DELETE", "/api/v1/models/" ++ encodeURIComponent data.id, none⟩
    else none
  else if data.action = "model-toggle" then
    let next := if data.status = some "disabled" then "available" else "disabled"
    some ⟨"PATCH", "/api/v1/models/" ++ encodeURIComponent data.id,
      some (.object [("status", .string next)])⟩
  else if data.action = "model-default" then
    some ⟨"PATCH", "/api/v1/models/" ++ encodeURIComponent data.id,
      some (.object [("is_default", .bool true)])⟩
  else if data.action = "model-load" then loadModelDialog data.id dialog
  else none

/-- The click handler of the document. -/
def onRowClick (data : Dataset) (dialog : Dialog) : Option MgmtCall :=
  if data.id = "" then none
  else if data.action ∈ ["approve", "revoke", "drain"] then
    handleNodeAction data.action data.id dialog
  else if data.action ∈ ["key-revoke", "key-delete", "key-edit"] then handleKeyAction data dialog
  else if data.action ∈ ["model-delete", "model-toggle", "model-default", "model-load"] then
    handleModelAction data dialog
  else none

/-! ## The request -/

/-- The request of `mgmtCall`, sent to a target with the admin key of the page, and
with the headers a browser adds. -/
def pageRequest (stringify : Json → List UInt8) (adminKey : String)
    (added : List (String × String)) (call : MgmtCall) (target : String) : HttpRequest where
  method := call.method
  pathAndQuery := target
  headers := (if adminKey = "" then [] else [("authorization", "Bearer " ++ adminKey)]) ++
    ("content-type", "application/json") :: added
  body := (call.body.map stringify).getD []

end GpuCluster.Gateway
