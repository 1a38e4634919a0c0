import GpuCluster.Gateway.PageTags
import GpuCluster.Gateway.Proxy
import GpuCluster.Mgmt.Routes

/-! # From a row's button to a handler

The page writes a row's id into the path of a request. The browser resolves the
path, the gateway forwards it to a URL that is resolved once more, and the
management backend routes it and reads the id back. The handler is the button's
and the id is the row's, unless the id is taken for a directory, or for the name
of another route.
-/

namespace GpuCluster.Cluster

open Foundation Gateway Mgmt

/-! ## Actions -/

inductive RowAction
  | approve
  | revoke
  | drain
  | keyRevoke
  | keyDelete
  | keyEdit
  | modelDelete
  | modelToggle
  | modelDefault
  | modelLoad
  deriving DecidableEq

namespace RowAction

/-- `data-action`. -/
def text : RowAction → String
  | .approve => "approve"
  | .revoke => "revoke"
  | .drain => "drain"
  | .keyRevoke => "key-revoke"
  | .keyDelete => "key-delete"
  | .keyEdit => "key-edit"
  | .modelDelete => "model-delete"
  | .modelToggle => "model-toggle"
  | .modelDefault => "model-default"
  | .modelLoad => "model-load"

def method : RowAction → String
  | .approve | .revoke | .drain | .keyRevoke | .modelLoad => "POST"
  | .keyDelete | .modelDelete => "DELETE"
  | .keyEdit | .modelToggle | .modelDefault => "PATCH"

/-- The handler that the button is for. -/
def handler : RowAction → AdminHandler
  | .approve => .approveNode
  | .revoke => .revokeNode
  | .drain => .drainNode
  | .keyRevoke => .revokeKey
  | .keyDelete => .deleteKey
  | .keyEdit => .updateKey
  | .modelDelete => .deleteModel
  | .modelToggle | .modelDefault => .updateModel
  | .modelLoad => .loadModel

/-- The segments of its path around the id. -/
def collection : RowAction → Segment
  | .approve | .revoke | .drain => "nodes".toList
  | .keyRevoke | .keyDelete | .keyEdit => "keys".toList
  | .modelDelete | .modelToggle | .modelDefault | .modelLoad => "models".toList

def verb : RowAction → List Segment
  | .approve => ["approve".toList]
  | .revoke => ["revoke".toList]
  | .drain => ["drain".toList]
  | .keyRevoke => ["revoke".toList]
  | .modelLoad => ["load".toList]
  | .keyDelete | .keyEdit | .modelDelete | .modelToggle | .modelDefault => []

def segments (action : RowAction) (id : Segment) : List Segment :=
  ["api".toList, "v1".toList, action.collection, id] ++ action.verb

/-- The pairs of its query. -/
def query (action : RowAction) (nodeId : String) : List (String × String) :=
  match action with
  | .keyDelete => [("purge", "true")]
  | .modelLoad => [("node_id", nodeId)]
  | _ => []

/-- Its query as the page writes it. -/
def queryText (action : RowAction) (nodeId : String) : List Char :=
  match action with
  | .keyDelete => "?purge=true".toList
  | .modelLoad => "?node_id=".toList ++ (encodeURIComponent nodeId).toList
  | _ => []

/-- The ids that the button works for. -/
def Reaches (action : RowAction) (id : String) : Prop :=
  id ≠ "." ∧ id ≠ ".." ∧ (action ∈ [.keyDelete, .keyEdit] → id ≠ "verify")

instance (action : RowAction) (id : String) : Decidable (action.Reaches id) :=
  inferInstanceAs (Decidable (_ ∧ _ ∧ _))

theorem segments_ne_nil (action : RowAction) (id : Segment) : action.segments id ≠ [] :=
  List.cons_ne_nil _ _

/-- No segment but the id can have a slash or a question mark. -/
theorem not_mem_segments (action : RowAction) {id : Segment} (hid : '/' ∉ id ∧ '?' ∉ id) :
    ∀ segment ∈ action.segments id, '/' ∉ segment ∧ '?' ∉ segment := by
  have hfixed : ∀ segment ∈ ["api".toList, "v1".toList, action.collection] ++ action.verb,
      '/' ∉ segment ∧ '?' ∉ segment := by cases action <;> decide
  intro segment hsegment
  simp only [segments, List.cons_append, List.nil_append, List.mem_cons] at hsegment
  rcases hsegment with hsegment | hsegment | hsegment | rfl | hsegment
  · exact hfixed _ (by simp [hsegment])
  · exact hfixed _ (by simp [hsegment])
  · exact hfixed _ (by simp [hsegment])
  · exact hid
  · exact hfixed _ (by simp [hsegment])

end RowAction

/-! ## What the page sends -/

/-- The path of a call, before the browser resolves it. -/
def RowAction.path (action : RowAction) (id nodeId : String) : String :=
  .ofList (pathText (action.segments (encodeURIComponent id).toList) ++ action.queryText nodeId)

theorem RowAction.path_eq (action : RowAction) (id nodeId : String) {start ending : String}
    (hstart : start.toList = "/api/v1/".toList ++ (action.collection ++ ['/']))
    (hending : ending.toList = action.verb.flatMap ('/' :: ·) ++ action.queryText nodeId) :
    start ++ encodeURIComponent id ++ ending = action.path id nodeId := by
  have hne : action.segments (encodeURIComponent id).toList ≠ [] := List.cons_ne_nil _ _
  rw [← String.toList_inj, String.toList_append, String.toList_append, hstart, hending,
    RowAction.path, String.toList_ofList, pathText_eq_flatMap hne, RowAction.segments]
  simp

/-- A call that is made for an action of a row. -/
structure SendsRow (data : Dataset) (dialog : Dialog) (call : MgmtCall) (action : RowAction) :
    Prop where
  text : action.text = data.action
  method : call.method = action.method
  path : call.path = action.path data.id dialog.nodeId

section Clicks

variable {data : Dataset} {dialog : Dialog} {call : MgmtCall}

theorem sends_of_nodeAction (haction : data.action ∈ ["approve", "revoke", "drain"])
    (hclick : handleNodeAction data.action data.id dialog = some call) :
    ∃ action, SendsRow data dialog call action := by
  unfold handleNodeAction at hclick
  split at hclick
  next => cases hclick
  next =>
    cases hclick
    simp only [List.mem_cons, List.not_mem_nil, or_false] at haction
    rcases haction with haction | haction | haction
    · refine ⟨.approve, haction.symm, rfl, ?_⟩
      rw [haction, String.append_assoc]
      exact RowAction.path_eq .approve _ _ rfl rfl
    · refine ⟨.revoke, haction.symm, rfl, ?_⟩
      rw [haction, String.append_assoc]
      exact RowAction.path_eq .revoke _ _ rfl rfl
    · refine ⟨.drain, haction.symm, rfl, ?_⟩
      rw [haction, String.append_assoc]
      exact RowAction.path_eq .drain _ _ rfl rfl

theorem sends_of_keyAction (hclick : handleKeyAction data dialog = some call) :
    ∃ action, SendsRow data dialog call action := by
  unfold handleKeyAction at hclick
  split at hclick
  next haction =>
    simp only [Option.ite_none_right_eq_some, Option.some.injEq] at hclick
    obtain ⟨-, rfl⟩ := hclick
    exact ⟨.keyRevoke, haction.symm, rfl, RowAction.path_eq .keyRevoke _ _ rfl rfl⟩
  next =>
  split at hclick
  next haction =>
    simp only [Option.ite_none_right_eq_some, Option.some.injEq] at hclick
    obtain ⟨-, rfl⟩ := hclick
    exact ⟨.keyDelete, haction.symm, rfl, RowAction.path_eq .keyDelete _ _ rfl rfl⟩
  next =>
  split at hclick
  next haction =>
    simp only [editKeyDialog, Option.ite_none_left_eq_some, Option.some.injEq] at hclick
    obtain ⟨-, -, rfl⟩ := hclick
    refine ⟨.keyEdit, haction.symm, rfl, ?_⟩
    have hpath := @RowAction.path_eq .keyEdit data.id dialog.nodeId "/api/v1/keys/" "" rfl rfl
    rwa [String.append_empty] at hpath
  next => cases hclick

theorem sends_of_modelAction (hclick : handleModelAction data dialog = some call) :
    ∃ action, SendsRow data dialog call action := by
  unfold handleModelAction at hclick
  split at hclick
  next haction =>
    simp only [Option.ite_none_right_eq_some, Option.some.injEq] at hclick
    obtain ⟨-, rfl⟩ := hclick
    refine ⟨.modelDelete, haction.symm, rfl, ?_⟩
    have hpath := @RowAction.path_eq .modelDelete data.id dialog.nodeId "/api/v1/models/" "" rfl rfl
    rwa [String.append_empty] at hpath
  next =>
  split at hclick
  next haction =>
    cases hclick
    refine ⟨.modelToggle, haction.symm, rfl, ?_⟩
    have hpath := @RowAction.path_eq .modelToggle data.id dialog.nodeId "/api/v1/models/" "" rfl rfl
    rwa [String.append_empty] at hpath
  next =>
  split at hclick
  next haction =>
    cases hclick
    refine ⟨.modelDefault, haction.symm, rfl, ?_⟩
    have hpath :=
      @RowAction.path_eq .modelDefault data.id dialog.nodeId "/api/v1/models/" "" rfl rfl
    rwa [String.append_empty] at hpath
  next =>
  split at hclick
  next haction =>
    simp only [loadModelDialog, Option.ite_none_left_eq_some, Option.some.injEq] at hclick
    obtain ⟨-, rfl⟩ := hclick
    refine ⟨.modelLoad, haction.symm, rfl, ?_⟩
    rw [String.append_assoc]
    exact RowAction.path_eq .modelLoad _ _ rfl (String.toList_append ..)
  next => cases hclick

/-- A click that is not given up sends the call of an action, for a row with an id. -/
theorem sends_of_click (hclick : onRowClick data dialog = some call) :
    data.id ≠ "" ∧ ∃ action, SendsRow data dialog call action := by
  unfold onRowClick at hclick
  split at hclick
  next => cases hclick
  next hid =>
    refine ⟨hid, ?_⟩
    split at hclick
    next haction => exact sends_of_nodeAction haction hclick
    next =>
      split at hclick
      next => exact sends_of_keyAction hclick
      next =>
        split at hclick
        next => exact sends_of_modelAction hclick
        next => cases hclick

end Clicks

/-! ## Routes -/

def mgmtTemplates : List String := mgmtRoutes.map Route.template

/-- The template of the button's route. -/
def RowAction.template : RowAction → String
  | .approve => "/api/v1/nodes/{id}/approve"
  | .revoke => "/api/v1/nodes/{id}/revoke"
  | .drain => "/api/v1/nodes/{id}/drain"
  | .keyRevoke => "/api/v1/keys/{id}/revoke"
  | .keyDelete | .keyEdit => "/api/v1/keys/{id}"
  | .modelDelete | .modelToggle | .modelDefault => "/api/v1/models/{id}"
  | .modelLoad => "/api/v1/models/{id}/load"

/-- The one route that could take an id for its own name is left out. -/
theorem fittingTemplates_of_ne_verify {segments : List Segment}
    (hverify : captures (routePieces "/api/v1/keys/verify") segments = none) :
    fittingTemplates mgmtTemplates segments =
      fittingTemplates (mgmtTemplates.take 14 ++ mgmtTemplates.drop 15) segments :=
  fittingTemplates_without (mgmtTemplates.take 14) (mgmtTemplates.drop 15) hverify

theorem preferredTemplate_row (action : RowAction) {id : Segment} (hid : id ≠ [])
    (hverify : action ∈ [.keyDelete, .keyEdit] → id ≠ "verify".toList) :
    preferredTemplate (fittingTemplates mgmtTemplates (action.segments id)) =
      some (action.template, [id]) := by
  have hfits : ∃ n, fittingTemplates mgmtTemplates (action.segments id) =
      List.replicate (n + 1) (action.template, [id]) := by
    obtain ⟨c, rest, rfl⟩ := List.exists_cons_of_ne_nil hid
    cases action with
    | approve | revoke | drain | modelLoad => exact ⟨0, rfl⟩
    | modelDelete | modelToggle | modelDefault => exact ⟨1, rfl⟩
    | keyRevoke =>
        refine ⟨0, (fittingTemplates_of_ne_verify ?_).trans rfl⟩
        exact ite_self none
    | keyDelete | keyEdit =>
        refine ⟨1, (fittingTemplates_of_ne_verify ?_).trans rfl⟩
        exact if_neg (hverify (by simp))
  obtain ⟨n, hfits⟩ := hfits
  rw [hfits, preferredTemplate_replicate]

section Routed

variable {stack : WebStack} {req : HttpRequest} {action : RowAction} {id : Segment}

theorem handlerFor_row (hstack : stack.Standard)
    (hpath : req.path = .ofList (pathText (action.segments id)))
    (hmethod : req.method = action.method) (hid : id ≠ []) (hplain : '/' ∉ id ∧ '?' ∉ id)
    (hverify : action ∈ [.keyDelete, .keyEdit] → id ≠ "verify".toList) :
    handlerFor stack mgmtRoutes req = some (.admin action.handler, [.ofList id]) := by
  have hroute : stack.route (mgmtRoutes.map Route.template) req.path =
      some (action.template, [.ofList id]) := by
    rw [hstack.route, hpath, matchRoute_pathText (action.segments_ne_nil id)
      fun segment hsegment => (action.not_mem_segments hplain segment hsegment).1]
    exact congrArg _ (preferredTemplate_row action hid hverify)
  rw [handlerFor, hroute, Option.bind_some, hmethod]
  cases action <;> rfl

/-- Where no template is preferred that has a handler for the method, none runs. -/
theorem handlerFor_of_lost (hstack : stack.Standard) {segments : List Segment}
    (hne : segments ≠ []) (hslash : ∀ segment ∈ segments, '/' ∉ segment)
    (hpath : req.path = .ofList (pathText segments))
    (hlost : ∀ found, preferredTemplate (fittingTemplates mgmtTemplates segments) = some found →
      mgmtRoutes.find? (fun route =>
        route.template = found.1 ∧ route.filter.accepts req.method) = none) :
    handlerFor stack mgmtRoutes req = none := by
  rw [handlerFor, hstack.route, hpath, matchRoute_pathText hne hslash]
  cases hfound : preferredTemplate (fittingTemplates (mgmtRoutes.map Route.template) segments) with
  | none => rfl
  | some found =>
      rw [Option.map_some, Option.bind_some, hlost found hfound]
      rfl

/-- An id that is a dot is lost on the way, and two dots take the collection with them. -/
theorem lost_of_dots (hid : id ∈ [['.'], ['.', '.']]) (found : String × List Segment) :
    preferredTemplate (fittingTemplates mgmtTemplates (removeDots [] (action.segments id))) =
        some found →
      mgmtRoutes.find? (fun route =>
        route.template = found.1 ∧ route.filter.accepts action.method) = none := by
  simp only [List.mem_cons, List.not_mem_nil, or_false] at hid
  rcases hid with rfl | rfl <;> cases action <;> rintro ⟨⟩ <;> rfl

/-- The route of the name takes no other method. -/
theorem lost_of_verify (haction : action ∈ [.keyDelete, .keyEdit]) (found : String × List Segment) :
    preferredTemplate (fittingTemplates mgmtTemplates (action.segments "verify".toList)) =
        some found →
      mgmtRoutes.find? (fun route =>
        route.template = found.1 ∧ route.filter.accepts action.method) = none := by
  simp only [List.mem_cons, List.not_mem_nil, or_false] at haction
  rcases haction with rfl | rfl <;> rintro ⟨⟩ <;> rfl

end Routed

/-! ## The way of a request -/

/-- The segments of the path as they are sent. -/
def RowAction.sent (action : RowAction) (id : String) : List Segment :=
  removeDots [] (action.segments (encodeURIComponent id).toList)

/-- The query as it is sent. -/
def RowAction.sentQuery (action : RowAction) (nodeId : String) : List Char :=
  (action.queryText nodeId).flatMap (escapeChar (· ≠ '\''))

def RowAction.sentTarget (action : RowAction) (id nodeId : String) : String :=
  .ofList (pathText (action.sent id) ++ action.sentQuery nodeId)

section Sent

variable (action : RowAction) (id nodeId : String)

theorem plain_encodeURIComponent :
    '/' ∉ (encodeURIComponent id).toList ∧ '?' ∉ (encodeURIComponent id).toList :=
  ⟨not_mem_encodeURIComponent id (by decide) (by decide),
    not_mem_encodeURIComponent id (by decide) (by decide)⟩

/-- Other ids than dots stay in the path. -/
theorem sent_of_ne_dots {id : String} (hdot : id ≠ ".") (hdots : id ≠ "..") :
    action.sent id = action.segments (encodeURIComponent id).toList := by
  have hfixed : ∀ segment ∈ ["api".toList, "v1".toList, action.collection] ++ action.verb,
      isSingleDot segment = false ∧ isDoubleDot segment = false := by cases action <;> decide
  refine removeDots_of_plain [] fun segment hsegment => ?_
  simp only [RowAction.segments, List.cons_append, List.nil_append, List.mem_cons] at hsegment
  rcases hsegment with hsegment | hsegment | hsegment | rfl | hsegment
  · exact hfixed _ (by simp [hsegment])
  · exact hfixed _ (by simp [hsegment])
  · exact hfixed _ (by simp [hsegment])
  · exact ⟨Bool.eq_false_iff.mpr fun h => hdot (eq_dot_of_isSingleDot id h),
      Bool.eq_false_iff.mpr fun h => hdots (eq_dots_of_isDoubleDot id h)⟩
  · exact hfixed _ (by simp [hsegment])

theorem sent_begins : ∃ rest, action.sent id = "api".toList :: "v1".toList :: rest := by
  by_cases hdot : id = "."
  · subst hdot
    cases action <;> exact ⟨_, rfl⟩
  by_cases hdots : id = ".."
  · subst hdots
    cases action <;> exact ⟨_, rfl⟩
  exact ⟨_, sent_of_ne_dots action hdot hdots⟩

theorem not_mem_sent : ∀ segment ∈ action.sent id, '/' ∉ segment ∧ '?' ∉ segment := by
  intro segment hsegment
  rcases mem_removeDots hsegment with hmem | hmem | rfl
  · cases hmem
  · exact action.not_mem_segments (plain_encodeURIComponent id) segment hmem
  · exact ⟨List.not_mem_nil, List.not_mem_nil⟩

theorem sent_again : removeDots [] (action.sent id) = action.sent id := by
  by_cases hdot : id = "."
  · subst hdot
    cases action <;> rfl
  by_cases hdots : id = ".."
  · subst hdots
    cases action <;> rfl
  rw [sent_of_ne_dots action hdot hdots]
  exact sent_of_ne_dots action hdot hdots

theorem nodeIdName (value : List Char) :
    "?node_id=".toList ++ value = '?' :: ("node_id".toList ++ '=' :: value) := rfl

theorem queryText_begins :
    action.queryText nodeId = [] ∨ (action.queryText nodeId).head? = some '?' := by
  cases action with
  | keyDelete => exact .inr rfl
  | modelLoad => exact .inr (congrArg List.head? (nodeIdName (encodeURIComponent nodeId).toList))
  | _ => exact .inl rfl

theorem sentQuery_keyDelete : RowAction.keyDelete.sentQuery nodeId = "?purge=true".toList := by
  have hclosed : "?purge=true".toList.flatMap (escapeChar (· ≠ '\'')) = "?purge=true".toList := rfl
  exact hclosed

theorem escape_nodeIdName (value : List Char) :
    ("?node_id=".toList ++ value).flatMap (escapeChar (· ≠ '\'')) =
      "?node_id=".toList ++ value.flatMap (escapeChar (· ≠ '\'')) := by
  have hclosed : "?node_id=".toList.flatMap (escapeChar (· ≠ '\'')) = "?node_id=".toList := rfl
  simp only [List.flatMap_append, hclosed]

theorem sentQuery_modelLoad : RowAction.modelLoad.sentQuery nodeId =
    "?node_id=".toList ++ queryComponent nodeId :=
  escape_nodeIdName (encodeURIComponent nodeId).toList

theorem sentQuery_begins :
    action.sentQuery nodeId = [] ∨ (action.sentQuery nodeId).head? = some '?' := by
  cases action with
  | keyDelete => exact .inr (by rw [sentQuery_keyDelete]; rfl)
  | modelLoad =>
      rw [sentQuery_modelLoad]
      exact .inr (congrArg List.head? (nodeIdName (queryComponent nodeId)))
  | _ => exact .inl rfl

/-- A query is sent as it is once its apostrophes are escaped. -/
theorem sentQuery_again :
    (action.sentQuery nodeId).flatMap (escapeChar (· ≠ '\'')) = action.sentQuery nodeId := by
  cases action with
  | keyDelete =>
      have hclosed : "?purge=true".toList.flatMap (escapeChar (· ≠ '\'')) =
          "?purge=true".toList := rfl
      rw [sentQuery_keyDelete, hclosed]
  | modelLoad =>
      rw [sentQuery_modelLoad, escape_nodeIdName, escape_queryComponent]
  | _ => rfl

/-- The browser's target is resolved to itself by the gateway. -/
theorem urlTarget_sentTarget :
    urlTarget (action.sentTarget id nodeId) = action.sentTarget id nodeId := by
  obtain ⟨rest, hrest⟩ := sent_begins action id
  rw [RowAction.sentTarget, urlTarget_pathText (by simp [hrest]) (not_mem_sent action id)
    (sentQuery_begins action nodeId), sent_again, sentQuery_again]

theorem urlTarget_path : urlTarget (action.path id nodeId) = action.sentTarget id nodeId :=
  urlTarget_pathText (action.segments_ne_nil _)
    (action.not_mem_segments (plain_encodeURIComponent id)) (queryText_begins action nodeId)

theorem isPlainTarget_path : IsPlainTarget (action.path id nodeId) := by
  have hencoded : ∀ s, ∀ c ∈ (encodeURIComponent s).toList, isTargetChar c = true := by
    intro s c hc
    rcases mem_encodeURIComponent hc with hmark | rfl
    · exact isTargetChar_of_isUriMark hmark
    · rfl
  have hfixed : (["api".toList, "v1".toList, action.collection] ++ action.verb).all
      (List.all · isTargetChar) = true := by cases action <;> rfl
  rw [List.all_eq_true] at hfixed
  refine ⟨by rw [RowAction.path, String.toList_ofList]; rfl, List.all_eq_true.mpr ?_⟩
  intro c hc
  rw [RowAction.path, String.toList_ofList, List.mem_append] at hc
  rcases hc with hpath | hquery
  · rcases mem_pathText hpath with rfl | ⟨segment, hsegment, hmem⟩
    · rfl
    simp only [RowAction.segments, List.cons_append, List.nil_append, List.mem_cons] at hsegment
    rcases hsegment with hsegment | hsegment | hsegment | rfl | hsegment
    · exact List.all_eq_true.mp (hfixed segment (by simp [hsegment])) c hmem
    · exact List.all_eq_true.mp (hfixed segment (by simp [hsegment])) c hmem
    · exact List.all_eq_true.mp (hfixed segment (by simp [hsegment])) c hmem
    · exact hencoded id c hmem
    · exact List.all_eq_true.mp (hfixed segment (by simp [hsegment])) c hmem
  · cases action with
    | keyDelete =>
        have hclosed : "?purge=true".toList.all isTargetChar = true := rfl
        exact List.all_eq_true.mp hclosed c hquery
    | modelLoad =>
        have hclosed : "?node_id=".toList.all isTargetChar = true := rfl
        exact (List.mem_append.mp hquery).elim (List.all_eq_true.mp hclosed c) (hencoded nodeId c)
    | _ => cases hquery

/-- The backend reads the pairs that the page meant. -/
theorem queryPairs_sentQuery :
    queryPairs ((action.sentQuery nodeId).drop 1) = some (action.query nodeId) := by
  cases action with
  | keyDelete =>
      have hclosed : queryPairs ("?purge=true".toList.drop 1) = some [("purge", "true")] := by
        decide +kernel
      rw [sentQuery_keyDelete, hclosed]
      rfl
  | modelLoad =>
      have hname : formComponent "node_id".toList = some "node_id" := by decide +kernel
      rw [sentQuery_modelLoad, nodeIdName, List.drop_succ_cons, List.drop_zero,
        queryPairs_queryComponent nodeId (by decide) hname]
      rfl
  | _ => rfl

end Sent

/-! ## The handler -/

/-- The handler that a request runs and the ids it takes from the path. Without the key, or
with a segment that its extractor refuses, it does not run. -/
def adminCall (stack : WebStack) (parseUuid : String → Option UuidDigits) (adminApiKey : String)
    (req : HttpRequest) : Option (AdminHandler × List PathValue) :=
  match handlerFor stack mgmtRoutes req with
  | some (.admin handler, segments) =>
      match requireAdmin adminApiKey req with
      | .ok () =>
          (segments.mapM fun segment =>
            (stack.decodeSegment segment).bind (handler.pathValue parseUuid)).map (handler, ·)
      | .error _ => none
  | _ => none

theorem requireAdmin_of_bears {adminApiKey : String} {req : HttpRequest}
    (htext : headerText ("Bearer " ++ adminApiKey) = some ("Bearer " ++ adminApiKey))
    (hbears : BearsAdminKey adminApiKey req) : requireAdmin adminApiKey req = .ok () := by
  have hprefix : stripPrefix? "Bearer " ("Bearer " ++ adminApiKey) = some adminApiKey :=
    stripPrefix?_append _ _
  have hsame := (constantTimeEq_iff adminApiKey.toUTF8.data.toList _).mpr rfl
  rw [requireAdmin, hbears]
  simp only [htext, hprefix, hsame, if_true]

/-! ## The whole way -/

section Arrival

variable {stack : WebStack} {parseUuid : String → Option UuidDigits} {config : GatewayConfig}
  {check : V1Check} {browser : String → Except Unit String} {stringify : Json → List UInt8}
  {adminApiKey : String} {added : List (String × String)} {data : Dataset} {dialog : Dialog}
  {call : MgmtCall}

theorem path_of_sentTarget {req : HttpRequest} {action : RowAction} {id nodeId : String}
    (htarget : req.pathAndQuery = action.sentTarget id nodeId) :
    req.path = .ofList (pathText (action.sent id)) ∧
      req.query = (action.sentQuery nodeId).drop 1 := by
  obtain ⟨hpath, hquery⟩ := target_cut (fun segment hmem => (not_mem_sent action id segment hmem).2)
    (sentQuery_begins action nodeId)
  rw [HttpRequest.path, HttpRequest.query, htarget, RowAction.sentTarget, String.toList_ofList,
    hpath, hquery]
  exact ⟨rfl, rfl⟩

theorem handlerFor_gateway (hstack : stack.Standard) {req : HttpRequest} {action : RowAction}
    {id : String} (hpath : req.path = .ofList (pathText (action.sent id))) :
    ∃ segments, handlerFor stack gatewayRoutes req = some (.apiProxy, segments) := by
  obtain ⟨rest, hrest⟩ := sent_begins action id
  have hfits : fittingTemplates (gatewayRoutes.map Route.template) (action.sent id) =
      List.replicate 1 ("/api/{*rest}", [joined '/' ("v1".toList :: rest)]) := by
    rw [hrest]
    cases rest <;> rfl
  refine ⟨[.ofList (joined '/' ("v1".toList :: rest))], ?_⟩
  rw [handlerFor, hstack.route, hpath, matchRoute_pathText (by simp [hrest])
    fun segment hmem => (not_mem_sent action id segment hmem).1, hfits, preferredTemplate_replicate]
  rfl

/-- The backend's handler for a row's request. -/
theorem handlerFor_mgmt (hstack : stack.Standard) {req : HttpRequest} {action : RowAction}
    {id : String} (hid : id ≠ "") (hpath : req.path = .ofList (pathText (action.sent id)))
    (hmethod : req.method = action.method) :
    handlerFor stack mgmtRoutes req =
      if action.Reaches id then some (.admin action.handler, [encodeURIComponent id])
      else none := by
  have hslash := fun segment hmem => (not_mem_sent action id segment hmem).1
  obtain ⟨rest, hrest⟩ := sent_begins action id
  have hne : action.sent id ≠ [] := by simp [hrest]
  split
  next hreaches =>
    obtain ⟨hdot, hdots, hverify⟩ := hreaches
    rw [sent_of_ne_dots action hdot hdots] at hpath
    have hencoded : action ∈ [.keyDelete, .keyEdit] →
        (encodeURIComponent id).toList ≠ "verify".toList := by
      intro haction hsame
      have hsign : isUriMark '%' = false := by decide
      have hmarks : "verify".toList.all isUriMark = true := rfl
      refine hverify haction (percentEncode_injective hsign ?_)
      exact (String.toList_inj.mp hsame).trans
        (encodeURIComponent_of_marks (List.all_eq_true.mp hmarks)).symm
    rw [handlerFor_row hstack hpath hmethod (fun hnil => hid (eq_empty_of_encode id hnil))
      (plain_encodeURIComponent id) hencoded, String.ofList_toList]
  next hlost =>
    refine handlerFor_of_lost hstack hne hslash hpath ?_
    rw [hmethod]
    by_cases hdot : id = "."
    · subst hdot
      exact @lost_of_dots _ ['.'] (by decide)
    by_cases hdots : id = ".."
    · subst hdots
      exact @lost_of_dots _ ['.', '.'] (by decide)
    have hverify : action ∈ [.keyDelete, .keyEdit] ∧ id = "verify" := by
      by_contra hnot
      exact hlost ⟨hdot, hdots, fun haction hsame => hnot ⟨haction, hsame⟩⟩
    obtain ⟨haction, rfl⟩ := hverify
    rw [sent_of_ne_dots action hdot hdots]
    exact lost_of_verify haction

/-- A click that is not given up becomes one request, which the gateway forwards without its
hop-by-hop headers. It runs the handler of its button with the id of its row and the fields of
its dialog, unless the id is one of three or the handler takes a UUID and it is none. Then no
handler runs. -/
theorem click_arrives (hstack : stack.Standard) (hbrowser : FollowsUrlStandard browser)
    (hgateway : FollowsUrlStandard fun target =>
      stack.deliver (trimEnd '/' (Upstream.mgmt.base config) ++ target))
    (hkey : adminApiKey ≠ "")
    (htext : headerText ("Bearer " ++ adminApiKey) = some ("Bearer " ++ adminApiKey))
    (hclick : onRowClick data dialog = some call)
    (hbody : ((call.body.map stringify).getD []).length ≤ bodyLimit) :
    ∃ action : RowAction, action.text = data.action ∧ ∃ target,
      browser call.path = .ok target ∧
      let req := pageRequest stringify adminApiKey added call target
      let forwarded : HttpRequest := { req with headers := stripHopByHop req.headers }
      gatewayRun stack config check req = [⟨.client, .mgmt, forwarded⟩] ∧
      adminCall stack parseUuid adminApiKey forwarded =
        (if action.Reaches data.id then
          (action.handler.pathValue parseUuid data.id).map (action.handler, [·])
        else none) ∧
      queryPairs forwarded.query = some (action.query dialog.nodeId) ∧
      forwarded.body = (call.body.map stringify).getD [] := by
  obtain ⟨hid, action, htext', hmethod, hpath⟩ := sends_of_click hclick
  have hplain := isPlainTarget_path action data.id dialog.nodeId
  have hsent := urlTarget_path action data.id dialog.nodeId
  have hbrowsed : browser call.path = .ok (action.sentTarget data.id dialog.nodeId) := by
    rw [hpath, hbrowser _ hplain, hsent]
  have hdelivered : stack.deliver (trimEnd '/' (Upstream.mgmt.base config) ++
      action.sentTarget data.id dialog.nodeId) =
        .ok (action.sentTarget data.id dialog.nodeId) := by
    have hagain := isPlainTarget_urlTarget hplain
    rw [hsent] at hagain
    exact (hgateway _ hagain).trans (by rw [urlTarget_sentTarget])
  let req := pageRequest stringify adminApiKey added call
    (action.sentTarget data.id dialog.nodeId)
  have htarget : req.pathAndQuery = action.sentTarget data.id dialog.nodeId := rfl
  let forwarded : HttpRequest := { req with headers := stripHopByHop req.headers }
  have hforward : forward stack config .mgmt req = .ok forwarded := by
    have hlength : ¬ bodyLimit < req.body.length := Nat.not_lt.mpr hbody
    rw [forward, if_neg hlength, htarget, hdelivered, Except.map]
    rfl
  obtain ⟨segments, hgate⟩ := handlerFor_gateway hstack (path_of_sentTarget htarget).1
  obtain ⟨hforwardedPath, hforwardedQuery⟩ := @path_of_sentTarget forwarded action data.id
    dialog.nodeId rfl
  refine ⟨action, htext', _, hbrowsed, ?_, ?_, ?_, rfl⟩
  · have hsend : sendForward stack config .mgmt req = [⟨.client, .mgmt, forwarded⟩] := by
      rw [sendForward, hforward]
    rw [gatewayRun, hgate]
    exact hsend
  · have hbears : BearsAdminKey adminApiKey forwarded := by
      refine (header_stripHopByHop (by decide)).trans ?_
      simp only [req, pageRequest, if_neg hkey]
      rfl
    have hhandler := handlerFor_mgmt hstack hid hforwardedPath hmethod
    by_cases hreaches : action.Reaches data.id
    · rw [if_pos hreaches] at hhandler
      change adminCall stack parseUuid adminApiKey forwarded = _
      simp only [adminCall, hhandler, requireAdmin_of_bears htext hbears, if_pos hreaches,
        List.mapM_cons, List.mapM_nil, hstack.decodeSegment, percentDecode_encodeURIComponent,
        Option.bind_some]
      cases action.handler.pathValue parseUuid data.id <;> rfl
    · rw [if_neg hreaches] at hhandler
      change adminCall stack parseUuid adminApiKey forwarded = _
      simp only [adminCall, hhandler, if_neg hreaches]
  · change queryPairs forwarded.query = _
    rw [hforwardedQuery]
    exact queryPairs_sentQuery action dialog.nodeId

end Arrival

/-! ## Buttons of the tables -/

/-- The row that a table's entry is of. -/
def rowId : AdminRow → Option String
  | .live _ | .request _ => none
  | .node entry => some entry.id
  | .key entry => some entry.id
  | .model entry => some entry.id

/-- The actions that a row offers. -/
def rowActions (runtime : PageRuntime) : AdminRow → List RowAction
  | .live _ | .request _ => []
  | .node entry =>
      let status := runtime.lower entry.status
      (if status = "pending_approval" then [.approve] else []) ++
        (if status ∈ ["online", "degraded"] then [.drain] else []) ++
          if status ≠ "revoked" then [.revoke] else []
  | .key entry =>
      [.keyEdit] ++ (if isGiven entry.revokedAt then [] else [.keyRevoke]) ++ [.keyDelete]
  | .model entry =>
      (if entry.hasHf then [.modelLoad] else []) ++ [.modelToggle] ++
        (if entry.isDefault then [] else [.modelDefault]) ++ [.modelDelete]

theorem RowAction.text_injective {first second : RowAction} (htext : first.text = second.text) :
    first = second := by
  revert htext
  cases first <;> cases second <;> decide

/-- A row's buttons are for its actions and show its id. -/
theorem mem_buttons {runtime : PageRuntime} {row : AdminRow} {data : Dataset}
    (hdata : data ∈ row.buttons runtime) : ∃ id, rowId row = some id ∧ data.id = shownText id ∧
      ∃ action ∈ rowActions runtime row, action.text = data.action := by
  cases row with
  | live entry | request entry => cases hdata
  | node entry =>
      simp only [AdminRow.buttons, List.mem_append, List.mem_ite_nil_right,
        List.mem_singleton] at hdata
      simp only [rowActions, List.mem_append, List.mem_ite_nil_right, List.mem_singleton]
      refine ⟨_, rfl, ?_⟩
      rcases hdata with (⟨hstatus, rfl⟩ | ⟨hstatus, rfl⟩) | ⟨hstatus, rfl⟩
      · exact ⟨rfl, _, .inl (.inl ⟨hstatus, rfl⟩), rfl⟩
      · exact ⟨rfl, _, .inl (.inr ⟨hstatus, rfl⟩), rfl⟩
      · exact ⟨rfl, _, .inr ⟨hstatus, rfl⟩, rfl⟩
  | key entry =>
      simp only [AdminRow.buttons, List.mem_append, List.mem_ite_nil_left,
        List.mem_singleton] at hdata
      simp only [rowActions, List.mem_append, List.mem_ite_nil_left, List.mem_singleton]
      refine ⟨_, rfl, ?_⟩
      rcases hdata with (rfl | ⟨hrevoked, rfl⟩) | rfl
      · exact ⟨rfl, _, .inl (.inl rfl), rfl⟩
      · exact ⟨rfl, _, .inl (.inr ⟨hrevoked, rfl⟩), rfl⟩
      · exact ⟨rfl, _, .inr rfl, rfl⟩
  | model entry =>
      simp only [AdminRow.buttons, List.mem_append, List.mem_ite_nil_left, List.mem_ite_nil_right,
        List.mem_singleton] at hdata
      simp only [rowActions, List.mem_append, List.mem_ite_nil_left, List.mem_ite_nil_right,
        List.mem_singleton]
      refine ⟨_, rfl, ?_⟩
      rcases hdata with ((⟨hhf, rfl⟩ | rfl) | ⟨hdefault, rfl⟩) | rfl
      · exact ⟨rfl, _, .inl (.inl (.inl ⟨hhf, rfl⟩)), rfl⟩
      · exact ⟨rfl, _, .inl (.inl (.inr rfl)), rfl⟩
      · exact ⟨rfl, _, .inl (.inr ⟨hdefault, rfl⟩), rfl⟩
      · exact ⟨rfl, _, .inr rfl, rfl⟩

/-- The UUID of a row, as the API writes the ids of nodes and keys. -/
def AdminRow.HasUuid (uuid : UuidDigits) : AdminRow → Prop
  | .node entry => entry.id = uuid.text
  | .key entry => entry.id = uuid.text
  | _ => False

/-- A UUID is shown as it is, and the button works for it. -/
theorem reaches_uuid (action : RowAction) (uuid : UuidDigits) :
    shownText uuid.text = uuid.text ∧ action.Reaches uuid.text := by
  have habsent : ∀ c : Char, c ≠ '-' → (∀ digit, c ≠ hexChar digit) → c ∉ uuid.text.toList :=
    fun _ => uuid.not_mem_text
  have hdot := habsent '.' (by decide) (by decide)
  have hletter := habsent 'v' (by decide) (by decide)
  refine ⟨(shownText_eq_iff _).mpr ⟨habsent '\r' (by decide) (by decide),
    habsent '\x00' (by decide) (by decide)⟩, ?_, ?_, fun _ => ?_⟩
  · intro heq
    exact hdot (heq ▸ by decide)
  · intro heq
    exact hdot (heq ▸ by decide)
  · intro heq
    exact hletter (heq ▸ by decide)

theorem pathValue_of_hasUuid {runtime : PageRuntime} {row : AdminRow} {uuid : UuidDigits}
    {parseUuid : String → Option UuidDigits} (hparse : parseUuid uuid.text = some uuid)
    (huuid : AdminRow.HasUuid uuid row) {action : RowAction}
    (haction : action ∈ rowActions runtime row) :
    action.handler.pathValue parseUuid uuid.text = some (.uuid uuid) := by
  have htakes : action.handler.takesUuid = true := by
    cases row with
    | live | request | model => cases huuid
    | node entry | key entry =>
        simp only [rowActions, List.mem_append, List.mem_ite_nil_right, List.mem_ite_nil_left,
          List.mem_singleton] at haction
        rcases haction with (⟨-, rfl⟩ | ⟨-, rfl⟩) | ⟨-, rfl⟩ <;> rfl
  rw [AdminHandler.pathValue, if_pos htakes, hparse, Option.map_some]

/-- A button that the browser finds in a table belongs to a row of the table and to an
action that this row offers. A click on it that is not given up becomes one request, which
the gateway forwards without its hop-by-hop headers. It runs the action's handler with the
row's id, as it is shown, unless this is one of three or the handler takes a UUID and it is
none; with the UUID of a row that has one it always does. -/
theorem tableClick_arrives {stack : WebStack} {parseUuid : String → Option UuidDigits}
    {config : GatewayConfig} {check : V1Check}
    {browser : String → Except Unit String} {stringify : Json → List UInt8} {adminApiKey : String}
    {added : List (String × String)} {runtime : PageRuntime} {rows : List AdminRow}
    {tags : List (HtmlTag Empty)} {data : Dataset} {dialog : Dialog} {call : MgmtCall}
    (hstack : stack.Standard) (hparse : ∀ uuid : UuidDigits, parseUuid uuid.text = some uuid)
    (hbrowser : FollowsUrlStandard browser)
    (hgateway : FollowsUrlStandard fun target =>
      stack.deliver (trimEnd '/' (Upstream.mgmt.base config) ++ target))
    (hkey : adminApiKey ≠ "")
    (htext : headerText ("Bearer " ++ adminApiKey) = some ("Bearer " ++ adminApiKey))
    (htable : parseTags ((PageText.table rows).html runtime) = some tags)
    (hdata : data ∈ buttonsOf tags) (hclick : onRowClick data dialog = some call)
    (hbody : ((call.body.map stringify).getD []).length ≤ bodyLimit) :
    ∃ row ∈ rows, ∃ id, rowId row = some id ∧
      (shownText id = id ↔ '\r' ∉ id.toList ∧ '\x00' ∉ id.toList) ∧
      ∃ action ∈ rowActions runtime row, action.text = data.action ∧
      ∃ target, browser call.path = .ok target ∧
        let req := pageRequest stringify adminApiKey added call target
        let forwarded : HttpRequest := { req with headers := stripHopByHop req.headers }
        gatewayRun stack config check req = [⟨.client, .mgmt, forwarded⟩] ∧
        adminCall stack parseUuid adminApiKey forwarded =
          (if action.Reaches (shownText id) then
            (action.handler.pathValue parseUuid (shownText id)).map (action.handler, [·])
          else none) ∧
        (∀ uuid, AdminRow.HasUuid uuid row →
          adminCall stack parseUuid adminApiKey forwarded =
            some (action.handler, [.uuid uuid])) ∧
        queryPairs forwarded.query = some (action.query dialog.nodeId) ∧
        forwarded.body = (call.body.map stringify).getD [] := by
  obtain ⟨-, parsed, htags, -, hbuttons⟩ := text_shows runtime (.table rows)
  rw [htable] at htags
  cases htags
  rw [hbuttons] at hdata
  obtain ⟨row, hrow, hbutton⟩ := List.mem_flatMap.mp hdata
  obtain ⟨id, hid, hshown, offered, hoffered, hname⟩ := mem_buttons hbutton
  obtain ⟨action, haction, target, htarget, hsent, hcall, hquery, hsame⟩ :=
    @click_arrives stack parseUuid config check browser stringify adminApiKey added _ _ _ hstack
      hbrowser hgateway hkey htext hclick hbody
  obtain rfl := RowAction.text_injective (hname.trans haction.symm)
  rw [hshown] at hcall
  refine ⟨row, hrow, id, hid, shownText_eq_iff id, offered, hoffered, hname, target, htarget,
    hsent, hcall, fun uuid huuid => hcall.trans ?_, hquery, hsame⟩
  have hvalue := pathValue_of_hasUuid (hparse uuid) huuid hoffered
  obtain rfl : id = uuid.text := by
    cases row with
    | live | request | model => cases huuid
    | node entry | key entry => exact (Option.some.inj hid).symm.trans huuid
  obtain ⟨hplain, hreaches⟩ := reaches_uuid offered uuid
  rw [hplain, if_pos hreaches, hvalue, Option.map_some]

/-- The libraries below a backend at one address. -/
def standardStack : WebStack where
  route := matchRoute
  decodeSegment := percentDecode
  jsonBody _ := none
  parseJson _ := none
  writeJson _ := []
  deliver url := match stripPrefix? "http://mgmt:7100" url with
    | some target => .ok (urlTarget target)
    | none => .error "builder error"

def standardConfig : GatewayConfig := ⟨"http://mgmt:7100/", "", "", none⟩

def plainRuntime : PageRuntime := ⟨id, fun _ => "1m ago", fun _ => false⟩

def slashedModel : ModelEntry :=
  ⟨"a/b?c", "Model", "available", true, "", "", "", "2024-05-01T10:00:00Z"⟩

def keyUuid : UuidDigits :=
  ⟨[0, 1, 9, 10, 2, 11, 3, 12, 4, 13, 5, 14, 7, 15, 6, 0, 8, 1, 2, 3, 4, 5, 6, 7, 8, 9, 10, 11, 12,
    13, 14, 15], rfl⟩

def liveKey : KeyEntry :=
  ⟨keyUuid.text, "ci", "mgc_abcd", "inference", "2024-05-01T10:00:00Z", none, none, none⟩

def standardRows : List AdminRow := [.key liveKey, .model slashedModel]

theorem standardStack_delivers : FollowsUrlStandard fun target => standardStack.deliver
    (trimEnd '/' (Upstream.mgmt.base standardConfig) ++ target) := by
  intro target _
  have hbase : trimEnd '/' (Upstream.mgmt.base standardConfig) = "http://mgmt:7100" := by
    decide +kernel
  simp only [hbase, standardStack, stripPrefix?_append]

/-- A key is revoked under its UUID, and a model whose id has slashes and a question mark is
deleted under its id. -/
theorem standardRows_arrive : ∃ keyRequest modelRequest,
    adminCall standardStack UuidDigits.parse "key" keyRequest =
      some (.revokeKey, [.uuid keyUuid]) ∧
    adminCall standardStack UuidDigits.parse "key" modelRequest =
      some (.deleteModel, [.text "a/b?c"]) := by
  obtain ⟨-, tags, htags, -, hbuttons⟩ := text_shows plainRuntime (.table standardRows)
  have hmodel : shownText "a/b?c" = "a/b?c" := by decide +kernel
  have hmodelButton : ⟨"model-delete", "a/b?c", none, none, none⟩ ∈ buttonsOf tags := by
    have hdataset : idDataset "model-delete" "a/b?c" =
        ⟨"model-delete", "a/b?c", none, none, none⟩ := by rw [idDataset, hmodel]
    rw [hbuttons, ← hdataset]
    refine List.mem_flatMap.mpr ⟨_, List.mem_cons_of_mem _ List.mem_cons_self, ?_⟩
    exact List.mem_append_right _ List.mem_cons_self
  have hkeyButton : idDataset "key-revoke" keyUuid.text ∈ buttonsOf tags := by
    rw [hbuttons]
    refine List.mem_flatMap.mpr ⟨_, List.mem_cons_self, ?_⟩
    exact List.mem_append_left _ (List.mem_append_right _ List.mem_cons_self)
  obtain ⟨row, hrow, id, hid, -, action, haction, hname, _, -, -, -, hkeyCall, -⟩ :=
    @tableClick_arrives standardStack UuidDigits.parse standardConfig ⟨none, false⟩
      (fun target => .ok (urlTarget target)) (fun _ => []) "key" [] plainRuntime standardRows tags
      _ ⟨true, "", "", ""⟩ _ ⟨rfl, rfl⟩ UuidDigits.parse_text (fun _ _ => rfl)
      standardStack_delivers (by decide) (by decide +kernel) htags hkeyButton rfl (Nat.zero_le _)
  obtain rfl : action = .keyRevoke := RowAction.text_injective hname
  have hkey : AdminRow.HasUuid keyUuid row := by
    rcases List.mem_cons.mp hrow with rfl | hrow
    · exact rfl
    · obtain rfl := List.mem_singleton.mp hrow
      exact absurd haction (by decide)
  obtain ⟨row, hrow, id, hid, -, action, haction, hname, _, -, -, hmodelCall, -⟩ :=
    @tableClick_arrives standardStack UuidDigits.parse standardConfig ⟨none, false⟩
      (fun target => .ok (urlTarget target)) (fun _ => []) "key" [] plainRuntime standardRows tags
      _ ⟨true, "", "", ""⟩ _ ⟨rfl, rfl⟩ UuidDigits.parse_text (fun _ _ => rfl)
      standardStack_delivers (by decide) (by decide +kernel) htags hmodelButton rfl (Nat.zero_le _)
  obtain rfl : action = .modelDelete := RowAction.text_injective hname
  obtain rfl : id = "a/b?c" := by
    rcases List.mem_cons.mp hrow with rfl | hrow
    · exact absurd haction (by decide)
    · obtain rfl := List.mem_singleton.mp hrow
      exact (Option.some.inj hid).symm
  rw [hmodel] at hmodelCall
  exact ⟨_, _, hkeyCall keyUuid hkey, hmodelCall⟩

end GpuCluster.Cluster
