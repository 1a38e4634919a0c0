import GpuCluster.Foundation.Http
import GpuCluster.Foundation.Percent

/-! # Targets of URLs and templates of routes

A URL parser removes the segments of a path that stand for a directory, and a
router picks the template that a path fits. Both work on the segments between
slashes, before any escape in them is read.
-/

namespace GpuCluster.Foundation

abbrev Segment := List Char

/-! ## Targets -/

/-- The ways to write a dot in a segment. -/
def dotForms : List Segment := [['.'], ['%', '2', 'e'], ['%', '2', 'E']]

def isSingleDot (segment : Segment) : Bool := dotForms.contains segment

def isDoubleDot (segment : Segment) : Bool :=
  (dotForms.flatMap fun first => dotForms.map (first ++ ·)).contains segment

/-- The segments of a path, those before the given ones read already. A dot at the
end leaves an empty segment. -/
def removeDots (path : List Segment) : List Segment → List Segment
  | [] => path
  | [last] =>
      if isDoubleDot last then path.dropLast ++ [[]]
      else if isSingleDot last then path ++ [[]]
      else path ++ [last]
  | segment :: next :: rest =>
      if isDoubleDot segment then removeDots path.dropLast (next :: rest)
      else if isSingleDot segment then removeDots path (next :: rest)
      else removeDots (path ++ [segment]) (next :: rest)

/-- The segments of a path after the slash that it starts with. -/
def pathSegments (path : List Char) : List Segment := (path.drop 1).splitOn '/'

def pathText (segments : List Segment) : List Char := '/' :: joined '/' segments

/-- What is sent for a URL with this path and query, below an authority. -/
def urlTarget (target : String) : String :=
  .ofList (pathText (removeDots [] (pathSegments (target.toList.takeWhile (· ≠ '?')))) ++
    (target.toList.dropWhile (· ≠ '?')).flatMap (escapeChar (· ≠ '\'')))

/-- A character of a path and query that needs no escape, but for apostrophes. -/
def isTargetChar (c : Char) : Bool := isUriMark c || c ∈ ['%', '/', '?', '&', '=']

def IsPlainTarget (target : String) : Prop :=
  target.toList.head? = some '/' ∧ target.toList.all isTargetChar = true

/-- A way to resolve URLs that follows the standard for such targets. -/
def FollowsUrlStandard {ε : Type} (resolve : String → Except ε String) : Prop :=
  ∀ target, IsPlainTarget target → resolve target = .ok (urlTarget target)

/-- Every segment has its slash. -/
theorem pathText_eq_flatMap {segments : List Segment} (hne : segments ≠ []) :
    pathText segments = segments.flatMap ('/' :: ·) := by
  induction segments with
  | nil => exact absurd rfl hne
  | cons segment rest ih =>
      cases rest with
      | nil => rw [pathText, joined, List.intercalate_singleton, List.flatMap_singleton]
      | cons next rest =>
          have hrest := ih (List.cons_ne_nil next rest)
          rw [List.flatMap_cons, ← hrest, pathText, pathText, joined, joined,
            List.intercalate_cons_cons, List.cons_append, List.append_assoc,
            List.singleton_append]

theorem pathSegments_pathText {segments : List Segment} (hne : segments ≠ [])
    (hslash : ∀ segment ∈ segments, '/' ∉ segment) :
    pathSegments (pathText segments) = segments := by
  rw [pathSegments, pathText, List.drop_succ_cons, List.drop_zero,
    List.splitOn_intercalate '/' hslash hne]

theorem mem_pathText {segments : List Segment} {c : Char} (hc : c ∈ pathText segments) :
    c = '/' ∨ ∃ segment ∈ segments, c ∈ segment := by
  by_contra hnot
  rw [not_or] at hnot
  rw [pathText, List.mem_cons] at hc
  exact not_mem_joined hnot.1 (fun segment hsegment hmem => hnot.2 ⟨segment, hsegment, hmem⟩)
    (hc.resolve_left hnot.1)

theorem mem_joined_of_mem {separator c : Char} {piece : List Char} {pieces : List (List Char)}
    (hpiece : piece ∈ pieces) (hc : c ∈ piece) : c ∈ joined separator pieces := by
  induction pieces with
  | nil => cases hpiece
  | cons first rest ih =>
      cases rest with
      | nil =>
          obtain rfl := List.mem_singleton.mp hpiece
          rwa [joined, List.intercalate_singleton]
      | cons next rest =>
          rw [joined, List.intercalate_cons_cons]
          rcases List.mem_cons.mp hpiece with rfl | hmem
          · exact List.mem_append_left _ (List.mem_append_left _ hc)
          · exact List.mem_append_right _ (ih hmem)

theorem mem_of_mem_pathSegments {path : List Char} {segment : Segment} {c : Char}
    (hsegment : segment ∈ pathSegments path) (hc : c ∈ segment) : c ∈ path := by
  have hjoined : c ∈ joined '/' (pathSegments path) :=
    mem_joined_of_mem hsegment hc
  rw [pathSegments, joined, List.intercalate_splitOn] at hjoined
  exact List.mem_of_mem_drop hjoined

/-- Segments are kept, removed, or left empty. -/
theorem mem_removeDots {path segments : List Segment} {segment : Segment}
    (hsegment : segment ∈ removeDots path segments) :
    segment ∈ path ∨ segment ∈ segments ∨ segment = [] := by
  fun_induction removeDots path segments with
  | case1 path => exact .inl hsegment
  | case2 path last =>
      rcases List.mem_append.mp hsegment with hmem | hmem
      · exact .inl (List.mem_of_mem_dropLast hmem)
      · exact .inr (.inr (List.mem_singleton.mp hmem))
  | case3 path last =>
      rcases List.mem_append.mp hsegment with hmem | hmem
      · exact .inl hmem
      · exact .inr (.inr (List.mem_singleton.mp hmem))
  | case4 path last =>
      rcases List.mem_append.mp hsegment with hmem | hmem
      · exact .inl hmem
      · exact .inr (.inl hmem)
  | case5 path first next rest _ ih =>
      rcases ih hsegment with hmem | hmem | hnil
      · exact .inl (List.mem_of_mem_dropLast hmem)
      · exact .inr (.inl (List.mem_cons_of_mem _ hmem))
      · exact .inr (.inr hnil)
  | case6 path first next rest _ _ ih =>
      rcases ih hsegment with hmem | hmem | hnil
      · exact .inl hmem
      · exact .inr (.inl (List.mem_cons_of_mem _ hmem))
      · exact .inr (.inr hnil)
  | case7 path first next rest _ _ ih =>
      rcases ih hsegment with hmem | hmem | hnil
      · rcases List.mem_append.mp hmem with hmem | hmem
        · exact .inl hmem
        · exact .inr (.inl (List.mem_singleton.mp hmem ▸ List.mem_cons_self))
      · exact .inr (.inl (List.mem_cons_of_mem _ hmem))
      · exact .inr (.inr hnil)

/-- Nothing is removed where no segment is a dot. -/
theorem removeDots_of_plain (path : List Segment) {segments : List Segment}
    (hplain : ∀ segment ∈ segments, isSingleDot segment = false ∧ isDoubleDot segment = false) :
    removeDots path segments = path ++ segments := by
  fun_induction removeDots path segments with
  | case1 => simp
  | case2 path last hdouble =>
      simp [(hplain last List.mem_cons_self).2] at hdouble
  | case3 path last _ hsingle =>
      simp [(hplain last List.mem_cons_self).1] at hsingle
  | case4 path last => rfl
  | case5 path segment next rest hdouble =>
      simp [(hplain segment List.mem_cons_self).2] at hdouble
  | case6 path segment next rest _ hsingle =>
      simp [(hplain segment List.mem_cons_self).1] at hsingle
  | case7 path segment next rest _ _ ih =>
      rw [ih fun other hother => hplain other (List.mem_cons_of_mem _ hother),
        List.append_assoc, List.singleton_append]

/-- A target is cut at its first question mark. -/
theorem target_cut {segments : List Segment} (hmark : ∀ segment ∈ segments, '?' ∉ segment)
    {query : List Char} (hquery : query = [] ∨ query.head? = some '?') :
    (pathText segments ++ query).takeWhile (· ≠ '?') = pathText segments ∧
      (pathText segments ++ query).dropWhile (· ≠ '?') = query := by
  have hpath : ∀ c ∈ pathText segments, decide (c ≠ '?') = true := by
    intro c hc
    rw [decide_eq_true_eq]
    rintro rfl
    rcases mem_pathText hc with hslash | ⟨segment, hsegment, hmem⟩
    · cases hslash
    · exact hmark segment hsegment hmem
  have hends : query.takeWhile (· ≠ '?') = [] ∧ query.dropWhile (· ≠ '?') = query := by
    rcases hquery with rfl | hhead
    · exact ⟨rfl, rfl⟩
    · obtain ⟨rest, rfl⟩ := List.head?_eq_some_iff.mp hhead
      exact ⟨rfl, rfl⟩
  rw [List.takeWhile_append_of_pos hpath, List.dropWhile_append_of_pos hpath, hends.1, hends.2,
    List.append_nil]
  exact ⟨rfl, rfl⟩

/-- The text of segments and a query is read as these segments and this query. -/
theorem urlTarget_pathText {segments : List Segment} (hne : segments ≠ [])
    (hsegments : ∀ segment ∈ segments, '/' ∉ segment ∧ '?' ∉ segment) {query : List Char}
    (hquery : query = [] ∨ query.head? = some '?') :
    urlTarget (.ofList (pathText segments ++ query)) =
      .ofList (pathText (removeDots [] segments) ++ query.flatMap (escapeChar (· ≠ '\''))) := by
  obtain ⟨hpath, hrest⟩ := target_cut (fun segment hmem => (hsegments segment hmem).2) hquery
  rw [urlTarget, String.toList_ofList, hpath, hrest,
    pathSegments_pathText hne fun segment hmem => (hsegments segment hmem).1]

theorem isTargetChar_of_isUriMark {c : Char} (hc : isUriMark c = true) : isTargetChar c = true := by
  rw [isTargetChar, hc, Bool.true_or]

/-- What is sent is again such a target. -/
theorem isPlainTarget_urlTarget {target : String} (hplain : IsPlainTarget target) :
    IsPlainTarget (urlTarget target) := by
  have hchars := List.all_eq_true.mp hplain.2
  refine ⟨by rw [urlTarget, String.toList_ofList]; rfl, List.all_eq_true.mpr ?_⟩
  intro c hc
  rw [urlTarget, String.toList_ofList, List.mem_append] at hc
  rcases hc with hpath | hquery
  · rcases mem_pathText hpath with rfl | ⟨segment, hsegment, hc⟩
    · rfl
    rcases mem_removeDots hsegment with hnil | hsegment | rfl
    · cases hnil
    · exact hchars c ((List.takeWhile_prefix _).subset (mem_of_mem_pathSegments hsegment hc))
    · cases hc
  · obtain ⟨original, horiginal, hc⟩ := List.mem_flatMap.mp hquery
    rcases mem_escapeChar hc with ⟨rfl, -⟩ | hdigit | rfl
    · exact hchars c (List.dropWhile_subset _ horiginal)
    · exact isTargetChar_of_isUriMark (isUriMark_of_isAlphanum hdigit)
    · rfl

/-! ## Templates -/

/-- A segment of a template; the last one may take the rest of a path. -/
inductive RoutePiece
  | literal (text : Segment)
  | parameter
  | rest
  deriving DecidableEq

def RoutePiece.ofSegment : Segment → RoutePiece
  | '{' :: '*' :: _ => .rest
  | '{' :: _ => .parameter
  | text => .literal text

def routePieces (template : String) : List RoutePiece :=
  (pathSegments template.toList).map .ofSegment

/-- What the parameters of a template capture of a path that fits it. They capture
nothing that is empty. -/
def captures : List RoutePiece → List Segment → Option (List Segment)
  | [], [] => some []
  | [.rest], segments =>
      if joined '/' segments = [] then none else some [joined '/' segments]
  | .literal text :: pieces, segment :: segments =>
      if segment = text then captures pieces segments else none
  | .parameter :: pieces, segment :: segments =>
      if segment = [] then none else (captures pieces segments).map (segment :: ·)
  | _, _ => none

/-- Of two templates that a path fits, the first one is preferred: at the first
difference it has the piece that says more. -/
def prefersPieces : List RoutePiece → List RoutePiece → Bool
  | .literal _ :: pieces, .literal _ :: others => prefersPieces pieces others
  | .literal _ :: _, _ => true
  | .parameter :: pieces, .parameter :: others => prefersPieces pieces others
  | .parameter :: _, .rest :: _ => true
  | _, _ => false

/-- The templates that a path fits, with what they capture. -/
def fittingTemplates (templates : List String) (segments : List Segment) :
    List (String × List Segment) :=
  templates.filterMap fun template =>
    (captures (routePieces template) segments).map fun captured => (template, captured)

/-- A template that a path does not fit does not matter. -/
theorem fittingTemplates_without (before after : List String) {template : String}
    {segments : List Segment} (hnone : captures (routePieces template) segments = none) :
    fittingTemplates (before ++ template :: after) segments =
      fittingTemplates (before ++ after) segments := by
  simp only [fittingTemplates, List.filterMap_append, List.filterMap_cons, hnone, Option.map_none]

/-- One of these that no other is preferred to. -/
def preferredTemplate (fitting : List (String × List Segment)) : Option (String × List Segment) :=
  fitting.find? fun candidate => fitting.all fun other =>
    !prefersPieces (routePieces other.1) (routePieces candidate.1)

def matchRoute (templates : List String) (path : String) : Option (String × List String) :=
  (preferredTemplate (fittingTemplates templates (pathSegments path.toList))).map fun found =>
    (found.1, found.2.map String.ofList)

theorem prefersPieces_self (pieces : List RoutePiece) : prefersPieces pieces pieces = false := by
  induction pieces with
  | nil => rfl
  | cons piece rest ih => cases piece <;> first | exact ih | rfl

/-- A single template that fits is preferred, however often it is listed. -/
theorem preferredTemplate_replicate (n : ℕ) (found : String × List Segment) :
    preferredTemplate (List.replicate (n + 1) found) = some found := by
  have hall : (List.replicate (n + 1) found).all fun other =>
      !prefersPieces (routePieces other.1) (routePieces found.1) := by
    rw [List.all_eq_true]
    intro other hother
    rw [List.eq_of_mem_replicate hother, prefersPieces_self]
    rfl
  rw [preferredTemplate, List.replicate_succ, List.find?_cons_of_pos]
  rwa [List.replicate_succ] at hall

/-- A path is routed by its segments. -/
theorem matchRoute_pathText {templates : List String} {segments : List Segment}
    (hne : segments ≠ []) (hslash : ∀ segment ∈ segments, '/' ∉ segment) :
    matchRoute templates (.ofList (pathText segments)) =
      (preferredTemplate (fittingTemplates templates segments)).map fun found =>
        (found.1, found.2.map String.ofList) := by
  rw [matchRoute, String.toList_ofList, pathSegments_pathText hne hslash]

/-! ## Queries -/

/-- A name or a value of a query; none if it is not a text. -/
def formComponent (component : List Char) : Option String :=
  percentDecode (.ofList (component.map fun c => if c = '+' then ' ' else c))

/-- What follows the question mark. -/
def HttpRequest.query (req : HttpRequest) : List Char :=
  (req.pathAndQuery.toList.dropWhile (· ≠ '?')).drop 1

/-- The pairs of a query; none if one is not a text. -/
def queryPairs (query : List Char) : Option (List (String × String)) :=
  ((query.splitOn '&').filter (· ≠ [])).mapM fun pair => do
    let name ← formComponent (pair.takeWhile (· ≠ '='))
    let value ← formComponent ((pair.dropWhile (· ≠ '=')).drop 1)
    return (name, value)

/-! ## Encoded components -/

section Encoded

variable (s : String)

/-- Only the texts of dots are taken for dots. -/
theorem eq_dot_of_isSingleDot (hdot : isSingleDot (encodeURIComponent s).toList = true) :
    s = "." := by
  have hforms : ∀ form ∈ dotForms, percentDecode (.ofList form) = some "." := by decide
  have hread := hforms _ (List.contains_iff_mem.mp hdot)
  rw [String.ofList_toList, percentDecode_encodeURIComponent] at hread
  exact Option.some.inj hread

theorem eq_dots_of_isDoubleDot (hdots : isDoubleDot (encodeURIComponent s).toList = true) :
    s = ".." := by
  have hforms : ∀ form ∈ dotForms.flatMap fun first => dotForms.map (first ++ ·),
      percentDecode (.ofList form) = some ".." := by decide
  have hread := hforms _ (List.contains_iff_mem.mp hdots)
  rw [String.ofList_toList, percentDecode_encodeURIComponent] at hread
  exact Option.some.inj hread

theorem eq_empty_of_encode (hempty : (encodeURIComponent s).toList = []) : s = "" := by
  have hread := percentDecode_encodeURIComponent s
  rw [String.toList_eq_nil_iff.mp hempty] at hread
  exact Option.some.inj (hread.symm.trans (percentDecode_encodeURIComponent ""))

theorem not_mem_encodeURIComponent {c : Char} (hmark : isUriMark c = false) (hsign : c ≠ '%') :
    c ∉ (encodeURIComponent s).toList := by
  intro hc
  rcases mem_encodeURIComponent hc with hmem | rfl
  · rw [hmark] at hmem
    cases hmem
  · exact hsign rfl

/-- What a component is sent as in a query. -/
def queryComponent : List Char :=
  (encodeURIComponent s).toList.flatMap (escapeChar (· ≠ '\''))

theorem not_mem_queryComponent {c : Char} (hmark : isUriMark c = false) (hsign : c ≠ '%') :
    c ∉ queryComponent s := by
  intro hc
  obtain ⟨original, horiginal, hc⟩ := List.mem_flatMap.mp hc
  rcases mem_escapeChar hc with ⟨rfl, -⟩ | hdigit | rfl
  · exact not_mem_encodeURIComponent s hmark hsign horiginal
  · rw [isUriMark_of_isAlphanum hdigit] at hmark
    cases hmark
  · exact hsign rfl

/-- No apostrophe is left to escape. -/
theorem escape_queryComponent :
    (queryComponent s).flatMap (escapeChar (· ≠ '\'')) = queryComponent s := by
  have hkept : ∀ c ∈ queryComponent s, escapeChar (· ≠ '\'') c = [c] := by
    intro c hc
    obtain ⟨original, -, hc⟩ := List.mem_flatMap.mp hc
    refine if_pos ?_
    rcases mem_escapeChar hc with ⟨-, hkeep⟩ | hdigit | rfl
    · exact hkeep
    · rw [decide_eq_true_eq]
      rintro rfl
      cases hdigit
    · rfl
  rw [List.flatMap_congr hkept, List.flatMap_singleton']

theorem queryComponent_eq : queryComponent s =
    (percentEncode (fun c => isUriMark c && c ≠ '\'') s).toList := by
  have hchar : ∀ c, (escapeChar isUriMark c).flatMap (escapeChar (· ≠ '\'')) =
      escapeChar (fun c => isUriMark c && c ≠ '\'') c := by
    intro c
    by_cases hmark : isUriMark c = true
    · rw [escapeChar, if_pos hmark, List.flatMap_singleton, escapeChar, escapeChar]
      simp only [hmark, Bool.true_and]
    · have hkept : ∀ escaped ∈ (String.utf8EncodeChar c).flatMap escapeByte,
          escapeChar (· ≠ '\'') escaped = [escaped] := by
        intro escaped hescaped
        obtain ⟨byte, -, hbyte⟩ := List.mem_flatMap.mp hescaped
        simp only [escapeByte, List.mem_cons, List.not_mem_nil, or_false] at hbyte
        refine if_pos ?_
        rw [decide_eq_true_eq]
        rintro rfl
        rcases hbyte with hsign | hdigit | hdigit
        · cases hsign
        · exact absurd (hdigit ▸ hexDigit_isAlphanum _) (by decide)
        · exact absurd (hdigit ▸ hexDigit_isAlphanum _) (by decide)
      rw [escapeChar, if_neg hmark, List.flatMap_congr hkept, List.flatMap_singleton', escapeChar,
        if_neg (by simp [hmark])]
  rw [queryComponent, encodeURIComponent, percentEncode, String.toList_ofList,
    List.flatMap_assoc, percentEncode, String.toList_ofList]
  exact List.flatMap_congr fun c _ => hchar c

/-- The query's reader finds the component. -/
theorem formComponent_queryComponent : formComponent (queryComponent s) = some s := by
  have hplus : (queryComponent s).map (fun c => if c = '+' then ' ' else c) = queryComponent s := by
    refine List.map_congr_left (fun c hc => if_neg ?_) |>.trans (List.map_id _)
    rintro rfl
    exact not_mem_queryComponent s (by decide) (by decide) hc
  rw [formComponent, hplus, queryComponent_eq, String.ofList_toList]
  exact percentDecode_percentEncode (by decide) s

/-- A query of one pair, as it is sent. -/
theorem queryPairs_queryComponent {name : String} (hmarks : '&' ∉ name.toList ∧ '=' ∉ name.toList)
    (hname : formComponent name.toList = some name) :
    queryPairs (name.toList ++ '=' :: queryComponent s) = some [(name, s)] := by
  have hamp : '&' ∉ name.toList ++ '=' :: queryComponent s := by
    rw [List.mem_append, List.mem_cons, not_or, not_or]
    exact ⟨hmarks.1, by decide, not_mem_queryComponent s (by decide) (by decide)⟩
  have hbefore : ∀ c ∈ name.toList, decide (c ≠ '=') = true := by
    intro c hc
    rw [decide_eq_true_eq]
    rintro rfl
    exact hmarks.2 hc
  have hends : ('=' :: queryComponent s).takeWhile (· ≠ '=') = [] ∧
      ('=' :: queryComponent s).dropWhile (· ≠ '=') = '=' :: queryComponent s := ⟨rfl, rfl⟩
  rw [queryPairs, List.splitOn_eq_singleton hamp, List.filter_cons_of_pos (by simp)]
  simp only [List.filter_nil, List.mapM_cons, List.mapM_nil]
  rw [List.takeWhile_append_of_pos hbefore, List.dropWhile_append_of_pos hbefore, hends.1, hends.2,
    List.append_nil, hname, List.drop_succ_cons, List.drop_zero, formComponent_queryComponent]
  rfl

end Encoded

/-- The libraries resolve paths, capture segments and read them as the standards say. -/
structure WebStack.Standard (stack : WebStack) : Prop where
  route : stack.route = matchRoute
  decodeSegment : stack.decodeSegment = percentDecode

end GpuCluster.Foundation
