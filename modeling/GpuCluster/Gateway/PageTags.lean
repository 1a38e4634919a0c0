import GpuCluster.Gateway.AdminPage

/-! # Tags of the admin page

Whatever the texts are that the page shows, its tags are those that it writes
itself: none of them runs a script or loads anything, and the buttons of a table
are those that its rows are given, each with the texts of its row.
-/

namespace GpuCluster.Gateway

open Foundation

/-! ## What tags may be -/

def pageTags : List (List Char) :=
  ["tr", "td", "span", "div", "br", "button", "p", "label", "input", "select", "option",
    "code"].map String.toList

def pageAttributes : List (List Char) :=
  ["class", "title", "data-action", "data-id", "data-name", "data-scope", "data-status", "disabled",
    "colspan", "for", "id", "type", "value", "selected", "placeholder"].map String.toList

/-- A tag that only shows something: its attributes have no handler and no address,
and its style is the page's. -/
def isInert {φ : Type} [DecidableEq φ] (tag : HtmlTag φ) : Bool :=
  pageTags.contains tag.name && tag.attributes.all fun pair =>
    pageAttributes.contains pair.1 ||
      pair.1 = "style".toList && pair.2 = (messageStyle.flatMap String.toList).map .char

/-- A whole part of a template, with harmless tags and these buttons. -/
def HasButtons {φ : Type} [DecidableEq φ] (part : HtmlTemplate φ) (buttons : List (RowButton φ)) :
    Prop :=
  part.isWhole = true ∧ part.tags.all isInert = true ∧ part.tags.filterMap buttonOf = buttons

instance {φ : Type} [DecidableEq φ] (part : HtmlTemplate φ) (buttons : List (RowButton φ)) :
    Decidable (HasButtons part buttons) := inferInstanceAs (Decidable (_ ∧ _ ∧ _))

/-- A text that can be followed by another, with harmless tags and these buttons. -/
def Shows (html : List Char) (buttons : List Dataset) : Prop :=
  html.getLast? ≠ some '\r' ∧ ∃ tags, parseTags html = some tags ∧ tags.all isInert = true ∧
    buttonsOf tags = buttons

/-! ## Values in tags -/

section Filled

variable {φ : Type} {value : φ → String}

/-- The characters that stand for a field before they are put into a quoted value. -/
def fieldChars (value : φ → String) (f : φ) : List Char := normalizeNewlines (value f).toList

theorem lookup_map_snd {κ α β : Type} [BEq κ] (f : α → β) (key : κ) (pairs : List (κ × α)) :
    (pairs.map fun pair => (pair.1, f pair.2)).lookup key = (pairs.lookup key).map f := by
  induction pairs with
  | nil => rfl
  | cons pair rest ih =>
      rw [List.map_cons, List.lookup_cons, List.lookup_cons, ih]
      cases key == pair.1 <;> rfl

theorem atomsShown_fill (atoms : List (HtmlAtom φ)) :
    atomsShown Empty.elim (atoms.flatMap (HtmlAtom.fill (inValue (fieldChars value)))) =
      atomsShown value atoms := by
  rw [atomsShown, atomsShown, List.flatMap_assoc]
  refine congrArg String.ofList (congrArg (atoms.flatMap ·) (funext fun atom => ?_))
  cases atom with
  | char c => rfl
  | field f =>
      simp only [HtmlAtom.fill, inValue, fieldChars, List.flatMap_map, shownText,
        String.toList_ofList]
      exact (List.map_eq_flatMap ..).symm

theorem buttonOf_fill (tag : HtmlTag φ) :
    (buttonOf (tag.fill (fieldChars value))).map (RowButton.shown Empty.elim) =
      (buttonOf tag).map (RowButton.shown value) := by
  have hlookup : ∀ key : List Char, (tag.fill (fieldChars value)).attributes.lookup key =
      (tag.attributes.lookup key).map
        (List.flatMap (HtmlAtom.fill (inValue (fieldChars value)))) :=
    fun key => lookup_map_snd _ key tag.attributes
  have hshown : ∀ atoms : Option (List (HtmlAtom φ)),
      (atoms.map (List.flatMap (HtmlAtom.fill (inValue (fieldChars value))))).map
        (atomsShown Empty.elim) = atoms.map (atomsShown value) := by
    intro atoms
    rw [Option.map_map]
    exact congrArg (Option.map · atoms) (funext atomsShown_fill)
  simp only [buttonOf, hlookup, Option.map_map]
  cases tag.attributes.lookup "data-action".toList with
  | none => rfl
  | some action =>
      simp only [Option.map_some, Function.comp_apply, RowButton.shown, hshown, atomsShown_fill]

theorem buttonsOf_fill (tags : List (HtmlTag φ)) :
    buttonsOf (tags.map (HtmlTag.fill (fieldChars value))) =
      (tags.filterMap buttonOf).map (RowButton.shown value) := by
  rw [buttonsOf, List.filterMap_map, List.map_filterMap, List.map_filterMap]
  exact congrArg (List.filterMap · tags) (funext buttonOf_fill)

theorem isInert_fill [DecidableEq φ] {tag : HtmlTag φ} (htag : isInert tag = true) :
    isInert (tag.fill (fieldChars value)) = true := by
  simp only [isInert, HtmlTag.fill, Bool.and_eq_true, List.all_map, List.all_eq_true,
    Function.comp_apply] at htag ⊢
  refine ⟨htag.1, fun pair hpair => ?_⟩
  rcases (Bool.or_eq_true ..).mp (htag.2 pair hpair) with hname | hstyle
  · exact (Bool.or_eq_true ..).mpr (.inl hname)
  · obtain ⟨hname, hvalue⟩ := (Bool.and_eq_true ..).mp hstyle
    refine (Bool.or_eq_true ..).mpr (.inr ((Bool.and_eq_true ..).mpr ⟨hname, ?_⟩))
    rw [of_decide_eq_true hvalue]
    refine decide_eq_true ?_
    rw [List.flatMap_map]
    exact (List.map_eq_flatMap ..).symm

end Filled

/-! ## Texts that follow each other -/

section Shown

variable {φ : Type} [DecidableEq φ] {value : φ → String}

theorem tags_of_parts {parts : List (HtmlTemplate φ)} {buttons : List (List (RowButton φ))}
    (hparts : List.Forall₂ HasButtons parts buttons) : (∀ part ∈ parts, part.isWhole = true) ∧
      (parts.flatMap HtmlTemplate.tags).all isInert = true ∧
      (parts.flatMap HtmlTemplate.tags).filterMap buttonOf = buttons.flatten := by
  induction hparts with
  | nil => exact ⟨List.forall_mem_nil _, rfl, rfl⟩
  | cons hpart hparts ih =>
      obtain ⟨hwhole, hinert, hbuttons⟩ := ih
      refine ⟨List.forall_mem_cons.mpr ⟨hpart.1, hwhole⟩, ?_, ?_⟩
      · rw [List.flatMap_cons, List.all_append, hpart.2.1, hinert, Bool.and_self]
      · rw [List.flatMap_cons, List.filterMap_append, hpart.2.2, hbuttons, List.flatten_cons]

theorem shows_parts {parts : List (HtmlTemplate φ)} {buttons : List (List (RowButton φ))}
    (hparts : List.Forall₂ HasButtons parts buttons) (value : φ → String) :
    Shows (HtmlTemplate.render value parts.flatten)
      (buttons.flatten.map (RowButton.shown value)) := by
  obtain ⟨hwhole, hinert, hbuttons⟩ := tags_of_parts hparts
  refine ⟨getLast?_parts hwhole, _, parseTags_parts hwhole, ?_, ?_⟩
  · rw [List.all_map]
    exact List.all_eq_true.mpr fun tag htag => isInert_fill (List.all_eq_true.mp hinert tag htag)
  · rw [← hbuttons]
    exact buttonsOf_fill _

theorem shows_part {part : HtmlTemplate φ} (hpart : HasButtons part []) (value : φ → String) :
    Shows (HtmlTemplate.render value part) [] := by
  have hparts := shows_parts (.cons hpart .nil) value
  rwa [List.flatten_singleton] at hparts

theorem Shows.append {before after : List Char} {buttons more : List Dataset}
    (hbefore : Shows before buttons) (hafter : Shows after more) :
    Shows (before ++ after) (buttons ++ more) := by
  obtain ⟨hcut, tags, hparse, hinert, hbuttons⟩ := hbefore
  obtain ⟨hcut', tags', hparse', hinert', hbuttons'⟩ := hafter
  refine ⟨?_, tags ++ tags', parseTags_append hparse hcut hparse', ?_, ?_⟩
  · rw [List.getLast?_append]
    intro heq
    rcases Option.or_eq_some_iff.mp heq with heq | ⟨-, heq⟩
    · exact hcut' heq
    · exact hcut heq
  · rw [List.all_append, hinert, hinert', Bool.and_self]
  · rw [buttonsOf, List.filterMap_append, List.map_append]
    exact congrArg₂ _ hbuttons hbuttons'

theorem Shows.flatMap {α : Type} {rows : List α} {html : α → List Char}
    {buttons : α → List Dataset} (hrows : ∀ row ∈ rows, Shows (html row) (buttons row)) :
    Shows (rows.flatMap html) (rows.flatMap buttons) := by
  induction rows with
  | nil => exact ⟨nofun, [], rfl, rfl, rfl⟩
  | cons row rest ih =>
      obtain ⟨hrow, hrest⟩ := List.forall_mem_cons.mp hrows
      exact hrow.append (ih hrest)

end Shown

/-! ## The page's templates -/

/-- The button of an action for the id in a field. -/
def idButton {φ : Type} (action : String) (id : φ) : RowButton φ where
  action := action.toList.map .char
  id := some [.field id]
  name := none
  scope := none
  status := none

section Templates

theorem pillFor_hasButtons {φ : Type} [DecidableEq φ] (kind : PillKind) (status : φ) :
    HasButtons (pillFor kind status) [] := by
  cases kind <;> exact ⟨rfl, rfl, rfl⟩

theorem empty_hasButtons {φ : Type} [DecidableEq φ] : HasButtons ([] : HtmlTemplate φ) [] :=
  ⟨rfl, rfl, rfl⟩

theorem liveRow_buttons (kind : PillKind) :
    List.Forall₂ HasButtons (liveRow kind) [[], [], []] :=
  .cons (by decide +kernel) (.cons (pillFor_hasButtons kind _) (.cons (by decide +kernel) .nil))

/-- The buttons of a node by its status in lower case. -/
def nodeButtons (status : String) : List (List (RowButton NodeField)) := [
  [],
  if status = "pending_approval" then [idButton "approve" .id] else [],
  if status ∈ ["online", "degraded"] then [idButton "drain" .id] else [],
  if status ≠ "revoked" then [idButton "revoke" .id] else [],
  []]

theorem nodeActionsHtml_buttons (status : String) :
    List.Forall₂ HasButtons (nodeActionsHtml status) (nodeButtons status) := by
  refine .cons (by decide +kernel) (.cons ?_ (.cons ?_ (.cons ?_ (.cons (by decide +kernel) .nil))))
  · split
    next => decide +kernel
    next => exact empty_hasButtons
  · split
    next => decide +kernel
    next => exact empty_hasButtons
  · split
    next => decide +kernel
    next => exact empty_hasButtons

theorem nodeRow_buttons (kind : PillKind) (status : String) :
    List.Forall₂ HasButtons (nodeRow kind status) ([[], [], []] ++ nodeButtons status ++ [[]]) :=
  List.rel_append (List.rel_append
    (.cons (by decide +kernel) (.cons (pillFor_hasButtons kind _) (.cons (by decide +kernel) .nil)))
    (nodeActionsHtml_buttons status)) (.cons (by decide +kernel) .nil)

/-- A node that is online can be drained and revoked. -/
example : nodeButtons "online" = [[], [], [idButton "drain" .id], [idButton "revoke" .id], []] := by
  decide +kernel

def keyButtons (revoked : Bool) : List (List (RowButton KeyField)) := [
  [],
  [{ idButton "key-edit" .id with name := some [.field .name], scope := some [.field .scope] }],
  if revoked then [] else [idButton "key-revoke" .id],
  [idButton "key-delete" .id]]

theorem keyActionsHtml_buttons (revoked : Bool) :
    List.Forall₂ HasButtons (keyActionsHtml revoked) (keyButtons revoked) := by
  refine .cons (by decide +kernel) (.cons (by decide +kernel) (.cons ?_
    (.cons (by decide +kernel) .nil)))
  cases revoked <;> decide +kernel

theorem keyRow_buttons (kind : PillKind) (revoked expired : Bool) :
    List.Forall₂ HasButtons (keyRow kind revoked expired)
      ([[], [], [], [], []] ++ keyButtons revoked ++ [[]]) := by
  have hstatus : HasButtons (keyStatusPill revoked expired) [] := by
    cases revoked <;> cases expired <;> decide +kernel
  exact List.rel_append (List.rel_append
    (.cons (by decide +kernel) (.cons (pillFor_hasButtons kind _) (.cons (by decide +kernel)
      (.cons hstatus (.cons (by decide +kernel) .nil)))))
    (keyActionsHtml_buttons revoked)) (.cons (by decide +kernel) .nil)

/-- A revoked key can be edited and deleted. -/
example : (keyButtons true).flatten.map RowButton.action =
    ["key-edit", "key-delete"].map fun action => action.toList.map .char := by
  decide +kernel

def modelButtons (hasHf isDefault : Bool) : List (List (RowButton ModelField)) := [
  if hasHf then [idButton "model-load" .id] else [],
  [],
  [{ idButton "model-toggle" .id with status := some [.field .status] }],
  [],
  if isDefault then [] else [idButton "model-default" .id],
  [],
  [idButton "model-delete" .id]]

theorem modelRow_buttons (kind : PillKind) (hasHf isDefault disabled : Bool) :
    List.Forall₂ HasButtons (modelRow kind hasHf isDefault disabled)
      ([[], [], [], [], [], [], []] ++ modelButtons hasHf isDefault ++ [[]]) := by
  have hgap : HasButtons ([.markup "\n            "] : HtmlTemplate ModelField) [] := by
    decide +kernel
  have hhf : HasButtons (hfCell hasHf) [] := by cases hasHf <;> decide +kernel
  have hdefault : HasButtons (defaultPill isDefault) [] := by cases isDefault <;> decide +kernel
  have hload : HasButtons (loadBtn hasHf)
      (if hasHf then [idButton "model-load" .id] else []) := by cases hasHf <;> decide +kernel
  have htoggle : HasButtons (toggleBtn disabled)
      [{ idButton "model-toggle" .id with status := some [.field .status] }] := by
    cases disabled <;> decide +kernel
  have hset : HasButtons (defaultBtn isDefault)
      (if isDefault then [] else [idButton "model-default" .id]) := by
    cases isDefault <;> decide +kernel
  exact .cons (by decide +kernel) (.cons hhf (.cons (by decide +kernel)
    (.cons (pillFor_hasButtons kind _) (.cons (by decide +kernel) (.cons hdefault
      (.cons (by decide +kernel) (.cons hload (.cons hgap (.cons htoggle (.cons hgap
        (.cons hset (.cons hgap (.cons (by decide +kernel)
          (.cons (by decide +kernel) .nil))))))))))))))

theorem logRow_buttons (ok hasType hasMessage : Bool) :
    List.Forall₂ HasButtons (logRow ok hasType hasMessage) [[], [], [], [], [], []] := by
  have hstatus : HasButtons (statusPill ok) [] := by cases ok <;> decide +kernel
  have herror : HasButtons (errCell hasType hasMessage) [] := by
    cases hasType <;> cases hasMessage <;> decide +kernel
  exact .cons (by decide +kernel) (.cons hstatus (.cons (by decide +kernel)
    (.cons (by decide +kernel) (.cons herror (.cons (by decide +kernel) .nil)))))

/-- The row of a failed request has no button. -/
example : (HtmlTemplate.tags (logRow false true true).flatten).filterMap buttonOf = [] := by
  decide +kernel

theorem editKeyBody_buttons (inference admin : Bool) :
    List.Forall₂ HasButtons (editKeyBody inference admin) [[], [], [], []] := by
  refine .cons (by decide +kernel) (.cons (by decide +kernel) (.cons ?_ (.cons ?_ .nil)))
  · cases inference <;> decide +kernel
  · cases admin <;> decide +kernel

end Templates

/-! ## The page's texts -/

/-- The button of an action for an id. -/
def idDataset (action id : String) : Dataset := ⟨action, shownText id, none, none, none⟩

/-- The buttons that a row is given. -/
def AdminRow.buttons (runtime : PageRuntime) : AdminRow → List Dataset
  | .live _ | .request _ => []
  | .node entry =>
      let status := runtime.lower entry.status
      (if status = "pending_approval" then [idDataset "approve" entry.id] else []) ++
        (if status ∈ ["online", "degraded"] then [idDataset "drain" entry.id] else []) ++
          if status ≠ "revoked" then [idDataset "revoke" entry.id] else []
  | .key entry =>
      [{ idDataset "key-edit" entry.id with
          name := some (shownText entry.name), scope := some (shownText entry.scope) }] ++
        (if isGiven entry.revokedAt then [] else [idDataset "key-revoke" entry.id]) ++
          [idDataset "key-delete" entry.id]
  | .model entry =>
      (if entry.hasHf then [idDataset "model-load" entry.id] else []) ++
        [{ idDataset "model-toggle" entry.id with status := some (shownText entry.status) }] ++
          (if entry.isDefault then [] else [idDataset "model-default" entry.id]) ++
            [idDataset "model-delete" entry.id]

section Shown

variable {φ : Type} {value : φ → String}

theorem atomsShown_literal (text : String) : atomsShown value (text.toList.map .char) = text := by
  rw [atomsShown, List.flatMap_map, List.flatMap_singleton', String.ofList_toList]

theorem atomsShown_field (f : φ) : atomsShown value [.field f] = shownText (value f) := by
  rw [atomsShown, List.flatMap_singleton, String.ofList_toList]

@[simp] theorem shown_idButton (action : String) (f : φ) :
    (idButton action f).shown value = idDataset action (value f) := by
  simp only [idButton, RowButton.shown, atomsShown_literal, Option.map_some, Option.map_none,
    Option.getD_some, atomsShown_field, idDataset]

theorem shown_editButton (action : String) (id name scope : φ) :
    RowButton.shown value { idButton action id with
      name := some [.field name], scope := some [.field scope] } =
        { idDataset action (value id) with
          name := some (shownText (value name)), scope := some (shownText (value scope)) } := by
  simp only [idButton, RowButton.shown, atomsShown_literal, Option.map_some, Option.map_none,
    Option.getD_some, atomsShown_field, idDataset]

theorem shown_toggleButton (action : String) (id status : φ) :
    RowButton.shown value { idButton action id with status := some [.field status] } =
      { idDataset action (value id) with status := some (shownText (value status)) } := by
  simp only [idButton, RowButton.shown, atomsShown_literal, Option.map_some, Option.map_none,
    Option.getD_some, atomsShown_field, idDataset]

theorem map_shown_if (c : Prop) [Decidable c] (button : RowButton φ) :
    (if c then [button] else []).map (RowButton.shown value) =
      if c then [button.shown value] else [] := by
  split
  next => rfl
  next => rfl

theorem map_shown_unless (c : Prop) [Decidable c] (button : RowButton φ) :
    (if c then [] else [button]).map (RowButton.shown value) =
      if c then [] else [button.shown value] := by
  split
  next => rfl
  next => rfl

end Shown

theorem row_shows (runtime : PageRuntime) (row : AdminRow) :
    Shows (row.html runtime) (row.buttons runtime) := by
  cases row with
  | live entry => exact shows_parts (liveRow_buttons _) _
  | request entry => exact shows_parts (logRow_buttons ..) _
  | node entry =>
      have hrow := shows_parts (nodeRow_buttons (pillKind runtime entry.status)
        (runtime.lower entry.status)) (entry.value runtime)
      simp only [nodeButtons, List.flatten_append, List.flatten_cons, List.flatten_nil,
        List.append_nil, List.nil_append, List.map_append, map_shown_if, shown_idButton] at hrow
      rwa [← List.append_assoc] at hrow
  | key entry =>
      have hrow := shows_parts (keyRow_buttons (pillKind runtime entry.scope)
        (isGiven entry.revokedAt)
        (isGiven entry.expiresAt && runtime.isPast (orElseText entry.expiresAt "")))
        (entry.value runtime)
      simp only [keyButtons, List.flatten_append, List.flatten_cons, List.flatten_nil,
        List.append_nil, List.nil_append, List.map_append, List.map_cons, List.map_nil,
        map_shown_unless, shown_editButton, shown_idButton] at hrow
      rwa [← List.append_assoc] at hrow
  | model entry =>
      have hrow := shows_parts (modelRow_buttons (pillKind runtime entry.status) entry.hasHf
        entry.isDefault (entry.status = "disabled")) (entry.value runtime)
      simp only [modelButtons, List.flatten_append, List.flatten_cons, List.flatten_nil,
        List.append_nil, List.nil_append, List.map_append, List.map_cons, List.map_nil,
        map_shown_if, map_shown_unless, shown_toggleButton, shown_idButton] at hrow
      rwa [← List.append_assoc, ← List.append_assoc] at hrow

/-- The buttons among the tags of a text. -/
def PageText.buttons (runtime : PageRuntime) : PageText → List Dataset
  | .table rows => rows.flatMap (AdminRow.buttons runtime)
  | .failure .. | .confirm .. | .editKey .. | .loadModel .. => []

theorem text_shows (runtime : PageRuntime) (text : PageText) :
    Shows (text.html runtime) (text.buttons runtime) := by
  cases text with
  | table rows => exact .flatMap fun row _ => row_shows runtime row
  | failure keys message =>
      have hfailure : HasButtons (failureRow keys) [] := by cases keys <;> decide +kernel
      exact shows_part hfailure _
  | confirm message => exact shows_part (by decide +kernel) _
  | editKey name scope => exact shows_parts (editKeyBody_buttons ..) _
  | loadModel candidates =>
      have hnone : HasButtons noWorkerBody [] := by decide +kernel
      have hstart : HasButtons loadDialogStart [] := by decide +kernel
      have hoption : HasButtons candidateOption [] := by decide +kernel
      have hend : HasButtons loadDialogEnd [] := by decide +kernel
      rw [PageText.html]
      split
      next => exact shows_part hnone _
      next =>
        have hoptions : Shows (candidates.flatMap fun c =>
            HtmlTemplate.render (fun _ => c) candidateOption) (candidates.flatMap fun _ => []) :=
          .flatMap fun c _ => shows_part hoption _
        have htext := ((shows_part hstart fun _ => "").append hoptions).append
          (shows_part hend fun _ => "")
        rwa [List.flatMap_eq_nil_iff.mpr fun _ _ => rfl] at htext

/-- Whatever texts a page shows, its tags are harmless, and the buttons among them are
those of its rows, with the texts of the rows as quoted values have them. -/
theorem page_isInert (runtime : PageRuntime) (text : PageText) :
    ∃ tags, parseTags (text.html runtime) = some tags ∧ (∀ tag ∈ tags, isInert tag = true) ∧
      buttonsOf tags = text.buttons runtime := by
  obtain ⟨-, tags, hparse, hinert, hbuttons⟩ := text_shows runtime text
  exact ⟨tags, hparse, List.all_eq_true.mp hinert, hbuttons⟩

end GpuCluster.Gateway
