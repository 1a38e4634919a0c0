import Mathlib.Data.List.Basic

/-! # HTML templates

A part of the HTML tokenizer, and templates whose fields are escaped and stand in
text or in quoted values. A template is tokenized once, with its fields as they
are; the tokens of a text made from it are these, with the fields' values in place
of them.
-/

namespace GpuCluster.Foundation

universe u

variable {φ : Type u}

/-! ## The tokenizer -/

/-- A character, or a field whose characters stand here. -/
inductive HtmlAtom (φ : Type u)
  | char (c : Char)
  | field (f : φ)
  deriving DecidableEq

/-- What the tokenizer tells of a tag or of the text between tags. -/
inductive HtmlEvent (φ : Type u)
  | opens (name : List Char)
  | names (name : List Char)
  | value (atom : HtmlAtom φ)
  | tagEnd
  | closes (name : List Char)
  | text (atom : HtmlAtom φ)
  deriving DecidableEq

inductive HtmlState
  | data
  | tagOpen
  | endTagOpen
  | tagName (closing : Bool) (name : List Char)
  | beforeAttributeName
  | attributeName (name : List Char)
  | beforeAttributeValue
  /-- Between double quotes. -/
  | attributeValue
  | afterAttributeValue
  | selfClosing
  /-- A character reference in text or in a value, with what follows its sign. -/
  | reference (inValue : Bool) (seen : List Char)
  deriving DecidableEq

def isHtmlSpace (c : Char) : Bool := c ∈ ['\t', '\n', '\x0c', ' ']

/-- Tags after which the text is read in another way. -/
def rawTextTags : List (List Char) :=
  ["script", "style", "textarea", "title", "xmp", "iframe", "noembed", "noframes", "noscript",
    "plaintext"].map String.toList

/-- The references that an escaped text has. -/
def referencedChar (seen : List Char) : Option Char :=
  [("amp".toList, '&'), ("lt".toList, '<'), ("gt".toList, '>'), ("quot".toList, '"'),
    ("#39".toList, '\'')].lookup seen

/-- A null character in a value is replaced. -/
def valueChar (c : Char) : Char := if c = '\x00' then '\ufffd' else c

/-- One step of the tokenizer; none where the text leaves the part that is described. -/
def HtmlState.step : HtmlState → Char → Option (HtmlState × List (HtmlEvent Empty))
  | .data, c =>
      if c = '<' then some (.tagOpen, [])
      else if c = '&' then some (.reference false [], [])
      else some (.data, [.text (.char c)])
  | .tagOpen, c =>
      if c = '/' then some (.endTagOpen, [])
      else if c.isAlpha then some (.tagName false [c.toLower], [])
      else none
  | .endTagOpen, c => if c.isAlpha then some (.tagName true [c.toLower], []) else none
  | .tagName closing name, c =>
      if c.isAlphanum then some (.tagName closing (name ++ [c.toLower]), [])
      else if rawTextTags.contains name then none
      else if c = '>' then
        some (.data, if closing then [.closes name] else [.opens name, .tagEnd])
      else if isHtmlSpace c ∧ ¬ closing then some (.beforeAttributeName, [.opens name])
      else none
  | .beforeAttributeName, c =>
      if isHtmlSpace c then some (.beforeAttributeName, [])
      else if c = '>' then some (.data, [.tagEnd])
      else if c = '/' then some (.selfClosing, [])
      else if c.isAlpha then some (.attributeName [c.toLower], [])
      else none
  | .attributeName name, c =>
      if c = '=' then some (.beforeAttributeValue, [.names name])
      else if c = '>' then some (.data, [.names name, .tagEnd])
      else if c.isAlphanum ∨ c = '-' then some (.attributeName (name ++ [c.toLower]), [])
      else none
  | .beforeAttributeValue, c => if c = '"' then some (.attributeValue, []) else none
  | .attributeValue, c =>
      if c = '"' then some (.afterAttributeValue, [])
      else if c = '&' then some (.reference true [], [])
      else some (.attributeValue, [.value (.char (valueChar c))])
  | .afterAttributeValue, c =>
      if isHtmlSpace c then some (.beforeAttributeName, [])
      else if c = '>' then some (.data, [.tagEnd])
      else if c = '/' then some (.selfClosing, [])
      else none
  | .selfClosing, c => if c = '>' then some (.data, [.tagEnd]) else none
  | .reference inValue seen, c =>
      if c = ';' then
        (referencedChar seen).map fun referenced =>
          if inValue then (.attributeValue, [.value (.char referenced)])
          else (.data, [.text (.char referenced)])
      else if c.isAlphanum ∨ c = '#' then some (.reference inValue (seen ++ [c]), [])
      else none

/-- The steps for a text, with what they tell. -/
def HtmlState.run (s : HtmlState) : List Char → Option (HtmlState × List (HtmlEvent Empty))
  | [] => some (s, [])
  | c :: rest => do
      let (next, events) ← s.step c
      let (last, more) ← run next rest
      return (last, events ++ more)

/-- The line breaks of a text, as they are before it is tokenized. -/
def normalizeNewlines : List Char → List Char
  | '\r' :: '\n' :: rest => '\n' :: normalizeNewlines rest
  | '\r' :: rest => '\n' :: normalizeNewlines rest
  | c :: rest => c :: normalizeNewlines rest
  | [] => []

/-! ## Tags -/

structure HtmlTag (φ : Type u) where
  name : List Char
  attributes : List (List Char × List (HtmlAtom φ))
  deriving DecidableEq

/-- The value that starts here. There is no text inside of a tag. -/
def valueOf : List (HtmlEvent φ) → List (HtmlAtom φ)
  | .value atom :: rest => atom :: valueOf rest
  | .text _ :: rest => valueOf rest
  | _ => []

/-- The attributes up to the end of the tag. -/
def attributesOf : List (HtmlEvent φ) → List (List Char × List (HtmlAtom φ))
  | .names name :: rest => (name, valueOf rest) :: attributesOf rest
  | .value _ :: rest | .text _ :: rest => attributesOf rest
  | _ => []

def openTags : List (HtmlEvent φ) → List (HtmlTag φ)
  | .opens name :: rest => ⟨name, attributesOf rest⟩ :: openTags rest
  | _ :: rest => openTags rest
  | [] => []

/-- The opening tags of a document's text. -/
def parseTags (html : List Char) : Option (List (HtmlTag Empty)) :=
  (HtmlState.run .data (normalizeNewlines html)).bind fun parsed =>
    if parsed.1 = .data then some (openTags parsed.2) else none

/-! ## Templates -/

inductive HtmlPiece (φ : Type u)
  | markup (text : String)
  | field (f : φ)
  deriving DecidableEq

abbrev HtmlTemplate (φ : Type u) := List (HtmlPiece φ)

def escapeHtmlChar (c : Char) : List Char :=
  if c = '&' then "&amp;".toList
  else if c = '<' then "&lt;".toList
  else if c = '>' then "&gt;".toList
  else if c = '"' then "&quot;".toList
  else if c = '\'' then "&#39;".toList
  else [c]

/-- `escapeHtml`. -/
def escapeHtml (s : String) : List Char := s.toList.flatMap escapeHtmlChar

def HtmlPiece.render (value : φ → String) : HtmlPiece φ → List Char
  | .markup text => text.toList
  | .field f => escapeHtml (value f)

/-- The text made of a template. -/
def HtmlTemplate.render (value : φ → String) (template : HtmlTemplate φ) : List Char :=
  template.flatMap (HtmlPiece.render value)

def HtmlAtom.lift : HtmlAtom Empty → HtmlAtom φ
  | .char c => .char c

def HtmlEvent.lift : HtmlEvent Empty → HtmlEvent φ
  | .opens name => .opens name
  | .names name => .names name
  | .value atom => .value atom.lift
  | .tagEnd => .tagEnd
  | .closes name => .closes name
  | .text atom => .text atom.lift

/-- What is told of a piece. A field may stand in text or in a value. -/
def HtmlState.runPiece (s : HtmlState) : HtmlPiece φ → Option (HtmlState × List (HtmlEvent φ))
  | .markup text => (s.run text.toList).map fun told => (told.1, told.2.map .lift)
  | .field f =>
      if s = .data then some (s, [.text (.field f)])
      else if s = .attributeValue then some (s, [.value (.field f)])
      else none

def HtmlState.runPieces (s : HtmlState) : HtmlTemplate φ → Option (HtmlState × List (HtmlEvent φ))
  | [] => some (s, [])
  | piece :: rest => do
      let (next, events) ← s.runPiece piece
      let (last, more) ← runPieces next rest
      return (last, events ++ more)

/-- No line break may be completed by a value: markup has no carriage return, and
after a field it does not begin with a line feed. -/
def HtmlTemplate.separates : HtmlTemplate φ → Bool
  | [] => true
  | .markup text :: rest => '\r' ∉ text.toList && separates rest
  | [.field _] => true
  | .field _ :: .markup text :: rest =>
      text.toList.head?.any (· ∉ ['\r', '\n']) && separates (.markup text :: rest)
  | .field _ :: .field _ :: _ => false

/-! ## Filling in values -/

def HtmlAtom.fill (value : φ → List Char) : HtmlAtom φ → List (HtmlAtom Empty)
  | .char c => [.char c]
  | .field f => (value f).map .char

/-- The characters of a field as a quoted value has them. -/
def inValue (value : φ → List Char) (f : φ) : List Char := (value f).map valueChar

def HtmlEvent.fill (value : φ → List Char) : HtmlEvent φ → List (HtmlEvent Empty)
  | .opens name => [.opens name]
  | .names name => [.names name]
  | .value atom => (atom.fill (inValue value)).map .value
  | .tagEnd => [.tagEnd]
  | .closes name => [.closes name]
  | .text atom => (atom.fill value).map .text

def HtmlTag.fill (value : φ → List Char) (tag : HtmlTag φ) : HtmlTag Empty where
  name := tag.name
  attributes := tag.attributes.map fun pair =>
    (pair.1, pair.2.flatMap (HtmlAtom.fill (inValue value)))

@[simp] theorem HtmlEvent.fill_lift (value : φ → List Char) (event : HtmlEvent Empty) :
    (event.lift : HtmlEvent φ).fill value = [event] := by
  cases event with
  | value atom | text atom =>
      cases atom with
      | char c => rfl
      | field f => cases f
  | _ => rfl

section Runs

variable {s next last : HtmlState} {value : φ → List Char}

theorem run_cons {c : Char} {rest : List Char} {told : HtmlState × List (HtmlEvent Empty)} :
    s.run (c :: rest) = some told ↔ ∃ next events more, s.step c = some (next, events) ∧
      next.run rest = some (told.1, more) ∧ told.2 = events ++ more := by
  obtain ⟨last, all⟩ := told
  simp only [HtmlState.run, Option.bind_eq_bind, Option.bind_eq_some_iff, Prod.exists]
  constructor
  · rintro ⟨next, events, hstep, last', more, hrun, heq⟩
    cases heq
    exact ⟨next, events, more, hstep, hrun, rfl⟩
  · rintro ⟨next, events, more, hstep, hrun, rfl⟩
    exact ⟨next, events, hstep, last, more, hrun, rfl⟩

theorem run_append {before after : List Char} {events more : List (HtmlEvent Empty)}
    (hbefore : s.run before = some (next, events)) (hafter : next.run after = some (last, more)) :
    s.run (before ++ after) = some (last, events ++ more) := by
  induction before generalizing s events with
  | nil =>
      cases hbefore
      exact hafter
  | cons c rest ih =>
      obtain ⟨first, told, later, hstep, hrest, hevents⟩ := run_cons.mp hbefore
      dsimp only at hrest hevents
      rw [hevents, List.append_assoc]
      exact run_cons.mpr ⟨first, told, later ++ more, hstep, ih hrest, rfl⟩

/-! ### Escaped values -/

/-- In text an escaped character is read as itself. -/
theorem run_escapeHtmlChar_data (c : Char) :
    HtmlState.run .data (escapeHtmlChar c) = some (.data, [.text (.char c)]) := by
  unfold escapeHtmlChar
  split
  next h => subst h; decide
  next hamp =>
  split
  next h => subst h; decide
  next hlt =>
  split
  next h => subst h; decide
  next =>
  split
  next h => subst h; decide
  next =>
  split
  next h => subst h; decide
  next => simp [HtmlState.run, HtmlState.step, hamp, hlt]

theorem run_escapeHtmlChar_value (c : Char) :
    HtmlState.run .attributeValue (escapeHtmlChar c) =
      some (.attributeValue, [.value (.char (valueChar c))]) := by
  unfold escapeHtmlChar
  split
  next h => subst h; decide
  next hamp =>
  split
  next h => subst h; decide
  next =>
  split
  next h => subst h; decide
  next =>
  split
  next h => subst h; decide
  next hquote =>
  split
  next h => subst h; decide
  next => simp [HtmlState.run, HtmlState.step, hamp, hquote]

theorem run_escapeHtml_data (chars : List Char) :
    HtmlState.run .data (chars.flatMap escapeHtmlChar) =
      some (.data, chars.map fun c => .text (.char c)) := by
  induction chars with
  | nil => rfl
  | cons c rest ih => exact run_append (run_escapeHtmlChar_data c) ih

theorem run_escapeHtml_value (chars : List Char) :
    HtmlState.run .attributeValue (chars.flatMap escapeHtmlChar) =
      some (.attributeValue, chars.map fun c => .value (.char (valueChar c))) := by
  induction chars with
  | nil => rfl
  | cons c rest ih => exact run_append (run_escapeHtmlChar_value c) ih

/-! ### Rendered templates -/

theorem run_piece {piece : HtmlPiece φ} {events : List (HtmlEvent φ)} (value : φ → String)
    (hpiece : s.runPiece piece = some (next, events)) :
    s.run (piece.render value) =
      some (next, events.flatMap (HtmlEvent.fill fun f => (value f).toList)) := by
  cases piece with
  | markup text =>
      obtain ⟨told, hrun, heq⟩ := Option.map_eq_some_iff.mp hpiece
      cases heq
      simp only [HtmlPiece.render, hrun, List.flatMap_map, HtmlEvent.fill_lift,
        List.flatMap_singleton']
  | field f =>
      simp only [HtmlState.runPiece] at hpiece
      split at hpiece
      next hdata =>
        cases hpiece
        subst hdata
        simp only [HtmlPiece.render, escapeHtml, run_escapeHtml_data, List.flatMap_singleton,
          HtmlEvent.fill, HtmlAtom.fill, List.map_map]
        rfl
      next =>
        split at hpiece
        next hvalue =>
          cases hpiece
          subst hvalue
          simp only [HtmlPiece.render, escapeHtml, run_escapeHtml_value, List.flatMap_singleton,
            HtmlEvent.fill, HtmlAtom.fill, inValue, List.map_map]
          rfl
        next => cases hpiece

/-- What is told of a text made of a template is what is told of the template, with
the values filled in. -/
theorem run_render {template : HtmlTemplate φ} {events : List (HtmlEvent φ)} (value : φ → String)
    (htemplate : s.runPieces template = some (last, events)) :
    s.run (HtmlTemplate.render value template) =
      some (last, events.flatMap (HtmlEvent.fill fun f => (value f).toList)) := by
  induction template generalizing s events with
  | nil =>
      cases htemplate
      rfl
  | cons piece rest ih =>
      simp only [HtmlState.runPieces, Option.bind_eq_bind, Option.bind_eq_some_iff,
        Prod.exists] at htemplate
      obtain ⟨next, told, hpiece, last', more, hrest, heq⟩ := htemplate
      cases heq
      rw [List.flatMap_append]
      exact run_append (run_piece value hpiece) (ih hrest)

/-! ### Filled tags -/

theorem valueOf_texts (atoms : List (HtmlAtom Empty)) (rest : List (HtmlEvent Empty)) :
    valueOf (atoms.map .text ++ rest) = valueOf rest := by
  induction atoms with
  | nil => rfl
  | cons atom more ih => exact ih

theorem valueOf_values (atoms : List (HtmlAtom Empty)) (rest : List (HtmlEvent Empty)) :
    valueOf (atoms.map .value ++ rest) = atoms ++ valueOf rest := by
  induction atoms with
  | nil => rfl
  | cons atom more ih => exact congrArg (atom :: ·) ih

theorem attributesOf_texts (atoms : List (HtmlAtom Empty)) (rest : List (HtmlEvent Empty)) :
    attributesOf (atoms.map .text ++ rest) = attributesOf rest := by
  induction atoms with
  | nil => rfl
  | cons atom more ih => exact ih

theorem attributesOf_values (atoms : List (HtmlAtom Empty)) (rest : List (HtmlEvent Empty)) :
    attributesOf (atoms.map .value ++ rest) = attributesOf rest := by
  induction atoms with
  | nil => rfl
  | cons atom more ih => exact ih

theorem openTags_texts (atoms : List (HtmlAtom Empty)) (rest : List (HtmlEvent Empty)) :
    openTags (atoms.map .text ++ rest) = openTags rest := by
  induction atoms with
  | nil => rfl
  | cons atom more ih => exact ih

theorem openTags_values (atoms : List (HtmlAtom Empty)) (rest : List (HtmlEvent Empty)) :
    openTags (atoms.map .value ++ rest) = openTags rest := by
  induction atoms with
  | nil => rfl
  | cons atom more ih => exact ih

section Filled

variable (value : φ → List Char) (events : List (HtmlEvent φ))

theorem valueOf_fill : valueOf (events.flatMap (HtmlEvent.fill value)) =
    (valueOf events).flatMap (HtmlAtom.fill (inValue value)) := by
  induction events with
  | nil => rfl
  | cons event rest ih =>
      cases event with
      | value atom =>
          rw [List.flatMap_cons, HtmlEvent.fill, valueOf_values, ih, valueOf, List.flatMap_cons]
      | text atom => rw [List.flatMap_cons, HtmlEvent.fill, valueOf_texts, ih, valueOf]
      | _ => rfl

theorem attributesOf_fill : attributesOf (events.flatMap (HtmlEvent.fill value)) =
    (attributesOf events).map fun pair =>
      (pair.1, pair.2.flatMap (HtmlAtom.fill (inValue value))) := by
  induction events with
  | nil => rfl
  | cons event rest ih =>
      cases event with
      | names name =>
          rw [List.flatMap_cons, HtmlEvent.fill, List.singleton_append, attributesOf, attributesOf,
            List.map_cons, ih, valueOf_fill]
      | value atom => rw [List.flatMap_cons, HtmlEvent.fill, attributesOf_values, ih, attributesOf]
      | text atom => rw [List.flatMap_cons, HtmlEvent.fill, attributesOf_texts, ih, attributesOf]
      | _ => rfl

theorem openTags_fill : openTags (events.flatMap (HtmlEvent.fill value)) =
    (openTags events).map (HtmlTag.fill value) := by
  induction events with
  | nil => rfl
  | cons event rest ih =>
      cases event with
      | opens name =>
          rw [List.flatMap_cons, HtmlEvent.fill, List.singleton_append, openTags, openTags,
            List.map_cons, ih, HtmlTag.fill, attributesOf_fill]
      | value atom => exact (openTags_values _ _).trans ih
      | text atom => exact (openTags_texts _ _).trans ih
      | _ => exact ih

end Filled

/-! ### Line breaks -/

theorem normalizeNewlines_append_of_not_mem {before : List Char} (hbefore : '\r' ∉ before)
    (after : List Char) :
    normalizeNewlines (before ++ after) = before ++ normalizeNewlines after := by
  induction before with
  | nil => rfl
  | cons c rest ih =>
      rw [List.mem_cons, not_or] at hbefore
      have hrest := ih hbefore.2
      rw [List.cons_append, normalizeNewlines, hrest, List.cons_append]
      · rintro more rfl
        exact absurd rfl hbefore.1
      · rintro rfl
        exact absurd rfl hbefore.1

theorem getLast?_cons_of {c last : Char} {rest : List Char} (hrest : rest.getLast? = some last) :
    (c :: rest).getLast? = some last := by
  rw [List.getLast?_cons, hrest, Option.getD_some]

/-- A line break that is not cut in two is the same on its own. -/
theorem normalizeNewlines_append (before : List Char) {after : List Char}
    (hcut : before.getLast? ≠ some '\r' ∨ after.head? ≠ some '\n') :
    normalizeNewlines (before ++ after) = normalizeNewlines before ++ normalizeNewlines after := by
  fun_induction normalizeNewlines before with
  | case1 rest ih =>
      refine congrArg ('\n' :: ·) (ih (hcut.imp_left fun hlast hrest => hlast ?_))
      exact getLast?_cons_of (getLast?_cons_of hrest)
  | case2 rest hrest ih =>
      have hnext : ∀ more, rest ++ after ≠ '\n' :: more := by
        intro more hmore
        cases rest with
        | nil =>
            rw [List.nil_append] at hmore
            rcases hcut with hlast | hhead
            · exact hlast rfl
            · exact hhead (by rw [hmore, List.head?_cons])
        | cons c rest => exact hrest rest (by rw [(List.cons.inj hmore).1])
      rw [List.cons_append, normalizeNewlines, ih, List.cons_append]
      · exact hcut.imp_left fun hlast hrest => hlast (getLast?_cons_of hrest)
      · exact hnext
  | case3 c rest hbreak hreturn ih =>
      rw [List.cons_append, normalizeNewlines, ih, List.cons_append]
      · exact hcut.imp_left fun hlast hrest => hlast (getLast?_cons_of hrest)
      · intro more hc
        exact absurd hc hreturn
      · exact hreturn
  | case4 => rfl

theorem escapeHtmlChar_head (c : Char) : (escapeHtmlChar c).head? = some c ∨
    (escapeHtmlChar c).head? = some '&' := by
  unfold escapeHtmlChar
  split
  next => exact .inr rfl
  next =>
  split
  next => exact .inr rfl
  next =>
  split
  next => exact .inr rfl
  next =>
  split
  next => exact .inr rfl
  next =>
  split
  next => exact .inr rfl
  next => exact .inl rfl

theorem not_mem_escapeHtmlChar {c : Char} (hc : c ≠ '\r') : '\r' ∉ escapeHtmlChar c := by
  unfold escapeHtmlChar
  split
  next => decide
  next =>
  split
  next => decide
  next =>
  split
  next => decide
  next =>
  split
  next => decide
  next =>
  split
  next => decide
  next => simpa using hc.symm

/-- No escape begins with a line feed. -/
theorem head_escapeHtml {chars : List Char} (hchars : chars.head? ≠ some '\n') :
    (chars.flatMap escapeHtmlChar).head? ≠ some '\n' := by
  cases chars with
  | nil => exact hchars
  | cons c rest =>
      rw [List.flatMap_cons]
      rcases escapeHtmlChar_head c with hhead | hhead <;>
        obtain ⟨more, hmore⟩ := List.head?_eq_some_iff.mp hhead <;> rw [hmore]
      · exact hchars
      · exact fun heq => absurd (Option.some.inj heq) (by decide)

theorem normalizeNewlines_escape (chars : List Char) :
    normalizeNewlines (chars.flatMap escapeHtmlChar) =
      (normalizeNewlines chars).flatMap escapeHtmlChar := by
  fun_induction normalizeNewlines chars with
  | case1 rest ih => exact congrArg ('\n' :: ·) ih
  | case2 rest hrest ih =>
      have hhead : rest.head? ≠ some '\n' := by
        intro hhead
        obtain ⟨more, hmore⟩ := List.head?_eq_some_iff.mp hhead
        exact hrest more hmore
      have hreturn : normalizeNewlines ('\r' :: rest.flatMap escapeHtmlChar) =
          '\n' :: normalizeNewlines (rest.flatMap escapeHtmlChar) :=
        normalizeNewlines_append ['\r'] (.inr (head_escapeHtml hhead))
      exact hreturn.trans (congrArg ('\n' :: ·) ih)
  | case3 c rest hbreak hreturn ih =>
      rw [List.flatMap_cons, normalizeNewlines_append_of_not_mem
        (not_mem_escapeHtmlChar hreturn), ih, List.flatMap_cons]
  | case4 => rfl

/-- A text made of a template has the line breaks of its values. -/
theorem normalizeNewlines_render {template : HtmlTemplate φ} (value : φ → String)
    (hseparates : HtmlTemplate.separates template = true) :
    normalizeNewlines (HtmlTemplate.render value template) =
      HtmlTemplate.render (fun f => .ofList (normalizeNewlines (value f).toList)) template := by
  have hfield : ∀ f, normalizeNewlines (escapeHtml (value f)) =
      escapeHtml (.ofList (normalizeNewlines (value f).toList)) := by
    intro f
    rw [escapeHtml, normalizeNewlines_escape, escapeHtml, String.toList_ofList]
  fun_induction HtmlTemplate.separates template with
  | case1 => rfl
  | case2 text rest ih =>
      simp only [Bool.and_eq_true, decide_eq_true_eq] at hseparates
      exact (normalizeNewlines_append_of_not_mem hseparates.1 _).trans
        (congrArg (text.toList ++ ·) (ih hseparates.2))
  | case3 f =>
      simp only [HtmlTemplate.render, List.flatMap_singleton, HtmlPiece.render, hfield]
  | case4 f text rest ih =>
      simp only [Bool.and_eq_true] at hseparates
      obtain ⟨hhead, hrest⟩ := hseparates
      have hnext : (HtmlTemplate.render value (.markup text :: rest)).head? ≠ some '\n' := by
        cases hc : text.toList.head? with
        | none =>
            rw [hc] at hhead
            cases hhead
        | some c =>
            obtain ⟨more, hmore⟩ := List.head?_eq_some_iff.mp hc
            rw [hc, Option.any_some, decide_eq_true_eq] at hhead
            rw [HtmlTemplate.render, List.flatMap_cons, HtmlPiece.render, hmore]
            rintro ⟨⟩
            exact hhead (by decide)
      have hsplit := normalizeNewlines_append (escapeHtml (value f)) (.inr hnext)
      rw [hfield, ih hrest] at hsplit
      exact hsplit
  | case5 => cases hseparates

/-! ### Templates are tokenized once -/

/-- The opening tags of a template, with its fields as they are. -/
def templateTags (template : HtmlTemplate φ) : Option (List (HtmlTag φ)) :=
  if HtmlTemplate.separates template then
    (HtmlState.runPieces .data template).bind fun told =>
      if told.1 = .data then some (openTags told.2) else none
  else none

/-- A text made of a template has the template's tags, with the values of the fields
in place: no value can add a tag or an attribute or end one. -/
theorem parseTags_render {template : HtmlTemplate φ} {tags : List (HtmlTag φ)}
    (htags : templateTags template = some tags) (value : φ → String) :
    parseTags (HtmlTemplate.render value template) =
      some (tags.map (HtmlTag.fill fun f => normalizeNewlines (value f).toList)) := by
  unfold templateTags at htags
  split at htags
  next hseparates =>
    obtain ⟨⟨last, events⟩, hrun, hlast⟩ := Option.bind_eq_some_iff.mp htags
    dsimp only at hlast
    split at hlast
    next hdata =>
      cases hlast
      have hrender := run_render (fun f => .ofList (normalizeNewlines (value f).toList)) hrun
      simp only [String.toList_ofList] at hrender
      rw [parseTags, normalizeNewlines_render value hseparates, hrender, Option.bind_some]
      dsimp only
      rw [if_pos hdata, openTags_fill]
    next => cases hlast
  next => cases htags

/-! ### Texts one after the other -/

/-- Inside of a tag, after its name. -/
def HtmlState.inTag : HtmlState → Bool
  | .beforeAttributeName | .attributeName _ | .beforeAttributeValue | .attributeValue
  | .afterAttributeValue | .selfClosing | .reference true _ => true
  | _ => false

/-- Every tag that is opened is ended. -/
def tagsClosed : List (HtmlEvent Empty) → Prop
  | .opens _ :: rest => .tagEnd ∈ rest ∧ tagsClosed rest
  | _ :: rest => tagsClosed rest
  | [] => True

theorem tagsClosed_append {events more : List (HtmlEvent Empty)} (hevents : tagsClosed events)
    (hmore : tagsClosed more) : tagsClosed (events ++ more) := by
  induction events with
  | nil => exact hmore
  | cons event rest ih =>
      cases event with
      | opens name => exact ⟨List.mem_append_left _ hevents.1, ih hevents.2⟩
      | _ => exact ih hevents

/-- What a step leaves open, and that it ends the tag it leaves. -/
theorem step_closed {c : Char} {events : List (HtmlEvent Empty)}
    (hstep : s.step c = some (next, events)) :
    (tagsClosed events ∨ next.inTag = true ∧ ∃ name, events = [.opens name]) ∧
      (s.inTag = true → next.inTag = false → .tagEnd ∈ events) := by
  cases s with
  | reference inValue seen =>
      simp only [HtmlState.step] at hstep
      split at hstep
      next =>
        obtain ⟨referenced, -, htold⟩ := Option.map_eq_some_iff.mp hstep
        cases inValue <;> cases htold
        · exact ⟨.inl trivial, nofun⟩
        · exact ⟨.inl trivial, nofun⟩
      next =>
        split at hstep <;> cases hstep
        cases inValue
        · exact ⟨.inl trivial, nofun⟩
        · exact ⟨.inl trivial, nofun⟩
  | tagName closing name =>
      simp only [HtmlState.step] at hstep
      split at hstep
      next =>
        cases hstep
        exact ⟨.inl trivial, nofun⟩
      next =>
      split at hstep
      next => cases hstep
      next =>
      split at hstep
      next =>
        cases closing <;> cases hstep
        · exact ⟨.inl ⟨List.mem_singleton_self _, trivial⟩, nofun⟩
        · exact ⟨.inl trivial, nofun⟩
      next =>
      split at hstep <;> cases hstep
      exact ⟨.inr ⟨rfl, name, rfl⟩, nofun⟩
  | data | tagOpen | endTagOpen | beforeAttributeName | attributeName | beforeAttributeValue
  | attributeValue | afterAttributeValue | selfClosing =>
      simp only [HtmlState.step] at hstep
      repeat' (first | cases hstep | split at hstep)
      all_goals exact ⟨.inl trivial, by simp [HtmlState.inTag]⟩

theorem run_closed {chars : List Char} {events : List (HtmlEvent Empty)}
    (hrun : s.run chars = some (last, events)) (hlast : last.inTag = false) :
    tagsClosed events ∧ (s.inTag = true → .tagEnd ∈ events) := by
  induction chars generalizing s events with
  | nil =>
      cases hrun
      exact ⟨trivial, fun hin => absurd hin (by simp [hlast])⟩
  | cons c rest ih =>
      obtain ⟨next, told, more, hstep, hrest, rfl⟩ := run_cons.mp hrun
      obtain ⟨hclosed, hends⟩ := ih hrest
      obtain ⟨htold, htoldEnds⟩ := step_closed hstep
      constructor
      · rcases htold with htold | ⟨hin, name, rfl⟩
        · exact tagsClosed_append htold hclosed
        · exact ⟨hends hin, hclosed⟩
      · intro hin
        cases hnext : next.inTag with
        | true => exact List.mem_append_right _ (hends hnext)
        | false => exact List.mem_append_left _ (htoldEnds hin hnext)

theorem attributesOf_append {events : List (HtmlEvent Empty)} (hend : .tagEnd ∈ events)
    (more : List (HtmlEvent Empty)) :
    valueOf (events ++ more) = valueOf events ∧
      attributesOf (events ++ more) = attributesOf events := by
  induction events with
  | nil => cases hend
  | cons event rest ih =>
      have hrest : event ≠ .tagEnd → .tagEnd ∈ rest := fun hne =>
        (List.mem_cons.mp hend).resolve_left hne.symm
      cases event with
      | tagEnd | closes | opens => exact ⟨rfl, rfl⟩
      | value atom =>
          obtain ⟨hvalue, hattributes⟩ := ih (hrest nofun)
          exact ⟨congrArg (atom :: ·) hvalue, hattributes⟩
      | text => exact ih (hrest nofun)
      | names name =>
          obtain ⟨hvalue, hattributes⟩ := ih (hrest nofun)
          rw [List.cons_append, attributesOf, attributesOf, hvalue, hattributes]
          exact ⟨rfl, rfl⟩

theorem openTags_append {events : List (HtmlEvent Empty)} (hclosed : tagsClosed events)
    (more : List (HtmlEvent Empty)) :
    openTags (events ++ more) = openTags events ++ openTags more := by
  induction events with
  | nil => rfl
  | cons event rest ih =>
      cases event with
      | opens name =>
          rw [List.cons_append, openTags, openTags, ih hclosed.2,
            (attributesOf_append hclosed.1 more).2, List.cons_append]
      | _ => exact ih hclosed

/-- The tags of two texts are those of one after the other. -/
theorem parseTags_append {before after : List Char} {tags more : List (HtmlTag Empty)}
    (hbefore : parseTags before = some tags) (hcut : before.getLast? ≠ some '\r')
    (hafter : parseTags after = some more) : parseTags (before ++ after) = some (tags ++ more) := by
  obtain ⟨⟨last, events⟩, hrun, hlast⟩ := Option.bind_eq_some_iff.mp hbefore
  obtain ⟨⟨last', events'⟩, hrun', hlast'⟩ := Option.bind_eq_some_iff.mp hafter
  simp only [Option.ite_none_right_eq_some, Option.some.injEq] at hlast hlast'
  obtain ⟨rfl, rfl⟩ := hlast
  obtain ⟨rfl, rfl⟩ := hlast'
  rw [parseTags, normalizeNewlines_append before (.inl hcut), run_append hrun hrun',
    Option.bind_some]
  dsimp only
  rw [if_pos rfl, openTags_append (run_closed hrun rfl).1]

theorem parseTags_flatMap {α : Type u} {rows : List α} {row : α → List Char}
    {tags : α → List (HtmlTag Empty)}
    (hrows : ∀ r ∈ rows, parseTags (row r) = some (tags r) ∧ (row r).getLast? ≠ some '\r') :
    parseTags (rows.flatMap row) = some (rows.flatMap tags) := by
  induction rows with
  | nil => rfl
  | cons r rest ih =>
      obtain ⟨hparse, hcut⟩ := hrows r List.mem_cons_self
      exact parseTags_append hparse hcut
        (ih fun other hother => hrows other (List.mem_cons_of_mem _ hother))

end Runs

/-! ### Templates in parts -/

/-- The last character is markup, and no carriage return. -/
def HtmlTemplate.endsPlain (template : HtmlTemplate φ) : Bool :=
  match template.getLast? with
  | some (.markup text) => text.toList.getLast?.any (· ≠ '\r')
  | some (.field _) => false
  | none => true

/-- A part that begins and ends outside of tags. -/
def HtmlTemplate.isWhole (template : HtmlTemplate φ) : Bool :=
  (templateTags template).isSome && template.endsPlain

def HtmlTemplate.tags (template : HtmlTemplate φ) : List (HtmlTag φ) :=
  (templateTags template).getD []

/-- A value as a quoted attribute has it. -/
def shownText (s : String) : String := .ofList ((normalizeNewlines s.toList).map valueChar)

theorem not_mem_normalizeNewlines (chars : List Char) : '\r' ∉ normalizeNewlines chars := by
  fun_induction normalizeNewlines chars with
  | case1 rest ih => exact List.not_mem_cons_of_ne_of_not_mem (by decide) ih
  | case2 rest hrest ih => exact List.not_mem_cons_of_ne_of_not_mem (by decide) ih
  | case3 c rest hbreak hreturn ih =>
      exact List.not_mem_cons_of_ne_of_not_mem (fun hc => hreturn hc.symm) ih
  | case4 => exact List.not_mem_nil

/-- A text is shown as it is where it has no carriage return and no null character. -/
theorem shownText_eq_iff (s : String) :
    shownText s = s ↔ '\r' ∉ s.toList ∧ '\x00' ∉ s.toList := by
  rw [← String.toList_inj, shownText, String.toList_ofList]
  constructor
  · intro heq
    rw [← heq]
    simp only [List.mem_map, not_exists, not_and]
    refine ⟨fun c hc hvalue => ?_, fun c hc hvalue => ?_⟩
    · unfold valueChar at hvalue
      split at hvalue
      next => exact absurd hvalue (by decide)
      next => exact not_mem_normalizeNewlines _ (hvalue ▸ hc)
    · unfold valueChar at hvalue
      split at hvalue
      next => exact absurd hvalue (by decide)
      next hnull => exact hnull hvalue
  · rintro ⟨hreturn, hnull⟩
    have hlines : normalizeNewlines s.toList = s.toList := by
      have happend := normalizeNewlines_append_of_not_mem hreturn []
      rwa [List.append_nil, normalizeNewlines, List.append_nil] at happend
    rw [hlines]
    refine (List.map_congr_left fun c hc => ?_).trans (List.map_id _)
    exact if_neg fun (hzero : c = '\x00') => hnull (hzero ▸ hc)

section Parts

variable {value : φ → String}

theorem getLast?_render {template : HtmlTemplate φ} (hends : template.endsPlain = true) :
    (template.render value).getLast? ≠ some '\r' := by
  unfold HtmlTemplate.endsPlain at hends
  split at hends
  next text hlast =>
    obtain ⟨init, rfl⟩ := List.getLast?_eq_some_iff.mp hlast
    have hrender : HtmlTemplate.render value (init ++ [.markup text]) =
        HtmlTemplate.render value init ++ text.toList := by
      rw [HtmlTemplate.render, List.flatMap_append, List.flatMap_singleton]
      rfl
    obtain ⟨c, hc, hreturn⟩ := (Option.any_eq_true _ _).mp hends
    rw [hrender, List.getLast?_append, hc, Option.some_or]
    exact fun heq => (of_decide_eq_true hreturn) (Option.some.inj heq)
  next => cases hends
  next hnone =>
    rw [List.getLast?_eq_none_iff.mp hnone]
    exact nofun

theorem render_flatten (parts : List (HtmlTemplate φ)) :
    HtmlTemplate.render value parts.flatten = parts.flatMap (HtmlTemplate.render value) := by
  induction parts with
  | nil => rfl
  | cons part rest ih =>
      rw [List.flatten_cons, HtmlTemplate.render, List.flatMap_append, List.flatMap_cons, ← ih]
      rfl

/-- The tags of a text in parts are those of its parts. -/
theorem parseTags_parts {parts : List (HtmlTemplate φ)}
    (hparts : ∀ part ∈ parts, part.isWhole = true) :
    parseTags (HtmlTemplate.render value parts.flatten) = some ((parts.flatMap
      HtmlTemplate.tags).map (HtmlTag.fill fun f => normalizeNewlines (value f).toList)) := by
  rw [render_flatten, List.map_flatMap]
  refine parseTags_flatMap fun part hpart => ?_
  obtain ⟨hsome, hends⟩ := (Bool.and_eq_true ..).mp (hparts part hpart)
  obtain ⟨tags, htags⟩ := Option.isSome_iff_exists.mp hsome
  refine ⟨?_, getLast?_render hends⟩
  rw [parseTags_render htags, HtmlTemplate.tags, htags, Option.getD_some]

theorem getLast?_parts {parts : List (HtmlTemplate φ)}
    (hparts : ∀ part ∈ parts, part.isWhole = true) :
    (HtmlTemplate.render value parts.flatten).getLast? ≠ some '\r' := by
  rw [render_flatten]
  induction parts with
  | nil => exact nofun
  | cons part rest ih =>
      obtain ⟨hpart, hrest⟩ := List.forall_mem_cons.mp hparts
      rw [List.flatMap_cons, List.getLast?_append]
      intro heq
      rcases Option.or_eq_some_iff.mp heq with heq | ⟨-, heq⟩
      · exact ih hrest heq
      · exact getLast?_render ((Bool.and_eq_true ..).mp hpart).2 heq

end Parts

end GpuCluster.Foundation
