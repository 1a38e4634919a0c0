import GpuCluster.Foundation.Text
import Mathlib.Data.List.Basic

/-! # Paths

How paths are joined and given another extension, and where they lead. They are
resolved component by component, as far as their text goes: `..` takes back the
component before it, and no component is a symbolic link. The position reached is
the list of components below the root.
-/

namespace GpuCluster.Foundation

/-! ## Paths as texts -/

/-- `Path::join`: an absolute path replaces the directory. -/
def joinPath (directory path : String) : String :=
  if path.toList.head? = some '/' then path
  else if directory = "" ∨ directory.toList.getLast? = some '/' then directory ++ path
  else directory ++ "/" ++ path

/-- The slashes and dots that `Path::components` skips at the end of a path, from the end. -/
def dropCurrent : List Char → List Char
  | '/' :: reversed => dropCurrent reversed
  | '.' :: '/' :: reversed => dropCurrent reversed
  | reversed => reversed

/-- `Path::with_extension`: what follows the last dot of the file name is replaced, unless
the name starts with that dot. A path without a file name stays as it is. A name `..x`
becomes `..` and the new extension here, as `set_extension` has it; the library cuts the old
extension off first and then finds no file name in `..`, which it keeps. -/
def withExtension (extension path : String) : String :=
  let reversed := dropCurrent path.toList.reverse
  let name := reversed.takeWhile (· ≠ '/')
  if name ∈ [[], ['.'], ['.', '.']] then path
  else
    let stem :=
      match name.dropWhile (· ≠ '.') with
      | '.' :: before => if before = [] then name else before
      | _ => name
    .ofList ((reversed.dropWhile (· ≠ '/')).reverse ++ stem.reverse ++ '.' :: extension.toList)

example : withExtension "partial" "/var/models/llama.Q4.gguf" = "/var/models/llama.Q4.partial" := by
  decide

/-! ## Components -/

/-- A component that is a name. -/
abbrev IsNormal (component : List Char) : Prop := component ∉ [[], ['.'], ['.', '.']]

theorem isNormal_reverse {component : List Char} :
    IsNormal component.reverse ↔ IsNormal component := by
  simp [IsNormal, List.reverse_eq_iff]

/-- One component of a path, taken from a position. -/
def stepInto (position : List (List Char)) (component : List Char) : List (List Char) :=
  if component = [] ∨ component = ['.'] then position
  else if component = ['.', '.'] then position.dropLast
  else position ++ [component]

def walk (position : List (List Char)) (path : List Char) : List (List Char) :=
  (path.splitOn '/').foldl stepInto position

/-- Where a path starts: at the root, or at the working directory. -/
def startOf (cwd : List (List Char)) (path : String) : List (List Char) :=
  if path.toList.head? = some '/' then [] else cwd

def resolve (cwd : List (List Char)) (path : String) : List (List Char) :=
  walk (startOf cwd path) path.toList

/-- The path up to its file name, if the slashes and dots at its end are skipped. -/
def beforeName (path : String) : List Char :=
  ((dropCurrent path.toList.reverse).dropWhile (· ≠ '/')).reverse

/-- What is left of a path after its last slash, those at its end skipped. -/
def nameChars (path : String) : List Char :=
  ((dropCurrent path.toList.reverse).takeWhile (· ≠ '/')).reverse

/-- `Path::file_name` is `None`. -/
def hasFileName (path : String) : Bool := IsNormal (nameChars path)

/-- Where the directory of the file name is. -/
def parentOf (cwd : List (List Char)) (path : String) : List (List Char) :=
  walk (startOf cwd path) (beforeName path)

/-- The operating system makes, removes and finds regular files under such paths only:
no NUL, and a name at the end. -/
def canNameFile (path : String) : Bool :=
  Char.ofNat 0 ∉ path.toList && IsNormal (path.toList.reverse.takeWhile (· ≠ '/')).reverse

theorem walk_append_slash (position : List (List Char)) (path rest : List Char) :
    walk position (path ++ '/' :: rest) = walk (walk position path) rest := by
  rw [walk, List.splitOn_append_cons_self, List.foldl_append]
  rfl

theorem walk_of_not_mem (position : List (List Char)) {name : List Char} (hname : '/' ∉ name) :
    walk position name = stepInto position name := by
  rw [walk, List.splitOn_eq_singleton hname]
  rfl

/-- A prefix that is empty or ends with a slash. -/
def IsDirectory (before : List Char) : Prop := before = [] ∨ ∃ path, before = path ++ ['/']

theorem walk_append {before : List Char} (hbefore : IsDirectory before)
    (position : List (List Char)) (name : List Char) :
    walk position (before ++ name) = walk (walk position before) name := by
  rcases hbefore with rfl | ⟨path, rfl⟩
  · rfl
  · have hslash : walk position (path ++ ['/']) = walk position path := by
      rw [walk_append_slash]
      rfl
    rw [hslash, List.append_assoc, List.singleton_append, walk_append_slash]

/-- The slashes and dots that are skipped at the end lead nowhere else. -/
theorem walk_dropCurrent (position : List (List Char)) (reversed : List Char) :
    walk position reversed.reverse = walk position (dropCurrent reversed).reverse := by
  fun_induction dropCurrent reversed with
  | case1 rest ih =>
      rw [List.reverse_cons, walk_append_slash, ← ih]
      rfl
  | case2 rest ih =>
      rw [List.reverse_cons, List.reverse_cons, List.append_assoc, List.singleton_append,
        walk_append_slash, ← ih]
      rfl
  | case3 => rfl

theorem isDirectory_beforeName (path : String) : IsDirectory (beforeName path) := by
  unfold beforeName
  cases hrest : (dropCurrent path.toList.reverse).dropWhile (· ≠ '/') with
  | nil => exact .inl rfl
  | cons c rest =>
      have hslash : c = '/' := by
        have hhead := List.head?_dropWhile_not (· ≠ '/') (dropCurrent path.toList.reverse)
        rw [hrest] at hhead
        simpa using hhead
      subst hslash
      exact .inr ⟨rest.reverse, List.reverse_cons⟩

theorem beforeName_append_nameChars (path : String) :
    beforeName path ++ nameChars path = (dropCurrent path.toList.reverse).reverse := by
  rw [beforeName, nameChars, ← List.reverse_append, List.takeWhile_append_dropWhile]

theorem slash_not_mem_nameChars (path : String) : '/' ∉ nameChars path := by
  intro hmem
  have hslash := List.mem_takeWhile_imp (List.mem_reverse.mp hmem)
  simp at hslash

theorem stepInto_of_isNormal (position : List (List Char)) {name : List Char}
    (hname : IsNormal name) : stepInto position name = position ++ [name] := by
  simp only [IsNormal, List.mem_cons, List.not_mem_nil, or_false, not_or] at hname
  rw [stepInto, if_neg (not_or.mpr ⟨hname.1, hname.2.1⟩), if_neg hname.2.2]

/-- A path with a file name leads to that name in its directory. -/
theorem resolve_eq (cwd : List (List Char)) {path : String} (hname : hasFileName path) :
    resolve cwd path = parentOf cwd path ++ [nameChars path] := by
  rw [resolve, ← List.reverse_reverse path.toList, walk_dropCurrent,
    ← beforeName_append_nameChars, walk_append (isDirectory_beforeName path),
    walk_of_not_mem _ (slash_not_mem_nameChars path)]
  exact stepInto_of_isNormal _ (decide_eq_true_eq.mp hname)

/-- A path that is a directory's with a name put behind it. -/
theorem resolve_of_append (cwd : List (List Char)) {path : String} {before name : List Char}
    (hpath : path.toList = before ++ name) (hbefore : IsDirectory before) (hslash : '/' ∉ name)
    (hname : IsNormal name) :
    resolve cwd path = walk (startOf cwd path) before ++ [name] := by
  rw [resolve, hpath, walk_append hbefore, walk_of_not_mem _ hslash,
    stepInto_of_isNormal _ hname]

theorem takeWhile_of_append {before name : List Char} (hbefore : IsDirectory before)
    (hslash : '/' ∉ name) :
    ((before ++ name).reverse.takeWhile (· ≠ '/')).reverse = name := by
  have hall : ∀ c ∈ name.reverse, decide (c ≠ '/') = true := by
    intro c hc
    rw [decide_eq_true_eq]
    rintro rfl
    exact hslash (List.mem_reverse.mp hc)
  rw [List.reverse_append, List.takeWhile_append_of_pos hall]
  rcases hbefore with rfl | ⟨path, rfl⟩ <;> simp

/-- A path that ends with a name has nothing to skip. -/
theorem dropCurrent_of_isNormal {reversed : List Char}
    (hlast : IsNormal (reversed.takeWhile (· ≠ '/')).reverse) :
    dropCurrent reversed = reversed := by
  unfold dropCurrent
  split
  next => simp [IsNormal] at hlast
  next => simp [IsNormal] at hlast
  next => rfl

/-- A path that can name a file has a file name. -/
theorem hasFileName_of_canNameFile {path : String} (hfile : canNameFile path) :
    hasFileName path := by
  simp only [canNameFile, Bool.and_eq_true, decide_eq_true_eq] at hfile
  rw [hasFileName, nameChars, dropCurrent_of_isNormal hfile.2, decide_eq_true_eq]
  exact hfile.2

theorem nul_not_mem_of_canNameFile {path : String} (hfile : canNameFile path) :
    Char.ofNat 0 ∉ path.toList := by
  simp only [canNameFile, Bool.and_eq_true, decide_eq_true_eq] at hfile
  exact hfile.1

/-! ## Another extension -/

theorem dropCurrent_suffix (reversed : List Char) : dropCurrent reversed <:+ reversed := by
  fun_induction dropCurrent reversed with
  | case1 rest ih => exact ih.trans (List.suffix_cons ..)
  | case2 rest ih => exact ih.trans ((List.suffix_cons ..).trans (List.suffix_cons ..))
  | case3 => exact List.suffix_rfl

theorem beforeName_begins (path : String) :
    beforeName path ++ nameChars path <+: path.toList := by
  rw [beforeName_append_nameChars]
  have hbegins := List.reverse_prefix.mpr (dropCurrent_suffix path.toList.reverse)
  rwa [List.reverse_reverse] at hbegins

theorem withExtension_of_no_name {extension path : String} (hname : ¬ hasFileName path) :
    withExtension extension path = path := by
  have hreversed : (dropCurrent path.toList.reverse).takeWhile (· ≠ '/') ∈
      [[], ['.'], ['.', '.']] := by
    rw [hasFileName, decide_eq_true_eq, nameChars, isNormal_reverse, not_not] at hname
    exact hname
  rw [withExtension]
  exact if_pos hreversed

/-- The new name keeps a part of the old one in front of the extension. -/
theorem withExtension_toList {path : String} (hname : hasFileName path) (extension : String) :
    ∃ stem, stem ≠ [] ∧ stem <+: nameChars path ∧
      (withExtension extension path).toList =
        beforeName path ++ (stem ++ '.' :: extension.toList) := by
  have hreversed : (dropCurrent path.toList.reverse).takeWhile (· ≠ '/') ∉
      [[], ['.'], ['.', '.']] := by
    rw [hasFileName, decide_eq_true_eq, nameChars, isNormal_reverse] at hname
    exact hname
  have hne : (dropCurrent path.toList.reverse).takeWhile (· ≠ '/') ≠ [] := by
    intro hnil
    rw [hnil] at hreversed
    exact hreversed (List.mem_cons_self ..)
  unfold withExtension
  dsimp only
  rw [if_neg hreversed, beforeName, nameChars]
  generalize (dropCurrent path.toList.reverse).takeWhile (· ≠ '/') = name at hne ⊢
  split
  next before hdots =>
    split
    next => exact ⟨name.reverse, by simpa using hne, List.prefix_rfl, by simp⟩
    next hbefore =>
      refine ⟨before.reverse, by simpa using hbefore, List.reverse_prefix.mpr ?_, by simp⟩
      exact (List.suffix_cons ..).trans (hdots ▸ List.dropWhile_suffix _)
  next => exact ⟨name.reverse, by simpa using hne, List.prefix_rfl, by simp⟩

section Named

variable {path extension : String} (hname : hasFileName path) (hslash : '/' ∉ extension.toList)
  (hne : extension ≠ "")

include hname

theorem nameChars_ne_nil : nameChars path ≠ [] := by
  intro hnil
  rw [hasFileName, hnil] at hname
  exact absurd hname (by decide)

/-- The root stays the root. -/
theorem startOf_withExtension (cwd : List (List Char)) (extension : String) :
    startOf cwd (withExtension extension path) = startOf cwd path := by
  obtain ⟨stem, hstem, hbegins, htext⟩ := withExtension_toList hname extension
  obtain ⟨rest, hrest⟩ := beforeName_begins path
  have hhead : ∀ {name : List Char}, name ≠ [] → '/' ∉ name → name.head? ≠ some '/' := by
    intro name _ hslash hhead
    exact hslash (List.mem_of_mem_head? hhead)
  have hno := slash_not_mem_nameChars path
  have hstemHead := hhead hstem fun hmem => hno (hbegins.subset hmem)
  have hnameHead := hhead (nameChars_ne_nil hname) hno
  have hsame : (withExtension extension path).toList.head? = some '/' ↔
      path.toList.head? = some '/' := by
    rw [htext, ← hrest]
    cases beforeName path with
    | cons c before => rfl
    | nil =>
        rw [List.nil_append, List.nil_append, List.head?_append_of_ne_nil _ hstem,
          List.head?_append_of_ne_nil _ (nameChars_ne_nil hname)]
        exact iff_of_false hstemHead hnameHead
  simp only [startOf, hsame]

include hslash hne

/-- With another extension a path still leads into its directory, and to a file. -/
theorem withExtension_spec (cwd : List (List Char)) :
    ∃ stem, (withExtension extension path).toList =
        beforeName path ++ (stem ++ '.' :: extension.toList) ∧
      stem <+: nameChars path ∧
      resolve cwd (withExtension extension path) =
        parentOf cwd path ++ [stem ++ '.' :: extension.toList] ∧
      canNameFile (withExtension extension path) =
        decide (Char.ofNat 0 ∉ (withExtension extension path).toList) := by
  obtain ⟨stem, hstem, hbegins, htext⟩ := withExtension_toList hname extension
  have hextension : extension.toList ≠ [] := by simpa [String.toList_eq_nil_iff] using hne
  have hno : '/' ∉ stem ++ '.' :: extension.toList := by
    simp only [List.mem_append, List.mem_cons, not_or]
    exact ⟨fun hmem => slash_not_mem_nameChars path (hbegins.subset hmem), by decide, hslash⟩
  -- a stem, a dot and an extension: three characters at least
  have hnormal : IsNormal (stem ++ '.' :: extension.toList) := by
    have hlong : 2 < (stem ++ '.' :: extension.toList).length := by
      have hfirst := List.length_pos_iff.mpr hstem
      have hlast := List.length_pos_iff.mpr hextension
      simp only [List.length_append, List.length_cons]
      omega
    intro hmem
    simp only [List.mem_cons, List.not_mem_nil, or_false] at hmem
    rcases hmem with h | h | h <;> rw [h] at hlong <;> simp at hlong
  refine ⟨stem, htext, hbegins, ?_, ?_⟩
  · rw [resolve_of_append cwd htext (isDirectory_beforeName path) hno hnormal,
      startOf_withExtension hname]
    rfl
  · have hlast := takeWhile_of_append (isDirectory_beforeName path) hno
    rw [← htext] at hlast
    rw [canNameFile, hlast, decide_eq_true hnormal, Bool.and_true]

omit hslash hne in
theorem nul_not_mem_withExtension (hextension : Char.ofNat 0 ∉ extension.toList)
    (hpath : Char.ofNat 0 ∉ path.toList) :
    Char.ofNat 0 ∉ (withExtension extension path).toList := by
  obtain ⟨stem, -, hbegins, htext⟩ := withExtension_toList hname extension
  have hold : Char.ofNat 0 ∉ beforeName path ++ nameChars path :=
    fun hmem => hpath ((beforeName_begins path).subset hmem)
  rw [List.mem_append, not_or] at hold
  rw [htext]
  simp only [List.mem_append, List.mem_cons, not_or]
  exact ⟨hold.1, fun hmem => hold.2 (hbegins.subset hmem), by decide, hextension⟩

end Named

end GpuCluster.Foundation
