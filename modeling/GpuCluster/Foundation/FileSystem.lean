import Mathlib.Data.List.Basic
import Mathlib.Logic.Function.Basic

/-! # Directories, inodes and open files

A name leads to an inode, and an inode holds bytes. An open file writes to its
inode at its own offset, whatever happens to the name. No inode has two names.
-/

namespace GpuCluster.Foundation

universe u

structure FileSystem (ν : Type u) where
  entry : ν → Option ℕ
  content : ℕ → List UInt8
  /-- The inodes in use are below it. -/
  next : ℕ
  distinct : ∀ {a b : ν} {inode : ℕ}, entry a = some inode → entry b = some inode → a = b
  used : ∀ {a : ν} {inode : ℕ}, entry a = some inode → inode < next

/-- Bytes written at an offset. A gap before it is filled with zeros. -/
def overwrite (old : List UInt8) (offset : ℕ) (bytes : List UInt8) : List UInt8 :=
  old.take offset ++ List.replicate (offset - old.length) 0 ++ bytes ++
    old.drop (offset + bytes.length)

/-- At the end, bytes are appended. -/
theorem overwrite_length (old bytes : List UInt8) :
    overwrite old old.length bytes = old ++ bytes := by
  simp [overwrite]

namespace FileSystem

variable {ν : Type u} [DecidableEq ν]

def empty (ν : Type u) : FileSystem ν where
  entry _ := none
  content _ := []
  next := 0
  distinct h := by cases h
  used h := by cases h

/-- The bytes under a name. -/
def read (fs : FileSystem ν) (name : ν) : Option (List UInt8) := (fs.entry name).map fs.content

/-- Take a name away. Files that are open stay so. -/
def remove (fs : FileSystem ν) (name : ν) : FileSystem ν where
  entry := Function.update fs.entry name none
  content := fs.content
  next := fs.next
  distinct {a b inode} ha hb := by
    rw [Function.update_apply] at ha hb
    split at ha
    next => cases ha
    next =>
      split at hb
      next => cases hb
      next => exact fs.distinct ha hb
  used {a inode} ha := by
    rw [Function.update_apply] at ha
    split at ha
    next => cases ha
    next => exact fs.used ha

/-- A name takes an inode that no other name has. -/
theorem distinct_update {entry : ν → Option ℕ} {name : ν} {inode : ℕ}
    (hdistinct : ∀ {a b : ν} {found : ℕ}, entry a = some found → entry b = some found → a = b)
    (hfree : ∀ a, entry a = some inode → a = name) {a b : ν} {found : ℕ}
    (ha : Function.update entry name (some inode) a = some found)
    (hb : Function.update entry name (some inode) b = some found) : a = b := by
  rw [Function.update_apply] at ha hb
  split at ha
  next hna =>
    cases ha
    split at hb
    next hnb => exact hna.trans hnb.symm
    next => exact hna.trans (hfree b hb).symm
  next =>
    split at hb
    next hnb =>
      cases hb
      exact (hfree a ha).trans hnb.symm
    next => exact hdistinct ha hb

/-- What was in use stays so, and the inode a name takes is in use. -/
theorem used_update {entry : ν → Option ℕ} {name : ν} {inode bound next : ℕ}
    (hused : ∀ {a : ν} {found : ℕ}, entry a = some found → found < bound)
    (hbound : bound ≤ next) (hinode : inode < next) {a : ν} {found : ℕ}
    (ha : Function.update entry name (some inode) a = some found) : found < next := by
  rw [Function.update_apply] at ha
  split at ha
  next =>
    cases ha
    exact hinode
  next => exact Nat.lt_of_lt_of_le (hused ha) hbound

/-- The inode that opening a name for writing leads to. -/
def opened (fs : FileSystem ν) (name : ν) : ℕ := (fs.entry name).getD fs.next

omit [DecidableEq ν] in
/-- Only its own name leads to an opened inode. -/
theorem eq_of_entry_opened {fs : FileSystem ν} {name other : ν}
    (hother : fs.entry other = some (fs.opened name)) : other = name := by
  unfold opened at hother
  cases hname : fs.entry name with
  | none =>
      rw [hname, Option.getD_none] at hother
      exact absurd (fs.used hother) (Nat.lt_irrefl _)
  | some inode =>
      rw [hname, Option.getD_some] at hother
      exact fs.distinct hother hname

/-- Open for writing: the file is made, or cut to nothing. -/
def create (fs : FileSystem ν) (name : ν) : FileSystem ν where
  entry := Function.update fs.entry name (some (fs.opened name))
  content := Function.update fs.content (fs.opened name) []
  next := max fs.next (fs.opened name + 1)
  distinct := distinct_update fs.distinct fun _ ha => eq_of_entry_opened ha
  used := used_update fs.used (Nat.le_max_left ..) (Nat.le_max_right fs.next (fs.opened name + 1))

/-- A write of an open file. -/
def writeAt (fs : FileSystem ν) (inode offset : ℕ) (bytes : List UInt8) : FileSystem ν :=
  let written := overwrite (fs.content inode) offset bytes
  { fs with content := Function.update fs.content inode written }

/-- Another name for an inode that has lost its name, in place of what was there. -/
def link (fs : FileSystem ν) (name : ν) (inode : ℕ) (hused : inode < fs.next)
    (hfree : ∀ a, fs.entry a ≠ some inode) : FileSystem ν where
  entry := Function.update fs.entry name (some inode)
  content := fs.content
  next := fs.next
  distinct := distinct_update fs.distinct fun a ha => absurd ha (hfree a)
  used := used_update fs.used (Nat.le_refl _) hused

/-- An inode loses its only name. -/
theorem entry_remove_ne {fs : FileSystem ν} {name : ν} {inode : ℕ}
    (hname : fs.entry name = some inode) (a : ν) : (fs.remove name).entry a ≠ some inode := by
  intro ha
  simp only [remove, Function.update_apply] at ha
  split at ha
  next => cases ha
  next hne => exact hne (fs.distinct ha hname)

/-- Move a name to another one, whose file it replaces. -/
def rename (fs : FileSystem ν) (source target : ν) : Option (FileSystem ν) :=
  match hsource : fs.entry source with
  | none => none
  | some inode => some ((fs.remove source).link target inode (fs.used hsource)
      (entry_remove_ne hsource))

/-! ## Open files and names -/

/-- An open file whose name leads to it or to nothing, and that has no other. -/
structure Owns (fs : FileSystem ν) (name : ν) (inode : ℕ) : Prop where
  used : inode < fs.next
  only : ∀ other, fs.entry other = some inode → other = name
  here : fs.entry name = none ∨ fs.entry name = some inode

variable {fs : FileSystem ν} {name other : ν} {inode : ℕ}

theorem Owns.remove (howns : fs.Owns name inode) (other : ν) :
    (fs.remove other).Owns name inode where
  used := howns.used
  only found hfound := by
    simp only [FileSystem.remove, Function.update_apply] at hfound
    split at hfound
    next => cases hfound
    next => exact howns.only found hfound
  here := by
    simp only [FileSystem.remove, Function.update_apply]
    split
    next => exact .inl rfl
    next => exact howns.here

omit [DecidableEq ν] in
theorem Owns.writeAt (howns : fs.Owns name inode) (written offset : ℕ) (bytes : List UInt8) :
    (fs.writeAt written offset bytes).Owns name inode := ⟨howns.used, howns.only, howns.here⟩

omit [DecidableEq ν] in
/-- Opening another name leads to another inode. -/
theorem Owns.ne_opened (howns : fs.Owns name inode) (hne : other ≠ name) :
    inode ≠ fs.opened other := by
  intro hsame
  unfold opened at hsame
  cases hother : fs.entry other with
  | none =>
      rw [hother, Option.getD_none] at hsame
      exact absurd howns.used (by omega)
  | some found =>
      rw [hother, Option.getD_some] at hsame
      exact hne (howns.only other (hsame ▸ hother))

theorem Owns.create (howns : fs.Owns name inode) (hne : other ≠ name) :
    (fs.create other).Owns name inode where
  used := Nat.lt_of_lt_of_le howns.used (Nat.le_max_left ..)
  only found hfound := by
    simp only [FileSystem.create, Function.update_apply] at hfound
    split at hfound
    next => exact absurd (Option.some.inj hfound).symm (howns.ne_opened hne)
    next => exact howns.only found hfound
  here := by
    simp only [FileSystem.create, Function.update_of_ne hne.symm]
    exact howns.here

/-- An opened file owns its name. -/
theorem owns_opened (fs : FileSystem ν) (name : ν) :
    (fs.create name).Owns name (fs.opened name) where
  used := Nat.le_max_right fs.next (fs.opened name + 1)
  only found hfound := by
    simp only [create, Function.update_apply] at hfound
    split at hfound
    next hsame => exact hsame
    next => exact eq_of_entry_opened hfound
  here := .inr (Function.update_self ..)

/-- What a rename does to the names. -/
theorem rename_eq_some {source target : ν} {renamed : FileSystem ν}
    (hrename : fs.rename source target = some renamed) : ∃ moved,
      fs.entry source = some moved ∧ renamed.content = fs.content ∧ renamed.next = fs.next ∧
      renamed.entry = Function.update (Function.update fs.entry source none) target
        (some moved) := by
  unfold rename at hrename
  split at hrename
  next => cases hrename
  next moved hmoved =>
    cases hrename
    exact ⟨moved, hmoved, rfl, rfl, rfl⟩

/-- A name that is there can be renamed. -/
theorem exists_rename {source : ν} {moved : ℕ} (hsource : fs.entry source = some moved)
    (target : ν) : ∃ renamed, fs.rename source target = some renamed := by
  unfold rename
  split
  next hnone => cases hsource.symm.trans hnone
  next => exact ⟨_, rfl⟩

theorem Owns.rename {source target : ν} {renamed : FileSystem ν} (howns : fs.Owns name inode)
    (hrename : fs.rename source target = some renamed) (hsource : source ≠ name)
    (htarget : target ≠ name) : renamed.Owns name inode := by
  obtain ⟨moved, hmoved, -, hnext, hentry⟩ := rename_eq_some hrename
  refine ⟨hnext ▸ howns.used, ?_, ?_⟩
  · intro found hfound
    rw [hentry, Function.update_apply] at hfound
    split at hfound
    next =>
      cases hfound
      exact absurd (howns.only source hmoved) hsource
    next =>
      rw [Function.update_apply] at hfound
      split at hfound
      next => cases hfound
      next => exact howns.only found hfound
  · rw [hentry, Function.update_of_ne htarget.symm, Function.update_of_ne hsource.symm]
    exact howns.here

/-! ## What is read -/

theorem read_remove (hne : other ≠ name) : (fs.remove name).read other = fs.read other := by
  simp only [read, remove, Function.update_of_ne hne]

/-- Another name leads to another inode. -/
theorem read_create (hne : other ≠ name) : (fs.create name).read other = fs.read other := by
  simp only [read, create, Function.update_of_ne hne]
  cases hother : fs.entry other with
  | none => rfl
  | some found =>
      have hfound : found ≠ fs.opened name := by
        intro hsame
        exact hne (eq_of_entry_opened (hsame ▸ hother))
      simp only [Option.map_some, Function.update_of_ne hfound]

omit [DecidableEq ν] in
theorem Owns.read_writeAt (howns : fs.Owns name inode) (hne : other ≠ name) (offset : ℕ)
    (bytes : List UInt8) : (fs.writeAt inode offset bytes).read other = fs.read other := by
  simp only [read, FileSystem.writeAt]
  cases hother : fs.entry other with
  | none => rfl
  | some found =>
      have hfound : found ≠ inode := by
        intro hsame
        exact hne (howns.only other (hsame ▸ hother))
      simp only [Option.map_some, Function.update_of_ne hfound]

theorem read_rename {source target : ν} {renamed : FileSystem ν}
    (hrename : fs.rename source target = some renamed) (other : ν) :
    renamed.read other = if other = target then fs.read source
      else if other = source then none else fs.read other := by
  obtain ⟨moved, hmoved, hcontent, -, hentry⟩ := rename_eq_some hrename
  simp only [read, hentry, hcontent, hmoved, Function.update_apply]
  split
  next => rfl
  next => split <;> rfl

/-- A rename of an owned name publishes the open file's bytes. -/
theorem Owns.read_rename {target : ν} {renamed : FileSystem ν} (howns : fs.Owns name inode)
    (hrename : fs.rename name target = some renamed) (hother : other ≠ name) :
    renamed.read other = if other = target then some (fs.content inode) else fs.read other := by
  obtain ⟨moved, hmoved, -⟩ := rename_eq_some hrename
  have hentry : fs.entry name = some inode := by
    rcases howns.here with hnone | hsome
    · cases hnone.symm.trans hmoved
    · exact hsome
  rw [FileSystem.read_rename hrename, if_neg hother, read, hentry, Option.map_some]

/-! ## A file that is written from its start -/

theorem entry_create (fs : FileSystem ν) (name : ν) :
    (fs.create name).entry name = some (fs.opened name) := Function.update_self ..

theorem content_create (fs : FileSystem ν) (name : ν) :
    (fs.create name).content (fs.opened name) = [] := Function.update_self ..

omit [DecidableEq ν] in
/-- What an open file holds after a write at its end. -/
theorem content_writeAt {offset : ℕ} (hoffset : offset = (fs.content inode).length)
    (bytes : List UInt8) :
    (fs.writeAt inode offset bytes).content inode = fs.content inode ++ bytes := by
  simp only [FileSystem.writeAt, Function.update_self, hoffset, overwrite_length]

omit [DecidableEq ν] in
/-- Writing nothing changes nothing. -/
theorem writeAt_nil {offset : ℕ} (hoffset : offset = (fs.content inode).length) :
    fs.writeAt inode offset [] = fs := by
  simp only [FileSystem.writeAt, hoffset, overwrite_length, List.append_nil,
    Function.update_eq_self]

omit [DecidableEq ν] in
/-- Two writes, the second where the first has ended. -/
theorem writeAt_writeAt {offset : ℕ} (hoffset : offset = (fs.content inode).length)
    (first second : List UInt8) :
    (fs.writeAt inode offset first).writeAt inode (offset + first.length) second =
      fs.writeAt inode offset (first ++ second) := by
  have hlength : offset + first.length = (fs.content inode ++ first).length := by
    rw [hoffset, List.length_append]
  simp only [FileSystem.writeAt, Function.update_self, Function.update_idem, hlength]
  rw [hoffset, overwrite_length, overwrite_length, overwrite_length, List.append_assoc]

end FileSystem

end GpuCluster.Foundation
