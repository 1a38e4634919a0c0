import Mathlib.Data.List.DropRight

/-! # Text

White space, prefixes counted in characters, and the URL-safe base64 alphabet.
-/

namespace GpuCluster.Foundation

/-- Unicode white space. -/
def isWhitespace (c : Char) : Bool :=
  0x09 ≤ c.toNat && c.toNat ≤ 0x0d || 0x2000 ≤ c.toNat && c.toNat ≤ 0x200a ||
    c.toNat ∈ [0x20, 0x85, 0xa0, 0x1680, 0x2028, 0x2029, 0x202f, 0x205f, 0x3000]

/-- White space removed at both ends. -/
def trim (s : String) : String :=
  .ofList ((s.toList.dropWhile isWhitespace).reverse.dropWhile isWhitespace).reverse

private theorem dropWhile_twice (p : Char → Bool) (chars : List Char) :
    (((chars.dropWhile p).reverse.dropWhile p).reverse.dropWhile p) =
      ((chars.dropWhile p).reverse.dropWhile p).reverse := by
  -- what is left starts with the same character, unless nothing is left
  cases hfront : chars.dropWhile p with
  | nil => rfl
  | cons first rest =>
      have hfirst : p first = false := by
        have hhead := List.head?_dropWhile_not p chars
        rw [hfront] at hhead
        simpa using hhead
      rw [List.reverse_cons, List.dropWhile_append]
      split
      next => simp [hfirst]
      next => rw [List.reverse_append, List.reverse_singleton, List.singleton_append,
        List.dropWhile_cons_of_neg (by simp [hfirst])]

theorem trim_trim (s : String) : trim (trim s) = trim s := by
  simp only [trim, String.toList_ofList, dropWhile_twice, List.reverse_reverse,
    List.dropWhile_idempotent]

/-- There is nothing to remove from a text without white space. -/
theorem trim_eq_self {s : String} (hvisible : ∀ c ∈ s.toList, isWhitespace c = false) :
    trim s = s := by
  have hkeep : ∀ chars : List Char, (∀ c ∈ chars, isWhitespace c = false) →
      chars.dropWhile isWhitespace = chars := by
    intro chars hchars
    cases chars with
    | nil => rfl
    | cons first rest =>
        exact List.dropWhile_cons_of_neg (by simp [hchars first List.mem_cons_self])
  rw [trim, hkeep _ hvisible, hkeep _ fun c hc => hvisible c (List.mem_reverse.mp hc),
    List.reverse_reverse, String.ofList_toList]

/-- Nothing is left exactly of white space. -/
theorem trim_eq_empty_iff {s : String} : trim s = "" ↔ ∀ c ∈ s.toList, isWhitespace c := by
  rw [trim, ← String.toList_inj, String.toList_ofList, String.toList_empty,
    List.reverse_eq_nil_iff, List.dropWhile_eq_nil_iff]
  simp only [List.mem_reverse]
  constructor
  · intro hback c hc
    rw [← List.takeWhile_append_dropWhile (p := isWhitespace) (l := s.toList)] at hc
    exact (List.mem_append.mp hc).elim List.mem_takeWhile_imp (hback c)
  · intro hall c hc
    exact hall c (List.dropWhile_subset _ hc)

/-- The text after a prefix, if it starts with it. -/
def stripPrefix? (start s : String) : Option String :=
  if start.toList.isPrefixOf s.toList then some (.ofList (s.toList.drop start.length)) else none

theorem eq_append_of_stripPrefix {start s rest : String}
    (hstrip : stripPrefix? start s = some rest) : s = start ++ rest := by
  unfold stripPrefix? at hstrip
  split at hstrip
  next hstart =>
    cases hstrip
    obtain ⟨more, hmore⟩ := List.isPrefixOf_iff_prefix.mp hstart
    have hdrop : s.toList.drop start.length = more := by
      rw [← hmore, ← String.length_toList, List.drop_left]
    rw [hdrop, ← String.toList_inj, String.toList_append, String.toList_ofList, hmore]
  next => cases hstrip

@[simp] theorem stripPrefix?_append (start rest : String) :
    stripPrefix? start (start ++ rest) = some rest := by
  have hstart : start.toList.isPrefixOf (start ++ rest).toList = true := by
    rw [String.toList_append, List.isPrefixOf_iff_prefix]
    exact List.prefix_append ..
  rw [stripPrefix?, if_pos hstart, String.toList_append, ← String.length_toList, List.drop_left,
    String.ofList_toList]

/-- The text before a suffix, if it ends with it. -/
def stripSuffix? (ending s : String) : Option String :=
  if ending.toList.isSuffixOf s.toList then
    some (.ofList (s.toList.take (s.length - ending.length)))
  else none

/-- All copies of a character removed at the end. -/
def trimEnd (c : Char) (s : String) : String :=
  .ofList (s.toList.reverse.dropWhile (· = c)).reverse

/-- The first characters of a text. -/
def takeChars (n : ℕ) (s : String) : String := .ofList (s.toList.take n)

/-! ## Bytes -/

theorem utf8ByteSize_ofList_cons (c : Char) (rest : List Char) :
    (String.ofList (c :: rest)).utf8ByteSize = c.utf8Size + (String.ofList rest).utf8ByteSize := by
  rw [← List.singleton_append, String.ofList_append, String.utf8ByteSize_append,
    ← String.singleton_eq_ofList, String.utf8ByteSize_singleton]

/-- A text has no fewer bytes than characters. -/
theorem length_le_utf8ByteSize (chars : List Char) :
    chars.length ≤ (String.ofList chars).utf8ByteSize := by
  induction chars with
  | nil => exact Nat.zero_le _
  | cons c rest ih =>
      have hbytes : 0 < c.utf8Size := c.utf8Size_pos
      rw [utf8ByteSize_ofList_cons, List.length_cons]
      omega

/-- The characters whose encodings are the first bytes of a text; none if a
character is cut in two, or the text has fewer bytes. -/
def takeBytes : List Char → ℕ → Option (List Char)
  | [], n => if n = 0 then some [] else none
  | c :: rest, n =>
      if n = 0 then some []
      else if c.utf8Size ≤ n then (takeBytes rest (n - c.utf8Size)).map (c :: ·)
      else none

/-- `str::is_char_boundary`. -/
def isCharBoundary (s : String) (n : ℕ) : Bool := (takeBytes s.toList n).isSome

/-- `&s[..n]`, which panics inside a character. -/
def sliceTo? (s : String) (n : ℕ) : Option String := (takeBytes s.toList n).map String.ofList

theorem takeBytes_eq_some {chars before : List Char} {n : ℕ} :
    takeBytes chars n = some before ↔
      before <+: chars ∧ (String.ofList before).utf8ByteSize = n := by
  induction chars generalizing before n with
  | nil =>
      rw [List.prefix_nil, takeBytes]
      constructor
      · intro htake
        split at htake
        next hn =>
          cases htake
          exact ⟨rfl, hn.symm⟩
        next => cases htake
      · rintro ⟨rfl, rfl⟩
        rfl
  | cons c rest ih =>
      have hbytes : 0 < c.utf8Size := c.utf8Size_pos
      rw [takeBytes]
      cases before with
      | nil =>
          constructor
          · intro htake
            split at htake
            next hn => exact ⟨List.nil_prefix, hn.symm⟩
            next =>
              split at htake
              next => obtain ⟨_, -, hcons⟩ := Option.map_eq_some_iff.mp htake; cases hcons
              next => cases htake
          · rintro ⟨-, rfl⟩
            rfl
      | cons first before =>
          rw [List.cons_prefix_cons, utf8ByteSize_ofList_cons]
          constructor
          · intro htake
            split at htake
            next => cases htake
            next =>
              split at htake
              next hfits =>
                obtain ⟨taken, htaken, hcons⟩ := Option.map_eq_some_iff.mp htake
                cases hcons
                obtain ⟨hbegins, hsize⟩ := ih.mp htaken
                exact ⟨⟨rfl, hbegins⟩, by omega⟩
              next => cases htake
          · rintro ⟨⟨rfl, hbegins⟩, hsize⟩
            have hrest := ih.mpr ⟨hbegins, (Nat.sub_eq_of_eq_add' hsize.symm).symm⟩
            rw [if_neg (by omega), if_pos (by omega), hrest]
            rfl

/-- Of two prefixes the one with more bytes contains the other. -/
theorem prefix_of_utf8ByteSize_le {chars before longer : List Char} (hbefore : before <+: chars)
    (hlonger : longer <+: chars)
    (hsize : (String.ofList before).utf8ByteSize ≤ (String.ofList longer).utf8ByteSize) :
    before <+: longer := by
  rcases List.prefix_or_prefix_of_prefix hbefore hlonger with hbegins | hbegins
  · exact hbegins
  · obtain ⟨rest, rfl⟩ := hbegins
    rw [String.ofList_append, String.utf8ByteSize_append] at hsize
    have hrest : rest = [] := by
      have hlength := length_le_utf8ByteSize rest
      exact List.eq_nil_of_length_eq_zero (by omega)
    exact ⟨[], by rw [hrest, List.append_nil, List.append_nil]⟩

theorem utf8ByteSize_replicate (n : ℕ) (c : Char) :
    (String.ofList (List.replicate n c)).utf8ByteSize = n * c.utf8Size := by
  induction n with
  | zero => exact (Nat.zero_mul _).symm
  | succ n ih => rw [List.replicate_succ, utf8ByteSize_ofList_cons, ih, Nat.succ_mul, Nat.add_comm]

/-- No text can be cut between the bytes of a character. -/
theorem isCharBoundary_eq_false {before rest : List Char} {c : Char} {n : ℕ}
    (hbefore : (String.ofList before).utf8ByteSize < n)
    (hafter : n < (String.ofList before).utf8ByteSize + c.utf8Size) :
    isCharBoundary (.ofList (before ++ c :: rest)) n = false := by
  rw [isCharBoundary, String.toList_ofList, Option.isSome_eq_false_iff, Option.isNone_iff_eq_none,
    Option.eq_none_iff_forall_ne_some]
  intro taken htake
  obtain ⟨hbegins, hsize⟩ := takeBytes_eq_some.mp htake
  have hsnoc : before ++ [c] <+: before ++ c :: rest := ⟨rest, by simp⟩
  have hbytes : (String.ofList (before ++ [c])).utf8ByteSize =
      (String.ofList before).utf8ByteSize + c.utf8Size := by
    rw [String.ofList_append, String.utf8ByteSize_append, ← String.singleton_eq_ofList,
      String.utf8ByteSize_singleton]
  have hshort : taken <+: before ++ [c] := prefix_of_utf8ByteSize_le hbegins hsnoc (by omega)
  rcases List.prefix_concat_iff.mp hshort with rfl | hshorter
  · omega
  · obtain ⟨missing, rfl⟩ := hshorter
    rw [String.ofList_append, String.utf8ByteSize_append] at hbefore
    omega

theorem sliceTo?_isSome (s : String) (n : ℕ) : (sliceTo? s n).isSome = isCharBoundary s n :=
  Option.isSome_map

/-! ## Base64 -/

/-- The URL-safe alphabet. -/
def base64Char (n : ℕ) : Char :=
  ("ABCDEFGHIJKLMNOPQRSTUVWXYZabcdefghijklmnopqrstuvwxyz0123456789-_".toList).getD (n % 64) 'A'

/-- URL-safe base64 without padding. -/
def base64Url : List UInt8 → List Char
  | a :: b :: c :: rest =>
      let n := a.toNat * 65536 + b.toNat * 256 + c.toNat
      base64Char (n / 262144) :: base64Char (n / 4096) :: base64Char (n / 64) :: base64Char n ::
        base64Url rest
  | [a, b] =>
      let n := a.toNat * 1024 + b.toNat * 4
      [base64Char (n / 4096), base64Char (n / 64), base64Char n]
  | [a] =>
      let n := a.toNat * 16
      [base64Char (n / 64), base64Char n]
  | [] => []

theorem base64Url_length (bytes : List UInt8) :
    (base64Url bytes).length = (bytes.length * 4 + 2) / 3 := by
  fun_induction base64Url bytes with
  | case1 a b c rest n ih => simp only [List.length_cons, ih]; omega
  | case2 | case3 => simp only [List.length_cons, List.length_nil]
  | case4 => rfl

end GpuCluster.Foundation
