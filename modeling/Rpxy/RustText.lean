import Mathlib.Data.List.Basic
import Mathlib.Data.List.Count

/-!
# Rust string and character helpers over character lists

A Rust `&str` is modelled by the list of its characters. The helpers here follow
the documented behaviour of the standard library methods of the same names:
`trim` strips Unicode `White_Space` from both ends, `split_once` cuts at the first
occurrence of a character and `rsplit_once` at the last, and the ASCII case helpers
leave every non-ASCII character unchanged. Byte-indexed scans of the source agree
with scans over characters whenever every delimiter is ASCII, since every byte of
a multi-byte UTF-8 sequence is at least `0x80`; nothing here depends on UTF-8 widths.
-/

namespace Rpxy.RustText

/-- A statement about every character of a given text is decided by walking the text. With
all of Mathlib in scope, `∀ c ∈ s, p c` over `Char` would otherwise go to an instance that
enumerates every character, which no closed text needs. -/
instance (priority := high) decidableForallMemList {α : Type} (p : α → Prop) [DecidablePred p]
    (l : List α) : Decidable (∀ x ∈ l, p x) :=
  List.decidableBAll p l

/-- The same for the at most one character of an optional text, such as its head. -/
instance (priority := high) decidableForallMemOption {α : Type} (p : α → Prop) [DecidablePred p]
    (o : Option α) : Decidable (∀ x ∈ o, p x) :=
  Option.decidableForallMem o

/-- `char::is_whitespace`: the Unicode `White_Space` property. -/
def isWhitespace (c : Char) : Bool :=
  let n := c.toNat
  n = 0x20 || (0x09 ≤ n && n ≤ 0x0d) || n = 0x85 || n = 0xa0 || n = 0x1680 ||
    (0x2000 ≤ n && n ≤ 0x200a) || n = 0x2028 || n = 0x2029 || n = 0x202f ||
    n = 0x205f || n = 0x3000

/-- `str::trim_start`. -/
def trimStart (s : List Char) : List Char := s.dropWhile isWhitespace

/-- `str::trim_end`. -/
def trimEnd (s : List Char) : List Char := (s.reverse.dropWhile isWhitespace).reverse

/-- `str::trim`. -/
def trim (s : List Char) : List Char := trimEnd (trimStart s)

/-- `str::split_once` at a character: the text before and after its first occurrence. -/
def splitOnce (sep : Char) : List Char → Option (List Char × List Char)
  | [] => none
  | c :: cs => if c = sep then some ([], cs) else (splitOnce sep cs).map fun p => (c :: p.1, p.2)

/-- `str::rsplit_once` at a character: the text before and after its last occurrence. -/
def rsplitOnce (sep : Char) (s : List Char) : Option (List Char × List Char) :=
  (splitOnce sep s.reverse).map fun p => (p.2.reverse, p.1.reverse)

/-- `str::strip_prefix` of one character. -/
def stripPrefix (c : Char) : List Char → Option (List Char)
  | d :: ds => if d = c then some ds else none
  | [] => none

/-- `str::strip_suffix` of one character. -/
def stripSuffix (c : Char) (s : List Char) : Option (List Char) :=
  (stripPrefix c s.reverse).map List.reverse

/-- `str::to_ascii_lowercase`. -/
def toAsciiLowercase (s : List Char) : List Char := s.map Char.toLower

/-- `str::eq_ignore_ascii_case`. -/
def eqIgnoreAsciiCase (s t : List Char) : Bool := toAsciiLowercase s == toAsciiLowercase t

/-- `char::escape_debug` as `Debug for str` applies it: double quotes are escaped, single quotes
are not. ASCII is escaped exactly; every other character is written as it is, where Rust escapes
the ones its Unicode tables class as unprintable or grapheme-extending. -/
def escapeDebugChar (c : Char) : List Char :=
  if c = '\x00' then ['\\', '0']
  else if c = '\t' then ['\\', 't']
  else if c = '\r' then ['\\', 'r']
  else if c = '\n' then ['\\', 'n']
  else if c = '\\' then ['\\', '\\']
  else if c = '"' then ['\\', '"']
  else if c.toNat < 0x20 ∨ c.toNat = 0x7f then "\\u\x7b".toList ++ Nat.toDigits 16 c.toNat ++ ['\x7d']
  else [c]

/-- `Debug for str`: the text between double quotes, escaped. -/
def debugStr (s : List Char) : List Char := '"' :: s.flatMap escapeDebugChar ++ ['"']

example : debugStr "a\"b\x1b".toList = "\"a\\\"b\\u\x7b1b\x7d\"".toList := by decide

/-- A character list that starts and ends with non-whitespace is its own trim. -/
def Trimmed (s : List Char) : Prop :=
  (∀ c ∈ s.head?, isWhitespace c = false) ∧ (∀ c ∈ s.getLast?, isWhitespace c = false)

theorem trimStart_of_head {s : List Char} (h : ∀ c ∈ s.head?, isWhitespace c = false) :
    trimStart s = s := by
  cases s with
  | nil => rfl
  | cons c cs => simp [trimStart, h c rfl]

theorem trimEnd_of_getLast {s : List Char} (h : ∀ c ∈ s.getLast?, isWhitespace c = false) :
    trimEnd s = s := by
  unfold trimEnd
  cases hr : s.reverse with
  | nil => simp [List.reverse_eq_nil_iff.mp hr]
  | cons c cs =>
    have hc : isWhitespace c = false := h c (by
      rw [← List.head?_reverse, hr]; rfl)
    rw [List.dropWhile_cons, hc]
    simp [← hr]

/-- The trim of a trimmed list leaves it unchanged. -/
theorem trim_of_trimmed {s : List Char} (h : Trimmed s) : trim s = s := by
  rw [trim, trimStart_of_head h.1, trimEnd_of_getLast h.2]

/-- Leading whitespace is dropped by `trim_start`. -/
theorem trimStart_whitespace_append {w s : List Char} (hw : ∀ c ∈ w, isWhitespace c = true)
    (hs : ∀ c ∈ s.head?, isWhitespace c = false) : trimStart (w ++ s) = s := by
  induction w with
  | nil => exact trimStart_of_head hs
  | cons c cs ih =>
    have hc : isWhitespace c = true := hw c (by simp)
    simp only [trimStart, List.cons_append, List.dropWhile_cons, hc, if_true] at ih ⊢
    exact ih (fun d hd => hw d (by simp [hd]))

/-- `trim` of whitespace followed by a trimmed list is that list. -/
theorem trim_whitespace_append {w s : List Char} (hw : ∀ c ∈ w, isWhitespace c = true)
    (hs : Trimmed s) : trim (w ++ s) = s := by
  rw [trim, trimStart_whitespace_append hw hs.1, trimEnd_of_getLast hs.2]

@[simp]
theorem trim_nil : trim [] = [] := rfl

/-- Splitting at the first separator of `k ++ sep :: v` gives `(k, v)` when `k` has none. -/
theorem splitOnce_append {sep : Char} {k v : List Char} (hk : sep ∉ k) :
    splitOnce sep (k ++ sep :: v) = some (k, v) := by
  induction k with
  | nil => simp [splitOnce]
  | cons c cs ih =>
    have hc : c ≠ sep := fun h => hk (by simp [h])
    have hcs : sep ∉ cs := fun h => hk (by simp [h])
    simp [splitOnce, hc, ih hcs]

/-- `split_once` finds nothing in a list without the separator. -/
theorem splitOnce_of_not_mem {sep : Char} {s : List Char} (hs : sep ∉ s) :
    splitOnce sep s = none := by
  induction s with
  | nil => rfl
  | cons c cs ih =>
    have hc : c ≠ sep := fun h => hs (by simp [h])
    have hcs : sep ∉ cs := fun h => hs (by simp [h])
    simp [splitOnce, hc, ih hcs]

/-- A successful `split_once` puts the separator back between its two parts. -/
theorem splitOnce_eq_some {sep : Char} {s k v : List Char}
    (h : splitOnce sep s = some (k, v)) : s = k ++ sep :: v ∧ sep ∉ k := by
  induction s generalizing k with
  | nil => simp [splitOnce] at h
  | cons c cs ih =>
    by_cases hc : c = sep
    · simp only [splitOnce, hc, if_true, Option.some.injEq, Prod.mk.injEq] at h
      obtain ⟨rfl, rfl⟩ := h
      simp [hc]
    · simp only [splitOnce, hc, if_false, Option.map_eq_some_iff] at h
      obtain ⟨⟨k', v'⟩, hp, he⟩ := h
      simp only [Prod.mk.injEq] at he
      obtain ⟨rfl, rfl⟩ := he
      obtain ⟨rfl, hk⟩ := ih hp
      exact ⟨rfl, by simp [hk, Ne.symm hc]⟩

/-- Splitting at the last separator of `n ++ sep :: p` gives `(n, p)` when `p` has none. -/
theorem rsplitOnce_append {sep : Char} {n p : List Char} (hp : sep ∉ p) :
    rsplitOnce sep (n ++ sep :: p) = some (n, p) := by
  have hr : (n ++ sep :: p).reverse = p.reverse ++ sep :: n.reverse := by simp
  simp [rsplitOnce, hr, splitOnce_append (k := p.reverse) (by simpa using hp)]

@[simp]
theorem stripPrefix_cons (c d : Char) (ds : List Char) :
    stripPrefix c (d :: ds) = if d = c then some ds else none := rfl

theorem stripPrefix_eq_some {c : Char} {s t : List Char} (h : stripPrefix c s = some t) : s = c :: t := by
  cases s with
  | nil => simp [stripPrefix] at h
  | cons d ds =>
    by_cases hd : d = c
    · simp only [stripPrefix_cons, hd, if_true, Option.some.injEq] at h
      rw [hd, h]
    · simp [hd] at h

@[simp]
theorem stripSuffix_append_singleton (c : Char) (s : List Char) :
    stripSuffix c (s ++ [c]) = some s := by
  simp [stripSuffix, stripPrefix]

theorem stripSuffix_eq_some {c : Char} {s t : List Char} (h : stripSuffix c s = some t) :
    s = t ++ [c] := by
  unfold stripSuffix at h
  cases hr : s.reverse with
  | nil => simp [hr, stripPrefix] at h
  | cons d ds =>
    rw [hr, stripPrefix_cons] at h
    by_cases hd : d = c
    · rw [if_pos hd] at h
      simp only [Option.map_some, Option.some.injEq] at h
      rw [← List.reverse_reverse s, hr, hd, ← h]
      simp
    · rw [if_neg hd] at h
      cases h

/-- A successful `rsplit_once` puts the separator back before a part without it. -/
theorem rsplitOnce_eq_some {sep : Char} {s n p : List Char} (h : rsplitOnce sep s = some (n, p)) :
    s = n ++ sep :: p ∧ sep ∉ p := by
  unfold rsplitOnce at h
  simp only [Option.map_eq_some_iff, Prod.mk.injEq] at h
  obtain ⟨⟨k, v⟩, hkv, rfl, rfl⟩ := h
  obtain ⟨hs, hk⟩ := splitOnce_eq_some hkv
  refine ⟨?_, by simpa using hk⟩
  rw [← List.reverse_reverse s, hs]
  simp

/-- `trim` only drops characters. -/
theorem mem_of_mem_trim {c : Char} {s : List Char} (h : c ∈ trim s) : c ∈ s := by
  unfold trim trimEnd trimStart at h
  rw [List.mem_reverse] at h
  have h1 := (List.dropWhile_suffix isWhitespace).subset h
  rw [List.mem_reverse] at h1
  exact (List.dropWhile_suffix isWhitespace).subset h1

theorem eqIgnoreAsciiCase_length {s t : List Char} (h : eqIgnoreAsciiCase s t = true) :
    s.length = t.length := by
  unfold eqIgnoreAsciiCase toAsciiLowercase at h
  have h' := congrArg List.length (beq_iff_eq.mp h)
  simpa using h'

theorem eqIgnoreAsciiCase_cons (c d : Char) (s t : List Char) :
    eqIgnoreAsciiCase (c :: s) (d :: t) = (c.toLower == d.toLower && eqIgnoreAsciiCase s t) := by
  simp [eqIgnoreAsciiCase, toAsciiLowercase, List.cons_beq_cons]

/-! ### `trim` and `split` -/

theorem getLast?_trimEnd (t : List Char) : ∀ c ∈ (trimEnd t).getLast?, isWhitespace c = false := by
  intro c hc
  rw [trimEnd, List.getLast?_reverse] at hc
  have hnot := List.head?_dropWhile_not isWhitespace t.reverse
  rw [Option.mem_def.mp hc] at hnot
  exact hnot

theorem head?_trimEnd_cons {a : Char} (ha : isWhitespace a = false) (rest : List Char) :
    (trimEnd (a :: rest)).head? = some a := by
  rw [trimEnd, List.reverse_cons, List.dropWhile_append]
  split
  · simp [ha]
  · simp

/-- `trim` leaves no whitespace at either end. -/
theorem trimmed_trim (s : List Char) : Trimmed (trim s) := by
  refine ⟨?_, getLast?_trimEnd _⟩
  have hstart := List.head?_dropWhile_not isWhitespace s
  rw [trim, trimStart]
  cases ht : s.dropWhile isWhitespace with
  | nil => simp [trimEnd]
  | cons a rest =>
    rw [ht, List.head?_cons] at hstart
    rw [head?_trimEnd_cons hstart rest]
    intro c hc
    cases hc
    exact hstart

/-- Every piece that `split` cuts is made of characters of the text that fail the test. -/
theorem mem_splitOnP {α : Type} {p : α → Bool} :
    ∀ {xs piece : List α}, piece ∈ xs.splitOnP p → ∀ c ∈ piece, c ∈ xs ∧ p c = false
  | [], piece, h, c, hc => by
    rw [List.splitOnP_nil, List.mem_singleton] at h
    subst h
    cases hc
  | y :: ys, piece, h, c, hc => by
    rw [List.splitOnP_cons_eq_if_modifyHead] at h
    split at h
    · rcases List.mem_cons.mp h with rfl | h
      · cases hc
      · exact ⟨List.mem_cons_of_mem y (mem_splitOnP h c hc).1, (mem_splitOnP h c hc).2⟩
    · next hy =>
      cases hL : ys.splitOnP p with
      | nil => rw [hL] at h; cases h
      | cons first others =>
        rw [hL, List.modifyHead_cons] at h
        rcases List.mem_cons.mp h with rfl | h
        · rcases List.mem_cons.mp hc with rfl | hc
          · exact ⟨List.mem_cons_self, by simpa using hy⟩
          · have hfirst : first ∈ ys.splitOnP p := by rw [hL]; exact List.mem_cons_self
            exact ⟨List.mem_cons_of_mem y (mem_splitOnP hfirst c hc).1, (mem_splitOnP hfirst c hc).2⟩
        · have hpiece : piece ∈ ys.splitOnP p := by rw [hL]; exact List.mem_cons_of_mem first h
          exact ⟨List.mem_cons_of_mem y (mem_splitOnP hpiece c hc).1, (mem_splitOnP hpiece c hc).2⟩

/-- `str::split` at a character: the pieces hold characters of the text, none the separator. -/
theorem mem_splitOn {sep : Char} {xs piece : List Char} (h : piece ∈ xs.splitOn sep) {c : Char}
    (hc : c ∈ piece) : c ∈ xs ∧ c ≠ sep := by
  have hmem := mem_splitOnP h c hc
  exact ⟨hmem.1, by simpa using hmem.2⟩

/-- Joining with a separator and a space is joining with the separator texts that all but the
first begin with a space. -/
theorem intercalate_sep_space (sep : Char) (t : List Char) :
    ∀ rest : List (List Char),
      List.intercalate [sep, ' '] (t :: rest) = List.intercalate [sep] (t :: rest.map (' ' :: ·))
  | [] => by simp
  | u :: rest => by
    rw [List.intercalate_cons_cons, List.map_cons, List.intercalate_cons_cons,
      List.intercalate_cons_cons_left, ← intercalate_sep_space sep u rest]
    simp

/-- `split` at the separator and `trim` give back trimmed texts without the separator that the
separator and a space joined. -/
theorem splitOn_intercalate_trim {sep : Char} (hsep : sep ≠ ' ') {texts : List (List Char)}
    (hne : texts ≠ []) (h : ∀ t ∈ texts, Trimmed t ∧ sep ∉ t) :
    ((List.intercalate [sep, ' '] texts).splitOn sep).map trim = texts := by
  obtain ⟨t, rest, rfl⟩ := List.exists_cons_of_ne_nil hne
  have hnosep : ∀ l ∈ t :: rest.map (' ' :: ·), sep ∉ l := by
    simp only [List.mem_cons, List.mem_map]
    rintro l (rfl | ⟨u, hu, rfl⟩)
    · exact (h l (by simp)).2
    · simpa using ⟨hsep, (h u (by simp [hu])).2⟩
  have htrim : (t :: rest.map (' ' :: ·)).map trim = t :: rest := by
    simp only [List.map_cons, List.map_map]
    congr 1
    · exact trim_of_trimmed (h t (by simp)).1
    · conv_rhs => rw [← List.map_id rest]
      exact List.map_congr_left fun u hu => @trim_whitespace_append [' '] u (by decide) (h u (by simp [hu])).1
  rw [intercalate_sep_space, List.splitOn_intercalate sep hnosep (by simp), htrim]

end Rpxy.RustText
