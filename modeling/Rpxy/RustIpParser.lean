import Rpxy.RustIpAddr
import Mathlib.Tactic.IntervalCases

/-!
# The address parser of `core::net` and the text round trip

`IpAddr::from_str` runs the recursive-descent `Parser` of `core::net::parser`: an
IPv4 attempt first, then IPv6 with `::` elision and an optional embedded IPv4 tail,
and fails unless the whole input is read. Every sub-parser of the source runs under
`read_atomically`, so a failed read leaves the input unread; a parser here is a
function from the unread input to the value and the rest, where `none` is that
failed read. The main result is the round trip `from_str (to_string a) = Ok a` for
every address, including the IPv4-mapped range and every `::` placement.
-/

namespace Rpxy.RustIpParser

open RustIpAddr

/-- `char::to_digit` before the radix bound: `0`-`9`, then ASCII letters from 10. -/
def charDigitValue (c : Char) : Option Nat :=
  if c.isDigit then some (c.toNat - '0'.toNat)
  else if c.isLower then some (c.toNat - 'a'.toNat + 10)
  else if c.isUpper then some (c.toNat - 'A'.toNat + 10)
  else none

/-- `char::to_digit`. -/
def toDigit (radix : Nat) (c : Char) : Option Nat := (charDigitValue c).filter fun d => d < radix

/-- `Parser::read_given_char`. -/
def readGivenChar (target : Char) : List Char → Option (List Char)
  | c :: cs => if c = target then some cs else none
  | [] => none

/-- The digit loop of `Parser::read_number`: the value so far, the digit count, and the
rest; `none` as soon as more than `maxDigits` digits have been read. -/
def readNumberLoop (radix maxDigits : Nat) : Nat → Nat → List Char → Option (Nat × Nat × List Char)
  | result, count, [] => some (result, count, [])
  | result, count, c :: cs =>
    match toDigit radix c with
    | none => some (result, count, c :: cs)
    | some d =>
      if maxDigits < count + 1 then none
      else readNumberLoop radix maxDigits (result * radix + d) (count + 1) cs

/-- `Parser::read_number` with `max_digits = Some(maxDigits)`, before `try_into`. -/
def readNumber (radix maxDigits : Nat) (allowZeroPrefix : Bool) (s : List Char) :
    Option (Nat × List Char) :=
  let hasLeadingZero := s.head? = some '0'
  match readNumberLoop radix maxDigits 0 0 s with
  | none => none
  | some (result, count, rest) =>
    if count = 0 then none
    else if !allowZeroPrefix && hasLeadingZero && 1 < count then none
    else some (result, rest)

/-- `Parser::read_separator`: the separator is read only before a group other than the first. -/
def readSeparator {α : Type} (sep : Char) (index : Nat)
    (inner : List Char → Option (α × List Char)) (s : List Char) : Option (α × List Char) :=
  if 0 < index then (readGivenChar sep s).bind inner else inner s

/-- A decimal IPv4 group: `read_number(10, Some(3), false)` narrowed to `u8`. -/
def readOctet (s : List Char) : Option (UInt8 × List Char) :=
  (readNumber 10 3 false s).bind fun r => if r.1 < 256 then some (UInt8.ofNat r.1, r.2) else none

/-- An IPv6 group: `read_number(16, Some(4), true)` narrowed to `u16`. -/
def readHexGroup (s : List Char) : Option (UInt16 × List Char) :=
  (readNumber 16 4 true s).bind fun r => if r.1 < 65536 then some (UInt16.ofNat r.1, r.2) else none

/-- `Parser::read_ipv4_addr`: four dot-separated groups. -/
def readIpv4Addr (s : List Char) : Option (Ipv4Addr × List Char) := do
  let (a, s) ← readSeparator '.' 0 readOctet s
  let (b, s) ← readSeparator '.' 1 readOctet s
  let (c, s) ← readSeparator '.' 2 readOctet s
  let (d, s) ← readSeparator '.' 3 readOctet s
  pure (Ipv4Addr.new a b c d, s)

/-- `read_groups` of `Parser::read_ipv6_addr`, at group index `i` with `n` of `limit` slots
left: the groups read, whether an embedded IPv4 address ended them, and the rest. -/
def readGroups (limit : Nat) : Nat → Nat → List Char → List UInt16 × Bool × List Char
  | _, 0, s => ([], false, s)
  | i, n + 1, s =>
    let ipv4 := if i + 1 < limit then readSeparator ':' i readIpv4Addr s else none
    match ipv4 with
    | some (v4, s') => (ipv4Segments v4, true, s')
    | none =>
      match readSeparator ':' i readHexGroup s with
      | some (g, s') =>
        let r := readGroups limit (i + 1) n s'
        (g :: r.1, r.2.1, r.2.2)
      | none => ([], false, s)

/-- `Parser::read_ipv6_addr`: a head of groups, then `::` and a tail placed at the end. -/
def readIpv6Addr (s : List Char) : Option (Ipv6Addr × List Char) :=
  let (head, headIpv4, s) := readGroups 8 0 8 s
  if head.length = 8 then some (Ipv6Addr.ofList head, s)
  else if headIpv4 then none
  else do
    let s ← readGivenChar ':' s
    let s ← readGivenChar ':' s
    let limit := 8 - (head.length + 1)
    let (tail, _, s) := readGroups limit 0 limit s
    some (Ipv6Addr.ofList ((head ++ List.replicate 8 0).take (8 - tail.length) ++ tail), s)

/-- `Parser::read_ip_addr`: IPv4 first, IPv6 only when IPv4 fails. -/
def readIpAddr (s : List Char) : Option (IpAddr × List Char) :=
  match readIpv4Addr s with
  | some (a, rest) => some (.v4 a, rest)
  | none => (readIpv6Addr s).map fun r => (.v6 r.1, r.2)

/-- The `Display` text of `AddrParseError`. -/
def addrParseErrorText : String := "invalid IP address syntax"

/-- `IpAddr::from_str`: `parse_with` fails unless the whole input was read. -/
def ipAddrFromStr (s : List Char) : Except String IpAddr :=
  match readIpAddr s with
  | some (a, []) => .ok a
  | _ => .error addrParseErrorText

/-! ### Reading the digits that `Nat.toDigits` writes -/

/-- One step of the digit loop. -/
def digitStep (radix : Nat) (acc : Nat) (c : Char) : Nat := acc * radix + (toDigit radix c).getD 0

theorem charDigitValue_digitChar {d : Nat} (hd : d < 16) :
    charDigitValue (Nat.digitChar d) = some d := by
  interval_cases d <;> rfl

theorem toDigit_digitChar {radix d : Nat} (hd : d < radix) (hr : radix ≤ 16) :
    toDigit radix (Nat.digitChar d) = some d := by
  simp [toDigit, charDigitValue_digitChar (by omega : d < 16), hd]

/-- Every character that `Nat.toDigits` writes is a digit below the base. -/
theorem exists_digitChar_of_mem_toDigits {b n : Nat} (hb : 1 < b) {c : Char}
    (hc : c ∈ Nat.toDigits b n) : ∃ d, d < b ∧ c = Nat.digitChar d := by
  induction n using Nat.strongRecOn with
  | ind n ih =>
    rw [Nat.toDigits_eq_if hb] at hc
    split at hc
    · rename_i hn
      simp only [List.mem_singleton] at hc
      exact ⟨n, hn, hc⟩
    · rename_i hn
      simp only [List.mem_append, List.mem_singleton] at hc
      rcases hc with hc | hc
      · exact ih (n / b) (Nat.div_lt_self (by omega) hb) hc
      · exact ⟨n % b, Nat.mod_lt n (by omega), hc⟩

theorem toDigit_of_mem_toDigits {radix n : Nat} (hr : 1 < radix) (hr' : radix ≤ 16) {c : Char}
    (hc : c ∈ Nat.toDigits radix n) : ∃ d, toDigit radix c = some d := by
  obtain ⟨d, hd, rfl⟩ := exists_digitChar_of_mem_toDigits hr hc
  exact ⟨d, toDigit_digitChar hd hr'⟩

/-- The digit loop reads a run of digits in full when the run fits and no digit follows. -/
theorem readNumberLoop_digits {radix maxDigits : Nat} {rest : List Char}
    (hrest : ∀ c ∈ rest.head?, toDigit radix c = none) :
    ∀ (ds : List Char) (acc count : Nat), (∀ c ∈ ds, ∃ d, toDigit radix c = some d) →
      count + ds.length ≤ maxDigits →
      readNumberLoop radix maxDigits acc count (ds ++ rest) =
        some (ds.foldl (digitStep radix) acc, count + ds.length, rest)
  | [], acc, count, _, _ => by
    cases rest with
    | nil => simp [readNumberLoop]
    | cons c cs => simp [readNumberLoop, hrest c rfl]
  | c :: cs, acc, count, hds, hlen => by
    obtain ⟨d, hd⟩ := hds c (by simp)
    have hnext := @readNumberLoop_digits radix maxDigits rest hrest cs (acc * radix + d) (count + 1)
      (fun c' hc' => hds c' (by simp [hc'])) (by simp at hlen; omega)
    simp only [List.cons_append, readNumberLoop, hd]
    have hfit : ¬maxDigits < count + 1 := by simp at hlen; omega
    rw [if_neg hfit, hnext]
    simp [digitStep, hd, Nat.add_assoc, Nat.add_comm 1]

/-- Folding the digit step over `Nat.toDigits` gives the number back. -/
theorem foldl_digitStep_toDigits {radix : Nat} (hr : 1 < radix) (hr' : radix ≤ 16) (n : Nat) :
    (Nat.toDigits radix n).foldl (digitStep radix) 0 = n := by
  induction n using Nat.base_induction radix hr with
  | single m hm =>
    simp [Nat.toDigits_of_lt_base hm, digitStep, toDigit_digitChar hm hr']
  | digit m k hk hm ih =>
    rw [← Nat.toDigits_append_toDigits hr hm hk, List.foldl_append, ih,
      Nat.toDigits_of_lt_base hk]
    simp [digitStep, toDigit_digitChar hk hr', Nat.mul_comm]

/-- `Nat.toDigits` starts with `0` only for zero itself. -/
theorem toDigits_head_zero {b n : Nat} (hb : 1 < b) (hb' : b ≤ 16)
    (h : (Nat.toDigits b n).head? = some '0') : n = 0 := by
  induction n using Nat.strongRecOn with
  | ind n ih =>
    rw [Nat.toDigits_eq_if hb] at h
    split at h
    · rename_i hn
      simp only [List.head?_cons, Option.some.injEq] at h
      have hv := charDigitValue_digitChar (by omega : n < 16)
      rw [h] at hv
      simp [charDigitValue] at hv
      omega
    · rename_i hn
      rw [List.head?_append_of_ne_nil _ Nat.toDigits_ne_nil] at h
      have := ih (n / b) (Nat.div_lt_self (by omega) hb) h
      rw [Nat.div_eq_zero_iff] at this
      omega

/-- `read_number` reads back a number that `Nat.toDigits` wrote, when it fits and no digit
follows; the leading-zero rule never fires, since only zero itself is written with a `0`. -/
theorem readNumber_toDigits {radix maxDigits n : Nat} {allowZeroPrefix : Bool} {rest : List Char}
    (hr : 1 < radix) (hr' : radix ≤ 16) (hlen : (Nat.toDigits radix n).length ≤ maxDigits)
    (hrest : ∀ c ∈ rest.head?, toDigit radix c = none) :
    readNumber radix maxDigits allowZeroPrefix (Nat.toDigits radix n ++ rest) = some (n, rest) := by
  have hloop := @readNumberLoop_digits radix maxDigits rest hrest (Nat.toDigits radix n) 0 0
    (fun c hc => toDigit_of_mem_toDigits hr hr' hc) (by omega)
  have hpos := @Nat.length_toDigits_pos radix n
  have hzero : (Nat.toDigits radix n ++ rest).head? = some '0' → (Nat.toDigits radix n).length = 1 := by
    intro h
    rw [List.head?_append_of_ne_nil _ Nat.toDigits_ne_nil] at h
    rw [toDigits_head_zero hr hr' h, Nat.toDigits_zero]
    rfl
  unfold readNumber
  rw [hloop, foldl_digitStep_toDigits hr hr' n]
  simp only [Nat.zero_add]
  rw [if_neg (by omega)]
  by_cases h0 : (Nat.toDigits radix n ++ rest).head? = some '0'
  · have h1 := hzero h0
    rw [if_neg (by simp [h1])]
  · rw [decide_eq_false h0, Bool.and_false, Bool.false_and]
    rfl

/-- A read that finds no digit at the front fails. -/
theorem readNumber_of_head {radix maxDigits : Nat} {allowZeroPrefix : Bool} {s : List Char}
    (h : ∀ c ∈ s.head?, toDigit radix c = none) :
    readNumber radix maxDigits allowZeroPrefix s = none := by
  cases s with
  | nil => simp [readNumber, readNumberLoop]
  | cons c cs => simp [readNumber, readNumberLoop, h c rfl]

/-- The digit loop only ever consumes a prefix of its input. -/
theorem readNumberLoop_suffix {radix maxDigits : Nat} :
    ∀ (s : List Char) (acc count v k : Nat) (r : List Char),
      readNumberLoop radix maxDigits acc count s = some (v, k, r) → r <:+ s
  | [], _, _, _, _, _, h => by
    simp only [readNumberLoop, Option.some.injEq, Prod.mk.injEq] at h
    obtain ⟨-, -, rfl⟩ := h
    exact List.suffix_refl _
  | c :: cs, acc, count, v, k, r, h => by
    simp only [readNumberLoop] at h
    split at h
    · simp only [Option.some.injEq, Prod.mk.injEq] at h
      obtain ⟨-, -, rfl⟩ := h
      exact List.suffix_refl _
    · split at h
      · cases h
      · exact (readNumberLoop_suffix cs _ _ v k r h).trans (List.suffix_cons c cs)

theorem readOctet_suffix {s r : List Char} {o : UInt8} (h : readOctet s = some (o, r)) :
    r <:+ s := by
  simp only [readOctet, readNumber, Option.bind_eq_some_iff] at h
  obtain ⟨⟨v, r'⟩, hn, hv⟩ := h
  split at hn
  · cases hn
  · rename_i result count rest hloop
    split at hn
    · cases hn
    · split at hn
      · cases hn
      · simp only [Option.some.injEq, Prod.mk.injEq] at hn
        split at hv
        · simp only [Option.some.injEq, Prod.mk.injEq] at hv
          rw [← hv.2, ← hn.2]
          exact readNumberLoop_suffix s 0 0 result count rest hloop
        · cases hv

theorem decimal_toDigit_dot : toDigit 10 '.' = none := by decide

theorem dot_head_not_digit (t : List Char) : ∀ c ∈ ('.' :: t).head?, toDigit 10 c = none := by
  simp [decimal_toDigit_dot]

theorem toDigit_colon (radix : Nat) : toDigit radix ':' = none := by
  simp [toDigit, charDigitValue]

/-- An octet reads back from its decimal text. -/
theorem readOctet_octetText (o : UInt8) {rest : List Char}
    (hrest : ∀ c ∈ rest.head?, toDigit 10 c = none) :
    readOctet (octetText o ++ rest) = some (o, rest) := by
  have hlt := o.toNat_lt
  have hlen : (Nat.toDigits 10 o.toNat).length ≤ 3 :=
    (Nat.length_toDigits_le_iff (by decide) (by decide)).mpr (by simp at hlt ⊢; omega)
  simp only [readOctet, octetText, readNumber_toDigits (by decide) (by decide) hlen hrest,
    Option.bind_some]
  rw [if_pos (by simp at hlt ⊢; omega)]
  simp

/-- A segment reads back from its hexadecimal text. -/
theorem readHexGroup_segmentText (g : UInt16) {rest : List Char}
    (hrest : ∀ c ∈ rest.head?, toDigit 16 c = none) :
    readHexGroup (segmentText g ++ rest) = some (g, rest) := by
  have hlt := g.toNat_lt
  have hlen : (Nat.toDigits 16 g.toNat).length ≤ 4 :=
    (Nat.length_toDigits_le_iff (by decide) (by decide)).mpr (by simp at hlt ⊢; omega)
  simp only [readHexGroup, segmentText, readNumber_toDigits (by decide) (by decide) hlen hrest,
    Option.bind_some]
  rw [if_pos (by simp at hlt ⊢; omega)]
  simp

/-! ### IPv4 -/

/-- An IPv4 address reads back from its dotted-decimal text when no digit follows. -/
theorem readIpv4Addr_toText (a : Ipv4Addr) {rest : List Char}
    (hrest : ∀ c ∈ rest.head?, toDigit 10 c = none) :
    readIpv4Addr (a.toText ++ rest) = some (a, rest) := by
  obtain ⟨o1, o2, o3, o4, rfl⟩ := Ipv4Addr.eq_new a
  rw [Ipv4Addr.toText_new]
  simp [readIpv4Addr, readSeparator, readGivenChar, readOctet_octetText o1 (dot_head_not_digit _),
    readOctet_octetText o2 (dot_head_not_digit _), readOctet_octetText o3 (dot_head_not_digit _),
    readOctet_octetText o4 hrest]

/-- Reading an IPv4 address needs a `.` in the input. -/
theorem readIpv4Addr_of_not_mem {s : List Char} (hs : '.' ∉ s) : readIpv4Addr s = none := by
  simp only [readIpv4Addr, readSeparator, Nat.lt_irrefl, if_false]
  cases h1 : readOctet s with
  | none => rfl
  | some p =>
    obtain ⟨o, r⟩ := p
    have hsuf := readOctet_suffix h1
    cases r with
    | nil => simp [readGivenChar]
    | cons c cs =>
      have hc : c ≠ '.' := fun hc => hs (hsuf.mem (by simp [hc]))
      simp [readGivenChar, hc]

theorem readIpv4Addr_of_head {s : List Char} (h : ∀ c ∈ s.head?, toDigit 10 c = none) :
    readIpv4Addr s = none := by
  simp [readIpv4Addr, readSeparator, readOctet, readNumber_of_head h]

/-! ### IPv6 groups -/

theorem charDigitValue_dot : charDigitValue '.' = none := by decide

/-- No hexadecimal group text holds a `.`. -/
theorem dot_not_mem_segmentText (g : UInt16) : '.' ∉ segmentText g := by
  intro h
  obtain ⟨d, hd, he⟩ := exists_digitChar_of_mem_toDigits (by decide) h
  have hv := charDigitValue_digitChar hd
  rw [← he, charDigitValue_dot] at hv
  cases hv

/-- The text of further groups, each after its `:` separator. -/
def sepText (gs : List UInt16) : List Char := gs.flatMap fun g => ':' :: segmentText g

@[simp]
theorem sepText_nil : sepText [] = [] := rfl

theorem sepText_cons (g : UInt16) (gs : List UInt16) :
    sepText (g :: gs) = ':' :: (segmentText g ++ sepText gs) := rfl

theorem fmtSubslice_cons (g : UInt16) (gs : List UInt16) :
    fmtSubslice (g :: gs) = segmentText g ++ sepText gs := by
  induction gs generalizing g with
  | nil => simp [fmtSubslice]
  | cons g' gs ih =>
    have h := ih g'
    simp only [fmtSubslice, List.map_cons] at h ⊢
    rw [List.intercalate_cons_cons, h, sepText_cons]
    simp

theorem dot_not_mem_sepText (gs : List UInt16) : '.' ∉ sepText gs := by
  simp only [sepText, List.mem_flatMap, List.mem_cons, not_exists, not_and]
  intro g _ h
  rcases h with h | h
  · cases h
  · exact dot_not_mem_segmentText g h

theorem dot_not_mem_fmtSubslice (chunk : List UInt16) : '.' ∉ fmtSubslice chunk := by
  cases chunk with
  | nil => simp [fmtSubslice]
  | cons g gs =>
    rw [fmtSubslice_cons, List.mem_append, not_or]
    exact ⟨dot_not_mem_segmentText g, dot_not_mem_sepText gs⟩

/-- Where a run of groups stops: the end of the input, or the `::` elision. -/
def GroupsEnd (rest : List Char) : Prop := rest = [] ∨ ∃ r, rest = ':' :: ':' :: r

theorem groupsEnd_head {radix : Nat} {rest : List Char} (h : GroupsEnd rest) :
    ∀ c ∈ rest.head?, toDigit radix c = none := by
  rcases h with rfl | ⟨r, rfl⟩
  · simp
  · simp [toDigit_colon]

theorem sepText_head {radix : Nat} {rest : List Char} (h : GroupsEnd rest) (gs : List UInt16) :
    ∀ c ∈ (sepText gs ++ rest).head?, toDigit radix c = none := by
  cases gs with
  | nil => exact groupsEnd_head h
  | cons g gs => simp [sepText_cons, toDigit_colon]

/-- Neither an embedded IPv4 address nor a group starts where a run of groups stops. -/
theorem readSeparator_groupsEnd {α : Type} {inner : List Char → Option (α × List Char)}
    (hinner : ∀ s, (∀ c ∈ s.head?, toDigit 10 c = none ∧ toDigit 16 c = none) → inner s = none)
    {rest : List Char} (h : GroupsEnd rest) (i : Nat) :
    readSeparator ':' i inner rest = none := by
  rcases h with rfl | ⟨r, rfl⟩
  · unfold readSeparator
    split
    · rfl
    · exact hinner [] (by simp)
  · unfold readSeparator
    split
    · exact hinner (':' :: r) (by simp [toDigit_colon])
    · exact hinner (':' :: ':' :: r) (by simp [toDigit_colon])

theorem readIpv4Addr_of_head_digits {s : List Char}
    (h : ∀ c ∈ s.head?, toDigit 10 c = none ∧ toDigit 16 c = none) : readIpv4Addr s = none :=
  readIpv4Addr_of_head fun c hc => (h c hc).1

theorem readHexGroup_of_head {s : List Char}
    (h : ∀ c ∈ s.head?, toDigit 10 c = none ∧ toDigit 16 c = none) : readHexGroup s = none := by
  simp [readHexGroup, readNumber_of_head fun c hc => (h c hc).2]

/-- Without a `.` ahead, the embedded IPv4 attempt of `read_groups` fails. -/
theorem readSeparator_ipv4_of_not_mem {s : List Char} (hs : '.' ∉ s) (i : Nat) :
    readSeparator ':' i readIpv4Addr s = none := by
  unfold readSeparator
  split
  · cases s with
    | nil => rfl
    | cons c cs =>
      have hcs : '.' ∉ cs := fun h => hs (List.mem_cons_of_mem c h)
      simp only [readGivenChar]
      split
      · exact readIpv4Addr_of_not_mem hcs
      · rfl
  · exact readIpv4Addr_of_not_mem hs

/-- `read_groups` stops, reading nothing, where a run of groups ends. -/
theorem readGroups_groupsEnd {limit i n : Nat} {rest : List Char} (h : GroupsEnd rest) :
    readGroups limit i n rest = ([], false, rest) := by
  cases n with
  | zero => rfl
  | succ n =>
    have h4 : (if i + 1 < limit then readSeparator ':' i readIpv4Addr rest else none) = none := by
      split
      · exact readSeparator_groupsEnd (fun _ hs => readIpv4Addr_of_head_digits hs) h i
      · rfl
    simp only [readGroups, h4, readSeparator_groupsEnd (fun _ hs => readHexGroup_of_head hs) h i]

/-- `read_groups` past the first group reads back the groups written after separators. -/
theorem readGroups_sepText {limit : Nat} {rest : List Char} (hend : GroupsEnd rest) :
    ∀ (gs : List UInt16) (i n : Nat), 0 < i → gs.length ≤ n → '.' ∉ rest →
      readGroups limit i n (sepText gs ++ rest) = (gs, false, rest)
  | [], _, _, _, _, _ => readGroups_groupsEnd hend
  | _ :: _, _, 0, _, hlen, _ => absurd hlen (by simp)
  | g :: gs, i, n + 1, hi, hlen, hdot => by
    have hnodot : '.' ∉ sepText (g :: gs) ++ rest := by
      rw [List.mem_append, not_or]
      exact ⟨dot_not_mem_sepText _, hdot⟩
    have h4 : (if i + 1 < limit then readSeparator ':' i readIpv4Addr (sepText (g :: gs) ++ rest)
        else none) = none := by
      split
      · exact readSeparator_ipv4_of_not_mem hnodot i
      · rfl
    have hhex : readSeparator ':' i readHexGroup (sepText (g :: gs) ++ rest) =
        some (g, sepText gs ++ rest) := by
      rw [readSeparator, if_pos hi, sepText_cons, List.cons_append]
      simp only [readGivenChar, if_true, Option.bind_some, List.append_assoc]
      exact readHexGroup_segmentText g (sepText_head hend gs)
    have htail := @readGroups_sepText limit rest hend gs (i + 1) n (Nat.succ_pos i)
      (by simp at hlen; omega) hdot
    simp only [readGroups, h4, hhex, htail]

/-- `read_groups` reads back a whole `fmt_subslice` chunk that fits its slots. -/
theorem readGroups_fmtSubslice {limit n : Nat} {rest : List Char} {chunk : List UInt16}
    (hend : GroupsEnd rest) (hlen : chunk.length ≤ n) (hdot : '.' ∉ rest) :
    readGroups limit 0 n (fmtSubslice chunk ++ rest) = (chunk, false, rest) := by
  cases chunk with
  | nil => exact readGroups_groupsEnd hend
  | cons g gs =>
    obtain ⟨n, rfl⟩ : ∃ m, n = m + 1 := ⟨n - 1, by simp at hlen; omega⟩
    have hnodot : '.' ∉ fmtSubslice (g :: gs) ++ rest := by
      rw [List.mem_append, not_or]
      exact ⟨dot_not_mem_fmtSubslice _, hdot⟩
    have h4 : (if 0 + 1 < limit then readSeparator ':' 0 readIpv4Addr
        (fmtSubslice (g :: gs) ++ rest) else none) = none := by
      split
      · exact readSeparator_ipv4_of_not_mem hnodot 0
      · rfl
    have hhex : readSeparator ':' 0 readHexGroup (fmtSubslice (g :: gs) ++ rest) =
        some (g, sepText gs ++ rest) := by
      rw [readSeparator, if_neg (Nat.lt_irrefl 0), fmtSubslice_cons, List.append_assoc]
      exact readHexGroup_segmentText g (sepText_head hend gs)
    have htail := @readGroups_sepText limit rest hend gs 1 n Nat.one_pos (by simp at hlen; omega) hdot
    simp only [readGroups, h4, hhex, htail]

/-! ### IPv6 addresses -/

/-- Splitting the segments around a zero run gives the head, the zeros, and the tail. -/
theorem segments_eq_of_zeroRun {segs : List UInt16} {span : Span} (h : ZeroRun segs span) :
    segs = segs.take span.start ++ List.replicate span.len 0 ++ segs.drop (span.start + span.len) := by
  obtain ⟨hlen, hz⟩ := h
  have hmid : (segs.drop span.start).take span.len = List.replicate span.len 0 := by
    rw [List.eq_replicate_iff]
    refine ⟨by simp; omega, fun b hb => ?_⟩
    obtain ⟨j, hj⟩ := List.mem_iff_getElem?.mp hb
    rw [List.getElem?_take] at hj
    split at hj
    · rename_i hjl
      rw [List.getElem?_drop, hz (span.start + j) (by omega) (by omega)] at hj
      exact (Option.some.inj hj).symm
    · cases hj
  calc segs = segs.take span.start ++ segs.drop span.start := (List.take_append_drop _ _).symm
    _ = segs.take span.start ++ ((segs.drop span.start).take span.len ++
          (segs.drop span.start).drop span.len) := by
          rw [List.take_append_drop span.len (segs.drop span.start)]
    _ = _ := by rw [hmid, List.drop_drop, List.append_assoc]

/-- An address written without `::` reads back from its eight groups. -/
theorem readIpv6Addr_fmtSubslice (a : Ipv6Addr) :
    readIpv6Addr (fmtSubslice a.segments) = some (a, []) := by
  have hg := @readGroups_fmtSubslice 8 8 [] a.segments (Or.inl rfl)
    (by rw [a.length_segments]) (by simp)
  rw [List.append_nil] at hg
  simp only [readIpv6Addr, hg, a.length_segments, if_true]
  rw [Ipv6Addr.ofList_of_length a.length_segments]

/-- An address written with its zero run elided reads back: the head fills the front, `::`
is read, and the tail is placed at the end over zero segments. -/
theorem readIpv6Addr_elided (a : Ipv6Addr) {span : Span} (hrun : ZeroRun a.segments span)
    (hlong : 1 < span.len) :
    readIpv6Addr (fmtSubslice (a.segments.take span.start) ++ "::".toList ++
      fmtSubslice (a.segments.drop (span.start + span.len))) = some (a, []) := by
  have hsegs := a.length_segments
  have hfit := hrun.1
  set head := a.segments.take span.start with hhead
  set tail := a.segments.drop (span.start + span.len) with htail
  have hheadLen : head.length = span.start := by simp [hhead]; omega
  have htailLen : tail.length = 8 - (span.start + span.len) := by simp [htail, hsegs]
  have hg1 := @readGroups_fmtSubslice 8 8 (':' :: ':' :: fmtSubslice tail) head
    (Or.inr ⟨_, rfl⟩) (by omega)
    (by simp [dot_not_mem_fmtSubslice])
  have hg2 := @readGroups_fmtSubslice (8 - (head.length + 1)) (8 - (head.length + 1)) [] tail
    (Or.inl rfl) (by omega) (by simp)
  rw [List.append_nil] at hg2
  have hne : head.length ≠ 8 := by omega
  have hpad : (head ++ List.replicate 8 0).take (8 - tail.length) ++ tail = a.segments := by
    rw [List.take_append, hheadLen, List.take_of_length_le (by omega), List.take_replicate,
      Nat.min_eq_left (by omega)]
    have : 8 - tail.length - span.start = span.len := by omega
    rw [this]
    exact (segments_eq_of_zeroRun hrun).symm
  have htext : fmtSubslice head ++ "::".toList ++ fmtSubslice tail =
      fmtSubslice head ++ ':' :: ':' :: fmtSubslice tail := by simp
  rw [htext]
  simp only [readIpv6Addr, hg1, hne, if_false, Bool.false_eq_true, readGivenChar, if_true,
    Option.bind_eq_bind, Option.bind_some, hg2]
  rw [hpad, Ipv6Addr.ofList_of_length hsegs]

/-- An IPv4-mapped address reads back from `::ffff:a.b.c.d`: the head is empty, and the
tail is `ffff` followed by the embedded IPv4 address. -/
theorem readIpv6Addr_mapped {a : Ipv6Addr} {v4 : Ipv4Addr} (hm : a.toIpv4Mapped = some v4) :
    readIpv6Addr ("::ffff:".toList ++ v4.toText) = some (a, []) := by
  have hsegs := Ipv6Addr.toIpv4Mapped_eq_some hm
  have hsegText : segmentText 0xffff = ['f', 'f', 'f', 'f'] := by decide
  have htext : "::ffff:".toList ++ v4.toText =
      ':' :: ':' :: (segmentText 0xffff ++ ':' :: v4.toText) := by
    rw [hsegText]
    rfl
  have hcolon : ∀ c ∈ (':' :: v4.toText).head?, toDigit 16 c = none := by simp [toDigit_colon]
  have hv4 : readIpv4Addr v4.toText = some (v4, []) := by
    simpa using @readIpv4Addr_toText v4 [] (by simp)
  have hf : readIpv4Addr (segmentText 0xffff ++ ':' :: v4.toText) = none := by
    apply readIpv4Addr_of_head
    rw [hsegText]
    simp only [List.cons_append, List.head?_cons, Option.mem_def, Option.some.injEq, forall_eq']
    decide
  have hhead : readGroups 8 0 8 (':' :: ':' :: (segmentText 0xffff ++ ':' :: v4.toText)) =
      ([], false, ':' :: ':' :: (segmentText 0xffff ++ ':' :: v4.toText)) :=
    readGroups_groupsEnd (Or.inr ⟨_, rfl⟩)
  have htail : readGroups 7 0 7 (segmentText 0xffff ++ ':' :: v4.toText) =
      (0xffff :: ipv4Segments v4, true, []) := by
    simp [readGroups, readSeparator, hf, readHexGroup_segmentText 0xffff hcolon, readGivenChar,
      hv4]
  have hlist : List.take (8 - ((ipv4Segments v4).length + 1)) (List.replicate 8 0) ++
      0xffff :: ipv4Segments v4 = a.segments := by
    rw [hsegs, ipv4Segments_length]
    rfl
  rw [htext]
  simp only [readIpv6Addr, hhead, List.length_nil, readGivenChar, if_true, Option.bind_eq_bind,
    Option.bind_some, htail]
  simp only [List.nil_append, List.length_cons]
  rw [hlist, Ipv6Addr.ofList_of_length a.length_segments]
  rfl

/-- Every IPv6 address reads back from its `Display` text. -/
theorem readIpv6Addr_toText (a : Ipv6Addr) : readIpv6Addr a.toText = some (a, []) := by
  unfold Ipv6Addr.toText
  cases hm : a.toIpv4Mapped with
  | some v4 => exact readIpv6Addr_mapped hm
  | none =>
    simp only
    split
    · rename_i hlong
      exact readIpv6Addr_elided a (longestZeroSpan_zeroRun a.segments) hlong
    · exact readIpv6Addr_fmtSubslice a

/-- An IPv6 `Display` text never starts an IPv4 address. -/
theorem readIpv4Addr_ipv6Text (a : Ipv6Addr) : readIpv4Addr a.toText = none := by
  unfold Ipv6Addr.toText
  cases a.toIpv4Mapped with
  | some v4 => exact readIpv4Addr_of_head (by simp [toDigit_colon])
  | none =>
    simp only
    split
    · apply readIpv4Addr_of_not_mem
      simp [dot_not_mem_fmtSubslice]
    · exact readIpv4Addr_of_not_mem (dot_not_mem_fmtSubslice _)

/-- `IpAddr::from_str` reads back every address from its `Display` text. -/
theorem ipAddrFromStr_toText (a : IpAddr) : ipAddrFromStr a.toText = .ok a := by
  cases a with
  | v4 a =>
    have h := @readIpv4Addr_toText a [] (by simp)
    rw [List.append_nil] at h
    simp [ipAddrFromStr, readIpAddr, IpAddr.toText, h]
  | v6 a =>
    simp [ipAddrFromStr, readIpAddr, IpAddr.toText, readIpv4Addr_ipv6Text, readIpv6Addr_toText]

/-- An input that starts with neither a digit nor `:` is no address. -/
theorem ipAddrFromStr_of_head {s : List Char}
    (h : ∀ c ∈ s.head?, toDigit 10 c = none ∧ toDigit 16 c = none ∧ c ≠ ':') :
    ipAddrFromStr s = .error addrParseErrorText := by
  have h4 : readIpv4Addr s = none := readIpv4Addr_of_head fun c hc => (h c hc).1
  have h6 : readHexGroup s = none := readHexGroup_of_head fun c hc => ⟨(h c hc).1, (h c hc).2.1⟩
  have hcolon : readGivenChar ':' s = none := by
    cases s with
    | nil => rfl
    | cons c cs => simp [readGivenChar, (h c rfl).2.2]
  simp [ipAddrFromStr, readIpAddr, h4, readIpv6Addr, readGroups, readSeparator, h6, hcolon]

/-! ### `u16::from_str` -/

/-- `ParseIntError` for an empty input. -/
def emptyIntErrorText : String := "cannot parse integer from empty string"

/-- `ParseIntError` for a character that is not a digit. -/
def invalidDigitErrorText : String := "invalid digit found in string"

/-- `ParseIntError` for a value over the type's maximum. -/
def posOverflowErrorText : String := "number too large to fit in target type"

/-- The digit loop of `u16::from_str_radix(_, 10)`: a value over `u16::MAX` fails. -/
def u16DigitsLoop : Nat → List Char → Except String UInt16
  | acc, [] => .ok (UInt16.ofNat acc)
  | acc, c :: cs =>
    match toDigit 10 c with
    | none => .error invalidDigitErrorText
    | some d =>
      if 65535 < acc * 10 + d then .error posOverflowErrorText
      else u16DigitsLoop (acc * 10 + d) cs

/-- `u16::from_str`: an optional `+`, then decimal digits; a lone sign is an invalid digit. -/
def u16FromStr : List Char → Except String UInt16
  | [] => .error emptyIntErrorText
  | ['+'] | ['-'] => .error invalidDigitErrorText
  | '+' :: rest => u16DigitsLoop 0 rest
  | s => u16DigitsLoop 0 s

theorem le_foldl_digitStep {radix : Nat} (hr : 0 < radix) :
    ∀ (ds : List Char) (acc : Nat), acc ≤ ds.foldl (digitStep radix) acc
  | [], _ => le_refl _
  | c :: cs, acc => by
    have hstep : acc ≤ digitStep radix acc c := by
      unfold digitStep
      exact le_trans (Nat.le_mul_of_pos_right acc hr) (Nat.le_add_right _ _)
    exact le_trans hstep (le_foldl_digitStep hr cs _)

/-- The digit loop reads a run of digits whose value fits in `u16`. -/
theorem u16DigitsLoop_digits :
    ∀ (ds : List Char) (acc : Nat), (∀ c ∈ ds, ∃ d, toDigit 10 c = some d) →
      ds.foldl (digitStep 10) acc < 65536 →
      u16DigitsLoop acc ds = .ok (UInt16.ofNat (ds.foldl (digitStep 10) acc))
  | [], _, _, _ => rfl
  | c :: cs, acc, hds, hlt => by
    obtain ⟨d, hd⟩ := hds c (by simp)
    have hstep : digitStep 10 acc c = acc * 10 + d := by simp [digitStep, hd]
    have hle := @le_foldl_digitStep 10 (by norm_num) cs (acc * 10 + d)
    rw [List.foldl_cons, hstep] at hlt ⊢
    simp only [u16DigitsLoop, hd]
    rw [if_neg (by omega)]
    exact u16DigitsLoop_digits cs _ (fun c' hc' => hds c' (by simp [hc'])) hlt

/-- `u16::from_str` reads back the decimal text of every port number. -/
theorem u16FromStr_toDigits (p : UInt16) : u16FromStr (Nat.toDigits 10 p.toNat) = .ok p := by
  have hdigits : ∀ c ∈ Nat.toDigits 10 p.toNat, ∃ d, toDigit 10 c = some d :=
    fun c hc => toDigit_of_mem_toDigits (by norm_num) (by norm_num) hc
  have hloop := u16DigitsLoop_digits (Nat.toDigits 10 p.toNat) 0 hdigits
    (by rw [foldl_digitStep_toDigits (by norm_num) (by norm_num)]; exact p.toNat_lt)
  rw [foldl_digitStep_toDigits (by norm_num) (by norm_num), UInt16.ofNat_toNat] at hloop
  have hsign : ∀ c ∈ Nat.toDigits 10 p.toNat, c ≠ '+' ∧ c ≠ '-' := by
    intro c hc
    obtain ⟨d, hd⟩ := hdigits c hc
    constructor <;> rintro rfl <;> simp [toDigit, charDigitValue] at hd
  cases h : Nat.toDigits 10 p.toNat with
  | nil => exact absurd h Nat.toDigits_ne_nil
  | cons c cs =>
    rw [h] at hloop hsign
    have hc := hsign c (by simp)
    cases cs with
    | nil => simpa [u16FromStr, hc.1, hc.2] using hloop
    | cons c' cs' => simpa [u16FromStr, hc.1] using hloop

end Rpxy.RustIpParser
