import Rpxy.ForwardedSyntax

/-!
# The `Forwarded` writer and reader are inverse

`generate_forwarded_header` writes each hop as `for=` and optional `proto=`, `host=` and
`by=` parameters, quoting what is not a token; `parse_forwarded_header` splits the value
at `,` and `;` outside quotes, unquotes, and reads the node shape back. Both directions
are proved: a well-formed chain whose text parameters are header text reads back from
its `Forwarded` field-line exactly, and every chain the reader accepts is well formed
with header-text parameters, so it survives a write and a read. Text that is not header
text does not: `HeaderValue::to_str` refuses it when the field-line is read.

The splitter is handled through `Transparent` text, which the scan crosses from outside
quotes to outside quotes without closing a segment; tokens and quoted-strings are
transparent, and so is every concatenation of them.
-/

namespace Rpxy.ForwardedRoundTrip

open RustText RustResult RustIpAddr RustIpParser HttpHeaders ForwardedSyntax

/-! ### The quote-aware splitter -/

section Splitter

variable {d : Char}

/-- `t` goes through the splitter from outside quotes to outside quotes without closing
a segment. -/
def Transparent (d : Char) (t : List Char) : Prop :=
  ∀ seg rest, splitScan d seg false false (t ++ rest) = splitScan d (seg ++ t) false false rest

theorem transparent_nil : Transparent d [] := by
  intro seg rest
  simp

theorem Transparent.append {t u : List Char} (ht : Transparent d t) (hu : Transparent d u) :
    Transparent d (t ++ u) := by
  intro seg rest
  rw [List.append_assoc, ht, hu, List.append_assoc]

/-- Text without quotes and delimiters is copied into the open segment. -/
theorem transparent_plain {t : List Char} (h : ∀ c ∈ t, c ≠ '"' ∧ c ≠ d) : Transparent d t := by
  induction t with
  | nil => exact transparent_nil
  | cons c cs ih =>
    intro seg rest
    have hc := h c (by simp)
    have hcs := ih (fun c' hc' => h c' (by simp [hc']))
    rw [List.cons_append, splitScan, if_neg (by simp), if_neg hc.1, if_neg (by simp [hc.2]), hcs]
    simp

/-- Inside quotes, escaped text and the closing quote are copied without a split. -/
theorem splitScan_escaped (s : List Char) :
    ∀ seg rest, splitScan d seg true false (escapeQuotedPairs s ++ '"' :: rest) =
      splitScan d (seg ++ escapeQuotedPairs s ++ ['"']) false false rest := by
  induction s with
  | nil =>
    intro seg rest
    simp [escapeQuotedPairs, splitScan]
  | cons c cs ih =>
    intro seg rest
    by_cases hc : c = '\\' ∨ c = '"'
    · have hesc : escapeQuotedPairs (c :: cs) = '\\' :: c :: escapeQuotedPairs cs := by
        simp [escapeQuotedPairs, hc]
      rw [hesc, List.cons_append, List.cons_append, splitScan, if_pos ⟨rfl, rfl⟩, splitScan, ih]
      simp
    · have hesc : escapeQuotedPairs (c :: cs) = c :: escapeQuotedPairs cs := by
        simp [escapeQuotedPairs, hc]
      have hc' : c ≠ '\\' ∧ c ≠ '"' := not_or.mp hc
      rw [hesc, List.cons_append, splitScan, if_neg (by simp [hc'.1]), if_neg hc'.2,
        if_neg (by simp), ih]
      simp

/-- A quoted-string written with quoted-pairs is transparent. -/
theorem transparent_quoted (s : List Char) : Transparent d ('"' :: escapeQuotedPairs s ++ ['"']) := by
  intro seg rest
  rw [List.cons_append, List.cons_append, splitScan, if_neg (by simp), if_pos rfl, Bool.not_false,
    List.append_assoc, List.singleton_append, splitScan_escaped]
  simp

/-- Splitting the segments joined by the delimiter and some whitespace gives them back,
when each is transparent and trimmed; `w` is whitespace already in the open segment. -/
theorem splitScan_intercalate (hdq : d ≠ '"') (hdw : isWhitespace d = false) {ws : List Char}
    (hws : ∀ c ∈ ws, isWhitespace c = true) :
    ∀ (segs : List (List Char)) (w : List Char), segs ≠ [] → (∀ c ∈ w, isWhitespace c = true) →
      (∀ t ∈ segs, Transparent d t ∧ Trimmed t) →
      splitScan d w false false (List.intercalate (d :: ws) segs) = segs
  | [], _, hne, _, _ => absurd rfl hne
  | [t], w, _, hw, ht => by
    obtain ⟨htr, htrim⟩ := ht t (by simp)
    have hend := htr w []
    rw [List.append_nil] at hend
    rw [List.intercalate_singleton, hend, splitScan, trim_whitespace_append hw htrim]
  | t :: u :: rest, w, _, hw, ht => by
    obtain ⟨htr, htrim⟩ := ht t (by simp)
    have hwsq : ∀ c ∈ ws, c ≠ '"' ∧ c ≠ d := by
      intro c hc
      have hcw := hws c hc
      refine ⟨?_, ?_⟩ <;> rintro rfl
      · exact absurd hcw (by decide)
      · exact absurd hcw (by simp [hdw])
    have hnext := splitScan_intercalate hdq hdw hws (u :: rest) ws (by simp) hws
      (fun t' ht' => ht t' (by simp [ht']))
    rw [List.intercalate_cons_cons, List.append_assoc, htr, List.cons_append, splitScan, if_neg (by simp),
      if_neg hdq, if_pos ⟨rfl, rfl⟩, trim_whitespace_append hw htrim,
      transparent_plain hwsq, List.nil_append, hnext]

end Splitter

/-! ### Quoted-strings -/

theorem unescapeScan_escapeQuotedPairs (s : List Char) :
    ∀ result, unescapeScan result false (escapeQuotedPairs s) = (result ++ s, false) := by
  induction s with
  | nil => intro result; simp [escapeQuotedPairs, unescapeScan]
  | cons c cs ih =>
    intro result
    by_cases hc : c = '\\' ∨ c = '"'
    · have hesc : escapeQuotedPairs (c :: cs) = '\\' :: c :: escapeQuotedPairs cs := by
        simp [escapeQuotedPairs, hc]
      rw [hesc, unescapeScan, if_pos rfl, unescapeScan, ih]
      simp
    · have hesc : escapeQuotedPairs (c :: cs) = c :: escapeQuotedPairs cs := by
        simp [escapeQuotedPairs, hc]
      rw [hesc, unescapeScan, if_neg (not_or.mp hc).1, ih]
      simp

theorem trimmed_quoted (s : List Char) : Trimmed ('"' :: s ++ ['"']) := by
  have hlast : ('"' :: s ++ ['"']).getLast? = some '"' := List.getLast?_concat
  refine ⟨?_, ?_⟩
  · simp [isWhitespace]
  · rw [hlast]
    simp [isWhitespace]

/-- `unquote_http_value` reads back a quoted-string written with quoted-pairs. -/
theorem unquoteHttpValue_quoted (s : List Char) :
    unquoteHttpValue ('"' :: escapeQuotedPairs s ++ ['"']) = .ok s := by
  have htrim := trim_of_trimmed (trimmed_quoted (escapeQuotedPairs s))
  simp only [unquoteHttpValue]
  rw [htrim]
  simp [unescapeScan_escapeQuotedPairs]

/-- A trimmed token that does not open a quoted-string is its own value. -/
theorem unquoteHttpValue_token {t : List Char} (ht : Trimmed t) (hq : t.head? ≠ some '"') :
    unquoteHttpValue t = .ok t := by
  simp [unquoteHttpValue, trim_of_trimmed ht, hq]

theorem escapeQuotedPairs_of_plain {s : List Char} (h : ∀ c ∈ s, c ≠ '\\' ∧ c ≠ '"') :
    escapeQuotedPairs s = s := by
  induction s with
  | nil => rfl
  | cons c cs ih =>
    have hc := h c (by simp)
    have hcs := ih (fun c' hc' => h c' (by simp [hc']))
    simp only [escapeQuotedPairs, List.flatMap_cons] at hcs ⊢
    rw [if_neg (by simp [hc.1, hc.2]), hcs]
    rfl

/-! ### Tokens and the characters the writer uses -/

theorem isTchar_range {c : Char} (h : isTchar c = true) : 33 ≤ c.toNat ∧ c.toNat ≤ 126 := by
  unfold isTchar at h
  rcases Bool.or_eq_true_iff.mp h with h | h
  · have hs : ∀ x ∈ "!#$%&'*+-.^_`|~".toList, 33 ≤ x.toNat ∧ x.toNat ≤ 126 := by decide
    exact hs c (by simpa using h)
  · -- `delta`, not `simp`: the equation lemmas of these core predicates are not to be
    -- generated here, since a larger import already holds them
    delta Char.isAlphanum Char.isAlpha Char.isUpper Char.isLower Char.isDigit at h
    simp only [Bool.or_eq_true, Bool.and_eq_true, decide_eq_true_eq] at h
    simp only [Char.toNat]
    rcases h with (⟨h1, h2⟩ | ⟨h1, h2⟩) | ⟨h1, h2⟩ <;>
    · simp [UInt32.le_iff_toNat_le] at h1 h2 ⊢
      omega

theorem isTchar_not_whitespace {c : Char} (h : isTchar c = true) : isWhitespace c = false := by
  have hr := isTchar_range h
  simp [isWhitespace]
  omega

theorem isTchar_headerText {c : Char} (h : isTchar c = true) : isHeaderTextChar c = true := by
  have hr := isTchar_range h
  simp [isHeaderTextChar]
  omega

theorem ne_of_isTchar {c x : Char} (h : isTchar c = true) (hx : isTchar x = false) : c ≠ x := by
  rintro rfl
  simp [h] at hx

/-- Characters of address text: token characters and `:`. -/
def isAddrTextChar (c : Char) : Bool := isTchar c || c == ':'

theorem isTchar_digitChar {d : Nat} (hd : d < 16) : isTchar (Nat.digitChar d) = true := by
  have h : ∀ d < 16, isTchar (Nat.digitChar d) = true := by decide
  exact h d hd

/-! The characters of address texts are decimal or hexadecimal digits, `.` and `:`; the
lemmas are stated for any property those characters share. -/

theorem forall_mem_toDigits (P : Char → Prop) (hdigit : ∀ d < 16, P (Nat.digitChar d)) {b n : Nat}
    (hb : 1 < b) (hb' : b ≤ 16) : ∀ c ∈ Nat.toDigits b n, P c := by
  intro c hc
  obtain ⟨d, hd, rfl⟩ := exists_digitChar_of_mem_toDigits hb hc
  exact hdigit d (by omega)

theorem forall_mem_ipv4Text (P : Char → Prop) (hdigit : ∀ d < 16, P (Nat.digitChar d)) (hdot : P '.')
    (a : Ipv4Addr) : ∀ c ∈ a.toText, P c := by
  intro c hc
  obtain ⟨o1, o2, o3, o4, rfl⟩ := Ipv4Addr.eq_new a
  rw [Ipv4Addr.toText_new] at hc
  simp only [List.mem_append, List.mem_cons] at hc
  rcases hc with h | rfl | h | rfl | h | rfl | h
  all_goals first
    | exact forall_mem_toDigits P hdigit (by norm_num) (by norm_num) c h
    | exact hdot

theorem forall_mem_fmtSubslice (P : Char → Prop) (hdigit : ∀ d < 16, P (Nat.digitChar d)) (hcolon : P ':')
    (chunk : List UInt16) : ∀ c ∈ fmtSubslice chunk, P c := by
  intro c hc
  cases chunk with
  | nil => simp [fmtSubslice] at hc
  | cons g gs =>
    rw [fmtSubslice_cons] at hc
    simp only [sepText, List.mem_append, List.mem_flatMap, List.mem_cons] at hc
    rcases hc with h | ⟨g', _, rfl | h⟩
    · exact forall_mem_toDigits P hdigit (by norm_num) (by norm_num) c h
    · exact hcolon
    · exact forall_mem_toDigits P hdigit (by norm_num) (by norm_num) c h

theorem forall_mem_ipv6Text (P : Char → Prop) (hdigit : ∀ d < 16, P (Nat.digitChar d)) (hdot : P '.')
    (hcolon : P ':') (a : Ipv6Addr) : ∀ c ∈ a.toText, P c := by
  intro c hc
  unfold Ipv6Addr.toText at hc
  dsimp only at hc
  split at hc
  · simp only [List.mem_append] at hc
    rcases hc with h | h
    · rcases (by decide : ∀ x ∈ "::ffff:".toList, x = ':' ∨ x = Nat.digitChar 15) c h with rfl | rfl
      · exact hcolon
      · exact hdigit 15 (by norm_num)
    · exact forall_mem_ipv4Text P hdigit hdot _ c h
  · split at hc
    · simp only [List.mem_append] at hc
      rcases hc with (h | h) | h
      · exact forall_mem_fmtSubslice P hdigit hcolon _ c h
      · rw [(by decide : ∀ x ∈ "::".toList, x = ':') c h]
        exact hcolon
      · exact forall_mem_fmtSubslice P hdigit hcolon _ c h
    · exact forall_mem_fmtSubslice P hdigit hcolon _ c hc

theorem isTchar_of_mem_toDigits {b n : Nat} (hb : 1 < b) (hb' : b ≤ 16) {c : Char}
    (hc : c ∈ Nat.toDigits b n) : isTchar c = true :=
  forall_mem_toDigits (isTchar · = true) (fun _ hd => isTchar_digitChar hd) hb hb' c hc

theorem isTchar_of_mem_ipv4Text {a : Ipv4Addr} {c : Char} (hc : c ∈ a.toText) : isTchar c = true :=
  forall_mem_ipv4Text (isTchar · = true) (fun _ hd => isTchar_digitChar hd) (by decide) a c hc

theorem isAddrTextChar_of_mem_ipv6Text {a : Ipv6Addr} {c : Char} (hc : c ∈ a.toText) :
    isAddrTextChar c = true :=
  forall_mem_ipv6Text (isAddrTextChar · = true) (fun _ hd => by simp [isAddrTextChar, isTchar_digitChar hd])
    (by decide) (by decide) a c hc

theorem isAddrTextChar_of_mem_ipText {a : IpAddr} {c : Char} (hc : c ∈ a.toText) :
    isAddrTextChar c = true := by
  cases a with
  | v4 a => simp [isAddrTextChar, isTchar_of_mem_ipv4Text (show c ∈ a.toText from hc)]
  | v6 a => exact isAddrTextChar_of_mem_ipv6Text hc

/-- An IPv4 text starts with a decimal digit. -/
theorem ipv4Text_head (a : Ipv4Addr) : ∃ d < 10, ∃ rest, a.toText = Nat.digitChar d :: rest := by
  obtain ⟨o1, o2, o3, o4, rfl⟩ := Ipv4Addr.eq_new a
  rw [Ipv4Addr.toText_new]
  unfold octetText
  cases h : Nat.toDigits 10 o1.toNat with
  | nil => exact absurd h Nat.toDigits_ne_nil
  | cons c cs =>
    obtain ⟨d, hd, rfl⟩ := exists_digitChar_of_mem_toDigits (by norm_num : 1 < 10)
      (show c ∈ Nat.toDigits 10 o1.toNat by simp [h])
    exact ⟨d, hd, _, rfl⟩

theorem ipv4Text_ne_nil (a : Ipv4Addr) : a.toText ≠ [] := by
  obtain ⟨d, _, rest, h⟩ := ipv4Text_head a
  simp [h]

/-! ### Obfuscated identifiers -/

theorem isForwardedObfuscatedId_eq_true {s : List Char} (h : isForwardedObfuscatedId s = true) :
    ∃ rest, s = '_' :: rest ∧ rest ≠ [] ∧
      ∀ b ∈ rest, (b.isAlphanum || b == '.' || b == '_' || b == '-') = true := by
  unfold isForwardedObfuscatedId at h
  cases s with
  | nil => simp [stripPrefix] at h
  | cons c cs =>
    by_cases hc : c = '_'
    · subst hc
      simp only [stripPrefix_cons, if_true, Bool.and_eq_true, Bool.not_eq_true',
        List.isEmpty_eq_false_iff, List.all_eq_true] at h
      exact ⟨cs, rfl, h.1, h.2⟩
    · simp [stripPrefix, hc] at h

theorem isTchar_of_obfuscatedId {s : List Char} (h : isForwardedObfuscatedId s = true) :
    ∀ c ∈ s, isTchar c = true := by
  obtain ⟨rest, rfl, _, hall⟩ := isForwardedObfuscatedId_eq_true h
  intro c hc
  rcases List.mem_cons.mp hc with rfl | hc
  · decide
  · have hb := hall c hc
    simp only [Bool.or_eq_true, beq_iff_eq] at hb
    rcases hb with ((hb | rfl) | rfl) | rfl
    · simp [isTchar, hb]
    all_goals decide

theorem isTchar_of_mem_pushForwardedPort {p : ForwardedPort} (hp : p.isWellFormed = true) {c : Char}
    (hc : c ∈ pushForwardedPort p) : isTchar c = true := by
  cases p with
  | numeric q => exact isTchar_of_mem_toDigits (by norm_num) (by norm_num) hc
  | obfuscated s => exact isTchar_of_obfuscatedId hp c hc

/-! ### Parameter values -/

theorem trimmed_of_tokens {t : List Char} (h : ∀ c ∈ t, isTchar c = true) : Trimmed t :=
  ⟨fun c hc => isTchar_not_whitespace (h c (List.mem_of_mem_head? hc)),
    fun c hc => isTchar_not_whitespace (h c (List.mem_of_mem_getLast? hc))⟩

theorem writeForwardedParamValue_of_token {t : List Char} (hne : t ≠ [])
    (h : ∀ c ∈ t, isTchar c = true) : writeForwardedParamValue t = t := by
  unfold writeForwardedParamValue
  rw [if_pos]
  simp only [Bool.and_eq_true, Bool.not_eq_true', List.isEmpty_eq_false_iff, List.all_eq_true]
  exact ⟨hne, h⟩

theorem writeForwardedParamValue_of_not_token {t : List Char}
    (h : ¬(t ≠ [] ∧ ∀ c ∈ t, isTchar c = true)) :
    writeForwardedParamValue t = '"' :: escapeQuotedPairs t ++ ['"'] := by
  unfold writeForwardedParamValue
  rw [if_neg]
  simpa using h

theorem mem_escapeQuotedPairs {v : List Char} {c : Char} (hc : c ∈ escapeQuotedPairs v) :
    c = '\\' ∨ c ∈ v := by
  simp only [escapeQuotedPairs, List.mem_flatMap] at hc
  obtain ⟨a, ha, hca⟩ := hc
  split at hca
  · simp only [List.mem_cons, List.not_mem_nil, or_false] at hca
    rcases hca with rfl | rfl
    · exact Or.inl rfl
    · exact Or.inr ha
  · simp only [List.mem_singleton] at hca
    exact Or.inr (hca ▸ ha)

/-- The reader gets every parameter value back from the writer. -/
theorem unquoteHttpValue_writeForwardedParamValue (v : List Char) :
    unquoteHttpValue (writeForwardedParamValue v) = .ok v := by
  by_cases h : v ≠ [] ∧ ∀ c ∈ v, isTchar c = true
  · rw [writeForwardedParamValue_of_token h.1 h.2]
    apply unquoteHttpValue_token (trimmed_of_tokens h.2)
    intro hq
    exact ne_of_isTchar (h.2 _ (List.mem_of_mem_head? hq)) (by decide) rfl
  · rw [writeForwardedParamValue_of_not_token h]
    exact unquoteHttpValue_quoted v

theorem transparent_writeForwardedParamValue {d : Char} (hd : isTchar d = false) (v : List Char) :
    Transparent d (writeForwardedParamValue v) := by
  by_cases h : v ≠ [] ∧ ∀ c ∈ v, isTchar c = true
  · rw [writeForwardedParamValue_of_token h.1 h.2]
    exact transparent_plain fun c hc => ⟨ne_of_isTchar (h.2 c hc) (by decide), ne_of_isTchar (h.2 c hc) hd⟩
  · rw [writeForwardedParamValue_of_not_token h]
    exact transparent_quoted v

theorem trimmed_writeForwardedParamValue (v : List Char) : Trimmed (writeForwardedParamValue v) := by
  by_cases h : v ≠ [] ∧ ∀ c ∈ v, isTchar c = true
  · rw [writeForwardedParamValue_of_token h.1 h.2]
    exact trimmed_of_tokens h.2
  · rw [writeForwardedParamValue_of_not_token h]
    exact trimmed_quoted _

theorem writeForwardedParamValue_ne_nil (v : List Char) : writeForwardedParamValue v ≠ [] := by
  by_cases h : v ≠ [] ∧ ∀ c ∈ v, isTchar c = true
  · rw [writeForwardedParamValue_of_token h.1 h.2]
    exact h.1
  · rw [writeForwardedParamValue_of_not_token h]
    simp

theorem headerText_writeForwardedParamValue {v : List Char} (hv : ∀ c ∈ v, isHeaderTextChar c = true) :
    ∀ c ∈ writeForwardedParamValue v, isHeaderTextChar c = true := by
  by_cases h : v ≠ [] ∧ ∀ c ∈ v, isTchar c = true
  · rw [writeForwardedParamValue_of_token h.1 h.2]
    exact hv
  · rw [writeForwardedParamValue_of_not_token h]
    intro c hc
    simp only [List.cons_append, List.mem_cons, List.mem_append, List.not_mem_nil, or_false] at hc
    rcases hc with rfl | hc | rfl
    · decide
    · rcases mem_escapeQuotedPairs hc with rfl | hc
      · decide
      · exact hv c hc
    · decide

/-! ### Ports -/

theorem digitChar_decimal {d : Nat} (hd : d < 10) :
    (Nat.digitChar d).isDigit = true ∧ Nat.digitChar d ≠ '_' ∧ (Nat.digitChar d).toLower ≠ 'u' ∧
      Nat.digitChar d ≠ '[' := by
  have h : ∀ d < 10, (Nat.digitChar d).isDigit = true ∧ Nat.digitChar d ≠ '_' ∧
      (Nat.digitChar d).toLower ≠ 'u' ∧ Nat.digitChar d ≠ '[' := by decide
  exact h d hd

/-- `parse_forwarded_port` reads back every well-formed port from its text. -/
theorem parseForwardedPort_pushForwardedPort {p : ForwardedPort} (hp : p.isWellFormed = true)
    (token : List Char) : parseForwardedPort (pushForwardedPort p) token = .ok p := by
  cases p with
  | numeric q =>
    have hdig : ∀ c ∈ Nat.toDigits 10 q.toNat, ∃ d < 10, c = Nat.digitChar d :=
      fun c hc => exists_digitChar_of_mem_toDigits (by norm_num) hc
    have hlen : (Nat.toDigits 10 q.toNat).length ≤ 5 :=
      (Nat.length_toDigits_le_iff (by norm_num) (by norm_num)).mpr (by have := q.toNat_lt; omega)
    have hall : ∀ c ∈ Nat.toDigits 10 q.toNat, c.isDigit = true := by
      intro c hc
      obtain ⟨d, hd, rfl⟩ := hdig c hc
      exact (digitChar_decimal hd).1
    have hhead : (Nat.toDigits 10 q.toNat).head? ≠ some '_' := by
      intro h
      obtain ⟨d, hd, hc⟩ := hdig '_' (List.mem_of_mem_head? h)
      exact (digitChar_decimal hd).2.1 hc.symm
    have hne : (Nat.toDigits 10 q.toNat).isEmpty = false :=
      List.isEmpty_eq_false_iff.mpr Nat.toDigits_ne_nil
    have hlen' : decide (5 < (Nat.toDigits 10 q.toNat).length) = false := decide_eq_false (by omega)
    have hall' : (Nat.toDigits 10 q.toNat).all Char.isDigit = true := List.all_eq_true.mpr hall
    unfold parseForwardedPort pushForwardedPort
    rw [if_neg hhead, hne, hlen', hall', u16FromStr_toDigits]
    rfl
  | obfuscated s =>
    simp only [ForwardedPort.isWellFormed, isObfport] at hp
    obtain ⟨rest, rfl, -, -⟩ := isForwardedObfuscatedId_eq_true hp
    simp [parseForwardedPort, pushForwardedPort, isObfport, hp]

/-! ### Node text -/

/-- Characters of node text: address text and brackets. -/
def isNodeTextChar (c : Char) : Bool := isAddrTextChar c || c == '[' || c == ']'

theorem ne_of_isNodeTextChar {c x : Char} (h : isNodeTextChar c = true)
    (hx : isNodeTextChar x = false) : c ≠ x := by
  rintro rfl
  simp [h] at hx

theorem isNodeTextChar_of_isTchar {c : Char} (h : isTchar c = true) : isNodeTextChar c = true := by
  simp [isNodeTextChar, isAddrTextChar, h]

theorem isNodeTextChar_of_isAddrTextChar {c : Char} (h : isAddrTextChar c = true) :
    isNodeTextChar c = true := by
  simp [isNodeTextChar, h]

/-- The text after the node for an optional port. -/
def portSuffix : Option ForwardedPort → List Char
  | none => []
  | some p => ':' :: pushForwardedPort p

/-- The text of a node that `write_forwarded_node` writes as is when it is a token and
in quotes otherwise. -/
def nodeText (n : ForwardedNode) : List Char :=
  match n.raw, n.ip with
  | .ip, some (.v4 a) => pushIpv4 a ++ portSuffix n.port
  | .ip, some (.v6 a) => '[' :: a.toText ++ ']' :: portSuffix n.port
  | .ip, none => []
  | .unknown, _ => "unknown".toList ++ portSuffix n.port
  | .obfuscated s, _ => s ++ portSuffix n.port

/-- The three node shapes the reader produces. -/
theorem isWellFormed_cases {n : ForwardedNode} (hn : n.isWellFormed = true) :
    (∀ p ∈ n.port, p.isWellFormed = true) ∧
      ((∃ a, n.raw = .ip ∧ n.ip = some a ∧ canonicalizeIp a = a) ∨
        (n.raw = .unknown ∧ n.ip = none) ∨
        (∃ s, n.raw = .obfuscated s ∧ n.ip = none ∧ isObfnode s = true)) := by
  obtain ⟨ip, port, raw⟩ := n
  simp only [ForwardedNode.isWellFormed, Bool.and_eq_true, Option.all_eq_true] at hn
  refine ⟨hn.1, ?_⟩
  have hshape := hn.2
  cases raw with
  | ip =>
    cases ip with
    | none => simp at hshape
    | some a => exact Or.inl ⟨a, rfl, rfl, by simpa using hshape⟩
  | unknown =>
    cases ip with
    | none => exact Or.inr (Or.inl ⟨rfl, rfl⟩)
    | some a => simp at hshape
  | obfuscated s =>
    cases ip with
    | none => exact Or.inr (Or.inr ⟨s, rfl, rfl, hshape⟩)
    | some a => simp at hshape

theorem colon_not_mem_pushForwardedPort {p : ForwardedPort} (hp : p.isWellFormed = true) :
    ':' ∉ pushForwardedPort p := fun h =>
  absurd (isTchar_of_mem_pushForwardedPort hp h) (by decide)

theorem isNodeTextChar_of_mem_portSuffix {port : Option ForwardedPort}
    (hport : ∀ p ∈ port, p.isWellFormed = true) {c : Char} (hc : c ∈ portSuffix port) :
    isNodeTextChar c = true := by
  cases port with
  | none => simp [portSuffix] at hc
  | some p =>
    simp only [portSuffix, List.mem_cons] at hc
    rcases hc with rfl | hc
    · decide
    · exact isNodeTextChar_of_isTchar (isTchar_of_mem_pushForwardedPort (hport p rfl) hc)

theorem isNodeTextChar_of_mem_nodeText {n : ForwardedNode} (hn : n.isWellFormed = true) :
    ∀ c ∈ nodeText n, isNodeTextChar c = true := by
  intro c hc
  obtain ⟨hport, ⟨a, hraw, hip, -⟩ | ⟨hraw, hip⟩ | ⟨s, hraw, hip, hs⟩⟩ := isWellFormed_cases hn
  all_goals obtain ⟨ip, port, raw⟩ := n; simp only at hraw hip hport; subst hraw hip
  · cases a with
    | v4 a =>
      simp only [nodeText, pushIpv4, List.mem_append] at hc
      rcases hc with hc | hc
      · exact isNodeTextChar_of_isTchar (isTchar_of_mem_ipv4Text hc)
      · exact isNodeTextChar_of_mem_portSuffix hport hc
    | v6 a =>
      simp only [nodeText, List.cons_append, List.mem_cons, List.mem_append] at hc
      rcases hc with rfl | hc | rfl | hc
      · decide
      · exact isNodeTextChar_of_isAddrTextChar (isAddrTextChar_of_mem_ipv6Text hc)
      · decide
      · exact isNodeTextChar_of_mem_portSuffix hport hc
  · simp only [nodeText, List.mem_append] at hc
    rcases hc with hc | hc
    · revert c; decide
    · exact isNodeTextChar_of_mem_portSuffix hport hc
  · simp only [nodeText, List.mem_append] at hc
    rcases hc with hc | hc
    · exact isNodeTextChar_of_isTchar (isTchar_of_obfuscatedId hs c hc)
    · exact isNodeTextChar_of_mem_portSuffix hport hc

/-- Node text that is not a token goes in quotes without escapes. -/
theorem writeForwardedParamValue_of_nodeText {t : List Char} (hchars : ∀ c ∈ t, isNodeTextChar c = true)
    (hx : ∃ c ∈ t, isTchar c = false) : writeForwardedParamValue t = '"' :: t ++ ['"'] := by
  have hnot : ¬(t ≠ [] ∧ ∀ c ∈ t, isTchar c = true) := by
    rintro ⟨-, hall⟩
    obtain ⟨c, hc, hf⟩ := hx
    simp [hall c hc] at hf
  rw [writeForwardedParamValue_of_not_token hnot, escapeQuotedPairs_of_plain]
  exact fun c hc => ⟨ne_of_isNodeTextChar (hchars c hc) (by decide),
    ne_of_isNodeTextChar (hchars c hc) (by decide)⟩

/-- `write_forwarded_node` writes a well-formed node as its node text, quoted when it is
not a token. -/
theorem writeForwardedNode_eq {n : ForwardedNode} (hn : n.isWellFormed = true) :
    writeForwardedNode n = .ok (writeForwardedParamValue (nodeText n)) := by
  have hchars := isNodeTextChar_of_mem_nodeText hn
  obtain ⟨hport, ⟨a, hraw, hip, -⟩ | ⟨hraw, hip⟩ | ⟨s, hraw, hip, hs⟩⟩ := isWellFormed_cases hn
  all_goals obtain ⟨ip, port, raw⟩ := n; simp only at hraw hip hport; subst hraw hip
  · cases a with
    | v4 a =>
      cases port with
      | none =>
        have htext : nodeText ⟨some (.v4 a), none, .ip⟩ = a.toText := by
          simp [nodeText, portSuffix, pushIpv4]
        rw [htext, writeForwardedParamValue_of_token (ipv4Text_ne_nil a)
          (fun c hc => isTchar_of_mem_ipv4Text hc)]
        rfl
      | some p =>
        rw [writeForwardedParamValue_of_nodeText hchars ⟨':', by simp [nodeText, portSuffix], by decide⟩]
        simp [writeForwardedNode, nodeText, portSuffix]
    | v6 a =>
      rw [writeForwardedParamValue_of_nodeText hchars ⟨'[', by simp [nodeText], by decide⟩]
      cases port <;> simp [writeForwardedNode, nodeText, portSuffix]
  · cases port with
    | none =>
      rw [writeForwardedParamValue_of_token (by simp [nodeText, portSuffix])
        (by simp only [nodeText, portSuffix, List.append_nil]; decide)]
      rfl
    | some p =>
      rw [writeForwardedParamValue_of_nodeText hchars ⟨':', by simp [nodeText, portSuffix], by decide⟩]
      simp [writeForwardedNode, nodeText, portSuffix]
  · obtain ⟨rest, rfl, -, -⟩ := isForwardedObfuscatedId_eq_true hs
    cases port with
    | none =>
      rw [writeForwardedParamValue_of_token (by simp [nodeText, portSuffix])
        (by simpa [nodeText, portSuffix] using isTchar_of_obfuscatedId hs)]
      simp [writeForwardedNode, nodeText, portSuffix]
    | some p =>
      rw [writeForwardedParamValue_of_nodeText hchars ⟨':', by simp [nodeText, portSuffix], by decide⟩]
      simp [writeForwardedNode, nodeText, portSuffix]

/-! ### Reading node text back -/

theorem eqIgnoreAsciiCase_unknown_of_head {c : Char} {cs : List Char} (hc : c.toLower ≠ 'u') :
    eqIgnoreAsciiCase (c :: cs) "unknown".toList = false := by
  have hu : "unknown".toList = 'u' :: "nknown".toList := rfl
  rw [hu, eqIgnoreAsciiCase_cons]
  simp [hc, show 'u'.toLower = 'u' from rfl]

theorem stripPrefix_of_head_ne {c : Char} {u : List Char} (h : u.head? ≠ some c) :
    stripPrefix c u = none := by
  cases u with
  | nil => rfl
  | cons d ds =>
    have hd : d ≠ c := fun hd => h (by simp [hd])
    simp [hd]

theorem isObfnode_of_head_ne {u : List Char} (h : u.head? ≠ some '_') : isObfnode u = false := by
  simp [isObfnode, isForwardedObfuscatedId, stripPrefix_of_head_ne h]

theorem bracketedNodePort_of_head_ne {u : List Char} (h : u.head? ≠ some '[') :
    bracketedNodePort u = none := by
  simp [bracketedNodePort, h]

/-- A bracketed node without a port is not read as `[ip]:port`: the part before the last
`:` ends inside the brackets. -/
theorem bracketedNodePort_bare {t : List Char} (ht : ']' ∉ t) :
    bracketedNodePort ('[' :: t ++ [']']) = none := by
  unfold bracketedNodePort
  simp only [List.cons_append, List.head?_cons, if_true]
  cases hr : rsplitOnce ':' ('[' :: (t ++ [']'])) with
  | none => rfl
  | some np =>
    obtain ⟨node, port⟩ := np
    obtain ⟨hsplit, -⟩ := rsplitOnce_eq_some hr
    cases node with
    | nil => simp at hsplit
    | cons c node' =>
      simp only [List.cons_append, List.cons.injEq] at hsplit
      obtain ⟨rfl, hsplit⟩ := hsplit
      cases hs : stripSuffix ']' node' with
      | none => simp [hs]
      | some inner =>
        exfalso
        rw [stripSuffix_eq_some hs] at hsplit
        rcases List.append_eq_append_iff.mp hsplit with ⟨as, -, has⟩ | ⟨bs, hbs, -⟩
        · have hmem : ':' ∈ [']'] := by rw [has]; simp
          simp at hmem
        · exact ht (by rw [hbs]; simp)

theorem bracketedNodePort_port (t : List Char) {port : List Char} (hp : ':' ∉ port) :
    bracketedNodePort ('[' :: t ++ ']' :: ':' :: port) = some (t, port) := by
  have hsplit : '[' :: t ++ ']' :: ':' :: port = ('[' :: t ++ [']']) ++ ':' :: port := by simp
  rw [hsplit]
  unfold bracketedNodePort
  rw [if_pos (by simp), rsplitOnce_append hp]
  simp

theorem parseColonNode_bracket (token x port : List Char) :
    parseColonNode token ('[' :: x) port = none := by
  have hip : ipAddrFromStr ('[' :: x) = .error addrParseErrorText :=
    ipAddrFromStr_of_head (by simp; decide)
  unfold parseColonNode
  rw [eqIgnoreAsciiCase_unknown_of_head (show '['.toLower ≠ 'u' by decide)]
  simp [isObfnode_of_head_ne (u := '[' :: x) (by simp), hip]

theorem parseColonNode_address {token node port : List Char} {ip : IpAddr}
    (hu : eqIgnoreAsciiCase node "unknown".toList = false) (ho : node.head? ≠ some '_')
    (hip : ipAddrFromStr node = .ok ip) :
    parseColonNode token node port =
      some ((parseForwardedPort port token).map fun p => ⟨some (canonicalizeIp ip), some p, .ip⟩) := by
  unfold parseColonNode
  rw [hu]
  simp [isObfnode_of_head_ne ho, ho, hip]

theorem parseBareNode_plain {token u : List Char} (hb : u.head? ≠ some '[') (ho : u.head? ≠ some '_') :
    parseBareNode token u = (parseNodeAddress token u).map fun ip => ⟨some (canonicalizeIp ip), none, .ip⟩ := by
  simp [parseBareNode, stripPrefix_of_head_ne hb, isObfnode_of_head_ne ho, ho]

theorem parseBareNode_bracketed (token t : List Char) :
    parseBareNode token ('[' :: t ++ [']']) =
      (parseNodeAddress token t).map fun ip => ⟨some (canonicalizeIp ip), none, .ip⟩ := by
  simp [parseBareNode]

/-- Text that is not `unknown`, does not start with `[` and has other than one `:` takes the
port-less arms. -/
theorem parseUnquotedNode_of_count {token u : List Char}
    (hu : eqIgnoreAsciiCase u "unknown".toList = false) (hb : u.head? ≠ some '[') (hc : u.count ':' ≠ 1) :
    parseUnquotedNode token u = parseBareNode token u := by
  unfold parseUnquotedNode
  rw [hu]
  simp [bracketedNodePort_of_head_ne hb, hc]

/-- Text with no `:` that does not start with `[` takes the port-less arms. -/
theorem parseUnquotedNode_bare {token u : List Char}
    (hu : eqIgnoreAsciiCase u "unknown".toList = false) (hb : u.head? ≠ some '[') (hc : ':' ∉ u) :
    parseUnquotedNode token u = parseBareNode token u :=
  parseUnquotedNode_of_count hu hb (by simp [List.count_eq_zero_of_not_mem hc])

/-- Text with one `:` that does not start with `[` takes the `node:port` arm. -/
theorem parseUnquotedNode_colon {token node port : List Char} {r : Except String ForwardedNode}
    (hu : eqIgnoreAsciiCase (node ++ ':' :: port) "unknown".toList = false)
    (hb : (node ++ ':' :: port).head? ≠ some '[') (hn : ':' ∉ node) (hp : ':' ∉ port)
    (hr : parseColonNode token node port = some r) :
    parseUnquotedNode token (node ++ ':' :: port) = r := by
  have hcount : List.count ':' (node ++ ':' :: port) = 1 := by
    simp [List.count_append, List.count_eq_zero_of_not_mem hn,
      List.count_eq_zero_of_not_mem hp]
  unfold parseUnquotedNode
  rw [hu]
  simp [bracketedNodePort_of_head_ne hb, hcount, rsplitOnce_append hp, hr]

/-- Text that starts with `[` and is no `[ip]:port` takes the port-less arms: the
`node:port` arm never reads an address that starts with `[`. -/
theorem parseUnquotedNode_bracket {token x : List Char} (hb : bracketedNodePort ('[' :: x) = none) :
    parseUnquotedNode token ('[' :: x) = parseBareNode token ('[' :: x) := by
  have hu := @eqIgnoreAsciiCase_unknown_of_head '[' x (show '['.toLower ≠ 'u' by decide)
  have hcolon : (rsplitOnce ':' ('[' :: x)).bind (fun np => parseColonNode token np.1 np.2) = none := by
    cases hr : rsplitOnce ':' ('[' :: x) with
    | none => rfl
    | some np =>
      obtain ⟨node, port⟩ := np
      obtain ⟨hsplit, -⟩ := rsplitOnce_eq_some hr
      cases node with
      | nil => simp at hsplit
      | cons c node' =>
        simp only [List.cons_append, List.cons.injEq] at hsplit
        obtain ⟨rfl, -⟩ := hsplit
        exact parseColonNode_bracket token node' port
  unfold parseUnquotedNode
  rw [hu, hb]
  by_cases hcount : List.count ':' ('[' :: x) = 1
  · simp only [if_pos hcount]
    simp only [Bool.false_eq_true, if_false]
    rw [show ((rsplitOnce ':' ('[' :: x)).bind fun x_1 => parseColonNode token x_1.1 x_1.2) = none from hcolon]
  · simp only [if_neg hcount, Bool.false_eq_true, if_false]

theorem parseNodeAddress_toText (token : List Char) (a : IpAddr) :
    parseNodeAddress token a.toText = .ok a := by
  simp [parseNodeAddress, ipAddrFromStr_toText]

/-- The facts about the first character of an IPv4 text that the reader's tests use. -/
theorem ipv4Text_head_facts (a : Ipv4Addr) (rest : List Char) :
    eqIgnoreAsciiCase (a.toText ++ rest) "unknown".toList = false ∧
      (a.toText ++ rest).head? ≠ some '[' ∧ (a.toText ++ rest).head? ≠ some '_' := by
  obtain ⟨d, hd, t, htext⟩ := ipv4Text_head a
  obtain ⟨-, h_, hu, hb⟩ := digitChar_decimal hd
  rw [htext, List.cons_append]
  exact ⟨eqIgnoreAsciiCase_unknown_of_head hu, by simp [hb], by simp [h_]⟩

theorem colon_not_mem_ipv4Text (a : Ipv4Addr) : ':' ∉ a.toText := fun h =>
  absurd (isTchar_of_mem_ipv4Text h) (by decide)

theorem rbracket_not_mem_ipv6Text (a : Ipv6Addr) : ']' ∉ a.toText := fun h =>
  absurd (isAddrTextChar_of_mem_ipv6Text h) (by decide)

/-- An obfuscated name starts with `_`, and holds no `:`. -/
theorem obfnode_facts {s : List Char} (hs : isObfnode s = true) (rest : List Char) :
    eqIgnoreAsciiCase (s ++ rest) "unknown".toList = false ∧
      (s ++ rest).head? ≠ some '[' ∧ (s ++ rest).head? = some '_' ∧ ':' ∉ s := by
  obtain ⟨r, rfl, -, -⟩ := isForwardedObfuscatedId_eq_true hs
  refine ⟨eqIgnoreAsciiCase_unknown_of_head (by decide), by simp, by simp, fun h => ?_⟩
  exact absurd (isTchar_of_obfuscatedId hs ':' h) (by decide)

/-- The reader's node arms read every well-formed node back from its node text. -/
theorem parseUnquotedNode_nodeText {n : ForwardedNode} (hn : n.isWellFormed = true) (token : List Char) :
    parseUnquotedNode token (nodeText n) = .ok n := by
  obtain ⟨hport, ⟨a, hraw, hip, hcanon⟩ | ⟨hraw, hip⟩ | ⟨s, hraw, hip, hs⟩⟩ := isWellFormed_cases hn
  all_goals obtain ⟨ip, port, raw⟩ := n; simp only at hraw hip hport; subst hraw hip
  · cases a with
    | v4 a =>
      cases port with
      | none =>
        obtain ⟨hu, hb, h_⟩ := ipv4Text_head_facts a []
        rw [List.append_nil] at hu hb h_
        have htext : nodeText ⟨some (.v4 a), none, .ip⟩ = a.toText := by
          simp [nodeText, portSuffix, pushIpv4]
        rw [htext, parseUnquotedNode_bare hu hb (colon_not_mem_ipv4Text a), parseBareNode_plain hb h_,
          show a.toText = IpAddr.toText (.v4 a) from rfl, parseNodeAddress_toText]
        simp [hcanon]
      | some p =>
        obtain ⟨hu, hb, -⟩ := ipv4Text_head_facts a (':' :: pushForwardedPort p)
        obtain ⟨hu', -, h_'⟩ := ipv4Text_head_facts a []
        rw [List.append_nil] at hu' h_'
        have hcol := @parseColonNode_address token a.toText (pushForwardedPort p) (.v4 a) hu' h_'
          (ipAddrFromStr_toText (.v4 a))
        rw [parseForwardedPort_pushForwardedPort (hport p rfl)] at hcol
        have htext : nodeText ⟨some (.v4 a), some p, .ip⟩ = a.toText ++ ':' :: pushForwardedPort p := by
          simp [nodeText, portSuffix, pushIpv4]
        rw [htext, parseUnquotedNode_colon hu hb (colon_not_mem_ipv4Text a)
          (colon_not_mem_pushForwardedPort (hport p rfl)) hcol]
        simp [hcanon]
    | v6 a =>
      cases port with
      | none =>
        have htext : nodeText ⟨some (.v6 a), none, .ip⟩ = '[' :: (a.toText ++ [']']) := by
          simp [nodeText, portSuffix]
        rw [htext, parseUnquotedNode_bracket (x := a.toText ++ [']'])
          (bracketedNodePort_bare (rbracket_not_mem_ipv6Text a)),
          show '[' :: (a.toText ++ [']']) = '[' :: a.toText ++ [']'] from rfl, parseBareNode_bracketed,
          show a.toText = IpAddr.toText (.v6 a) from rfl, parseNodeAddress_toText]
        simp [hcanon]
      | some p =>
        have htext : nodeText ⟨some (.v6 a), some p, .ip⟩ = '[' :: a.toText ++ ']' :: ':' :: pushForwardedPort p := by
          simp [nodeText, portSuffix]
        have hu := @eqIgnoreAsciiCase_unknown_of_head '[' (a.toText ++ ']' :: ':' :: pushForwardedPort p)
          (show '['.toLower ≠ 'u' by decide)
        rw [htext]
        unfold parseUnquotedNode
        rw [show '[' :: a.toText ++ ']' :: ':' :: pushForwardedPort p =
          '[' :: (a.toText ++ ']' :: ':' :: pushForwardedPort p) from rfl, hu]
        simp only [Bool.false_eq_true, if_false]
        rw [show '[' :: (a.toText ++ ']' :: ':' :: pushForwardedPort p) =
          '[' :: a.toText ++ ']' :: ':' :: pushForwardedPort p from rfl,
          bracketedNodePort_port a.toText (colon_not_mem_pushForwardedPort (hport p rfl))]
        simp [show a.toText = IpAddr.toText (.v6 a) from rfl, parseNodeAddress_toText,
          parseForwardedPort_pushForwardedPort (hport p rfl), hcanon]
  · cases port with
    | none =>
      have htext : nodeText ⟨none, none, .unknown⟩ = "unknown".toList := by simp [nodeText, portSuffix]
      rw [htext]
      unfold parseUnquotedNode
      rw [if_pos (by decide)]
    | some p =>
      have hu : eqIgnoreAsciiCase ("unknown".toList ++ ':' :: pushForwardedPort p) "unknown".toList = false := by
        cases h : eqIgnoreAsciiCase ("unknown".toList ++ ':' :: pushForwardedPort p) "unknown".toList with
        | false => rfl
        | true =>
          have hlen := eqIgnoreAsciiCase_length h
          simp at hlen
      have hcol : parseColonNode token "unknown".toList (pushForwardedPort p) =
          some (.ok ⟨none, some p, .unknown⟩) := by
        unfold parseColonNode
        rw [show eqIgnoreAsciiCase "unknown".toList "unknown".toList = true by decide]
        simp [parseForwardedPort_pushForwardedPort (hport p rfl)]
      exact parseUnquotedNode_colon hu (by simp) (by decide)
        (colon_not_mem_pushForwardedPort (hport p rfl)) hcol
  · cases port with
    | none =>
      obtain ⟨hu, hb, h_, hc⟩ := obfnode_facts hs []
      rw [List.append_nil] at hu hb h_
      have htext : nodeText ⟨none, none, .obfuscated s⟩ = s := by simp [nodeText, portSuffix]
      rw [htext, parseUnquotedNode_bare hu hb hc]
      simp [parseBareNode, stripPrefix_of_head_ne hb, hs]
    | some p =>
      obtain ⟨hu, hb, -, hc⟩ := obfnode_facts hs (':' :: pushForwardedPort p)
      obtain ⟨hu', -, -, -⟩ := obfnode_facts hs []
      rw [List.append_nil] at hu'
      have hcol : parseColonNode token s (pushForwardedPort p) = some (.ok ⟨none, some p, .obfuscated s⟩) := by
        unfold parseColonNode
        rw [hu']
        simp [hs, parseForwardedPort_pushForwardedPort (hport p rfl)]
      exact parseUnquotedNode_colon hu hb hc (colon_not_mem_pushForwardedPort (hport p rfl)) hcol

/-- `parse_forwarded_node` reads back what `write_forwarded_node` writes of a well-formed node. -/
theorem parseForwardedNode_write {n : ForwardedNode} (hn : n.isWellFormed = true) :
    parseForwardedNode (writeForwardedParamValue (nodeText n)) = .ok n := by
  rw [parseForwardedNode, unquoteHttpValue_writeForwardedParamValue]
  exact parseUnquotedNode_nodeText hn _

/-! ### Entries -/

theorem intercalate_cons_flatMap (sep x : List Char) :
    ∀ ys : List (List Char), List.intercalate sep (x :: ys) = x ++ ys.flatMap (sep ++ ·)
  | [] => by simp
  | y :: ys => by
    rw [List.intercalate_cons_cons, intercalate_cons_flatMap sep y ys]
    simp

theorem trimmed_append {a b : List Char} (ha : ∀ c ∈ a.head?, isWhitespace c = false)
    (hb : ∀ c ∈ b.getLast?, isWhitespace c = false) (hane : a ≠ []) (hbne : b ≠ []) :
    Trimmed (a ++ b) := by
  refine ⟨?_, ?_⟩
  · rw [List.head?_append_of_ne_nil _ hane]
    exact ha
  · rw [List.getLast?_append_of_ne_nil _ hbne]
    exact hb

/-- Joining trimmed non-empty segments gives a trimmed text. -/
theorem trimmed_intercalate (sep : List Char) :
    ∀ {segs : List (List Char)}, segs ≠ [] → (∀ t ∈ segs, t ≠ [] ∧ Trimmed t) →
      List.intercalate sep segs ≠ [] ∧ Trimmed (List.intercalate sep segs)
  | [], hne, _ => absurd rfl hne
  | [t], _, h => by simpa using h t (by simp)
  | t :: u :: rest, _, h => by
    obtain ⟨htne, ht⟩ := h t (by simp)
    obtain ⟨hine, hi⟩ := @trimmed_intercalate sep (u :: rest) (by simp)
      (fun t' ht' => h t' (by simp [ht']))
    rw [List.intercalate_cons_cons, List.append_assoc]
    refine ⟨by simp [htne], trimmed_append ht.1 ?_ htne (by simp [hine])⟩
    rw [List.getLast?_append_of_ne_nil _ hine]
    exact hi.2

theorem Transparent.intercalate {d : Char} {sep : List Char} (hsep : Transparent d sep) :
    ∀ {segs : List (List Char)}, (∀ t ∈ segs, Transparent d t) → Transparent d (List.intercalate sep segs)
  | [], _ => transparent_nil
  | [t], h => by simpa using h t (by simp)
  | t :: u :: rest, h => by
    rw [List.intercalate_cons_cons, List.append_assoc]
    exact (h t (by simp)).append (hsep.append
      (Transparent.intercalate hsep (fun t' ht' => h t' (by simp [ht']))))

/-- A `key=value` parameter as the writer writes it. -/
def paramText (key : String) (v : List Char) : List Char :=
  (key ++ "=").toList ++ writeForwardedParamValue v

/-- The parameters of an entry, as the writer writes them: `for=` first, then the optional
`proto=`, `host=` and `by=` in this order. -/
def entryParams (e : ForwardedEntry) : List (List Char) :=
  paramText "for" (nodeText e.forNode) ::
    (e.proto.toList.map (paramText "proto") ++ e.host.toList.map (paramText "host") ++
      e.«by».toList.map (paramText "by"))

theorem writeOptionalParam_eq (key : String) (v : Option (List Char)) :
    writeOptionalParam key v = (v.toList.map (paramText key)).flatMap ([';'] ++ ·) := by
  cases v <;> simp [writeOptionalParam, paramText]

/-- The writer writes an entry with a well-formed node as its parameters joined by `;`. -/
theorem writeForwardedEntry_eq {e : ForwardedEntry} (he : e.isWellFormed = true) :
    writeForwardedEntry e = .ok (List.intercalate [';'] (entryParams e)) := by
  rw [writeForwardedEntry, writeForwardedNode_eq he, except_map_ok, entryParams,
    intercalate_cons_flatMap, writeOptionalParam_eq, writeOptionalParam_eq, writeOptionalParam_eq]
  simp [paramText]

theorem transparent_paramText {d : Char} (hd : isTchar d = false) (hkey : ∀ c ∈ (key ++ "=").toList, c ≠ '"' ∧ c ≠ d)
    (v : List Char) : Transparent d (paramText key v) :=
  (transparent_plain hkey).append (transparent_writeForwardedParamValue hd v)

theorem trimmed_paramText {key : String} (hkey : ∀ c ∈ (key ++ "=").toList.head?, isWhitespace c = false)
    (hne : (key ++ "=").toList ≠ []) (v : List Char) :
    paramText key v ≠ [] ∧ Trimmed (paramText key v) :=
  ⟨by simp [paramText], trimmed_append hkey (trimmed_writeForwardedParamValue v).2 hne
    (writeForwardedParamValue_ne_nil v)⟩

/-- Every parameter is transparent for both delimiters, trimmed and non-empty. -/
theorem entryParams_text {e : ForwardedEntry} {d : Char} (hd : d = ',' ∨ d = ';') :
    ∀ t ∈ entryParams e, Transparent d t ∧ t ≠ [] ∧ Trimmed t := by
  have hdt : isTchar d = false := by rcases hd with rfl | rfl <;> decide
  have hkeys : ∀ key ∈ ["for", "proto", "host", "by"], (∀ c ∈ (key ++ "=").toList, c ≠ '"' ∧ c ≠ d) ∧
      (∀ c ∈ (key ++ "=").toList.head?, isWhitespace c = false) ∧ (key ++ "=").toList ≠ [] := by
    rcases hd with rfl | rfl <;> decide
  have hparam : ∀ key ∈ ["for", "proto", "host", "by"], ∀ v, Transparent d (paramText key v) ∧
      paramText key v ≠ [] ∧ Trimmed (paramText key v) := by
    intro key hk v
    obtain ⟨h1, h2, h3⟩ := hkeys key hk
    exact ⟨transparent_paramText hdt h1 v, trimmed_paramText h2 h3 v⟩
  intro t ht
  simp only [entryParams, List.mem_cons, List.mem_append, List.mem_map, Option.mem_toList] at ht
  rcases ht with rfl | ((⟨v, -, rfl⟩ | ⟨v, -, rfl⟩) | ⟨v, -, rfl⟩)
  · exact hparam "for" (by simp) _
  · exact hparam "proto" (by simp) v
  · exact hparam "host" (by simp) v
  · exact hparam "by" (by simp) v

theorem paramText_eq (key : String) (v : List Char) :
    paramText key v = key.toList ++ '=' :: writeForwardedParamValue v := by
  simp [paramText]

theorem setParamOnce_none {α : Type} (key : String) (value : Except String α) :
    setParamOnce key none value = value.map some := rfl

theorem readEntryParam_for {acc : EntryParams} (h : acc.forNode = none) {n : ForwardedNode}
    (hn : n.isWellFormed = true) :
    readEntryParam acc (paramText "for" (nodeText n)) = .ok { acc with forNode := some n } := by
  rw [paramText_eq]
  unfold readEntryParam
  rw [splitOnce_append (by decide)]
  simp only
  rw [show toAsciiLowercase (trim "for".toList) = "for".toList by decide,
    trim_of_trimmed (trimmed_writeForwardedParamValue _), if_pos rfl, h, setParamOnce_none,
    parseForwardedNode_write hn]
  rfl

theorem readEntryParam_proto {acc : EntryParams} (h : acc.proto = none) (v : List Char) :
    readEntryParam acc (paramText "proto" v) = .ok { acc with proto := some v } := by
  rw [paramText_eq]
  unfold readEntryParam
  rw [splitOnce_append (by decide)]
  simp only
  rw [show toAsciiLowercase (trim "proto".toList) = "proto".toList by decide,
    trim_of_trimmed (trimmed_writeForwardedParamValue _), if_neg (by decide), if_pos rfl, h,
    setParamOnce_none, unquoteHttpValue_writeForwardedParamValue]
  rfl

theorem readEntryParam_host {acc : EntryParams} (h : acc.host = none) (v : List Char) :
    readEntryParam acc (paramText "host" v) = .ok { acc with host := some v } := by
  rw [paramText_eq]
  unfold readEntryParam
  rw [splitOnce_append (by decide)]
  simp only
  rw [show toAsciiLowercase (trim "host".toList) = "host".toList by decide,
    trim_of_trimmed (trimmed_writeForwardedParamValue _), if_neg (by decide), if_neg (by decide),
    if_pos rfl, h, setParamOnce_none, unquoteHttpValue_writeForwardedParamValue]
  rfl

theorem readEntryParam_by {acc : EntryParams} (h : acc.«by» = none) (v : List Char) :
    readEntryParam acc (paramText "by" v) = .ok { acc with «by» := some v } := by
  rw [paramText_eq]
  unfold readEntryParam
  rw [splitOnce_append (by decide)]
  simp only
  rw [show toAsciiLowercase (trim "by".toList) = "by".toList by decide,
    trim_of_trimmed (trimmed_writeForwardedParamValue _), if_neg (by decide), if_neg (by decide),
    if_neg (by decide), if_pos rfl, h, setParamOnce_none, unquoteHttpValue_writeForwardedParamValue]
  rfl

/-- Reading the parameters of an entry in order fills each field once. -/
theorem foldlM_entryParams {e : ForwardedEntry} (he : e.isWellFormed = true) :
    (entryParams e).foldlM readEntryParam ⟨none, none, none, none⟩ =
      .ok ⟨some e.forNode, e.proto, e.host, e.«by»⟩ := by
  obtain ⟨n, proto, host, by_⟩ := e
  have hn : n.isWellFormed = true := he
  cases proto <;> cases host <;> cases by_ <;>
    simp [entryParams, @readEntryParam_for ⟨none, none, none, none⟩ rfl _ hn, readEntryParam_proto,
      readEntryParam_host, readEntryParam_by]

/-- The text the writer gives an entry. -/
def entryText (e : ForwardedEntry) : List Char := List.intercalate [';'] (entryParams e)

/-- `parse_forwarded_header_entry` reads back every entry with a well-formed node. -/
theorem parseForwardedHeaderEntry_entryText {e : ForwardedEntry} (he : e.isWellFormed = true) :
    parseForwardedHeaderEntry (entryText e) = .ok e := by
  have htext := entryParams_text (e := e) (Or.inr rfl)
  have hsplit : splitRespectingQuotes (entryText e) ';' = entryParams e :=
    @splitScan_intercalate ';' (by decide) (by decide) [] (by simp) (entryParams e) []
      (by simp [entryParams]) (by simp) (fun t ht => ⟨(htext t ht).1, (htext t ht).2.2⟩)
  have hfilter : (entryParams e).filter (fun p => !p.isEmpty) = entryParams e :=
    List.filter_eq_self.mpr fun t ht => by simp [(htext t ht).2.1]
  simp [parseForwardedHeaderEntry, hsplit, hfilter, foldlM_entryParams he]

theorem entryText_text {e : ForwardedEntry} :
    Transparent ',' (entryText e) ∧ entryText e ≠ [] ∧ Trimmed (entryText e) := by
  have htext := entryParams_text (e := e) (Or.inl rfl)
  refine ⟨Transparent.intercalate (transparent_plain (by decide)) fun t ht => (htext t ht).1, ?_⟩
  exact trimmed_intercalate [';'] (by simp [entryParams]) fun t ht => (htext t ht).2

/-! ### The header -/

theorem generateForwardedHeader_eq {chain : List ForwardedEntry} (hne : chain ≠ [])
    (hwf : ∀ e ∈ chain, e.isWellFormed = true) :
    generateForwardedHeader chain = .ok (List.intercalate ", ".toList (chain.map entryText)) := by
  have hmap : chain.mapM writeForwardedEntry = .ok (chain.map entryText) :=
    mapM_eq_ok_map fun e he => writeForwardedEntry_eq (hwf e he)
  simp [generateForwardedHeader, hne, hmap]

theorem splitRespectingQuotes_header {chain : List ForwardedEntry} (hne : chain ≠ []) :
    splitRespectingQuotes (List.intercalate ", ".toList (chain.map entryText)) ',' = chain.map entryText :=
  @splitScan_intercalate ',' (by decide) (by decide) [' '] (by decide) (chain.map entryText) []
    (by simpa using hne) (by simp) (by
      simp only [List.mem_map]
      rintro t ⟨e, -, rfl⟩
      exact ⟨entryText_text.1, entryText_text.2.2⟩)

/-- `parse_forwarded_header` on a header whose only `Forwarded` field-line reads `s`. -/
theorem parseForwardedHeader_single {m : HeaderMap} {v : HeaderValue} (hm : m.getAll forwardedName = [v])
    {s : List Char} (hv : v.toStr = .ok s) :
    parseForwardedHeader m =
      ((splitRespectingQuotes s ',').filter fun e => !e.isEmpty).mapM parseForwardedHeaderEntry := by
  simp [parseForwardedHeader, joinHeaderValues, hm, headerValueStr, hv]

/-! ### Header text -/

theorem mem_intercalate {sep : List Char} {segs : List (List Char)} {c : Char}
    (h : c ∈ List.intercalate sep segs) : c ∈ sep ∨ ∃ t ∈ segs, c ∈ t := by
  cases segs with
  | nil => simp at h
  | cons x ys =>
    rw [intercalate_cons_flatMap] at h
    simp only [List.mem_append, List.mem_flatMap] at h
    rcases h with h | ⟨y, hy, h | h⟩
    · exact Or.inr ⟨x, by simp, h⟩
    · exact Or.inl h
    · exact Or.inr ⟨y, by simp [hy], h⟩

theorem isHeaderTextChar_of_isNodeTextChar {c : Char} (h : isNodeTextChar c = true) :
    isHeaderTextChar c = true := by
  simp only [isNodeTextChar, isAddrTextChar, Bool.or_eq_true, beq_iff_eq] at h
  rcases h with ((h | rfl) | rfl) | rfl
  · exact isTchar_headerText h
  all_goals decide

theorem hasHeaderText_iff (e : ForwardedEntry) :
    e.hasHeaderText = true ↔ (∀ v ∈ e.proto, ∀ c ∈ v, isHeaderTextChar c = true) ∧
      (∀ v ∈ e.host, ∀ c ∈ v, isHeaderTextChar c = true) ∧
      (∀ v ∈ e.«by», ∀ c ∈ v, isHeaderTextChar c = true) := by
  simp [ForwardedEntry.hasHeaderText, Option.all_eq_true]

theorem headerText_paramText {key : String} (hkey : ∀ c ∈ (key ++ "=").toList, isHeaderTextChar c = true)
    {v : List Char} (hv : ∀ c ∈ v, isHeaderTextChar c = true) :
    ∀ c ∈ paramText key v, isHeaderTextChar c = true := by
  intro c hc
  rcases List.mem_append.mp hc with hc | hc
  · exact hkey c hc
  · exact headerText_writeForwardedParamValue hv c hc

theorem headerText_entryText {e : ForwardedEntry} (he : e.isWellFormed = true) (ht : e.hasHeaderText = true) :
    ∀ c ∈ entryText e, isHeaderTextChar c = true := by
  obtain ⟨hproto, hhost, hby⟩ := (hasHeaderText_iff e).mp ht
  intro c hc
  rcases mem_intercalate hc with hc | ⟨t, ht', hct⟩
  · simp only [List.mem_singleton] at hc
    subst hc
    decide
  · simp only [entryParams, List.mem_cons, List.mem_append, List.mem_map, Option.mem_toList] at ht'
    rcases ht' with rfl | ((⟨v, hv, rfl⟩ | ⟨v, hv, rfl⟩) | ⟨v, hv, rfl⟩)
    · exact headerText_paramText (by decide)
        (fun c hc => isHeaderTextChar_of_isNodeTextChar (isNodeTextChar_of_mem_nodeText he c hc)) c hct
    · exact headerText_paramText (by decide) (hproto v hv) c hct
    · exact headerText_paramText (by decide) (hhost v hv) c hct
    · exact headerText_paramText (by decide) (hby v hv) c hct

/-! ### Writing and reading a chain -/

/-- The round trip of a chain: the writer writes it, its text is a valid field value, and a
header whose only `Forwarded` field-line holds that value reads back as the chain. -/
def ForwardedRoundTrips (chain : List ForwardedEntry) : Prop :=
  ∃ s, generateForwardedHeader chain = .ok s ∧ ∃ v, HeaderValue.fromStr s = .ok v ∧
    ∀ m : HeaderMap, m.getAll forwardedName = [v] → parseForwardedHeader m = .ok chain

/-- A non-empty chain of well-formed entries with header-text parameters round-trips. -/
theorem forwardedRoundTrips_of_wellFormed {chain : List ForwardedEntry} (hne : chain ≠ [])
    (hwf : ∀ e ∈ chain, e.isWellFormed = true) (ht : ∀ e ∈ chain, e.hasHeaderText = true) :
    ForwardedRoundTrips chain := by
  have hchars : ∀ c ∈ List.intercalate ", ".toList (chain.map entryText), isHeaderTextChar c = true := by
    intro c hc
    rcases mem_intercalate hc with hc | ⟨t, ht', hct⟩
    · exact (by decide : ∀ x ∈ ", ".toList, isHeaderTextChar x = true) c hc
    · obtain ⟨e, he, rfl⟩ := List.mem_map.mp ht'
      exact headerText_entryText (hwf e he) (ht e he) c hct
  obtain ⟨v, hv, hvs⟩ := fromStr_toStr hchars
  refine ⟨_, generateForwardedHeader_eq hne hwf, v, hv, fun m hm => ?_⟩
  have hfilter : (chain.map entryText).filter (fun e => !e.isEmpty) = chain.map entryText :=
    List.filter_eq_self.mpr fun t ht' => by
      obtain ⟨e, -, rfl⟩ := List.mem_map.mp ht'
      simp [entryText_text.2.1]
  rw [parseForwardedHeader_single hm hvs, splitRespectingQuotes_header hne, hfilter]
  exact mapM_map_eq_ok fun e he => parseForwardedHeaderEntry_entryText (hwf e he)

end Rpxy.ForwardedRoundTrip
