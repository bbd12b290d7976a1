import Rpxy.ForwardedSyntax

/-!
# Stripping hop-by-hop headers

`remove_connection_header` takes the `Connection` header out of the map with
`HeaderMap::remove`, which drops every field-line of the name but returns only the first, and
then removes each non-empty trimmed comma-separated token of that first line, read through
`HeaderValue::to_str`. `remove_hop_header` then removes the nine `HOP_HEADERS`.

A token is a `&str` key: `HeaderMap::remove` parses it as a header name, lowercasing it, and a
token that is no header name removes nothing. Every removal takes out whole names: a name that
survives keeps its values in their order, while `swap_remove` may reorder the names.

The main result: after the two steps the lines are, up to the order of the names, those of the
original map whose name is none of the hop headers and matches, ignoring ASCII case, no token of
the first `Connection` line when `to_str` reads it. A token on a later `Connection` line is never
read, so the header it lists is forwarded.
-/

namespace Rpxy.HopHeaders

open RustText HttpHeaders HttpHeaders.HeaderMap ForwardedSyntax

/-- `header::CONNECTION`. -/
def connectionName : List Char := "connection".toList

/-- `HOP_HEADERS`. -/
def hopHeaders : List (List Char) :=
  ["connection".toList, "te".toList, "trailer".toList, "keep-alive".toList, "proxy-connection".toList,
    "proxy-authenticate".toList, "proxy-authorization".toList, "transfer-encoding".toList, "upgrade".toList]

/-- `MAX_HEADER_NAME_LEN` of the `http` crate. -/
def maxHeaderNameLen : Nat := 65535

/-- The name `HeaderMap::remove` looks up for a `&str` key: a non-empty run of at most
`MAX_HEADER_NAME_LEN` token characters, lowercased by the `HEADER_CHARS` table. Any other key
is an invalid name and removes nothing. -/
def headerNameOfStr (s : List Char) : Option (List Char) :=
  if 0 < s.length ∧ s.length ≤ maxHeaderNameLen ∧ s.all isTchar then some (toAsciiLowercase s) else none

/-- `HeaderMap::remove` with a `&str` key. -/
def removeStr (headers : HeaderMap) (key : List Char) : HeaderMap :=
  match headerNameOfStr key with
  | some name => headers.remove name
  | none => headers

/-- The names listed by one `Connection` value: `split(',')`, `trim`, non-empty. -/
def connectionTokens (v : List Char) : List (List Char) :=
  ((v.splitOn ',').map trim).filter fun m => !m.isEmpty

/-- `remove_connection_header`. -/
def removeConnectionHeader (headers : HeaderMap) : HeaderMap :=
  match headers.get connectionName with
  | none => headers
  | some values =>
    let headers := headers.remove connectionName
    match values.toStr with
    | .error _ => headers
    | .ok v => (connectionTokens v).foldl removeStr headers

/-- `remove_hop_header`. -/
def removeHopHeader (headers : HeaderMap) : HeaderMap :=
  hopHeaders.foldl HeaderMap.remove headers

/-- The tokens `remove_connection_header` removes: those of the first `Connection` line when
`to_str` reads it, and none otherwise. -/
def firstConnectionTokens (headers : HeaderMap) : List (List Char) :=
  match headers.get connectionName with
  | none => []
  | some values =>
    match values.toStr with
    | .error _ => []
    | .ok v => connectionTokens v

/-! ### What each removal keeps -/

theorem keeps_foldl_remove (names : List (List Char)) (m : HeaderMap) :
    Keeps (names.foldl HeaderMap.remove m) m fun k => !names.contains k := by
  induction names generalizing m with
  | nil => exact (Keeps.refl m).congr fun _ => rfl
  | cons n ns ih =>
    rw [List.foldl_cons]
    refine ((Keeps.remove m n).trans (ih _)).congr fun k => ?_
    by_cases hk : k = n <;> simp [hk]

theorem keeps_removeStr (m : HeaderMap) (key : List Char) :
    Keeps (removeStr m key) m fun k => headerNameOfStr key != some k := by
  unfold removeStr
  cases h : headerNameOfStr key with
  | none => exact (Keeps.refl m).congr fun _ => rfl
  | some name =>
    refine (Keeps.remove m name).congr fun k => ?_
    rw [Bool.eq_iff_iff, bne_iff_ne, bne_iff_ne, ne_eq, ne_eq, Option.some.injEq, eq_comm]

theorem keeps_foldl_removeStr (keys : List (List Char)) (m : HeaderMap) :
    Keeps (keys.foldl removeStr m) m fun k => !keys.any fun key => headerNameOfStr key == some k := by
  induction keys generalizing m with
  | nil => exact (Keeps.refl m).congr fun _ => rfl
  | cons key ks ih =>
    rw [List.foldl_cons]
    refine ((keeps_removeStr m key).trans (ih _)).congr fun k => ?_
    rw [List.any_cons, Bool.not_or]
    rfl

/-- `remove_connection_header` drops every `Connection` line and the names its first line lists. -/
theorem keeps_removeConnectionHeader (m : HeaderMap) :
    Keeps (removeConnectionHeader m) m fun k =>
      k != connectionName && !(firstConnectionTokens m).any fun key => headerNameOfStr key == some k := by
  unfold removeConnectionHeader firstConnectionTokens
  cases hget : m.get connectionName with
  | none =>
    have hnil : m.getAll connectionName = [] := List.head?_eq_none_iff.mp hget
    exact (Keeps.of_getAll_nil hnil).congr fun k => by simp
  | some values =>
    dsimp only
    cases values.toStr with
    | error _ => exact (Keeps.remove m connectionName).congr fun k => by simp
    | ok v => exact (Keeps.remove m connectionName).trans (keeps_foldl_removeStr _ _)

theorem keeps_strip (m : HeaderMap) :
    Keeps (removeHopHeader (removeConnectionHeader m)) m fun k =>
      !hopHeaders.contains k && !(firstConnectionTokens m).any fun key => headerNameOfStr key == some k := by
  refine ((keeps_removeConnectionHeader m).trans (keeps_foldl_remove hopHeaders _)).congr fun k => ?_
  by_cases hc : k = connectionName
  · have hhop : connectionName ∈ hopHeaders := List.mem_cons_self
    simp [hc, hhop]
  · have hne : (k != connectionName) = true := bne_iff_ne.mpr hc
    rw [hne, Bool.true_and, Bool.and_comm]

/-! ### Names and case -/

/-- A valid lowercase header name, as every name in an `http::HeaderMap` is. -/
def IsHeaderName (name : List Char) : Prop := headerNameOfStr name = some name

instance : DecidablePred IsHeaderName := fun name =>
  inferInstanceAs (Decidable (headerNameOfStr name = some name))

theorem isTchar_of_toLower {c : Char} (h : isTchar c.toLower = true) : isTchar c = true := by
  by_cases hu : c.val ≥ 'A'.val ∧ c.val ≤ 'Z'.val
  · have hup : c.isUpper = true := decide_eq_true hu
    unfold isTchar
    delta Char.isAlphanum Char.isAlpha
    rw [hup]
    simp
  · have hlow : c.toLower = c := dif_neg hu
    rwa [hlow] at h

theorem headerNameOfStr_eq_some {s name : List Char} :
    headerNameOfStr s = some name ↔
      (0 < s.length ∧ s.length ≤ maxHeaderNameLen ∧ s.all isTchar = true) ∧ toAsciiLowercase s = name := by
  unfold headerNameOfStr
  split
  · next h => simp [h]
  · next h => exact ⟨fun hn => (by cases hn), fun hc => absurd hc.1 h⟩

/-- Against a valid name, the parse of a key matches exactly when the key equals the name up to
ASCII case. -/
theorem headerNameOfStr_eq_iff {key name : List Char} (hname : IsHeaderName name) :
    headerNameOfStr key = some name ↔ eqIgnoreAsciiCase key name = true := by
  obtain ⟨⟨hpos, hlen, htchar⟩, hlower⟩ := headerNameOfStr_eq_some.mp hname
  constructor
  · intro h
    obtain ⟨-, hk⟩ := headerNameOfStr_eq_some.mp h
    simp [eqIgnoreAsciiCase, hk, hlower]
  · intro h
    have hk : toAsciiLowercase key = name := by
      rw [← hlower]
      exact beq_iff_eq.mp h
    have hklen : key.length = name.length := by
      rw [← hk, toAsciiLowercase, List.length_map]
    refine headerNameOfStr_eq_some.mpr ⟨⟨by omega, by omega, ?_⟩, hk⟩
    rw [List.all_eq_true]
    intro c hc
    apply isTchar_of_toLower
    have hmem : c.toLower ∈ name := by
      rw [← hk, toAsciiLowercase]
      exact List.mem_map_of_mem hc
    exact List.all_eq_true.mp htchar _ hmem

theorem any_headerNameOfStr_eq {name : List Char} (hname : IsHeaderName name) (keys : List (List Char)) :
    (keys.any fun key => headerNameOfStr key == some name) = keys.any fun key => eqIgnoreAsciiCase key name := by
  congr 1
  funext key
  rw [Bool.eq_iff_iff, beq_iff_eq, headerNameOfStr_eq_iff hname]

theorem keeps_strip_of_names {m : HeaderMap} (hnames : ∀ e ∈ m.entries, IsHeaderName e.1) :
    Keeps (removeHopHeader (removeConnectionHeader m)) m fun k =>
      !hopHeaders.contains k && !(firstConnectionTokens m).any fun key => eqIgnoreAsciiCase key k := by
  refine ⟨fun k => ?_, ?_⟩
  · rw [(keeps_strip m).getAll_eq]
    by_cases hk : m.getAll k = []
    · simp [hk]
    · obtain ⟨v, hv⟩ := List.exists_mem_of_ne_nil _ hk
      rw [any_headerNameOfStr_eq (hnames (k, v) (mem_entries.mpr hv))]
  · refine (keeps_strip m).entries_perm.trans (List.Perm.of_eq (List.filter_congr fun e he => ?_))
    rw [any_headerNameOfStr_eq (hnames e he)]

/-- After `remove_connection_header` and `remove_hop_header`, the lines left are those of the
original map whose name is no hop header and matches, up to ASCII case, no token of the first
`Connection` line, in some order; and every such name keeps its values, in order. -/
theorem hop_headers_stripped (m : HeaderMap) (hnames : ∀ e ∈ m.entries, IsHeaderName e.1) :
    let stripped := removeHopHeader (removeConnectionHeader m)
    stripped.entries.Perm (m.entries.filter fun e =>
      !hopHeaders.contains e.1 && !(firstConnectionTokens m).any fun key => eqIgnoreAsciiCase key e.1) ∧
    (∀ e ∈ stripped.entries, e.1 ∉ hopHeaders ∧ ∀ key ∈ firstConnectionTokens m, eqIgnoreAsciiCase key e.1 = false) ∧
    ∀ name, name ∉ hopHeaders → (∀ key ∈ firstConnectionTokens m, eqIgnoreAsciiCase key name = false) →
      stripped.getAll name = m.getAll name := by
  intro stripped
  have hkeeps := keeps_strip_of_names hnames
  refine ⟨hkeeps.entries_perm, fun e he => ?_, fun name hhop hkeys => hkeeps.getAll_of_pass ?_⟩
  · simpa using hkeeps.pass_of_mem he
  · simpa [hhop] using hkeys

/-- A second `Connection` line is dropped unread: the `x-secret` that it lists is forwarded. -/
theorem second_connection_line_ignored :
    (removeHopHeader (removeConnectionHeader (HeaderMap.ofEntries
        [(connectionName, HeaderValue.ofHeaderText "close".toList (by decide)),
          (connectionName, HeaderValue.ofHeaderText "x-secret".toList (by decide)),
          ("x-secret".toList, HeaderValue.ofHeaderText "v".toList (by decide))]))).getAll "x-secret".toList =
      [HeaderValue.ofHeaderText "v".toList (by decide)] := by
  decide +kernel

end Rpxy.HopHeaders
