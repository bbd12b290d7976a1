import Rpxy.ForwardingTrust

/-!
# Merging the Cookie field-lines

`make_cookie_single_line` joins two or more `Cookie` field-lines into one, separated by `; `.
Each line goes through `HeaderValue::to_str`, and a line that it rejects (a byte outside visible
ASCII and tab, such as obs-text) is replaced by `unwrap_or("")`. The merged line therefore holds
each line's bytes when the line is visible ASCII, and nothing of it otherwise.

The main result: the merge never fails, leaves every other name's values as they were, leaves
zero or one line alone, and otherwise writes the single line of the kept bytes;
`add_forwarding_header` forwards exactly the merged lines of the incoming request. A line holding
obs-text is lost, although the buffer is sized from every line's bytes.
-/

namespace Rpxy.CookieMerge

open RustResult RustIpAddr HttpHeaders HttpHeaders.HeaderMap ForwardedSyntax ForwardedRoundTrip ForwardingChain
  ForwardingTrust

/-- The bytes of a `Cookie` line that survive the merge: all of them when `to_str` reads the
line, none when it fails. -/
def keptCookieBytes (v : HeaderValue) : List UInt8 :=
  if v.bytes.all isVisibleAsciiByte then v.bytes else []

theorem flatMap_intercalate {α β : Type} (f : α → List β) (sep : List α) :
    ∀ ls : List (List α),
      (List.intercalate sep ls).flatMap f = List.intercalate (sep.flatMap f) (ls.map (List.flatMap f))
  | [] => rfl
  | [a] => by simp
  | a :: b :: rest => by
    rw [List.intercalate_cons_cons, List.flatMap_append, List.flatMap_append, flatMap_intercalate f sep (b :: rest)]
    simp [List.intercalate_cons_cons]

/-! ### One line -/

theorem utf8EncodeChar_of_visible {b : UInt8} (h : isVisibleAsciiByte b = true) :
    String.utf8EncodeChar (Char.ofNat b.toNat) = [b] := by
  have hcode := visibleAsciiByte_code h
  have hchar : (Char.ofNat b.toNat).toNat = b.toNat := char_ofNat_toNat_of_lt (by omega)
  rw [utf8EncodeChar_of_lt (by omega), hchar, UInt8.ofNat_toNat]

theorem utf8Bytes_map_ofNat {bytes : List UInt8} (h : ∀ b ∈ bytes, isVisibleAsciiByte b = true) :
    utf8Bytes (bytes.map fun b => Char.ofNat b.toNat) = bytes := by
  induction bytes with
  | nil => rfl
  | cons b bs ih =>
    simp only [utf8Bytes, List.map_cons, List.flatMap_cons] at ih ⊢
    rw [utf8EncodeChar_of_visible (h b (by simp)), ih (fun x hx => h x (by simp [hx]))]
    rfl

theorem utf8Bytes_cookieLineText (v : HeaderValue) : utf8Bytes (cookieLineText v) = keptCookieBytes v := by
  by_cases hall : v.bytes.all isVisibleAsciiByte = true
  · simp only [cookieLineText, HeaderValue.toStr, keptCookieBytes, hall, if_true]
    exact utf8Bytes_map_ofNat (List.all_eq_true.mp hall)
  · simp [cookieLineText, HeaderValue.toStr, keptCookieBytes, hall, utf8Bytes]

theorem cookieLineText_headerText (v : HeaderValue) : ∀ c ∈ cookieLineText v, isHeaderTextChar c = true := by
  unfold cookieLineText
  split
  · next s hs => exact toStr_headerText hs
  · simp

theorem keptCookieBytes_of_visible {v : HeaderValue} (h : v.bytes.all isVisibleAsciiByte = true) :
    keptCookieBytes v = v.bytes := by
  rw [keptCookieBytes, if_pos h]

/-! ### The merge -/

theorem joinedCookie_headerText (lines : List HeaderValue) :
    ∀ c ∈ List.intercalate "; ".toList (lines.map cookieLineText), isHeaderTextChar c = true := by
  intro c hc
  rcases mem_intercalate hc with hsep | ⟨t, ht, hct⟩
  · exact (by decide : ∀ x ∈ "; ".toList, isHeaderTextChar x = true) c hsep
  · obtain ⟨v, -, rfl⟩ := List.mem_map.mp ht
    exact cookieLineText_headerText v c hct

theorem utf8Bytes_joinedCookie (lines : List HeaderValue) :
    utf8Bytes (List.intercalate "; ".toList (lines.map cookieLineText)) =
      List.intercalate (utf8Bytes "; ".toList) (lines.map keptCookieBytes) := by
  rw [utf8Bytes, flatMap_intercalate, List.map_map]
  congr 1
  exact List.map_congr_left fun v _ => utf8Bytes_cookieLineText v

theorem makeCookieSingleLine_of_lt {m : HeaderMap} (h : (m.getAll cookieName).length < 2) :
    makeCookieSingleLine m = .ok m := by
  rw [makeCookieSingleLine, if_pos h]

/-- Two or more lines become one, the kept bytes of each joined by `; `; the merge never fails,
since what `to_str` returns and the separator are header text. -/
theorem makeCookieSingleLine_merged {m : HeaderMap} (h : 2 ≤ (m.getAll cookieName).length) :
    ∃ v, makeCookieSingleLine m = .ok ((m.remove cookieName).insert cookieName v) ∧
      v.bytes = List.intercalate (utf8Bytes "; ".toList) ((m.getAll cookieName).map keptCookieBytes) := by
  have htext := joinedCookie_headerText (m.getAll cookieName)
  refine ⟨HeaderValue.ofHeaderText _ htext, ?_, utf8Bytes_joinedCookie _⟩
  rw [makeCookieSingleLine, if_neg (by omega)]
  dsimp only
  rw [← HeaderValue.fromStr, fromStr_eq_ofHeaderText htext]
  rfl

theorem makeCookieSingleLine_isOk (m : HeaderMap) : ∃ m', makeCookieSingleLine m = .ok m' := by
  by_cases hlt : (m.getAll cookieName).length < 2
  · exact ⟨m, makeCookieSingleLine_of_lt hlt⟩
  · obtain ⟨v, hm, -⟩ := makeCookieSingleLine_merged (m := m) (by omega)
    exact ⟨_, hm⟩

/-- The `Cookie` lines after the merge depend only on the `Cookie` lines before it. -/
theorem makeCookieSingleLine_getAll_congr {m₁ m₂ m₁' m₂' : HeaderMap}
    (hc : m₁.getAll cookieName = m₂.getAll cookieName)
    (h₁ : makeCookieSingleLine m₁ = .ok m₁') (h₂ : makeCookieSingleLine m₂ = .ok m₂') :
    m₁'.getAll cookieName = m₂'.getAll cookieName := by
  by_cases hlt : (m₂.getAll cookieName).length < 2
  · rw [makeCookieSingleLine_of_lt (hc ▸ hlt), Except.ok.injEq] at h₁
    rw [makeCookieSingleLine_of_lt hlt, Except.ok.injEq] at h₂
    rw [← h₁, ← h₂, hc]
  · obtain ⟨v₁, e₁, hb₁⟩ := makeCookieSingleLine_merged (m := m₁) (by rw [hc]; omega)
    obtain ⟨v₂, e₂, hb₂⟩ := makeCookieSingleLine_merged (m := m₂) (by omega)
    rw [e₁, Except.ok.injEq] at h₁
    rw [e₂, Except.ok.injEq] at h₂
    have hv : v₁ = v₂ := by
      cases v₁
      cases v₂
      rw [hc] at hb₁
      simp only [HeaderValue.mk.injEq]
      exact hb₁.trans hb₂.symm
    rw [← h₁, ← h₂, getAll_insert_self, getAll_insert_self, hv]

section Trust

variable {Net : Type} (contains : Net → IpAddr → Bool) (trusted : List Net)

/-- `add_forwarding_header` forwards the `Cookie` lines that `make_cookie_single_line` makes of
the incoming ones: the steps before it write other names, the steps after it other names too. -/
theorem addForwardingHeader_getAll_cookie {headers headers' merged : HeaderMap} {clientAddr listenAddr : SocketAddr}
    {tls : Bool} {originalUri : List Char} {host : Option (List Char)}
    (h : addForwardingHeader contains headers clientAddr listenAddr tls originalUri host trusted = .ok headers')
    (hm : makeCookieSingleLine headers = .ok merged) :
    headers'.getAll cookieName = merged.getAll cookieName := by
  obtain ⟨realIp, xff, H1, H2, H3, H4, -, -, h1, h2, h3, h4, rfl⟩ := addForwardingHeader_inv contains trusted h
  obtain ⟨uri, -, rfl⟩ := addHeaderEntryOverwriteIfExist_eq_ok.mp h3
  have hH1 : H1.getAll cookieName = headers.getAll cookieName := by
    rw [updateForwarded_getAll_ne h1 (by decide), getAll_insert_ne _ _ (by decide)]
  rw [getAll_insert_ne _ _ (by decide), overwriteXForwardedHostFromOriginal_getAll_ne h4 (by decide)]
  simp (disch := decide) only [getAll_insert_ne]
  exact makeCookieSingleLine_getAll_congr hH1 h2 hm

theorem cookie_lines_merged (m : HeaderMap) :
    ∃ m', makeCookieSingleLine m = .ok m' ∧
      (∀ k, k ≠ cookieName → m'.getAll k = m.getAll k) ∧
      ((m.getAll cookieName).length < 2 → m' = m) ∧
      (2 ≤ (m.getAll cookieName).length → ∃ v, m'.getAll cookieName = [v] ∧
        v.bytes = List.intercalate (utf8Bytes "; ".toList) ((m.getAll cookieName).map keptCookieBytes) ∧
        ((∀ line ∈ m.getAll cookieName, line.bytes.all isVisibleAsciiByte = true) →
          v.bytes = List.intercalate (utf8Bytes "; ".toList) ((m.getAll cookieName).map HeaderValue.bytes))) ∧
      ∀ (headers' : HeaderMap) (clientAddr listenAddr : SocketAddr) (tls : Bool) (originalUri : List Char)
        (host : Option (List Char)),
        addForwardingHeader contains m clientAddr listenAddr tls originalUri host trusted = .ok headers' →
        headers'.getAll cookieName = m'.getAll cookieName := by
  by_cases hlt : (m.getAll cookieName).length < 2
  · refine ⟨m, makeCookieSingleLine_of_lt hlt, fun _ _ => rfl, fun _ => rfl, fun h2 => absurd h2 (by omega), ?_⟩
    intro headers' clientAddr listenAddr tls originalUri host h
    exact addForwardingHeader_getAll_cookie contains trusted h (makeCookieSingleLine_of_lt hlt)
  · obtain ⟨v, hm, hbytes⟩ := makeCookieSingleLine_merged (m := m) (by omega)
    refine ⟨_, hm, fun k hk => makeCookieSingleLine_getAll_ne hm hk, fun h => absurd h hlt,
      fun _ => ⟨v, getAll_insert_self _ _ _, hbytes, fun hvis => ?_⟩, ?_⟩
    · rw [hbytes]
      congr 1
      exact List.map_congr_left fun line hline => keptCookieBytes_of_visible (hvis line hline)
    · intro headers' clientAddr listenAddr tls originalUri host h
      exact addForwardingHeader_getAll_cookie contains trusted h hm

/-- Two visible-ASCII lines `a=1` and `b=2` merge into `a=1; b=2`. -/
example : ∃ m' v, makeCookieSingleLine (HeaderMap.ofEntries
      [(cookieName, HeaderValue.ofHeaderText "a=1".toList (by decide)),
        (cookieName, HeaderValue.ofHeaderText "b=2".toList (by decide))]) = .ok m' ∧
    m'.getAll cookieName = [v] ∧ v.bytes = utf8Bytes "a=1; b=2".toList :=
  ⟨_, _, rfl, rfl, rfl⟩

end Trust

/-- A second line `b=` followed by the obs-text byte 0x80 is lost: the merged line is `a=1; `. -/
theorem cookie_obs_text_line_dropped :
    ∃ m' v, makeCookieSingleLine (HeaderMap.ofEntries
        [(cookieName, HeaderValue.ofHeaderText "a=1".toList (by decide)), (cookieName, ⟨[98, 61, 0x80], by decide⟩)]) =
        .ok m' ∧ m'.getAll cookieName = [v] ∧ v.bytes = utf8Bytes "a=1; ".toList :=
  ⟨_, _, rfl, rfl, rfl⟩

end Rpxy.CookieMerge
