import Rpxy.StickyLoadBalance
import Rpxy.ForwardingChain
import Rpxy.ForwardedRoundTrip

/-!
# The sticky cookie on the wire

`header_ops/sticky_cookie.rs`: on a request, `takeout_sticky_cookie_lb_context` reads the
`Cookie` lines, splits them at `;`, takes out the pieces that start with the config's `name=`
prefix, forwards the others upstream joined by `; `, and opens the sealed upstream id of a
single sticky piece; on a response, `set_sticky_cookie_lb_context` seals the id of a new cookie
and puts it in a `Set-Cookie` value, replacing the values that already start with the prefix.

The main results: what takeout forwards upstream never carries the sticky cookie, and takeout
never fails; and the session round trip, from `get_ptr` through `Set-Cookie` and back through
`Cookie` to `get_ptr`, for a cookie name without uppercase letters. The builders of the cookie
lowercase its name while takeout looks for the name as configured, so a name with an uppercase
letter is never recognised (`takeout_ignores_uppercase_name`).
-/

namespace Rpxy.StickyCookieHeaders

open RustText RustInt HttpHeaders Base64 StickyCookieSeal StickyCookies LoadBalancePick
  StickyLoadBalance ForwardingChain ForwardedRoundTrip RustResult

/-- The name of the `Set-Cookie` header. -/
def setCookieName : List Char := "set-cookie".toList

/-- The trimmed `;`-separated pieces of one `Cookie` line; a line that is not visible ASCII reads
as empty. -/
def cookieLinePieces (v : HeaderValue) : List (List Char) :=
  ((cookieLineText v).splitOn ';').map trim

/-- The pieces of all `Cookie` lines, in order, as takeout reads them. -/
def cookiePieces (headers : HeaderMap) : List (List Char) :=
  (headers.getAll cookieName).flatMap cookieLinePieces

/-- The header update of takeout: the `Cookie` lines go, and the cookies passed upstream come
back as one line when there are any. -/
def restoreCookies (headers : HeaderMap) (cookiesPassedToUpstream : List Char) :
    Except String HeaderMap :=
  let headers := headers.remove cookieName
  if cookiesPassedToUpstream.isEmpty then .ok headers
  else (HeaderValue.fromStr cookiesPassedToUpstream).map (headers.insert cookieName)

/-- `takeout_sticky_cookie_lb_context` at the time `now`: the request headers after the call,
and its result. -/
def takeoutStickyCookieLbContext (headers : HeaderMap) (stickyConfig : StickyCookieConfig)
    (cipher : Aead) (now : Int) : HeaderMap × Except String (Option LoadBalanceContext) :=
  let expectedCookieName := stickyConfig.name
  if !headers.containsKey cookieName then (headers, .ok none)
  else
    let parts := (cookiePieces headers).partition fun v => stickyConfig.namePrefix.isPrefixOf v
    match parts.1 with
    | [] => (headers, .ok none)
    | firstStickyCookie :: _ =>
      match restoreCookies headers ("; ".toList.intercalate parts.2) with
      | .error e => (headers.remove cookieName, .error e)
      | .ok headers =>
        if parts.1.length > 1 then (headers, .ok none)
        else
          match StickyCookieValue.tryFrom firstStickyCookie expectedCookieName with
          | .error _ => (headers, .ok none)
          | .ok rawStickyCookie =>
            match openServerIdAt cipher stickyConfig.aad rawStickyCookie.value now with
            | none => (headers, .ok none)
            | some serverId => (headers, .ok (some ⟨⟨⟨expectedCookieName, serverId⟩, none⟩⟩))

/-- The `Set-Cookie` update of `set_sticky_cookie_lb_context`: a vacant entry gets the new value;
in an occupied one every value whose text starts with the prefix is replaced by it, and it is
appended when none is. -/
def setCookieEntry (headers : HeaderMap) (namePrefix : List Char) (newHeaderVal : HeaderValue) :
    HeaderMap :=
  let replaces := fun (v : HeaderValue) => namePrefix.isPrefixOf (cookieLineText v)
  if headers.getAll setCookieName = [] then headers.append setCookieName newHeaderVal
  else if (headers.getAll setCookieName).any replaces then
    headers.mapValues setCookieName fun v => if replaces v then newHeaderVal else v
  else headers.append setCookieName newHeaderVal

section SetCookie

variable (formatExpires : Int → Option (List Char))

/-- `set_sticky_cookie_lb_context`, with the nonce that sealing draws and the time `now` of the
`Max-Age`; an error is the `Display` text of the `anyhow` error. -/
def setStickyCookieLbContext (headers : HeaderMap) (contextFromLb : LoadBalanceContext)
    (stickyConfig : StickyCookieConfig) (secure : Bool) (cipher : Aead) (nonce : Nonce) (now : Int) :
    Except String HeaderMap := do
  let some cookieInfo := contextFromLb.stickyCookie.info
    | .error "sticky cookie metadata is missing"
  let sealedValue ← (sealServerId cipher stickyConfig.aad contextFromLb.stickyCookie.value.value
    cookieInfo.expires nonce).mapError RpxyError.toString
  let stickyCookieString ← (contextFromLb.stickyCookie.toSetCookieValueWithValueAt formatExpires
    secure sealedValue now).mapError LoadBalanceError.toString
  let newHeaderVal ← HeaderValue.fromStr stickyCookieString
  pure (setCookieEntry headers stickyConfig.namePrefix newHeaderVal)

end SetCookie

/-! ### Reading the `Cookie` lines -/

theorem cookieLineText_headerText (v : HeaderValue) : ∀ c ∈ cookieLineText v, isHeaderTextChar c = true := by
  unfold cookieLineText
  split
  · next s hs => exact toStr_headerText hs
  · intro c hc
    cases hc

/-- A piece is trimmed visible ASCII without `;`. -/
theorem mem_cookieLinePieces {v : HeaderValue} {piece : List Char} (h : piece ∈ cookieLinePieces v) :
    Trimmed piece ∧ ';' ∉ piece ∧ ∀ c ∈ piece, isHeaderTextChar c = true := by
  obtain ⟨raw, hraw, rfl⟩ := List.mem_map.mp h
  refine ⟨trimmed_trim raw, fun hc => (mem_splitOn hraw (mem_of_mem_trim hc)).2 rfl, ?_⟩
  intro c hc
  exact cookieLineText_headerText v c (mem_splitOn hraw (mem_of_mem_trim hc)).1

theorem mem_cookiePieces {headers : HeaderMap} {piece : List Char} (h : piece ∈ cookiePieces headers) :
    Trimmed piece ∧ ';' ∉ piece ∧ ∀ c ∈ piece, isHeaderTextChar c = true := by
  obtain ⟨v, -, hv⟩ := List.mem_flatMap.mp h
  exact mem_cookieLinePieces hv

/-- `"; "` is `;` and a space. -/
theorem semicolon_space : "; ".toList = [';', ' '] := rfl

/-- A line of trimmed pieces without `;`, joined by `; `, reads back as those pieces. -/
theorem cookieLinePieces_of_toStr {v : HeaderValue} {line : List (List Char)} (hne : line ≠ [])
    (hline : ∀ p ∈ line, Trimmed p ∧ ';' ∉ p) (hv : v.toStr = .ok ("; ".toList.intercalate line)) :
    cookieLinePieces v = line := by
  rw [cookieLinePieces, cookieLineText, hv, semicolon_space]
  exact splitOn_intercalate_trim (by decide) hne hline

/-- The `Cookie` lines of a request, each the cookie pairs of one line joined by `; `. -/
def CookieLines (headers : HeaderMap) (lines : List (List (List Char))) : Prop :=
  (headers.getAll cookieName).map HeaderValue.toStr =
    lines.map (fun line => .ok ("; ".toList.intercalate line)) ∧ ∀ line ∈ lines, line ≠ []

theorem flatMap_cookieLinePieces {lines : List (List (List Char))} :
    ∀ {vs : List HeaderValue}, vs.map HeaderValue.toStr =
        lines.map (fun line => .ok ("; ".toList.intercalate line)) →
      (∀ line ∈ lines, line ≠ []) → (∀ p ∈ lines.flatten, Trimmed p ∧ ';' ∉ p) →
      vs.flatMap cookieLinePieces = lines.flatten := by
  induction lines with
  | nil =>
    intro vs hmap _ _
    rw [List.map_nil, List.map_eq_nil_iff] at hmap
    subst hmap
    rfl
  | cons line rest ih =>
    intro vs hmap hne hpairs
    obtain ⟨v, vs', rfl, hv, hvs⟩ := List.map_eq_cons_iff.mp hmap
    have hline : ∀ p ∈ line, Trimmed p ∧ ';' ∉ p := fun p hp =>
      hpairs p (List.mem_flatten.mpr ⟨line, List.mem_cons_self, hp⟩)
    rw [List.flatMap_cons, List.flatten_cons,
      cookieLinePieces_of_toStr (hne line List.mem_cons_self) hline hv,
      ih hvs (fun l hl => hne l (List.mem_cons_of_mem _ hl))
        (fun p hp => hpairs p (List.mem_append_right _ hp))]

/-- Takeout reads the pairs of the lines back, in order. -/
theorem cookiePieces_of_cookieLines {headers : HeaderMap} {lines : List (List (List Char))}
    (hlines : CookieLines headers lines) (hpairs : ∀ p ∈ lines.flatten, Trimmed p ∧ ';' ∉ p) :
    cookiePieces headers = lines.flatten :=
  flatMap_cookieLinePieces hlines.1 hlines.2 hpairs

/-! ### What takeout forwards -/

theorem headerText_intercalate {ps : List (List Char)} (h : ∀ p ∈ ps, ∀ c ∈ p, isHeaderTextChar c = true) :
    ∀ c ∈ "; ".toList.intercalate ps, isHeaderTextChar c = true := by
  intro c hc
  rcases mem_intercalate hc with hsep | ⟨p, hp, hcp⟩
  · rw [semicolon_space] at hsep
    simp only [List.mem_cons, List.not_mem_nil, or_false] at hsep
    rcases hsep with rfl | rfl <;> rfl
  · exact h p hp c hcp

/-- The cookies passed upstream are visible ASCII, so restoring them never fails: the `Cookie`
header becomes the one line of them, or goes when they are empty, and no other header changes. -/
theorem restoreCookies_eq_ok {headers : HeaderMap} {text : List Char}
    (htext : ∀ c ∈ text, isHeaderTextChar c = true) :
    ∃ h', restoreCookies headers text = .ok h' ∧
      (h'.getAll cookieName).map HeaderValue.toStr = (if text.isEmpty then [] else [.ok text]) ∧
      ∀ k, k ≠ cookieName → h'.getAll k = headers.getAll k := by
  unfold restoreCookies
  dsimp only
  split
  · next hempty =>
    exact ⟨_, rfl, by simp, fun k hk => HeaderMap.getAll_remove_ne _ hk⟩
  · next hempty =>
    obtain ⟨v, hv, hvs⟩ := fromStr_toStr htext
    refine ⟨_, by rw [hv]; rfl, ?_, fun k hk => ?_⟩
    · simp [HeaderMap.getAll_insert_self, hvs]
    · rw [HeaderMap.getAll_insert_ne _ _ hk, HeaderMap.getAll_remove_ne _ hk]

/-- The pieces of the restored `Cookie` header are the pieces passed upstream. -/
theorem cookiePieces_restoreCookies {headers h' : HeaderMap} {ps : List (List Char)}
    (hps : ∀ p ∈ ps, Trimmed p ∧ ';' ∉ p ∧ ∀ c ∈ p, isHeaderTextChar c = true)
    (h : restoreCookies headers ("; ".toList.intercalate ps) = .ok h') :
    ∀ piece ∈ cookiePieces h', piece ∈ ps := by
  obtain ⟨h'', hr, hmap, -⟩ := @restoreCookies_eq_ok headers _
    (headerText_intercalate fun p hp => (hps p hp).2.2)
  rw [hr] at h
  cases h
  intro piece hpiece
  split at hmap
  · rw [List.map_eq_nil_iff] at hmap
    simp [cookiePieces, hmap] at hpiece
  · next hempty =>
    obtain ⟨v, hv, hvs⟩ := List.map_eq_singleton_iff.mp hmap
    have hne : ps ≠ [] := by
      rintro rfl
      exact hempty rfl
    have hline : cookieLinePieces v = ps :=
      cookieLinePieces_of_toStr hne (fun p hp => ⟨(hps p hp).1, (hps p hp).2.1⟩) hvs
    rw [cookiePieces, hv, List.flatMap_singleton, hline] at hpiece
    exact hpiece

/-- The pieces that takeout passes upstream are pieces of the request that are not sticky. -/
theorem mem_partition_snd {cfg : StickyCookieConfig} {headers : HeaderMap} {p : List Char}
    (hp : p ∈ ((cookiePieces headers).partition fun v => cfg.namePrefix.isPrefixOf v).2) :
    p ∈ cookiePieces headers ∧ cfg.namePrefix.isPrefixOf p = false := by
  rw [List.partition_eq_filter_filter, List.mem_filter] at hp
  simpa using hp

/-- The headers after takeout: unchanged, or restored from the pieces that are not sticky. -/
theorem takeout_fst_cases (headers : HeaderMap) (cfg : StickyCookieConfig) (cipher : Aead) (now : Int) :
    ((takeoutStickyCookieLbContext headers cfg cipher now).1 = headers ∧
        ∀ p ∈ cookiePieces headers, cfg.namePrefix.isPrefixOf p = false) ∨
      restoreCookies headers ("; ".toList.intercalate
        ((cookiePieces headers).partition fun v => cfg.namePrefix.isPrefixOf v).2) =
        .ok (takeoutStickyCookieLbContext headers cfg cipher now).1 := by
  have htext : ∀ c ∈ "; ".toList.intercalate
      ((cookiePieces headers).partition fun v => cfg.namePrefix.isPrefixOf v).2,
      isHeaderTextChar c = true :=
    headerText_intercalate fun p hp => (mem_cookiePieces (mem_partition_snd hp).1).2.2
  obtain ⟨h', hr, -⟩ := @restoreCookies_eq_ok headers _ htext
  unfold takeoutStickyCookieLbContext
  dsimp only
  split
  · next hno =>
    have hnil : headers.getAll cookieName = [] := by
      by_contra hne
      have hc := (HeaderMap.containsKey_iff headers cookieName).mpr hne
      simp [hc] at hno
    exact .inl ⟨rfl, fun p hp => by simp [cookiePieces, hnil] at hp⟩
  · split
    · next hsticky =>
      rw [List.partition_eq_filter_filter] at hsticky
      exact .inl ⟨rfl, fun p hp => Bool.eq_false_iff.mpr (List.filter_eq_nil_iff.mp hsticky p hp)⟩
    · rw [hr]
      right
      dsimp only
      split
      · rfl
      · split <;> (try split) <;> rfl

/-- The context takeout returns depends only on the `Cookie` lines. -/
theorem takeout_snd_congr {h₁ h₂ : HeaderMap} (hc : h₁.getAll cookieName = h₂.getAll cookieName)
    (cfg : StickyCookieConfig) (cipher : Aead) (now : Int) :
    (takeoutStickyCookieLbContext h₁ cfg cipher now).2 = (takeoutStickyCookieLbContext h₂ cfg cipher now).2 := by
  have hp : cookiePieces h₁ = cookiePieces h₂ := by rw [cookiePieces, cookiePieces, hc]
  have hk : h₁.containsKey cookieName = h₂.containsKey cookieName := by
    rw [Bool.eq_iff_iff, HeaderMap.containsKey_iff, HeaderMap.containsKey_iff, hc]
  have htext : ∀ c ∈ "; ".toList.intercalate
      ((cookiePieces h₂).partition fun v => cfg.namePrefix.isPrefixOf v).2, isHeaderTextChar c = true :=
    headerText_intercalate fun p hp => (mem_cookiePieces (mem_partition_snd hp).1).2.2
  obtain ⟨H₁, hr₁, -⟩ := @restoreCookies_eq_ok h₁ _ htext
  obtain ⟨H₂, hr₂, -⟩ := @restoreCookies_eq_ok h₂ _ htext
  unfold takeoutStickyCookieLbContext
  dsimp only
  rw [hk, hp, hr₁, hr₂]
  split
  · rfl
  · split
    · rfl
    · dsimp only
      split
      · rfl
      · split <;> (try split) <;> rfl

/-- Splitting off the one piece that passes the test. -/
theorem partition_single {f : List Char → Bool} {before after : List (List Char)} {seg : List Char}
    (hseg : f seg = true) (hothers : ∀ p ∈ before ++ after, f p = false) :
    (before ++ seg :: after).partition f = ([seg], before ++ after) := by
  have hb : before.filter f = [] := List.filter_eq_nil_iff.mpr fun p hp => by
    simp [hothers p (List.mem_append_left _ hp)]
  have ha : after.filter f = [] := List.filter_eq_nil_iff.mpr fun p hp => by
    simp [hothers p (List.mem_append_right _ hp)]
  have hb' : before.filter (not ∘ f) = before := List.filter_eq_self.mpr fun p hp => by
    simp [hothers p (List.mem_append_left _ hp)]
  have ha' : after.filter (not ∘ f) = after := List.filter_eq_self.mpr fun p hp => by
    simp [hothers p (List.mem_append_right _ hp)]
  rw [List.partition_eq_filter_filter, List.filter_append, List.filter_cons_of_pos hseg, hb, ha,
    List.filter_append, List.filter_cons_of_neg (by simp [hseg]), hb', ha']
  rfl

/-- A request with exactly one sticky piece, which `try_from` reads and `open_server_id_at`
opens: takeout forwards the other pieces and returns the opened id under the configured name. -/
theorem takeout_eq_some {headers : HeaderMap} {cfg : StickyCookieConfig} {cipher : Aead} {now : Int}
    {before after : List (List Char)} {seg : List Char}
    (hpieces : cookiePieces headers = before ++ seg :: after)
    (hseg : cfg.namePrefix.isPrefixOf seg = true)
    (hothers : ∀ p ∈ before ++ after, cfg.namePrefix.isPrefixOf p = false)
    {raw : StickyCookieValue} (hraw : StickyCookieValue.tryFrom seg cfg.name = .ok raw)
    {serverId : List Char} (hopen : openServerIdAt cipher cfg.aad raw.value now = some serverId) :
    restoreCookies headers ("; ".toList.intercalate (before ++ after)) =
        .ok (takeoutStickyCookieLbContext headers cfg cipher now).1 ∧
      (takeoutStickyCookieLbContext headers cfg cipher now).2 =
        .ok (some ⟨⟨⟨cfg.name, serverId⟩, none⟩⟩) := by
  have hcontains : headers.containsKey cookieName = true := by
    rw [HeaderMap.containsKey_iff]
    intro hnil
    simp [cookiePieces, hnil] at hpieces
  have htext : ∀ c ∈ "; ".toList.intercalate (before ++ after), isHeaderTextChar c = true :=
    headerText_intercalate fun p hp => (mem_cookiePieces (by
      rw [hpieces]
      rcases List.mem_append.mp hp with hp | hp
      · exact List.mem_append_left _ hp
      · exact List.mem_append_right _ (List.mem_cons_of_mem _ hp))).2.2
  obtain ⟨h', hr, -⟩ := @restoreCookies_eq_ok headers _ htext
  have hpart := partition_single (f := fun v => cfg.namePrefix.isPrefixOf v) hseg hothers
  unfold takeoutStickyCookieLbContext
  simp only [hcontains, Bool.not_true, Bool.false_eq_true, if_false, hpieces, hpart, hr, hraw,
    hopen, List.length_singleton, gt_iff_lt, Nat.lt_irrefl, if_false]
  exact ⟨trivial, trivial⟩

/-! ### What set puts in the response -/

/-- Every `Set-Cookie` value after the update is the new one, or an old one that does not start
with the prefix. -/
theorem getAll_setCookieEntry (headers : HeaderMap) (namePrefix : List Char) (w : HeaderValue) :
    ∀ v ∈ (setCookieEntry headers namePrefix w).getAll setCookieName,
      v = w ∨ (v ∈ headers.getAll setCookieName ∧ namePrefix.isPrefixOf (cookieLineText v) = false) := by
  intro v hv
  unfold setCookieEntry at hv
  dsimp only at hv
  split at hv
  · next hnil =>
    rw [HeaderMap.getAll_append_self, hnil] at hv
    exact .inl (List.mem_singleton.mp hv)
  · split at hv
    · rw [HeaderMap.getAll_mapValues_self] at hv
      obtain ⟨u, hu, rfl⟩ := List.mem_map.mp hv
      by_cases hrep : namePrefix.isPrefixOf (cookieLineText u) = true
      · rw [if_pos hrep]
        exact .inl rfl
      · rw [if_neg hrep]
        exact .inr ⟨hu, Bool.eq_false_iff.mpr hrep⟩
    · next hnone =>
      rw [HeaderMap.getAll_append_self] at hv
      rcases List.mem_append.mp hv with hv | hv
      · exact .inr ⟨hv, Bool.eq_false_iff.mpr (List.any_eq_false.mp (Bool.eq_false_iff.mpr hnone) v hv)⟩
      · exact .inl (List.mem_singleton.mp hv)

/-- What a successful `set_sticky_cookie_lb_context` did: sealed the id of the cookie under the
config's associated data, serialised the cookie with the sealed value, and put it in the
`Set-Cookie` values. -/
theorem setStickyCookieLbContext_eq_ok {formatExpires : Int → Option (List Char)}
    {headers headers' : HeaderMap} {ctx : LoadBalanceContext} {cfg : StickyCookieConfig}
    {secure : Bool} {cipher : Aead} {nonce : Nonce} {now : Int}
    (h : setStickyCookieLbContext formatExpires headers ctx cfg secure cipher nonce now = .ok headers') :
    ∃ info sealed s w, ctx.stickyCookie.info = some info ∧
      sealServerId cipher cfg.aad ctx.stickyCookie.value.value info.expires nonce = .ok sealed ∧
      ctx.stickyCookie.toSetCookieValueWithValueAt formatExpires secure sealed now = .ok s ∧
      HeaderValue.fromStr s = .ok w ∧ headers' = setCookieEntry headers cfg.namePrefix w := by
  unfold setStickyCookieLbContext at h
  cases hinfo : ctx.stickyCookie.info with
  | none => simp [hinfo] at h
  | some info =>
    simp only [hinfo] at h
    obtain ⟨sealed, hsealed, h⟩ := except_bind_eq_ok.mp h
    obtain ⟨s, hs, h⟩ := except_bind_eq_ok.mp h
    obtain ⟨w, hw, h⟩ := except_bind_eq_ok.mp h
    cases h
    exact ⟨info, sealed, s, w, rfl, except_mapError_eq_ok.mp hsealed, except_mapError_eq_ok.mp hs, hw, rfl⟩

/-! ### The session round trip -/

/-- What a user agent sends back of a `Set-Cookie` value: the text before its first `;`. -/
def cookiePair (setCookieValue : List Char) : List Char := (setCookieValue.splitOn ';').headD []

/-- A cookie name without uppercase letters: non-empty visible ASCII, with no `=`, `;`, `,` or
whitespace, that lowercasing leaves unchanged. -/
def IsLowercaseCookieName (name : List Char) : Prop :=
  name ≠ [] ∧ (∀ c ∈ name, isHeaderTextChar c = true ∧ isWhitespace c = false ∧ c ≠ '=' ∧
    c ≠ ';' ∧ c ≠ ',') ∧ toAsciiLowercase name = name

/-- A cookie pair of a request other than the sticky one: trimmed, without `;`, and not starting
with the sticky prefix. -/
def OtherCookie (cfg : StickyCookieConfig) (p : List Char) : Prop :=
  Trimmed p ∧ ';' ∉ p ∧ cfg.namePrefix.isPrefixOf p = false

theorem cookiePair_append {a : List Char} (ha : ';' ∉ a) (rest : List Char) :
    cookiePair (a ++ ';' :: rest) = a := by
  rw [cookiePair, List.splitOn_append_cons_self_of_not_mem ha]
  rfl

theorem trimmed_of_forall {s : List Char} (h : ∀ c ∈ s, isWhitespace c = false) : Trimmed s :=
  ⟨fun c hc => h c (List.mem_of_mem_head? hc), fun c hc => h c (List.mem_of_getLast? hc)⟩

/-- The URL-safe alphabet is visible ASCII, without whitespace, `;` or `=`. -/
theorem isUrlSafeChar_facts {c : Char} (h : isUrlSafeChar c = true) :
    isHeaderTextChar c = true ∧ isWhitespace c = false ∧ c ≠ ';' ∧ c ≠ '=' := by
  have hsemi : (';' : Char).toNat = 59 := rfl
  have heq : ('=' : Char).toNat = 61 := rfl
  have hcode : (65 ≤ c.toNat ∧ c.toNat < 91 ∨ 97 ≤ c.toNat ∧ c.toNat < 123 ∨
      48 ≤ c.toNat ∧ c.toNat < 58) ∨ c = '-' ∨ c = '_' := by
    unfold isUrlSafeChar decodeChar at h
    split_ifs at h with h₁ h₂ h₃ h₄ h₅
    · exact .inl (.inl h₁)
    · exact .inl (.inr (.inl h₂))
    · exact .inl (.inr (.inr h₃))
    · exact .inr (.inl h₄)
    · exact .inr (.inr h₅)
    · cases h
  rcases hcode with hrange | rfl | rfl
  · refine ⟨?_, ?_, fun h' => ?_, fun h' => ?_⟩
    · simp only [isHeaderTextChar, Bool.or_eq_true, Bool.and_eq_true, decide_eq_true_eq]
      omega
    · simp only [isWhitespace, Bool.or_eq_false_iff, Bool.and_eq_false_iff, decide_eq_false_iff_not]
      omega
    · rw [h', hsemi] at hrange
      omega
    · rw [h', heq] at hrange
      omega
  · decide
  · decide

/-- Visible ASCII text is its own image under `to_str` of its UTF-8 bytes. -/
theorem map_ofNat_utf8Bytes {s : List Char} (h : ∀ c ∈ s, isHeaderTextChar c = true) :
    (utf8Bytes s).map (fun b => Char.ofNat b.toNat) = s := by
  rw [utf8Bytes_of_headerText h, List.map_map]
  conv_rhs => rw [← List.map_id s]
  exact List.map_congr_left fun c hc => (headerTextChar_byte (h c hc)).2.2

/-- A value parsed from text that begins with visible ASCII reads back with the same beginning. -/
theorem toStr_fromStr_append {a b : List Char} {w : HeaderValue} {s : List Char}
    (ha : ∀ c ∈ a, isHeaderTextChar c = true) (hw : HeaderValue.fromStr (a ++ b) = .ok w)
    (hs : w.toStr = .ok s) : ∃ rest, s = a ++ rest := by
  have hbytes : w.bytes = utf8Bytes (a ++ b) := by
    unfold HeaderValue.fromStr HeaderValue.fromBytes at hw
    split at hw
    · cases hw
      rfl
    · cases hw
  unfold HeaderValue.toStr at hs
  split at hs
  · cases hs
    refine ⟨(utf8Bytes b).map fun b => Char.ofNat b.toNat, ?_⟩
    rw [hbytes, utf8Bytes, List.flatMap_append, List.map_append]
    rw [← utf8Bytes, map_ofNat_utf8Bytes ha]
    rfl
  · cases hs

theorem sealServerId_ne_nil {c : Aead} {aad : List UInt8} {serverId : List Char} {expiresUnix : Int}
    {nonce : Nonce} {sealed : List Char}
    (h : sealServerId c aad serverId expiresUnix nonce = .ok sealed) : sealed ≠ [] := by
  obtain ⟨-, -, ct, -, rfl⟩ := sealServerId_eq_ok h
  intro hnil
  have hlen := congrArg List.length hnil
  rw [length_encode] at hlen
  simp only [List.length_append, List.length_cons, List.length_nil] at hlen
  omega

/-- The sticky pair `name=sealed` is visible ASCII, without whitespace or `;`. -/
theorem stickyPair_chars {name sealed : List Char}
    (hname : ∀ c ∈ name, isHeaderTextChar c = true ∧ isWhitespace c = false ∧ c ≠ '=' ∧ c ≠ ';' ∧
      c ≠ ',')
    (hsealed : ∀ c ∈ sealed, isUrlSafeChar c = true) :
    ∀ x ∈ name ++ "=".toList ++ sealed,
      isHeaderTextChar x = true ∧ isWhitespace x = false ∧ x ≠ ';' := by
  intro x hx
  simp only [List.mem_append] at hx
  rcases hx with (hx | hx) | hx
  · exact ⟨(hname x hx).1, (hname x hx).2.1, (hname x hx).2.2.2.1⟩
  · have hx' : x = '=' := by simpa using hx
    subst hx'
    decide
  · have hsafe := isUrlSafeChar_facts (hsealed x hx)
    exact ⟨hsafe.1, hsafe.2.1, hsafe.2.2.1⟩

/-- The `Set-Cookie` value with the sticky prefix after `set_sticky_cookie_lb_context` is the one
it wrote, and the pair a user agent sends back from it is `name=sealed`. -/
theorem cookiePair_of_setStickyCookieLbContext {formatExpires : Int → Option (List Char)}
    {headers headers' : HeaderMap} {ctx : LoadBalanceContext} {cfg : StickyCookieConfig}
    {secure : Bool} {cipher : Aead} {nonce : Nonce} {now : Int}
    (hset : setStickyCookieLbContext formatExpires headers ctx cfg secure cipher nonce now = .ok headers')
    {v : HeaderValue} {S : List Char} (hv : v ∈ headers'.getAll setCookieName)
    (hvS : v.toStr = .ok S) (hSpre : cfg.namePrefix.isPrefixOf S = true)
    (hname : ∀ c ∈ ctx.stickyCookie.value.name, isHeaderTextChar c = true ∧ isWhitespace c = false ∧
      c ≠ '=' ∧ c ≠ ';' ∧ c ≠ ',') :
    ∃ info sealed, ctx.stickyCookie.info = some info ∧
      sealServerId cipher cfg.aad ctx.stickyCookie.value.value info.expires nonce = .ok sealed ∧
      cookiePair S = ctx.stickyCookie.value.name ++ "=".toList ++ sealed := by
  obtain ⟨info, sealed, s, w, hinfo, hseal, hs, hw, rfl⟩ := setStickyCookieLbContext_eq_ok hset
  obtain ⟨rest, rfl⟩ := toSetCookieValueWithValueAt_eq_ok hs
  have hchars := stickyPair_chars hname (isUrlSafeChar_of_sealServerId hseal)
  have hsemi : ';' ∉ ctx.stickyCookie.value.name ++ "=".toList ++ sealed :=
    fun h => (hchars ';' h).2.2 rfl
  have hvw : v = w := by
    rcases getAll_setCookieEntry _ _ _ v hv with hvw | ⟨-, hpre⟩
    · exact hvw
    · have htext : cookieLineText v = S := by rw [cookieLineText, hvS]
      rw [htext, hSpre] at hpre
      cases hpre
  subst hvw
  have hprefix : ∀ x ∈ (ctx.stickyCookie.value.name ++ "=".toList ++ sealed) ++ [';'],
      isHeaderTextChar x = true := by
    intro x hx
    rcases List.mem_append.mp hx with hx | hx
    · exact (hchars x hx).1
    · rw [List.mem_singleton.mp hx]
      rfl
  rw [← List.singleton_append, ← List.append_assoc] at hw
  obtain ⟨rest', rfl⟩ := toStr_fromStr_append hprefix hw hvS
  refine ⟨info, sealed, hinfo, hseal, ?_⟩
  rw [List.append_assoc, List.singleton_append]
  exact cookiePair_append hsemi rest'

/-- Lines whose pairs are the others around one trimmed pair without `;` read back as those
pairs. -/
theorem cookiePieces_eq_of_others {cfg : StickyCookieConfig} {req : HeaderMap}
    {lines : List (List (List Char))} {before after : List (List Char)} {seg : List Char}
    (hlines : CookieLines req lines) (hflat : lines.flatten = before ++ seg :: after)
    (hothers : ∀ p ∈ before ++ after, OtherCookie cfg p) (hsegTrim : Trimmed seg) (hsegSemi : ';' ∉ seg) :
    cookiePieces req = before ++ seg :: after := by
  have hpairs : ∀ p ∈ lines.flatten, Trimmed p ∧ ';' ∉ p := by
    rw [hflat]
    intro p hp
    rcases List.mem_append.mp hp with hp | hp
    · exact ⟨(hothers p (List.mem_append_left _ hp)).1, (hothers p (List.mem_append_left _ hp)).2.1⟩
    · rcases List.mem_cons.mp hp with rfl | hp
      · exact ⟨hsegTrim, hsegSemi⟩
      · exact ⟨(hothers p (List.mem_append_right _ hp)).1,
          (hothers p (List.mem_append_right _ hp)).2.1⟩
  rw [cookiePieces_of_cookieLines hlines hpairs, hflat]

/-- The pieces around one piece, joined by `; `, are header text. -/
theorem headerText_intercalate_around {req : HeaderMap} {before after : List (List Char)}
    {seg : List Char} (hpieces : cookiePieces req = before ++ seg :: after) :
    ∀ x ∈ "; ".toList.intercalate (before ++ after), isHeaderTextChar x = true := by
  apply headerText_intercalate
  intro p hp
  have hmem : p ∈ cookiePieces req := by
    rw [hpieces]
    rcases List.mem_append.mp hp with hp | hp
    · exact List.mem_append_left _ hp
    · exact List.mem_append_right _ (List.mem_cons_of_mem _ hp)
  exact (mem_cookiePieces hmem).2.2

theorem sticky_session_round_trip (formatExpires : Int → Option (List Char))
    (sha256 : List UInt8 → List UInt8) {c : Aead} (hc : c.Lawful)
    {name serverName : List Char} {pathOpt : Option (List Char)} {duration : Int}
    {cfg : StickyCookieConfig}
    (hcfg : StickyCookieConfig.tryNew name serverName pathOpt duration = .ok cfg)
    (hname : IsLowercaseCookieName name)
    {upstreams : List Upstream} (hnd : (upstreamMaps sha256 upstreams).upstreamIndexMap.Nodup)
    {lb lb' : LoadBalanceSticky} (hlbcfg : lb.stickyConfig = cfg)
    (hlbmaps : lb.upstreamMaps = upstreamMaps sha256 upstreams)
    {now₀ : Int} {req₀ : Option LoadBalanceContext} {i : Nat} {ctx : LoadBalanceContext}
    (hget : lb.getPtr now₀ req₀ upstreams = some (⟨i, some ctx⟩, lb'))
    {resHeaders resHeaders' : HeaderMap} {secure : Bool} {nonce : Nonce} {now₁ : Int}
    (hset : setStickyCookieLbContext formatExpires resHeaders ctx cfg secure c nonce now₁ =
      .ok resHeaders')
    {v : HeaderValue} {S : List Char} (hv : v ∈ resHeaders'.getAll setCookieName)
    (hvS : v.toStr = .ok S) (hSpre : cfg.namePrefix.isPrefixOf S = true)
    {req : HeaderMap} {lines : List (List (List Char))} {before after : List (List Char)}
    (hlines : CookieLines req lines) (hflat : lines.flatten = before ++ cookiePair S :: after)
    (hothers : ∀ p ∈ before ++ after, OtherCookie cfg p)
    {nowReq : Int} (hnow : ∀ info ∈ ctx.stickyCookie.info, nowReq < info.expires) :
    ∃ ctx', (takeoutStickyCookieLbContext req cfg c nowReq).2 = .ok (some ctx') ∧
      (upstreamMaps sha256 upstreams).upstreamIndexMap[i]? = some ctx'.stickyCookie.value.value ∧
      ((takeoutStickyCookieLbContext req cfg c nowReq).1.getAll cookieName).map HeaderValue.toStr =
        (if ("; ".toList.intercalate (before ++ after)).isEmpty then []
          else [.ok ("; ".toList.intercalate (before ++ after))]) ∧
      (∀ k, k ≠ cookieName →
        (takeoutStickyCookieLbContext req cfg c nowReq).1.getAll k = req.getAll k) ∧
      ∀ (upstreams' : List Upstream) (u : Upstream) (now₂ : Int), upstreams'[i]? = some u →
        u.isHealthy = true → lb'.getPtr now₂ (some ctx') upstreams' = some (⟨i, none⟩, lb') := by
  obtain ⟨-, hnameChars, hlower⟩ := hname
  have hcfgName : cfg.name = name := (tryNew_eq_ok hcfg).1
  obtain ⟨_, _, _, -, -, -, -, hp, -⟩ | hrr := LoadBalanceSticky.getPtr_cases hget
  · cases hp
  obtain ⟨-, rfl, id, hid, hctx⟩ := LoadBalanceSticky.rrWithNewCookie_eq_some hrr
  cases Option.some.inj hctx
  subst hlbcfg
  have hidx : (upstreamMaps sha256 upstreams).upstreamIndexMap[i]? = some id := by
    rw [← hlbmaps]
    exact hid
  have hcookieName : toAsciiLowercase lb.stickyConfig.name = name := by rw [hcfgName, hlower]
  obtain ⟨info, sealed, hinfo, hseal, hpair⟩ := cookiePair_of_setStickyCookieLbContext hset hv hvS
    hSpre (by rw [← hcookieName] at hnameChars; exact hnameChars)
  cases hinfo
  have hsafe := isUrlSafeChar_of_sealServerId hseal
  have hchars := stickyPair_chars hnameChars hsafe
  have hpair' : cookiePair S = name ++ "=".toList ++ sealed := by
    rw [hpair, ← hcookieName]
    rfl
  have hpieces : cookiePieces req = before ++ (name ++ "=".toList ++ sealed) :: after := by
    rw [hpair'] at hflat
    exact cookiePieces_eq_of_others hlines hflat hothers
      (trimmed_of_forall fun x hx => (hchars x hx).2.1) fun h => (hchars ';' h).2.2 rfl
  have hsegPre : lb.stickyConfig.namePrefix.isPrefixOf (name ++ "=".toList ++ sealed) = true := by
    rw [lb.stickyConfig.namePrefix_eq, hcfgName]
    exact List.isPrefixOf_iff_prefix.mpr (List.prefix_append _ _)
  have hraw : StickyCookieValue.tryFrom (name ++ "=".toList ++ sealed) lb.stickyConfig.name =
      .ok ⟨name, sealed⟩ := by
    rw [hcfgName]
    exact tryFrom_append (fun h => (hnameChars '=' h).2.2.1 rfl)
      (trimmed_of_forall fun x hx => (hnameChars x hx).2.1)
      (trimmed_of_forall fun x hx => (isUrlSafeChar_facts (hsafe x hx)).2.1)
      (sealServerId_ne_nil hseal)
  have hopen : openServerIdAt c lb.stickyConfig.aad sealed nowReq = some id :=
    openServerIdAt_sealServerId hc hseal (isI64_wrapI64 _) (hnow _ rfl)
  obtain ⟨hrestore, htake⟩ := takeout_eq_some hpieces hsegPre
    (fun p hp => (hothers p hp).2.2) hraw hopen
  obtain ⟨h', hr, hforward, hframe⟩ :=
    @restoreCookies_eq_ok req _ (headerText_intercalate_around hpieces)
  rw [hr, Except.ok.injEq] at hrestore
  subst hrestore
  refine ⟨⟨⟨lb.stickyConfig.name, id⟩, none⟩, htake, hidx, hforward, hframe, ?_⟩
  intro upstreams' u now₂ hu hh
  have hback : ({ lb with ptr := (fetchAndAdvanceCounter lb.ptr).2 } : LoadBalanceSticky).getServerIndexFromId
      id = some i := by
    show lb.upstreamMaps.upstreamIdMap.lookup id = some i
    rw [hlbmaps]
    exact getServerIndexFromId_upstreamMaps sha256 hnd hidx
  exact LoadBalanceSticky.getPtr_sticky hback hu hh


/-- A cipher that appends a zero tag and decrypts by dropping it: it has the guarantees that
the round trip asks of AES-256-GCM, and lets a run be computed. -/
def zeroTagAead : Aead where
  encrypt _ msg _ := some (msg ++ List.replicate tagLen 0)
  decrypt _ ct _ := some (ct.take (ct.length - tagLen))

theorem zeroTagAead_lawful : zeroTagAead.Lawful where
  encrypt_isSome _ _ _ _ _ := rfl
  length_encrypt _ msg _ ct h := by
    simp only [zeroTagAead, Option.some.injEq] at h
    rw [← h, List.length_append, List.length_replicate]
  decrypt_encrypt _ msg _ ct h := by
    simp only [zeroTagAead, Option.some.injEq] at h
    subst h
    simp [zeroTagAead]

/-- A run: the cookie of upstream `0` comes back on the first of two `Cookie` lines. -/
theorem sticky_session_round_trip_two_lines :
    ∃ cfg lb' ctx headers' req,
      StickyCookieConfig.tryNew "sid".toList "example.com".toList none 300 = .ok cfg ∧
      LoadBalanceSticky.getPtr ⟨0, cfg, upstreamMaps (fun _ => [7]) [⟨"http://backend.local".toList, none⟩]⟩
        1000 none [⟨"http://backend.local".toList, none⟩] = some (⟨0, some ctx⟩, lb') ∧
      setStickyCookieLbContext (fun _ => some "Thu, 01 Jan 1970 00:21:40 GMT".toList) .new ctx cfg true
        zeroTagAead ⟨List.replicate 12 0, rfl⟩ 1000 = .ok headers' ∧
      req = .ofEntries [(cookieName, .ofHeaderText
          "a=1; sid=AQAAAAAAAAAAAAAAAAAAAAAAAAUUQncAAAAAAAAAAAAAAAAAAAAA".toList (by decide +kernel)),
        (cookieName, .ofHeaderText "b=2".toList (by decide))] ∧
      ∃ ctx', (takeoutStickyCookieLbContext req cfg zeroTagAead 1100).2 = .ok (some ctx') ∧
        (upstreamMaps (fun _ => [7]) [⟨"http://backend.local".toList, none⟩]).upstreamIndexMap[0]? =
          some ctx'.stickyCookie.value.value ∧
        ((takeoutStickyCookieLbContext req cfg zeroTagAead 1100).1.getAll cookieName).map
            HeaderValue.toStr =
          (if ("; ".toList.intercalate (["a=1".toList] ++ ["b=2".toList])).isEmpty then []
            else [.ok ("; ".toList.intercalate (["a=1".toList] ++ ["b=2".toList]))]) ∧
        (∀ k, k ≠ cookieName →
          (takeoutStickyCookieLbContext req cfg zeroTagAead 1100).1.getAll k = req.getAll k) ∧
        ∀ (upstreams' : List Upstream) (u : Upstream) (now₂ : Int), upstreams'[0]? = some u →
          u.isHealthy = true → lb'.getPtr now₂ (some ctx') upstreams' = some (⟨0, none⟩, lb') :=
  ⟨_, _, _, _, _, rfl, rfl, rfl, rfl, sticky_session_round_trip
    (fun _ => some "Thu, 01 Jan 1970 00:21:40 GMT".toList) (fun _ => [7]) zeroTagAead_lawful
    (show StickyCookieConfig.tryNew "sid".toList "example.com".toList none 300 = _ by rfl)
    ⟨by decide, by decide, rfl⟩ (by decide)
    (rfl : LoadBalanceSticky.stickyConfig
      ⟨0, _, upstreamMaps (fun _ => [7]) [⟨"http://backend.local".toList, none⟩]⟩ = _) rfl
    (show LoadBalanceSticky.getPtr _ 1000 none _ = _ by rfl)
    (show setStickyCookieLbContext _ .new _ _ true _ ⟨List.replicate 12 0, rfl⟩ 1000 = _ by rfl)
    (List.mem_singleton_self _)
    (show HeaderValue.toStr _ = .ok ("sid=AQAAAAAAAAAAAAAAAAAAAAAAAAUUQncAAAAAAAAAAAAAAAAAAAAA; " ++
      "expires=Thu, 01 Jan 1970 00:21:40 GMT; Max-Age=300; path=/; domain=example.com; " ++
      "HttpOnly; SameSite=Lax; Secure").toList by decide +kernel)
    (by decide +kernel)
    (show CookieLines _ [["a=1".toList, "sid=AQAAAAAAAAAAAAAAAAAAAAAAAAUUQncAAAAAAAAAAAAAAAAAAAAA".toList],
      ["b=2".toList]] from ⟨by decide +kernel, by decide⟩)
    (by decide +kernel) (by unfold OtherCookie Trimmed; decide) (fun _ h => by cases h; decide)⟩

/-- With the name `Sticky` the round trip breaks: the builders lowercase it, so the cookie comes
back as `sticky=…`, which takeout, looking for `Sticky=`, does not recognise. -/
theorem takeout_ignores_uppercase_name :
    ∃ cfg lb' ctx headers',
      StickyCookieConfig.tryNew "Sticky".toList "example.com".toList none 300 = .ok cfg ∧
      LoadBalanceSticky.getPtr ⟨0, cfg, upstreamMaps (fun _ => [7]) [⟨"http://backend.local".toList, none⟩]⟩
        1000 none [⟨"http://backend.local".toList, none⟩] = some (⟨0, some ctx⟩, lb') ∧
      setStickyCookieLbContext (fun _ => some "Thu, 01 Jan 1970 00:21:40 GMT".toList) .new ctx cfg true
        zeroTagAead ⟨List.replicate 12 0, rfl⟩ 1000 = .ok headers' ∧
      (headers'.getAll setCookieName).map HeaderValue.toStr =
        [.ok ("sticky=AQAAAAAAAAAAAAAAAAAAAAAAAAUUQncAAAAAAAAAAAAAAAAAAAAA; " ++
          "expires=Thu, 01 Jan 1970 00:21:40 GMT; Max-Age=300; path=/; domain=example.com; " ++
          "HttpOnly; SameSite=Lax; Secure").toList] ∧
      (takeoutStickyCookieLbContext (.ofEntries [(cookieName, .ofHeaderText
          "sticky=AQAAAAAAAAAAAAAAAAAAAAAAAAUUQncAAAAAAAAAAAAAAAAAAAAA".toList (by decide +kernel))])
        cfg zeroTagAead 1100).2 = .ok none :=
  ⟨_, _, _, _, rfl, rfl, rfl, by decide +kernel, by decide +kernel⟩

end Rpxy.StickyCookieHeaders
