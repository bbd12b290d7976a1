import Rpxy.CacheKey
import Rpxy.ForwardedAccepted

/-!
# The scheme shortcut and the `Forwarded` parser

`client_visible_scheme` does not run `parse_forwarded_header`: it reads the first element of
`X-Forwarded-Proto`, and only when that is absent or empty, `forwarded_first_proto`, a second
reader of the same quoted syntax that skips empty entries, does not ask for `for=`, and stops at
the first `proto=` parameter of the first entry.

The main result: whenever `parse_forwarded_header` accepts the header with a first hop `c₀`,
the shortcut returns `c₀.proto` when it is not empty and nothing otherwise. For a trusted peer
on a plaintext listener the scheme is therefore `https` exactly when the first
`X-Forwarded-Proto` element, or else that first-hop `proto`, is `https` in any case, and a read
or unquote failure of a header it consults gives `http`.
-/

namespace Rpxy.ClientScheme

open RustText RustResult RustIpAddr HttpHeaders ForwardedSyntax ForwardingChain ForwardedAccepted CacheKey

/-! ### One parameter, read by both -/

/-- A parameter the shortcut takes for `proto=`: a key that is `proto` in any case. -/
def IsProtoParam (param : List Char) : Prop :=
  ∃ key value, splitOnce '=' param = some (key, value) ∧ eqIgnoreAsciiCase (trim key) "proto".toList = true

theorem eqIgnoreAsciiCase_proto_iff (key : List Char) :
    eqIgnoreAsciiCase key "proto".toList = true ↔ toAsciiLowercase key = "proto".toList := by
  have hlower : toAsciiLowercase "proto".toList = "proto".toList := by decide
  rw [eqIgnoreAsciiCase, hlower, beq_iff_eq]

/-- What one parameter does to the entry reader's `proto`: a parameter that is not `proto=`
leaves it, and a `proto=` parameter sets it to the unquoted value when it was unset. -/
theorem readEntryParam_proto_cases {acc acc' : EntryParams} {param : List Char}
    (h : readEntryParam acc param = .ok acc') :
    (¬IsProtoParam param ∧ acc'.proto = acc.proto) ∨
      ∃ key value v, splitOnce '=' param = some (key, value) ∧
        eqIgnoreAsciiCase (trim key) "proto".toList = true ∧ acc.proto = none ∧
        unquoteHttpValue (trim value) = .ok v ∧ acc'.proto = some v := by
  unfold readEntryParam at h
  split at h
  · rename_i hsplit
    cases h
    left
    refine ⟨?_, rfl⟩
    rintro ⟨key, value, hkv, -⟩
    rw [hsplit] at hkv
    cases hkv
  · rename_i key value hsplit
    have hnot : toAsciiLowercase (trim key) ≠ "proto".toList → ¬IsProtoParam param := by
      rintro hne ⟨key', value', hkv, hproto⟩
      rw [hsplit, Option.some.injEq, Prod.mk.injEq] at hkv
      obtain ⟨rfl, rfl⟩ := hkv
      exact hne ((eqIgnoreAsciiCase_proto_iff _).mp hproto)
    dsimp only at h
    split_ifs at h with hfor hproto hhost hby
    · obtain ⟨o, -, rfl⟩ := except_map_eq_ok.mp h
      exact .inl ⟨hnot (by rw [hfor]; decide), rfl⟩
    · obtain ⟨o, ho, rfl⟩ := except_map_eq_ok.mp h
      obtain ⟨v, hv, rfl⟩ := setParamOnce_eq_ok ho
      have hunset : acc.proto = none := by
        unfold setParamOnce at ho
        split_ifs at ho with hsome
        exact Option.not_isSome_iff_eq_none.mp hsome
      exact .inr ⟨key, value, v, hsplit, (eqIgnoreAsciiCase_proto_iff _).mpr hproto, hunset, hv, rfl⟩
    · obtain ⟨o, -, rfl⟩ := except_map_eq_ok.mp h
      exact .inl ⟨hnot (by rw [hhost]; decide), rfl⟩
    · obtain ⟨o, -, rfl⟩ := except_map_eq_ok.mp h
      exact .inl ⟨hnot (by rw [hby]; decide), rfl⟩
    · cases h
      exact .inl ⟨hnot hproto, rfl⟩

/-- Once set, the entry reader's `proto` stays: a second `proto=` fails the entry. -/
theorem foldlM_readEntryParam_proto {params : List (List Char)} {acc res : EntryParams} {v : List Char}
    (hset : acc.proto = some v) (h : params.foldlM readEntryParam acc = .ok res) : res.proto = some v := by
  refine foldlM_eq_ok_induction (fun b => b.proto = some v) ?_ hset h
  intro b param _ b' hb hstep
  rcases readEntryParam_proto_cases hstep with ⟨-, hkeep⟩ | ⟨-, -, -, -, -, hnone, -, -⟩
  · rw [hkeep, hb]
  · rw [hb] at hnone
    cases hnone

/-- The shortcut's parameter loop returns the `proto` the full entry reader ends with, when it
is not empty; the induction runs over every reader state whose `proto` is still unset. -/
theorem protoParam_eq_of_foldlM : ∀ {params : List (List Char)} {acc res : EntryParams},
    acc.proto = none → params.foldlM readEntryParam acc = .ok res →
      protoParam params = .ok (res.proto.filter fun p => !p.isEmpty)
  | [], acc, res, hnone, h => by
    have hres : acc = res := by simpa using h
    rw [← hres, hnone]
    rfl
  | param :: rest, acc, res, hnone, h => by
    rw [List.foldlM_cons, except_bind_eq_ok] at h
    obtain ⟨acc', hstep, hrest⟩ := h
    rcases readEntryParam_proto_cases hstep with ⟨hnot, hkeep⟩ | ⟨key, value, v, hsplit, hproto, -, hv, hset⟩
    · have hskip : protoParam (param :: rest) = protoParam rest := by
        rw [protoParam.eq_2]
        split
        · rfl
        · rename_i key value hsplit
          have hne : eqIgnoreAsciiCase (trim key) "proto".toList = false :=
            Bool.eq_false_iff.mpr fun hp => hnot ⟨key, value, hsplit, hp⟩
          rw [hne]
          rfl
      rw [hskip]
      exact protoParam_eq_of_foldlM (hkeep.trans hnone) hrest
    · have hres : res.proto = some v := foldlM_readEntryParam_proto hset hrest
      have hstop : protoParam (param :: rest) = .ok (if v.isEmpty then none else some v) := by
        rw [protoParam.eq_2, hsplit]
        dsimp only
        rw [hproto, hv]
        simp only [Bool.not_true, Bool.false_eq_true, if_false]
        split <;> rfl
      rw [hstop, hres]
      cases v <;> rfl

/-- The parameters both readers loop over. -/
def entryParams (entry : List Char) : List (List Char) :=
  (splitRespectingQuotes entry ';').filter fun p => !p.isEmpty

theorem protoParam_of_parseForwardedHeaderEntry {entry : List Char} {e : ForwardedEntry}
    (h : parseForwardedHeaderEntry entry = .ok e) :
    protoParam (entryParams entry) = .ok (e.proto.filter fun p => !p.isEmpty) := by
  unfold parseForwardedHeaderEntry at h
  obtain ⟨params, hfold, h⟩ := except_bind_eq_ok.mp h
  have hproto : e.proto = params.proto := by
    split at h
    · cases h
    · cases h
      rfl
  rw [hproto]
  exact protoParam_eq_of_foldlM rfl hfold

/-- A `proto=` parameter whose value does not unquote, after parameters that are not
`proto=`, fails the shortcut. -/
theorem protoParam_eq_error {param key value : List Char} {err : String} (hsplit : splitOnce '=' param = some (key, value))
    (hproto : eqIgnoreAsciiCase (trim key) "proto".toList = true) (hv : unquoteHttpValue (trim value) = .error err) :
    ∀ (pre post : List (List Char)), (∀ q ∈ pre, ¬IsProtoParam q) → protoParam (pre ++ param :: post) = .error ()
  | [], post, _ => by
    rw [List.nil_append, protoParam.eq_2, hsplit]
    dsimp only
    rw [hproto, hv]
    rfl
  | q :: pre, post, hpre => by
    have hq : ¬IsProtoParam q := hpre q (by simp)
    have hrest := protoParam_eq_error hsplit hproto hv pre post fun q' hq' => hpre q' (by simp [hq'])
    rw [List.cons_append, protoParam.eq_2]
    split
    · exact hrest
    · rename_i key' value' hsplit'
      have hne : eqIgnoreAsciiCase (trim key') "proto".toList = false :=
        Bool.eq_false_iff.mpr fun hp => hq ⟨key', value', hsplit', hp⟩
      rw [hne]
      exact hrest

/-! ### The header -/

/-- The shortcut reads the first hop the full parser returns. -/
theorem forwardedFirstProto_eq_of_parse {headers : HeaderMap} {e : ForwardedEntry} {rest : List ForwardedEntry}
    (h : parseForwardedHeader headers = .ok (e :: rest)) :
    forwardedFirstProto headers = .ok (e.proto.filter fun p => !p.isEmpty) := by
  unfold parseForwardedHeader at h
  obtain ⟨joined, hjoin, h⟩ := except_bind_eq_ok.mp h
  cases joined with
  | none => cases h
  | some raw =>
    obtain ⟨first, entries, hfilter⟩ : ∃ first entries,
        (splitRespectingQuotes raw ',').filter (fun e => !e.isEmpty) = first :: entries := by
      cases hf : (splitRespectingQuotes raw ',').filter (fun e => !e.isEmpty) with
      | nil => simp [hf] at h
      | cons first entries => exact ⟨first, entries, rfl⟩
    have hfind : (splitRespectingQuotes raw ',').find? (fun e => !e.isEmpty) = some first := by
      rw [← List.head?_filter, hfilter]
      rfl
    simp only [hfilter, List.mapM_cons, except_bind_eq_ok] at h
    obtain ⟨e', he', entries', -, hcons⟩ := h
    have he : e' = e := (List.cons.inj (Except.ok.inj hcons)).1
    subst he
    unfold forwardedFirstProto
    rw [hjoin]
    dsimp only
    rw [hfind]
    exact protoParam_of_parseForwardedHeaderEntry he'

/-- `X-Forwarded-Proto` is absent, or readable with an empty first element. -/
def XfpAbsentOrEmpty (headers : HeaderMap) : Prop :=
  joinHeaderValues headers xForwardedProtoName = .ok none ∨
    ∃ raw, joinHeaderValues headers xForwardedProtoName = .ok (some raw) ∧ trim ((raw.splitOn ',').head?.getD []) = []

theorem xforwardedProtoFirst_of_absentOrEmpty {headers : HeaderMap} (h : XfpAbsentOrEmpty headers) :
    xforwardedProtoFirst headers = .ok none := by
  rcases h with hnone | ⟨raw, hraw, hempty⟩
  · simp [xforwardedProtoFirst, hnone]
  · simp [xforwardedProtoFirst, hraw, hempty]

theorem xforwardedProtoFirst_of_error {headers : HeaderMap} {err : String}
    (h : joinHeaderValues headers xForwardedProtoName = .error err) : xforwardedProtoFirst headers = .error () := by
  simp [xforwardedProtoFirst, h]

/-! ### The scheme of a trusted plaintext peer -/

section Trusted

variable {Net : Type} (contains : Net → IpAddr → Bool) (trusted : List Net) {addr : SocketAddr}
  {headers : HeaderMap}

/-- The scheme that one protocol text gives. -/
theorem https_iff_of_text (b : Bool) : ((if b = true then Scheme.https else Scheme.http) = .https) ↔ b = true := by
  cases b <;> simp

theorem clientVisibleScheme_of_xfp_some (htrust : isTrustedProxy contains trusted (canonicalizeIp addr.toCanonical.ip) = true)
    {s : List Char} (hx : xforwardedProtoFirst headers = .ok (some s)) :
    clientVisibleScheme contains false addr headers trusted =
      if eqIgnoreAsciiCase s "https".toList = true then .https else .http := by
  simp [clientVisibleScheme, htrust, hx]

theorem clientVisibleScheme_of_forwarded (htrust : isTrustedProxy contains trusted (canonicalizeIp addr.toCanonical.ip) = true)
    (hx : xforwardedProtoFirst headers = .ok none) {s : List Char} (hf : forwardedFirstProto headers = .ok (some s)) :
    clientVisibleScheme contains false addr headers trusted =
      if eqIgnoreAsciiCase s "https".toList = true then .https else .http := by
  simp [clientVisibleScheme, htrust, hx, hf]

theorem clientVisibleScheme_of_forwarded_none (htrust : isTrustedProxy contains trusted (canonicalizeIp addr.toCanonical.ip) = true)
    (hx : xforwardedProtoFirst headers = .ok none) (hf : forwardedFirstProto headers = .ok none) :
    clientVisibleScheme contains false addr headers trusted = .http := by
  simp [clientVisibleScheme, htrust, hx, hf]

theorem clientVisibleScheme_of_forwarded_error (hx : xforwardedProtoFirst headers = .ok none)
    (hf : forwardedFirstProto headers = .error ()) : clientVisibleScheme contains false addr headers trusted = .http := by
  simp [clientVisibleScheme, hx, hf]

theorem clientVisibleScheme_of_xfp_error (hx : xforwardedProtoFirst headers = .error ()) :
    clientVisibleScheme contains false addr headers trusted = .http := by
  simp [clientVisibleScheme, hx]

end Trusted

theorem forwarded_first_proto_agrees {Net : Type} (contains : Net → IpAddr → Bool) (trusted : List Net)
    (addr : SocketAddr) (headers : HeaderMap) :
    (∀ e rest, parseForwardedHeader headers = .ok (e :: rest) →
      forwardedFirstProto headers = .ok (e.proto.filter fun p => !p.isEmpty)) ∧
    (isTrustedProxy contains trusted (canonicalizeIp addr.toCanonical.ip) = true →
      (∀ s, xforwardedProtoFirst headers = .ok (some s) →
        (clientVisibleScheme contains false addr headers trusted = .https ↔
          eqIgnoreAsciiCase s "https".toList = true)) ∧
      (XfpAbsentOrEmpty headers → ∀ e rest, parseForwardedHeader headers = .ok (e :: rest) →
        (clientVisibleScheme contains false addr headers trusted = .https ↔
          ∃ p, e.proto = some p ∧ eqIgnoreAsciiCase p "https".toList = true)) ∧
      (∀ err, joinHeaderValues headers xForwardedProtoName = .error err →
        clientVisibleScheme contains false addr headers trusted = .http) ∧
      (XfpAbsentOrEmpty headers → ∀ err, joinHeaderValues headers forwardedName = .error err →
        clientVisibleScheme contains false addr headers trusted = .http) ∧
      (XfpAbsentOrEmpty headers → ∀ raw first pre param post key value err,
        joinHeaderValues headers forwardedName = .ok (some raw) →
        (splitRespectingQuotes raw ',').find? (fun e => !e.isEmpty) = some first →
        entryParams first = pre ++ param :: post → (∀ q ∈ pre, ¬IsProtoParam q) →
        splitOnce '=' param = some (key, value) → eqIgnoreAsciiCase (trim key) "proto".toList = true →
        unquoteHttpValue (trim value) = .error err →
        clientVisibleScheme contains false addr headers trusted = .http)) := by
  refine ⟨fun e rest h => forwardedFirstProto_eq_of_parse h, fun htrust => ⟨?_, ?_, ?_, ?_, ?_⟩⟩
  · intro s hx
    rw [clientVisibleScheme_of_xfp_some contains trusted htrust hx]
    exact https_iff_of_text _
  · intro hxfp e rest hparse
    have hx := xforwardedProtoFirst_of_absentOrEmpty hxfp
    have hshort := forwardedFirstProto_eq_of_parse hparse
    cases hproto : e.proto with
    | none =>
      rw [hproto] at hshort
      rw [clientVisibleScheme_of_forwarded_none contains trusted htrust hx hshort]
      simp
    | some p =>
      by_cases hempty : p = []
      · subst hempty
        rw [hproto] at hshort
        rw [clientVisibleScheme_of_forwarded_none contains trusted htrust hx hshort]
        constructor
        · intro h
          cases h
        · rintro ⟨p', hp', hhttps⟩
          cases hp'
          exact absurd hhttps (by decide)
      · have hshort' : forwardedFirstProto headers = .ok (some p) := by
          rw [hshort, hproto]
          simp [Option.filter, hempty]
        rw [clientVisibleScheme_of_forwarded contains trusted htrust hx hshort', https_iff_of_text]
        simp
  · intro err herr
    exact clientVisibleScheme_of_xfp_error contains trusted (xforwardedProtoFirst_of_error herr)
  · intro hxfp err herr
    have hf : forwardedFirstProto headers = .error () := by simp [forwardedFirstProto, herr]
    exact clientVisibleScheme_of_forwarded_error contains trusted (xforwardedProtoFirst_of_absentOrEmpty hxfp) hf
  · intro hxfp raw first pre param post key value err hraw hfirst hparams hpre hsplit hproto hv
    have hfail : forwardedFirstProto headers = .error () := by
      unfold forwardedFirstProto
      rw [hraw]
      dsimp only
      rw [hfirst]
      show protoParam (entryParams first) = _
      rw [hparams]
      exact protoParam_eq_error hsplit hproto hv pre post hpre
    exact clientVisibleScheme_of_forwarded_error contains trusted (xforwardedProtoFirst_of_absentOrEmpty hxfp) hfail

/-- A trusted proxy's `Forwarded: for=unknown;proto="HTTPS", for=_hidden`, without
`X-Forwarded-Proto`. -/
def forwardedHttps : HeaderMap :=
  .ofEntries [(forwardedName, HeaderValue.ofHeaderText "for=unknown;proto=\"HTTPS\", for=_hidden".toList (by decide))]

/-- The shortcut reads the first hop's quoted `HTTPS`, and the peer's scheme is `https`. -/
theorem forwarded_first_proto_agrees_https :
    forwardedFirstProto forwardedHttps = .ok (some "HTTPS".toList) ∧
      clientVisibleScheme (fun (_ : Unit) _ => true) false ⟨.v4 (Ipv4Addr.new 10 0 0 1), 50000⟩ forwardedHttps [()] =
        .https := by
  have h := forwarded_first_proto_agrees (fun (_ : Unit) _ => true) [()] ⟨.v4 (Ipv4Addr.new 10 0 0 1), 50000⟩
    forwardedHttps
  have hparse : parseForwardedHeader forwardedHttps =
      .ok [⟨⟨none, none, .unknown⟩, some "HTTPS".toList, none, none⟩,
        ⟨⟨none, none, .obfuscated "_hidden".toList⟩, none, none, none⟩] := by
    rfl
  exact ⟨h.1 _ _ hparse, ((h.2 rfl).2.1 (.inl rfl) _ _ hparse).mpr ⟨"HTTPS".toList, rfl, by decide⟩⟩

end Rpxy.ClientScheme
