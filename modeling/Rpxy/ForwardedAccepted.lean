import Rpxy.ForwardedRoundTrip

/-!
# What the `Forwarded` reader accepts

Every chain that `parse_forwarded_header` returns is well formed: its addresses are
canonical, its obfuscated names and ports match the RFC 7239 grammar, and its `proto=`,
`host=` and `by=` values are header text, since they are cut out of field-lines that
`HeaderValue::to_str` accepted. With the writer-reader round trip this closes the loop:
whatever the reader accepts, the writer writes so that the reader gets it back.

Text that is not header text is where the round trip stops: the writer quotes it, the
field value is valid, but `to_str` refuses it and the reader fails.
-/

namespace Rpxy.ForwardedAccepted

open RustText RustResult RustIpAddr RustIpParser HttpHeaders ForwardedSyntax ForwardedRoundTrip

/-! ### Canonical addresses -/

theorem canonicalizeIp_idem (ip : IpAddr) : canonicalizeIp (canonicalizeIp ip) = canonicalizeIp ip := by
  cases ip with
  | v4 a => rfl
  | v6 a =>
    cases h : a.toIpv4 with
    | none => simp [canonicalizeIp, SocketAddr.toCanonical, h]
    | some m =>
      by_cases hm : m = Ipv4Addr.new 0 0 0 1
      · simp [canonicalizeIp, SocketAddr.toCanonical, h, hm]
      · simp [canonicalizeIp, SocketAddr.toCanonical, h, hm]

theorem canonicalizeIp_isWellFormed (ip : IpAddr) (port : Option ForwardedPort)
    (hport : ∀ p ∈ port, p.isWellFormed = true) :
    (ForwardedNode.mk (some (canonicalizeIp ip)) port .ip).isWellFormed = true := by
  simp [ForwardedNode.isWellFormed, canonicalizeIp_idem, Option.all_eq_true]
  exact hport

/-! ### Nodes and ports -/

theorem parseForwardedPort_isWellFormed {port token : List Char} {p : ForwardedPort}
    (h : parseForwardedPort port token = .ok p) : p.isWellFormed = true := by
  unfold parseForwardedPort at h
  by_cases h_ : port.head? = some '_'
  · rw [if_pos h_] at h
    by_cases ho : isObfport port = true
    · rw [if_pos ho] at h
      cases h
      exact ho
    · rw [if_neg ho] at h
      cases h
  · rw [if_neg h_] at h
    split at h
    · cases h
    · cases hu : u16FromStr port with
      | ok q =>
        rw [hu] at h
        cases h
        rfl
      | error e =>
        rw [hu] at h
        cases h

theorem parseColonNode_isWellFormed {token node port : List Char} {n : ForwardedNode}
    (h : parseColonNode token node port = some (.ok n)) : n.isWellFormed = true := by
  unfold parseColonNode at h
  split_ifs at h with hu ho h_
  · obtain ⟨p, hp, rfl⟩ := except_map_eq_ok.mp (Option.some.inj h)
    simp [ForwardedNode.isWellFormed, parseForwardedPort_isWellFormed hp]
  · obtain ⟨p, hp, rfl⟩ := except_map_eq_ok.mp (Option.some.inj h)
    simp [ForwardedNode.isWellFormed, parseForwardedPort_isWellFormed hp, ho]
  · cases h
  · split at h
    · obtain ⟨p, hp, rfl⟩ := except_map_eq_ok.mp (Option.some.inj h)
      exact canonicalizeIp_isWellFormed _ _ (by simp [parseForwardedPort_isWellFormed hp])
    · cases h

theorem parseBareNode_isWellFormed {token trimmed : List Char} {n : ForwardedNode}
    (h : parseBareNode token trimmed = .ok n) : n.isWellFormed = true := by
  unfold parseBareNode at h
  split at h
  · obtain ⟨ip, -, rfl⟩ := except_map_eq_ok.mp h
    exact canonicalizeIp_isWellFormed _ _ (by simp)
  · by_cases ho : isObfnode trimmed = true
    · rw [if_pos ho] at h
      cases h
      simp [ForwardedNode.isWellFormed, ho]
    · rw [if_neg ho] at h
      by_cases h_ : trimmed.head? = some '_'
      · rw [if_pos h_] at h
        cases h
      · rw [if_neg h_] at h
        obtain ⟨ip, -, rfl⟩ := except_map_eq_ok.mp h
        exact canonicalizeIp_isWellFormed _ _ (by simp)

/-- The `node:port` arm, when it is taken, comes from `parse_colon_node` on the split text. -/
theorem colonArm_eq_some {token trimmed : List Char} {r : Except String ForwardedNode}
    (h : (if trimmed.count ':' = 1 then
      (rsplitOnce ':' trimmed).bind fun np => parseColonNode token np.1 np.2 else none) = some r) :
    ∃ node port, parseColonNode token node port = some r := by
  split_ifs at h
  cases hnp : rsplitOnce ':' trimmed with
  | none => simp [hnp] at h
  | some np =>
    rw [hnp, Option.bind_some] at h
    exact ⟨np.1, np.2, h⟩

/-- Every node `parse_forwarded_node` returns is well formed. -/
theorem parseForwardedNode_isWellFormed {token : List Char} {n : ForwardedNode}
    (h : parseForwardedNode token = .ok n) : n.isWellFormed = true := by
  obtain ⟨trimmed, -, h⟩ := except_bind_eq_ok'.mp h
  unfold parseUnquotedNode at h
  by_cases hu : eqIgnoreAsciiCase trimmed "unknown".toList = true
  · rw [if_pos hu] at h
    cases h
    rfl
  · rw [if_neg hu] at h
    split at h
    · obtain ⟨ip, -, h⟩ := except_bind_eq_ok.mp h
      obtain ⟨p, hp, h⟩ := except_bind_eq_ok.mp h
      rw [except_pure, Except.ok.injEq] at h
      subst h
      exact canonicalizeIp_isWellFormed _ _ (by simp [parseForwardedPort_isWellFormed hp])
    · dsimp only at h
      split at h
      · rename_i r hr
        subst h
        obtain ⟨node, port, hcol⟩ := colonArm_eq_some hr
        exact parseColonNode_isWellFormed hcol
      · exact parseBareNode_isWellFormed h

/-! ### Characters of the values read -/

section Chars

variable {P : Char → Prop}

/-- Every segment of the splitter is made of characters of its input. -/
theorem splitScan_chars {d : Char} :
    ∀ (input seg : List Char) (q e : Bool), (∀ c ∈ seg, P c) → (∀ c ∈ input, P c) →
      ∀ t ∈ splitScan d seg q e input, ∀ c ∈ t, P c
  | [], seg, q, e, hseg, _ => by
    intro t ht c hc
    simp only [splitScan, List.mem_singleton] at ht
    subst ht
    exact hseg c (mem_of_mem_trim hc)
  | c0 :: cs, seg, q, e, hseg, hin => by
    have hcs : ∀ c ∈ cs, P c := fun c hc => hin c (by simp [hc])
    have hseg' : ∀ c ∈ seg ++ [c0], P c := by
      intro c hc
      rcases List.mem_append.mp hc with hc | hc
      · exact hseg c hc
      · rw [List.mem_singleton] at hc
        exact hc ▸ hin c0 (by simp)
    cases e with
    | true => exact splitScan_chars cs _ q false hseg' hcs
    | false =>
      unfold splitScan
      split_ifs
      · exact splitScan_chars cs _ q true hseg' hcs
      · exact splitScan_chars cs _ (!q) false hseg' hcs
      · intro t ht
        rcases List.mem_cons.mp ht with rfl | ht
        · exact fun c hc => hseg c (mem_of_mem_trim hc)
        · exact splitScan_chars cs [] q false (by simp) hcs t ht
      · exact splitScan_chars cs _ q false hseg' hcs

theorem unescapeScan_chars :
    ∀ (input result : List Char) (esc : Bool), (∀ c ∈ result, P c) → (∀ c ∈ input, P c) →
      ∀ c ∈ (unescapeScan result esc input).1, P c
  | [], result, esc, hres, _ => by simpa [unescapeScan] using hres
  | c0 :: cs, result, esc, hres, hin => by
    have hcs : ∀ c ∈ cs, P c := fun c hc => hin c (by simp [hc])
    have hres' : ∀ c ∈ result ++ [c0], P c := by
      intro c hc
      rcases List.mem_append.mp hc with hc | hc
      · exact hres c hc
      · rw [List.mem_singleton] at hc
        exact hc ▸ hin c0 (by simp)
    cases esc with
    | true => exact unescapeScan_chars cs _ false hres' hcs
    | false =>
      unfold unescapeScan
      split_ifs
      · exact unescapeScan_chars cs _ true hres hcs
      · exact unescapeScan_chars cs _ false hres' hcs

/-- `unquote_http_value` only keeps characters of its input. -/
theorem unquoteHttpValue_chars {value r : List Char} (hv : ∀ c ∈ value, P c)
    (h : unquoteHttpValue value = .ok r) : ∀ c ∈ r, P c := by
  have htrim : ∀ c ∈ trim value, P c := fun c hc => hv c (mem_of_mem_trim hc)
  unfold unquoteHttpValue at h
  dsimp only at h
  split_ifs at h
  · cases h
    exact htrim
  · split at h
    · cases h
    · rename_i inner hinner
      obtain ⟨mid, hmid, hin⟩ := Option.bind_eq_some_iff.mp hinner
      have hmid' : ∀ c ∈ mid, P c := fun c hc => htrim c (by rw [stripPrefix_eq_some hmid]; simp [hc])
      have hin' : ∀ c ∈ inner, P c := fun c hc => hmid' c (by rw [stripSuffix_eq_some hin]; simp [hc])
      split at h
      · rename_i result hres
        cases h
        have := unescapeScan_chars inner [] false (by simp) hin'
        rw [hres] at this
        exact this
      · cases h

/-- What the entry reader keeps: well-formed nodes, and texts whose characters satisfy `P`. -/
def ParamsGood (P : Char → Prop) (acc : EntryParams) : Prop :=
  (∀ n ∈ acc.forNode, n.isWellFormed = true) ∧ (∀ v ∈ acc.proto, ∀ c ∈ v, P c) ∧
    (∀ v ∈ acc.host, ∀ c ∈ v, P c) ∧ (∀ v ∈ acc.«by», ∀ c ∈ v, P c)

theorem setParamOnce_eq_ok {α : Type} {key : String} {cur : Option α} {value : Except String α}
    {r : Option α} (h : setParamOnce key cur value = .ok r) : ∃ v, value = .ok v ∧ r = some v := by
  unfold setParamOnce at h
  split_ifs at h
  obtain ⟨v, hv, rfl⟩ := except_map_eq_ok.mp h
  exact ⟨v, hv, rfl⟩

/-- One parameter keeps the entry reader's state good. -/
theorem readEntryParam_good {acc acc' : EntryParams} {param : List Char} (hacc : ParamsGood P acc)
    (hp : ∀ c ∈ param, P c) (h : readEntryParam acc param = .ok acc') : ParamsGood P acc' := by
  unfold readEntryParam at h
  split at h
  · cases h
    exact hacc
  · rename_i key value hsplit
    obtain ⟨rfl, -⟩ := splitOnce_eq_some hsplit
    have hv : ∀ c ∈ trim value, P c := fun c hc => hp c (by simp [mem_of_mem_trim hc])
    obtain ⟨hn, hpr, hho, hby⟩ := hacc
    dsimp only at h
    split_ifs at h
    · obtain ⟨o, ho, rfl⟩ := except_map_eq_ok.mp h
      obtain ⟨n, hn', rfl⟩ := setParamOnce_eq_ok ho
      exact ⟨by simp [parseForwardedNode_isWellFormed hn'], hpr, hho, hby⟩
    · obtain ⟨o, ho, rfl⟩ := except_map_eq_ok.mp h
      obtain ⟨r, hr, rfl⟩ := setParamOnce_eq_ok ho
      exact ⟨hn, by simpa using unquoteHttpValue_chars hv hr, hho, hby⟩
    · obtain ⟨o, ho, rfl⟩ := except_map_eq_ok.mp h
      obtain ⟨r, hr, rfl⟩ := setParamOnce_eq_ok ho
      exact ⟨hn, hpr, by simpa using unquoteHttpValue_chars hv hr, hby⟩
    · obtain ⟨o, ho, rfl⟩ := except_map_eq_ok.mp h
      obtain ⟨r, hr, rfl⟩ := setParamOnce_eq_ok ho
      exact ⟨hn, hpr, hho, by simpa using unquoteHttpValue_chars hv hr⟩
    · cases h
      exact ⟨hn, hpr, hho, hby⟩

/-- Every entry `parse_forwarded_header_entry` returns has a well-formed node and texts made
of characters of its input. -/
theorem parseForwardedHeaderEntry_good {entry : List Char} {e : ForwardedEntry} (hp : ∀ c ∈ entry, P c)
    (h : parseForwardedHeaderEntry entry = .ok e) :
    e.isWellFormed = true ∧ (∀ v ∈ e.proto, ∀ c ∈ v, P c) ∧ (∀ v ∈ e.host, ∀ c ∈ v, P c) ∧
      (∀ v ∈ e.«by», ∀ c ∈ v, P c) := by
  unfold parseForwardedHeaderEntry at h
  obtain ⟨params, hfold, h⟩ := except_bind_eq_ok.mp h
  have hgood : ParamsGood P params := by
    refine foldlM_eq_ok_induction (ParamsGood P) ?_ (by simp [ParamsGood]) hfold
    intro acc param hparam acc' hacc hstep
    exact readEntryParam_good hacc
      (splitScan_chars entry [] false false (by simp) hp param (List.mem_of_mem_filter hparam)) hstep
  obtain ⟨hn, hpr, hho, hby⟩ := hgood
  split at h
  · cases h
  · rename_i n hfor
    cases h
    exact ⟨hn n hfor, hpr, hho, hby⟩

end Chars

/-! ### The header -/

theorem headerValueStr_chars {v : HeaderValue} {s : List Char} (h : headerValueStr v = .ok s) :
    ∀ c ∈ s, isHeaderTextChar c = true :=
  toStr_headerText (except_mapError_eq_ok.mp h)

theorem joinRest_chars :
    ∀ (vs : List HeaderValue) (joined s : List Char), (∀ c ∈ joined, isHeaderTextChar c = true) →
      joinRest joined vs = .ok s → ∀ c ∈ s, isHeaderTextChar c = true
  | [], joined, s, hj, h => by
    cases h
    exact hj
  | v :: vs, joined, s, hj, h => by
    obtain ⟨t, ht, h⟩ := except_bind_eq_ok.mp h
    refine joinRest_chars vs _ s ?_ h
    intro c hc
    simp only [List.mem_append] at hc
    rcases hc with (hc | hc) | hc
    · exact hj c hc
    · exact (by decide : ∀ x ∈ ", ".toList, isHeaderTextChar x = true) c hc
    · exact headerValueStr_chars ht c hc

/-- The joined field-lines are header text. -/
theorem joinHeaderValues_chars {m : HeaderMap} {k s : List Char} (h : joinHeaderValues m k = .ok (some s)) :
    ∀ c ∈ s, isHeaderTextChar c = true := by
  unfold joinHeaderValues at h
  split at h
  · cases h
  · obtain ⟨t, ht, h⟩ := except_map_eq_ok.mp h
    cases h
    exact headerValueStr_chars ht
  · obtain ⟨first, hfirst, h⟩ := except_bind_eq_ok.mp h
    obtain ⟨t, ht, h⟩ := except_map_eq_ok.mp h
    cases h
    exact joinRest_chars _ _ _ (headerValueStr_chars hfirst) ht

/-- Every chain `parse_forwarded_header` returns is well formed, with header-text parameters. -/
theorem parseForwardedHeader_good {m : HeaderMap} {chain : List ForwardedEntry}
    (h : parseForwardedHeader m = .ok chain) :
    ∀ e ∈ chain, e.isWellFormed = true ∧ e.hasHeaderText = true := by
  obtain ⟨o, ho, h⟩ := except_bind_eq_ok.mp h
  split at h
  · cases h
  · rename_i s
    have hs := joinHeaderValues_chars ho
    intro e he
    obtain ⟨t, ht, hte⟩ := mapM_eq_ok_forall h e he
    have htc := splitScan_chars s [] false false (by simp) hs t (List.mem_of_mem_filter ht)
    obtain ⟨hwf, hpr, hho, hby⟩ := parseForwardedHeaderEntry_good htc hte
    exact ⟨hwf, (hasHeaderText_iff e).mpr ⟨hpr, hho, hby⟩⟩

/-! ### The round trip of the format -/

/-- The `Forwarded` writer and reader are inverse on every non-empty chain of well-formed
entries whose `proto=`, `host=` and `by=` values are header text; every chain the reader
returns is of that kind, so it survives a write and a read. -/
theorem forwarded_header_round_trip :
    (∀ chain : List ForwardedEntry, chain ≠ [] → (∀ e ∈ chain, e.isWellFormed = true) →
      (∀ e ∈ chain, e.hasHeaderText = true) → ForwardedRoundTrips chain) ∧
    (∀ (m : HeaderMap) (chain : List ForwardedEntry), parseForwardedHeader m = .ok chain →
      (∀ e ∈ chain, e.isWellFormed = true) ∧ (chain ≠ [] → ForwardedRoundTrips chain)) := by
  refine ⟨fun chain hne hwf ht => forwardedRoundTrips_of_wellFormed hne hwf ht, ?_⟩
  intro m chain h
  have hgood := parseForwardedHeader_good h
  refine ⟨fun e he => (hgood e he).1, fun hne => ?_⟩
  exact forwardedRoundTrips_of_wellFormed hne (fun e he => (hgood e he).1) (fun e he => (hgood e he).2)

theorem forwarded_header_round_trip_unknown_hop :
    ForwardedRoundTrips [⟨⟨none, none, .unknown⟩, some "https".toList, none, none⟩] :=
  forwarded_header_round_trip.1 _ (by decide) (by decide) (by decide)

/-- A non-ASCII `proto=` breaks the round trip: the writer quotes it and the field value is
valid, but `HeaderValue::to_str` refuses the field-line, so the reader fails. -/
theorem forwarded_round_trip_non_ascii_proto :
    [ForwardedEntry.mk ⟨none, none, .unknown⟩ (some ['é']) none none] ≠ [] ∧
      (∀ e ∈ [ForwardedEntry.mk ⟨none, none, .unknown⟩ (some ['é']) none none], e.isWellFormed = true) ∧
      ∃ s v, generateForwardedHeader [⟨⟨none, none, .unknown⟩, some ['é'], none, none⟩] = .ok s ∧
        HeaderValue.fromStr s = .ok v ∧
        ∀ m : HeaderMap, m.getAll forwardedName = [v] →
          parseForwardedHeader m = .error ("invalid header value: " ++ toStrErrorText) := by
  have hbytes : ∀ b ∈ utf8Bytes "for=unknown;proto=\"é\"".toList, isValidHeaderByte b = true := by decide
  have hvisible : (utf8Bytes "for=unknown;proto=\"é\"".toList).all isVisibleAsciiByte = false := by decide
  refine ⟨by decide, by decide, "for=unknown;proto=\"é\"".toList, ⟨_, hbytes⟩, rfl, ?_, ?_⟩
  · rw [HeaderValue.fromStr, HeaderValue.fromBytes_of_valid hbytes]
  · intro m hm
    have hstr : HeaderValue.toStr ⟨_, hbytes⟩ = .error toStrErrorText := by
      unfold HeaderValue.toStr
      rw [hvisible]
      rfl
    have hjoin : joinHeaderValues m forwardedName = .error ("invalid header value: " ++ toStrErrorText) := by
      rw [joinHeaderValues, hm]
      simp only [headerValueStr, hstr, except_mapError_error, except_map_error]
    rw [parseForwardedHeader, hjoin]
    rfl

end Rpxy.ForwardedAccepted
