import Rpxy.ProxyProtocol
import Rpxy.ForwardingTrust
import Rpxy.ForwardedAccepted

/-!
# The peer address at the two trust boundaries

The forwarding headers test a peer against the trusted proxies after `canonicalize_ip`
(`SocketAddr::to_canonical`, through `Ipv6Addr::to_ipv4`), the PROXY protocol after
`normalize_mapped_ipv4` (through `Ipv6Addr::to_ipv4_mapped`). Both map `::ffff:a.b.c.d` to
`a.b.c.d`, but `to_ipv4` also maps the IPv4-compatible `::a.b.c.d`, and `to_canonical` keeps any
address whose IPv4 image is `0.0.0.1` as IPv6.

The main result: the two agree exactly outside `CanonicalFormsDiffer` (the IPv4-compatible
addresses other than `::1`, `::` among them, and `::ffff:0.0.0.1`); there the two trust tests
agree, and the address `add_forwarding_header` writes for an untrusted peer is the
`normalize_mapped_ipv4` image of its address.
-/

namespace Rpxy.PeerAddress

open RustIpAddr HttpHeaders ForwardedSyntax ForwardedAccepted ForwardingChain ForwardingTrust ProxyProtocol

/-- The addresses on which `canonicalize_ip` and `normalize_mapped_ipv4` disagree: the
IPv4-compatible `::a.b.c.d` other than `::1`, which only `canonicalize_ip` maps, and
`::ffff:0.0.0.1`, which only `normalize_mapped_ipv4` maps. -/
def CanonicalFormsDiffer : IpAddr → Prop
  | .v4 _ => False
  | .v6 a =>
    (∃ v4, a.segments = [0, 0, 0, 0, 0, 0] ++ ipv4Segments v4 ∧ v4 ≠ Ipv4Addr.new 0 0 0 1) ∨
      a.segments = [0, 0, 0, 0, 0, 0xffff] ++ ipv4Segments (Ipv4Addr.new 0 0 0 1)

/-! ### The embedded IPv4 address -/

theorem ipv4Segments_new_high_low (ab cd : UInt16) :
    ipv4Segments (Ipv4Addr.new (segmentHigh ab) (segmentLow ab) (segmentHigh cd) (segmentLow cd)) =
      [ab, cd] := by
  simp [ipv4Segments, Ipv4Addr.new]

theorem ipv4Segments_inj {a b : Ipv4Addr} (h : ipv4Segments a = ipv4Segments b) : a = b := by
  obtain ⟨a1, a2, a3, a4, rfl⟩ := Ipv4Addr.eq_new a
  obtain ⟨b1, b2, b3, b4, rfl⟩ := Ipv4Addr.eq_new b
  simp only [ipv4Segments, Ipv4Addr.new, List.cons.injEq, and_true] at h
  obtain ⟨h12, h34⟩ := h
  have e1 := congrArg segmentHigh h12
  have e2 := congrArg segmentLow h12
  have e3 := congrArg segmentHigh h34
  have e4 := congrArg segmentLow h34
  simp only [segmentHigh_ofBytes, segmentLow_ofBytes] at e1 e2 e3 e4
  rw [e1, e2, e3, e4]

theorem compatible_ne_mapped (x y : List UInt16) :
    [0, 0, 0, 0, 0, 0] ++ x ≠ [0, 0, 0, 0, 0, 0xffff] ++ y := by
  simp

theorem toIpv4_eq_some_iff {a : Ipv6Addr} {v4 : Ipv4Addr} :
    a.toIpv4 = some v4 ↔ a.segments = [0, 0, 0, 0, 0, 0] ++ ipv4Segments v4 ∨
      a.segments = [0, 0, 0, 0, 0, 0xffff] ++ ipv4Segments v4 := by
  constructor
  · intro h
    unfold Ipv6Addr.toIpv4 at h
    split at h
    · next s5 ab cd hs =>
      split at h
      · next h5 =>
        cases h
        rw [ipv4Segments_new_high_low, hs]
        rcases h5 with rfl | rfl
        · exact .inl rfl
        · exact .inr rfl
      · cases h
    · cases h
  · obtain ⟨o1, o2, o3, o4, rfl⟩ := Ipv4Addr.eq_new v4
    rintro (h | h) <;>
      simp [Ipv6Addr.toIpv4, h, ipv4Segments, Ipv4Addr.new]

theorem toIpv4Mapped_eq_some_iff {a : Ipv6Addr} {v4 : Ipv4Addr} :
    a.toIpv4Mapped = some v4 ↔ a.segments = [0, 0, 0, 0, 0, 0xffff] ++ ipv4Segments v4 := by
  refine ⟨Ipv6Addr.toIpv4Mapped_eq_some, fun h => ?_⟩
  obtain ⟨o1, o2, o3, o4, rfl⟩ := Ipv4Addr.eq_new v4
  simp [Ipv6Addr.toIpv4Mapped, h, ipv4Segments, Ipv4Addr.new]

theorem toIpv4_of_toIpv4Mapped {a : Ipv6Addr} {v4 : Ipv4Addr} (h : a.toIpv4Mapped = some v4) :
    a.toIpv4 = some v4 :=
  toIpv4_eq_some_iff.mpr (.inr (toIpv4Mapped_eq_some_iff.mp h))

theorem toIpv4Mapped_eq_none_of_toIpv4 {a : Ipv6Addr} (h : a.toIpv4 = none) : a.toIpv4Mapped = none := by
  cases hm : a.toIpv4Mapped with
  | none => rfl
  | some v4 =>
    rw [toIpv4_of_toIpv4Mapped hm] at h
    cases h

/-- An IPv4-compatible address is not IPv4-mapped. -/
theorem toIpv4Mapped_eq_none_of_compatible {a : Ipv6Addr} {x : List UInt16}
    (hc : a.segments = [0, 0, 0, 0, 0, 0] ++ x) : a.toIpv4Mapped = none := by
  cases hm : a.toIpv4Mapped with
  | none => rfl
  | some w => exact absurd (hc.symm.trans (toIpv4Mapped_eq_some_iff.mp hm)) (compatible_ne_mapped _ _)

/-! ### The two canonical forms -/

theorem canonicalizeIp_v6_of_toIpv4 {a : Ipv6Addr} {v4 : Ipv4Addr} (h : a.toIpv4 = some v4) :
    canonicalizeIp (.v6 a) = if v4 = Ipv4Addr.new 0 0 0 1 then .v6 a else .v4 v4 := by
  simp only [canonicalizeIp, SocketAddr.toCanonical, h]
  split <;> rfl

theorem normalizeMappedIpv4_v6 (a : Ipv6Addr) :
    normalizeMappedIpv4 (.v6 a) = ((a.toIpv4Mapped).map IpAddr.v4).getD (.v6 a) := by
  simp only [normalizeMappedIpv4]
  split <;> simp_all

/-- `canonicalize_ip` and `normalize_mapped_ipv4` agree exactly outside `CanonicalFormsDiffer`. -/
theorem canonicalizeIp_eq_normalizeMappedIpv4_iff (ip : IpAddr) :
    canonicalizeIp ip = normalizeMappedIpv4 ip ↔ ¬CanonicalFormsDiffer ip := by
  cases ip with
  | v4 a => exact ⟨fun _ h => h, fun _ => rfl⟩
  | v6 a =>
    have hfirst : ∀ x y : List UInt16, [0, 0, 0, 0, 0, 0] ++ x = [0, 0, 0, 0, 0, 0] ++ y → x = y :=
      fun x y h => List.append_cancel_left h
    have hmapped : ∀ x y : List UInt16,
        [0, 0, 0, 0, 0, 0xffff] ++ x = [0, 0, 0, 0, 0, 0xffff] ++ y → x = y :=
      fun x y h => List.append_cancel_left h
    cases h4 : a.toIpv4 with
    | none =>
      have hnone := toIpv4Mapped_eq_none_of_toIpv4 h4
      have hcanon : canonicalizeIp (.v6 a) = .v6 a := by simp [canonicalizeIp, SocketAddr.toCanonical, h4]
      rw [hcanon, normalizeMappedIpv4_v6, hnone]
      refine ⟨fun _ hd => ?_, fun _ => rfl⟩
      rcases hd with ⟨v4, hs, -⟩ | hs
      · rw [toIpv4_eq_some_iff.mpr (.inl hs)] at h4
        cases h4
      · rw [toIpv4_eq_some_iff.mpr (.inr hs)] at h4
        cases h4
    | some v4 =>
      rw [canonicalizeIp_v6_of_toIpv4 h4, normalizeMappedIpv4_v6]
      rcases toIpv4_eq_some_iff.mp h4 with hc | hm
      · rw [toIpv4Mapped_eq_none_of_compatible hc]
        by_cases h1 : v4 = Ipv4Addr.new 0 0 0 1
        · rw [if_pos h1]
          refine ⟨fun _ hd => ?_, fun _ => rfl⟩
          rcases hd with ⟨w, hs, hw⟩ | hs
          · exact hw (ipv4Segments_inj (hfirst _ _ (hs.symm.trans hc)) ▸ h1)
          · exact compatible_ne_mapped _ _ (hc.symm.trans hs)
        · rw [if_neg h1]
          exact ⟨(fun h => by cases h), fun hno => absurd (Or.inl ⟨v4, hc, h1⟩) hno⟩
      · rw [toIpv4Mapped_eq_some_iff.mpr hm]
        by_cases h1 : v4 = Ipv4Addr.new 0 0 0 1
        · rw [if_pos h1]
          exact ⟨(fun h => by cases h), fun hno => absurd (Or.inr (h1 ▸ hm)) hno⟩
        · rw [if_neg h1]
          refine ⟨fun _ hd => ?_, fun _ => rfl⟩
          rcases hd with ⟨w, hs, -⟩ | hs
          · exact compatible_ne_mapped _ _ (hs.symm.trans hm)
          · exact h1 (ipv4Segments_inj (hmapped _ _ (hm.symm.trans hs)))

/-! ### The peer address and the trust tests -/

theorem toCanonical_ip (sa : SocketAddr) : sa.toCanonical.ip = canonicalizeIp sa.ip := by
  obtain ⟨ip, port⟩ := sa
  cases ip with
  | v4 a => rfl
  | v6 a =>
    simp only [canonicalizeIp, SocketAddr.toCanonical]
    cases a.toIpv4 with
    | none => rfl
    | some m => by_cases hm : m = Ipv4Addr.new 0 0 0 1 <;> simp [hm]

/-- The peer address `add_forwarding_header` works with is `canonicalize_ip` of the peer's. -/
theorem canonicalizeIp_toCanonical_ip (sa : SocketAddr) :
    canonicalizeIp sa.toCanonical.ip = canonicalizeIp sa.ip := by
  rw [toCanonical_ip, canonicalizeIp_idem]

section Trust

variable {Net : Type} (contains : Net → IpAddr → Bool) (trusted : List Net)

theorem isTrustedProxy_canonicalizeIp (ip : IpAddr) :
    isTrustedProxy contains trusted (canonicalizeIp ip) = isTrustedProxy contains trusted ip := by
  simp only [isTrustedProxy, canonicalizeIp_idem]

theorem isTrustedProxy_eq_normalized {ip : IpAddr} (h : ¬CanonicalFormsDiffer ip) :
    isTrustedProxy contains trusted ip = trusted.any fun net => contains net (normalizeMappedIpv4 ip) := by
  rw [isTrustedProxy, (canonicalizeIp_eq_normalizeMappedIpv4_iff ip).mpr h]

/-- An untrusted peer's headers name the peer alone: `X-Forwarded-For` and `X-Real-IP` are
both the text of its canonical address. -/
theorem addForwardingHeader_untrusted_peer {headers headers' : HeaderMap} {clientAddr listenAddr : SocketAddr}
    {tls : Bool} {originalUri : List Char} {host : Option (List Char)}
    (h : addForwardingHeader contains headers clientAddr listenAddr tls originalUri host trusted = .ok headers')
    (hu : isTrustedProxy contains trusted clientAddr.ip = false) :
    (∃ xff, headers'.getAll xForwardedForName = [xff] ∧ xff.toStr = .ok (canonicalizeIp clientAddr.ip).toText) ∧
      ∃ realIp, headers'.getAll xRealIpName = [realIp] ∧ realIp.toStr = .ok (canonicalizeIp clientAddr.ip).toText := by
  obtain ⟨⟨xff, hxff, hgetXff⟩, ⟨realIp, hreal, hgetReal⟩, -, -⟩ := addForwardingHeader_spec contains trusted h
  rw [canonicalizeIp_toCanonical_ip] at hxff hreal
  set p := canonicalizeIp clientAddr.ip
  have hup : isTrustedProxy contains trusted p = false := by
    rw [isTrustedProxy_canonicalizeIp, hu]
  have htext := (xffView_spec p tls host (normalizeForwardingChain contains headers p tls host trusted)).1
  have hview : (xffView p tls host (normalizeForwardingChain contains headers p tls host trusted)).1 =
      [buildPeerForwardedEntry p tls host] := by
    rcases (xffView_spec p tls host _).2 with hv | hv
    · rw [hv, normalizeForwardingChain_of_untrusted contains trusted hup]
    · exact hv
  refine ⟨⟨xff, hgetXff, ?_⟩, ⟨realIp, hgetReal, ?_⟩⟩
  · rw [htext.toStr_csv hxff, hview, chainIps_peer]
    simp [pushIpAddr_eq_toText]
  · have hfirst := htext.toStr_first hreal p
    rw [hview, chainIps_peer] at hfirst
    rw [← pushIpAddr_eq_toText]
    exact hfirst rfl

theorem canonical_forms_agree :
    (∀ ip, canonicalizeIp ip = normalizeMappedIpv4 ip ↔ ¬CanonicalFormsDiffer ip) ∧
    (∀ ip, ¬CanonicalFormsDiffer ip →
      isTrustedProxy contains trusted ip = trusted.any fun net => contains net (normalizeMappedIpv4 ip)) ∧
    (∀ clientAddr : SocketAddr, ¬CanonicalFormsDiffer clientAddr.ip →
      canonicalizeIp clientAddr.toCanonical.ip = normalizeMappedIpv4 clientAddr.ip) ∧
    ∀ (headers headers' : HeaderMap) (clientAddr listenAddr : SocketAddr) (tls : Bool) (originalUri : List Char)
      (host : Option (List Char)),
      addForwardingHeader contains headers clientAddr listenAddr tls originalUri host trusted = .ok headers' →
      isTrustedProxy contains trusted clientAddr.ip = false → ¬CanonicalFormsDiffer clientAddr.ip →
      (∃ xff, headers'.getAll xForwardedForName = [xff] ∧
        xff.toStr = .ok (normalizeMappedIpv4 clientAddr.ip).toText) ∧
      ∃ realIp, headers'.getAll xRealIpName = [realIp] ∧
        realIp.toStr = .ok (normalizeMappedIpv4 clientAddr.ip).toText := by
  refine ⟨canonicalizeIp_eq_normalizeMappedIpv4_iff, fun ip => isTrustedProxy_eq_normalized contains trusted,
    fun clientAddr hd => ?_, fun headers headers' clientAddr listenAddr tls originalUri host h hu hd => ?_⟩
  · rw [canonicalizeIp_toCanonical_ip, (canonicalizeIp_eq_normalizeMappedIpv4_iff _).mpr hd]
  · rw [← (canonicalizeIp_eq_normalizeMappedIpv4_iff _).mpr hd]
    exact addForwardingHeader_untrusted_peer contains trusted h hu

/-- A client at the IPv4-mapped `::ffff:192.0.2.7`, for which no proxy is trusted, is written as
`192.0.2.7` to both headers, as the PROXY protocol would see it. -/
theorem canonical_forms_agree_mapped_peer :
    ∃ headers', addForwardingHeader (fun (net a : IpAddr) => net == a) .new
        ⟨.v6 (Ipv6Addr.ofList [0, 0, 0, 0, 0, 0xffff, 0xc000, 0x0207]), 40000⟩
        ⟨.v4 (Ipv4Addr.new 10 0 0 1), 443⟩ true "/".toList (some "example.com".toList)
        [.v4 (Ipv4Addr.new 10 0 0 1)] = .ok headers' ∧
      (∃ xff, headers'.getAll xForwardedForName = [xff] ∧ xff.toStr =
        .ok (normalizeMappedIpv4 (.v6 (Ipv6Addr.ofList [0, 0, 0, 0, 0, 0xffff, 0xc000, 0x0207]))).toText) ∧
      ∃ realIp, headers'.getAll xRealIpName = [realIp] ∧ realIp.toStr =
        .ok (normalizeMappedIpv4 (.v6 (Ipv6Addr.ofList [0, 0, 0, 0, 0, 0xffff, 0xc000, 0x0207]))).toText :=
  let ⟨_, h⟩ : ∃ headers', addForwardingHeader (fun (net a : IpAddr) => net == a) .new
      ⟨.v6 (Ipv6Addr.ofList [0, 0, 0, 0, 0, 0xffff, 0xc000, 0x0207]), 40000⟩
      ⟨.v4 (Ipv4Addr.new 10 0 0 1), 443⟩ true "/".toList (some "example.com".toList)
      [.v4 (Ipv4Addr.new 10 0 0 1)] = .ok headers' := ⟨_, rfl⟩
  ⟨_, h, (canonical_forms_agree (fun (net a : IpAddr) => net == a) [.v4 (Ipv4Addr.new 10 0 0 1)]).2.2.2
    _ _ _ _ _ _ _ h (by decide)
    (((canonical_forms_agree (fun (net a : IpAddr) => net == a) [.v4 (Ipv4Addr.new 10 0 0 1)]).1 _).mp
      (by decide))⟩

end Trust

/-- The IPv4-compatible `::10.0.0.1` is the trusted proxy `10.0.0.1` to the forwarding headers and
an untrusted source to the PROXY protocol. -/
theorem compatible_peer_trust_differs :
    isTrustedProxy (fun (net a : IpAddr) => net == a) [.v4 (Ipv4Addr.new 10 0 0 1)]
        (.v6 (Ipv6Addr.ofList [0, 0, 0, 0, 0, 0, 0x0a00, 1])) = true ∧
      ([IpAddr.v4 (Ipv4Addr.new 10 0 0 1)].any fun net =>
        net == normalizeMappedIpv4 (.v6 (Ipv6Addr.ofList [0, 0, 0, 0, 0, 0, 0x0a00, 1]))) = false := by
  decide

end Rpxy.PeerAddress
