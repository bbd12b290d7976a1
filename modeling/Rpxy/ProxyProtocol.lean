import Rpxy.ForwardedSyntax

/-!
# The inbound PROXY protocol header

`proxy/proxy_protocol.rs`: `parse_inbound_proxy_header` checks the peer against the trusted
networks, peeks at the stream until it can tell a v1 (text) header from a v2 (binary) one, and
reads the header: the v1 reader one byte at a time up to the first CRLF or 107 bytes, the v2
reader the 16 fixed bytes and the address block whose length they give, refused above 2048 bytes.
The header's contents are parsed by the `ppp` crate, given here as functions on the header's
bytes.

The stream is the list of its unread bytes. A peek copies a prefix of them into the 16-byte
buffer without consuming it; the lengths the successive peeks return are given with the call,
and a list that runs out is the outer timeout firing.

The main results: on a trusted peer the parser reads exactly a v1 header whose first CRLF ends
within 107 bytes, and exactly the `16 + addr_len` bytes of a v2 header with `addr_len ≤ 2048`;
it reads at most 107 bytes of a v1 header without such a CRLF, and nothing of a v2 header with a
larger `addr_len` or from an untrusted peer.
-/

namespace Rpxy.ProxyProtocol

open RustIpAddr ForwardedSyntax

/-- `V2_SIGNATURE`: `\r\n\r\n\0\r\nQUIT\n`. -/
def v2Signature : List UInt8 := [13, 10, 13, 10, 0, 13, 10, 81, 85, 73, 84, 10]
/-- `V2_HEADER_FIXED_SIZE`. -/
def v2HeaderFixedSize : Nat := 16
/-- `V1_PREFIX`: `PROXY `. -/
def v1Prefix : List UInt8 := [80, 82, 79, 88, 89, 32]
/-- `V1_MAX_LENGTH`. -/
def v1MaxLength : Nat := 107
/-- `V2_MAX_ADDR_LEN`. -/
def v2MaxAddrLen : Nat := 2048

/-- `std::io::ErrorKind`, by the kinds the parser raises. -/
inductive IoErrorKind
  | permissionDenied
  | unexpectedEof
  | invalidData
  | unsupported
  deriving DecidableEq, Repr

/-- `std::io::Error`: its kind and its message. -/
structure IoError where
  /-- `io::Error::kind`. -/
  kind : IoErrorKind
  /-- The error's message. -/
  message : List Char
  deriving DecidableEq, Repr

/-- The error of `read_exact` at the end of the stream. -/
def earlyEof : IoError := ⟨.unexpectedEof, "early eof".toList⟩

/-- `TcpRecvProxyProtocolConfig`, by the field the parser reads. -/
structure TcpRecvProxyProtocolConfig (Net : Type) where
  /-- `trusted_proxies`, the networks whose headers are read. -/
  trustedProxies : List Net

/-- What `ppp::v1::Header::try_from` reads of the addresses: the source of a `TCP4` or `TCP6`
header, or `UNKNOWN`. -/
inductive V1Addresses
  | tcp4 (src : Ipv4Addr) (srcPort : UInt16)
  | tcp6 (src : Ipv6Addr) (srcPort : UInt16)
  | unknown

/-- `ppp::v2::Command`. -/
inductive V2Command
  | localCommand
  | proxyCommand
  deriving DecidableEq

/-- What `ppp::v2::Header::try_from` reads of the addresses. -/
inductive V2Addresses
  | ipv4 (src : Ipv4Addr) (srcPort : UInt16)
  | ipv6 (src : Ipv6Addr) (srcPort : UInt16)
  | unix
  | unspecified

/-- `ppp::v2::Header`, by the fields the parser reads. -/
structure V2Header where
  /-- `command`. -/
  command : V2Command
  /-- `addresses`. -/
  addresses : V2Addresses

/-- `Display for SocketAddr`: `a.b.c.d:port`, or `[addr]:port` for IPv6. -/
def socketAddrText (a : SocketAddr) : List Char :=
  match a.ip with
  | .v4 ip => ip.toText ++ ':' :: (toString a.port.toNat).toList
  | .v6 ip => '[' :: ip.toText ++ "]:".toList ++ (toString a.port.toNat).toList

/-- `normalize_mapped_ipv4`: an IPv4-mapped `::ffff:a.b.c.d` becomes `a.b.c.d`. -/
def normalizeMappedIpv4 : IpAddr → IpAddr
  | .v6 v6 =>
    match v6.toIpv4Mapped with
    | some v4 => .v4 v4
    | none => .v6 v6
  | other => other

/-! ### Reading the stream -/

/-- `TcpStream::read_exact` of `n` bytes: the bytes and the rest, or the early end after reading
all there is. -/
def readExact (n : Nat) (stream : List UInt8) : Except IoError (List UInt8) × List UInt8 :=
  if n ≤ stream.length then (.ok (stream.take n), stream.drop n) else (.error earlyEof, [])

/-- `TcpStream::peek` into the buffer, returning `n`: the first `n` unread bytes over the start of
the buffer. -/
def peekInto (stream buf : List UInt8) (n : Nat) : List UInt8 := stream.take n ++ buf.drop n

/-- The peek loop of `parse_inbound_proxy_header`, with the lengths the peeks return: it stops at
the end of the stream, on a full buffer, or on six bytes that are the v1 prefix. -/
def peekLoop (stream : List UInt8) : List UInt8 → List Nat → Option (Except IoError (Nat × List UInt8))
  | _, [] => none
  | buf, n :: sizes =>
    let buf := peekInto stream buf n
    if n = 0 then
      some (.error ⟨.unexpectedEof, "Connection closed before PROXY header could be read".toList⟩)
    else if n ≥ v2HeaderFixedSize then some (.ok (n, buf))
    else if n ≥ 6 ∧ buf.take 6 = v1Prefix then some (.ok (n, buf))
    else peekLoop stream buf sizes

/-- The byte loop of `parse_v1_inbound`, with the header read so far and the `found_cr` flag. -/
def readV1Header : List UInt8 → Bool → List UInt8 → Except IoError (List UInt8) × List UInt8
  | _, _, [] => (.error earlyEof, [])
  | headerBytes, foundCr, b :: rest =>
    let headerBytes := headerBytes ++ [b]
    if foundCr && b == 10 then (.ok headerBytes, rest)
    else if headerBytes.length ≥ v1MaxLength then
      (.error ⟨.invalidData, "PROXY v1 header exceeds maximum length".toList⟩, rest)
    else readV1Header headerBytes (b == 13) rest

/-- What `parse_v1_inbound` returns for the header bytes it read. -/
def v1Result (pppV1 : List UInt8 → Except (List Char) V1Addresses) (headerBytes : List UInt8) :
    Except IoError (Option SocketAddr) :=
  match pppV1 headerBytes with
  | .error e => .error ⟨.invalidData, "Failed to parse PROXY v1 header: ".toList ++ e⟩
  | .ok (.tcp4 src srcPort) => .ok (some ⟨.v4 src, srcPort⟩)
  | .ok (.tcp6 src srcPort) => .ok (some ⟨.v6 src, srcPort⟩)
  | .ok .unknown => .ok none

/-- `parse_v1_inbound`. -/
def parseV1Inbound (pppV1 : List UInt8 → Except (List Char) V1Addresses) (stream : List UInt8) :
    Except IoError (Option SocketAddr) × List UInt8 :=
  match readV1Header [] false stream with
  | (.error e, rest) => (.error e, rest)
  | (.ok headerBytes, rest) => (v1Result pppV1 headerBytes, rest)

/-- `addr_len`: bytes 14 and 15 of the fixed header, big-endian. -/
def v2AddrLen (peekBuf : List UInt8) : Nat := (peekBuf.getD 14 0).toNat * 256 + (peekBuf.getD 15 0).toNat

/-- What `parse_v2_inbound` returns for the header bytes it read. -/
def v2Result (pppV2 : List UInt8 → Except (List Char) V2Header) (headerBuf : List UInt8) :
    Except IoError (Option SocketAddr) :=
  match pppV2 headerBuf with
  | .error e => .error ⟨.invalidData, "Failed to parse PROXY v2 header: ".toList ++ e⟩
  | .ok header =>
    if header.command = .localCommand then .ok none
    else
      match header.addresses with
      | .ipv4 src srcPort => .ok (some ⟨.v4 src, srcPort⟩)
      | .ipv6 src srcPort => .ok (some ⟨.v6 src, srcPort⟩)
      | .unix => .error ⟨.unsupported, "Unix socket addresses not supported in PROXY protocol".toList⟩
      | .unspecified => .ok none

/-- `parse_v2_inbound`, with the buffer the peeks filled. -/
def parseV2Inbound (pppV2 : List UInt8 → Except (List Char) V2Header) (peekBuf stream : List UInt8) :
    Except IoError (Option SocketAddr) × List UInt8 :=
  let addrLen := v2AddrLen peekBuf
  if addrLen > v2MaxAddrLen then
    (.error ⟨.invalidData, "PROXY v2 addr_len ".toList ++ (toString addrLen).toList ++
      " exceeds maximum allowed ".toList ++ (toString v2MaxAddrLen).toList⟩, stream)
  else
    match readExact (v2HeaderFixedSize + addrLen) stream with
    | (.error e, rest) => (.error e, rest)
    | (.ok headerBuf, rest) => (v2Result pppV2 headerBuf, rest)

/-! ### The peek loop -/

/-- Peek lengths the stream can return: at most the buffer and the unread bytes, and `0` only at
the end of the stream. -/
def ValidPeeks (stream : List UInt8) (peeks : List Nat) : Prop :=
  ∀ n ∈ peeks, n ≤ v2HeaderFixedSize ∧ n ≤ stream.length ∧ (n = 0 → stream = [])

instance (stream : List UInt8) (peeks : List Nat) : Decidable (ValidPeeks stream peeks) := by
  unfold ValidPeeks
  infer_instance

/-- A peek of `n` bytes ends the loop: a full buffer, or six bytes that are the v1 prefix. -/
def PeekStops (stream : List UInt8) (n : Nat) : Prop :=
  v2HeaderFixedSize ≤ n ∨ (6 ≤ n ∧ stream.take 6 = v1Prefix)

theorem take_eq_of_take_eq {l l' : List UInt8} {n k : Nat} (h : l.take n = l'.take n) (hk : k ≤ n) :
    l.take k = l'.take k := by
  have h' := congrArg (List.take k) h
  rwa [List.take_take, List.take_take, Nat.min_eq_left hk] at h'

theorem take_peekInto {stream buf : List UInt8} {n : Nat} (h : n ≤ stream.length) :
    (peekInto stream buf n).take n = stream.take n :=
  List.take_left' (List.length_take_of_le h)

/-- On a stream that is not empty, the loop ends at the first peek that stops it, with the bytes
that peek saw at the start of the buffer, and times out when no peek does. -/
theorem peekLoop_spec {stream : List UInt8} (hne : stream ≠ []) :
    ∀ {peeks : List Nat} {buf : List UInt8}, ValidPeeks stream peeks →
      (peekLoop stream buf peeks = none ↔ ∀ n ∈ peeks, ¬PeekStops stream n) ∧
      ∀ r, peekLoop stream buf peeks = some r → ∃ n ∈ peeks, ∃ b, r = .ok (n, b) ∧
        PeekStops stream n ∧ n ≤ v2HeaderFixedSize ∧ b.take n = stream.take n := by
  intro peeks
  induction peeks with
  | nil =>
    intro buf _
    refine ⟨by simp [peekLoop], fun r hr => ?_⟩
    cases hr
  | cons m peeks ih =>
    intro buf hvalid
    obtain ⟨hm16, hmlen, hm0⟩ := hvalid m List.mem_cons_self
    have hpos : m ≠ 0 := fun h => hne (hm0 h)
    have htake : (peekInto stream buf m).take m = stream.take m := take_peekInto hmlen
    by_cases hstop : PeekStops stream m
    · have hloop : peekLoop stream buf (m :: peeks) = some (.ok (m, peekInto stream buf m)) := by
        unfold peekLoop
        rw [if_neg hpos]
        rcases hstop with h16 | ⟨h6, hpre⟩
        · rw [if_pos h16]
        · by_cases h16 : m ≥ v2HeaderFixedSize
          · rw [if_pos h16]
          · rw [if_neg h16, if_pos ⟨h6, by rw [take_eq_of_take_eq htake h6, hpre]⟩]
      rw [hloop]
      refine ⟨⟨fun h => (by cases h), fun h => absurd hstop (h m List.mem_cons_self)⟩, ?_⟩
      intro r hr
      cases hr
      exact ⟨m, List.mem_cons_self, _, rfl, hstop, hm16, htake⟩
    · have hloop : peekLoop stream buf (m :: peeks) = peekLoop stream (peekInto stream buf m) peeks := by
        rw [peekLoop.eq_2]
        rw [if_neg hpos, if_neg (fun h => hstop (.inl h)),
          if_neg (fun h => hstop (.inr ⟨h.1, by rw [← take_eq_of_take_eq htake h.1, h.2]⟩))]
      have hrest := @ih (peekInto stream buf m) (fun n hn => hvalid n (List.mem_cons_of_mem _ hn))
      rw [hloop, hrest.1, List.forall_mem_cons]
      refine ⟨⟨fun h => ⟨hstop, h⟩, fun h => h.2⟩, fun r hr => ?_⟩
      obtain ⟨n, hn, b, hr, hrest'⟩ := hrest.2 r hr
      exact ⟨n, List.mem_cons_of_mem _ hn, b, hr, hrest'⟩

/-! ### The v1 reader -/

/-- A v1 header: the prefix `PROXY `, and bytes whose first CRLF ends the header, within
`V1_MAX_LENGTH` bytes. -/
structure V1Header (h : List UInt8) : Prop where
  /-- The header starts with `PROXY `. -/
  starts : v1Prefix.IsPrefix h
  /-- It ends with CRLF. -/
  ends_crlf : ∃ u, h = u ++ [13, 10]
  /-- No earlier CRLF. -/
  no_earlier_crlf : ¬[13, 10].IsInfix h.dropLast
  /-- It is within `V1_MAX_LENGTH` bytes. -/
  length_le : h.length ≤ v1MaxLength

/-- The byte loop reads a v1 header exactly: from any point inside it, it stops at its end. -/
theorem readV1Header_append {h : List UInt8} (hh : V1Header h) (rest : List UInt8) :
    ∀ (w acc : List UInt8), acc ++ w = h → w ≠ [] →
      readV1Header acc (acc.getLast? == some 13) (w ++ rest) = (.ok h, rest) := by
  intro w
  induction w with
  | nil => exact fun _ _ hw => absurd rfl hw
  | cons b w ih =>
    intro acc hacc _
    rw [List.cons_append, readV1Header]
    obtain ⟨u, hu⟩ := hh.ends_crlf
    cases w with
    | nil =>
      have hlast : acc ++ [b] = u ++ [13] ++ [10] := by rw [hacc, hu, List.append_assoc]; rfl
      obtain ⟨hacc', hb⟩ := List.append_inj' hlast rfl
      subst hacc'
      cases hb
      rw [if_pos (by simp), ← hacc, List.nil_append]
    | cons b' w =>
      have hprefix : (acc ++ [b]).IsPrefix h.dropLast := by
        rw [← hacc, show acc ++ b :: b' :: w = (acc ++ [b]) ++ (b' :: w) by simp,
          List.dropLast_append_of_ne_nil (List.cons_ne_nil _ _)]
        exact List.prefix_append _ _
      have hlt : (acc ++ [b]).length < h.length := by
        rw [← hacc]
        simp
      have hno_lf : ¬((acc.getLast? == some 13) && b == 10) = true := by
        intro hcrlf
        simp only [Bool.and_eq_true, beq_iff_eq] at hcrlf
        obtain ⟨hcr, rfl⟩ := hcrlf
        obtain ⟨v, rfl⟩ := List.getLast?_eq_some_iff.mp hcr
        apply hh.no_earlier_crlf
        exact (List.infix_append v [13, 10] []).trans (by simpa using hprefix.isInfix)
      rw [if_neg hno_lf, if_neg (by have := hh.length_le; omega)]
      have hcr : ((acc ++ [b]).getLast? == some 13) = (b == 13) := by simp
      rw [← hcr]
      exact ih (acc ++ [b]) (by rw [← hacc]; simp) (List.cons_ne_nil _ _)

/-- Without a CRLF among the first `V1_MAX_LENGTH` bytes, the byte loop fails having read at most
`V1_MAX_LENGTH` bytes. -/
theorem readV1Header_of_no_crlf :
    ∀ (s acc : List UInt8), acc.length < v1MaxLength →
      ¬[13, 10].IsInfix ((acc ++ s).take v1MaxLength) →
      (∃ e, (readV1Header acc (acc.getLast? == some 13) s).1 = .error e) ∧
        (readV1Header acc (acc.getLast? == some 13) s).2 = s.drop (v1MaxLength - acc.length) := by
  intro s
  induction s with
  | nil => exact fun _ _ _ => ⟨⟨earlyEof, rfl⟩, by simp [readV1Header]⟩
  | cons b s ih =>
    intro acc hlen hno
    rw [readV1Header]
    have hno_lf : ¬((acc.getLast? == some 13) && b == 10) = true := by
      intro hcrlf
      simp only [Bool.and_eq_true, beq_iff_eq] at hcrlf
      obtain ⟨hcr, rfl⟩ := hcrlf
      obtain ⟨v, rfl⟩ := List.getLast?_eq_some_iff.mp hcr
      apply hno
      have hpre : (v ++ [13] ++ [10]).IsPrefix ((v ++ [13] ++ 10 :: s).take v1MaxLength) := by
        rw [List.prefix_take_iff]
        exact ⟨by simp, by simp at hlen ⊢; omega⟩
      exact (List.infix_append v [13, 10] []).trans (by simpa using hpre.isInfix)
    rw [if_neg hno_lf]
    split
    · next hcap =>
      refine ⟨⟨_, rfl⟩, ?_⟩
      simp only [List.length_append, List.length_singleton] at hcap
      rw [show v1MaxLength - acc.length = 1 by omega]
      rfl
    · next hcap =>
      simp only [List.length_append, List.length_singleton] at hcap
      have hcr : ((acc ++ [b]).getLast? == some 13) = (b == 13) := by simp
      rw [← hcr]
      obtain ⟨herr, hdrop⟩ := ih (acc ++ [b]) (by simp; omega) (by simpa using hno)
      refine ⟨herr, ?_⟩
      rw [hdrop, show v1MaxLength - acc.length = (v1MaxLength - (acc ++ [b]).length) + 1 by
        simp; omega]
      rfl

/-! ### The v2 reader -/

theorem readExact_append {header : List UInt8} {n : Nat} (hn : header.length = n) (rest : List UInt8) :
    readExact n (header ++ rest) = (.ok header, rest) := by
  rw [readExact, if_pos (by simp [hn]), List.take_left' hn, List.drop_left' hn]

/-- `addr_len` reads only the fixed 16 bytes. -/
theorem v2AddrLen_eq_of_take {b b' : List UInt8} (h : b.take v2HeaderFixedSize = b'.take v2HeaderFixedSize) :
    v2AddrLen b = v2AddrLen b' := by
  have h14 : b[14]? = b'[14]? := by
    rw [← List.getElem?_take_of_lt (by decide : 14 < v2HeaderFixedSize), h,
      List.getElem?_take_of_lt (by decide)]
  have h15 : b[15]? = b'[15]? := by
    rw [← List.getElem?_take_of_lt (by decide : 15 < v2HeaderFixedSize), h,
      List.getElem?_take_of_lt (by decide)]
  simp only [v2AddrLen, List.getD_eq_getElem?_getD, h14, h15]

/-- A v2 header with `addr_len` at most `V2_MAX_ADDR_LEN` is read exactly. -/
theorem parseV2Inbound_append (pppV2 : List UInt8 → Except (List Char) V2Header) {fixed addr : List UInt8}
    (hlen : fixed.length = v2HeaderFixedSize) (haddr : addr.length = v2AddrLen fixed)
    (hmax : v2AddrLen fixed ≤ v2MaxAddrLen) (rest : List UInt8) :
    parseV2Inbound pppV2 fixed (fixed ++ addr ++ rest) = (v2Result pppV2 (fixed ++ addr), rest) := by
  rw [parseV2Inbound, if_neg (by omega), readExact_append (by simp [hlen, haddr])]

theorem parseV1Inbound_append (pppV1 : List UInt8 → Except (List Char) V1Addresses) {h : List UInt8}
    (hh : V1Header h) (rest : List UInt8) :
    parseV1Inbound pppV1 (h ++ rest) = (v1Result pppV1 h, rest) := by
  have hne : h ≠ [] := by
    obtain ⟨u, rfl⟩ := hh.ends_crlf
    simp
  have hread : readV1Header [] false (h ++ rest) = (.ok h, rest) := readV1Header_append hh rest h [] rfl hne
  rw [parseV1Inbound, hread]

theorem parseV1Inbound_of_no_crlf (pppV1 : List UInt8 → Except (List Char) V1Addresses) {s : List UInt8}
    (hno : ¬[13, 10].IsInfix (s.take v1MaxLength)) :
    ∃ e, parseV1Inbound pppV1 s = (.error e, s.drop v1MaxLength) := by
  obtain ⟨⟨e, he⟩, hdrop⟩ := readV1Header_of_no_crlf s [] (by decide) (by simpa using hno)
  refine ⟨e, ?_⟩
  have hread : readV1Header [] false s = (.error e, s.drop v1MaxLength) := by
    have hfst : (readV1Header [] false s).1 = .error e := he
    have hsnd : (readV1Header [] false s).2 = s.drop v1MaxLength := hdrop
    rw [← hfst, ← hsnd]
  rw [parseV1Inbound, hread]

section Parse

variable {Net : Type} (contains : Net → IpAddr → Bool)

/-- `parse_inbound_proxy_header`, with the lengths `peeks` that the peeks return: the result and
the unread bytes, or `none` when the peeks run out before the loop ends. -/
def parseInboundProxyHeader (pppV1 : List UInt8 → Except (List Char) V1Addresses)
    (pppV2 : List UInt8 → Except (List Char) V2Header) (config : TcpRecvProxyProtocolConfig Net)
    (peerAddr : SocketAddr) (peeks : List Nat) (stream : List UInt8) :
    Option (Except IoError (Option SocketAddr) × List UInt8) :=
  let normalizedPeerIp := normalizeMappedIpv4 peerAddr.ip
  if !config.trustedProxies.any fun net => contains net normalizedPeerIp then
    some (.error ⟨.permissionDenied, "PROXY header from untrusted source: ".toList ++ socketAddrText peerAddr⟩,
      stream)
  else
    match peekLoop stream (List.replicate v2HeaderFixedSize 0) peeks with
    | none => none
    | some (.error e) => some (.error e, stream)
    | some (.ok (peeked, peekBuf)) =>
      if peeked ≥ 12 ∧ peekBuf.take 12 = v2Signature then some (parseV2Inbound pppV2 peekBuf stream)
      else if peekBuf.take 6 = v1Prefix then some (parseV1Inbound pppV1 stream)
      else some (.error ⟨.invalidData, "No valid PROXY protocol signature detected".toList⟩, stream)

section Outcomes

variable (pppV1 : List UInt8 → Except (List Char) V1Addresses)
  (pppV2 : List UInt8 → Except (List Char) V2Header) {config : TcpRecvProxyProtocolConfig Net}
  {peerAddr : SocketAddr}

/-- An untrusted peer is refused before anything is read. -/
theorem parseInboundProxyHeader_untrusted
    (htrust : (config.trustedProxies.any fun net => contains net (normalizeMappedIpv4 peerAddr.ip)) = false)
    (peeks : List Nat) (stream : List UInt8) :
    parseInboundProxyHeader contains pppV1 pppV2 config peerAddr peeks stream =
      some (.error ⟨.permissionDenied, "PROXY header from untrusted source: ".toList ++ socketAddrText peerAddr⟩,
        stream) := by
  simp [parseInboundProxyHeader, htrust]

variable (htrust : (config.trustedProxies.any fun net => contains net (normalizeMappedIpv4 peerAddr.ip)) = true)
include htrust

/-- On a trusted peer, a stream that starts with `PROXY ` goes to the v1 reader once a peek sees
six bytes, and nothing is read before. -/
theorem parseInboundProxyHeader_of_v1Prefix {stream : List UInt8} (hpre : stream.take 6 = v1Prefix)
    {peeks : List Nat} (hvalid : ValidPeeks stream peeks) (r : Except IoError (Option SocketAddr) × List UInt8) :
    parseInboundProxyHeader contains pppV1 pppV2 config peerAddr peeks stream = some r ↔
      (∃ n ∈ peeks, 6 ≤ n) ∧ r = parseV1Inbound pppV1 stream := by
  have hne : stream ≠ [] := by
    rintro rfl
    cases hpre
  have hstops : ∀ n, PeekStops stream n ↔ 6 ≤ n := fun n =>
    ⟨fun h => h.elim (fun h16 => by unfold v2HeaderFixedSize at h16; omega) And.left,
      fun h6 => .inr ⟨h6, hpre⟩⟩
  have hspec := @peekLoop_spec _ hne _ (List.replicate v2HeaderFixedSize 0) hvalid
  unfold parseInboundProxyHeader
  rw [if_neg (by simp [htrust])]
  cases hloop : peekLoop stream (List.replicate v2HeaderFixedSize 0) peeks with
  | none =>
    have hall := hspec.1.mp hloop
    refine ⟨fun h => (by cases h), fun ⟨⟨n, hn, h6⟩, _⟩ => absurd ((hstops n).mpr h6) (hall n hn)⟩
  | some res =>
    obtain ⟨n, hn, b, rfl, hstop, -, hb⟩ := hspec.2 _ hloop
    have h6 : 6 ≤ n := (hstops n).mp hstop
    have hb6 : b.take 6 = v1Prefix := by rw [take_eq_of_take_eq hb h6, hpre]
    have hnot2 : ¬(n ≥ 12 ∧ b.take 12 = v2Signature) := by
      rintro ⟨-, h12⟩
      have h6' := congrArg (List.take 6) h12
      rw [List.take_take, Nat.min_eq_left (by decide), hb6] at h6'
      exact absurd h6' (by decide)
    dsimp only
    rw [if_neg hnot2, if_pos hb6, Option.some.injEq]
    exact ⟨fun h => ⟨⟨n, hn, h6⟩, h.symm⟩, fun h => h.2.symm⟩

/-- On a trusted peer, a stream that starts with the 16 fixed bytes of a v2 header goes to the v2
reader once a peek fills the buffer, and nothing is read before. -/
theorem parseInboundProxyHeader_of_v2Signature {fixed s : List UInt8}
    (hlen : fixed.length = v2HeaderFixedSize) (hsig : fixed.take 12 = v2Signature)
    {peeks : List Nat} (hvalid : ValidPeeks (fixed ++ s) peeks)
    (r : Except IoError (Option SocketAddr) × List UInt8) :
    parseInboundProxyHeader contains pppV1 pppV2 config peerAddr peeks (fixed ++ s) = some r ↔
      (∃ n ∈ peeks, v2HeaderFixedSize ≤ n) ∧ r = parseV2Inbound pppV2 fixed (fixed ++ s) := by
  have hfixed : (fixed ++ s).take v2HeaderFixedSize = fixed := List.take_left' hlen
  have hne : fixed ++ s ≠ [] := by
    intro h
    have := congrArg List.length h
    simp [hlen, v2HeaderFixedSize] at this
  have hsig' : (fixed ++ s).take 12 = v2Signature := by
    rw [List.take_append_of_le_length (by rw [hlen]; decide), hsig]
  have hstops : ∀ n, PeekStops (fixed ++ s) n ↔ v2HeaderFixedSize ≤ n := by
    intro n
    refine ⟨fun h => h.elim id fun ⟨_, h6⟩ => ?_, .inl⟩
    have h6' : (fixed ++ s).take 6 = v2Signature.take 6 := by
      rw [← hsig', List.take_take, Nat.min_eq_left (by decide)]
    rw [h6] at h6'
    exact absurd h6' (by decide)
  have hspec := @peekLoop_spec _ hne _ (List.replicate v2HeaderFixedSize 0) hvalid
  unfold parseInboundProxyHeader
  rw [if_neg (by simp [htrust])]
  cases hloop : peekLoop (fixed ++ s) (List.replicate v2HeaderFixedSize 0) peeks with
  | none =>
    have hall := hspec.1.mp hloop
    refine ⟨fun h => (by cases h), fun ⟨⟨n, hn, h16⟩, _⟩ => absurd ((hstops n).mpr h16) (hall n hn)⟩
  | some res =>
    obtain ⟨n, hn, b, rfl, hstop, hn16, hb⟩ := hspec.2 _ hloop
    have h16 : n = v2HeaderFixedSize := le_antisymm hn16 ((hstops n).mp hstop)
    subst h16
    have hb12 : b.take 12 = v2Signature := by rw [take_eq_of_take_eq hb (by decide), hsig']
    have hv2 : parseV2Inbound pppV2 b (fixed ++ s) = parseV2Inbound pppV2 fixed (fixed ++ s) := by
      rw [parseV2Inbound, parseV2Inbound, v2AddrLen_eq_of_take (hb.trans (hfixed.trans
        (List.take_of_length_le (by omega)).symm))]
    dsimp only
    rw [if_pos ⟨by decide, hb12⟩, hv2, Option.some.injEq]
    exact ⟨fun h => ⟨⟨_, hn, le_refl _⟩, h.symm⟩, fun h => h.2.symm⟩

end Outcomes

/-- The PROXY header parser consumes exactly its own bytes: nothing from an untrusted peer; on a
trusted one, exactly a v1 header whose first CRLF ends within 107 bytes and exactly the
`16 + addr_len` bytes of a v2 header with `addr_len ≤ 2048`, at most 107 bytes of a v1 header
without such a CRLF, and nothing of a v2 header with a larger `addr_len`. A run ends once a peek
sees enough bytes to tell the version. -/
theorem proxy_header_exact_consumption (pppV1 : List UInt8 → Except (List Char) V1Addresses)
    (pppV2 : List UInt8 → Except (List Char) V2Header) (config : TcpRecvProxyProtocolConfig Net)
    (peerAddr : SocketAddr) :
    ((config.trustedProxies.any fun net => contains net (normalizeMappedIpv4 peerAddr.ip)) = false →
      ∀ peeks stream, ∃ e,
        parseInboundProxyHeader contains pppV1 pppV2 config peerAddr peeks stream = some (.error e, stream)) ∧
    ((config.trustedProxies.any fun net => contains net (normalizeMappedIpv4 peerAddr.ip)) = true →
      (∀ h rest, V1Header h → ∀ peeks, ValidPeeks (h ++ rest) peeks → ∀ r,
        parseInboundProxyHeader contains pppV1 pppV2 config peerAddr peeks (h ++ rest) = some r ↔
          (∃ n ∈ peeks, 6 ≤ n) ∧ r = (v1Result pppV1 h, rest)) ∧
      (∀ fixed addr rest, fixed.length = v2HeaderFixedSize → fixed.take 12 = v2Signature →
        v2AddrLen fixed ≤ v2MaxAddrLen → addr.length = v2AddrLen fixed →
        ∀ peeks, ValidPeeks (fixed ++ addr ++ rest) peeks → ∀ r,
          parseInboundProxyHeader contains pppV1 pppV2 config peerAddr peeks (fixed ++ addr ++ rest) = some r ↔
            (∃ n ∈ peeks, v2HeaderFixedSize ≤ n) ∧ r = (v2Result pppV2 (fixed ++ addr), rest)) ∧
      (∀ s, v1Prefix.IsPrefix s → ¬[13, 10].IsInfix (s.take v1MaxLength) →
        ∀ peeks, ValidPeeks s peeks → ∀ r,
          parseInboundProxyHeader contains pppV1 pppV2 config peerAddr peeks s = some r →
            (∃ e, r.1 = .error e) ∧ r.2 = s.drop v1MaxLength) ∧
      (∀ fixed s, fixed.length = v2HeaderFixedSize → fixed.take 12 = v2Signature →
        v2MaxAddrLen < v2AddrLen fixed → ∀ peeks, ValidPeeks (fixed ++ s) peeks → ∀ r,
          parseInboundProxyHeader contains pppV1 pppV2 config peerAddr peeks (fixed ++ s) = some r →
            (∃ e, r.1 = .error e) ∧ r.2 = fixed ++ s)) := by
  refine ⟨fun hno peeks stream => ⟨_, parseInboundProxyHeader_untrusted contains pppV1 pppV2 hno peeks stream⟩,
    fun htrust => ⟨?_, ?_, ?_, ?_⟩⟩
  · intro h rest hh peeks hvalid r
    have hpre : (h ++ rest).take 6 = v1Prefix :=
      (List.prefix_iff_eq_take.mp (hh.starts.trans (List.prefix_append h rest))).symm
    rw [parseInboundProxyHeader_of_v1Prefix contains pppV1 pppV2 htrust hpre hvalid,
      parseV1Inbound_append pppV1 hh rest]
  · intro fixed addr rest hlen hsig hmax haddr peeks hvalid r
    rw [List.append_assoc] at hvalid ⊢
    rw [parseInboundProxyHeader_of_v2Signature contains pppV1 pppV2 htrust hlen hsig hvalid,
      ← List.append_assoc, parseV2Inbound_append pppV2 hlen haddr hmax rest]
  · intro s hpre hno peeks hvalid r hr
    have hpre6 : s.take 6 = v1Prefix := (List.prefix_iff_eq_take.mp hpre).symm
    obtain ⟨-, rfl⟩ := (parseInboundProxyHeader_of_v1Prefix contains pppV1 pppV2 htrust hpre6 hvalid r).mp hr
    obtain ⟨e, he⟩ := parseV1Inbound_of_no_crlf pppV1 hno
    rw [he]
    exact ⟨⟨e, rfl⟩, rfl⟩
  · intro fixed s hlen hsig hbig peeks hvalid r hr
    obtain ⟨-, rfl⟩ := (parseInboundProxyHeader_of_v2Signature contains pppV1 pppV2 htrust hlen hsig hvalid r).mp hr
    rw [parseV2Inbound, if_pos hbig]
    exact ⟨⟨_, rfl⟩, rfl⟩

/-- `PROXY UNKNOWN` from a trusted peer, followed by two bytes of application data: the first peek
sees three bytes, the second a full buffer, and the two bytes stay unread. -/
theorem proxy_header_exact_consumption_unknown :
    parseInboundProxyHeader (fun (net a : IpAddr) => net == a) (fun _ => .ok .unknown) (fun _ => .error [])
        ⟨[.v4 (Ipv4Addr.new 127 0 0 1)]⟩ ⟨.v4 (Ipv4Addr.new 127 0 0 1), 40000⟩ [3, 16]
        (v1Prefix ++ [85, 78, 75, 78, 79, 87, 78, 13, 10] ++ [22, 3]) =
      some (.ok none, [22, 3]) :=
  (((proxy_header_exact_consumption (fun (net a : IpAddr) => net == a) (fun _ => .ok .unknown)
    (fun _ => .error []) ⟨[.v4 (Ipv4Addr.new 127 0 0 1)]⟩ ⟨.v4 (Ipv4Addr.new 127 0 0 1), 40000⟩).2
    (by decide)).1 (v1Prefix ++ [85, 78, 75, 78, 79, 87, 78, 13, 10]) [22, 3]
    ⟨by decide, ⟨v1Prefix ++ [85, 78, 75, 78, 79, 87, 78], rfl⟩, by decide, by decide⟩ [3, 16] (by decide) _).mpr
    ⟨⟨16, by simp, by decide⟩, rfl⟩

end Parse

end Rpxy.ProxyProtocol
