import Mathlib.Data.List.Basic
import Mathlib.Order.Basic

/-!
# IP addresses of the Rust standard library and their text form

`Ipv4Addr` and `Ipv6Addr` carry their octets and segments in network order, with
the length as a field, so that no malformed address can be built. The text form is
`Display` as `core::net` writes it when no width or precision is requested: IPv4 in
dotted decimal, IPv6 with the first longest run of two or more zero segments
compressed to `::`, lowercase hexadecimal segments, and the IPv4-mapped range
written as `::ffff:a.b.c.d`. Decimal and hexadecimal digits are `Nat.toDigits`,
which writes no leading zeros, as `itoa` and the `{:x}` formatter do.
-/

namespace Rpxy.RustIpAddr

/-- `std::net::Ipv4Addr`, as its four octets. -/
structure Ipv4Addr where
  /-- `Ipv4Addr::octets`. -/
  octets : List UInt8
  /-- An address has exactly four octets. -/
  length_octets : octets.length = 4
  deriving DecidableEq

/-- `std::net::Ipv6Addr`, as its eight 16-bit segments. -/
structure Ipv6Addr where
  /-- `Ipv6Addr::segments`. -/
  segments : List UInt16
  /-- An address has exactly eight segments. -/
  length_segments : segments.length = 8
  deriving DecidableEq

/-- `std::net::IpAddr`. -/
inductive IpAddr where
  | v4 (a : Ipv4Addr)
  | v6 (a : Ipv6Addr)
  deriving DecidableEq

/-- `Ipv4Addr::new`. -/
def Ipv4Addr.new (a b c d : UInt8) : Ipv4Addr := ⟨[a, b, c, d], rfl⟩

/-- Eight segments from any list: the first eight, padded with zero segments. The
parser only ever passes eight, so the padding never shows. -/
def Ipv6Addr.ofList (l : List UInt16) : Ipv6Addr :=
  ⟨(l ++ List.replicate 8 0).take 8, by simp⟩

theorem Ipv6Addr.ofList_of_length {l : List UInt16} (h : l.length = 8) :
    Ipv6Addr.ofList l = ⟨l, h⟩ := by
  simp [Ipv6Addr.ofList, ← h]

theorem Ipv4Addr.eq_new (a : Ipv4Addr) : ∃ o1 o2 o3 o4, a = Ipv4Addr.new o1 o2 o3 o4 := by
  rcases a with ⟨_ | ⟨o1, _ | ⟨o2, _ | ⟨o3, _ | ⟨o4, _ | ⟨o5, rest⟩⟩⟩⟩⟩, h⟩ <;>
    simp at h
  exact ⟨o1, o2, o3, o4, rfl⟩

/-- `u16::from_be_bytes`. -/
def segmentOfBytes (hi lo : UInt8) : UInt16 := UInt16.ofNat (hi.toNat * 256 + lo.toNat)

/-- The high byte of `u16::to_be_bytes`. -/
def segmentHigh (seg : UInt16) : UInt8 := UInt8.ofNat (seg.toNat / 256)

/-- The low byte of `u16::to_be_bytes`. -/
def segmentLow (seg : UInt16) : UInt8 := UInt8.ofNat (seg.toNat % 256)

@[simp]
theorem segmentOfBytes_high_low (seg : UInt16) :
    segmentOfBytes (segmentHigh seg) (segmentLow seg) = seg := by
  have h := seg.toNat_lt
  apply UInt16.toNat.inj
  simp only [segmentOfBytes, segmentHigh, segmentLow, UInt8.toNat_ofNat', UInt16.toNat_ofNat',
    Nat.reducePow] at h ⊢
  omega

@[simp]
theorem segmentHigh_ofBytes (hi lo : UInt8) : segmentHigh (segmentOfBytes hi lo) = hi := by
  have h1 := hi.toNat_lt
  have h2 := lo.toNat_lt
  apply UInt8.toNat.inj
  simp only [segmentHigh, segmentOfBytes, UInt16.toNat_ofNat', UInt8.toNat_ofNat',
    Nat.reducePow] at h1 h2 ⊢
  omega

@[simp]
theorem segmentLow_ofBytes (hi lo : UInt8) : segmentLow (segmentOfBytes hi lo) = lo := by
  have h1 := hi.toNat_lt
  have h2 := lo.toNat_lt
  apply UInt8.toNat.inj
  simp only [segmentLow, segmentOfBytes, UInt16.toNat_ofNat', UInt8.toNat_ofNat',
    Nat.reducePow] at h1 h2 ⊢
  omega

/-- The two segments that an embedded IPv4 address occupies. -/
def ipv4Segments (a : Ipv4Addr) : List UInt16 :=
  match a.octets with
  | [o1, o2, o3, o4] => [segmentOfBytes o1 o2, segmentOfBytes o3 o4]
  | _ => []

theorem ipv4Segments_length (a : Ipv4Addr) : (ipv4Segments a).length = 2 := by
  obtain ⟨o1, o2, o3, o4, rfl⟩ := Ipv4Addr.eq_new a
  rfl

/-- `Ipv6Addr::to_ipv4`: the IPv4-compatible `::a.b.c.d` and IPv4-mapped
`::ffff:a.b.c.d` ranges both map to `a.b.c.d`. -/
def Ipv6Addr.toIpv4 (a : Ipv6Addr) : Option Ipv4Addr :=
  match a.segments with
  | [0, 0, 0, 0, 0, s5, ab, cd] =>
    if s5 = 0 ∨ s5 = 0xffff then
      some (Ipv4Addr.new (segmentHigh ab) (segmentLow ab) (segmentHigh cd) (segmentLow cd))
    else none
  | _ => none

/-- `Ipv6Addr::to_ipv4_mapped`: only the `::ffff:a.b.c.d` range. -/
def Ipv6Addr.toIpv4Mapped (a : Ipv6Addr) : Option Ipv4Addr :=
  match a.segments with
  | [0, 0, 0, 0, 0, 0xffff, ab, cd] =>
    some (Ipv4Addr.new (segmentHigh ab) (segmentLow ab) (segmentHigh cd) (segmentLow cd))
  | _ => none

theorem Ipv6Addr.toIpv4Mapped_eq_some {a : Ipv6Addr} {v4 : Ipv4Addr} (h : a.toIpv4Mapped = some v4) :
    a.segments = [0, 0, 0, 0, 0, 0xffff] ++ ipv4Segments v4 := by
  unfold Ipv6Addr.toIpv4Mapped at h
  split at h
  · rename_i ab cd hs
    cases h
    simp [hs, ipv4Segments, Ipv4Addr.new]
  · cases h

/-- Decimal text of an octet, as `itoa` and `Display` write it. -/
def octetText (o : UInt8) : List Char := Nat.toDigits 10 o.toNat

/-- Lowercase hexadecimal text of a segment, as `{:x}` writes it. -/
def segmentText (seg : UInt16) : List Char := Nat.toDigits 16 seg.toNat

/-- `Display for Ipv4Addr`: dotted decimal. -/
def Ipv4Addr.toText (a : Ipv4Addr) : List Char :=
  List.intercalate ['.'] (a.octets.map octetText)

theorem Ipv4Addr.toText_new {o1 o2 o3 o4 : UInt8} :
    (Ipv4Addr.new o1 o2 o3 o4).toText =
      octetText o1 ++ '.' :: (octetText o2 ++ '.' :: (octetText o3 ++ '.' :: octetText o4)) := by
  simp [Ipv4Addr.toText, Ipv4Addr.new, List.intercalate_cons_cons]

/-- A run of segments, as the `Span` of the IPv6 `Display` implementation. -/
structure Span where
  /-- Index of the first segment of the run. -/
  start : Nat
  /-- Number of segments in the run. -/
  len : Nat
  deriving DecidableEq

/-- The scan of `Display for Ipv6Addr` for the first longest run of zero segments,
from segment index `i` with the best run `longest` and the open run `current`. -/
def zeroSpanScan : Nat → Span → Span → List UInt16 → Span
  | _, longest, _, [] => longest
  | i, longest, current, seg :: segs =>
    if seg = 0 then
      let current : Span := if current.len = 0 then ⟨i, 1⟩ else ⟨current.start, current.len + 1⟩
      zeroSpanScan (i + 1) (if longest.len < current.len then current else longest) current segs
    else
      zeroSpanScan (i + 1) longest ⟨0, 0⟩ segs

/-- The run of zero segments that `Display` compresses, if it is long enough. -/
def longestZeroSpan (segments : List UInt16) : Span := zeroSpanScan 0 ⟨0, 0⟩ ⟨0, 0⟩ segments

/-- `fmt_subslice`: segments in hexadecimal separated by `:`. -/
def fmtSubslice (chunk : List UInt16) : List Char := List.intercalate [':'] (chunk.map segmentText)

/-- `Display for Ipv6Addr`. -/
def Ipv6Addr.toText (a : Ipv6Addr) : List Char :=
  match a.toIpv4Mapped with
  | some v4 => "::ffff:".toList ++ v4.toText
  | none =>
    let zeroes := longestZeroSpan a.segments
    if 1 < zeroes.len then
      fmtSubslice (a.segments.take zeroes.start) ++ "::".toList ++
        fmtSubslice (a.segments.drop (zeroes.start + zeroes.len))
    else fmtSubslice a.segments

/-- `Display for IpAddr`. -/
def IpAddr.toText : IpAddr → List Char
  | .v4 a => a.toText
  | .v6 a => a.toText

/-- A run of segments, all zero, that lies inside the list. -/
def ZeroRun (segments : List UInt16) (span : Span) : Prop :=
  span.start + span.len ≤ segments.length ∧
    ∀ j, span.start ≤ j → j < span.start + span.len → segments[j]? = some 0

theorem zeroRun_empty (segments : List UInt16) (start : Nat) (h : start ≤ segments.length) :
    ZeroRun segments ⟨start, 0⟩ :=
  ⟨by simpa using h, fun j h1 h2 => by simp only at h1 h2; omega⟩

theorem zeroRun_ite {segments : List UInt16} {p : Prop} [Decidable p] {a b : Span}
    (ha : ZeroRun segments a) (hb : ZeroRun segments b) :
    ZeroRun segments (if p then a else b) := by
  split
  · exact ha
  · exact hb

/-- One more zero segment at index `i` extends a zero run that ends at `i`. -/
theorem zeroRun_extend {segments : List UInt16} {span : Span} {i : Nat}
    (h : ZeroRun segments span) (hend : span.start + span.len = i) (hi : segments[i]? = some 0) :
    ZeroRun segments ⟨span.start, span.len + 1⟩ := by
  obtain ⟨hlen, hz⟩ := h
  obtain ⟨hlt, -⟩ := List.getElem?_eq_some_iff.mp hi
  refine ⟨by simp only; omega, fun j h1 h2 => ?_⟩
  by_cases hj : j < span.start + span.len
  · exact hz j h1 hj
  · have : j = i := by simp only at h2; omega
    rw [this, hi]

/-- The scan keeps both runs zero runs of the whole list, the open one ending at `i`. -/
theorem zeroSpanScan_zeroRun (full : List UInt16) :
    ∀ (segs : List UInt16) (i : Nat) (longest current : Span),
      full.drop i = segs → ZeroRun full longest → ZeroRun full current →
      (current.len = 0 ∨ current.start + current.len = i) →
      ZeroRun full (zeroSpanScan i longest current segs)
  | [], _, longest, _, _, hl, _, _ => hl
  | seg :: segs, i, longest, current, hd, hl, hc, hend => by
    have hi : full[i]? = some seg := by
      rw [← List.head?_drop, hd]; rfl
    have hd' : full.drop (i + 1) = segs := by
      rw [← List.drop_drop, hd]; rfl
    obtain ⟨hlt, -⟩ := List.getElem?_eq_some_iff.mp hi
    unfold zeroSpanScan
    by_cases hz : seg = 0
    · subst hz
      have hnew : ZeroRun full
          (if current.len = 0 then (⟨i, 1⟩ : Span) else ⟨current.start, current.len + 1⟩) := by
        split
        · exact zeroRun_extend (zeroRun_empty full i (by omega)) rfl hi
        · rename_i hne
          exact zeroRun_extend hc (hend.resolve_left hne) hi
      have hnewEnd : (if current.len = 0 then (⟨i, 1⟩ : Span)
          else ⟨current.start, current.len + 1⟩).start +
          (if current.len = 0 then (⟨i, 1⟩ : Span)
          else ⟨current.start, current.len + 1⟩).len = i + 1 := by
        split
        · rfl
        · rename_i hne
          have := hend.resolve_left hne
          simp only
          omega
      rw [if_pos rfl]
      exact zeroSpanScan_zeroRun full segs (i + 1) _ _ hd' (zeroRun_ite hnew hl) hnew
        (Or.inr hnewEnd)
    · rw [if_neg hz]
      exact zeroSpanScan_zeroRun full segs (i + 1) _ _ hd' hl
        (zeroRun_empty full 0 (by omega)) (Or.inl rfl)

/-- The run that `Display` compresses is a run of zero segments inside the address. -/
theorem longestZeroSpan_zeroRun (segments : List UInt16) :
    ZeroRun segments (longestZeroSpan segments) :=
  zeroSpanScan_zeroRun segments segments 0 _ _ rfl (zeroRun_empty _ 0 (Nat.zero_le _))
    (zeroRun_empty _ 0 (Nat.zero_le _)) (Or.inl rfl)

end Rpxy.RustIpAddr
