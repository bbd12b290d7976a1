import Rpxy.RustUsize
import Mathlib

/-!
# The request-body limit of `LimitedBody`

`LimitedBody::poll_frame` forwards what the inner body yields, counting the bytes of every data
frame into `received` with `saturating_add`. The data frame that takes `received` past the limit
is not forwarded: the poll returns `RequestBodyTooLarge` with the count and the limit, and sets
the `tripped` latch, after which every poll returns end-of-stream without polling the inner
body. With no limit the inner body is forwarded unchanged.

The inner body is modelled by the finite sequence of what its polls return, end-of-stream after
the last. The main results: with a limit `L` below `usize::MAX` the polls yield the inner results
up to the first data frame that takes the running total past `L`, then that one error, then
end-of-stream for good with the inner body left as it was; the data yielded over any number of
polls is at most `L`; and with no limit the inner results are yielded as they are. At
`L = usize::MAX` the saturated count can never pass `L`, so such a wrapper never trips.
-/

namespace Rpxy.BodyLimit

open RustUsize

/-- `http_body::Frame`: a data frame or a trailers frame. -/
inductive Frame (D T : Type) where
  | data (d : D)
  | trailers (t : T)
  deriving DecidableEq, Repr

/-- `Frame::data_ref`. -/
def Frame.dataRef {D T : Type} : Frame D T → Option D
  | .data d => some d
  | .trailers _ => none

/-- What one `poll_frame` returns: `Poll::Pending`, or `Poll::Ready` of end-of-stream, an
error or a frame. -/
inductive PollFrame (E D T : Type) where
  | pending
  | ready (r : Option (Except E (Frame D T)))
  deriving DecidableEq, Repr

/-- The data of a poll result that is a data frame. -/
def PollFrame.dataOf {E D T : Type} : PollFrame E D T → Option D
  | .ready (some (.ok frame)) => frame.dataRef
  | _ => none

/-- `Poll::map_err` of a `poll_frame` result. -/
def PollFrame.mapErr {E E' D T : Type} (f : E → E') : PollFrame E D T → PollFrame E' D T
  | .pending => .pending
  | .ready none => .ready none
  | .ready (some (.error e)) => .ready (some (.error (f e)))
  | .ready (some (.ok frame)) => .ready (some (.ok frame))

/-- The `RpxyError`s a `LimitedBody` returns: the inner body's error (`Into`), or
`RequestBodyTooLarge { received, limit }`. -/
inductive LimitedBodyError (E : Type) where
  | inner (e : E)
  | requestBodyTooLarge (received limit : Nat)
  deriving DecidableEq, Repr

/-- `LimitedBody`, over an inner body given by the results of its remaining polls. -/
structure LimitedBody (E D T : Type) where
  /-- What the inner body's next polls return, end-of-stream after these. -/
  inner : List (PollFrame E D T)
  /-- `limit`, a `usize`. -/
  limit : Option Nat
  /-- `received`, a `usize`. -/
  received : Nat
  /-- `tripped`. -/
  tripped : Bool

variable {E D T : Type}

/-- `LimitedBody::new`. -/
def LimitedBody.new (inner : List (PollFrame E D T)) (limit : Option Nat) : LimitedBody E D T :=
  ⟨inner, limit, 0, false⟩

/-- One poll of the inner body: its next result and what remains; end-of-stream once it is done. -/
def pollInner : List (PollFrame E D T) → PollFrame E D T × List (PollFrame E D T)
  | [] => (.ready none, [])
  | p :: ps => (p, ps)

section Poll

-- `len` is `Bytes::len`.
variable (len : D → Nat)

/-- `LimitedBody::poll_frame`: what it returns, and the wrapper after it. -/
def LimitedBody.pollFrame (b : LimitedBody E D T) : PollFrame (LimitedBodyError E) D T × LimitedBody E D T :=
  if b.tripped then (.ready none, b)
  else
    match b.limit with
    | none => ((pollInner b.inner).1.mapErr .inner, { b with inner := (pollInner b.inner).2 })
    | some limit =>
      let b' := { b with inner := (pollInner b.inner).2 }
      match (pollInner b.inner).1 with
      | .pending => (.pending, b')
      | .ready none => (.ready none, b')
      | .ready (some (.error e)) => (.ready (some (.error (.inner e))), b')
      | .ready (some (.ok frame)) =>
        match frame.dataRef with
        | some data =>
          let received := saturatingAdd b.received (len data)
          if received > limit then
            (.ready (some (.error (.requestBodyTooLarge received limit))), { b' with received, tripped := true })
          else (.ready (some (.ok frame)), { b' with received })
        | none => (.ready (some (.ok frame)), b')

/-- `n` polls in a row: what they return, and the wrapper after them. -/
def LimitedBody.pollN (b : LimitedBody E D T) : Nat → List (PollFrame (LimitedBodyError E) D T) × LimitedBody E D T
  | 0 => ([], b)
  | n + 1 => ((b.pollFrame len).1 :: ((b.pollFrame len).2.pollN n).1, ((b.pollFrame len).2.pollN n).2)

/-- `LimitedBody::is_end_stream`, with an inner body that is at its end once nothing remains. -/
def LimitedBody.isEndStream (b : LimitedBody E D T) : Bool := b.tripped || b.inner.isEmpty

/-- The data bytes a poll result carries. -/
def dataLen {E' : Type} (p : PollFrame E' D T) : Nat := (p.dataOf.map len).getD 0

end Poll

/-! ### One poll -/

section Steps

variable (len : D → Nat) {b : LimitedBody E D T} {L : Nat}

theorem dataOf_mapErr {E' : Type} (f : E → E') (p : PollFrame E D T) : (p.mapErr f).dataOf = p.dataOf := by
  rcases p with _ | _ | _ | _ | _ <;> rfl

theorem dataOf_eq_some {p : PollFrame E D T} {d : D} : p.dataOf = some d ↔ p = .ready (some (.ok (.data d))) := by
  rcases p with _ | _ | _ | ⟨d' | t⟩ <;> simp [PollFrame.dataOf, Frame.dataRef]

theorem pollFrame_of_tripped (h : b.tripped = true) : b.pollFrame len = (.ready none, b) := by
  simp [LimitedBody.pollFrame, h]

/-- Without a limit, a poll forwards the inner result. -/
theorem pollFrame_of_unlimited (hlim : b.limit = none) (ht : b.tripped = false) :
    b.pollFrame len = ((pollInner b.inner).1.mapErr .inner, { b with inner := (pollInner b.inner).2 }) := by
  simp [LimitedBody.pollFrame, hlim, ht]

/-- Under a limit, a result that is no data frame is forwarded as it is. -/
theorem pollFrame_of_dataOf_none (hlim : b.limit = some L) (ht : b.tripped = false)
    (hp : (pollInner b.inner).1.dataOf = none) :
    b.pollFrame len = ((pollInner b.inner).1.mapErr .inner, { b with inner := (pollInner b.inner).2 }) := by
  unfold LimitedBody.pollFrame
  rw [if_neg (by simp [ht]), hlim]
  dsimp only
  generalize (pollInner b.inner).1 = p at hp
  rcases p with _ | _ | _ | ⟨d | t⟩
  · rfl
  · rfl
  · rfl
  · cases hp
  · rfl

/-- Under a limit, a data frame is counted, and forwarded unless the count passes the limit. -/
theorem pollFrame_of_data (hlim : b.limit = some L) (ht : b.tripped = false) {d : D}
    (hp : (pollInner b.inner).1 = .ready (some (.ok (.data d)))) :
    b.pollFrame len =
      if L < saturatingAdd b.received (len d) then
        (.ready (some (.error (.requestBodyTooLarge (saturatingAdd b.received (len d)) L))),
          { b with inner := (pollInner b.inner).2, received := saturatingAdd b.received (len d), tripped := true })
      else (.ready (some (.ok (.data d))),
        { b with inner := (pollInner b.inner).2, received := saturatingAdd b.received (len d) }) := by
  unfold LimitedBody.pollFrame
  rw [if_neg (by simp [ht]), hlim]
  dsimp only
  rw [hp]
  rfl

/-- A poll that stays within a limit below `usize::MAX` forwards the inner result and adds its
data to the exact count. -/
theorem pollFrame_pass (hlim : b.limit = some L) (ht : b.tripped = false) (hL : L < usizeMax)
    (hwithin : b.received + dataLen len (pollInner b.inner).1 ≤ L) :
    b.pollFrame len = ((pollInner b.inner).1.mapErr .inner,
      { b with inner := (pollInner b.inner).2, received := b.received + dataLen len (pollInner b.inner).1 }) := by
  cases hd : (pollInner b.inner).1.dataOf with
  | none =>
    rw [pollFrame_of_dataOf_none len hlim ht hd, dataLen, hd, Option.map_none, Option.getD_none, Nat.add_zero]
  | some d =>
    have hp := dataOf_eq_some.mp hd
    rw [dataLen, hd, Option.map_some, Option.getD_some] at hwithin ⊢
    have hsat : saturatingAdd b.received (len d) = b.received + len d := saturatingAdd_of_le (by omega)
    rw [pollFrame_of_data len hlim ht hp, hsat, if_neg (by omega), hp]
    rfl

/-- The data frame that takes the count past the limit is replaced by `RequestBodyTooLarge`, and
the latch is set. -/
theorem pollFrame_cross (hlim : b.limit = some L) (ht : b.tripped = false) (hL : L < usizeMax) {d : D}
    (hp : (pollInner b.inner).1 = .ready (some (.ok (.data d)))) (hcross : L < b.received + len d) :
    b.pollFrame len = (.ready (some (.error (.requestBodyTooLarge (saturatingAdd b.received (len d)) L))),
      { b with inner := (pollInner b.inner).2, received := saturatingAdd b.received (len d), tripped := true }) := by
  rw [pollFrame_of_data len hlim ht hp, if_pos ((lt_saturatingAdd_iff hL).mpr hcross)]

/-- With nothing left in the inner body, a poll returns end-of-stream and changes nothing. -/
theorem pollFrame_of_inner_nil (hin : b.inner = []) : b.pollFrame len = (.ready none, b) := by
  obtain ⟨inner, limit, received, tripped⟩ := b
  dsimp only at hin
  subst hin
  cases tripped
  · cases limit <;> rfl
  · rfl

end Steps

/-! ### Runs of polls -/

section Runs

variable (len : D → Nat)

theorem pollN_add (b : LimitedBody E D T) (m n : Nat) :
    b.pollN len (m + n) = ((b.pollN len m).1 ++ ((b.pollN len m).2.pollN len n).1, ((b.pollN len m).2.pollN len n).2) := by
  induction m generalizing b with
  | zero => simp [LimitedBody.pollN]
  | succ m ih =>
    rw [Nat.succ_add, LimitedBody.pollN, ih, LimitedBody.pollN]
    rfl

/-- A wrapper that polls no further (tripped, or at the inner body's end) returns
end-of-stream on every poll. -/
theorem pollN_of_idle {b : LimitedBody E D T} (hidle : b.pollFrame len = (.ready none, b)) (n : Nat) :
    b.pollN len n = (List.replicate n (.ready none), b) := by
  induction n with
  | zero => rfl
  | succ n ih =>
    rw [LimitedBody.pollN, hidle]
    simp [ih, List.replicate_succ]

/-- Inner results whose data keeps the count within a limit below `usize::MAX` are all
forwarded, and their data counted exactly. -/
theorem pollN_pass {L : Nat} (hL : L < usizeMax) :
    ∀ (pre rest : List (PollFrame E D T)) (b : LimitedBody E D T), b.limit = some L → b.tripped = false →
      b.inner = pre ++ rest → b.received + (pre.map (dataLen len)).sum ≤ L →
      b.pollN len pre.length = (pre.map (·.mapErr .inner),
        { b with inner := rest, received := b.received + (pre.map (dataLen len)).sum })
  | [], rest, b, _, _, hin, _ => by
    simp only [List.nil_append] at hin
    simp [LimitedBody.pollN, ← hin]
  | p :: pre, rest, b, hlim, ht, hin, hwithin => by
    have hpoll : pollInner b.inner = (p, pre ++ rest) := by rw [hin]; rfl
    simp only [List.map_cons, List.sum_cons] at hwithin
    have hstep := pollFrame_pass len hlim ht hL (by rw [hpoll]; dsimp only; omega)
    rw [hpoll] at hstep
    dsimp only at hstep
    have hrun := pollN_pass hL pre rest { b with inner := pre ++ rest, received := b.received + dataLen len p }
      hlim ht rfl (by dsimp only; omega)
    rw [List.length_cons, LimitedBody.pollN, hstep, hrun]
    simp only [List.map_cons, List.sum_cons, Nat.add_assoc]

/-- Without a limit, every inner result is forwarded. -/
theorem pollN_unlimited :
    ∀ (fs : List (PollFrame E D T)) (b : LimitedBody E D T), b.limit = none → b.tripped = false → b.inner = fs →
      b.pollN len fs.length = (fs.map (·.mapErr .inner), { b with inner := [] })
  | [], b, _, _, hin => by
    obtain ⟨inner, limit, received, tripped⟩ := b
    dsimp only at hin
    subst hin
    rfl
  | p :: fs, b, hlim, ht, hin => by
    have hpoll : pollInner b.inner = (p, fs) := by rw [hin]; rfl
    rw [List.length_cons, LimitedBody.pollN, pollFrame_of_unlimited len hlim ht, hpoll]
    dsimp only
    rw [pollN_unlimited fs { b with inner := fs } hlim ht rfl]
    rfl

/-- The data frame that takes the count past the limit ends the stream: the inner results before
it, `RequestBodyTooLarge` in its place, then end-of-stream with the rest of the inner body left
unpolled. -/
theorem pollN_cross {L : Nat} (hL : L < usizeMax) {pre post : List (PollFrame E D T)} {d : D}
    (hwithin : (pre.map (dataLen len)).sum ≤ L) (hcross : L < (pre.map (dataLen len)).sum + len d) (k : Nat) :
    (LimitedBody.new (pre ++ .ready (some (.ok (.data d))) :: post) (some L)).pollN len (pre.length + 1 + k) =
      (pre.map (·.mapErr .inner) ++
        .ready (some (.error (.requestBodyTooLarge (saturatingAdd (pre.map (dataLen len)).sum (len d)) L))) ::
          List.replicate k (.ready none),
        ⟨post, some L, saturatingAdd (pre.map (dataLen len)).sum (len d), true⟩) := by
  have hpre := pollN_pass len hL pre (.ready (some (.ok (.data d))) :: post)
    (LimitedBody.new (pre ++ .ready (some (.ok (.data d))) :: post) (some L)) rfl rfl rfl (by simpa [LimitedBody.new])
  have hstep := pollFrame_cross len (b := ⟨.ready (some (.ok (.data d))) :: post, some L,
    0 + (pre.map (dataLen len)).sum, false⟩) rfl rfl hL rfl (by simpa using hcross)
  rw [pollN_add, pollN_add, hpre]
  simp only [LimitedBody.new] at hstep ⊢
  rw [LimitedBody.pollN, LimitedBody.pollN, hstep, Nat.zero_add]
  dsimp only
  rw [pollN_of_idle len (pollFrame_of_tripped len rfl)]
  simp [pollInner]

/-- Any inner body whose data passes the limit has a first data frame that takes the running
total past it. -/
theorem exists_first_crossing {L : Nat} :
    ∀ (fs : List (PollFrame E D T)) (acc : Nat), acc ≤ L → L < acc + (fs.map (dataLen len)).sum →
      ∃ pre d post, fs = pre ++ .ready (some (.ok (.data d))) :: post ∧
        acc + (pre.map (dataLen len)).sum ≤ L ∧ L < acc + (pre.map (dataLen len)).sum + len d
  | [], acc, hacc, hcross => by simp at hcross; omega
  | p :: fs, acc, hacc, hcross => by
    simp only [List.map_cons, List.sum_cons] at hcross
    by_cases hp : L < acc + dataLen len p
    · cases hd : p.dataOf with
      | none => simp [dataLen, hd] at hp; omega
      | some d =>
        refine ⟨[], d, fs, by rw [dataOf_eq_some.mp hd]; rfl, by simpa using hacc, ?_⟩
        simpa [dataLen, hd] using hp
    · obtain ⟨pre, d, post, hfs, hle, hlt⟩ := exists_first_crossing (L := L) fs (acc + dataLen len p) (by omega) (by omega)
      refine ⟨p :: pre, d, post, by rw [hfs]; rfl, ?_, ?_⟩
      · simp only [List.map_cons, List.sum_cons]
        omega
      · simp only [List.map_cons, List.sum_cons]
        omega

/-- Under a limit, the data yielded so far is the count while the latch is open, and never
more than the limit. -/
def Within (L : Nat) (b : LimitedBody E D T) (yielded : Nat) : Prop :=
  b.limit = some L ∧ (b.tripped = false → yielded = b.received) ∧ yielded ≤ L

theorem within_pollFrame {L : Nat} (hL : L < usizeMax) {b : LimitedBody E D T} {y : Nat} (h : Within L b y) :
    Within L (b.pollFrame len).2 (y + dataLen len (b.pollFrame len).1) := by
  obtain ⟨hlim, hcount, hle⟩ := h
  cases ht : b.tripped
  · have hy := hcount ht
    cases hd : (pollInner b.inner).1.dataOf with
    | none =>
      rw [pollFrame_of_dataOf_none len hlim ht hd]
      refine ⟨hlim, fun _ => ?_, ?_⟩
      · simp [dataLen, dataOf_mapErr, hd, hy]
      · simpa [dataLen, dataOf_mapErr, hd] using hle
    | some d =>
      rw [pollFrame_of_data len hlim ht (dataOf_eq_some.mp hd)]
      by_cases hcross : L < saturatingAdd b.received (len d)
      · rw [if_pos hcross]
        exact ⟨hlim, (fun hf => by cases hf), by simpa [dataLen, PollFrame.dataOf] using hle⟩
      · rw [if_neg hcross]
        have hsat : saturatingAdd b.received (len d) = b.received + len d :=
          saturatingAdd_eq_of_le hL (by omega)
        refine ⟨hlim, fun _ => ?_, ?_⟩
        · simp [dataLen, PollFrame.dataOf, Frame.dataRef, hsat, hy]
        · simp only [dataLen, PollFrame.dataOf, Frame.dataRef, Option.map_some, Option.getD_some]
          omega
  · rw [pollFrame_of_tripped len ht]
    exact ⟨hlim, (fun hf => by simp [ht] at hf), by simpa [dataLen, PollFrame.dataOf] using hle⟩

theorem within_pollN {L : Nat} (hL : L < usizeMax) :
    ∀ (n : Nat) (b : LimitedBody E D T) (y : Nat), Within L b y →
      Within L (b.pollN len n).2 (y + ((b.pollN len n).1.map (dataLen len)).sum)
  | 0, b, y, h => by simpa [LimitedBody.pollN] using h
  | n + 1, b, y, h => by
    have hrun := within_pollN hL n _ _ (within_pollFrame len hL h)
    rw [LimitedBody.pollN]
    simp only [List.map_cons, List.sum_cons]
    rwa [← Nat.add_assoc]

end Runs

theorem request_body_limit (len : D → Nat) (fs : List (PollFrame E D T)) :
    (∀ L, L < usizeMax → (fs.map (dataLen len)).sum ≤ L → ∀ k,
      ((LimitedBody.new fs (some L)).pollN len (fs.length + k)).1 =
        fs.map (·.mapErr .inner) ++ List.replicate k (.ready none)) ∧
    (∀ L, L < (fs.map (dataLen len)).sum → ∃ pre d post, fs = pre ++ .ready (some (.ok (.data d))) :: post ∧
      (pre.map (dataLen len)).sum ≤ L ∧ L < (pre.map (dataLen len)).sum + len d) ∧
    (∀ L, L < usizeMax → ∀ pre d post, fs = pre ++ .ready (some (.ok (.data d))) :: post →
      (pre.map (dataLen len)).sum ≤ L → L < (pre.map (dataLen len)).sum + len d → ∀ k,
        ((LimitedBody.new fs (some L)).pollN len (pre.length + 1 + k)).1 = pre.map (·.mapErr .inner) ++
          .ready (some (.error (.requestBodyTooLarge (saturatingAdd (pre.map (dataLen len)).sum (len d)) L))) ::
            List.replicate k (.ready none) ∧
        ((LimitedBody.new fs (some L)).pollN len (pre.length + 1 + k)).2.inner = post ∧
        ((LimitedBody.new fs (some L)).pollN len (pre.length + 1 + k)).2.isEndStream = true) ∧
    (∀ L, L < usizeMax → ∀ n, (((LimitedBody.new fs (some L)).pollN len n).1.map (dataLen len)).sum ≤ L) ∧
    ∀ k, ((LimitedBody.new fs none).pollN len (fs.length + k)).1 =
      fs.map (·.mapErr .inner) ++ List.replicate k (.ready none) := by
  refine ⟨fun L hL hsum k => ?_, fun L hcross => ?_, fun L hL pre d post hfs hwithin hcross k => ?_,
    fun L hL n => ?_, fun k => ?_⟩
  · have hpass := pollN_pass len hL fs [] (LimitedBody.new fs (some L)) rfl rfl (by simp [LimitedBody.new])
      (by simpa [LimitedBody.new])
    rw [pollN_add, hpass, pollN_of_idle len (pollFrame_of_inner_nil len rfl)]
  · simpa using exists_first_crossing len fs 0 (Nat.zero_le L) (by simpa using hcross)
  · subst hfs
    rw [pollN_cross len hL hwithin hcross k]
    exact ⟨rfl, rfl, rfl⟩
  · have hrun := within_pollN len hL n (LimitedBody.new fs (some L)) 0 ⟨rfl, fun _ => rfl, Nat.zero_le L⟩
    simpa using hrun.2.2
  · rw [pollN_add, pollN_unlimited len fs _ rfl rfl rfl,
      pollN_of_idle len (pollFrame_of_inner_nil len rfl)]

/-- Under a limit of 5 bytes, a 3-byte data frame and a trailers frame pass, the 4-byte frame after
them becomes `RequestBodyTooLarge { received: 7, limit: 5 }`, and the next poll ends the stream. -/
theorem request_body_limit_crossing :
    ((LimitedBody.new [.ready (some (.ok (.data 3))), .ready (some (.ok (.trailers ()))), .ready (some (.ok (.data 4)))]
        (some 5) : LimitedBody Unit Nat Unit).pollN id 4).1 =
      [.ready (some (.ok (.data 3))), .ready (some (.ok (.trailers ()))),
        .ready (some (.error (.requestBodyTooLarge 7 5))), .ready none] :=
  ((request_body_limit id [.ready (some (.ok (.data 3))), .ready (some (.ok (.trailers ()))),
      .ready (some (.ok (.data 4)))]).2.2.1 5 (by decide) [.ready (some (.ok (.data 3))),
      .ready (some (.ok (.trailers ())))] 4 [] rfl (by decide) (by decide) 1).1.trans (by decide)

/-- At the limit `usize::MAX` the saturated count never passes the limit: a body of
`usize::MAX + 1` bytes is forwarded whole. -/
theorem limit_at_usize_max_never_trips :
    ((LimitedBody.new [.ready (some (.ok (.data usizeMax))), .ready (some (.ok (.data 1)))] (some usizeMax) :
        LimitedBody Unit Nat Unit).pollN id 3).1 =
      [.ready (some (.ok (.data usizeMax))), .ready (some (.ok (.data 1))), .ready none] ∧
    (((LimitedBody.new [.ready (some (.ok (.data usizeMax))), .ready (some (.ok (.data 1)))] (some usizeMax) :
        LimitedBody Unit Nat Unit).pollN id 3).1.map (dataLen id)).sum = usizeMax + 1 := by
  decide

end Rpxy.BodyLimit
