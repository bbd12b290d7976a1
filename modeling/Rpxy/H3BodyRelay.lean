import Rpxy.BodyLimit
import Rpxy.Reachability

/-!
# The HTTP/3 request-body relay

`h3_serve_stream` spawns a task that reads the client's request body from the QUIC stream and
feeds it into an `IncomingLike` channel, which the upstream side reads through
`IncomingLike::poll_frame`. The task adds each chunk's length to a `usize` counter (`+`, which
wraps in a release build). Past the effective limit it calls `Sender::abort`, which queues an
error; otherwise `send_data` queues the chunk once the previous one has been taken, since the
channel holds nothing beyond the sender's own slot. After the data it forwards the trailers, if
any. Every `?` in the task returns early and drops the sender.

The channel is modelled by its data queue, whether the task still holds the sender, and the
`oneshot` trailers slot: empty while the sender lives, holding trailers once sent, cancelled when
the sender is dropped without sending, taken once read. The consumer is hyper's client sending
the body upstream: it polls until an error or the end of the stream.

The task and the consumer interleave arbitrarily; a run is any list of the two actors. The main
results: in every reachable state the consumer has read a prefix of one sequence fixed by the
client's stream and the limit, a consumer that has stopped has read all of it, and from every
reachable state some run gets there. That sequence is the chunks in order, then the trailers and
the end of the stream; at the first chunk past the limit it is the chunks before it and an
error. A client stream that fails within the limit ends the same way as one that finishes: the
task's `?` drops the sender, and `poll_frame` reports a dropped sender as the end of the stream.
-/

namespace Rpxy.H3BodyRelay

open RustUsize BodyLimit Reachability

/-- The `RpxyError` the consumer can read: the one `Sender::abort` queues. -/
inductive RelayError where
  | hyperNewBodyWriteAborted
  deriving DecidableEq, Repr

/-- How the client's side of the stream ends after its data chunks. -/
inductive ClientEnd (T : Type) where
  /-- `recv_data` returns `None`, then `poll_recv_trailers` returns these trailers, if any. -/
  | finished (trailers : Option T)
  /-- `recv_data` fails. -/
  | dataError
  /-- `recv_data` returns `None`, then `poll_recv_trailers` fails. -/
  | trailersError
  deriving DecidableEq, Repr

/-- The client's request body: its data chunks, then how the stream ends. -/
structure ClientStream (D T : Type) where
  /-- The data chunks `recv_data` returns. -/
  chunks : List D
  /-- How the stream ends after them. -/
  ending : ClientEnd T

/-- `effective_body_limit`: the HTTP/3 override, else the global limit. -/
def effectiveBodyLimit (h3Limit globalLimit : Option Nat) : Option Nat := h3Limit.or globalLimit

/-- The `oneshot` trailers channel, seen from the receiver. -/
inductive TrailersSlot (T : Type) where
  | empty
  | sent (t : T)
  | canceled
  | taken
  deriving DecidableEq, Repr

/-- The `IncomingLike` channel between the task's `Sender` and the receiver. -/
structure Channel (D T : Type) where
  /-- The `mpsc` data queue. -/
  queue : List (Except RelayError D)
  /-- Whether the task still holds the `Sender`. -/
  senderAlive : Bool
  /-- The `oneshot` trailers slot. -/
  trailers : TrailersSlot T

variable {D T : Type}

/-- `Drop for Sender`: the data sender closes and unsent trailers are cancelled. -/
def Channel.dropSender (c : Channel D T) : Channel D T :=
  { c with
    senderAlive := false
    trailers := match c.trailers with
      | .empty => .canceled
      | slot => slot }

/-- `Sender::abort`: the error goes out on a clone of the data sender, then the sender is
dropped. -/
def Channel.abort (c : Channel D T) : Channel D T :=
  Channel.dropSender { c with queue := c.queue ++ [.error .hyperNewBodyWriteAborted] }

/-- Where the task is. -/
inductive TaskPhase (D : Type) where
  /-- In the `while let` loop, with the chunks still to come and the `size` counter. -/
  | receiving (rest : List D) (size : Nat)
  /-- Awaiting `poll_recv_trailers`. -/
  | awaitingTrailers
  /-- Returned, the `Sender` dropped. -/
  | done

/-- What one ready poll gives the consumer: a frame, an error, or the end of the stream. -/
abbrev Read (D T : Type) := Option (Except RelayError (Frame D T))

/-- The task, the channel and the consumer. -/
structure RelayState (D T : Type) where
  /-- Where the task is. -/
  phase : TaskPhase D
  /-- The channel. -/
  channel : Channel D T
  /-- `data_rx.is_terminated()`. -/
  terminated : Bool
  /-- What the consumer has read, in order. -/
  read : List (Read D T)
  /-- The consumer has read an error or the end of the stream and polls no more. -/
  finished : Bool

/-- Who moves next. -/
inductive Actor where
  | task
  | consumer
  deriving DecidableEq, Repr

/-! ### The task and `poll_frame` -/

/-- The loop's limit check, `size > limit`. -/
def exceeds (limit : Option Nat) (size : Nat) : Bool :=
  match limit with
  | some l => decide (l < size)
  | none => false

section System

variable (len : D → Nat) (limit : Option Nat) (client : ClientStream D T)

/-- The state when the task is spawned: nothing read, nothing sent. -/
def RelayState.init : RelayState D T := ⟨.receiving client.chunks 0, ⟨[], true, .empty⟩, false, [], false⟩

/-- One step of the task, from one of its `await`s to the next. -/
def taskStep (s : RelayState D T) : Option (RelayState D T) :=
  match s.phase with
  | .receiving (d :: rest) size =>
    let size := wrappingAdd size (len d)
    if exceeds limit size then some { s with phase := .done, channel := s.channel.abort }
    -- `send_data` waits until the previous chunk has been taken
    else if s.channel.queue.isEmpty then
      some { s with phase := .receiving rest size, channel := { s.channel with queue := [.ok d] } }
    else none
  | .receiving [] _ =>
    match client.ending with
    | .dataError => some { s with phase := .done, channel := s.channel.dropSender }
    | _ => some { s with phase := .awaitingTrailers }
  | .awaitingTrailers =>
    match client.ending with
    | .finished (some t) => some { s with phase := .done, channel := { s.channel with trailers := .sent t }.dropSender }
    | _ => some { s with phase := .done, channel := s.channel.dropSender }
  | .done => none

/-- The trailers half of `IncomingLike::poll_frame`, once the data queue has ended. -/
def pollTrailers (s : RelayState D T) : Option (RelayState D T) :=
  match s.channel.trailers with
  | .empty => none
  | .sent t =>
    some { s with channel := { s.channel with trailers := .taken }, read := s.read ++ [some (.ok (.trailers t))] }
  | .canceled | .taken => some { s with read := s.read ++ [none], finished := true }

/-- One `IncomingLike::poll_frame` that returns `Poll::Ready`, by a consumer that has not
stopped. -/
def consumerStep (s : RelayState D T) : Option (RelayState D T) :=
  if s.finished then none
  else if s.terminated then pollTrailers s
  else
    match s.channel.queue with
    | .ok d :: rest =>
      some { s with channel := { s.channel with queue := rest }, read := s.read ++ [some (.ok (.data d))] }
    | .error e :: rest =>
      some { s with channel := { s.channel with queue := rest }, read := s.read ++ [some (.error e)], finished := true }
    | [] => if s.channel.senderAlive then none else pollTrailers { s with terminated := true }

/-- The system: the task or the consumer moves. -/
def step (s : RelayState D T) : Actor → Option (RelayState D T)
  | .task => taskStep len limit client s
  | .consumer => consumerStep s

/-! ### What the consumer reads -/

/-- A data frame read. -/
def dataRead (d : D) : Read D T := some (.ok (.data d))

/-- The error `Sender::abort` makes the consumer read. -/
def abortRead : Read D T := some (.error .hyperNewBodyWriteAborted)

/-- What follows the data when the limit is not passed: the trailers, if the client sent them,
and the end of the stream, also when the client's stream failed. -/
def endReads : ClientEnd T → List (Read D T)
  | .finished (some t) => [some (.ok (.trailers t)), none]
  | _ => [none]

/-- What the task makes the consumer read from a point of its loop on. -/
def readsFrom (size : Nat) : List D → List (Read D T)
  | [] => endReads client.ending
  | d :: rest =>
    let size := wrappingAdd size (len d)
    if exceeds limit size then [abortRead] else dataRead d :: readsFrom size rest

/-- Everything the consumer reads of the client's stream. -/
def relayReads : List (Read D T) := readsFrom len limit client 0 client.chunks

/-- The queued items read in order, up to an error, then `rest`. -/
def queueThen : List (Except RelayError D) → List (Read D T) → List (Read D T)
  | [], rest => rest
  | .ok d :: q, rest => dataRead d :: queueThen q rest
  | .error e :: _, _ => [some (.error e)]

/-- What the trailers slot still gives once the data has ended. -/
def slotReads : TrailersSlot T → List (Read D T)
  | .sent t => [some (.ok (.trailers t)), none]
  | .canceled | .taken => [none]
  | .empty => []

/-- What the task will still send from where it is. -/
def phaseReads : TaskPhase D → List (Read D T)
  | .receiving rest size => readsFrom len limit client size rest
  | .awaitingTrailers => endReads client.ending
  | .done => []

/-- What the consumer will still read from a state. -/
def RelayState.toRead (s : RelayState D T) : List (Read D T) :=
  if s.finished then []
  else if s.terminated then slotReads s.channel.trailers
  else queueThen s.channel.queue
    (if s.channel.senderAlive then phaseReads len limit client s.phase else slotReads s.channel.trailers)

/-- The invariant of the system: what has been read and what will be read make up the relay's
sequence, and the channel's flags agree with where the task and the consumer are. -/
structure RelayInv (s : RelayState D T) : Prop where
  /-- The reads so far and to come make up the relay's sequence. -/
  reads : s.read ++ s.toRead len limit client = relayReads len limit client
  /-- The task is done exactly when it dropped the sender. -/
  done_iff : s.phase = .done ↔ s.channel.senderAlive = false
  /-- The trailers slot is empty exactly while the sender lives. -/
  empty_iff : s.channel.trailers = .empty ↔ s.channel.senderAlive = true
  /-- A terminated receiver has an empty queue and no sender. -/
  terminated_dropped : s.terminated = true → s.channel.queue = [] ∧ s.channel.senderAlive = false
  /-- Trailers are taken only after the data ends. -/
  taken_terminated : s.channel.trailers = .taken → s.terminated = true

/-- A measure that every step lowers. -/
def RelayState.measure (s : RelayState D T) : Nat :=
  (match s.phase with
    | .receiving rest _ => 2 * rest.length + 3
    | .awaitingTrailers => 2
    | .done => 0) +
  s.channel.queue.length +
  (match s.channel.trailers with
    | .empty | .sent _ => 2
    | .canceled | .taken => 1) +
  (if s.terminated then 0 else 1) + (if s.finished then 0 else 1)

/-! ### What each step can do -/

variable {len limit client}

theorem taskStep_cases {s s' : RelayState D T} (h : taskStep len limit client s = some s') :
    (∃ d rest size, s.phase = .receiving (d :: rest) size ∧ exceeds limit (wrappingAdd size (len d)) = true ∧
      s' = { s with phase := .done, channel := s.channel.abort }) ∨
    (∃ d rest size, s.phase = .receiving (d :: rest) size ∧ exceeds limit (wrappingAdd size (len d)) = false ∧
      s.channel.queue = [] ∧
      s' = { s with phase := .receiving rest (wrappingAdd size (len d)), channel := { s.channel with queue := [.ok d] } }) ∨
    (∃ size, s.phase = .receiving [] size ∧ client.ending = .dataError ∧
      s' = { s with phase := .done, channel := s.channel.dropSender }) ∨
    (∃ size, s.phase = .receiving [] size ∧ client.ending ≠ .dataError ∧ s' = { s with phase := .awaitingTrailers }) ∨
    (∃ t, s.phase = .awaitingTrailers ∧ client.ending = .finished (some t) ∧
      s' = { s with phase := .done, channel := { s.channel with trailers := .sent t }.dropSender }) ∨
    (s.phase = .awaitingTrailers ∧ (∀ t, client.ending ≠ .finished (some t)) ∧
      s' = { s with phase := .done, channel := s.channel.dropSender }) := by
  obtain ⟨phase, channel, terminated, read, finished⟩ := s
  cases phase with
  | receiving rest size =>
    cases rest with
    | cons d rest =>
      cases hex : exceeds limit (wrappingAdd size (len d))
      · cases hq : channel.queue with
        | nil =>
          simp only [taskStep, hex, hq, List.isEmpty_nil, if_true, Bool.false_eq_true, if_false,
            Option.some.injEq] at h
          exact Or.inr (Or.inl ⟨d, rest, size, rfl, hex, rfl, h.symm⟩)
        | cons x q => simp [taskStep, hex, hq] at h
      · simp only [taskStep, hex, if_true, Option.some.injEq] at h
        exact Or.inl ⟨d, rest, size, rfl, hex, h.symm⟩
    | nil =>
      cases hend : client.ending with
      | dataError =>
        simp only [taskStep, hend, Option.some.injEq] at h
        exact Or.inr (Or.inr (Or.inl ⟨size, rfl, rfl, h.symm⟩))
      | finished _ | trailersError =>
        simp only [taskStep, hend, Option.some.injEq] at h
        exact Or.inr (Or.inr (Or.inr (Or.inl ⟨size, rfl, by simp, h.symm⟩)))
  | awaitingTrailers =>
    cases hend : client.ending with
    | finished trailers =>
      cases trailers with
      | some t =>
        simp only [taskStep, hend, Option.some.injEq] at h
        exact Or.inr (Or.inr (Or.inr (Or.inr (Or.inl ⟨t, rfl, rfl, h.symm⟩))))
      | none =>
        simp only [taskStep, hend, Option.some.injEq] at h
        exact Or.inr (Or.inr (Or.inr (Or.inr (Or.inr ⟨rfl, by simp, h.symm⟩))))
    | dataError | trailersError =>
      simp only [taskStep, hend, Option.some.injEq] at h
      exact Or.inr (Or.inr (Or.inr (Or.inr (Or.inr ⟨rfl, by simp, h.symm⟩))))
  | done => simp [taskStep] at h

theorem pollTrailers_cases {s s' : RelayState D T} (h : pollTrailers s = some s') :
    (∃ t, s.channel.trailers = .sent t ∧
      s' = { s with channel := { s.channel with trailers := .taken }, read := s.read ++ [some (.ok (.trailers t))] }) ∨
    ((s.channel.trailers = .canceled ∨ s.channel.trailers = .taken) ∧
      s' = { s with read := s.read ++ [none], finished := true }) := by
  unfold pollTrailers at h
  split at h
  · cases h
  · exact Or.inl ⟨_, ‹_›, (Option.some.inj h).symm⟩
  · exact Or.inr ⟨Or.inl ‹_›, (Option.some.inj h).symm⟩
  · exact Or.inr ⟨Or.inr ‹_›, (Option.some.inj h).symm⟩

theorem consumerStep_cases {s s' : RelayState D T} (h : consumerStep s = some s') :
    s.finished = false ∧
    ((s.terminated = false ∧ ∃ d rest, s.channel.queue = .ok d :: rest ∧
        s' = { s with channel := { s.channel with queue := rest }, read := s.read ++ [some (.ok (.data d))] }) ∨
      (s.terminated = false ∧ ∃ e rest, s.channel.queue = .error e :: rest ∧
        s' = { s with channel := { s.channel with queue := rest }, read := s.read ++ [some (.error e)], finished := true }) ∨
      (s.terminated = false ∧ s.channel.queue = [] ∧ s.channel.senderAlive = false ∧
        pollTrailers { s with terminated := true } = some s') ∨
      (s.terminated = true ∧ pollTrailers s = some s')) := by
  unfold consumerStep at h
  cases hfin : s.finished
  · rw [hfin] at h
    refine ⟨rfl, ?_⟩
    cases hterm : s.terminated
    · simp only [hterm, Bool.false_eq_true, if_false] at h
      cases hq : s.channel.queue with
      | nil =>
        cases halive : s.channel.senderAlive
        · simp only [hq, halive, Bool.false_eq_true, if_false] at h
          exact Or.inr (Or.inr (Or.inl ⟨rfl, rfl, rfl, h⟩))
        · simp [hq, halive] at h
      | cons x rest =>
        cases x with
        | ok d =>
          simp only [hq, Option.some.injEq] at h
          exact Or.inl ⟨rfl, d, rest, rfl, h.symm⟩
        | error e =>
          simp only [hq, Option.some.injEq] at h
          exact Or.inr (Or.inl ⟨rfl, e, rest, rfl, h.symm⟩)
    · simp only [hterm, if_true] at h
      exact Or.inr (Or.inr (Or.inr ⟨rfl, h⟩))
  · simp [hfin] at h

/-! ### The invariant -/

theorem queueThen_append_error (e : RelayError) :
    ∀ (q : List (Except RelayError D)) (rest : List (Read D T)),
      queueThen (q ++ [.error e]) rest = queueThen q [some (.error e)]
  | [], _ => rfl
  | .ok d :: q, rest => by rw [List.cons_append, queueThen, queueThen, queueThen_append_error e q rest]
  | .error _ :: _, _ => rfl

theorem endReads_of_ne {ending : ClientEnd T} (h : ∀ t, ending ≠ .finished (some t)) :
    endReads ending = ([none] : List (Read D T)) := by
  cases ending with
  | finished trailers =>
    cases trailers with
    | some t => exact absurd rfl (h t)
    | none => rfl
  | dataError | trailersError => rfl

theorem RelayState.toRead_running {s : RelayState D T} (hfin : s.finished = false) (hterm : s.terminated = false) :
    s.toRead len limit client = queueThen s.channel.queue
      (if s.channel.senderAlive then phaseReads len limit client s.phase else slotReads s.channel.trailers) := by
  simp [RelayState.toRead, hfin, hterm]

/-- The flags of a state whose data queue has not ended. -/
theorem RelayInv.of_running {s : RelayState D T} (hreads : s.read ++ s.toRead len limit client = relayReads len limit client)
    (hterm : s.terminated = false) (hdone : s.phase = .done ↔ s.channel.senderAlive = false)
    (hempty : s.channel.trailers = .empty ↔ s.channel.senderAlive = true) (htaken : s.channel.trailers ≠ .taken) :
    RelayInv len limit client s :=
  ⟨hreads, hdone, hempty, by simp [hterm], fun h => absurd h htaken⟩

/-- A task step keeps the invariant: the task moves only while it holds the sender, and what it
sends next is what the consumer was still to read. -/
theorem taskStep_inv {s s' : RelayState D T} (hi : RelayInv len limit client s)
    (h : taskStep len limit client s = some s') : RelayInv len limit client s' := by
  have hactive : s.phase ≠ .done := by
    intro hd
    simp [taskStep, hd] at h
  have halive : s.channel.senderAlive = true := by
    cases ha : s.channel.senderAlive
    · exact absurd (hi.done_iff.mpr ha) hactive
    · rfl
  have hslot : s.channel.trailers = .empty := hi.empty_iff.mpr halive
  have hterm : s.terminated = false := by
    cases ht : s.terminated
    · rfl
    · simp [(hi.terminated_dropped ht).2] at halive
  by_cases hfin : s.finished = true
  · rcases taskStep_cases h with ⟨-, -, -, -, -, rfl⟩ | ⟨-, -, -, -, -, -, rfl⟩ | ⟨-, -, -, rfl⟩ | ⟨-, -, -, rfl⟩ |
        ⟨-, -, -, rfl⟩ | ⟨-, -, rfl⟩ <;>
      exact RelayInv.of_running (by simpa [RelayState.toRead, hfin] using hi.reads) hterm
        (by simp [Channel.abort, Channel.dropSender, halive]) (by simp [Channel.abort, Channel.dropSender, hslot, halive])
        (by simp [Channel.abort, Channel.dropSender, hslot])
  have hfin : s.finished = false := by simpa using hfin
  have hreads := hi.reads
  rw [RelayState.toRead_running hfin hterm, if_pos halive] at hreads
  rcases taskStep_cases h with ⟨d, rest, size, hphase, hex, rfl⟩ | ⟨d, rest, size, hphase, hex, hq, rfl⟩ |
      ⟨size, hphase, hend, rfl⟩ | ⟨size, hphase, hend, rfl⟩ | ⟨t, hphase, hend, rfl⟩ | ⟨hphase, hend, rfl⟩
  · refine RelayInv.of_running ?_ hterm (by simp [Channel.abort, Channel.dropSender])
      (by simp [Channel.abort, Channel.dropSender, hslot]) (by simp [Channel.abort, Channel.dropSender, hslot])
    rw [← hreads, hphase]
    simp [RelayState.toRead, hfin, hterm, Channel.abort, Channel.dropSender, hslot, queueThen_append_error,
      phaseReads, readsFrom, hex, abortRead]
  · refine RelayInv.of_running ?_ hterm (by simp [halive]) (by simp [hslot, halive]) (by simp [hslot])
    rw [← hreads, hphase, hq]
    simp [RelayState.toRead, hfin, hterm, halive, phaseReads, readsFrom, hex, queueThen]
  · refine RelayInv.of_running ?_ hterm (by simp [Channel.dropSender]) (by simp [Channel.dropSender, hslot])
      (by simp [Channel.dropSender, hslot])
    rw [← hreads, hphase]
    simp [RelayState.toRead, hfin, hterm, Channel.dropSender, hslot, phaseReads, readsFrom, hend, endReads, slotReads]
  · refine RelayInv.of_running ?_ hterm (by simp [halive]) (by simp [hslot, halive]) (by simp [hslot])
    rw [← hreads, hphase]
    simp [RelayState.toRead, hfin, hterm, halive, phaseReads, readsFrom]
  · refine RelayInv.of_running ?_ hterm (by simp [Channel.dropSender]) (by simp [Channel.dropSender])
      (by simp [Channel.dropSender])
    rw [← hreads, hphase]
    simp [RelayState.toRead, hfin, hterm, Channel.dropSender, phaseReads, hend, endReads, slotReads]
  · refine RelayInv.of_running ?_ hterm (by simp [Channel.dropSender]) (by simp [Channel.dropSender, hslot])
      (by simp [Channel.dropSender, hslot])
    rw [← hreads, hphase]
    simp [RelayState.toRead, hfin, hterm, Channel.dropSender, hslot, phaseReads, endReads_of_ne hend, slotReads]

/-- Reading the trailers slot keeps the invariant. -/
theorem pollTrailers_inv {s s' : RelayState D T} (hi : RelayInv len limit client s) (hterm : s.terminated = true)
    (hfin : s.finished = false) (h : pollTrailers s = some s') : RelayInv len limit client s' := by
  obtain ⟨hq, halive⟩ := hi.terminated_dropped hterm
  have hreads := hi.reads
  simp only [RelayState.toRead, hfin, hterm, Bool.false_eq_true, if_false, if_true] at hreads
  rcases pollTrailers_cases h with ⟨t, hslot, rfl⟩ | ⟨hslot, rfl⟩
  · refine ⟨?_, by simpa [halive] using hi.done_iff, by simp [halive], fun _ => ⟨hq, halive⟩, fun _ => hterm⟩
    rw [← hreads, hslot]
    simp [RelayState.toRead, hfin, hterm, slotReads]
  · refine ⟨?_, hi.done_iff, hi.empty_iff, hi.terminated_dropped, hi.taken_terminated⟩
    rw [← hreads]
    rcases hslot with hslot | hslot <;> simp [RelayState.toRead, hslot, slotReads]

/-- Marking the data queue ended once it is empty and the sender is gone keeps the invariant. -/
theorem RelayInv.terminate {s : RelayState D T} (hi : RelayInv len limit client s) (hfin : s.finished = false)
    (hq : s.channel.queue = []) (halive : s.channel.senderAlive = false) :
    RelayInv len limit client { s with terminated := true } := by
  refine ⟨?_, hi.done_iff, hi.empty_iff, fun _ => ⟨hq, halive⟩, fun _ => rfl⟩
  rw [← hi.reads]
  cases hterm : s.terminated <;> simp [RelayState.toRead, hfin, hterm, hq, halive, queueThen]

/-- A poll keeps the invariant: the consumer reads the next of what it was still to read. -/
theorem consumerStep_inv {s s' : RelayState D T} (hi : RelayInv len limit client s)
    (h : consumerStep s = some s') : RelayInv len limit client s' := by
  obtain ⟨hfin, hcase⟩ := consumerStep_cases h
  rcases hcase with ⟨hterm, d, rest, hq, rfl⟩ | ⟨hterm, e, rest, hq, rfl⟩ | ⟨hterm, hq, halive, hpoll⟩ | ⟨hterm, hpoll⟩
  · refine RelayInv.of_running ?_ hterm hi.done_iff hi.empty_iff fun ht => by simp [hi.taken_terminated ht] at hterm
    rw [← hi.reads]
    simp [RelayState.toRead, hfin, hterm, hq, queueThen, dataRead]
  · refine RelayInv.of_running ?_ hterm hi.done_iff hi.empty_iff fun ht => by simp [hi.taken_terminated ht] at hterm
    rw [← hi.reads]
    simp [RelayState.toRead, hfin, hterm, hq, queueThen]
  · exact pollTrailers_inv (hi.terminate hfin hq halive) rfl hfin hpoll
  · exact pollTrailers_inv hi hterm hfin hpoll

theorem step_inv {s s' : RelayState D T} {a : Actor} (hi : RelayInv len limit client s)
    (h : step len limit client s a = some s') : RelayInv len limit client s' := by
  cases a with
  | task => exact taskStep_inv hi h
  | consumer => exact consumerStep_inv hi h

theorem relayInv_init : RelayInv len limit client (RelayState.init client) := by
  refine ⟨?_, by simp [RelayState.init], by simp [RelayState.init], by simp [RelayState.init],
    by simp [RelayState.init]⟩
  simp [RelayState.init, RelayState.toRead, phaseReads, queueThen, relayReads]

/-- Every state the task and the consumer reach, in any interleaving, keeps the invariant. -/
theorem RelayInv.of_reachable {s : RelayState D T}
    (h : Reachable (RelayState.init client) (step len limit client) s) : RelayInv len limit client s :=
  h.invariant relayInv_init fun _ _ _ hi hs => step_inv hi hs

/-! ### Progress and termination -/

/-- Once the sender is gone the trailers slot is not empty, so reading it returns. -/
theorem pollTrailers_isSome {s : RelayState D T} (h : s.channel.trailers ≠ .empty) :
    ∃ s', pollTrailers s = some s' := by
  unfold pollTrailers
  split
  · exact absurd ‹_› h
  all_goals exact ⟨_, rfl⟩

/-- A consumer that has not stopped can poll once the queue holds something or the sender is
gone. -/
theorem consumerStep_isSome {s : RelayState D T} (hi : RelayInv len limit client s) (hfin : s.finished = false)
    (h : s.channel.queue ≠ [] ∨ s.channel.senderAlive = false) : ∃ s', consumerStep s = some s' := by
  have hslot : s.channel.senderAlive = false → s.channel.trailers ≠ .empty :=
    fun halive he => by simp [hi.empty_iff.mp he] at halive
  cases hterm : s.terminated
  · cases hq : s.channel.queue with
    | nil =>
      have halive : s.channel.senderAlive = false := by simpa [hq] using h
      obtain ⟨s', hs'⟩ := pollTrailers_isSome (s := { s with terminated := true }) (hslot halive)
      exact ⟨s', by simpa [consumerStep, hfin, hterm, hq, halive] using hs'⟩
    | cons x rest => cases x <;> simp [consumerStep, hfin, hterm, hq]
  · obtain ⟨s', hs'⟩ := pollTrailers_isSome (hslot (hi.terminated_dropped hterm).2)
    exact ⟨s', by simpa [consumerStep, hfin, hterm] using hs'⟩

/-- The task can move while it holds the sender and the queue is empty. -/
theorem taskStep_isSome {s : RelayState D T} (hphase : s.phase ≠ .done) (hq : s.channel.queue = []) :
    ∃ s', taskStep len limit client s = some s' := by
  obtain ⟨phase, channel, terminated, read, finished⟩ := s
  cases phase with
  | receiving rest size =>
    cases rest with
    | cons d rest =>
      dsimp only at hq
      cases hex : exceeds limit (wrappingAdd size (len d)) <;> simp [taskStep, hex, hq]
    | nil => cases hend : client.ending <;> simp [taskStep, hend]
  | awaitingTrailers =>
    cases hend : client.ending with
    | finished trailers => cases trailers <;> simp [taskStep, hend]
    | dataError | trailersError => simp [taskStep, hend]
  | done => exact absurd rfl hphase

/-- No reachable state is stuck before the consumer has stopped. -/
theorem RelayInv.progress {s : RelayState D T} (hi : RelayInv len limit client s) (hfin : s.finished = false) :
    ∃ a s', step len limit client s a = some s' := by
  by_cases hq : s.channel.queue = []
  · cases halive : s.channel.senderAlive
    · obtain ⟨s', hs'⟩ := consumerStep_isSome hi hfin (Or.inr halive)
      exact ⟨.consumer, s', hs'⟩
    · have hphase : s.phase ≠ .done := fun hd => by simp [hi.done_iff.mp hd] at halive
      obtain ⟨s', hs'⟩ := @taskStep_isSome D T len limit client s hphase hq
      exact ⟨.task, s', hs'⟩
  · obtain ⟨s', hs'⟩ := consumerStep_isSome hi hfin (Or.inl hq)
    exact ⟨.consumer, s', hs'⟩

/-- Every step lowers the measure. -/
theorem step_measure {s s' : RelayState D T} {a : Actor} (h : step len limit client s a = some s') :
    s'.measure < s.measure := by
  cases a with
  | task =>
    rcases @taskStep_cases D T len limit client s s' h with ⟨d, rest, size, hphase, -, rfl⟩ | ⟨d, rest, size, hphase, -, hq, rfl⟩ |
        ⟨size, hphase, -, rfl⟩ | ⟨size, hphase, -, rfl⟩ | ⟨t, hphase, -, rfl⟩ | ⟨hphase, -, rfl⟩
    · cases hslot : s.channel.trailers <;> simp [RelayState.measure, hphase, Channel.abort, Channel.dropSender, hslot] <;>
        omega
    · simp [RelayState.measure, hphase, hq]
      omega
    all_goals cases hslot : s.channel.trailers <;> simp [RelayState.measure, hphase, Channel.dropSender, hslot] <;> omega
  | consumer =>
    obtain ⟨hfin, hcase⟩ := consumerStep_cases h
    rcases hcase with ⟨hterm, d, rest, hq, rfl⟩ | ⟨hterm, e, rest, hq, rfl⟩ | ⟨hterm, -, -, hpoll⟩ | ⟨hterm, hpoll⟩
    · simp [RelayState.measure, hq]
    · simp [RelayState.measure, hq, hfin]
    · rcases pollTrailers_cases hpoll with ⟨t, hslot, rfl⟩ | ⟨hslot, rfl⟩
      · have hslot' : s.channel.trailers = .sent t := hslot
        simp [RelayState.measure, hslot', hterm]
      · rcases hslot with hslot | hslot
        · have hslot' : s.channel.trailers = .canceled := hslot
          simp [RelayState.measure, hslot', hterm, hfin]
        · have hslot' : s.channel.trailers = .taken := hslot
          simp [RelayState.measure, hslot', hterm, hfin]
    · rcases pollTrailers_cases hpoll with ⟨t, hslot, rfl⟩ | ⟨hslot, rfl⟩
      · simp [RelayState.measure, hslot]
      · rcases hslot with hslot | hslot <;> simp [RelayState.measure, hslot, hfin]

/-! ### The sequence read -/

/-- With no limit every chunk is forwarded. -/
theorem readsFrom_unlimited (size : Nat) :
    ∀ chunks : List D, readsFrom len none client size chunks = chunks.map dataRead ++ endReads client.ending
  | [] => rfl
  | d :: rest => by simp [readsFrom, exceeds, readsFrom_unlimited _ rest]

/-- Within the limit every chunk is forwarded; the counter does not wrap, as the limit plus any
chunk fits in a `usize`. -/
theorem readsFrom_within {chunks : List D} {l : Nat} (hfit : ∀ d ∈ chunks, l + len d ≤ usizeMax) :
    ∀ {size : Nat}, size + (chunks.map len).sum ≤ l →
      readsFrom len (some l) client size chunks = chunks.map dataRead ++ endReads client.ending := by
  induction chunks with
  | nil => intro _ _; rfl
  | cons d rest ih =>
    intro size hsum
    simp only [List.map_cons, List.sum_cons] at hsum
    have hwrap : wrappingAdd size (len d) = size + len d :=
      wrappingAdd_of_le (by have := hfit d List.mem_cons_self; omega)
    have hex : exceeds (some l) (size + len d) = false := by simp [exceeds]; omega
    rw [readsFrom, hwrap, hex, if_neg (by simp), ih (fun d' hd' => hfit d' (List.mem_cons_of_mem d hd')) (by omega)]
    rfl

/-- Past the limit, the consumer reads the chunks before the first one that takes the counter
past it, then the abort error. -/
theorem readsFrom_crossing {chunks : List D} {l : Nat} (hfit : ∀ d ∈ chunks, l + len d ≤ usizeMax) :
    ∀ {size : Nat}, size ≤ l → l < size + (chunks.map len).sum →
      ∃ pre d post, chunks = pre ++ d :: post ∧ size + (pre.map len).sum ≤ l ∧ l < size + (pre.map len).sum + len d ∧
        readsFrom len (some l) client size chunks = pre.map dataRead ++ [abortRead] := by
  induction chunks with
  | nil => intro size hsize hlt; simp at hlt; omega
  | cons d rest ih =>
    intro size hsize hlt
    simp only [List.map_cons, List.sum_cons] at hlt
    have hwrap : wrappingAdd size (len d) = size + len d :=
      wrappingAdd_of_le (by have := hfit d List.mem_cons_self; omega)
    by_cases hcross : l < size + len d
    · refine ⟨[], d, rest, rfl, by simpa using hsize, by simpa using hcross, ?_⟩
      simp [readsFrom, hwrap, exceeds, hcross]
    · obtain ⟨pre, d', post, hsplit, hle, hlt', hreads⟩ :=
        @ih (fun d' hd' => hfit d' (List.mem_cons_of_mem d hd')) (size + len d) (by omega) (by omega)
      refine ⟨d :: pre, d', post, by rw [hsplit, List.cons_append], by simp; omega, by simp; omega, ?_⟩
      simp [readsFrom, hwrap, exceeds, hcross, hreads]

end System

theorem h3_body_relay_reads (len : D → Nat) (h3Limit globalLimit : Option Nat) (client : ClientStream D T) :
    (∀ s, Reachable (RelayState.init client) (step len (effectiveBodyLimit h3Limit globalLimit) client) s →
      s.read <+: relayReads len (effectiveBodyLimit h3Limit globalLimit) client ∧
      (s.finished = true → s.read = relayReads len (effectiveBodyLimit h3Limit globalLimit) client) ∧
      ∃ actors s', run (step len (effectiveBodyLimit h3Limit globalLimit) client) s actors = some s' ∧
        s'.finished = true) ∧
    (effectiveBodyLimit h3Limit globalLimit = none →
      relayReads len (effectiveBodyLimit h3Limit globalLimit) client =
        client.chunks.map dataRead ++ endReads client.ending) ∧
    ∀ l, effectiveBodyLimit h3Limit globalLimit = some l → (∀ d ∈ client.chunks, l + len d ≤ usizeMax) →
      ((client.chunks.map len).sum ≤ l →
        relayReads len (effectiveBodyLimit h3Limit globalLimit) client =
          client.chunks.map dataRead ++ endReads client.ending) ∧
      (l < (client.chunks.map len).sum → ∃ pre d post, client.chunks = pre ++ d :: post ∧
        (pre.map len).sum ≤ l ∧ l < (pre.map len).sum + len d ∧
        relayReads len (effectiveBodyLimit h3Limit globalLimit) client = pre.map dataRead ++ [abortRead]) := by
  refine ⟨fun s hs => ?_, fun hnone => ?_, fun l hl hfit => ⟨fun hsum => ?_, fun hlt => ?_⟩⟩
  · have hi := RelayInv.of_reachable hs
    refine ⟨⟨_, hi.reads⟩, fun hfin => ?_, ?_⟩
    · simpa [RelayState.toRead, hfin] using hi.reads
    · exact exists_run_of_progress RelayState.measure (fun _ _ _ => step_measure)
        (fun s' hs' hfin => (RelayInv.of_reachable hs').progress (by simpa using hfin)) hs
  · rw [relayReads, hnone, readsFrom_unlimited]
  · rw [relayReads, hl, readsFrom_within hfit (by simpa using hsum)]
  · obtain ⟨pre, d, post, hsplit, hle, hlt', hreads⟩ :=
      @readsFrom_crossing D T len client client.chunks l hfit 0 (Nat.zero_le l) (by simpa using hlt)
    exact ⟨pre, d, post, hsplit, by simpa using hle, by simpa using hlt', by rw [relayReads, hl, hreads]⟩

/-- Chunks of 3 and 4 bytes against a limit of 5: every interleaving can finish, and the
consumer reads the first chunk and the abort error. -/
example :
    let client : ClientStream Nat Unit := ⟨[3, 4], .finished (some ())⟩
    let limit := effectiveBodyLimit (some 5) none
    (∃ actors s', run (step id limit client) (RelayState.init client) actors = some s' ∧ s'.finished = true) ∧
    ∃ pre d post, client.chunks = pre ++ d :: post ∧ (pre.map id).sum ≤ 5 ∧ 5 < (pre.map id).sum + id d ∧
      relayReads id limit client = pre.map dataRead ++ [abortRead] := by
  intro client limit
  obtain ⟨hruns, -, hlimited⟩ := h3_body_relay_reads id (some 5) none client
  exact ⟨(hruns _ .init).2.2, (hlimited 5 rfl (by decide)).2 (by decide)⟩

/-- A limit of `usize::MAX` is never passed: the wrapping counter cannot exceed it, so every chunk
is forwarded whatever the body's size. -/
theorem relayReads_usizeMax (len : D → Nat) (client : ClientStream D T) :
    relayReads len (some usizeMax) client = client.chunks.map dataRead ++ endReads client.ending := by
  suffices h : ∀ size chunks, readsFrom len (some usizeMax) client size chunks =
      chunks.map dataRead ++ endReads client.ending from h 0 client.chunks
  intro size chunks
  induction chunks generalizing size with
  | nil => rfl
  | cons d rest ih =>
    have hex : exceeds (some usizeMax) (wrappingAdd size (len d)) = false := by
      simpa [exceeds] using wrappingAdd_le size (len d)
    simp [readsFrom, hex, ih]

example : relayReads id (some usizeMax) (⟨[usizeMax, 1], .finished none⟩ : ClientStream Nat Unit) =
    [dataRead usizeMax, dataRead 1, none] := rfl

/-- A client stream that fails after one chunk: the task's `?` drops the sender and the consumer
reads the chunk and a clean end of stream. -/
theorem truncated_body_ends_cleanly :
    let client : ClientStream Nat Unit := ⟨[3], .dataError⟩
    run (step id none client) (RelayState.init client) [.task, .consumer, .task, .consumer] =
      some ⟨.done, ⟨[], false, .canceled⟩, true, [dataRead 3, none], true⟩ :=
  rfl

end Rpxy.H3BodyRelay
