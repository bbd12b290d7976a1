import Rpxy.Reachability
import Rpxy.RustIpAddr

/-!
# The admission counters of `count.rs`

`RequestCount` is one shared `AtomicUsize`. Every TCP or TLS connection
(`Proxy::serve_connection`) and every HTTP/3 stream (`h3_serve_connection`) runs
`increment`, compares the old count with `max_clients`, and on rejection runs `decrement`
at once; an admitted one runs `decrement` when it completes. `decrement` is a
load / compare-exchange retry loop that gives up when it loads zero.
`PerIpConnectionCount` is a map from source address to its number of live slots behind one
mutex; `try_acquire` and the guard's `drop` are one critical section each.

Both are systems of tasks over the shared state (`Reachability`), with one action per atomic
operation or critical section and any number of tasks started at any time. The invariants
say what the counters count over every interleaving: the global count is the admitted
tasks plus the rejected ones not yet compensated, so admissions never exceed `max_clients`
and no decrement loads zero; each map entry is the number of live guards of its address.
The counts are `Nat`: a count is at most the number of live tasks, far below `usize::MAX`.
-/

namespace Rpxy.ConnectionCount

open Reachability RustIpAddr

/-! ## `RequestCount` -/

/-- `RequestCount::increment`: `fetch_add(1)`, as the new count and the old one it returns. -/
def increment (count : Nat) : Nat × Nat := (count + 1, count)

/-- Where a task is inside `RequestCount::decrement`. -/
inductive DecrementPc
  /-- `count = self.0.load()`. -/
  | load
  /-- `compare_exchange(count, count - 1)` with the count it loaded. -/
  | compareExchange (count : Nat)
  deriving DecidableEq, Repr

/-- One atomic step of `RequestCount::decrement`: the new count, and the next step of the
loop, `none` once it exits. -/
def decrementStep (count : Nat) : DecrementPc → Nat × Option DecrementPc
  | .load => if count > 0 then (count, some (.compareExchange count)) else (count, none)
  | .compareExchange seen => if count = seen then (seen - 1, none) else (count, some .load)

/-- One connection or HTTP/3 stream, by where it is in the counting code. -/
inductive Task
  /-- Before `request_count.increment()`. -/
  | arriving
  /-- Admitted and being served. -/
  | serving
  /-- Inside `decrement`, after a rejection (`admitted = false`) or after being served. -/
  | decrementing (admitted : Bool) (pc : DecrementPc)
  /-- Done with the counter. -/
  | finished (admitted : Bool)
  deriving DecidableEq, Repr

/-- Admitted and not yet done: being served or in its final `decrement`. -/
def Task.isAdmitted : Task → Bool
  | .serving | .decrementing true _ => true
  | _ => false

/-- Rejected, with its compensating `decrement` not yet done. -/
def Task.isRejecting : Task → Bool
  | .decrementing false _ => true
  | _ => false

/-- Holding one unit of the shared count: from its `increment` to the end of its `decrement`. -/
def Task.holdsSlot : Task → Bool
  | .serving | .decrementing _ _ => true
  | _ => false

/-- The next atomic step of one task against the shared count: the new count and task. -/
def admissionStep (maxClients count : Nat) : Task → Option (Nat × Task)
  | .arriving =>
    let (count', old) := increment count
    -- `if request_count.increment() >= max_clients { request_count.decrement(); return; }`
    some (count', if old ≥ maxClients then .decrementing false .load else .serving)
  | .serving => some (count, .decrementing true .load)
  | .decrementing admitted pc =>
    let (count', next) := decrementStep count pc
    some (count', match next with
      | some pc' => .decrementing admitted pc'
      | none => .finished admitted)
  | .finished _ => none

/-- The shared count and every task started so far. -/
structure Admissions where
  /-- The shared `AtomicUsize` count. -/
  count : Nat
  /-- Every task started so far. -/
  tasks : List Task
  deriving DecidableEq, Repr

/-- What may happen next: a connection or stream arrives, or task `i` takes its next step. -/
inductive AdmissionAction
  | arrive
  | run (i : Nat)

/-- `RequestCount::default()`, before any connection. -/
def admissionsInit : Admissions := ⟨0, []⟩

def admissionsStep (maxClients : Nat) (s : Admissions) : AdmissionAction → Option Admissions
  | .arrive => some ⟨s.count, s.tasks ++ [.arriving]⟩
  | .run i => (s.tasks[i]?).bind fun t =>
    (admissionStep maxClients s.count t).map fun (count', t') => ⟨count', s.tasks.set i t'⟩

theorem holdsSlot_of_isAdmitted {t : Task} (h : t.isAdmitted = true) : t.holdsSlot = true := by
  rcases t with _ | _ | ⟨_ | _, _⟩ | _ <;> simp_all [Task.isAdmitted, Task.holdsSlot]

/-- A task holding no slot, or a count that is positive, lets a step move one unit of the count
between the task and the counter: the count plus what the task holds is unchanged. -/
theorem admissionStep_count {m c c' : Nat} {t t' : Task} (h : admissionStep m c t = some (c', t'))
    (hpos : t.holdsSlot = true → 0 < c) :
    c' + (if t.holdsSlot then 1 else 0) = c + (if t'.holdsSlot then 1 else 0) := by
  cases t with
  | arriving =>
    simp only [admissionStep, increment, Option.some.injEq, Prod.mk.injEq] at h
    obtain ⟨rfl, rfl⟩ := h
    by_cases hm : c ≥ m <;> simp [hm, Task.holdsSlot]
  | serving =>
    simp only [admissionStep, Option.some.injEq, Prod.mk.injEq] at h
    obtain ⟨rfl, rfl⟩ := h
    simp [Task.holdsSlot]
  | decrementing a pc =>
    have hc : 0 < c := hpos rfl
    cases pc with
    | load =>
      simp only [admissionStep, decrementStep, gt_iff_lt, hc, ↓reduceIte, Option.some.injEq,
        Prod.mk.injEq] at h
      obtain ⟨rfl, rfl⟩ := h
      simp [Task.holdsSlot]
    | compareExchange seen =>
      simp only [admissionStep, decrementStep] at h
      split at h
      · simp only [Option.some.injEq, Prod.mk.injEq] at h
        obtain ⟨rfl, rfl⟩ := h
        simp only [Task.holdsSlot, ↓reduceIte, Bool.false_eq_true]
        omega
      · simp only [Option.some.injEq, Prod.mk.injEq] at h
        obtain ⟨rfl, rfl⟩ := h
        simp [Task.holdsSlot]
  | finished a => simp [admissionStep] at h

/-- Only an arrival under the limit becomes admitted. -/
theorem admissionStep_admitted {m c c' : Nat} {t t' : Task} (h : admissionStep m c t = some (c', t'))
    (ht' : t'.isAdmitted = true) : t.isAdmitted = true ∨ (t = .arriving ∧ c < m) := by
  cases t with
  | arriving =>
    simp only [admissionStep, increment, Option.some.injEq, Prod.mk.injEq] at h
    obtain ⟨-, rfl⟩ := h
    by_cases hm : c ≥ m
    · simp [hm, Task.isAdmitted] at ht'
    · exact Or.inr ⟨rfl, by omega⟩
  | serving => exact Or.inl rfl
  | decrementing a pc =>
    simp only [admissionStep, Option.some.injEq, Prod.mk.injEq] at h
    obtain ⟨-, rfl⟩ := h
    left
    split at ht' <;> cases a <;> simp_all [Task.isAdmitted]
  | finished a => simp [admissionStep] at h

/-- What the shared count counts, in every reachable state. -/
structure AdmissionsInv (maxClients : Nat) (s : Admissions) : Prop where
  /-- The count is the number of tasks holding a slot. -/
  count_eq : s.count = s.tasks.countP Task.holdsSlot
  /-- At most `max_clients` tasks were admitted. -/
  admitted_le : s.tasks.countP Task.isAdmitted ≤ maxClients

theorem admissionsInv_init (m : Nat) : AdmissionsInv m admissionsInit :=
  ⟨rfl, Nat.zero_le m⟩

theorem AdmissionsInv.count_pos {m : Nat} {s : Admissions} (h : AdmissionsInv m s) {t : Task}
    (ht : t ∈ s.tasks) (hslot : t.holdsSlot = true) : 0 < s.count := by
  rw [h.count_eq]
  exact List.countP_pos_iff.mpr ⟨t, ht, hslot⟩

theorem admissionsInv_step {m : Nat} {s s' : Admissions} {a : AdmissionAction} (h : AdmissionsInv m s)
    (hs : admissionsStep m s a = some s') : AdmissionsInv m s' := by
  cases a with
  | arrive =>
    simp only [admissionsStep, Option.some.injEq] at hs
    subst hs
    exact ⟨by simp [h.count_eq, List.countP_append, Task.holdsSlot],
      by simpa [List.countP_append, Task.isAdmitted] using h.admitted_le⟩
  | run i =>
    simp only [admissionsStep, Option.bind_eq_some_iff, Option.map_eq_some_iff] at hs
    obtain ⟨t, hi, ⟨c', t'⟩, hstep, rfl⟩ := hs
    have hmem : t ∈ s.tasks := List.mem_of_getElem? hi
    have hcount := admissionStep_count hstep (h.count_pos hmem)
    have hslots := countP_set_add Task.holdsSlot hi t'
    have hadm := countP_set_add Task.isAdmitted hi t'
    refine ⟨by simp only; rw [h.count_eq] at hcount; omega, ?_⟩
    have hle : s.tasks.countP Task.isAdmitted ≤ s.count := by
      rw [h.count_eq]
      exact List.countP_mono_left fun x _ hx => holdsSlot_of_isAdmitted hx
    have hbound := h.admitted_le
    show (s.tasks.set i t').countP Task.isAdmitted ≤ m
    rcases Bool.eq_false_or_eq_true t'.isAdmitted with ht' | ht'
    · rcases admissionStep_admitted hstep ht' with ht | ⟨rfl, hlt⟩
      · simp only [ht, ht', ↓reduceIte] at hadm
        omega
      · have harr : Task.arriving.isAdmitted = false := rfl
        simp only [ht', harr, Bool.false_eq_true, ↓reduceIte] at hadm
        omega
    · simp only [ht', Bool.false_eq_true, ↓reduceIte] at hadm
      split at hadm <;> omega

theorem admissionsInv_of_reachable {m : Nat} {s : Admissions}
    (hs : Reachable admissionsInit (admissionsStep m) s) : AdmissionsInv m s :=
  hs.invariant (admissionsInv_init m) fun _ _ _ h hstep => admissionsInv_step h hstep

theorem countP_holdsSlot (l : List Task) :
    l.countP Task.holdsSlot = l.countP Task.isAdmitted + l.countP Task.isRejecting := by
  induction l with
  | nil => rfl
  | cons t l ih =>
    simp only [List.countP_cons, ih]
    rcases t with _ | _ | ⟨_ | _, _⟩ | _ <;> simp [Task.holdsSlot, Task.isAdmitted, Task.isRejecting] <;> omega

/-- The load of a decrement from a reachable state never sees zero: the loop goes on to its
compare-exchange with a positive count. -/
theorem admissionsStep_load {m : Nat} {s : Admissions} (hs : AdmissionsInv m s) {i : Nat} {a : Bool}
    (hi : s.tasks[i]? = some (.decrementing a .load)) :
    0 < s.count ∧ admissionsStep m s (.run i) =
      some ⟨s.count, s.tasks.set i (.decrementing a (.compareExchange s.count))⟩ := by
  have hpos := hs.count_pos (List.mem_of_getElem? hi) (by cases a <;> rfl)
  refine ⟨hpos, ?_⟩
  simp [admissionsStep, hi, admissionStep, decrementStep, hpos]

theorem request_count_admission_bound {maxClients : Nat} {s : Admissions}
    (hs : Reachable admissionsInit (admissionsStep maxClients) s) :
    s.tasks.countP Task.isAdmitted ≤ maxClients ∧
      s.count = s.tasks.countP Task.isAdmitted + s.tasks.countP Task.isRejecting ∧
      ∀ i a, s.tasks[i]? = some (.decrementing a .load) →
        0 < s.count ∧ admissionsStep maxClients s (.run i) =
          some ⟨s.count, s.tasks.set i (.decrementing a (.compareExchange s.count))⟩ := by
  have hinv := admissionsInv_of_reachable hs
  refine ⟨hinv.admitted_le, ?_, fun i a hi => admissionsStep_load hinv hi⟩
  rw [hinv.count_eq, countP_holdsSlot]

/-- With one slot, a first connection is admitted and a second one, arriving while it is
served, is rejected and is about to load the count for its compensating decrement. -/
theorem request_count_admission_bound_two_arrivals :
    Reachable admissionsInit (admissionsStep 1) ⟨2, [.serving, .decrementing false .load]⟩ ∧
      [Task.serving, .decrementing false .load].countP Task.isAdmitted ≤ 1 :=
  have hs : Reachable admissionsInit (admissionsStep 1) ⟨2, [.serving, .decrementing false .load]⟩ :=
    reachable_iff_run.mpr ⟨[.arrive, .arrive, .run 0, .run 1], rfl⟩
  ⟨hs, (request_count_admission_bound hs).1⟩

/-! ## `PerIpConnectionCount` -/

section PerIp

variable {Ip : Type} [DecidableEq Ip]

/-- `PerIpConnectionGuard`: the address whose slot it holds, `None` for the no-op guard of a
disabled limit. -/
structure PerIpConnectionGuard (Ip : Type) where
  /-- The address whose slot the guard holds. -/
  state : Option Ip
  deriving DecidableEq, Repr

/-- `PerIpConnectionCount::try_acquire`, one critical section over the `IpConnectionMap` (the
entry of each address, `none` when it has none): the map after it and the guard returned. -/
def tryAcquire (maxPerIp : Nat) (map : Ip → Option Nat) (ip : Ip) :
    (Ip → Option Nat) × Option (PerIpConnectionGuard Ip) :=
  if maxPerIp = 0 then (map, some ⟨none⟩)
  else
    -- `map.entry(ip).or_insert(0)`: the entry exists from here on, also on rejection
    let count := (map ip).getD 0
    let map := Function.update map ip (some count)
    if count ≥ maxPerIp then (map, none)
    else (Function.update map ip (some (count + 1)), some ⟨some ip⟩)

/-- `Drop for PerIpConnectionGuard`, one critical section. -/
def PerIpConnectionGuard.drop (g : PerIpConnectionGuard Ip) (map : Ip → Option Nat) : Ip → Option Nat :=
  match g.state with
  | none => map
  | some ip =>
    match map ip with
    | none => map
    | some count =>
      -- `count.saturating_sub(1)` is `Nat` subtraction
      if count - 1 = 0 then Function.update map ip none else Function.update map ip (some (count - 1))

/-- The map and the guards returned and not yet dropped. -/
structure PerIpState (Ip : Type) where
  /-- The per-address counts. -/
  map : Ip → Option Nat
  /-- The guards not yet dropped. -/
  guards : List (PerIpConnectionGuard Ip)

/-- A connection from `ip` asks for a slot, or the holder of guard `i` drops it; a dropped
guard leaves the list, so no guard is dropped twice. -/
inductive PerIpAction (Ip : Type)
  | acquire (ip : Ip)
  | drop (i : Nat)

/-- `PerIpConnectionCount::new`: the empty map. -/
def perIpInit : PerIpState Ip := ⟨fun _ => none, []⟩

def perIpStep (maxPerIp : Nat) (s : PerIpState Ip) : PerIpAction Ip → Option (PerIpState Ip)
  | .acquire ip =>
    let (map, guard) := tryAcquire maxPerIp s.map ip
    some ⟨map, s.guards ++ guard.toList⟩
  | .drop i => s.guards[i]?.map fun g => ⟨g.drop s.map, s.guards.eraseIdx i⟩

/-- The live guards holding a slot of `ip`. -/
def liveCount (guards : List (PerIpConnectionGuard Ip)) (ip : Ip) : Nat :=
  guards.countP fun g => g.state = some ip

/-- The entry a map holds for a number of slots: none at zero. -/
def entryOf (n : Nat) : Option Nat := if n = 0 then none else some n

@[simp] theorem entryOf_getD (n : Nat) : (entryOf n).getD 0 = n := by
  unfold entryOf
  split <;> simp_all

theorem entryOf_of_pos {n : Nat} (h : 0 < n) : entryOf n = some n := if_neg (by omega)

@[simp] theorem entryOf_isSome (n : Nat) : (entryOf n).isSome = decide (0 < n) := by
  unfold entryOf
  split <;> simp <;> omega

theorem liveCount_append (guards : List (PerIpConnectionGuard Ip)) (g : PerIpConnectionGuard Ip) (ip : Ip) :
    liveCount (guards ++ [g]) ip = liveCount guards ip + if g.state = some ip then 1 else 0 := by
  simp [liveCount, List.countP_append]

theorem liveCount_pos {guards : List (PerIpConnectionGuard Ip)} {g : PerIpConnectionGuard Ip} {ip : Ip}
    (hg : g ∈ guards) (hs : g.state = some ip) : 0 < liveCount guards ip :=
  List.countP_pos_iff.mpr ⟨g, hg, by simpa using hs⟩

theorem liveCount_eraseIdx {guards : List (PerIpConnectionGuard Ip)} {i : Nat} {g : PerIpConnectionGuard Ip}
    (hi : guards[i]? = some g) (ip : Ip) :
    liveCount (guards.eraseIdx i) ip + (if g.state = some ip then 1 else 0) = liveCount guards ip := by
  unfold liveCount
  simpa using countP_eraseIdx_add (fun g => decide (g.state = some ip)) hi

/-- On a map whose entry for `ip` is the entry of `n`, `try_acquire` admits exactly below the
limit, and the entry it leaves is the entry of the new count. -/
theorem tryAcquire_eq {m n : Nat} {map : Ip → Option Nat} {ip : Ip} (hm : 0 < m) (hmap : map ip = entryOf n) :
    tryAcquire m map ip = if n ≥ m then (map, none) else (Function.update map ip (some (n + 1)), some ⟨some ip⟩) := by
  have hcount : (map ip).getD 0 = n := by rw [hmap, entryOf_getD]
  simp only [tryAcquire, Nat.pos_iff_ne_zero.mp hm, ↓reduceIte, hcount, Function.update_idem]
  split
  · rename_i hge
    congr 1
    rw [Function.update_eq_self_iff, hmap, entryOf_of_pos (by omega)]
  · rfl

/-- Dropping a guard of `ip` whose entry is the entry of `n > 0` leaves the entry of `n - 1`. -/
theorem drop_eq {n : Nat} {map : Ip → Option Nat} {ip : Ip} (hmap : map ip = entryOf n) (hn : 0 < n) :
    PerIpConnectionGuard.drop ⟨some ip⟩ map = Function.update map ip (entryOf (n - 1)) := by
  rw [entryOf_of_pos hn] at hmap
  simp only [PerIpConnectionGuard.drop, hmap, entryOf]
  split <;> rfl

/-- What the map holds, in every reachable state: each entry is its address's number of live
guards, and no address holds more than the limit. -/
structure PerIpInv (maxPerIp : Nat) (s : PerIpState Ip) : Prop where
  /-- Each entry is its address's live count. -/
  map_eq : ∀ ip, s.map ip = entryOf (liveCount s.guards ip)
  /-- No address holds more than the limit. -/
  live_le : ∀ ip, liveCount s.guards ip ≤ maxPerIp

theorem perIpInv_init (m : Nat) : PerIpInv m (perIpInit : PerIpState Ip) :=
  ⟨fun _ => rfl, fun _ => Nat.zero_le m⟩

/-- A step that keeps the map and every live count keeps the invariant. -/
theorem PerIpInv.of_live_eq {m : Nat} {s : PerIpState Ip} (h : PerIpInv m s)
    {guards : List (PerIpConnectionGuard Ip)} (hlive : ∀ ip, liveCount guards ip = liveCount s.guards ip) :
    PerIpInv m ⟨s.map, guards⟩ :=
  ⟨fun ip => by rw [hlive]; exact h.map_eq ip, fun ip => by rw [hlive]; exact h.live_le ip⟩

theorem perIpInv_acquire {m : Nat} {s : PerIpState Ip} (h : PerIpInv m s) (ip : Ip) {s' : PerIpState Ip}
    (hs : perIpStep m s (.acquire ip) = some s') : PerIpInv m s' := by
  simp only [perIpStep, Option.some.injEq] at hs
  subst hs
  rcases Nat.eq_zero_or_pos m with rfl | hm
  · simp only [tryAcquire, ↓reduceIte, Option.toList_some]
    exact h.of_live_eq fun ip' => by simp [liveCount_append]
  · rw [tryAcquire_eq hm (h.map_eq ip)]
    split
    · simpa using h
    · rename_i hlt
      have hlive : ∀ ip', liveCount (s.guards ++ [⟨some ip⟩]) ip' =
          liveCount s.guards ip' + if ip' = ip then 1 else 0 := fun ip' => by
        simp [liveCount_append, eq_comm]
      refine ⟨fun ip' => ?_, fun ip' => ?_⟩ <;> simp only [Option.toList_some, hlive]
      · by_cases he : ip' = ip
        · subst he
          simp [entryOf_of_pos]
        · simp [he, h.map_eq ip']
      · by_cases he : ip' = ip
        · subst he
          simp only [↓reduceIte]
          omega
        · simpa [he] using h.live_le ip'

theorem perIpInv_drop {m : Nat} {s : PerIpState Ip} (h : PerIpInv m s) (i : Nat) {s' : PerIpState Ip}
    (hs : perIpStep m s (.drop i) = some s') : PerIpInv m s' := by
  simp only [perIpStep, Option.map_eq_some_iff] at hs
  obtain ⟨g, hi, rfl⟩ := hs
  have hlive := liveCount_eraseIdx hi
  rcases hg : g.state with _ | ip
  · have hd : g.drop s.map = s.map := by simp [PerIpConnectionGuard.drop, hg]
    rw [hd]
    exact h.of_live_eq fun ip' => by simpa [hg] using hlive ip'
  · have hpos : 0 < liveCount s.guards ip := liveCount_pos (List.mem_of_getElem? hi) hg
    have hd : g.drop s.map = Function.update s.map ip (entryOf (liveCount s.guards ip - 1)) := by
      obtain ⟨st⟩ := g
      subst hg
      exact drop_eq (h.map_eq ip) hpos
    rw [hd]
    refine ⟨fun ip' => ?_, fun ip' => ?_⟩ <;> dsimp only <;> have hl := hlive ip' <;>
      simp only [hg, Option.some.injEq] at hl
    · by_cases he : ip = ip'
      · subst he
        simp only [↓reduceIte] at hl
        rw [Function.update_self, ← hl, Nat.add_sub_cancel]
      · simp only [he, ↓reduceIte, Nat.add_zero] at hl
        rw [Function.update_of_ne (Ne.symm he), hl]
        exact h.map_eq ip'
    · have := h.live_le ip'
      split at hl <;> omega

theorem perIpInv_of_reachable {m : Nat} {s : PerIpState Ip} (hs : Reachable perIpInit (perIpStep m) s) :
    PerIpInv m s :=
  hs.invariant (perIpInv_init m) fun _ a _ h hstep => by
    cases a with
    | acquire ip => exact perIpInv_acquire h ip hstep
    | drop i => exact perIpInv_drop h i hstep

/-- `try_acquire` admits exactly when the limit is off or the address is below it. -/
theorem PerIpInv.tryAcquire_isSome {m : Nat} {s : PerIpState Ip} (h : PerIpInv m s) (ip : Ip) :
    (tryAcquire m s.map ip).2.isSome ↔ m = 0 ∨ liveCount s.guards ip < m := by
  rcases Nat.eq_zero_or_pos m with rfl | hm
  · simp [tryAcquire]
  · rw [tryAcquire_eq hm (h.map_eq ip)]
    split <;> simp <;> omega

theorem per_ip_admission_invariant {maxPerIp : Nat} {s : PerIpState Ip}
    (hs : Reachable perIpInit (perIpStep maxPerIp) s) :
    (∀ ip, (s.map ip).isSome ↔ 0 < liveCount s.guards ip) ∧
      (∀ ip n, s.map ip = some n → n = liveCount s.guards ip ∧ n ≤ maxPerIp) ∧
      (∀ ip, (tryAcquire maxPerIp s.map ip).2.isSome ↔ maxPerIp = 0 ∨ liveCount s.guards ip < maxPerIp) ∧
      (maxPerIp = 0 → ∀ ip, s.map ip = none) := by
  have h := perIpInv_of_reachable hs
  refine ⟨fun ip => by simp [h.map_eq ip], fun ip n hn => ?_, h.tryAcquire_isSome, ?_⟩
  · rw [h.map_eq ip, entryOf] at hn
    split at hn
    · cases hn
    · cases hn
      exact ⟨rfl, h.live_le ip⟩
  · rintro rfl ip
    have hz : liveCount s.guards ip = 0 := Nat.le_zero.mp (h.live_le ip)
    rw [h.map_eq ip, hz]
    rfl

/-- With one slot per address, `192.0.2.1` takes its slot, is refused a second one, and
`192.0.2.2` takes its own. -/
theorem per_ip_admission_invariant_two_addresses :
    ∃ s : PerIpState IpAddr, run (perIpStep 1) perIpInit
        [.acquire (IpAddr.v4 (Ipv4Addr.new 192 0 2 1)), .acquire (IpAddr.v4 (Ipv4Addr.new 192 0 2 1)),
          .acquire (IpAddr.v4 (Ipv4Addr.new 192 0 2 2))] = some s ∧
      ∀ ip n, s.map ip = some n → n = liveCount s.guards ip ∧ n ≤ 1 :=
  let ⟨s, h⟩ : ∃ s : PerIpState IpAddr, run (perIpStep 1) perIpInit
      [.acquire (IpAddr.v4 (Ipv4Addr.new 192 0 2 1)), .acquire (IpAddr.v4 (Ipv4Addr.new 192 0 2 1)),
        .acquire (IpAddr.v4 (Ipv4Addr.new 192 0 2 2))] = some s := ⟨_, rfl⟩
  ⟨s, h, (per_ip_admission_invariant (reachable_iff_run.mpr ⟨_, h⟩)).2.1⟩

end PerIp

end Rpxy.ConnectionCount
