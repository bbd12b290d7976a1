import Mathlib.Data.List.Basic

/-!
# Health-state hysteresis of the health checker

`ConsecutiveCounter` of `counter.rs` keeps two saturating `u32` counts, the consecutive
successes and failures, and a health state that starts healthy. `record` turns a healthy
counter unhealthy when the failure count reaches `unhealthy_threshold`, an unhealthy one healthy
when the success count reaches `healthy_threshold`, resets the count that just crossed, and
returns the new state exactly then. `run_health_checker` keeps one counter per upstream and
calls `UpstreamHealth::set` with every state `record` returns.

The reference is a machine over the trace of probe results alone: it starts healthy, a healthy
machine turns unhealthy at a failure that ends a run of `U` failures, and an unhealthy one turns
healthy at a success that ends a run of `H` successes. A failure run of a healthy machine began
while it was healthy, since turning healthy takes a success; likewise for a success run of an
unhealthy one. The main result: for `U, H ≥ 1` the counter's state after any trace is the
machine's, `record` reports exactly the machine's transitions, the counts never leave `u32`,
and every upstream's `UpstreamHealth` is its counter's state after any run of the checker.
-/

namespace Rpxy.HealthCounter

/-- `u32::MAX`. -/
def u32Max : Nat := 4294967295

/-- `u32::saturating_add`. -/
def u32SaturatingAdd (a b : Nat) : Nat := min (a + b) u32Max

/-- `ConsecutiveCounter`. The counts are `u32` values as `Nat`s, which `saturating_add` keeps at
most `u32::MAX`. -/
structure ConsecutiveCounter where
  /-- `consecutive_ok`. -/
  consecutiveOk : Nat
  /-- `consecutive_fail`. -/
  consecutiveFail : Nat
  /-- `unhealthy_threshold`. -/
  unhealthyThreshold : UInt32
  /-- `healthy_threshold`. -/
  healthyThreshold : UInt32
  /-- `is_healthy`. -/
  isHealthy : Bool
  deriving DecidableEq, Repr

/-- `ConsecutiveCounter::new`: no counts, healthy (optimistic boot). -/
def ConsecutiveCounter.new (unhealthyThreshold healthyThreshold : UInt32) : ConsecutiveCounter :=
  ⟨0, 0, unhealthyThreshold, healthyThreshold, true⟩

/-- `ConsecutiveCounter::record`: the transition it returns, and the updated counter. -/
def ConsecutiveCounter.record (c : ConsecutiveCounter) (ok : Bool) : Option Bool × ConsecutiveCounter :=
  if ok then
    let c := { c with consecutiveOk := u32SaturatingAdd c.consecutiveOk 1, consecutiveFail := 0 }
    if c.isHealthy = false ∧ c.consecutiveOk ≥ c.healthyThreshold.toNat then
      (some true, { c with isHealthy := true, consecutiveOk := 0 })
    else (none, c)
  else
    let c := { c with consecutiveFail := u32SaturatingAdd c.consecutiveFail 1, consecutiveOk := 0 }
    if c.isHealthy = true ∧ c.consecutiveFail ≥ c.unhealthyThreshold.toNat then
      (some false, { c with isHealthy := false, consecutiveFail := 0 })
    else (none, c)

/-- `record` over a sequence of results: what each call returns, and the final counter. -/
def ConsecutiveCounter.recordAll (c : ConsecutiveCounter) : List Bool → List (Option Bool) × ConsecutiveCounter
  | [] => ([], c)
  | ok :: oks => ((c.record ok).1 :: ((c.record ok).2.recordAll oks).1, ((c.record ok).2.recordAll oks).2)

/-- One upstream's part of a tick of `run_health_checker`: `record` the result, and
`health.set(new_state)` when it returns a transition. The state is the counter and the
`UpstreamHealth` flag. -/
def checkUpstream (state : ConsecutiveCounter × Bool) (ok : Bool) : ConsecutiveCounter × Bool :=
  match state.1.record ok with
  | (some newState, c) => (c, newState)
  | (none, c) => (c, state.2)

/-- One tick of `run_health_checker`: the results of `join_all`, in upstream order, each
recorded by its upstream's counter. -/
def healthCheckTick (states : List (ConsecutiveCounter × Bool)) (results : List Bool) :
    List (ConsecutiveCounter × Bool) :=
  List.zipWith checkUpstream states results

/-- `run_health_checker` over a sequence of ticks, from a fresh counter and a healthy
`UpstreamHealth` (`UpstreamHealth::new`) for each of `n` upstreams. -/
def runHealthChecker (unhealthyThreshold healthyThreshold : UInt32) (n : Nat) (ticks : List (List Bool)) :
    List (ConsecutiveCounter × Bool) :=
  ticks.foldl healthCheckTick (List.replicate n (ConsecutiveCounter.new unhealthyThreshold healthyThreshold, true))

/-! ### The reference machine -/

/-- The length of the run of results equal to `b` at the head of a trace given newest first. -/
def runLength (b : Bool) (newestFirst : List Bool) : Nat := (newestFirst.takeWhile (· == b)).length

/-- The hysteresis machine over a trace given newest first: healthy at first; a healthy machine
stays healthy on a success or while the failure run is shorter than `U`, an unhealthy one turns
healthy on a success that makes the success run `H` long. -/
def hysteresisRev (U H : Nat) : List Bool → Bool
  | [] => true
  | r :: older =>
    if hysteresisRev U H older then r || decide (runLength false (r :: older) < U)
    else r && decide (H ≤ runLength true (r :: older))

/-- The machine's state after a trace in the order the probes ran. -/
def hysteresis (U H : Nat) (trace : List Bool) : Bool := hysteresisRev U H trace.reverse

/-- The transition the machine makes on result `r` after `past`, as the new state. -/
def transitionOn (U H : Nat) (past : List Bool) (r : Bool) : Option Bool :=
  if hysteresis U H (past ++ [r]) = hysteresis U H past then none else some (hysteresis U H (past ++ [r]))

/-- The transitions the machine makes on each of `rs` after `past`. -/
def transitionsOn (U H : Nat) (past : List Bool) : List Bool → List (Option Bool)
  | [] => []
  | r :: rs => transitionOn U H past r :: transitionsOn U H (past ++ [r]) rs

theorem runLength_cons (b r : Bool) (l : List Bool) :
    runLength b (r :: l) = if r = b then runLength b l + 1 else 0 := by
  by_cases h : r = b <;> simp [runLength, h]

theorem hysteresis_snoc (U H : Nat) (trace : List Bool) (r : Bool) :
    hysteresis U H (trace ++ [r]) =
      if hysteresis U H trace then r || decide (runLength false (r :: trace.reverse) < U)
      else r && decide (H ≤ runLength true (r :: trace.reverse)) := by
  rw [hysteresis, List.reverse_append]
  rfl

/-! ### The counter follows the machine -/

theorem u32SaturatingAdd_le (a b : Nat) : u32SaturatingAdd a b ≤ u32Max := Nat.min_le_right _ _

theorem u32SaturatingAdd_of_lt {a : Nat} (h : a < u32Max) : u32SaturatingAdd a 1 = a + 1 :=
  Nat.min_eq_left h

theorem toNat_le_u32Max (x : UInt32) : x.toNat ≤ u32Max := by
  have := x.toNat_lt
  unfold u32Max
  omega

/-- The counter after `trace` agrees with the machine: the same state, the failure count of a
healthy counter and the success count of an unhealthy one are the machine's current runs
(short of the thresholds), and both counts are `u32` values. -/
structure Tracks (U H : Nat) (c : ConsecutiveCounter) (trace : List Bool) : Prop where
  /-- The counter's `unhealthy_threshold` is `U`. -/
  unhealthy_threshold : c.unhealthyThreshold.toNat = U
  /-- The counter's `healthy_threshold` is `H`. -/
  healthy_threshold : c.healthyThreshold.toNat = H
  /-- The counter is healthy exactly when the machine is. -/
  healthy_eq : c.isHealthy = hysteresis U H trace
  /-- A healthy counter counts the current run of failures. -/
  fail_run : c.isHealthy = true → c.consecutiveFail = runLength false trace.reverse ∧ c.consecutiveFail < U
  /-- An unhealthy counter counts the current run of successes. -/
  ok_run : c.isHealthy = false → c.consecutiveOk = runLength true trace.reverse ∧ c.consecutiveOk < H
  /-- `consecutive_ok` is a `u32`. -/
  ok_le : c.consecutiveOk ≤ u32Max
  /-- `consecutive_fail` is a `u32`. -/
  fail_le : c.consecutiveFail ≤ u32Max

theorem tracks_new (U H : UInt32) (hU : 1 ≤ U.toNat) :
    Tracks U.toNat H.toNat (ConsecutiveCounter.new U H) [] :=
  ⟨rfl, rfl, rfl, fun _ => ⟨rfl, hU⟩, (fun h => by cases h), Nat.zero_le _, Nat.zero_le _⟩

section Step

variable {U H : Nat} {c : ConsecutiveCounter} {trace : List Bool}

/-- A success on a healthy counter: no transition, the failure run is gone. -/
theorem Tracks.record_true_of_healthy (h : Tracks U H c trace) (hU : 1 ≤ U) (hc : c.isHealthy = true) :
    Tracks U H (c.record true).2 (trace ++ [true]) ∧ (c.record true).1 = transitionOn U H trace true := by
  have hnew : hysteresis U H (trace ++ [true]) = true := by
    rw [hysteresis_snoc, ← h.healthy_eq, hc]
    rfl
  have hrec : c.record true =
      (none, { c with consecutiveOk := u32SaturatingAdd c.consecutiveOk 1, consecutiveFail := 0 }) := by
    simp [ConsecutiveCounter.record, hc]
  rw [hrec]
  refine ⟨⟨h.unhealthy_threshold, h.healthy_threshold, ?_, fun _ => ?_, (fun hf => by simp [hc] at hf),
    u32SaturatingAdd_le _ _, Nat.zero_le _⟩, ?_⟩
  · rw [hnew]
    exact hc
  · simp [runLength_cons]
    omega
  · simp [transitionOn, hnew, ← h.healthy_eq, hc]

/-- A success on an unhealthy counter: it turns healthy exactly when the success run reaches `H`. -/
theorem Tracks.record_true_of_unhealthy (h : Tracks U H c trace) (hU : 1 ≤ U) (hc : c.isHealthy = false) :
    Tracks U H (c.record true).2 (trace ++ [true]) ∧ (c.record true).1 = transitionOn U H trace true := by
  obtain ⟨hok, hlt⟩ := h.ok_run hc
  have hH := h.healthy_threshold ▸ toNat_le_u32Max c.healthyThreshold
  have hsat : u32SaturatingAdd c.consecutiveOk 1 = c.consecutiveOk + 1 := u32SaturatingAdd_of_lt (by omega)
  have hrun : runLength true (true :: trace.reverse) = c.consecutiveOk + 1 := by
    rw [runLength_cons, if_pos rfl, hok]
  have hnew : hysteresis U H (trace ++ [true]) = decide (H ≤ c.consecutiveOk + 1) := by
    rw [hysteresis_snoc, ← h.healthy_eq, hc, hrun]
    rfl
  by_cases hcross : H ≤ c.consecutiveOk + 1
  · have hrec : c.record true = (some true, { c with consecutiveOk := 0, consecutiveFail := 0, isHealthy := true }) := by
      simp [ConsecutiveCounter.record, hc, hsat, h.healthy_threshold, hcross]
    rw [hrec]
    refine ⟨⟨h.unhealthy_threshold, h.healthy_threshold, ?_, fun _ => ?_, (fun hf => by cases hf),
      Nat.zero_le _, Nat.zero_le _⟩, ?_⟩
    · simp [hnew, hcross]
    · simp [runLength_cons]
      omega
    · simp [transitionOn, hnew, hcross, ← h.healthy_eq, hc]
  · have hrec : c.record true =
        (none, { c with consecutiveOk := c.consecutiveOk + 1, consecutiveFail := 0 }) := by
      simp [ConsecutiveCounter.record, hc, hsat, h.healthy_threshold, hcross]
    rw [hrec]
    refine ⟨⟨h.unhealthy_threshold, h.healthy_threshold, ?_, (fun hf => by simp [hc] at hf), fun _ => ⟨?_, ?_⟩,
      ?_, Nat.zero_le _⟩, ?_⟩
    · simp [hnew, hcross, hc]
    · simp [runLength_cons, hok]
    · dsimp only
      omega
    · dsimp only
      omega
    · simp [transitionOn, hnew, hcross, ← h.healthy_eq, hc]

/-- A failure on a healthy counter: it turns unhealthy exactly when the failure run reaches `U`. -/
theorem Tracks.record_false_of_healthy (h : Tracks U H c trace) (hH : 1 ≤ H) (hc : c.isHealthy = true) :
    Tracks U H (c.record false).2 (trace ++ [false]) ∧ (c.record false).1 = transitionOn U H trace false := by
  obtain ⟨hfail, hlt⟩ := h.fail_run hc
  have hU := h.unhealthy_threshold ▸ toNat_le_u32Max c.unhealthyThreshold
  have hsat : u32SaturatingAdd c.consecutiveFail 1 = c.consecutiveFail + 1 := u32SaturatingAdd_of_lt (by omega)
  have hrun : runLength false (false :: trace.reverse) = c.consecutiveFail + 1 := by
    rw [runLength_cons, if_pos rfl, hfail]
  have hnew : hysteresis U H (trace ++ [false]) = decide (c.consecutiveFail + 1 < U) := by
    rw [hysteresis_snoc, ← h.healthy_eq, hc, hrun]
    rfl
  by_cases hcross : U ≤ c.consecutiveFail + 1
  · have hrec : c.record false = (some false, { c with consecutiveOk := 0, consecutiveFail := 0, isHealthy := false }) := by
      simp [ConsecutiveCounter.record, hc, hsat, h.unhealthy_threshold, hcross]
    rw [hrec]
    refine ⟨⟨h.unhealthy_threshold, h.healthy_threshold, ?_, (fun hf => by cases hf), fun _ => ?_,
      Nat.zero_le _, Nat.zero_le _⟩, ?_⟩
    · simp [hnew]
      omega
    · simp [runLength_cons]
      omega
    · have hnot : ¬c.consecutiveFail + 1 < U := by omega
      simp [transitionOn, hnew, hnot, ← h.healthy_eq, hc]
  · have hrec : c.record false =
        (none, { c with consecutiveFail := c.consecutiveFail + 1, consecutiveOk := 0 }) := by
      simp [ConsecutiveCounter.record, hc, hsat, h.unhealthy_threshold, hcross]
    rw [hrec]
    have hstay : c.consecutiveFail + 1 < U := by omega
    refine ⟨⟨h.unhealthy_threshold, h.healthy_threshold, ?_, fun _ => ⟨?_, hstay⟩, (fun hf => by simp [hc] at hf),
      Nat.zero_le _, ?_⟩, ?_⟩
    · simp [hnew, hstay, hc]
    · simp [runLength_cons, hfail]
    · dsimp only
      omega
    · simp [transitionOn, hnew, hstay, ← h.healthy_eq, hc]

/-- A failure on an unhealthy counter: no transition, the success run is gone. -/
theorem Tracks.record_false_of_unhealthy (h : Tracks U H c trace) (hH : 1 ≤ H) (hc : c.isHealthy = false) :
    Tracks U H (c.record false).2 (trace ++ [false]) ∧ (c.record false).1 = transitionOn U H trace false := by
  have hnew : hysteresis U H (trace ++ [false]) = false := by
    rw [hysteresis_snoc, ← h.healthy_eq, hc]
    rfl
  have hrec : c.record false =
      (none, { c with consecutiveFail := u32SaturatingAdd c.consecutiveFail 1, consecutiveOk := 0 }) := by
    simp [ConsecutiveCounter.record, hc]
  rw [hrec]
  refine ⟨⟨h.unhealthy_threshold, h.healthy_threshold, ?_, (fun hf => by simp [hc] at hf), fun _ => ?_,
    Nat.zero_le _, u32SaturatingAdd_le _ _⟩, ?_⟩
  · rw [hnew]
    exact hc
  · simp [runLength_cons]
    omega
  · simp [transitionOn, hnew, ← h.healthy_eq, hc]

/-- One `record`: the counter keeps following the machine and reports its transition. -/
theorem Tracks.record (h : Tracks U H c trace) (hU : 1 ≤ U) (hH : 1 ≤ H) (r : Bool) :
    Tracks U H (c.record r).2 (trace ++ [r]) ∧ (c.record r).1 = transitionOn U H trace r := by
  cases r with
  | true =>
    cases hc : c.isHealthy with
    | true => exact h.record_true_of_healthy hU hc
    | false => exact h.record_true_of_unhealthy hU hc
  | false =>
    cases hc : c.isHealthy with
    | true => exact h.record_false_of_healthy hH hc
    | false => exact h.record_false_of_unhealthy hH hc

/-- Any sequence of `record` calls: the counter follows the machine and reports exactly its
transitions. -/
theorem Tracks.recordAll (h : Tracks U H c trace) (hU : 1 ≤ U) (hH : 1 ≤ H) (rs : List Bool) :
    Tracks U H (c.recordAll rs).2 (trace ++ rs) ∧ (c.recordAll rs).1 = transitionsOn U H trace rs := by
  induction rs generalizing c trace with
  | nil =>
    rw [List.append_nil]
    exact ⟨h, rfl⟩
  | cons r rs ih =>
    obtain ⟨hstep, hevent⟩ := h.record hU hH r
    obtain ⟨hrun, hevents⟩ := ih hstep
    rw [List.append_assoc, List.singleton_append] at hrun
    exact ⟨hrun, by rw [ConsecutiveCounter.recordAll, transitionsOn, hevent, hevents]⟩

end Step

/-! ### The checker's health flags -/

/-- The state `record` leaves is the transition it returns, or the old state when it returns none. -/
theorem record_isHealthy (c : ConsecutiveCounter) (r : Bool) :
    (c.record r).2.isHealthy = (c.record r).1.getD c.isHealthy := by
  cases r
  · by_cases hcross : c.isHealthy = true ∧ c.unhealthyThreshold.toNat ≤ u32SaturatingAdd c.consecutiveFail 1 <;>
      simp [ConsecutiveCounter.record, hcross]
  · by_cases hcross : c.isHealthy = false ∧ c.healthyThreshold.toNat ≤ u32SaturatingAdd c.consecutiveOk 1 <;>
      simp [ConsecutiveCounter.record, hcross]

theorem checkUpstream_mirror (c : ConsecutiveCounter) (r : Bool) :
    checkUpstream (c, c.isHealthy) r = ((c.record r).2, (c.record r).2.isHealthy) := by
  rw [record_isHealthy]
  unfold checkUpstream
  split <;> simp_all

/-- The `i`-th upstream's part of a run of the checker is its counter's `recordAll` of the `i`-th
results, and its health flag is that counter's state. -/
theorem foldl_healthCheckTick {n i : Nat} (hi : i < n) :
    ∀ (ticks : List (List Bool)) (states : List (ConsecutiveCounter × Bool)) (c : ConsecutiveCounter),
      states.length = n → (∀ t ∈ ticks, t.length = n) → states[i]? = some (c, c.isHealthy) →
      (ticks.foldl healthCheckTick states).length = n ∧
        (ticks.foldl healthCheckTick states)[i]? =
          some ((c.recordAll (ticks.map (·.getD i false))).2, (c.recordAll (ticks.map (·.getD i false))).2.isHealthy)
  | [], states, c, hlen, _, hget => ⟨hlen, hget⟩
  | t :: ts, states, c, hlen, hticks, hget => by
    have ht : t.length = n := hticks t List.mem_cons_self
    have hlen' : (healthCheckTick states t).length = n := by
      simp [healthCheckTick, hlen, ht]
    have hget' : (healthCheckTick states t)[i]? = some ((c.record (t.getD i false)).2,
        (c.record (t.getD i false)).2.isHealthy) := by
      have hti : t[i]? = some (t.getD i false) := by
        rw [List.getD_eq_getElem?_getD, List.getElem?_eq_getElem (by omega)]
        rfl
      rw [healthCheckTick, List.getElem?_zipWith, hget, hti, ← checkUpstream_mirror]
    rw [List.foldl_cons]
    exact foldl_healthCheckTick hi ts _ _ hlen' (fun t' ht' => hticks t' (List.mem_cons_of_mem _ ht')) hget'

theorem health_hysteresis (U H : UInt32) (hU : 1 ≤ U.toNat) (hH : 1 ≤ H.toNat) :
    (∀ trace : List Bool,
      ((ConsecutiveCounter.new U H).recordAll trace).2.isHealthy = hysteresis U.toNat H.toNat trace ∧
      ((ConsecutiveCounter.new U H).recordAll trace).1 = transitionsOn U.toNat H.toNat [] trace ∧
      ((ConsecutiveCounter.new U H).recordAll trace).2.consecutiveOk ≤ u32Max ∧
      ((ConsecutiveCounter.new U H).recordAll trace).2.consecutiveFail ≤ u32Max) ∧
    ∀ (n : Nat) (ticks : List (List Bool)), (∀ t ∈ ticks, t.length = n) → ∀ i < n,
      ∃ c : ConsecutiveCounter, (runHealthChecker U H n ticks)[i]? = some (c, c.isHealthy) ∧
        c.isHealthy = hysteresis U.toNat H.toNat (ticks.map (·.getD i false)) := by
  have hrun := fun trace => (tracks_new U H hU).recordAll hU hH trace
  refine ⟨fun trace => ?_, fun n ticks hticks i hi => ?_⟩
  · obtain ⟨htr, hevents⟩ := hrun trace
    rw [List.nil_append] at htr
    exact ⟨htr.healthy_eq, hevents, htr.ok_le, htr.fail_le⟩
  · have hinit : (List.replicate n (ConsecutiveCounter.new U H, true))[i]? =
        some (ConsecutiveCounter.new U H, (ConsecutiveCounter.new U H).isHealthy) := by
      simp [hi, ConsecutiveCounter.new]
    obtain ⟨-, hget⟩ := foldl_healthCheckTick hi ticks _ _ (List.length_replicate) hticks hinit
    obtain ⟨htr, -⟩ := hrun (ticks.map (·.getD i false))
    rw [List.nil_append] at htr
    exact ⟨_, hget, htr.healthy_eq⟩

/-- With `U = 3` and `H = 2`, three failures turn the counter unhealthy and two successes turn it
healthy again, and `record` reports exactly those two transitions. -/
theorem health_hysteresis_recovers :
    ((ConsecutiveCounter.new 3 2).recordAll [false, false, false, true, true]).1 =
      [none, none, some false, none, some true] :=
  (((health_hysteresis 3 2 (by decide) (by decide)).1 [false, false, false, true, true]).2.1).trans (by decide)

end Rpxy.HealthCounter
