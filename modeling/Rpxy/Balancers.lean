import Rpxy.StickyLoadBalance

/-!
# The balancers of an upstream group

`load_balance_main.rs`: the round-robin, random and primary/backup balancers, and
`LoadBalance::get_context`, which dispatches to the strategy of the group, the sticky one
included, with the `sticky-cookie` and `health-check` features. The round-robin counter is the
shared `AtomicUsize`, modelled by its value; a draw `rng.random_range(0..k)` is the value
`draw k` of a function given with the call.

The main results: over `m` calls from a counter that stays below `usize::MAX - 1`, both
round-robin balancers return the available indices in cyclic increasing order, each `⌊m / h⌋`
or `⌈m / h⌉` times (`FairPicks`); and `get_context` returns, for every strategy, an index of the
group that is healthy whenever some upstream is (`GoodPick`).
-/

namespace Rpxy.Balancers

open LoadBalancePick StickyLoadBalance Rotation RustUsize

/-- `LoadBalanceRoundRobin`, by the value of its shared counter. -/
structure LoadBalanceRoundRobin where
  /-- The value of the shared `AtomicUsize` counter. -/
  ptr : Nat
  deriving DecidableEq, Repr

namespace LoadBalanceRoundRobin

/-- `LoadBalanceRoundRobin::fetch_and_advance`. -/
def fetchAndAdvance (lb : LoadBalanceRoundRobin) : Nat × LoadBalanceRoundRobin :=
  ((fetchAndAdvanceCounter lb.ptr).1, ⟨(fetchAndAdvanceCounter lb.ptr).2⟩)

/-- `LoadBalanceRoundRobin::get_ptr`, with the balancer after the call. -/
def getPtr (lb : LoadBalanceRoundRobin) (upstreams : List Upstream) :
    PointerToUpstream × LoadBalanceRoundRobin :=
  (⟨pickNthAvailableIndex upstreams lb.fetchAndAdvance.1, none⟩, lb.fetchAndAdvance.2)

end LoadBalanceRoundRobin

/-- `LoadBalanceRandom::get_ptr`, where `draw k` is what `rng.random_range(0..k)` returns. -/
def LoadBalanceRandom.getPtr (draw : Nat → Nat) (upstreams : List Upstream) : PointerToUpstream :=
  let len := upstreams.length
  if len = 0 then ⟨0, none⟩
  else if !upstreams.any Upstream.hasHealthState then ⟨draw len, none⟩
  else
    let healthyCount := healthyIndexCount upstreams
    if healthyCount = len ∨ healthyCount = 0 then ⟨draw len, none⟩
    else ⟨pickNthAvailableIndex upstreams (draw healthyCount), none⟩

/-- `LoadBalancePrimaryBackup::get_ptr`. -/
def LoadBalancePrimaryBackup.getPtr (upstreams : List Upstream) : PointerToUpstream :=
  ⟨firstAvailableIndex upstreams, none⟩

/-- `LoadBalance`. -/
inductive LoadBalance
  | fixToFirst
  | random
  | roundRobin (lb : LoadBalanceRoundRobin)
  | stickyRoundRobin (lb : LoadBalanceSticky)
  | primaryBackup

namespace LoadBalance

/-- `LoadBalance::get_context` at the time `now` with the draws `draw`, and the balancer after the
call; `none` where the sticky balancer panics. -/
def getContext (draw : Nat → Nat) (now : Int) :
    LoadBalance → Option LoadBalanceContext → List Upstream →
      Option (PointerToUpstream × LoadBalance)
  | fixToFirst, _, upstreams => some (⟨firstAvailableIndex upstreams, none⟩, fixToFirst)
  | roundRobin lb, _, upstreams =>
    some ((lb.getPtr upstreams).1, roundRobin (lb.getPtr upstreams).2)
  | random, _, upstreams => some (LoadBalanceRandom.getPtr draw upstreams, random)
  | stickyRoundRobin lb, contextToLb, upstreams =>
    (lb.getPtr now contextToLb upstreams).map fun r => (r.1, stickyRoundRobin r.2)
  | primaryBackup, _, upstreams => some (LoadBalancePrimaryBackup.getPtr upstreams, primaryBackup)

/-- The balancer belongs to the group: a sticky one has an id for each upstream, as
`LoadBalanceStickyBuilder` makes them from the group's list. -/
def FitsGroup : LoadBalance → List Upstream → Prop
  | stickyRoundRobin lb, upstreams => lb.upstreamMaps.upstreamIndexMap.length = upstreams.length
  | _, _ => True

end LoadBalance

/-! ### What one call returns -/

/-- An index a balancer may return for a group: one of the list, and healthy whenever some
upstream is. -/
def GoodPick (upstreams : List Upstream) (i : Nat) : Prop :=
  i < upstreams.length ∧
    ((∃ u ∈ upstreams, u.isHealthy = true) → ∃ u, upstreams[i]? = some u ∧ u.isHealthy = true)

section Pick

variable {upstreams : List Upstream}

theorem goodPick_of_mem_availableIndices {i : Nat} (hi : i ∈ availableIndices upstreams) :
    GoodPick upstreams i :=
  ⟨mem_availableIndices hi, fun hh => isHealthy_of_mem_availableIndices hh hi⟩

theorem goodPick_of_forall (hall : ∀ u ∈ upstreams, u.isHealthy = true) {i : Nat}
    (hi : i < upstreams.length) : GoodPick upstreams i :=
  ⟨hi, fun _ => ⟨upstreams[i], List.getElem?_eq_getElem hi, hall _ (List.getElem_mem hi)⟩⟩

theorem goodPick_of_count_zero (hzero : healthyIndexCount upstreams = 0) {i : Nat}
    (hi : i < upstreams.length) : GoodPick upstreams i := by
  refine ⟨hi, fun ⟨u, hu, hh⟩ => ?_⟩
  have hnot := List.countP_eq_zero.mp hzero u hu
  rw [hh] at hnot
  exact absurd rfl hnot

theorem goodPick_pickNthAvailableIndex (hne : upstreams ≠ []) (nth : Nat) :
    GoodPick upstreams (pickNthAvailableIndex upstreams nth) :=
  pickNthAvailableIndex_spec hne nth

theorem goodPick_firstAvailableIndex (hne : upstreams ≠ []) :
    GoodPick upstreams (firstAvailableIndex upstreams) :=
  goodPick_of_mem_availableIndices (List.mem_of_mem_head? (firstAvailableIndex_eq_head? hne))

/-- With draws in range, the random balancer returns a good index. -/
theorem goodPick_random {draw : Nat → Nat} (hdraw : ∀ k, 0 < k → draw k < k)
    (hne : upstreams ≠ []) : GoodPick upstreams (LoadBalanceRandom.getPtr draw upstreams).ptr := by
  have hlen : 0 < upstreams.length := List.length_pos_iff.mpr hne
  unfold LoadBalanceRandom.getPtr
  dsimp only
  rw [if_neg (by omega)]
  split
  · next hnone => exact goodPick_of_forall (forall_isHealthy_of_not_any hnone) (hdraw _ hlen)
  · split
    · next hcase =>
      rcases hcase with hall | hzero
      · exact goodPick_of_forall (forall_isHealthy_of_count hall) (hdraw _ hlen)
      · exact goodPick_of_count_zero hzero (hdraw _ hlen)
    · exact goodPick_pickNthAvailableIndex hne _

/-- For every strategy, `get_context` returns a good index of a non-empty group that fits the
balancer, and the first available index for the fixed and primary/backup strategies. -/
theorem getContext_spec {draw : Nat → Nat} (hdraw : ∀ k, 0 < k → draw k < k)
    (hne : upstreams ≠ []) {lb : LoadBalance} (hfit : lb.FitsGroup upstreams) (now : Int)
    (contextToLb : Option LoadBalanceContext) :
    ∃ p lb', lb.getContext draw now contextToLb upstreams = some (p, lb') ∧
      GoodPick upstreams p.ptr ∧
      ((lb = .fixToFirst ∨ lb = .primaryBackup) → (availableIndices upstreams).head? = some p.ptr) := by
  cases lb with
  | fixToFirst =>
    exact ⟨_, _, rfl, goodPick_firstAvailableIndex hne, fun _ => firstAvailableIndex_eq_head? hne⟩
  | random =>
    refine ⟨_, _, rfl, goodPick_random hdraw hne, ?_⟩
    rintro (h | h) <;> cases h
  | roundRobin lb =>
    refine ⟨_, _, rfl, goodPick_pickNthAvailableIndex hne _, ?_⟩
    rintro (h | h) <;> cases h
  | stickyRoundRobin lb =>
    obtain ⟨p, lb', hp, hgood⟩ := (LoadBalanceSticky.getPtr_spec hfit hne contextToLb :
      ∃ p lb', lb.getPtr now contextToLb upstreams = some (p, lb') ∧ _)
    refine ⟨p, .stickyRoundRobin lb', by rw [LoadBalance.getContext, hp]; rfl, hgood, ?_⟩
    rintro (h | h) <;> cases h
  | primaryBackup =>
    exact ⟨_, _, rfl, goodPick_firstAvailableIndex hne, fun _ => firstAvailableIndex_eq_head? hne⟩

end Pick

/-! ### Runs of the round-robin balancers -/

/-- What `m` successive picks `picks` of a round robin over a group give: each a good index,
consecutive ones next to each other in the cyclic order of the available indices, and each
available index picked `⌊m / h⌋` or `⌈m / h⌉` times, for `h` of them. -/
structure FairPicks (upstreams : List Upstream) (m : Nat) (picks : List Nat) : Prop where
  /-- There are `m` picks. -/
  length_eq : picks.length = m
  /-- Every pick is a good index. -/
  good : ∀ i ∈ picks, GoodPick upstreams i
  /-- Consecutive picks are consecutive available indices, cyclically. -/
  cyclic : ∀ k i i', picks[k]? = some i → picks[k + 1]? = some i' →
    ∃ j, (availableIndices upstreams)[j]? = some i ∧
      (availableIndices upstreams)[(j + 1) % (availableIndices upstreams).length]? = some i'
  /-- Each available index is picked `⌊m / h⌋` or `⌈m / h⌉` times. -/
  count : ∀ i ∈ availableIndices upstreams,
    picks.count i = m / (availableIndices upstreams).length ∨
      (0 < m % (availableIndices upstreams).length ∧
        picks.count i = m / (availableIndices upstreams).length + 1)

/-- An index is available exactly when it is of a healthy upstream, or of any upstream when none
is healthy. -/
theorem mem_availableIndices_iff {upstreams : List Upstream} {i : Nat} :
    i ∈ availableIndices upstreams ↔
      if ∃ u ∈ upstreams, u.isHealthy = true then ∃ u, upstreams[i]? = some u ∧ u.isHealthy = true
      else i < upstreams.length := by
  have hcount : healthyIndexCount upstreams = 0 ↔ ¬∃ u ∈ upstreams, u.isHealthy = true := by
    rw [healthyIndexCount, List.countP_eq_zero]
    simp
  unfold availableIndices
  by_cases hh : ∃ u ∈ upstreams, u.isHealthy = true
  · rw [if_neg (fun h => hcount.mp h hh), if_pos hh]
    exact mem_healthyIndices
  · rw [if_pos (hcount.mpr hh), if_neg hh]
    exact List.mem_range

/-- The picks of the counters `c, …, c + m - 1` are fair. -/
theorem fairPicks_range' {upstreams : List Upstream} (hne : upstreams ≠ []) (c m : Nat) :
    FairPicks upstreams m ((List.range' c m).map (pickNthAvailableIndex upstreams)) := by
  have hpick := cyclicPick_availableIndices hne
  refine ⟨by simp, ?_, ?_, ?_⟩
  · intro i hi
    obtain ⟨n, -, rfl⟩ := List.mem_map.mp hi
    exact goodPick_pickNthAvailableIndex hne n
  · intro k i i' hk hk'
    have hlt : k + 1 < m := by
      by_contra hge
      rw [List.getElem?_map, List.getElem?_eq_none (by simp; omega)] at hk'
      cases hk'
    rw [List.getElem?_map, List.getElem?_range' (by omega)] at hk hk'
    cases hk
    cases hk'
    have hnext := cyclicPick_next hpick (c + 1 * k)
    rwa [show c + 1 * k + 1 = c + 1 * (k + 1) by omega] at hnext
  · intro i hi
    exact count_map_range' ((availableIndices_pairwise upstreams).imp Nat.ne_of_lt) hpick hi c m

theorem LoadBalanceRoundRobin.getPtr_of_lt {lb : LoadBalanceRoundRobin} (h : lb.ptr < usizeMax - 1)
    (upstreams : List Upstream) :
    (lb.getPtr upstreams).1 = ⟨pickNthAvailableIndex upstreams lb.ptr, none⟩ ∧
      (lb.getPtr upstreams).2.ptr = lb.ptr + 1 := by
  have hstep := fetchAndAdvanceCounter_of_lt (by omega : lb.ptr + 1 < usizeMax)
  unfold LoadBalanceRoundRobin.getPtr LoadBalanceRoundRobin.fetchAndAdvance
  rw [hstep]
  exact ⟨rfl, rfl⟩

theorem rrNextIndex_of_lt {lb : LoadBalanceSticky} (h : lb.ptr < usizeMax - 1)
    (upstreams : List Upstream) :
    (lb.rrNextIndex upstreams).1 = pickNthAvailableIndex upstreams lb.ptr ∧
      (lb.rrNextIndex upstreams).2.ptr = lb.ptr + 1 := by
  have hstep := fetchAndAdvanceCounter_of_lt (by omega : lb.ptr + 1 < usizeMax)
  unfold LoadBalanceSticky.rrNextIndex LoadBalanceSticky.fetchAndAdvance
  rw [hstep]
  exact ⟨rfl, rfl⟩

/-- `m` round-robin calls from a counter that stays below `usize::MAX - 1` pick the counters in
turn. -/
theorem roundRobin_run (upstreams : List Upstream) (lb : LoadBalanceRoundRobin) (m : Nat)
    (h : lb.ptr + m ≤ usizeMax - 1) :
    (runSteps (fun lb => lb.getPtr upstreams) lb m).1.map PointerToUpstream.ptr =
        (List.range' lb.ptr m).map (pickNthAvailableIndex upstreams) ∧
      (runSteps (fun lb => lb.getPtr upstreams) lb m).2.ptr = lb.ptr + m := by
  obtain ⟨hrun, hctr⟩ := @runSteps_counter _ _ (fun lb => lb.getPtr upstreams)
    LoadBalanceRoundRobin.ptr (fun n => ⟨pickNthAvailableIndex upstreams n, none⟩) (usizeMax - 1)
    (fun _ hs => LoadBalanceRoundRobin.getPtr_of_lt hs upstreams) m lb h
  refine ⟨?_, hctr⟩
  rw [hrun, List.map_map]
  rfl

/-- The same for the sticky balancer's `rr_next_index`. -/
theorem rrNextIndex_run (upstreams : List Upstream) (lb : LoadBalanceSticky) (m : Nat)
    (h : lb.ptr + m ≤ usizeMax - 1) :
    (runSteps (fun lb => lb.rrNextIndex upstreams) lb m).1 =
        (List.range' lb.ptr m).map (pickNthAvailableIndex upstreams) ∧
      (runSteps (fun lb => lb.rrNextIndex upstreams) lb m).2.ptr = lb.ptr + m :=
  @runSteps_counter _ _ (fun lb => lb.rrNextIndex upstreams) LoadBalanceSticky.ptr
    (pickNthAvailableIndex upstreams) (usizeMax - 1) (fun _ hs => rrNextIndex_of_lt hs upstreams) m lb h

/-- Round-robin fairness over the available indices, for both round-robin balancers; the bound
of a pick whatever the health flags do during it; and what `get_context` returns for every
strategy. -/
theorem round_robin_fairness {upstreams : List Upstream} (hne : upstreams ≠ []) :
    (∀ i, i ∈ availableIndices upstreams ↔
      if ∃ u ∈ upstreams, u.isHealthy = true then ∃ u, upstreams[i]? = some u ∧ u.isHealthy = true
      else i < upstreams.length) ∧
    (availableIndices upstreams).Pairwise (· < ·) ∧
    (∀ (lb : LoadBalanceRoundRobin) (m : Nat), lb.ptr + m < usizeMax - 1 →
      FairPicks upstreams m
        ((runSteps (fun lb => lb.getPtr upstreams) lb m).1.map PointerToUpstream.ptr)) ∧
    (∀ (lb : LoadBalanceSticky) (m : Nat), lb.ptr + m < usizeMax - 1 →
      FairPicks upstreams m (runSteps (fun lb => lb.rrNextIndex upstreams) lb m).1) ∧
    (∀ scanned : List Upstream, scanned.length = upstreams.length → ∀ nth,
      pickNthAvailableIndexRacy upstreams scanned nth < upstreams.length) ∧
    ∀ draw : Nat → Nat, (∀ k, 0 < k → draw k < k) → ∀ lb : LoadBalance, lb.FitsGroup upstreams →
      ∀ (now : Int) (contextToLb : Option LoadBalanceContext), ∃ p lb',
        lb.getContext draw now contextToLb upstreams = some (p, lb') ∧ GoodPick upstreams p.ptr ∧
        ((lb = .fixToFirst ∨ lb = .primaryBackup) →
          (availableIndices upstreams).head? = some p.ptr) := by
  refine ⟨fun _ => mem_availableIndices_iff, availableIndices_pairwise upstreams, ?_, ?_,
    fun _ hlen nth => pickNthAvailableIndexRacy_lt hlen hne nth,
    fun _ hdraw _ hfit now contextToLb => getContext_spec hdraw hne hfit now contextToLb⟩
  · intro lb m hm
    rw [(roundRobin_run upstreams lb m (by omega)).1]
    exact fairPicks_range' hne lb.ptr m
  · intro lb m hm
    rw [(rrNextIndex_run upstreams lb m (by omega)).1]
    exact fairPicks_range' hne lb.ptr m

/-- Three upstreams, the second one down: four calls from the counter `0` go to `0, 2, 0, 2`. -/
theorem round_robin_fairness_one_down :
    (runSteps (fun lb : LoadBalanceRoundRobin => lb.getPtr [⟨"http://a".toList, some true⟩,
        ⟨"http://b".toList, some false⟩, ⟨"http://c".toList, some true⟩]) ⟨0⟩ 4).1.map
        PointerToUpstream.ptr = [0, 2, 0, 2] ∧
      FairPicks [⟨"http://a".toList, some true⟩, ⟨"http://b".toList, some false⟩,
        ⟨"http://c".toList, some true⟩] 4 [0, 2, 0, 2] := by
  have hrun : (runSteps (fun lb : LoadBalanceRoundRobin => lb.getPtr [⟨"http://a".toList, some true⟩,
      ⟨"http://b".toList, some false⟩, ⟨"http://c".toList, some true⟩]) ⟨0⟩ 4).1.map
      PointerToUpstream.ptr = [0, 2, 0, 2] := by
    decide
  refine ⟨hrun, ?_⟩
  rw [← hrun]
  exact (round_robin_fairness (by decide)).2.2.1 ⟨0⟩ 4 (by decide)

end Rpxy.Balancers
