import Rpxy.StickyCookies
import Rpxy.Rotation
import Rpxy.RustUsize

/-!
# Picking an upstream

The helpers of `load_balance_main.rs` that every strategy shares, with the `health-check`
feature: whether an upstream is healthy, the first healthy one, `pick_nth_available_index`
(the `nth` healthy upstream modulo their number, or any upstream when none or all are
healthy), and `first_available_index`; also the counter step of the round-robin strategies and
the pointer a strategy returns.

An upstream is modelled by its URI and the current value of its health flag, `none` when its
group has no health check. The flags are atomics that the health checker writes while a pick
reads them, and `pick_nth_available_index` reads them twice: to count, then to scan.
`pickNthAvailableIndexRacy` lets the two reads see different flags.

The main results: a pick is `cyclicPick` over the available indices (the healthy ones, or all
when none is healthy), and it is in range whatever the flags do between the two reads.
-/

namespace Rpxy.LoadBalancePick

open StickyCookies RustUsize Rotation

/-- `Upstream`, by what the balancers read. -/
structure Upstream where
  /-- The URI, as `Display` prints it. -/
  uri : List Char
  /-- The health flag shared with the health checker; `none` without a health check. -/
  health : Option Bool
  deriving DecidableEq, Repr

/-- `Upstream::is_healthy`: an upstream without a health check counts as healthy. -/
def Upstream.isHealthy (u : Upstream) : Bool := u.health.getD true

/-- `Upstream::has_health_state`. -/
def Upstream.hasHealthState (u : Upstream) : Bool := u.health.isSome

/-- `first_healthy_index`. -/
def firstHealthyIndex (upstreams : List Upstream) : Option Nat :=
  upstreams.findIdx? Upstream.isHealthy

/-- `healthy_index_count`. -/
def healthyIndexCount (upstreams : List Upstream) : Nat := upstreams.countP Upstream.isHealthy

/-- `pick_nth_available_index`, where the count reads the flags of `counted` and the scan for the
chosen healthy upstream reads those of `scanned`. -/
def pickNthAvailableIndexRacy (counted scanned : List Upstream) (nth : Nat) : Nat :=
  let len := counted.length
  if len = 0 then 0
  else if !counted.any Upstream.hasHealthState then nth % len
  else
    let healthyCount := healthyIndexCount counted
    if healthyCount = len then nth % len
    else if healthyCount = 0 then nth % len
    else
      let target := nth % healthyCount
      (((scanned.zipIdx.filter fun p => p.1.isHealthy)[target]?).map Prod.snd).getD (nth % len)

/-- `pick_nth_available_index`, both reads seeing the same flags. -/
def pickNthAvailableIndex (upstreams : List Upstream) (nth : Nat) : Nat :=
  pickNthAvailableIndexRacy upstreams upstreams nth

/-- `first_available_index`. -/
def firstAvailableIndex (upstreams : List Upstream) : Nat :=
  if upstreams.isEmpty then 0
  else if !upstreams.any Upstream.hasHealthState then 0
  else (firstHealthyIndex upstreams).getD 0

/-- `LoadBalanceContext`, with the `sticky-cookie` feature. -/
structure LoadBalanceContext where
  /-- `sticky_cookie`. -/
  stickyCookie : StickyCookie
  deriving DecidableEq, Repr

/-- `PointerToUpstream`: the chosen index, and a new cookie context when one is to be set. -/
structure PointerToUpstream where
  /-- `ptr`, the chosen index. -/
  ptr : Nat
  /-- `context`, the cookie context to set, if any. -/
  context : Option LoadBalanceContext
  deriving DecidableEq, Repr

/-- The counter step of `fetch_and_advance`, the same in both round-robin strategies:
`fetch_add(1)` wraps, and a previous value at or past `usize::MAX - 1` stores zero. Returns the
previous value and the stored one. -/
def fetchAndAdvanceCounter (prev : Nat) : Nat × Nat :=
  (prev, if prev ≥ usizeMax - 1 then 0 else (prev + 1) % (usizeMax + 1))

/-- The indices of the healthy upstreams, in order. -/
def healthyIndices (upstreams : List Upstream) : List Nat :=
  (upstreams.zipIdx.filter fun p => p.1.isHealthy).map Prod.snd

/-- The indices a pick chooses among: the healthy ones, or all of them when none is healthy. -/
def availableIndices (upstreams : List Upstream) : List Nat :=
  if healthyIndexCount upstreams = 0 then List.range upstreams.length else healthyIndices upstreams

/-! ### The counter -/

theorem fetchAndAdvanceCounter_of_lt {prev : Nat} (h : prev + 1 < usizeMax) :
    fetchAndAdvanceCounter prev = (prev, prev + 1) := by
  unfold fetchAndAdvanceCounter usizeMax at *
  rw [if_neg (by omega), Nat.mod_eq_of_lt (by omega)]

/-! ### The healthy indices -/

theorem length_healthyIndices (upstreams : List Upstream) :
    (healthyIndices upstreams).length = healthyIndexCount upstreams := by
  rw [healthyIndices, List.length_map, ← List.countP_eq_length_filter, healthyIndexCount]
  conv_rhs => rw [← List.zipIdx_map_fst 0 upstreams]
  rw [List.countP_map]
  rfl

theorem mem_healthyIndices {upstreams : List Upstream} {i : Nat} :
    i ∈ healthyIndices upstreams ↔ ∃ u, upstreams[i]? = some u ∧ u.isHealthy = true := by
  simp only [healthyIndices, List.mem_map, List.mem_filter, List.mem_zipIdx_iff_getElem?]
  constructor
  · rintro ⟨⟨u, j⟩, ⟨hj, hu⟩, rfl⟩
    exact ⟨u, hj, hu⟩
  · rintro ⟨u, hi, hu⟩
    exact ⟨(u, i), ⟨hi, hu⟩, rfl⟩

/-- The healthy indices increase strictly. -/
theorem healthyIndices_pairwise (upstreams : List Upstream) :
    (healthyIndices upstreams).Pairwise (· < ·) := by
  have hsub : List.Sublist (healthyIndices upstreams) (List.range upstreams.length) := by
    rw [healthyIndices, List.range_eq_range', ← List.zipIdx_map_snd 0 upstreams]
    exact List.Sublist.map Prod.snd List.filter_sublist
  exact (List.pairwise_lt_range).sublist hsub

theorem healthyIndices_of_forall {upstreams : List Upstream}
    (h : ∀ u ∈ upstreams, u.isHealthy = true) :
    healthyIndices upstreams = List.range upstreams.length := by
  have hall : upstreams.zipIdx.filter (fun p => p.1.isHealthy) = upstreams.zipIdx :=
    List.filter_eq_self.mpr fun p hp => h p.1 (List.fst_mem_of_mem_zipIdx hp)
  rw [healthyIndices, hall, List.zipIdx_map_snd, List.range_eq_range']

/-- The first healthy index, found from position `k` on. -/
theorem head?_healthyIndices_zipIdx (upstreams : List Upstream) (k : Nat) :
    (((upstreams.zipIdx k).filter fun p => p.1.isHealthy).map Prod.snd).head? =
      (upstreams.findIdx? Upstream.isHealthy).map (· + k) := by
  induction upstreams generalizing k with
  | nil => rfl
  | cons u rest ih =>
    rw [List.zipIdx_cons, List.filter_cons, List.findIdx?_cons]
    cases hu : u.isHealthy
    · simp only [Bool.false_eq_true, if_false, ih (k + 1), Option.map_map]
      congr 1
      funext i
      simp only [Function.comp]
      omega
    · simp

/-! ### The available indices -/

theorem mem_availableIndices {upstreams : List Upstream} {i : Nat} (hi : i ∈ availableIndices upstreams) :
    i < upstreams.length := by
  unfold availableIndices at hi
  split at hi
  · exact List.mem_range.mp hi
  · obtain ⟨u, hu, -⟩ := mem_healthyIndices.mp hi
    exact (List.getElem?_eq_some_iff.mp hu).1

theorem availableIndices_pairwise (upstreams : List Upstream) :
    (availableIndices upstreams).Pairwise (· < ·) := by
  unfold availableIndices
  split
  · exact List.pairwise_lt_range
  · exact healthyIndices_pairwise upstreams

theorem availableIndices_ne_nil {upstreams : List Upstream} (hne : upstreams ≠ []) :
    availableIndices upstreams ≠ [] := by
  unfold availableIndices
  split
  · simpa [List.range_eq_nil] using hne
  · next h =>
    rw [← List.length_pos_iff, length_healthyIndices]
    omega

/-- Some upstream being healthy, every available index is of a healthy one. -/
theorem isHealthy_of_mem_availableIndices {upstreams : List Upstream}
    (hh : ∃ u ∈ upstreams, u.isHealthy = true) {i : Nat} (hi : i ∈ availableIndices upstreams) :
    ∃ u, upstreams[i]? = some u ∧ u.isHealthy = true := by
  have hcount : healthyIndexCount upstreams ≠ 0 := by
    obtain ⟨u, hu, hh⟩ := hh
    exact (List.countP_pos_iff.mpr ⟨u, hu, hh⟩).ne'
  rw [availableIndices, if_neg hcount] at hi
  exact mem_healthyIndices.mp hi

/-! ### The pick -/

theorem forall_isHealthy_of_not_any {upstreams : List Upstream}
    (h : (!upstreams.any Upstream.hasHealthState) = true) : ∀ u ∈ upstreams, u.isHealthy = true := by
  intro u hu
  have hnone : u.hasHealthState = false := by
    simp only [Bool.not_eq_true', List.any_eq_false] at h
    simpa using h u hu
  simp only [Upstream.hasHealthState, Option.isSome_eq_false_iff, Option.isNone_iff_eq_none] at hnone
  simp [Upstream.isHealthy, hnone]

theorem forall_isHealthy_of_count {upstreams : List Upstream}
    (h : healthyIndexCount upstreams = upstreams.length) : ∀ u ∈ upstreams, u.isHealthy = true :=
  List.countP_eq_length.mp h

theorem cyclicPick_range {n len : Nat} (hlen : 0 < len) :
    cyclicPick (List.range len) n = some (n % len) := by
  rw [cyclicPick, List.length_range, List.getElem?_range (Nat.mod_lt _ hlen)]

/-- `pick_nth_available_index` is the cyclic pick over the available indices. -/
theorem cyclicPick_availableIndices {upstreams : List Upstream} (hne : upstreams ≠ []) (nth : Nat) :
    cyclicPick (availableIndices upstreams) nth = some (pickNthAvailableIndex upstreams nth) := by
  have hlen : 0 < upstreams.length := List.length_pos_iff.mpr hne
  have hall : (∀ u ∈ upstreams, u.isHealthy = true) →
      cyclicPick (availableIndices upstreams) nth = some (nth % upstreams.length) := by
    intro hall
    have hcount : healthyIndexCount upstreams = upstreams.length := List.countP_eq_length.mpr hall
    rw [availableIndices, if_neg (by omega), healthyIndices_of_forall hall, cyclicPick_range hlen]
  unfold pickNthAvailableIndex pickNthAvailableIndexRacy
  dsimp only
  rw [if_neg (by omega)]
  split
  · next hnone => exact hall (forall_isHealthy_of_not_any hnone)
  · split
    · next hcount => exact hall (forall_isHealthy_of_count hcount)
    · split
      · next hzero =>
        rw [availableIndices, if_pos hzero, cyclicPick_range hlen]
      · next hsome hzero =>
        have htarget : nth % healthyIndexCount upstreams < (healthyIndices upstreams).length := by
          rw [length_healthyIndices]
          exact Nat.mod_lt _ (by omega)
        have hmap : ((upstreams.zipIdx.filter fun p => p.1.isHealthy)[nth %
            healthyIndexCount upstreams]?).map Prod.snd =
            (healthyIndices upstreams)[nth % healthyIndexCount upstreams]? :=
          (List.getElem?_map ..).symm
        rw [availableIndices, if_neg hzero, cyclicPick, length_healthyIndices, hmap,
          List.getElem?_eq_getElem htarget]
        rfl

/-- The pick is in range, and healthy whenever some upstream is. -/
theorem pickNthAvailableIndex_spec {upstreams : List Upstream} (hne : upstreams ≠ []) (nth : Nat) :
    pickNthAvailableIndex upstreams nth < upstreams.length ∧
      ((∃ u ∈ upstreams, u.isHealthy = true) →
        ∃ u, upstreams[pickNthAvailableIndex upstreams nth]? = some u ∧ u.isHealthy = true) := by
  have hmem : pickNthAvailableIndex upstreams nth ∈ availableIndices upstreams := by
    obtain ⟨x, hx, hpick⟩ := cyclicPick_mem (availableIndices_ne_nil hne) nth
    rw [cyclicPick_availableIndices hne, Option.some.injEq] at hpick
    exact hpick ▸ hx
  exact ⟨mem_availableIndices hmem, fun hh => isHealthy_of_mem_availableIndices hh hmem⟩

/-- Whatever the flags read by the scan, the pick is an index of the list. -/
theorem pickNthAvailableIndexRacy_lt {counted scanned : List Upstream}
    (hlen : scanned.length = counted.length) (hne : counted ≠ []) (nth : Nat) :
    pickNthAvailableIndexRacy counted scanned nth < counted.length := by
  have hpos : 0 < counted.length := List.length_pos_iff.mpr hne
  have hmod : nth % counted.length < counted.length := Nat.mod_lt _ hpos
  unfold pickNthAvailableIndexRacy
  dsimp only
  rw [if_neg (by omega)]
  split
  · exact hmod
  · split
    · exact hmod
    · split
      · exact hmod
      · cases hscan : (scanned.zipIdx.filter fun p => p.1.isHealthy)[nth % healthyIndexCount counted]? with
        | none => exact hmod
        | some p =>
          have hp : p ∈ scanned.zipIdx := List.mem_of_mem_filter (List.mem_of_getElem? hscan)
          have hlt := (List.mem_zipIdx' (x := p.1) (i := p.2) hp).1
          simp only [Option.map_some, Option.getD_some]
          omega

/-- `first_available_index` is the first available index. -/
theorem firstAvailableIndex_eq_head? {upstreams : List Upstream} (hne : upstreams ≠ []) :
    (availableIndices upstreams).head? = some (firstAvailableIndex upstreams) := by
  have hlen : 0 < upstreams.length := List.length_pos_iff.mpr hne
  have hrange : (List.range upstreams.length).head? = some 0 := by
    rw [List.head?_range, if_neg (by omega)]
  have hall : (∀ u ∈ upstreams, u.isHealthy = true) →
      (availableIndices upstreams).head? = some 0 := by
    intro hall
    have hcount : healthyIndexCount upstreams = upstreams.length := List.countP_eq_length.mpr hall
    rw [availableIndices, if_neg (by omega), healthyIndices_of_forall hall, hrange]
  unfold firstAvailableIndex
  rw [if_neg (by simpa using hne)]
  split
  · next hnone => exact hall (forall_isHealthy_of_not_any hnone)
  · have hhead := head?_healthyIndices_zipIdx upstreams 0
    rw [firstHealthyIndex]
    unfold availableIndices
    split
    · next hzero =>
      have hnone : upstreams.findIdx? Upstream.isHealthy = none := by
        rw [List.findIdx?_eq_none_iff]
        intro u hu
        have := List.countP_eq_zero.mp hzero u hu
        simpa using this
      rw [hnone, hrange]
      rfl
    · next hzero =>
      have hsome : (upstreams.findIdx? Upstream.isHealthy).isSome := by
        rw [List.findIdx?_isSome, List.any_eq_true]
        obtain ⟨u, hu, hh⟩ := List.countP_pos_iff.mp (Nat.pos_of_ne_zero hzero)
        exact ⟨u, hu, hh⟩
      obtain ⟨i, hi⟩ := Option.isSome_iff_exists.mp hsome
      show (((upstreams.zipIdx 0).filter fun p => p.1.isHealthy).map Prod.snd).head? = _
      rw [hhead, hi]
      rfl

end Rpxy.LoadBalancePick
