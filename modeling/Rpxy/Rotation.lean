import Mathlib.Data.Int.CardIntervalMod
import Mathlib.Data.List.Nodup

/-!
# Cyclic picks by a counter

A counter `n` picks the element at position `n % h` of a list of length `h`. Consecutive
counters walk the list cyclically, and over any `m` consecutive counters each element of a list
without duplicates is picked `⌊m / h⌋` or `⌈m / h⌉` times. A round-robin scheduler is this pick
over the list of its eligible choices.

A run of `m` calls of a stateful step (`runSteps`) whose step returns a function of a counter and
advances it returns that function over `m` consecutive counters (`runSteps_counter`).
-/

namespace Rpxy.Rotation

variable {α β σ : Type}

/-- The element that the counter `n` picks. -/
def cyclicPick (E : List α) (n : Nat) : Option α := E[n % E.length]?

theorem cyclicPick_mem {E : List α} (hE : E ≠ []) (n : Nat) : ∃ x ∈ E, cyclicPick E n = some x := by
  have hlen : n % E.length < E.length := Nat.mod_lt _ (List.length_pos_iff.mpr hE)
  exact ⟨E[n % E.length], List.getElem_mem hlen, List.getElem?_eq_getElem hlen⟩

/-- The next counter picks the next element, the first after the last. -/
theorem cyclicPick_succ (E : List α) (n : Nat) :
    cyclicPick E (n + 1) = E[(n % E.length + 1) % E.length]? := by
  rw [cyclicPick, Nat.add_mod]
  rcases Nat.lt_or_ge 1 E.length with h | h
  · rw [Nat.mod_eq_of_lt h]
  · have hcases : E.length = 0 ∨ E.length = 1 := by omega
    rcases hcases with h0 | h1
    · simp [h0]
    · simp [h1]

/-- Over a list without duplicates, a counter picks `x` exactly when its residue is the
position of `x`. -/
theorem cyclicPick_eq_some_iff [DecidableEq α] {E : List α} (hnd : E.Nodup) {x : α} (hx : x ∈ E)
    (n : Nat) : cyclicPick E n = some x ↔ n % E.length = E.idxOf x := by
  have hlen : n % E.length < E.length := Nat.mod_lt _ (List.length_pos_of_mem hx)
  constructor
  · intro h
    have hget : E[n % E.length] = x := by
      rw [cyclicPick, List.getElem?_eq_getElem hlen] at h
      exact Option.some.inj h
    have hidx : E.idxOf x < E.length := List.idxOf_lt_length_iff.mpr hx
    have hsame : E[n % E.length] = E[E.idxOf x] := by rw [hget, List.getElem_idxOf]
    exact (hnd.getElem_inj_iff).mp hsame
  · intro h
    rw [cyclicPick, h]
    exact List.getElem?_idxOf hx

/-- Shifting by `c` moves the residue `k` to `(k + h - c % h) % h`. -/
theorem add_mod_eq_iff {h k : Nat} (hk : k < h) (c j : Nat) :
    (c + j) % h = k ↔ j ≡ (k + h - c % h) % h [MOD h] := by
  have hc : c % h < h := Nat.mod_lt _ (by omega)
  have hshift : c + (k + h - c % h) % h ≡ k [MOD h] := by
    calc c + (k + h - c % h) % h ≡ c % h + (k + h - c % h) [MOD h] :=
          Nat.ModEq.add (Nat.mod_modEq c h).symm (Nat.mod_modEq _ h)
      _ = k + h := by omega
      _ ≡ k [MOD h] := by simp [Nat.ModEq]
  have hk' : k % h = k := Nat.mod_eq_of_lt hk
  constructor
  · intro hj
    have hjk : c + j ≡ c + (k + h - c % h) % h [MOD h] := by
      have : c + j ≡ k [MOD h] := by rw [Nat.ModEq, hj, hk']
      exact this.trans hshift.symm
    exact Nat.ModEq.add_left_cancel' c hjk
  · intro hj
    have : c + j ≡ k [MOD h] := (Nat.ModEq.add_left c hj).trans hshift
    rw [Nat.ModEq, hk'] at this
    exact this

/-- Among `m` consecutive numbers from `c`, those of residue `k` modulo `h`. -/
theorem countP_range'_mod {h k : Nat} (hk : k < h) (c m : Nat) :
    (List.range' c m).countP (fun n => n % h = k) =
      m / h + if (k + h - c % h) % h < m % h then 1 else 0 := by
  have hh : 0 < h := by omega
  have hd : (k + h - c % h) % h % h = (k + h - c % h) % h := Nat.mod_mod _ _
  rw [List.range'_eq_map_range, List.countP_map]
  have hcongr : (List.range m).countP ((fun n => decide (n % h = k)) ∘ (c + ·)) =
      Nat.count (fun j => j ≡ (k + h - c % h) % h [MOD h]) m := by
    rw [Nat.count]
    exact List.countP_congr fun j _ => by simpa using add_mod_eq_iff hk c j
  rw [hcongr, Nat.count_modEq_card m hh, hd]

/-- Among `m` consecutive numbers, each residue modulo `h` occurs `⌊m / h⌋` times, or
`⌊m / h⌋ + 1 = ⌈m / h⌉` times when `h` does not divide `m`. -/
theorem countP_range'_mod_floor_ceil {h k : Nat} (hk : k < h) (c m : Nat) :
    (List.range' c m).countP (fun n => n % h = k) = m / h ∨
      (0 < m % h ∧ (List.range' c m).countP (fun n => n % h = k) = m / h + 1) := by
  rw [countP_range'_mod hk]
  split
  · exact .inr ⟨by omega, rfl⟩
  · exact .inl (Nat.add_zero _)

/-- Over `m` consecutive counters, each element of a list without duplicates of length `h` is
picked `⌊m / h⌋` or `⌈m / h⌉` times. -/
theorem count_cyclicPick [DecidableEq α] {E : List α} (hnd : E.Nodup) {x : α} (hx : x ∈ E)
    (c m : Nat) :
    ((List.range' c m).map (cyclicPick E)).count (some x) = m / E.length ∨
      (0 < m % E.length ∧
        ((List.range' c m).map (cyclicPick E)).count (some x) = m / E.length + 1) := by
  have hidx : E.idxOf x < E.length := List.idxOf_lt_length_iff.mpr hx
  have hcount : ((List.range' c m).map (cyclicPick E)).count (some x) =
      (List.range' c m).countP (fun n => n % E.length = E.idxOf x) := by
    rw [List.count, List.countP_map]
    exact List.countP_congr fun n _ => by simpa using cyclicPick_eq_some_iff hnd hx n
  rw [hcount]
  exact countP_range'_mod_floor_ceil hidx c m

/-- A function of the counter that the cyclic pick computes takes the element after its value at
`n` at `n + 1`, the first after the last. -/
theorem cyclicPick_next {E : List α} {g : Nat → α} (hg : ∀ n, cyclicPick E n = some (g n))
    (n : Nat) : ∃ j, E[j]? = some (g n) ∧ E[(j + 1) % E.length]? = some (g (n + 1)) :=
  ⟨n % E.length, hg n, by rw [← cyclicPick_succ, hg]⟩

/-- Over `m` consecutive counters, a function of the counter that the cyclic pick computes takes
each element of a list without duplicates `⌊m / h⌋` or `⌈m / h⌉` times. -/
theorem count_map_range' [DecidableEq α] {E : List α} (hnd : E.Nodup) {g : Nat → α}
    (hg : ∀ n, cyclicPick E n = some (g n)) {x : α} (hx : x ∈ E) (c m : Nat) :
    ((List.range' c m).map g).count x = m / E.length ∨
      (0 < m % E.length ∧ ((List.range' c m).map g).count x = m / E.length + 1) := by
  have hmap : (List.range' c m).map (cyclicPick E) = ((List.range' c m).map g).map some := by
    rw [List.map_map]
    exact List.map_congr_left fun n _ => hg n
  have hcount : ((List.range' c m).map g).count x =
      ((List.range' c m).map (cyclicPick E)).count (some x) := by
    rw [hmap, List.count_map_of_injective _ _ (Option.some_injective _)]
  rw [hcount]
  exact count_cyclicPick hnd hx c m

/-! ### Runs of a counter -/

/-- `m` successive calls of a step on a state: the results in order, and the state after. -/
def runSteps (step : σ → β × σ) : σ → Nat → List β × σ
  | s, 0 => ([], s)
  | s, m + 1 => ((step s).1 :: (runSteps step (step s).2 m).1, (runSteps step (step s).2 m).2)

/-- A step that, below `bound`, returns `f` of its counter and advances the counter by one
returns `f` over the `m` counters from the start, and advances the counter by `m`. -/
theorem runSteps_counter {step : σ → β × σ} {ctr : σ → Nat} {f : Nat → β} {bound : Nat}
    (hstep : ∀ s, ctr s < bound → (step s).1 = f (ctr s) ∧ ctr (step s).2 = ctr s + 1) :
    ∀ (m : Nat) (s : σ), ctr s + m ≤ bound →
      (runSteps step s m).1 = (List.range' (ctr s) m).map f ∧
        ctr (runSteps step s m).2 = ctr s + m := by
  intro m
  induction m with
  | zero => exact fun s _ => ⟨rfl, rfl⟩
  | succ m ih =>
    intro s hs
    obtain ⟨hout, hnext⟩ := hstep s (by omega)
    obtain ⟨hrest, hctr⟩ := ih (step s).2 (by omega)
    rw [hnext] at hrest hctr
    refine ⟨?_, ?_⟩
    · rw [runSteps, List.range'_succ, List.map_cons, hout, hrest]
    · rw [runSteps, hctr]
      omega

end Rpxy.Rotation
