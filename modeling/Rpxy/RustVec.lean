import Mathlib.Data.List.Perm.Basic
import Mathlib.Data.List.Nodup

/-!
# `Vec::swap_remove`

`swap_remove(i)` takes the element at `i` out of a vector by moving the last element into its
slot, so it keeps the elements but not their order: the result is a permutation of the vector
without its `i`-th element. In a vector whose elements have distinct keys, that is the vector
without the element of the key at `i`.
-/

namespace Rpxy.RustVec

variable {α : Type}

/-- `Vec::swap_remove` at an index in bounds: the last element takes the place of the `i`-th. -/
def swapRemove (l : List α) (i : Nat) : List α :=
  match l.getLast? with
  | none => l
  | some last => (l.set i last).dropLast

theorem set_perm_eraseIdx (l : List α) {i : Nat} (hi : i < l.length) (x : α) :
    (l.set i x).Perm (l.eraseIdx i ++ [x]) := by
  rw [List.set_eq_take_append_cons_drop, if_pos hi, List.eraseIdx_eq_take_drop_succ]
  exact List.perm_middle.trans (List.perm_append_singleton x _).symm

/-- Removing with `swap_remove` is removing the element, up to order. -/
theorem swapRemove_perm {l : List α} {i : Nat} (hi : i < l.length) : (swapRemove l i).Perm (l.eraseIdx i) := by
  obtain ⟨init, last, rfl⟩ : ∃ init last, l = init ++ [last] :=
    ⟨l.dropLast, l.getLast (List.ne_nil_of_length_pos (by omega)), (List.dropLast_append_getLast _).symm⟩
  rw [swapRemove, List.getLast?_concat]
  dsimp only
  rcases Nat.lt_or_ge i init.length with hlt | hge
  · rw [List.set_append_left _ _ hlt, List.dropLast_concat, List.eraseIdx_append_of_lt_length hlt]
    exact set_perm_eraseIdx init hlt last
  · have heq : i = init.length := by
      simp only [List.length_append, List.length_singleton] at hi
      omega
    subst heq
    rw [List.set_append_right _ _ (Nat.le_refl _), Nat.sub_self, List.set_cons_zero, List.dropLast_concat,
      List.eraseIdx_append_of_length_le (Nat.le_refl _), Nat.sub_self, List.eraseIdx_cons_zero, List.append_nil]

/-- At any index, `swap_remove` leaves a permutation of part of the vector. -/
theorem swapRemove_subperm (l : List α) (i : Nat) : ∃ l', (swapRemove l i).Perm l' ∧ l'.Sublist l := by
  by_cases hi : i < l.length
  · exact ⟨_, swapRemove_perm hi, List.eraseIdx_sublist l i⟩
  · refine ⟨l.dropLast, ?_, List.dropLast_sublist l⟩
    unfold swapRemove
    cases hl : l.getLast? with
    | none =>
      rw [List.getLast?_eq_none_iff.mp hl]
      rfl
    | some last =>
      dsimp only
      rw [List.set_eq_of_length_le (by omega)]

/-- In a list whose keys are distinct, taking out the element at `i` is taking out every element
with its key. -/
theorem eraseIdx_eq_filter {β : Type} [BEq β] [LawfulBEq β] {f : α → β} :
    ∀ {l : List α}, (l.map f).Nodup → ∀ {i : Nat} (hi : i < l.length),
      l.eraseIdx i = l.filter fun x => f x != f (l.get ⟨i, hi⟩)
  | [], _, _, hi => absurd hi (Nat.not_lt_zero _)
  | a :: l, hnd, 0, _ => by
    have hfresh : ∀ x ∈ l, f x ≠ f a := fun x hx he =>
      (List.nodup_cons.mp hnd).1 (he ▸ List.mem_map_of_mem hx)
    rw [List.eraseIdx_cons_zero, List.filter_cons_of_neg (by simp)]
    exact (List.filter_eq_self.mpr fun x hx => by simpa using hfresh x hx).symm
  | a :: l, hnd, i + 1, hi => by
    have hmem : l.get ⟨i, Nat.lt_of_succ_lt_succ hi⟩ ∈ l := List.get_mem _ _
    have hne : f a ≠ f (l.get ⟨i, Nat.lt_of_succ_lt_succ hi⟩) := fun he =>
      (List.nodup_cons.mp hnd).1 (he ▸ List.mem_map_of_mem hmem)
    rw [List.eraseIdx_cons_succ, List.filter_cons_of_pos (by simpa using hne)]
    exact congrArg (a :: ·) (eraseIdx_eq_filter (List.nodup_cons.mp hnd).2 _)

/-- In a list whose keys are distinct, `swap_remove` at the position of a key takes out exactly
the element with that key. -/
theorem swapRemove_perm_filter {β : Type} [BEq β] [LawfulBEq β] {f : α → β} {l : List α} (hnd : (l.map f).Nodup)
    {i : Nat} (hi : i < l.length) : (swapRemove l i).Perm (l.filter fun x => f x != f (l.get ⟨i, hi⟩)) := by
  rw [← eraseIdx_eq_filter hnd hi]
  exact swapRemove_perm hi

end Rpxy.RustVec
