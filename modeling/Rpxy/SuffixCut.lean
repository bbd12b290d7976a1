import Mathlib.Data.List.DropRight
import Mathlib.Data.List.Infix

/-!
# Cutting a list at its last failing element

`boundarySuffix p l` keeps the last element of `l` that fails `p` together with the run of
`p`-elements after it, and keeps all of `l` when no element fails. Read right to left it is
"walk back over elements that pass, stop at the first one that does not, and keep it".
The lemmas give its two shapes (`boundarySuffix_cases`), the facts a caller needs about
the result (a non-empty suffix with the same last element, a tail that passes, a head that
fails unless nothing was cut), when the cut changes nothing, what an element that passes does
at the end, and its index form, which a loop over positions computes.
-/

namespace Rpxy.SuffixCut

open List

variable {α : Type} (p : α → Bool)

/-- The last element failing `p` and the `p`-elements after it; `l` itself when every
element passes. -/
def boundarySuffix (l : List α) : List α :=
  (l.rdropWhile p).getLast?.toList ++ l.rtakeWhile p

variable {p}

theorem rdropWhile_append_of_forall (l : List α) {t : List α} (ht : ∀ y ∈ t, p y = true) :
    (l ++ t).rdropWhile p = l.rdropWhile p := by
  induction t using List.reverseRecOn with
  | nil => simp
  | append_singleton t y ih =>
    have hy : p y = true := ht y (by simp)
    rw [← List.append_assoc, rdropWhile_concat_pos _ _ _ hy]
    exact ih fun z hz => ht z (by simp [hz])

theorem rtakeWhile_append_of_forall (l : List α) {t : List α} (ht : ∀ y ∈ t, p y = true) :
    (l ++ t).rtakeWhile p = l.rtakeWhile p ++ t := by
  induction t using List.reverseRecOn with
  | nil => simp
  | append_singleton t y ih =>
    have hy : p y = true := ht y (by simp)
    rw [← List.append_assoc, rtakeWhile_concat_pos _ _ _ hy, ih fun z hz => ht z (by simp [hz]),
      List.append_assoc]

/-- Every element passes: nothing is cut. -/
theorem boundarySuffix_of_forall {l : List α} (h : ∀ y ∈ l, p y = true) : boundarySuffix p l = l := by
  have hd : l.rdropWhile p = [] := rdropWhile_eq_nil_iff.mpr h
  have ht : l.rtakeWhile p = l := rtakeWhile_eq_self_iff.mpr h
  simp [boundarySuffix, hd, ht]

/-- An element that fails, followed only by elements that pass, is where the cut lands. -/
theorem boundarySuffix_split (l : List α) {x : α} {t : List α} (hx : p x = false)
    (ht : ∀ y ∈ t, p y = true) : boundarySuffix p (l ++ x :: t) = x :: t := by
  have hsplit : l ++ x :: t = (l ++ [x]) ++ t := by simp
  have hd : (l ++ x :: t).rdropWhile p = l ++ [x] := by
    rw [hsplit, rdropWhile_append_of_forall _ ht, rdropWhile_concat_neg _ _ _ (by simp [hx])]
  have ht' : (l ++ x :: t).rtakeWhile p = t := by
    rw [hsplit, rtakeWhile_append_of_forall _ ht, rtakeWhile_concat_neg _ _ _ (by simp [hx])]
    simp
  simp [boundarySuffix, hd, ht']

/-- A list in which some element fails splits at the last such element. -/
theorem eq_append_cons_of_exists_false {l : List α} (h : ∃ x ∈ l, p x = false) :
    ∃ l' x t, l = l' ++ x :: t ∧ p x = false ∧ ∀ y ∈ t, p y = true := by
  have hd : l.rdropWhile p ≠ [] := by
    obtain ⟨x, hx, hpx⟩ := h
    rw [Ne, rdropWhile_eq_nil_iff]
    intro hall
    simp [hall x hx] at hpx
  obtain ⟨l', x, hlx⟩ := (List.eq_nil_or_concat (l.rdropWhile p)).resolve_left hd
  have hx : ¬p ((l.rdropWhile p).getLast hd) := rdropWhile_last_not _ _ hd
  simp only [hlx, List.concat_eq_append, List.getLast_append_singleton] at hx
  refine ⟨l', x, l.rtakeWhile p, ?_, by simpa using hx, fun y hy => mem_rtakeWhile_imp hy⟩
  calc l = l.rdropWhile p ++ l.rtakeWhile p := rdropWhile_append_rtakeWhile.symm
    _ = l' ++ x :: l.rtakeWhile p := by simp [hlx]

/-- The two shapes of the cut: nothing is cut, or the list is cut at its last failing
element. -/
theorem boundarySuffix_cases (l : List α) :
    (boundarySuffix p l = l ∧ ∀ y ∈ l, p y = true) ∨
      ∃ l' x t, l = l' ++ x :: t ∧ p x = false ∧ (∀ y ∈ t, p y = true) ∧ boundarySuffix p l = x :: t := by
  by_cases h : ∀ y ∈ l, p y = true
  · exact Or.inl ⟨boundarySuffix_of_forall h, h⟩
  · have hex : ∃ x ∈ l, p x = false := by simpa using h
    obtain ⟨l', x, t, rfl, hx, ht⟩ := eq_append_cons_of_exists_false hex
    exact Or.inr ⟨l', x, t, rfl, hx, ht, boundarySuffix_split l' hx ht⟩

theorem boundarySuffix_suffix (l : List α) : boundarySuffix p l <:+ l := by
  rcases boundarySuffix_cases (p := p) l with ⟨h, -⟩ | ⟨l', x, t, rfl, -, -, h⟩
  · rw [h]
  · rw [h]
    exact List.suffix_append l' (x :: t)

theorem boundarySuffix_ne_nil {l : List α} (hl : l ≠ []) : boundarySuffix p l ≠ [] := by
  rcases boundarySuffix_cases (p := p) l with ⟨h, -⟩ | ⟨l', x, t, -, -, -, h⟩
  · rwa [h]
  · simp [h]

/-- The last element is never cut away. -/
theorem boundarySuffix_getLast? (l : List α) : (boundarySuffix p l).getLast? = l.getLast? := by
  rcases boundarySuffix_cases (p := p) l with ⟨h, -⟩ | ⟨l', x, t, rfl, -, -, h⟩
  · rw [h]
  · rw [h, List.getLast?_append_of_ne_nil _ (by simp)]

/-- Everything after the head of the cut passes. -/
theorem forall_tail_boundarySuffix (l : List α) : ∀ y ∈ (boundarySuffix p l).tail, p y = true := by
  rcases boundarySuffix_cases (p := p) l with ⟨h, hall⟩ | ⟨l', x, t, -, -, ht, h⟩
  · rw [h]
    exact fun y hy => hall y (List.mem_of_mem_tail hy)
  · rw [h]
    exact ht

/-- The head of the cut fails, unless nothing was cut. -/
theorem head_boundarySuffix (l : List α) :
    ∀ x ∈ (boundarySuffix p l).head?, p x = false ∨ boundarySuffix p l = l := by
  rcases boundarySuffix_cases (p := p) l with ⟨h, -⟩ | ⟨l', x, t, -, hx, -, h⟩
  · exact fun _ _ => Or.inr h
  · rw [h]
    intro y hy
    simp only [List.head?_cons, Option.mem_def, Option.some.injEq] at hy
    exact Or.inl (hy ▸ hx)

/-- The cut changes nothing exactly when everything after the head passes. -/
theorem boundarySuffix_eq_self_iff {l : List α} : boundarySuffix p l = l ↔ ∀ y ∈ l.tail, p y = true := by
  constructor
  · intro h
    rw [← h]
    exact forall_tail_boundarySuffix l
  · intro ht
    cases l with
    | nil => rfl
    | cons x t =>
      cases hx : p x with
      | true =>
        refine boundarySuffix_of_forall fun y hy => ?_
        rcases List.mem_cons.mp hy with rfl | hy
        · exact hx
        · exact ht y hy
      | false => exact boundarySuffix_split [] hx ht

/-- The index form: drop everything before the last element of `l.rdropWhile p`. -/
theorem boundarySuffix_eq_drop (l : List α) :
    boundarySuffix p l = if l.rdropWhile p = [] then l else l.drop ((l.rdropWhile p).length - 1) := by
  have hl : l.rdropWhile p ++ l.rtakeWhile p = l := rdropWhile_append_rtakeWhile
  split_ifs with hd
  · rw [hd, List.nil_append] at hl
    simp [boundarySuffix, hd, hl]
  · have hdrop := congrArg (List.drop ((l.rdropWhile p).length - 1)) hl
    rw [← hdrop, List.drop_append_of_le_length (by omega), List.drop_length_sub_one hd, boundarySuffix,
      List.getLast?_eq_some_getLast hd]
    rfl

end Rpxy.SuffixCut
