import Mathlib.Data.List.Basic

/-!
# Fallible code as `Except`

A `Result<T>` of the source (an `anyhow` error or another error type) is `Except ε T`,
and `?` is the monad's bind. The lemmas here push `Except.ok` and `Except.error` through
`map`, `mapError`, bind, `mapM` and `foldlM`, and peel a successful bind apart, so that
proofs about a fallible function never unfold the monad.
-/

namespace Rpxy.RustResult

variable {ε ε' α β : Type}

@[simp]
theorem except_pure (a : α) : (pure a : Except ε α) = .ok a := rfl

@[simp]
theorem except_map_ok (f : α → β) (a : α) : Except.map f (.ok a : Except ε α) = .ok (f a) := rfl

@[simp]
theorem except_map_error (f : α → β) (e : ε) : Except.map f (.error e : Except ε α) = .error e := rfl

@[simp]
theorem except_mapError_ok (f : ε → ε') (a : α) : Except.mapError f (.ok a : Except ε α) = .ok a := rfl

@[simp]
theorem except_mapError_error (f : ε → ε') (e : ε) :
    Except.mapError f (.error e : Except ε α) = .error (f e) := rfl

@[simp]
theorem except_bind_ok (a : α) (g : α → Except ε β) : (Except.ok a >>= g) = g a := rfl

@[simp]
theorem except_bind_error (e : ε) (g : α → Except ε β) : (Except.error e >>= g) = .error e := rfl

@[simp]
theorem except_bind_ok' (a : α) (g : α → Except ε β) : Except.bind (.ok a) g = g a := rfl

@[simp]
theorem except_bind_error' (e : ε) (g : α → Except ε β) : Except.bind (.error e) g = .error e := rfl

/-- A bind succeeds exactly when its first computation does and the rest succeeds on its value. -/
theorem except_bind_eq_ok {x : Except ε α} {g : α → Except ε β} {b : β} :
    x >>= g = .ok b ↔ ∃ a, x = .ok a ∧ g a = .ok b := by
  cases x with
  | error e => simp
  | ok a => simp

theorem except_bind_eq_ok' {x : Except ε α} {g : α → Except ε β} {b : β} :
    x.bind g = .ok b ↔ ∃ a, x = .ok a ∧ g a = .ok b :=
  except_bind_eq_ok

theorem except_map_eq_ok {x : Except ε α} {f : α → β} {b : β} :
    Except.map f x = .ok b ↔ ∃ a, x = .ok a ∧ f a = b := by
  cases x with
  | error e => simp
  | ok a => simp

theorem except_mapError_eq_ok {x : Except ε α} {f : ε → ε'} {a : α} :
    Except.mapError f x = .ok a ↔ x = .ok a := by
  cases x with
  | error e => simp
  | ok a => simp

/-- `mapM` of a function that succeeds on every element. -/
theorem mapM_eq_ok_map {f : α → Except ε β} {g : α → β} :
    ∀ {xs : List α}, (∀ x ∈ xs, f x = .ok (g x)) → xs.mapM f = .ok (xs.map g)
  | [], _ => rfl
  | x :: xs, h => by
    have hx := h x (by simp)
    have hxs := mapM_eq_ok_map (fun y hy => h y (List.mem_cons_of_mem x hy))
    simp [List.mapM_cons, hx, hxs]

/-- `mapM` of a function that inverts the map on every element. -/
theorem mapM_map_eq_ok {f : β → Except ε α} {w : α → β} :
    ∀ {xs : List α}, (∀ x ∈ xs, f (w x) = .ok x) → (xs.map w).mapM f = .ok xs
  | [], _ => rfl
  | x :: xs, h => by
    have hx := h x (by simp)
    have hxs := mapM_map_eq_ok (fun y hy => h y (List.mem_cons_of_mem x hy))
    simp [List.mapM_cons, hx, hxs]

/-- Every value of a successful `mapM` comes from an element of the list. -/
theorem mapM_eq_ok_forall {f : α → Except ε β} :
    ∀ {xs : List α} {ys : List β}, xs.mapM f = .ok ys → ∀ y ∈ ys, ∃ x ∈ xs, f x = .ok y
  | [], ys, h => by
    have : ys = [] := by simpa [eq_comm] using h
    simp [this]
  | x :: xs, ys, h => by
    rw [List.mapM_cons, except_bind_eq_ok] at h
    obtain ⟨y, hy, h⟩ := h
    rw [except_bind_eq_ok] at h
    obtain ⟨ys', hys', h⟩ := h
    have hys : ys = y :: ys' := by simpa [eq_comm] using h
    intro z hz
    rw [hys, List.mem_cons] at hz
    rcases hz with rfl | hz
    · exact ⟨x, by simp, hy⟩
    · obtain ⟨w, hw, hwz⟩ := mapM_eq_ok_forall hys' z hz
      exact ⟨w, List.mem_cons_of_mem x hw, hwz⟩

/-- The invariant rule of a successful `foldlM`: a property kept by every step on an
element of the list holds of the result. -/
theorem foldlM_eq_ok_induction {f : β → α → Except ε β} (P : β → Prop) :
    ∀ {xs : List α}, (∀ b, ∀ x ∈ xs, ∀ b', P b → f b x = .ok b' → P b') →
      ∀ {b b' : β}, P b → xs.foldlM f b = .ok b' → P b'
  | [], _, b, b', hb, h => by
    have : b = b' := by simpa using h
    exact this ▸ hb
  | x :: xs, hstep, b, b', hb, h => by
    rw [List.foldlM_cons, except_bind_eq_ok] at h
    obtain ⟨b1, h1, h⟩ := h
    exact foldlM_eq_ok_induction P (fun c y hy c' => hstep c y (List.mem_cons_of_mem x hy) c')
      (hstep b x (by simp) b1 hb h1) h

/-- A failing `foldlM` fails at one element, after the elements before it all succeeded. -/
theorem foldlM_eq_error {f : β → α → Except ε β} :
    ∀ {xs : List α} {b : β} {e : ε}, xs.foldlM f b = .error e →
      ∃ ys x zs b₁, xs = ys ++ x :: zs ∧ ys.foldlM f b = .ok b₁ ∧ f b₁ x = .error e
  | [], b, e, h => by cases h
  | x :: xs, b, e, h => by
    rw [List.foldlM_cons] at h
    cases h₁ : f b x with
    | error e' =>
      rw [h₁] at h
      cases h
      exact ⟨[], x, xs, b, rfl, rfl, h₁⟩
    | ok b₁ =>
      rw [h₁] at h
      obtain ⟨ys, y, zs, b₂, rfl, hys, hy⟩ := foldlM_eq_error h
      exact ⟨x :: ys, y, zs, b₂, rfl, by rw [List.foldlM_cons, h₁]; exact hys, hy⟩

/-- A `foldlM` whose step fails at one element, whatever came before, fails. -/
theorem foldlM_isError_of_mem {f : β → α → Except ε β} {x : α} (hfail : ∀ b, ∃ e, f b x = .error e) :
    ∀ {xs : List α}, x ∈ xs → ∀ b, ∃ e, xs.foldlM f b = .error e
  | y :: ys, hx, b => by
    rw [List.foldlM_cons]
    cases h₁ : f b y with
    | error e => exact ⟨e, rfl⟩
    | ok b₁ =>
      rcases List.mem_cons.mp hx with rfl | hx
      · obtain ⟨e, he⟩ := hfail b
        rw [he] at h₁
        cases h₁
      · exact foldlM_isError_of_mem hfail hx b₁

/-- `?` on an `Option` in a loop: the loop gives a value exactly when every element does,
and the values are those of `filterMap`. -/
theorem option_mapM_eq_some {f : α → Option β} :
    ∀ {xs : List α} {ys : List β}, xs.mapM f = some ys ↔ (∀ x ∈ xs, (f x).isSome) ∧ xs.filterMap f = ys
  | [], ys => by simp
  | x :: xs, ys => by
    rw [List.mapM_cons]
    cases hx : f x with
    | none => simp [hx]
    | some y =>
      simp only [hx, List.filterMap_cons_some hx, Option.bind_eq_bind, Option.bind_some,
        Option.bind_eq_some_iff, Option.pure_def, Option.some.injEq, List.mem_cons, forall_eq_or_imp,
        Option.isSome_some, true_and]
      constructor
      · rintro ⟨ys', hys', rfl⟩
        obtain ⟨hall, rfl⟩ := option_mapM_eq_some.mp hys'
        exact ⟨hall, rfl⟩
      · rintro ⟨hall, rfl⟩
        exact ⟨_, option_mapM_eq_some.mpr ⟨hall, rfl⟩, rfl⟩

end Rpxy.RustResult
