import Mathlib.Data.List.Perm.Basic
import Mathlib.Data.List.Nodup
import Mathlib.Data.List.Forall2
import Rpxy.RustResult

/-!
# Hash maps by their content

A `HashMap` is modelled by the list of its entries. `insert` puts the new entry in place of the
one under its key, and `ofEntries` is what `collect::<HashMap<_, _>>()` does: the entries
inserted in turn, so that of two entries under one key the later one stays. A loop that inserts
the value of a fallible computation for each element is, when it succeeds, the same as
collecting the values it computed.

A `HashMap` iterates in an order that its hasher fixes, not the program. An `IterationOrder`
stands for it: a function that gives back some permutation of the entries it is given. What
holds for every `IterationOrder` holds whatever the hasher does.

The lemmas say what a lookup finds after a run of inserts (the last entry under the key), and
that when no key repeats this does not depend on the order of the run.
-/

namespace Rpxy.HashMapModel

open RustResult

variable {κ ν : Type} [BEq κ] [LawfulBEq κ]

/-- `HashMap::insert`: the new entry replaces the one under its key. -/
def insert (m : List (κ × ν)) (k : κ) (v : ν) : List (κ × ν) :=
  (k, v) :: m.filter fun e => e.1 != k

/-- `collect::<HashMap<_, _>>()`: the entries inserted in turn. -/
def ofEntries (es : List (κ × ν)) : List (κ × ν) :=
  es.foldl (fun m e => insert m e.1 e.2) []

/-- The iteration order of a family of hash maps: the entries of each, in some order. -/
structure IterationOrder (α : Type) where
  /-- The entries in the order the map yields them. -/
  order : List α → List α
  /-- The entries are all there, each once. -/
  perm : ∀ l, (order l).Perm l

/-- The order in which the entries are given. -/
def IterationOrder.given (α : Type) : IterationOrder α := ⟨id, List.Perm.refl⟩

/-- The reverse of the order in which the entries are given. -/
def IterationOrder.reversed (α : Type) : IterationOrder α := ⟨List.reverse, List.reverse_perm⟩

/-! ### Lookups after inserts -/

theorem lookup_filter_ne (m : List (κ × ν)) {k k' : κ} (hk : k' ≠ k) :
    (m.filter fun e => e.1 != k).lookup k' = m.lookup k' := by
  induction m with
  | nil => rfl
  | cons e rest ih =>
    by_cases he : e.1 = k
    · have hne : (k' == e.1) = false := by rw [he]; simpa using hk
      rw [List.filter_cons_of_neg (by simpa using he), ih, List.lookup_cons, hne]
    · rw [List.filter_cons_of_pos (by simpa using he), List.lookup_cons, List.lookup_cons, ih]

@[simp]
theorem lookup_filter_self (m : List (κ × ν)) (k : κ) : (m.filter fun e => e.1 != k).lookup k = none := by
  rw [List.lookup_eq_none_iff]
  intro e he
  have hne : e.1 ≠ k := by simpa using (List.mem_filter.mp he).2
  simpa using Ne.symm hne

/-- The map with the value under `k` changed by `f`, in place. -/
def update (m : List (κ × ν)) (k : κ) (f : ν → ν) : List (κ × ν) :=
  m.map fun e => if e.1 == k then (e.1, f e.2) else e

omit [LawfulBEq κ] in
@[simp]
theorem keys_update (m : List (κ × ν)) (k : κ) (f : ν → ν) : (update m k f).map Prod.fst = m.map Prod.fst := by
  unfold update
  rw [List.map_map]
  apply List.map_congr_left
  intro e _
  dsimp only [Function.comp]
  split <;> rfl

theorem lookup_update_self (m : List (κ × ν)) (k : κ) (f : ν → ν) : (update m k f).lookup k = (m.lookup k).map f := by
  induction m with
  | nil => rfl
  | cons e rest ih =>
    by_cases he : e.1 = k
    · obtain ⟨k', v⟩ := e
      dsimp only at he
      subst he
      simp [update]
    · have hne : (k == e.1) = false := by simpa using Ne.symm he
      have hkeep : (if e.1 == k then (e.1, f e.2) else e) = e := if_neg (by simpa using he)
      rw [update, List.map_cons, hkeep, List.lookup_cons, hne, List.lookup_cons, hne]
      exact ih

theorem lookup_update_ne (m : List (κ × ν)) {k k' : κ} (f : ν → ν) (hk : k' ≠ k) :
    (update m k f).lookup k' = m.lookup k' := by
  induction m with
  | nil => rfl
  | cons e rest ih =>
    by_cases he : e.1 = k
    · have hne : (k' == e.1) = false := by rw [he]; simpa using hk
      obtain ⟨k'', v⟩ := e
      dsimp only at he hne
      subst he
      simp only [update, List.map_cons, beq_self_eq_true, if_true, List.lookup_cons, hne]
      exact ih
    · have hkeep : (if e.1 == k then (e.1, f e.2) else e) = e := if_neg (by simpa using he)
      rw [update, List.map_cons, hkeep, List.lookup_cons, List.lookup_cons]
      cases k' == e.1
      · exact ih
      · rfl

theorem lookup_concat_ne (m : List (κ × ν)) {k k' : κ} (v : ν) (hk : k' ≠ k) :
    (m ++ [(k, v)]).lookup k' = m.lookup k' := by
  have hne : (k' == k) = false := by simpa using hk
  rw [List.lookup_append, List.lookup_cons, hne, List.lookup_nil, Option.or_none]

theorem lookup_concat_self {m : List (κ × ν)} {k : κ} (v : ν) (h : m.lookup k = none) :
    (m ++ [(k, v)]).lookup k = some v := by
  rw [List.lookup_append, h, Option.none_or, List.lookup_cons, beq_self_eq_true]

@[simp]
theorem lookup_insert (m : List (κ × ν)) (k k' : κ) (v : ν) :
    (insert m k v).lookup k' = if k' == k then some v else m.lookup k' := by
  unfold insert
  by_cases hk : k' = k
  · subst hk
    simp
  · have hne : (k' == k) = false := by simpa using hk
    rw [hne, List.lookup_cons, hne, lookup_filter_ne m hk]
    rfl

/-- After a run of inserts a key finds the last entry of the run under it, or else what the
map held before: the later write wins. -/
theorem lookup_foldl_insert (es m : List (κ × ν)) (k : κ) :
    (es.foldl (fun m e => insert m e.1 e.2) m).lookup k = (es.reverse.lookup k).or (m.lookup k) := by
  induction es generalizing m with
  | nil => simp
  | cons e rest ih =>
    rw [List.foldl_cons, ih, lookup_insert, List.reverse_cons, List.lookup_append, Option.or_assoc]
    congr 1
    by_cases hk : k = e.1
    · rw [hk, beq_self_eq_true, List.lookup_cons, beq_self_eq_true]
      rfl
    · have hne : (k == e.1) = false := by simpa using hk
      rw [hne, List.lookup_cons, hne, List.lookup_nil, Option.none_or]
      rfl

theorem lookup_ofEntries (es : List (κ × ν)) (k : κ) :
    (ofEntries es).lookup k = es.reverse.lookup k := by
  rw [ofEntries, lookup_foldl_insert, List.lookup_nil, Option.or_none]

omit [LawfulBEq κ] in
/-- Mapping the values maps what a key finds. -/
theorem lookup_map_snd {ν' : Type} (m : List (κ × ν)) (f : ν → ν') (k : κ) :
    (m.map fun e => (e.1, f e.2)).lookup k = (m.lookup k).map f := by
  induction m with
  | nil => rfl
  | cons e rest ih =>
    rw [List.map_cons, List.lookup_cons, List.lookup_cons]
    cases k == e.1 with
    | true => rfl
    | false => exact ih

/-- A key with one value among the entries finds it. -/
theorem lookup_eq_some_of_unique {l : List (κ × ν)} {k : κ} {v : ν} (hmem : (k, v) ∈ l)
    (huniq : ∀ q ∈ l, q.1 = k → q.2 = v) : l.lookup k = some v := by
  cases h : l.lookup k with
  | none =>
    rw [List.lookup_eq_none_iff] at h
    simpa using h (k, v) hmem
  | some w =>
    obtain ⟨l₁, l₂, rfl, -⟩ := List.lookup_eq_some_iff.mp h
    rw [show w = v from huniq (k, w) (by simp) rfl]

theorem mem_of_lookup_eq_some {l : List (κ × ν)} {k : κ} {v : ν} (h : l.lookup k = some v) :
    (k, v) ∈ l := by
  obtain ⟨l₁, l₂, rfl, -⟩ := List.lookup_eq_some_iff.mp h
  simp

omit [LawfulBEq κ] in
/-- An insert keeps no entry that was neither in the map nor inserted. -/
theorem mem_insert {m : List (κ × ν)} {k : κ} {v : ν} {e : κ × ν} (h : e ∈ insert m k v) :
    e = (k, v) ∨ e ∈ m := by
  unfold insert at h
  rcases List.mem_cons.mp h with rfl | h
  · exact .inl rfl
  · exact .inr (List.mem_filter.mp h).1

omit [LawfulBEq κ] in
theorem mem_of_mem_foldl_insert {e : κ × ν} (es : List (κ × ν)) :
    ∀ m, e ∈ es.foldl (fun m e => insert m e.1 e.2) m → e ∈ m ∨ e ∈ es := by
  induction es with
  | nil => exact fun m h => .inl h
  | cons x rest ih =>
    intro m h
    rw [List.foldl_cons] at h
    rcases ih _ h with h | h
    · rcases mem_insert h with rfl | h
      · exact .inr List.mem_cons_self
      · exact .inl h
    · exact .inr (List.mem_cons_of_mem x h)

omit [LawfulBEq κ] in
theorem mem_of_mem_ofEntries {es : List (κ × ν)} {e : κ × ν} (h : e ∈ ofEntries es) : e ∈ es := by
  rcases mem_of_mem_foldl_insert es [] h with h | h
  · cases h
  · exact h

/-- Collecting entries keeps exactly their keys. -/
theorem mem_keys_ofEntries {es : List (κ × ν)} {k : κ} : k ∈ (ofEntries es).map Prod.fst ↔ k ∈ es.map Prod.fst := by
  constructor
  · intro h
    obtain ⟨e, he, rfl⟩ := List.mem_map.mp h
    exact List.mem_map.mpr ⟨e, mem_of_mem_ofEntries he, rfl⟩
  · intro h
    obtain ⟨e, he, rfl⟩ := List.mem_map.mp h
    have hsome : (es.reverse.lookup e.1).isSome := List.lookup_isSome_iff.mpr ⟨e, List.mem_reverse.mpr he, beq_self_eq_true _⟩
    rw [← lookup_ofEntries] at hsome
    obtain ⟨v, hv⟩ := Option.isSome_iff_exists.mp hsome
    exact List.mem_map.mpr ⟨_, mem_of_lookup_eq_some hv, rfl⟩

/-- Collecting entries keeps an entry whose key has no other value among them. -/
theorem lookup_ofEntries_of_unique {es : List (κ × ν)} {k : κ} {v : ν} (hmem : (k, v) ∈ es)
    (huniq : ∀ q ∈ es, q.1 = k → q.2 = v) : (ofEntries es).lookup k = some v := by
  rw [lookup_ofEntries]
  exact lookup_eq_some_of_unique (List.mem_reverse.mpr hmem)
    fun q hq => huniq q (List.mem_reverse.mp hq)

/-- The map collected from entries that a relation makes of some elements: when each element
gives at most one entry and entries of different elements have different keys, a key finds the
value exactly when some element gives that entry. -/
theorem lookup_ofEntries_iff {α : Type} {R : α → κ × ν → Prop} {xs : List α} {es : List (κ × ν)}
    (hsound : ∀ q ∈ es, ∃ x ∈ xs, R x q) (hcomplete : ∀ x ∈ xs, ∀ q, R x q → q ∈ es)
    (hfun : ∀ x q q', R x q → R x q' → q = q')
    (hkey : ∀ x ∈ xs, ∀ x' ∈ xs, ∀ q q', R x q → R x' q' → q.1 = q'.1 → x = x')
    (k : κ) (v : ν) : (ofEntries es).lookup k = some v ↔ ∃ x ∈ xs, R x (k, v) := by
  constructor
  · intro h
    exact hsound (k, v) (mem_of_mem_ofEntries (mem_of_lookup_eq_some h))
  · rintro ⟨x, hx, hxR⟩
    refine lookup_ofEntries_of_unique (hcomplete x hx (k, v) hxR) fun q hq hqk => ?_
    obtain ⟨x', hx', hx'R⟩ := hsound q hq
    have hxx' : x = x' := hkey x hx x' hx' (k, v) q hxR hx'R hqk.symm
    subst hxx'
    rw [hfun x q (k, v) hx'R hxR]

/-! ### Lists related element by element -/

section Forall₂

variable {α β : Type} {R : α → β → Prop}

theorem Forall₂.exists_of_mem_right : ∀ {xs : List α} {ys : List β}, List.Forall₂ R xs ys →
    ∀ {y}, y ∈ ys → ∃ x ∈ xs, R x y
  | _, _, .nil, _, hy => by cases hy
  | _, _, .cons hxy hrest, _, hy => by
    rcases List.mem_cons.mp hy with rfl | hy
    · exact ⟨_, List.mem_cons_self, hxy⟩
    · obtain ⟨x, hx, h⟩ := Forall₂.exists_of_mem_right hrest hy
      exact ⟨x, List.mem_cons_of_mem _ hx, h⟩

theorem Forall₂.exists_of_mem_left : ∀ {xs : List α} {ys : List β}, List.Forall₂ R xs ys →
    ∀ {x}, x ∈ xs → ∃ y ∈ ys, R x y
  | _, _, .nil, _, hx => by cases hx
  | _, _, .cons hxy hrest, _, hx => by
    rcases List.mem_cons.mp hx with rfl | hx
    · exact ⟨_, List.mem_cons_self, hxy⟩
    · obtain ⟨y, hy, h⟩ := Forall₂.exists_of_mem_left hrest hx
      exact ⟨y, List.mem_cons_of_mem _ hy, h⟩

/-- Lists related element by element have the same image under maps that agree on related
elements. -/
theorem Forall₂.map_eq {γ : Type} {f : α → γ} {g : β → γ} (hfg : ∀ x y, R x y → f x = g y) :
    ∀ {xs : List α} {ys : List β}, List.Forall₂ R xs ys → xs.map f = ys.map g
  | _, _, .nil => rfl
  | _, _, .cons hxy hrest => by rw [List.map_cons, List.map_cons, hfg _ _ hxy, Forall₂.map_eq hfg hrest]

/-- Two element-by-element relations compose. -/
theorem Forall₂.comp {γ : Type} {S : β → γ → Prop} : ∀ {xs : List α} {ys : List β} {zs : List γ},
    List.Forall₂ R xs ys → List.Forall₂ S ys zs → List.Forall₂ (fun x z => ∃ y, R x y ∧ S y z) xs zs
  | _, _, _, .nil, .nil => .nil
  | _, _, _, .cons hxy hrest, .cons hyz hrest' => .cons ⟨_, hxy, hyz⟩ (Forall₂.comp hrest hrest')

/-- A successful `mapM` relates each element to its value. -/
theorem forall₂_of_mapM_eq_ok {ε : Type} {f : α → Except ε β} :
    ∀ {xs : List α} {ys : List β}, xs.mapM f = .ok ys → List.Forall₂ (fun x y => f x = .ok y) xs ys
  | [], ys, h => by
    have : ys = [] := by simpa [eq_comm] using h
    rw [this]
    exact .nil
  | x :: xs, ys, h => by
    rw [List.mapM_cons, except_bind_eq_ok] at h
    obtain ⟨y, hy, h⟩ := h
    rw [except_bind_eq_ok] at h
    obtain ⟨ys', hys', h⟩ := h
    have hys : ys = y :: ys' := by simpa [eq_comm] using h
    rw [hys]
    exact .cons hy (forall₂_of_mapM_eq_ok hys')

omit [LawfulBEq κ] in
/-- Two lists related element by element, keyed alike on related elements, find related values
under every key. -/
theorem lookup_map_rel {kx : α → κ} {ky : β → κ} (hkey : ∀ x y, R x y → kx x = ky y) :
    ∀ {xs : List α} {ys : List β}, List.Forall₂ R xs ys → ∀ k,
      Option.Rel R ((xs.map fun x => (kx x, x)).lookup k) ((ys.map fun y => (ky y, y)).lookup k)
  | _, _, .nil, _ => .none
  | x :: _, y :: _, .cons hxy hrest, k => by
    simp only [List.map_cons, List.lookup_cons, hkey x y hxy]
    split
    · exact .some hxy
    · exact lookup_map_rel hkey hrest k

end Forall₂

/-! ### Loops that insert -/

section Loops

variable {α ε : Type}

omit [LawfulBEq κ] in
/-- The loop `for x in xs { map.insert(key(x), f(x)?) }`: when it succeeds, each element has
a value and the map is the entries collected in the order of the loop. -/
theorem foldlM_insert_eq_ok {f : α → Except ε ν} {key : α → κ} :
    ∀ {xs : List α} {m r : List (κ × ν)},
      xs.foldlM (fun m x => f x >>= fun v => pure (insert m (key x) v)) m = .ok r →
      ∃ es : List (κ × ν), List.Forall₂ (fun x e => e.1 = key x ∧ f x = .ok e.2) xs es ∧
        r = es.foldl (fun m e => insert m e.1 e.2) m
  | [], m, r, h => by
    have : r = m := by simpa [eq_comm] using h
    exact ⟨[], .nil, this⟩
  | x :: xs, m, r, h => by
    rw [List.foldlM_cons, except_bind_eq_ok] at h
    obtain ⟨m₁, h₁, h⟩ := h
    rw [except_bind_eq_ok] at h₁
    obtain ⟨v, hv, h₁⟩ := h₁
    have hm₁ : m₁ = insert m (key x) v := by simpa [eq_comm] using h₁
    obtain ⟨es, hes, rfl⟩ := foldlM_insert_eq_ok h
    exact ⟨(key x, v) :: es, .cons ⟨rfl, hv⟩ hes, by rw [hm₁]; rfl⟩

omit [LawfulBEq κ] in
/-- The loop `for x in xs { if let Some((k, v)) = f(x)? { map.insert(k, v); } }`: when it
succeeds, each element has a value and the map is the entries collected in order. -/
theorem foldlM_insert_some_eq_ok {f : α → Except ε (Option (κ × ν))} :
    ∀ {xs : List α} {m r : List (κ × ν)},
      xs.foldlM (fun m x => f x >>= fun o => pure (o.elim m fun (e : κ × ν) => insert m e.1 e.2)) m = .ok r →
      ∃ os, List.Forall₂ (fun x o => f x = .ok o) xs os ∧
        r = (os.filterMap id).foldl (fun m e => insert m e.1 e.2) m
  | [], m, r, h => by
    have : r = m := by simpa [eq_comm] using h
    exact ⟨[], .nil, this⟩
  | x :: xs, m, r, h => by
    rw [List.foldlM_cons, except_bind_eq_ok] at h
    obtain ⟨m₁, h₁, h⟩ := h
    rw [except_bind_eq_ok] at h₁
    obtain ⟨o, ho, h₁⟩ := h₁
    have hm₁ : m₁ = o.elim m fun (e : κ × ν) => insert m e.1 e.2 := by simpa [eq_comm] using h₁
    obtain ⟨os, hos, rfl⟩ := foldlM_insert_some_eq_ok h
    refine ⟨o :: os, .cons ho hos, ?_⟩
    rw [hm₁]
    cases o with
    | none => rfl
    | some e => rfl

end Loops

/-! ### The first match in any iteration order -/

/-- When exactly one entry of a map passes a test, the first entry to pass it is that one,
in every order of the entries. -/
theorem head?_filter_of_unique {α : Type} {p : α → Bool} {l l' : List α} (hp : l'.Perm l)
    {x : α} (hx : x ∈ l) (hpx : p x = true) (huniq : ∀ y ∈ l, p y = true → y = x) :
    (l'.filter p).head? = some x := by
  have hall : ∀ y ∈ l'.filter p, y = x := by
    intro y hy
    rw [List.mem_filter] at hy
    exact huniq y (hp.mem_iff.mp hy.1) hy.2
  cases hf : l'.filter p with
  | nil =>
    have hmem : x ∈ l'.filter p := List.mem_filter.mpr ⟨hp.mem_iff.mpr hx, hpx⟩
    rw [hf] at hmem
    cases hmem
  | cons y rest =>
    rw [List.head?_cons, hall y (by rw [hf]; exact List.mem_cons_self)]

/-- When no entry passes a test, there is no first one to pass it. -/
theorem head?_filter_eq_none {α : Type} {p : α → Bool} {l : List α} (h : ∀ y ∈ l, p y = false) :
    (l.filter p).head? = none := by
  rw [List.filter_eq_nil_iff.mpr fun y hy => by rw [h y hy]; decide]
  rfl

/-! ### Keys -/

/-- An insert keeps the keys of a map distinct. -/
theorem nodup_keys_insert {m : List (κ × ν)} (hm : (m.map Prod.fst).Nodup) (k : κ) (v : ν) :
    ((insert m k v).map Prod.fst).Nodup := by
  unfold insert
  rw [List.map_cons, List.nodup_cons]
  constructor
  · intro hk
    obtain ⟨e, he, hek⟩ := List.mem_map.mp hk
    have hne := (List.mem_filter.mp he).2
    rw [hek] at hne
    exact absurd (bne_self_eq_false k) (by rw [hne]; decide)
  · exact (hm.sublist (List.filter_sublist.map Prod.fst))

/-- Collected entries have distinct keys. -/
theorem nodup_keys_ofEntries (es : List (κ × ν)) : ((ofEntries es).map Prod.fst).Nodup := by
  suffices h : ∀ m : List (κ × ν), (m.map Prod.fst).Nodup →
      ((es.foldl (fun m e => insert m e.1 e.2) m).map Prod.fst).Nodup from h [] List.nodup_nil
  induction es with
  | nil => exact fun m hm => hm
  | cons e rest ih => exact fun m hm => ih _ (nodup_keys_insert hm e.1 e.2)

/-- In a map whose keys are distinct, an entry is what its key finds. -/
theorem lookup_eq_some_of_nodup {m : List (κ × ν)} (hm : (m.map Prod.fst).Nodup) {k : κ} {v : ν}
    (hv : (k, v) ∈ m) : m.lookup k = some v :=
  lookup_eq_some_of_unique hv fun q hq hqk => by rw [List.inj_on_of_nodup_map hm hq hv hqk]

/-- In a map whose keys are distinct, what holds of every entry is what holds of every value a key
finds. -/
theorem forall_mem_iff_lookup {m : List (κ × ν)} (hm : (m.map Prod.fst).Nodup) {P : κ → ν → Prop} :
    (∀ e ∈ m, P e.1 e.2) ↔ ∀ k v, m.lookup k = some v → P k v :=
  ⟨fun h k v hv => h (k, v) (mem_of_lookup_eq_some hv),
    fun h e he => h e.1 e.2 (lookup_eq_some_of_nodup hm he)⟩

/-- A key finds the same value in every order of a map whose keys are distinct. -/
theorem lookup_eq_of_perm {l l' : List (κ × ν)} (hp : l'.Perm l) (hnd : (l.map Prod.fst).Nodup) (k : κ) :
    l'.lookup k = l.lookup k := by
  have hnd' : (l'.map Prod.fst).Nodup := (hp.map Prod.fst).nodup_iff.mpr hnd
  cases hl : l.lookup k with
  | none =>
    cases hl' : l'.lookup k with
    | none => rfl
    | some v =>
      have hmem := hp.mem_iff.mp (mem_of_lookup_eq_some hl')
      rw [lookup_eq_some_of_nodup hnd hmem] at hl
      cases hl
  | some v => exact lookup_eq_some_of_nodup hnd' (hp.mem_iff.mpr (mem_of_lookup_eq_some hl))

/-- A loop over the entries of a map, each turn of which changes what is seen under its own key
only, and there as a function of what was seen there before: what the loop leaves under a key
is that function of the key's entry applied once, or what was there when no entry has the key. -/
theorem foldl_keywise {σ α γ : Type} {f : σ → κ × α → σ} {obs : σ → κ → γ} {g : κ → α → γ → γ}
    (hframe : ∀ s e k, e.1 ≠ k → obs (f s e) k = obs s k)
    (hlocal : ∀ s e, obs (f s e) e.1 = g e.1 e.2 (obs s e.1)) :
    ∀ {es : List (κ × α)}, (es.map Prod.fst).Nodup → ∀ s k,
      obs (es.foldl f s) k = (es.lookup k).elim (obs s k) fun a => g k a (obs s k)
  | [], _, s, k => rfl
  | e :: rest, hnd, s, k => by
    rw [List.map_cons, List.nodup_cons] at hnd
    rw [List.foldl_cons, foldl_keywise hframe hlocal hnd.2 (f s e) k]
    by_cases hk : k = e.1
    · subst hk
      have hrest : rest.lookup e.1 = none := by
        refine List.lookup_eq_none_iff.mpr fun q hq => bne_iff_ne.mpr fun hq1 => hnd.1 ?_
        rw [hq1]
        exact List.mem_map_of_mem hq
      rw [hrest, List.lookup_cons, beq_self_eq_true, hlocal]
      rfl
    · have hne : (k == e.1) = false := by simpa using hk
      rw [List.lookup_cons, hne, hframe s e k (Ne.symm hk)]

end Rpxy.HashMapModel
