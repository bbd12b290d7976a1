import Mathlib.Data.List.Perm.Basic
import Mathlib.Data.List.Nodup

/-!
# Bounded least-recently-used maps

An LRU map of fixed non-zero capacity, as the `lru` crate's `LruCache` behaves: its entries
are kept as a list from the most to the least recently used one, with distinct keys and at most
`cap` of them, and the structure carries both facts. `push` puts its entry in front and hands
back the entry it displaced (the old value of the same key or, when the map is full, the least
recently used entry); `get` moves the entry it finds to the front; `peek` reads without moving
anything; `popEntry` removes a key.

The lemmas say that no operation creates or loses an entry: what the map holds afterwards,
with what the operation handed back, is a permutation of what it held before, with what was
put in.
-/

namespace Rpxy.Lru

variable {κ ν : Type} [DecidableEq κ]

/-- The entries of `l` whose key is not `k`. -/
def eraseKey (l : List (κ × ν)) (k : κ) : List (κ × ν) :=
  l.filter fun e => e.1 != k

theorem keys_eraseKey_sublist (l : List (κ × ν)) (k : κ) :
    List.Sublist ((eraseKey l k).map Prod.fst) (l.map Prod.fst) :=
  (List.filter_sublist (l := l)).map Prod.fst

theorem not_mem_keys_eraseKey (l : List (κ × ν)) (k : κ) : k ∉ (eraseKey l k).map Prod.fst := by
  simp [eraseKey]

theorem not_mem_keys_of_lookup_eq_none {l : List (κ × ν)} {k : κ} (h : l.lookup k = none) :
    k ∉ l.map Prod.fst := by
  rw [List.lookup_eq_none_iff] at h
  simp only [List.mem_map]
  rintro ⟨p, hp, rfl⟩
  simpa using h p hp

/-- Splitting a list with distinct keys at the entry of `k`: removing the key removes exactly
that entry. -/
theorem eraseKey_of_lookup {l : List (κ × ν)} {k : κ} {v : ν} (hnd : (l.map Prod.fst).Nodup)
    (h : l.lookup k = some v) :
    ∃ l₁ l₂, l = l₁ ++ (k, v) :: l₂ ∧ eraseKey l k = l₁ ++ l₂ := by
  obtain ⟨l₁, l₂, rfl, h₁⟩ := List.lookup_eq_some_iff.mp h
  refine ⟨l₁, l₂, rfl, ?_⟩
  have h₂ : ∀ p ∈ l₂, p.1 ≠ k := by
    intro p hp hpk
    have hnd' : (l₁.map Prod.fst ++ k :: l₂.map Prod.fst).Nodup := by simpa using hnd
    exact (List.nodup_cons.mp (List.nodup_append.mp hnd').2.1).1 (List.mem_map.mpr ⟨p, hp, hpk⟩)
  have hl₁ : l₁.filter (fun e => e.1 != k) = l₁ :=
    List.filter_eq_self.mpr fun p hp => by rw [bne_comm]; exact h₁ p hp
  have hl₂ : l₂.filter (fun e => e.1 != k) = l₂ :=
    List.filter_eq_self.mpr fun p hp => by simpa using h₂ p hp
  simp [eraseKey, List.filter_append, hl₁, hl₂]

theorem perm_cons_eraseKey {l : List (κ × ν)} {k : κ} {v : ν} (hnd : (l.map Prod.fst).Nodup)
    (h : l.lookup k = some v) : List.Perm l ((k, v) :: eraseKey l k) := by
  obtain ⟨l₁, l₂, rfl, he⟩ := eraseKey_of_lookup hnd h
  rw [he]
  exact List.perm_middle

theorem length_eraseKey {l : List (κ × ν)} {k : κ} {v : ν} (hnd : (l.map Prod.fst).Nodup)
    (h : l.lookup k = some v) : (eraseKey l k).length + 1 = l.length := by
  simpa using (perm_cons_eraseKey hnd h).length_eq.symm

theorem dropLast_append_getLast?_toList {α : Type} (l : List α) : l.dropLast ++ l.getLast?.toList = l := by
  cases h : l.getLast? with
  | none => simp [List.getLast?_eq_none_iff.mp h]
  | some a => exact List.dropLast_append_getLast? a h

/-- An LRU map of capacity `cap`: its entries from the most to the least recently used, with
distinct keys and at most `cap` of them. -/
structure LruCache (κ ν : Type) where
  /-- The entries, most recently used first. -/
  entries : List (κ × ν)
  /-- The capacity. -/
  cap : Nat
  /-- The capacity is positive. -/
  cap_pos : 0 < cap
  /-- Each key once. -/
  keys_nodup : (entries.map Prod.fst).Nodup
  /-- At most `cap` entries. -/
  length_le : entries.length ≤ cap

namespace LruCache

/-- `LruCache::new`, whose capacity is a `NonZeroUsize`. -/
def new (cap : Nat) (h : 0 < cap) : LruCache κ ν :=
  ⟨[], cap, h, List.nodup_nil, Nat.zero_le _⟩

/-- `LruCache::len`. -/
def len (c : LruCache κ ν) : Nat := c.entries.length

/-- `LruCache::peek`: the value of `k`, leaving the order as it is. -/
def peek (c : LruCache κ ν) (k : κ) : Option ν := c.entries.lookup k

/-- The map without the entry of `k`. -/
def erase (c : LruCache κ ν) (k : κ) : LruCache κ ν where
  entries := eraseKey c.entries k
  cap := c.cap
  cap_pos := c.cap_pos
  keys_nodup := c.keys_nodup.sublist (keys_eraseKey_sublist _ _)
  length_le := Nat.le_trans (List.length_filter_le _ _) c.length_le

/-- The map with the entry of `k`, which it holds, replaced by `(k, w)` in front. -/
def putFront (c : LruCache κ ν) (k : κ) (w : ν) {v : ν} (hk : c.entries.lookup k = some v) :
    LruCache κ ν where
  entries := (k, w) :: eraseKey c.entries k
  cap := c.cap
  cap_pos := c.cap_pos
  keys_nodup := List.nodup_cons.mpr
    ⟨not_mem_keys_eraseKey c.entries k, c.keys_nodup.sublist (keys_eraseKey_sublist _ _)⟩
  length_le := by
    have := length_eraseKey c.keys_nodup hk
    have := c.length_le
    simp only [List.length_cons]
    omega

/-- The map with `(k, w)` in front of its entries, for a key it does not hold; when the map is
full its least recently used entry goes. -/
def cons (c : LruCache κ ν) (k : κ) (w : ν) (hk : c.entries.lookup k = none) : LruCache κ ν where
  entries := (k, w) :: if c.entries.length = c.cap then c.entries.dropLast else c.entries
  cap := c.cap
  cap_pos := c.cap_pos
  keys_nodup := by
    have hsub : List.Sublist
        ((if c.entries.length = c.cap then c.entries.dropLast else c.entries).map Prod.fst)
        (c.entries.map Prod.fst) := by
      split
      · exact (List.dropLast_sublist _).map _
      · exact List.Sublist.refl _
    exact List.nodup_cons.mpr ⟨fun h => not_mem_keys_of_lookup_eq_none hk (hsub.subset h),
      c.keys_nodup.sublist hsub⟩
  length_le := by
    have := c.length_le
    have := c.cap_pos
    split <;> simp only [List.length_cons, List.length_dropLast] <;> omega

/-- `LruCache::get`: the value of `k`, whose entry becomes the most recently used. -/
def get (c : LruCache κ ν) (k : κ) : LruCache κ ν × Option ν :=
  match h : c.entries.lookup k with
  | some v => (c.putFront k v h, some v)
  | none => (c, none)

/-- `LruCache::pop_entry`: removes the entry of `k` and returns it. -/
def popEntry (c : LruCache κ ν) (k : κ) : LruCache κ ν × Option (κ × ν) :=
  match c.entries.lookup k with
  | some v => (c.erase k, some (k, v))
  | none => (c, none)

/-- `LruCache::push`: puts `(k, v)` in front and returns the entry it displaced, the old entry
of `k` or, when the map is full, the least recently used entry. -/
def push (c : LruCache κ ν) (k : κ) (v : ν) : LruCache κ ν × Option (κ × ν) :=
  match h : c.entries.lookup k with
  | some old => (c.putFront k v h, some (k, old))
  | none =>
    (c.cons k v h, if c.entries.length = c.cap then c.entries.getLast? else none)

theorem mem_of_peek_eq_some {c : LruCache κ ν} {k : κ} {v : ν} (h : c.peek k = some v) :
    (k, v) ∈ c.entries := by
  obtain ⟨l₁, l₂, hl, -⟩ := List.lookup_eq_some_iff.mp h
  rw [hl]
  simp

/-- What `push` displaces was in the map. -/
theorem push_snd_mem {c : LruCache κ ν} {k : κ} {v : ν} {d : κ × ν} (h : (c.push k v).2 = some d) :
    d ∈ c.entries := by
  unfold push at h
  split at h
  · next old hk =>
    cases h
    exact mem_of_peek_eq_some hk
  · split at h
    · exact List.mem_of_getLast? h
    · cases h

theorem get_snd (c : LruCache κ ν) (k : κ) : (c.get k).2 = c.peek k := by
  unfold get peek
  split
  · next v h => exact h.symm
  · next h => exact h.symm

/-- `get` only reorders the entries. -/
theorem get_perm (c : LruCache κ ν) (k : κ) : List.Perm (c.get k).1.entries c.entries := by
  unfold get
  split
  · next v h => exact (perm_cons_eraseKey c.keys_nodup h).symm
  · exact List.Perm.refl _

theorem popEntry_snd (c : LruCache κ ν) (k : κ) :
    (c.popEntry k).2 = (c.peek k).map fun v => (k, v) := by
  unfold popEntry peek
  split
  · next v h => rw [h]; rfl
  · next h => rw [h]; rfl

/-- `popEntry` moves at most one entry out of the map. -/
theorem popEntry_perm (c : LruCache κ ν) (k : κ) :
    List.Perm ((c.popEntry k).1.entries ++ (c.popEntry k).2.toList) c.entries := by
  unfold popEntry
  split
  · next v h =>
    have := perm_cons_eraseKey c.keys_nodup h
    exact (List.perm_append_singleton _ _).trans this.symm
  · simp

/-- `push` takes `(k, v)` in and moves at most one entry out. -/
theorem push_perm (c : LruCache κ ν) (k : κ) (v : ν) :
    List.Perm ((c.push k v).1.entries ++ (c.push k v).2.toList) ((k, v) :: c.entries) := by
  unfold push
  split
  · next old h =>
    have := perm_cons_eraseKey c.keys_nodup h
    exact ((List.perm_append_singleton _ _).trans this.symm).cons _
  · next h =>
    simp only [cons, List.cons_append]
    refine List.Perm.cons _ ?_
    split
    · rw [dropLast_append_getLast?_toList]
    · simp

end LruCache

end Rpxy.Lru
