import Rpxy.CacheStore

/-!
# The cache's file count over every interleaving

The invariant of the cache system of `CacheStore`, over every reachable state: the file count
is the number of counted files (those of the map's entries, of publishers between `incr_count`
and `push`, and of removals before their decrement); no file is held twice, by the map or by
tasks; every committed file on disk is held, or was left by a failed unlink; and a generation
names one entry, so that a lookup that evicts by generation evicts the entry it looked up.

From it: `FileStore::remove` never saturates, a quiescent cache counts exactly its file
entries (so `RpxyCache::count` does not saturate either), and every file entry that leaves
the map is handed to a removal.
-/

namespace Rpxy.CacheBookkeeping

open Reachability CacheStore

variable {κ : Type}

/-- Every file someone is responsible for: the map's and the tasks'. -/
def heldFiles (s : CacheSystem κ) : List Nat := s.shared.lruFiles ++ s.tasks.flatMap CacheTask.files

/-- The files the count should count. -/
def countedFiles (s : CacheSystem κ) : List Nat := s.shared.lruFiles ++ s.tasks.flatMap CacheTask.counted

/-- The entries of the map and those the tasks hold. -/
def heldObjects (s : CacheSystem κ) : List (κ × CacheObject) :=
  s.shared.entries ++ s.tasks.flatMap CacheTask.objects

/-- The invariant of the cache. -/
structure CacheInv (s : CacheSystem κ) : Prop where
  /-- The stored entry count is the map's size. -/
  total_eq : s.shared.manager.cnt = s.shared.manager.inner.len
  /-- The file count counts the counted files. -/
  count_eq : s.shared.fileCount = (countedFiles s).length
  /-- No file is held twice. -/
  files_nodup : (heldFiles s).Nodup
  /-- Every held file was handed out. -/
  files_lt : ∀ p ∈ heldFiles s, p < s.nextPath
  /-- Every file on disk is held or leaked. -/
  disk_held : ∀ p ∈ s.shared.disk, p ∈ heldFiles s ∨ p ∈ s.shared.leaked
  /-- Every held generation was handed out. -/
  generation_lt : ∀ x ∈ heldObjects s, x.2.generation < s.nextGeneration
  /-- No two held objects share a generation. -/
  generation_inj : ∀ x ∈ heldObjects s, ∀ y ∈ heldObjects s, x.2.generation = y.2.generation → x = y

theorem nodup_of_subperm {α : Type} {l₁ l₂ : List α} (h : List.Subperm l₁ l₂) (hnd : l₂.Nodup) :
    l₁.Nodup := by
  obtain ⟨l, hperm, hsub⟩ := h
  exact hperm.nodup_iff.mp (hnd.sublist hsub)

section Run

variable {s : CacheSystem κ} {i : Nat} {t : CacheTask κ}

/-- The files, counted files and entries held, seen from task `i`: the map's and the task's,
then the other tasks'. -/
theorem held_perm (ht : s.tasks[i]? = some t) :
    List.Perm (heldFiles s)
      (s.shared.lruFiles ++ t.files ++ (s.tasks.eraseIdx i).flatMap CacheTask.files) ∧
    List.Perm (countedFiles s)
      (s.shared.lruFiles ++ t.counted ++ (s.tasks.eraseIdx i).flatMap CacheTask.counted) ∧
    List.Perm (heldObjects s)
      (s.shared.entries ++ t.objects ++ (s.tasks.eraseIdx i).flatMap CacheTask.objects) :=
  ⟨append_flatMap_perm_eraseIdx _ _ ht, append_flatMap_perm_eraseIdx _ _ ht,
    append_flatMap_perm_eraseIdx _ _ ht⟩

/-- The same after task `i` has moved to `t'` and the shared state to `sh'`. -/
theorem held_set_perm (ht : s.tasks[i]? = some t) (sh' : Shared κ) (t' : CacheTask κ) :
    let s' : CacheSystem κ := { s with shared := sh', tasks := s.tasks.set i t' }
    List.Perm (heldFiles s')
      (sh'.lruFiles ++ t'.files ++ (s.tasks.eraseIdx i).flatMap CacheTask.files) ∧
    List.Perm (countedFiles s')
      (sh'.lruFiles ++ t'.counted ++ (s.tasks.eraseIdx i).flatMap CacheTask.counted) ∧
    List.Perm (heldObjects s')
      (sh'.entries ++ t'.objects ++ (s.tasks.eraseIdx i).flatMap CacheTask.objects) :=
  ⟨append_flatMap_set_perm_eraseIdx _ _ ht t', append_flatMap_set_perm_eraseIdx _ _ ht t',
    append_flatMap_set_perm_eraseIdx _ _ ht t'⟩

/-- The invariant, read off for one task. -/
theorem CacheInv.taskInv (hinv : CacheInv s) (ht : s.tasks[i]? = some t) : TaskInv s.shared t := by
  obtain ⟨hF, hC, hO⟩ := held_perm ht
  refine ⟨(hF.nodup_iff.mp hinv.files_nodup).of_append_left, ?_, ?_⟩
  · have := hC.length_eq
    simp only [List.length_append] at this
    rw [hinv.count_eq]
    omega
  · intro x hx y hy
    exact hinv.generation_inj x (hO.mem_iff.mpr (List.mem_append_left _ hx)) y
      (hO.mem_iff.mpr (List.mem_append_left _ hy))

variable [DecidableEq κ]

/-- One step of task `i` keeps the invariant. -/
theorem CacheInv.run (hinv : CacheInv s) (ht : s.tasks[i]? = some t) {ok : Bool} {sh' : Shared κ}
    {t' : CacheTask κ} (hstep : taskStep s.shared ok t = some (sh', t')) :
    CacheInv { s with shared := sh', tasks := s.tasks.set i t' } := by
  have hf := taskStep_facts (hinv.taskInv ht) hstep
  obtain ⟨hF, hC, hO⟩ := held_perm ht
  obtain ⟨hF', hC', hO'⟩ := held_set_perm ht sh' t'
  have hfiles : List.Subperm (heldFiles { s with shared := sh', tasks := s.tasks.set i t' })
      (heldFiles s) :=
    hF'.subperm.trans (((List.subperm_append_right _).mpr hf.files).trans hF.symm.subperm)
  have hobjects : ∀ x ∈ heldObjects { s with shared := sh', tasks := s.tasks.set i t' },
      x ∈ heldObjects s := by
    intro x hx
    rcases List.mem_append.mp (hO'.mem_iff.mp hx) with hx | hx
    · exact hO.mem_iff.mpr (List.mem_append_left _ (hf.objects x hx))
    · exact hO.mem_iff.mpr (List.mem_append_right _ hx)
  refine ⟨hf.total hinv.total_eq, ?_, nodup_of_subperm hfiles hinv.files_nodup,
    fun p hp => hinv.files_lt p (hfiles.subset hp), ?_,
    fun x hx => hinv.generation_lt x (hobjects x hx),
    fun x hx y hy => hinv.generation_inj x (hobjects x hx) y (hobjects y hy)⟩
  · have h₁ := hC.length_eq
    have h₂ := hC'.length_eq
    have h₃ := hf.count
    have h₄ := hinv.count_eq
    simp only [List.length_append] at h₁ h₂ h₃ ⊢
    omega
  · intro p hp
    obtain ⟨hp, hmoved⟩ := hf.disk p hp
    rcases hinv.disk_held p hp with hheld | hleaked
    · rcases List.mem_append.mp (hF.mem_iff.mp hheld) with h' | h'
      · rcases hmoved h' with h'' | h''
        · exact .inl (hF'.mem_iff.mpr (List.mem_append_left _ h''))
        · exact .inr h''
      · exact .inl (hF'.mem_iff.mpr (List.mem_append_right _ h'))
    · exact .inr (hf.leaked p hleaked)

end Run

section Actions

theorem cacheInv_init (cap : Nat) (hcap : 0 < cap) : CacheInv (cacheInit cap hcap : CacheSystem κ) := by
  have hF : heldFiles (cacheInit cap hcap : CacheSystem κ) = [] := rfl
  have hC : countedFiles (cacheInit cap hcap : CacheSystem κ) = [] := rfl
  have hO : heldObjects (cacheInit cap hcap : CacheSystem κ) = [] := rfl
  refine ⟨rfl, by rw [hC]; rfl, by rw [hF]; exact List.nodup_nil, by simp [hF], (fun p hp => nomatch hp),
    by simp [hO], by simp [hO]⟩

variable [DecidableEq κ] {s : CacheSystem κ}

/-- Starting a task keeps the invariant when the task counts nothing yet and its files and
objects are new: paths and generations not handed out before, and below the next ones. -/
theorem CacheInv.spawn (hinv : CacheInv s) (t₀ : CacheTask κ) {disk : List Nat} {g np : Nat}
    (hcounted : t₀.counted = []) (hnodup : t₀.files.Nodup)
    (hfiles : ∀ p ∈ t₀.files, s.nextPath ≤ p ∧ p < np) (hnp : s.nextPath ≤ np)
    (hobjects : ∀ x ∈ t₀.objects, s.nextGeneration ≤ x.2.generation ∧ x.2.generation < g)
    (hg : s.nextGeneration ≤ g)
    (hinj : ∀ x ∈ t₀.objects, ∀ y ∈ t₀.objects, x.2.generation = y.2.generation → x = y)
    (hdisk : ∀ p ∈ disk, p ∈ s.shared.disk ∨ p ∈ t₀.files) :
    CacheInv ⟨{ s.shared with disk }, s.tasks ++ [t₀], g, np⟩ := by
  have hF : heldFiles ⟨{ s.shared with disk }, s.tasks ++ [t₀], g, np⟩ = heldFiles s ++ t₀.files := by
    simp [heldFiles, Shared.lruFiles, Shared.entries]
  have hC : countedFiles ⟨{ s.shared with disk }, s.tasks ++ [t₀], g, np⟩ = countedFiles s := by
    simp [countedFiles, Shared.lruFiles, Shared.entries, hcounted]
  have hO : heldObjects ⟨{ s.shared with disk }, s.tasks ++ [t₀], g, np⟩ =
      heldObjects s ++ t₀.objects := by
    simp [heldObjects, Shared.entries]
  refine ⟨hinv.total_eq, hC ▸ hinv.count_eq, ?_, ?_, ?_, ?_, ?_⟩
  · rw [hF, List.nodup_append]
    refine ⟨hinv.files_nodup, hnodup, fun p hp q hq hpq => ?_⟩
    have := hinv.files_lt p hp
    have := (hfiles q hq).1
    omega
  · intro p hp
    rw [hF] at hp
    rcases List.mem_append.mp hp with hp | hp
    · exact Nat.lt_of_lt_of_le (hinv.files_lt p hp) hnp
    · exact (hfiles p hp).2
  · intro p hp
    rw [hF]
    rcases hdisk p hp with hp | hp
    · rcases hinv.disk_held p hp with h | h
      · exact .inl (List.mem_append_left _ h)
      · exact .inr h
    · exact .inl (List.mem_append_right _ hp)
  · intro x hx
    rw [hO] at hx
    rcases List.mem_append.mp hx with hx | hx
    · exact Nat.lt_of_lt_of_le (hinv.generation_lt x hx) hg
    · exact (hobjects x hx).2
  · intro x hx y hy hxy
    rw [hO] at hx hy
    rcases List.mem_append.mp hx with hx | hx <;> rcases List.mem_append.mp hy with hy | hy
    · exact hinv.generation_inj x hx y hy hxy
    · have := hinv.generation_lt x hx
      have := (hobjects y hy).1
      omega
    · have := hinv.generation_lt y hy
      have := (hobjects x hx).1
      omega
    · exact hinj x hx y hy hxy

/-- Every action keeps the invariant. -/
theorem CacheInv.step (hinv : CacheInv s) {a : CacheAction κ} {s' : CacheSystem κ}
    (h : cacheStep s a = some s') : CacheInv s' := by
  cases a with
  | putFile key =>
    cases h
    refine hinv.spawn (.publishing key ⟨.file s.nextPath, s.nextGeneration⟩) rfl
      (List.nodup_singleton _) ?_ (Nat.le_succ _) ?_ (Nat.le_succ _) ?_ ?_
    · simp [CacheTask.files, CacheObject.file, CacheObject.filePath?]
    · simp [CacheTask.objects]
    · simp [CacheTask.objects]
    · simp [CacheTask.files, CacheObject.file, CacheObject.filePath?, or_comm]
  | putOnMemory key bytes =>
    cases h
    refine hinv.spawn (.publishing key ⟨.onMemory bytes, s.nextGeneration⟩) rfl
      List.nodup_nil (by simp [CacheTask.files, CacheObject.file, CacheObject.filePath?])
      (Nat.le_refl _) ?_ (Nat.le_succ _) ?_ fun p hp => .inl hp
    · simp [CacheTask.objects]
    · simp [CacheTask.objects]
  | get key =>
    cases h
    exact hinv.spawn (.getting key) rfl List.nodup_nil (by simp [CacheTask.files]) (Nat.le_refl _)
      (by simp [CacheTask.objects]) (Nat.le_refl _) (by simp [CacheTask.objects]) fun p hp => .inl hp
  | run i ok =>
    simp only [cacheStep, bind, Option.bind_eq_some_iff, Option.some.injEq] at h
    obtain ⟨t, ht, ⟨sh', t'⟩, hstep, rfl⟩ := h
    exact hinv.run ht hstep
  | poison =>
    cases h
    exact ⟨hinv.total_eq, hinv.count_eq, hinv.files_nodup, hinv.files_lt, hinv.disk_held,
      hinv.generation_lt, hinv.generation_inj⟩

/-- The invariant holds in every reachable state. -/
theorem cacheInv_of_reachable {cap : Nat} {hcap : 0 < cap} {s : CacheSystem κ}
    (hs : Reachable (cacheInit cap hcap) cacheStep s) : CacheInv s :=
  hs.invariant (cacheInv_init cap hcap) fun _ _ _ hinv h => hinv.step h

end Actions

section Consequences

variable {s : CacheSystem κ}

/-- The count, term by term: the file entries of the map, the publishers between `incr_count`
and `push`, and the removals before their decrement. -/
theorem CacheInv.count_terms (hinv : CacheInv s) :
    s.shared.fileCount = s.shared.entries.countP (fun e => e.2.filePath?.isSome) +
      s.tasks.countP CacheTask.isCountedPublisher + s.tasks.countP CacheTask.isRemoving := by
  rw [hinv.count_eq, countedFiles, List.length_append, Shared.lruFiles, length_entryFiles,
    length_flatMap_counted, Nat.add_assoc]

/-- The decrement of a removal finds its file counted, so `saturating_sub` never saturates. -/
theorem CacheInv.removing_count_pos (hinv : CacheInv s) {i p : Nat}
    (ht : s.tasks[i]? = some (CacheTask.removing p)) : 0 < s.shared.fileCount := by
  have := (hinv.taskInv ht).counted_le
  simp only [CacheTask.counted, List.length_singleton] at this
  omega

/-- With every task finished, the count is the number of file entries, and at most the number
of entries that `LruCacheManager` stores. -/
theorem CacheInv.quiescent (hinv : CacheInv s) (hdone : ∀ t ∈ s.tasks, t = .done) :
    s.shared.fileCount = s.shared.entries.countP (fun e => e.2.filePath?.isSome) ∧
      s.shared.fileCount ≤ s.shared.manager.cnt := by
  have hnone : s.tasks.flatMap CacheTask.counted = [] := by
    rw [List.flatMap_eq_nil_iff]
    intro t ht
    rw [hdone t ht]
    rfl
  have hcount : s.shared.fileCount = s.shared.entries.countP (fun e => e.2.filePath?.isSome) := by
    rw [hinv.count_eq, countedFiles, hnone, List.append_nil, Shared.lruFiles, length_entryFiles]
  refine ⟨hcount, ?_⟩
  rw [hcount, hinv.total_eq]
  exact List.countP_le_length

/-- A removal works on a file that no entry of the map has, and no other task removes it. -/
theorem CacheInv.removing_unique (hinv : CacheInv s) {i p : Nat}
    (ht : s.tasks[i]? = some (CacheTask.removing p)) :
    p ∉ s.shared.lruFiles ∧ ∀ j : Nat, s.tasks[j]? = some (CacheTask.removing p) → j = i := by
  obtain ⟨hF, -, -⟩ := held_perm ht
  have hnd := hF.nodup_iff.mp hinv.files_nodup
  have hp : p ∈ (CacheTask.removing p : CacheTask κ).files := List.mem_singleton_self p
  refine ⟨fun hL => (List.nodup_append.mp hnd.of_append_left).2.2 p hL p hp rfl, fun j hj => ?_⟩
  by_contra hji
  have hmem : CacheTask.removing p ∈ s.tasks.eraseIdx i :=
    List.mem_eraseIdx_iff_getElem?.mpr ⟨j, hji, hj⟩
  have hrest : p ∈ (s.tasks.eraseIdx i).flatMap CacheTask.files := List.mem_flatMap.mpr ⟨_, hmem, hp⟩
  exact (List.nodup_append.mp hnd).2.2 p (List.mem_append_right _ hp) p hrest rfl

variable [DecidableEq κ]

/-- A file that leaves the map in a step goes to a removal. -/
theorem CacheInv.leave (hinv : CacheInv s) {a : CacheAction κ} {s' : CacheSystem κ}
    (h : cacheStep s a = some s') {p : Nat} (hp : p ∈ s.shared.lruFiles)
    (hp' : p ∉ s'.shared.lruFiles) : ∃ i : Nat, s'.tasks[i]? = some (CacheTask.removing p) := by
  cases a with
  | run i ok =>
    simp only [cacheStep, bind, Option.bind_eq_some_iff, Option.some.injEq] at h
    obtain ⟨t, ht, ⟨sh', t'⟩, hstep, rfl⟩ := h
    have hf := taskStep_facts (hinv.taskInv ht) hstep
    refine ⟨i, ?_⟩
    rw [List.getElem?_set_self (List.getElem?_eq_some_iff.mp ht).1, hf.leave p hp hp']
  | _ =>
    cases h
    exact absurd hp hp'

theorem cache_file_count_invariant (cap : Nat) (hcap : 0 < cap) {s : CacheSystem κ}
    (hs : Reachable (cacheInit cap hcap) cacheStep s) :
    s.shared.fileCount = s.shared.entries.countP (fun e => e.2.filePath?.isSome) +
        s.tasks.countP CacheTask.isCountedPublisher + s.tasks.countP CacheTask.isRemoving ∧
      (∀ i p : Nat, s.tasks[i]? = some (CacheTask.removing p) → 0 < s.shared.fileCount) ∧
      ((∀ t ∈ s.tasks, t = .done) →
        s.shared.fileCount = s.shared.entries.countP (fun e => e.2.filePath?.isSome)) ∧
      s.shared.lruFiles.Nodup ∧
      (∀ i p : Nat, s.tasks[i]? = some (CacheTask.removing p) →
        p ∉ s.shared.lruFiles ∧ ∀ j : Nat, s.tasks[j]? = some (CacheTask.removing p) → j = i) ∧
      ∀ a s', cacheStep s a = some s' → ∀ p ∈ s.shared.lruFiles, p ∉ s'.shared.lruFiles →
        ∃ i : Nat, s'.tasks[i]? = some (CacheTask.removing p) := by
  have hinv := cacheInv_of_reachable hs
  exact ⟨hinv.count_terms, fun _ _ ht => hinv.removing_count_pos ht,
    fun hdone => (hinv.quiescent hdone).1, hinv.files_nodup.of_append_left,
    fun _ _ ht => hinv.removing_unique ht, fun _ _ h _ hp hp' => hinv.leave h hp hp'⟩

/-- Storing a key twice in a cache of one entry: the second push displaces the first file, whose
removal is pending, so two files are counted. -/
theorem cache_file_count_invariant_restore :
    ∃ s : CacheSystem String, Reachable (cacheInit 1 Nat.one_pos) cacheStep s ∧
      s.tasks = [.done, .removing 0] ∧ s.shared.fileCount = 2 ∧ 0 < s.shared.fileCount :=
  ⟨_, reachable_iff_run.mpr
      ⟨[.putFile "k", .run 0 true, .run 0 true, .putFile "k", .run 1 true, .run 1 true], rfl⟩,
    rfl, rfl,
    (cache_file_count_invariant 1 Nat.one_pos (reachable_iff_run.mpr
      ⟨[.putFile "k", .run 0 true, .run 0 true, .putFile "k", .run 1 true, .run 1 true], rfl⟩)).2.1
      1 0 rfl⟩

end Consequences

end Rpxy.CacheBookkeeping
