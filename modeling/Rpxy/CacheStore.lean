import Rpxy.Lru
import Rpxy.Reachability
import Rpxy.CacheSpool

/-!
# The cache's bookkeeping of its files

`RpxyCache` keeps its entries in an LRU map behind a mutex (`LruCacheManager`) and the number
of its committed files in an atomic (`FileStore::cnt`), under no common lock. A store runs
`publish_cache_object`: it counts a file-backed object (`incr_count`), pushes it into the map,
and evicts the file of the entry the push displaced, or its own file when the push fails. A
lookup (`RpxyCache::get`) clones the entry; when the clone is stale or its file cannot be opened
it pops the entry only if the map still holds that generation (`evict_if_generation`) and then
evicts the file. `FileStore::remove` decrements the count, then unlinks. The reader spawned by
`FileStore::read` unlinks a file whose hash does not match without touching the count.

The model is a system of tasks over this state (`Reachability`): each critical section of the
map, each atomic update of the count and each file-system call is one step, and any number of
stores and lookups interleave. The environment decides freshness, the failures of opens and
unlinks and hash mismatches, and may poison the mutex at any time. Stored objects get fresh
generations and files fresh paths, as the process-wide counters `CACHE_OBJECT_GEN` and
`CACHE_FILE_SEQ` give them; a store enters the model when `spool_and_store` has committed its
file. The invariant: the count is the number of files held by the map, by publishers between
`incr_count` and `push` and by removals before their decrement, and no file is held twice.
-/

namespace Rpxy.CacheStore

open Lru Reachability CacheSpool

/-- `CacheObject`: its target and its generation. The policy and the hash are read only by the
freshness and integrity checks, whose outcomes the environment decides. -/
structure CacheObject where
  /-- On disk at a path, or in memory. -/
  target : CacheFileOrOnMemory Nat
  /-- The generation stamped at insertion. -/
  generation : Nat
  deriving DecidableEq, Repr

/-- The path of a file-backed object (`new_file_path` in `publish_cache_object`). -/
def CacheObject.filePath? (o : CacheObject) : Option Nat :=
  match o.target with
  | .file path => some path
  | .onMemory _ => none

/-- The files of an object: its path, if it has one. -/
def CacheObject.file (o : CacheObject) : List Nat := o.filePath?.toList

/-- `CacheError`, as far as the mutex sections raise it. -/
inductive CacheError
  | failedToAcquiredMutexLockForCache
  | failedToAcquiredMutexLockForCheck
  deriving DecidableEq, Repr

/-- `LruCacheManager`: the map behind its mutex, whether the mutex is poisoned, and the entry
count it stores after each change. -/
structure LruCacheManager (κ : Type) where
  /-- The LRU map behind the mutex. -/
  inner : LruCache κ CacheObject
  /-- Whether the mutex is poisoned. -/
  poisoned : Bool
  /-- `cnt`, the entry count stored after each change. -/
  cnt : Nat

namespace LruCacheManager

variable {κ : Type} [DecidableEq κ]

/-- `LruCacheManager::new`; the capacity is `NonZeroUsize::new(cache_max_entry).unwrap()`. -/
def new (cap : Nat) (h : 0 < cap) : LruCacheManager κ := ⟨LruCache.new cap h, false, 0⟩

/-- `LruCacheManager::push`. -/
def push (m : LruCacheManager κ) (key : κ) (obj : CacheObject) :
    Except CacheError (LruCacheManager κ × Option (κ × CacheObject)) :=
  if m.poisoned then .error .failedToAcquiredMutexLockForCache
  else
    let r := m.inner.push key obj
    .ok ({ m with inner := r.1, cnt := r.1.len }, r.2)

/-- `LruCacheManager::get`. -/
def get (m : LruCacheManager κ) (key : κ) : Except CacheError (LruCacheManager κ × Option CacheObject) :=
  if m.poisoned then .error .failedToAcquiredMutexLockForCheck
  else
    let r := m.inner.get key
    .ok ({ m with inner := r.1 }, r.2)

/-- `LruCacheManager::evict_if_generation`: pops the entry of `key` only while it is still of
`generation`. -/
def evictIfGeneration (m : LruCacheManager κ) (key : κ) (generation : Nat) :
    LruCacheManager κ × Option (κ × CacheObject) :=
  if m.poisoned then (m, none)
  else if (m.inner.peek key).map (fun o => o.generation) != some generation then (m, none)
  else
    let r := m.inner.popEntry key
    ({ m with inner := r.1, cnt := r.1.len }, r.2)

end LruCacheManager

/-- Where a task stands: each constructor is the point before one atomic step. -/
inductive CacheTask (κ : Type)
  /-- `publish_cache_object` of a stored object, before `incr_count`. -/
  | publishing (key : κ) (obj : CacheObject)
  /-- `publish_cache_object` before `push`. -/
  | pushing (key : κ) (obj : CacheObject)
  /-- `RpxyCache::get` before its lookup. -/
  | getting (key : κ)
  /-- `RpxyCache::get` holding a clone of the entry, before the freshness check. -/
  | checking (key : κ) (obj : CacheObject)
  /-- `RpxyCache::get` before `File::open` of a fresh entry's file. -/
  | opening (key : κ) (obj : CacheObject) (path : Nat)
  /-- `RpxyCache::get` before `evict_if_generation` of a stale or unreadable entry. -/
  | evictingIfGeneration (key : κ) (obj : CacheObject)
  /-- The reader spawned by `FileStore::read`, before its hash check. -/
  | verifying (path : Nat)
  /-- `FileStore::remove` before its count decrement. -/
  | removing (path : Nat)
  /-- `FileStore::remove` before its unlink. -/
  | unlinking (path : Nat)
  | done
  deriving DecidableEq, Repr

/-- What the tasks share: the map, the file count, the committed files on disk, and the files
that a failed unlink left behind (a ghost variable of the model). -/
structure Shared (κ : Type) where
  /-- The cache's `LruCacheManager`. -/
  manager : LruCacheManager κ
  /-- The `FileStore` count of committed files. -/
  fileCount : Nat
  /-- The committed files on disk. -/
  disk : List Nat
  /-- The files a failed unlink left behind. -/
  leaked : List Nat

section Steps

variable {κ : Type}

/-- `FileStore::evict` of an object's file, if it has one. -/
def evictTask (obj : CacheObject) : CacheTask κ :=
  match obj.target with
  | .file path => .removing path
  | .onMemory _ => .done

/-- After a push, `publish_cache_object` evicts the displaced entry's file unless it is the file
just published. -/
def displacedTask (obj : CacheObject) : Option (κ × CacheObject) → CacheTask κ
  | some (_, v) =>
    match v.target with
    | .file oldPath => if some oldPath != obj.filePath? then .removing oldPath else .done
    | .onMemory _ => .done
  | none => .done

variable [DecidableEq κ]

/-- One atomic step of a task; `ok` is the environment's answer where the step asks one (is the
entry fresh, did the open or the unlink succeed, did the hash match). `none` for a finished
task. -/
def taskStep (sh : Shared κ) (ok : Bool) : CacheTask κ → Option (Shared κ × CacheTask κ)
  | .publishing key obj =>
    -- a file is counted before its entry is published
    if obj.filePath?.isSome then some ({ sh with fileCount := sh.fileCount + 1 }, .pushing key obj)
    else some (sh, .pushing key obj)
  | .pushing key obj =>
    match sh.manager.push key obj with
    | .error _ => some (sh, evictTask obj)
    | .ok (manager, displaced) => some ({ sh with manager }, displacedTask obj displaced)
  | .getting key =>
    match sh.manager.get key with
    | .ok (manager, some obj) => some ({ sh with manager }, .checking key obj)
    | .ok (manager, none) => some ({ sh with manager }, .done)
    | .error _ => some (sh, .done)
  | .checking key obj =>
    if ok then
      match obj.target with
      | .file path => some (sh, .opening key obj path)
      | .onMemory _ => some (sh, .done)
    else some (sh, .evictingIfGeneration key obj)
  | .opening key obj path =>
    -- `File::open` fails on a missing file, and otherwise as the environment says
    if ok && sh.disk.contains path then some (sh, .verifying path)
    else some (sh, .evictingIfGeneration key obj)
  | .evictingIfGeneration key obj =>
    let r := sh.manager.evictIfGeneration key obj.generation
    some ({ sh with manager := r.1 }, if r.2.isSome then evictTask obj else .done)
  | .verifying path =>
    -- `remove_uncounted_file` on a hash mismatch
    if ok then some (sh, .done) else some ({ sh with disk := sh.disk.filter (· != path) }, .done)
  | .removing path =>
    -- `fetch_update` with `saturating_sub(1)`
    some ({ sh with fileCount := sh.fileCount - 1 }, .unlinking path)
  | .unlinking path =>
    if ok then some ({ sh with disk := sh.disk.filter (· != path) }, .done)
    else some ({ sh with leaked := path :: sh.leaked }, .done)
  | .done => none

end Steps

/-- The cache with its tasks, and the next generation and the next file path to hand out. -/
structure CacheSystem (κ : Type) where
  /-- What the tasks share. -/
  shared : Shared κ
  /-- Each task where it is. -/
  tasks : List (CacheTask κ)
  /-- The next generation to hand out. -/
  nextGeneration : Nat
  /-- The next file path to hand out. -/
  nextPath : Nat

/-- What can happen next: a store whose body `spool_and_store` has committed to a file or kept
on memory reaches `publish_cache_object`, a lookup starts, a task takes its next step, or a
panic poisons the mutex. -/
inductive CacheAction (κ : Type)
  | putFile (key : κ)
  | putOnMemory (key : κ) (bytes : List UInt8)
  | get (key : κ)
  | run (i : Nat) (ok : Bool)
  | poison

section System

variable {κ : Type} [DecidableEq κ]

/-- A fresh cache of capacity `cap`: an empty map, no files, no tasks. -/
def cacheInit (cap : Nat) (h : 0 < cap) : CacheSystem κ :=
  ⟨⟨LruCacheManager.new cap h, 0, [], []⟩, [], 0, 0⟩

def cacheStep (s : CacheSystem κ) : CacheAction κ → Option (CacheSystem κ)
  | .putFile key =>
    let obj : CacheObject := ⟨.file s.nextPath, s.nextGeneration⟩
    some { s with
      shared := { s.shared with disk := s.nextPath :: s.shared.disk }
      tasks := s.tasks ++ [.publishing key obj]
      nextGeneration := s.nextGeneration + 1
      nextPath := s.nextPath + 1 }
  | .putOnMemory key bytes =>
    let obj : CacheObject := ⟨.onMemory bytes, s.nextGeneration⟩
    some { s with tasks := s.tasks ++ [.publishing key obj], nextGeneration := s.nextGeneration + 1 }
  | .get key => some { s with tasks := s.tasks ++ [.getting key] }
  | .run i ok => do
    let t ← s.tasks[i]?
    let r ← taskStep s.shared ok t
    some { s with shared := r.1, tasks := s.tasks.set i r.2 }
  | .poison =>
    some { s with shared := { s.shared with manager := { s.shared.manager with poisoned := true } } }

end System

/-! ## What one step does to the files

A task holds files: a publisher the file of its object, a removal the file it removes. A file
is counted from `incr_count` to the decrement of `remove`. The lemmas of this part say, for one
step of one task against the map, that the files of the map and the task are only passed
between them or, by a finished unlink, let go; that the count moves with the counted ones; and
that the entries the task holds come from the map or are its own object. -/

section Files

variable {κ : Type}

/-- The files of a list of entries. -/
def entryFiles (l : List (κ × CacheObject)) : List Nat := l.flatMap fun e => e.2.file

/-- The map's entries. -/
def Shared.entries (sh : Shared κ) : List (κ × CacheObject) := sh.manager.inner.entries

/-- The files of the map's entries. -/
def Shared.lruFiles (sh : Shared κ) : List Nat := entryFiles sh.entries

/-- The files a task is responsible for. -/
def CacheTask.files : CacheTask κ → List Nat
  | .publishing _ obj | .pushing _ obj => obj.file
  | .removing path | .unlinking path => [path]
  | _ => []

/-- The files a task holds counted: after `incr_count`, and before the decrement of `remove`. -/
def CacheTask.counted : CacheTask κ → List Nat
  | .pushing _ obj => obj.file
  | .removing path => [path]
  | _ => []

/-- The entries a task holds: the object it publishes, or the clone it looked up. -/
def CacheTask.objects : CacheTask κ → List (κ × CacheObject)
  | .publishing key obj | .pushing key obj | .checking key obj | .opening key obj _
  | .evictingIfGeneration key obj => [(key, obj)]
  | _ => []

/-- A publisher that has counted its file and not yet pushed it. -/
def CacheTask.isCountedPublisher : CacheTask κ → Bool
  | .pushing _ obj => obj.filePath?.isSome
  | _ => false

/-- A removal before its decrement. -/
def CacheTask.isRemoving : CacheTask κ → Bool
  | .removing _ => true
  | _ => false

@[simp] theorem entryFiles_nil : entryFiles ([] : List (κ × CacheObject)) = [] := rfl

@[simp] theorem entryFiles_cons (e : κ × CacheObject) (l : List (κ × CacheObject)) :
    entryFiles (e :: l) = e.2.file ++ entryFiles l := rfl

@[simp] theorem entryFiles_append (l₁ l₂ : List (κ × CacheObject)) :
    entryFiles (l₁ ++ l₂) = entryFiles l₁ ++ entryFiles l₂ := List.flatMap_append

theorem entryFiles_perm {l₁ l₂ : List (κ × CacheObject)} (h : List.Perm l₁ l₂) :
    List.Perm (entryFiles l₁) (entryFiles l₂) :=
  h.flatMap_right _

theorem mem_entryFiles {l : List (κ × CacheObject)} {p : Nat} :
    p ∈ entryFiles l ↔ ∃ e ∈ l, p ∈ e.2.file := by
  simp [entryFiles]

/-- The map's files are those of its file-backed entries. -/
theorem length_entryFiles (l : List (κ × CacheObject)) :
    (entryFiles l).length = l.countP fun e => e.2.filePath?.isSome := by
  induction l with
  | nil => rfl
  | cons e l ih =>
    rw [entryFiles_cons, List.length_append, ih, List.countP_cons]
    unfold CacheObject.file
    cases e.2.filePath? <;> simp +arith

theorem CacheTask.length_counted (t : CacheTask κ) :
    t.counted.length = (if t.isCountedPublisher then 1 else 0) + (if t.isRemoving then 1 else 0) := by
  cases t with
  | pushing key obj =>
    simp only [CacheTask.counted, CacheTask.isCountedPublisher, CacheTask.isRemoving, CacheObject.file]
    rcases Option.eq_none_or_eq_some obj.filePath? with h | ⟨p, h⟩ <;> simp [h]
  | _ => rfl

/-- The counted files of the tasks are those of the counted publishers and of the removals. -/
theorem length_flatMap_counted (l : List (CacheTask κ)) :
    (l.flatMap CacheTask.counted).length =
      l.countP CacheTask.isCountedPublisher + l.countP CacheTask.isRemoving := by
  induction l with
  | nil => rfl
  | cons t l ih =>
    rw [List.flatMap_cons, List.length_append, ih, List.countP_cons, List.countP_cons,
      CacheTask.length_counted]
    omega

theorem CacheObject.mem_file {o : CacheObject} {p : Nat} : p ∈ o.file ↔ o.target = .file p := by
  unfold CacheObject.file CacheObject.filePath?
  split <;> simp_all [eq_comm]

@[simp] theorem evictTask_files (obj : CacheObject) : (evictTask obj : CacheTask κ).files = obj.file := by
  unfold evictTask CacheObject.file CacheObject.filePath?
  split <;> rfl

@[simp] theorem evictTask_counted (obj : CacheObject) : (evictTask obj : CacheTask κ).counted = obj.file := by
  unfold evictTask CacheObject.file CacheObject.filePath?
  split <;> rfl

@[simp] theorem evictTask_objects (obj : CacheObject) : (evictTask obj : CacheTask κ).objects = [] := by
  unfold evictTask
  split <;> rfl

theorem evictTask_of_mem_file {obj : CacheObject} {p : Nat} (h : p ∈ obj.file) :
    (evictTask obj : CacheTask κ) = .removing p := by
  rw [CacheObject.mem_file] at h
  simp [evictTask, h]

/-- The displaced entry's file goes to a removal, since it is not the file just published. -/
theorem displacedTask_eq {obj : CacheObject} {d : Option (κ × CacheObject)}
    (hd : ∀ e ∈ d, ∀ p ∈ e.2.file, p ∉ obj.file) :
    (displacedTask obj d).files = entryFiles d.toList ∧
      (displacedTask obj d).counted = entryFiles d.toList ∧ (displacedTask obj d).objects = [] ∧
      ∀ p ∈ entryFiles d.toList, displacedTask obj d = .removing p := by
  rcases d with _ | ⟨k, v⟩
  · exact ⟨rfl, rfl, rfl, by simp⟩
  · simp only [Option.mem_def, Option.some.injEq, forall_eq'] at hd
    cases htarget : v.target with
    | file oldPath =>
      have hold : oldPath ∉ obj.file := hd oldPath (CacheObject.mem_file.mpr htarget)
      have hne : (some oldPath != obj.filePath?) = true := by
        have : obj.filePath? ≠ some oldPath := by simpa [CacheObject.file, Option.mem_toList] using hold
        simpa using this.symm
      simp only [displacedTask, htarget, if_pos hne]
      simp [CacheTask.files, CacheTask.counted, CacheTask.objects, entryFiles, CacheObject.file,
        CacheObject.filePath?, htarget]
    | onMemory bytes =>
      simp [displacedTask, CacheTask.files, CacheTask.counted, CacheTask.objects, entryFiles, CacheObject.file,
        CacheObject.filePath?, htarget]

end Files

namespace LruCacheManager

variable {κ : Type} [DecidableEq κ]

/-- A push that takes the lock moves the object in and at most one entry, one the map held,
out. -/
theorem push_eq_ok {m m' : LruCacheManager κ} {key : κ} {obj : CacheObject}
    {d : Option (κ × CacheObject)} (h : m.push key obj = .ok (m', d)) :
    List.Perm (m'.inner.entries ++ d.toList) ((key, obj) :: m.inner.entries) ∧
      (∀ e ∈ d, e ∈ m.inner.entries) ∧ m'.cnt = m'.inner.len := by
  unfold push at h
  split at h
  · cases h
  · cases h
    exact ⟨LruCache.push_perm _ _ _, fun e he => LruCache.push_snd_mem he, rfl⟩

/-- A lookup that takes the lock reorders the map and returns an entry of the key. -/
theorem get_eq_ok {m m' : LruCacheManager κ} {key : κ} {r : Option CacheObject}
    (h : m.get key = .ok (m', r)) :
    List.Perm m'.inner.entries m.inner.entries ∧ (∀ o ∈ r, (key, o) ∈ m.inner.entries) ∧
      m'.cnt = m.cnt := by
  unfold get at h
  split at h
  · cases h
  · cases h
    refine ⟨LruCache.get_perm _ _, fun o ho => LruCache.mem_of_peek_eq_some ?_, rfl⟩
    rw [← LruCache.get_snd]
    exact ho

/-- `evict_if_generation` changes nothing, or pops the entry of `key`, which was of the
generation asked for. -/
theorem evictIfGeneration_cases (m : LruCacheManager κ) (key : κ) (g : Nat) :
    m.evictIfGeneration key g = (m, none) ∨
      ∃ o, (key, o) ∈ m.inner.entries ∧ o.generation = g ∧
        (m.evictIfGeneration key g).2 = some (key, o) ∧
        List.Perm ((m.evictIfGeneration key g).1.inner.entries ++ [(key, o)]) m.inner.entries ∧
        (m.evictIfGeneration key g).1.cnt = (m.evictIfGeneration key g).1.inner.len := by
  unfold evictIfGeneration
  split
  · exact .inl rfl
  · split
    · exact .inl rfl
    · next hgen =>
      obtain ⟨o, hpeek, hg⟩ : ∃ o, m.inner.peek key = some o ∧ o.generation = g := by
        simpa using hgen
      refine .inr ⟨o, LruCache.mem_of_peek_eq_some hpeek, hg, ?_, ?_, rfl⟩
      · simp [LruCache.popEntry_snd, hpeek]
      · simpa [LruCache.popEntry_snd, hpeek] using LruCache.popEntry_perm m.inner key

end LruCacheManager

section StepFacts

variable {κ : Type}

/-- What the invariant of the whole cache says of one task and the map. -/
structure TaskInv (sh : Shared κ) (t : CacheTask κ) : Prop where
  /-- The map and the task hold each file once. -/
  files_nodup : (sh.lruFiles ++ t.files).Nodup
  /-- The task's counted files are within the count. -/
  counted_le : t.counted.length ≤ sh.fileCount
  /-- No two objects of the map and the task share a generation. -/
  generation_inj : ∀ x ∈ sh.entries ++ t.objects, ∀ y ∈ sh.entries ++ t.objects,
    x.2.generation = y.2.generation → x = y

/-- What one step of a task does to what the task and the map hold: files are only passed
between them or let go, the count moves with the counted files, the files on disk and the
entries held only shrink, and a file leaves the map only for a removal. -/
structure StepFacts (sh sh' : Shared κ) (t t' : CacheTask κ) : Prop where
  /-- Files are only passed between the map and the task, or let go. -/
  files : List.Subperm (sh'.lruFiles ++ t'.files) (sh.lruFiles ++ t.files)
  /-- The count moves with the counted files. -/
  count : sh'.fileCount + (sh.lruFiles ++ t.counted).length =
    sh.fileCount + (sh'.lruFiles ++ t'.counted).length
  /-- Files on disk only go, and a held file stays held or is leaked. -/
  disk : ∀ p ∈ sh'.disk, p ∈ sh.disk ∧
    (p ∈ sh.lruFiles ++ t.files → p ∈ sh'.lruFiles ++ t'.files ∨ p ∈ sh'.leaked)
  /-- A leaked file stays leaked. -/
  leaked : ∀ p ∈ sh.leaked, p ∈ sh'.leaked
  /-- Entries are never made up. -/
  objects : ∀ x ∈ sh'.entries ++ t'.objects, x ∈ sh.entries ++ t.objects
  /-- The stored entry count stays the map's size. -/
  total : sh.manager.cnt = sh.manager.inner.len → sh'.manager.cnt = sh'.manager.inner.len
  /-- A file leaves the map only when the task removes it. -/
  leave : ∀ p ∈ sh.lruFiles, p ∉ sh'.lruFiles → t' = .removing p

/-- The steps that leave the map alone only pass files within the task. -/
theorem StepFacts.of_manager_eq {sh sh' : Shared κ} {t t' : CacheTask κ} (hm : sh'.manager = sh.manager)
    (hfiles : List.Subperm t'.files t.files)
    (hcount : sh'.fileCount + t.counted.length = sh.fileCount + t'.counted.length)
    (hdisk : ∀ p ∈ sh'.disk, p ∈ sh.disk ∧ (p ∈ t.files → p ∈ t'.files ∨ p ∈ sh'.leaked))
    (hleaked : ∀ p ∈ sh.leaked, p ∈ sh'.leaked) (hobjects : ∀ x ∈ t'.objects, x ∈ t.objects) :
    StepFacts sh sh' t t' := by
  have hL : sh'.lruFiles = sh.lruFiles := by simp only [Shared.lruFiles, Shared.entries, hm]
  have hE : sh'.entries = sh.entries := by simp only [Shared.entries, hm]
  refine ⟨?_, ?_, ?_, hleaked, ?_, ?_, ?_⟩
  · rw [hL]
    exact (List.subperm_append_left _).mpr hfiles
  · simp only [hL, List.length_append]
    omega
  · intro p hp
    refine ⟨(hdisk p hp).1, fun hmem => ?_⟩
    rw [List.mem_append] at hmem
    rw [hL, List.mem_append]
    rcases hmem with hmem | hmem
    · exact .inl (.inl hmem)
    · rcases (hdisk p hp).2 hmem with h' | h'
      · exact .inl (.inr h')
      · exact .inr h'
  · intro x hx
    rw [hE, List.mem_append] at hx
    rcases hx with hx | hx
    · exact List.mem_append_left _ hx
    · exact List.mem_append_right _ (hobjects x hx)
  · rw [hm]
    exact id
  · intro p hp hp'
    exact absurd (hL ▸ hp) hp'

/-- The steps that only reorder the map hold no files. -/
theorem StepFacts.of_perm {sh sh' : Shared κ} {t t' : CacheTask κ}
    (hperm : List.Perm sh'.entries sh.entries) (hcnt : sh'.manager.cnt = sh.manager.cnt)
    (hrest : sh'.fileCount = sh.fileCount ∧ sh'.disk = sh.disk ∧ sh'.leaked = sh.leaked)
    (ht : t.files = [] ∧ t.counted = []) (ht' : t'.files = [] ∧ t'.counted = [])
    (hobjects : ∀ x ∈ t'.objects, x ∈ sh.entries) : StepFacts sh sh' t t' := by
  obtain ⟨hcount, hdisk, hleaked⟩ := hrest
  have hL : List.Perm sh'.lruFiles sh.lruFiles := entryFiles_perm hperm
  refine ⟨?_, ?_, ?_, ?_, ?_, ?_, ?_⟩
  · simpa [ht.1, ht'.1] using hL.subperm
  · simp [ht.2, ht'.2, hcount, hL.length_eq]
  · intro p hp
    refine ⟨hdisk ▸ hp, fun hmem => .inl ?_⟩
    simpa [ht.1, ht'.1] using hL.mem_iff.mpr (by simpa [ht.1] using hmem)
  · intro p hp
    exact hleaked ▸ hp
  · intro x hx
    rcases List.mem_append.mp hx with hx | hx
    · exact List.mem_append_left _ (hperm.mem_iff.mp hx)
    · exact List.mem_append_left _ (hobjects x hx)
  · intro htotal
    rw [hcnt, htotal]
    exact hperm.length_eq.symm
  · intro p hp hp'
    exact absurd (hL.mem_iff.mpr hp) hp'

variable [DecidableEq κ]

/-- One step of any task, from a state where the invariant holds of it. -/
theorem taskStep_facts {sh sh' : Shared κ} {ok : Bool} {t t' : CacheTask κ} (hinv : TaskInv sh t)
    (h : taskStep sh ok t = some (sh', t')) : StepFacts sh sh' t t' := by
  cases t with
  | publishing key obj =>
    simp only [taskStep] at h
    split at h
    · next hfile =>
      cases h
      obtain ⟨p, hp⟩ := Option.isSome_iff_exists.mp hfile
      refine StepFacts.of_manager_eq rfl (List.Subperm.refl _) ?_ ?_ (fun _ => id) (fun _ => id)
      · simp [CacheTask.counted, CacheObject.file, hp]
      · intro p hp
        exact ⟨hp, fun h => .inl h⟩
    · cases h
      refine StepFacts.of_manager_eq rfl (List.Subperm.refl _) ?_ ?_ (fun _ => id) (fun _ => id)
      · simp_all [CacheTask.counted, CacheObject.file]
      · intro p hp
        exact ⟨hp, fun h => .inl h⟩
  | pushing key obj =>
    simp only [taskStep] at h
    split at h
    · cases h
      refine StepFacts.of_manager_eq rfl ?_ ?_ ?_ (fun _ => id) ?_
      · rw [evictTask_files]
        exact List.Subperm.refl _
      · rw [evictTask_counted]
        rfl
      · intro p hp
        refine ⟨hp, fun h => .inl ?_⟩
        rwa [evictTask_files]
      · simp
    · next m d hpush =>
      cases h
      obtain ⟨hperm, hmem, hcnt⟩ := LruCacheManager.push_eq_ok hpush
      have hdisjoint : ∀ e ∈ d, ∀ p ∈ e.2.file, p ∉ obj.file := by
        intro e he p hp hp'
        have hpL : p ∈ sh.lruFiles := mem_entryFiles.mpr ⟨e, hmem e he, hp⟩
        exact (List.nodup_append.mp hinv.files_nodup).2.2 p hpL p hp' rfl
      obtain ⟨hfiles, hcounted, hobjects, hremoving⟩ := displacedTask_eq hdisjoint
      have hL : List.Perm (entryFiles m.inner.entries ++ entryFiles d.toList)
          (sh.lruFiles ++ obj.file) := by
        have := entryFiles_perm hperm
        rw [entryFiles_append, entryFiles_cons] at this
        exact this.trans List.perm_append_comm
      refine ⟨?_, ?_, ?_, fun _ => id, ?_, fun _ => hcnt, ?_⟩
      · show List.Subperm (entryFiles m.inner.entries ++ (displacedTask obj d).files)
          (sh.lruFiles ++ obj.file)
        rw [hfiles]
        exact hL.subperm
      · show sh.fileCount + (sh.lruFiles ++ obj.file).length =
          sh.fileCount + (entryFiles m.inner.entries ++ (displacedTask obj d).counted).length
        rw [hcounted, hL.length_eq]
      · intro p hp
        refine ⟨hp, fun hmem' => .inl ?_⟩
        show p ∈ entryFiles m.inner.entries ++ (displacedTask obj d).files
        rw [hfiles]
        exact hL.mem_iff.mpr hmem'
      · intro x hx
        have hx' : x ∈ m.inner.entries := by simpa [Shared.entries, hobjects] using hx
        simpa [Shared.entries, CacheTask.objects, or_comm] using
          hperm.mem_iff.mp (List.mem_append_left _ hx')
      · intro p hp hp'
        have := hL.mem_iff.mpr (List.mem_append_left _ hp)
        rcases List.mem_append.mp this with h' | h'
        · exact absurd h' hp'
        · exact hremoving p h'
  | getting key =>
    simp only [taskStep] at h
    split at h
    · next m obj hget =>
      cases h
      obtain ⟨hperm, hmem, hcnt⟩ := LruCacheManager.get_eq_ok hget
      refine StepFacts.of_perm hperm hcnt ⟨rfl, rfl, rfl⟩ ⟨rfl, rfl⟩ ⟨rfl, rfl⟩ fun x hx => ?_
      rw [CacheTask.objects, List.mem_singleton] at hx
      subst hx
      exact hmem obj rfl
    · next m hget =>
      cases h
      obtain ⟨hperm, -, hcnt⟩ := LruCacheManager.get_eq_ok hget
      exact StepFacts.of_perm hperm hcnt ⟨rfl, rfl, rfl⟩ ⟨rfl, rfl⟩ ⟨rfl, rfl⟩ (by simp [CacheTask.objects])
    · cases h
      exact StepFacts.of_manager_eq rfl (List.Subperm.refl _) rfl (fun p hp => ⟨hp, .inl⟩)
        (fun _ => id) (by simp [CacheTask.objects])
  | checking key obj =>
    simp only [taskStep] at h
    split at h
    · split at h <;> cases h <;>
        exact StepFacts.of_manager_eq rfl (List.Subperm.refl _) rfl (fun p hp => ⟨hp, .inl⟩)
          (fun _ => id) (by simp [CacheTask.objects])
    · cases h
      exact StepFacts.of_manager_eq rfl (List.Subperm.refl _) rfl (fun p hp => ⟨hp, .inl⟩)
        (fun _ => id) (fun _ => id)
  | opening key obj path =>
    simp only [taskStep] at h
    split at h <;> cases h <;>
      exact StepFacts.of_manager_eq rfl (List.Subperm.refl _) rfl (fun p hp => ⟨hp, .inl⟩)
        (fun _ => id) (by simp [CacheTask.objects])
  | evictingIfGeneration key obj =>
    simp only [taskStep] at h
    cases h
    rcases LruCacheManager.evictIfGeneration_cases sh.manager key obj.generation with
      heq | ⟨o, ho, hg, hsnd, hperm, hcnt⟩
    · simp only [heq, Option.isSome_none, Bool.false_eq_true, if_false]
      exact StepFacts.of_manager_eq rfl (List.nil_subperm) rfl (fun p hp => ⟨hp, fun h => by cases h⟩)
        (fun _ => id) (by simp [CacheTask.objects])
    · have hobj : (key, o) = (key, obj) :=
        hinv.generation_inj _ (List.mem_append_left _ ho) _
          (List.mem_append_right _ (by simp [CacheTask.objects])) hg
      have hoo : obj = o := (Prod.mk.inj hobj).2.symm
      subst hoo
      simp only [hsnd, Option.isSome_some, if_true]
      generalize (sh.manager.evictIfGeneration key obj.generation).1 = m at hperm hcnt ⊢
      have hL : List.Perm (entryFiles m.inner.entries ++ obj.file) sh.lruFiles := by
        have := entryFiles_perm hperm
        rw [entryFiles_append, entryFiles_cons, entryFiles_nil, List.append_nil] at this
        exact this
      refine ⟨?_, ?_, ?_, fun _ => id, ?_, fun _ => hcnt, ?_⟩
      · show List.Subperm (entryFiles m.inner.entries ++ (evictTask obj).files) (sh.lruFiles ++ [])
        rw [evictTask_files, List.append_nil]
        exact hL.subperm
      · show sh.fileCount + (sh.lruFiles ++ []).length =
          sh.fileCount + (entryFiles m.inner.entries ++ (evictTask obj).counted).length
        rw [evictTask_counted, hL.length_eq, List.append_nil]
      · intro p hp
        refine ⟨hp, fun hmem => .inl ?_⟩
        show p ∈ entryFiles m.inner.entries ++ (evictTask obj).files
        rw [evictTask_files]
        exact hL.mem_iff.mpr (by simpa [CacheTask.files] using hmem)
      · intro x hx
        have hx' : x ∈ m.inner.entries := by simpa [Shared.entries] using hx
        exact List.mem_append_left _ (hperm.mem_iff.mp (List.mem_append_left _ hx'))
      · intro p hp hp'
        rcases List.mem_append.mp (hL.mem_iff.mpr hp) with h' | h'
        · exact absurd h' hp'
        · exact evictTask_of_mem_file h'
  | verifying path =>
    simp only [taskStep] at h
    split at h <;> cases h <;>
      exact StepFacts.of_manager_eq rfl (List.Subperm.refl _) rfl
        (fun p hp => ⟨by simp_all, fun h => by cases h⟩) (fun _ => id) (fun _ => id)
  | removing path =>
    simp only [taskStep] at h
    cases h
    have hpos : 1 ≤ sh.fileCount := by simpa [CacheTask.counted] using hinv.counted_le
    refine StepFacts.of_manager_eq rfl (List.Subperm.refl _) ?_ (fun p hp => ⟨hp, .inl⟩)
      (fun _ => id) (fun _ => id)
    simp only [CacheTask.counted, List.length_singleton, List.length_nil]
    omega
  | unlinking path =>
    simp only [taskStep] at h
    split at h <;> cases h
    · refine StepFacts.of_manager_eq rfl List.nil_subperm rfl ?_ (fun _ => id) (fun _ => id)
      intro p hp
      simp only [List.mem_filter, bne_iff_ne, ne_eq] at hp
      refine ⟨hp.1, fun h => ?_⟩
      simp [CacheTask.files] at h
      exact absurd h hp.2
    · refine StepFacts.of_manager_eq rfl List.nil_subperm rfl ?_ ?_ (fun _ => id)
      · intro p hp
        refine ⟨hp, fun h => .inr ?_⟩
        simp_all [CacheTask.files]
      · intro p hp
        exact List.mem_cons_of_mem _ hp
  | done => cases h

end StepFacts

end Rpxy.CacheStore
