import Rpxy.RustUsize
import Rpxy.RustResult
import Mathlib.Data.List.Basic

/-!
# Relaying and storing a response body: `spool_and_store`

`RpxyCache::put` relays the upstream body to the client through `spool_and_store`, which
forwards every frame first and then tries to keep a copy: on memory while the body is small
(phase M), in a temp file once it crosses `max_each_size_on_memory` (phase F). An error
frame, a body over `max_each_size`, or a failed file operation abandons the copy, never the
relay; at the end the temp file is committed (flush, then rename to its final path).

The model runs the loop over a finite list of frames against `SpoolEffects`, which says which
sends reach the receiver and which file operations succeed, and keeps this call's temp and
final file on a `Disk`. `hasher` is the list of bytes given to `Sha256::update`; `finalize`
is a parameter `sha256` applied to it, which is the documented contract of `Digest`.
`remove_uncounted_file` only logs a failed unlink, so its result is not observable to the caller;
the model takes every unlink of the temp file to succeed, and a temp file whose unlink fails
is outside it.

`spool_and_store_stores_body` states what the call guarantees when `max_each_size` is below
`usize::MAX`; at `usize::MAX` the saturating size check cannot fire, and a body longer than
`usize::MAX` bytes is stored.
-/

namespace Rpxy.CacheSpool

open RustUsize RustResult

/-- One item of the upstream body stream, `Result<Frame<Bytes>, E>`. -/
inductive Frame
  /-- A data frame. -/
  | data (bytes : List UInt8)
  /-- A non-data frame, such as trailers: forwarded, never stored. -/
  | trailers
  /-- An error item. -/
  | error
  deriving DecidableEq, Repr

/-- `frame.as_ref().ok().and_then(|f| f.data_ref().cloned())`. -/
def Frame.dataRef : Frame → Option (List UInt8)
  | .data bytes => some bytes
  | _ => none

/-- `frame.is_err()`. -/
def Frame.isErr : Frame → Bool
  | .error => true
  | _ => false

/-- The body a list of frames carries: its data frames, concatenated. -/
def bodyData (frames : List Frame) : List UInt8 := frames.flatMap fun f => f.dataRef.getD []

/-- `CacheFileOrOnMemory`: a committed file, or the bytes on memory. -/
inductive CacheFileOrOnMemory (Path : Type)
  | file (path : Path)
  | onMemory (bytes : List UInt8)
  deriving DecidableEq, Repr

/-- This call's files: its temp file and its final path, each with its content when it exists,
and how many file operations the call has made. -/
structure Disk where
  /-- The temp file and its content, while it exists. -/
  temp : Option (List UInt8)
  /-- The content at the final path, once committed. -/
  final : Option (List UInt8)
  /-- How many file operations the call has made. -/
  ops : Nat
  deriving DecidableEq, Repr

/-- What the environment decides during one call. -/
structure SpoolEffects where
  /-- Whether the `i`-th `body_tx.send` succeeds; it fails once the receiver is dropped. -/
  sendOk : Nat → Bool
  /-- Whether the `k`-th file operation of the call (create, write, flush, rename) succeeds. -/
  ioOk : Nat → Bool

/-- `SpillFile::create`: a fresh empty temp file (`create_new`). -/
def Disk.create (io : Nat → Bool) (d : Disk) : Bool × Disk :=
  if io d.ops then (true, { d with temp := some [], ops := d.ops + 1 })
  else (false, { d with ops := d.ops + 1 })

/-- `SpillFile::write`: `write_all` appends to the temp file. -/
def Disk.write (io : Nat → Bool) (data : List UInt8) (d : Disk) : Bool × Disk :=
  if io d.ops then (true, { d with temp := d.temp.map (· ++ data), ops := d.ops + 1 })
  else (false, { d with ops := d.ops + 1 })

/-- `SpillFile::abort`, through `remove_uncounted_file`: the temp file is unlinked. -/
def Disk.abort (d : Disk) : Disk := { d with temp := none }

/-- `SpillFile::commit`: flush, then rename the temp file to the final path; a failure of
either unlinks the temp file. -/
def Disk.commit (io : Nat → Bool) (d : Disk) : Bool × Disk :=
  if !io d.ops then (false, { d with temp := none, ops := d.ops + 1 })
  else if !io (d.ops + 1) then (false, { d with temp := none, ops := d.ops + 2 })
  else (true, { temp := none, final := d.temp, ops := d.ops + 2 })

/-- The locals of `spool_and_store`, with the frames sent so far and the disk. -/
structure Spool where
  /-- The bytes given to `hasher.update`. -/
  hashed : List UInt8
  /-- `buf`, the body buffered in phase M. -/
  buf : List UInt8
  /-- `size`, the bytes counted so far. -/
  size : Nat
  /-- `cacheable`: the copy is still kept. -/
  cacheable : Bool
  /-- `spill.is_some()`. -/
  spill : Bool
  /-- This call's files. -/
  disk : Disk
  /-- The frames `body_tx` has accepted. -/
  sent : List Frame

def Spool.init : Spool := ⟨[], [], 0, true, false, ⟨none, none, 0⟩, []⟩

/-- `if let Some(s) = spill.take() { s.abort().await; }`. -/
def Spool.dropSpill (s : Spool) : Spool :=
  { s with spill := false, disk := if s.spill then s.disk.abort else s.disk }

/-- Give up the copy and keep relaying: the error-frame and over-limit branches. -/
def Spool.abandon (s : Spool) : Spool := { s.dropSpill with cacheable := false, buf := [] }

/-- Phase F, `spill.write(data)`: a failure gives up the copy and aborts the spill. -/
def Spool.writeSpill (io : Nat → Bool) (data : List UInt8) (s : Spool) : Spool :=
  match s.disk.write io data with
  | (true, disk) => { s with disk }
  | (false, disk) => { s with disk, cacheable := false }.dropSpill

/-- Phase M crossing `max_each_size_on_memory`: `SpillFile::create`, then
`s.write(buf).is_err() || s.write(data).is_err()` on the new file; a failure gives up the copy
and aborts the new file. The buffer is freed either way. -/
def Spool.spillOver (io : Nat → Bool) (data : List UInt8) (s : Spool) : Spool :=
  let s' :=
    match s.disk.create io with
    | (false, disk) => { s with disk, cacheable := false }
    | (true, disk) =>
      match disk.write io s.buf with
      | (false, disk) => { s with disk := disk.abort, cacheable := false }
      | (true, disk) =>
        match disk.write io data with
        | (false, disk) => { s with disk := disk.abort, cacheable := false }
        | (true, disk) => { s with disk, spill := true }
  { s' with buf := [] }

/-- One iteration of the `while let Some(frame)` loop; `error` is the early `return None` when
the receiver is gone, with the state it leaves. -/
def spoolFrame (fx : SpoolEffects) (maxEachSize maxEachSizeOnMemory : Nat) (s : Spool) (frame : Frame) :
    Except Spool Spool :=
  -- forward downstream first
  if !fx.sendOk s.sent.length then .error s.dropSpill
  else
    let s := { s with sent := s.sent ++ [frame] }
    if !s.cacheable then .ok s
    else if frame.isErr then .ok s.abandon
    else match frame.dataRef with
      | none => .ok s
      | some data =>
        if saturatingAdd s.size data.length > maxEachSize then .ok s.abandon
        else
          let s := { s with size := saturatingAdd s.size data.length, hashed := s.hashed ++ data }
          if s.spill then .ok (s.writeSpill fx.ioOk data)
          else if saturatingAdd s.buf.length data.length > maxEachSizeOnMemory then .ok (s.spillOver fx.ioOk data)
          else .ok { s with buf := s.buf ++ data }

/-- `spool_and_store`: the stored object and its hash, if any, with the final state (what was
sent, what is on disk). -/
def spoolAndStore {Path : Type} (fx : SpoolEffects) (sha256 : List UInt8 → List UInt8) (finalPath : Path)
    (maxEachSize maxEachSizeOnMemory : Nat) (frames : List Frame) :
    Option (CacheFileOrOnMemory Path × List UInt8) × Spool :=
  match frames.foldlM (spoolFrame fx maxEachSize maxEachSizeOnMemory) Spool.init with
  | .error s => (none, s)
  | .ok s =>
    if !s.cacheable then (none, s)
    else
      let hash := sha256 s.hashed
      if s.spill then
        let (ok, disk) := s.disk.commit fx.ioOk
        (if ok then some (.file finalPath, hash) else none, { s with disk })
      else (some (.onMemory s.buf, hash), s)

/-! ### The loop invariant -/

@[simp] theorem bodyData_nil : bodyData [] = [] := rfl

@[simp] theorem bodyData_append (l₁ l₂ : List Frame) : bodyData (l₁ ++ l₂) = bodyData l₁ ++ bodyData l₂ :=
  List.flatMap_append

@[simp] theorem bodyData_singleton (f : Frame) : bodyData [f] = f.dataRef.getD [] := by
  simp [bodyData]

@[simp] theorem Disk.abort_temp (d : Disk) : d.abort.temp = none := rfl

@[simp] theorem Disk.abort_final (d : Disk) : d.abort.final = none ↔ d.final = none := Iff.rfl

/-- While the copy is kept: no error frame so far, the hasher and `size` hold the body so far,
which is within `max_each_size`; phase M buffers it within `max_each_size_on_memory`, phase F
has passed that bound. -/
structure KeptCopy (maxEachSize maxEachSizeOnMemory : Nat) (s : Spool) : Prop where
  /-- No error frame has been sent. -/
  no_error : ∀ f ∈ s.sent, f.isErr = false
  /-- The hasher has seen the body so far. -/
  hashed_eq : s.hashed = bodyData s.sent
  /-- `size` is the body's length. -/
  size_eq : s.size = (bodyData s.sent).length
  /-- The body is within `max_each_size`. -/
  length_le : (bodyData s.sent).length ≤ maxEachSize
  /-- Phase F has passed `max_each_size_on_memory`. -/
  spilled : s.spill = true → maxEachSizeOnMemory < (bodyData s.sent).length
  /-- Phase M buffers the body within `max_each_size_on_memory`. -/
  buffered : s.spill = false → s.buf = bodyData s.sent ∧ (bodyData s.sent).length ≤ maxEachSizeOnMemory

/-- What every iteration keeps: nothing is at the final path yet, the temp file exists exactly
while spilled and then holds the body so far, and a spill means the copy is kept. -/
structure SpoolInv (maxEachSize maxEachSizeOnMemory : Nat) (s : Spool) : Prop where
  /-- Nothing is at the final path. -/
  final_none : s.disk.final = none
  /-- The temp file exists exactly while spilled, holding the body so far. -/
  temp_eq : s.disk.temp = if s.spill then some (bodyData s.sent) else none
  /-- A spill keeps the copy. -/
  cacheable_of_spill : s.spill = true → s.cacheable = true
  /-- A kept copy is the body so far. -/
  kept : s.cacheable = true → KeptCopy maxEachSize maxEachSizeOnMemory s

theorem spoolInv_init (m n : Nat) : SpoolInv m n Spool.init :=
  ⟨rfl, rfl, nofun, fun _ => ⟨nofun, rfl, rfl, Nat.zero_le _, nofun, fun _ => ⟨rfl, Nat.zero_le _⟩⟩⟩

/-- A state that gave up its copy and has no temp file keeps the invariant. -/
theorem SpoolInv.of_abandoned {m n : Nat} {s : Spool} (hc : s.cacheable = false) (hs : s.spill = false)
    (ht : s.disk.temp = none) (hf : s.disk.final = none) : SpoolInv m n s :=
  ⟨hf, by simp [hs, ht], by simp [hs], by simp [hc]⟩

theorem SpoolInv.temp_of_not_spill {m n : Nat} {s : Spool} (h : SpoolInv m n s) (hs : s.spill = false) :
    s.disk.temp = none := by
  simpa [hs] using h.temp_eq

theorem SpoolInv.dropSpill_temp {m n : Nat} {s : Spool} (h : SpoolInv m n s) : s.dropSpill.disk.temp = none := by
  unfold Spool.dropSpill
  cases hs : s.spill
  · exact h.temp_of_not_spill hs
  · rfl

theorem SpoolInv.dropSpill_final {m n : Nat} {s : Spool} (h : SpoolInv m n s) : s.dropSpill.disk.final = none := by
  unfold Spool.dropSpill
  split <;> exact h.final_none

/-- Relaying a frame that adds nothing to the copy, or relaying once the copy is given up. -/
theorem SpoolInv.forward {m n : Nat} {s : Spool} (h : SpoolInv m n s) {f : Frame}
    (hf : s.cacheable = false ∨ (f.isErr = false ∧ f.dataRef = none)) :
    SpoolInv m n { s with sent := s.sent ++ [f] } := by
  rcases hf with hc | ⟨herr, hdata⟩
  · have hs : s.spill = false := by
      cases hs : s.spill
      · rfl
      · simp [h.cacheable_of_spill hs] at hc
    exact SpoolInv.of_abandoned hc hs (h.temp_of_not_spill hs) h.final_none
  · have hD : bodyData (s.sent ++ [f]) = bodyData s.sent := by simp [hdata]
    refine ⟨h.final_none, by simpa [hD] using h.temp_eq, h.cacheable_of_spill, fun hc => ?_⟩
    have k := h.kept hc
    refine ⟨?_, by simpa [hD] using k.hashed_eq, by simpa [hD] using k.size_eq, by simpa [hD] using k.length_le,
      by simpa [hD] using k.spilled, by simpa [hD] using k.buffered⟩
    intro g hg
    rcases List.mem_append.mp hg with hg | hg
    · exact k.no_error g hg
    · rw [List.mem_singleton.mp hg]
      exact herr

theorem SpoolInv.abandon {m n : Nat} {s : Spool} (h : SpoolInv m n s) (f : Frame) :
    SpoolInv m n { s with sent := s.sent ++ [f] }.abandon :=
  SpoolInv.of_abandoned rfl rfl (h.dropSpill_temp) (h.dropSpill_final)

/-! ### The phases, one outcome at a time -/

theorem Spool.writeSpill_of_ok {io : Nat → Bool} {data : List UInt8} {s : Spool} (h : io s.disk.ops = true) :
    s.writeSpill io data = { s with disk := { s.disk with temp := s.disk.temp.map (· ++ data), ops := s.disk.ops + 1 } } := by
  simp [Spool.writeSpill, Disk.write, h]

theorem Spool.writeSpill_of_fail {io : Nat → Bool} {data : List UInt8} {s : Spool} (h : io s.disk.ops = false) :
    s.writeSpill io data = { s with disk := { s.disk with ops := s.disk.ops + 1 }, cacheable := false }.dropSpill := by
  simp [Spool.writeSpill, Disk.write, h]

/-- The three file operations of a spill succeed: the new temp file holds the buffer and the frame. -/
theorem Spool.spillOver_of_ok {io : Nat → Bool} {data : List UInt8} {s : Spool}
    (h : io s.disk.ops = true ∧ io (s.disk.ops + 1) = true ∧ io (s.disk.ops + 2) = true) :
    s.spillOver io data =
      { s with disk := { s.disk with temp := some (s.buf ++ data), ops := s.disk.ops + 3 }, spill := true, buf := [] } := by
  obtain ⟨h0, h1, h2⟩ := h
  simp [Spool.spillOver, Disk.create, Disk.write, h0, h1, h2]

/-- One of them fails: the copy is given up and no temp file is left. -/
theorem Spool.spillOver_of_fail {io : Nat → Bool} {data : List UInt8} {s : Spool} (ht : s.disk.temp = none)
    (h : ¬(io s.disk.ops = true ∧ io (s.disk.ops + 1) = true ∧ io (s.disk.ops + 2) = true)) :
    (s.spillOver io data).cacheable = false ∧ (s.spillOver io data).spill = s.spill ∧
      (s.spillOver io data).disk.temp = none ∧ (s.spillOver io data).disk.final = s.disk.final ∧
      (s.spillOver io data).sent = s.sent := by
  cases h0 : io s.disk.ops
  · simp [Spool.spillOver, Disk.create, h0, ht]
  · cases h1 : io (s.disk.ops + 1)
    · simp [Spool.spillOver, Disk.create, Disk.write, h0, h1, Disk.abort]
    · cases h2 : io (s.disk.ops + 2)
      · simp [Spool.spillOver, Disk.create, Disk.write, h0, h1, h2, Disk.abort]
      · simp [h0, h1, h2] at h

@[simp] theorem Spool.writeSpill_sent (io : Nat → Bool) (data : List UInt8) (s : Spool) :
    (s.writeSpill io data).sent = s.sent := by
  unfold Spool.writeSpill
  split <;> rfl

@[simp] theorem Spool.spillOver_sent (io : Nat → Bool) (data : List UInt8) (s : Spool) :
    (s.spillOver io data).sent = s.sent := by
  unfold Spool.spillOver
  split
  · rfl
  · split
    · rfl
    · split <;> rfl

/-- A spill that fails leaves an abandoned state without a temp file. -/
theorem SpoolInv.spillOver_of_fail {m n : Nat} {io : Nat → Bool} {data : List UInt8} {s : Spool}
    (hsp : s.spill = false) (ht : s.disk.temp = none) (hf : s.disk.final = none)
    (h : ¬(io s.disk.ops = true ∧ io (s.disk.ops + 1) = true ∧ io (s.disk.ops + 2) = true)) :
    SpoolInv m n (s.spillOver io data) := by
  obtain ⟨hc', hsp', ht', hf', -⟩ := @Spool.spillOver_of_fail io data s ht h
  exact SpoolInv.of_abandoned hc' (hsp'.trans hsp) ht' (hf'.trans hf)

/-! ### One iteration -/

section Loop

variable {fx : SpoolEffects} {m n : Nat}

/-- Every iteration that goes on keeps the invariant, and has relayed its frame. -/
theorem SpoolInv.step (hnm : n ≤ m) (hm : m < usizeMax) {s s' : Spool} {f : Frame}
    (h : SpoolInv m n s) (hs : spoolFrame fx m n s f = .ok s') :
    SpoolInv m n s' ∧ s'.sent = s.sent ++ [f] := by
  dsimp only [spoolFrame] at hs
  have hsend : fx.sendOk s.sent.length = true := by
    cases hb : fx.sendOk s.sent.length
    · rw [if_pos (by simp [hb])] at hs
      cases hs
    · rfl
  rw [if_neg (by simp [hsend])] at hs
  by_cases hc : s.cacheable = false
  · rw [if_pos (by simp [hc]), Except.ok.injEq] at hs
    subst hs
    exact ⟨h.forward (Or.inl hc), rfl⟩
  have hc : s.cacheable = true := by simpa using hc
  rw [if_neg (by simp [hc])] at hs
  have k := h.kept hc
  by_cases herr : f.isErr = true
  · rw [if_pos herr, Except.ok.injEq] at hs
    subst hs
    exact ⟨h.abandon f, rfl⟩
  have herr : f.isErr = false := by simpa using herr
  rw [if_neg (by simp [herr])] at hs
  cases hdata : f.dataRef with
  | none =>
    rw [hdata, Except.ok.injEq] at hs
    subst hs
    exact ⟨h.forward (Or.inr ⟨herr, hdata⟩), rfl⟩
  | some data =>
  rw [hdata] at hs
  dsimp only at hs
  by_cases hover : saturatingAdd s.size data.length > m
  · rw [if_pos hover, Except.ok.injEq] at hs
    subst hs
    exact ⟨h.abandon f, rfl⟩
  rw [if_neg hover] at hs
  have hsize : saturatingAdd s.size data.length = s.size + data.length :=
    saturatingAdd_eq_of_le hm (Nat.le_of_not_lt hover)
  have hD : bodyData (s.sent ++ [f]) = bodyData s.sent ++ data := by simp [hdata]
  have hlen : (bodyData (s.sent ++ [f])).length = (bodyData s.sent).length + data.length := by
    rw [hD, List.length_append]
  have hle : (bodyData (s.sent ++ [f])).length ≤ m := by
    have := k.size_eq
    omega
  have hnoerr : ∀ g ∈ s.sent ++ [f], g.isErr = false := by
    intro g hg
    rcases List.mem_append.mp hg with hg | hg
    · exact k.no_error g hg
    · rw [List.mem_singleton.mp hg]
      exact herr
  have hhashed : s.hashed ++ data = bodyData (s.sent ++ [f]) := by rw [k.hashed_eq, hD]
  have hsize' : saturatingAdd s.size data.length = (bodyData (s.sent ++ [f])).length := by
    rw [hsize, k.size_eq, hlen]
  by_cases hsp : s.spill = true
  · rw [if_pos hsp, Except.ok.injEq] at hs
    subst hs
    have htemp : s.disk.temp = some (bodyData s.sent) := by simpa [hsp] using h.temp_eq
    have hspilled := k.spilled hsp
    refine ⟨?_, Spool.writeSpill_sent _ _ _⟩
    rcases Bool.eq_false_or_eq_true (fx.ioOk s.disk.ops) with hio | hio
    · rw [Spool.writeSpill_of_ok]
      · refine ⟨h.final_none, by simp [htemp, hsp, hD], fun _ => hc,
          fun _ => ⟨hnoerr, hhashed, hsize', hle,
            fun _ => show n < (bodyData (s.sent ++ [f])).length by omega, fun h' => ?_⟩⟩
        simp [hsp] at h'
      · exact hio
    · rw [Spool.writeSpill_of_fail]
      · exact SpoolInv.of_abandoned rfl rfl (by simp [Spool.dropSpill, hsp])
          (by simp [Spool.dropSpill, hsp, h.final_none])
      · exact hio
  have hsp : s.spill = false := by simpa using hsp
  rw [if_neg (by simp [hsp])] at hs
  obtain ⟨hbuf, hbufle⟩ := k.buffered hsp
  have hn : n < usizeMax := by omega
  by_cases hcross : saturatingAdd s.buf.length data.length > n
  · rw [if_pos hcross, Except.ok.injEq] at hs
    subst hs
    have hover' : n < (bodyData (s.sent ++ [f])).length := by
      rw [hlen, ← hbuf]
      exact (lt_saturatingAdd_iff hn).mp hcross
    refine ⟨?_, Spool.spillOver_sent _ _ _⟩
    by_cases hio : fx.ioOk s.disk.ops = true ∧ fx.ioOk (s.disk.ops + 1) = true ∧ fx.ioOk (s.disk.ops + 2) = true
    · rw [Spool.spillOver_of_ok]
      · exact ⟨h.final_none, by simp [hbuf, hD], fun _ => hc,
          fun _ => ⟨hnoerr, hhashed, hsize', hle, fun _ => hover', nofun⟩⟩
      · exact hio
    · exact SpoolInv.spillOver_of_fail hsp (h.temp_of_not_spill hsp) h.final_none hio
  · rw [if_neg hcross, Except.ok.injEq] at hs
    subst hs
    have hbuflen : s.buf.length + data.length ≤ n := by
      rw [← saturatingAdd_eq_of_le hn (Nat.le_of_not_lt hcross)]
      exact Nat.le_of_not_lt hcross
    refine ⟨⟨h.final_none, by simpa [hsp] using h.temp_eq, fun h' => absurd h' (by simp [hsp]),
      fun _ => ⟨hnoerr, hhashed, hsize', hle, fun h' => absurd h' (by simp [hsp]), fun _ => ⟨?_, ?_⟩⟩⟩, rfl⟩
    · rw [hbuf, hD]
    · rw [hlen, ← hbuf]
      exact hbuflen

/-- Once its send succeeds, an iteration goes on. -/
theorem spoolFrame_isOk {s : Spool} {f : Frame} (hsend : fx.sendOk s.sent.length = true) :
    ∃ s', spoolFrame fx m n s f = .ok s' := by
  dsimp only [spoolFrame]
  rw [if_neg (by simp [hsend])]
  repeat' split
  all_goals exact ⟨_, rfl⟩

/-- A failed send ends the call with nothing more relayed and no temp file left. -/
theorem SpoolInv.step_error {s s' : Spool} {f : Frame} (h : SpoolInv m n s) (hs : spoolFrame fx m n s f = .error s') :
    fx.sendOk s.sent.length = false ∧ s'.sent = s.sent ∧ s'.disk.temp = none ∧ s'.disk.final = none := by
  cases hsend : fx.sendOk s.sent.length
  · dsimp only [spoolFrame] at hs
    rw [if_pos (by simp [hsend])] at hs
    cases hs
    exact ⟨rfl, rfl, h.dropSpill_temp, h.dropSpill_final⟩
  · obtain ⟨s'', hs''⟩ := spoolFrame_isOk (m := m) (n := n) (f := f) hsend
    rw [hs''] at hs
    cases hs

/-- With every send and file operation succeeding, a frame that is not an error and passes the
size check keeps the copy. -/
theorem spoolFrame_keeps_copy (hio : ∀ k, fx.ioOk k = true) {s : Spool} {f : Frame} (hc : s.cacheable = true)
    (hsend : fx.sendOk s.sent.length = true) (herr : f.isErr = false)
    (hfit : ∀ data, f.dataRef = some data → saturatingAdd s.size data.length ≤ m) :
    ∃ s', spoolFrame fx m n s f = .ok s' ∧ s'.cacheable = true := by
  dsimp only [spoolFrame]
  rw [if_neg (by simp [hsend]), if_neg (by simp [hc]), if_neg (by simp [herr])]
  cases hdata : f.dataRef with
  | none => exact ⟨_, rfl, hc⟩
  | some data =>
  dsimp only
  rw [if_neg (Nat.not_lt.mpr (hfit data hdata))]
  by_cases hsp : s.spill = true
  · rw [if_pos hsp, Spool.writeSpill_of_ok (hio _)]
    exact ⟨_, rfl, hc⟩
  rw [if_neg hsp]
  split
  · rw [Spool.spillOver_of_ok ⟨hio _, hio _, hio _⟩]
    exact ⟨_, rfl, hc⟩
  · exact ⟨_, rfl, hc⟩

/-! ### The loop -/

/-- A loop that runs to its end keeps the invariant and has relayed every frame. -/
theorem SpoolInv.loop (hnm : n ≤ m) (hm : m < usizeMax) :
    ∀ {frames : List Frame} {s s' : Spool}, SpoolInv m n s →
      frames.foldlM (spoolFrame fx m n) s = .ok s' → SpoolInv m n s' ∧ s'.sent = s.sent ++ frames
  | [], s, s', h, hs => by
    cases hs
    exact ⟨h, by simp⟩
  | f :: fs, s, s', h, hs => by
    rw [List.foldlM_cons, except_bind_eq_ok] at hs
    obtain ⟨s₁, h₁, hs⟩ := hs
    obtain ⟨hinv₁, hsent₁⟩ := h.step hnm hm h₁
    obtain ⟨hinv, hsent⟩ := hinv₁.loop hnm hm hs
    exact ⟨hinv, by rw [hsent, hsent₁, List.append_assoc, List.singleton_append]⟩

/-- A loop that returns early has relayed a prefix of the frames, stopped at a failed send, and
left no temp file. -/
theorem SpoolInv.loop_error (hnm : n ≤ m) (hm : m < usizeMax) {frames : List Frame} {s s' : Spool}
    (h : SpoolInv m n s) (hs : frames.foldlM (spoolFrame fx m n) s = .error s') :
    ∃ k < frames.length, s'.sent = s.sent ++ frames.take k ∧ fx.sendOk s'.sent.length = false ∧
      s'.disk.temp = none := by
  obtain ⟨ys, x, zs, s₁, rfl, hys, hx⟩ := foldlM_eq_error hs
  obtain ⟨hinv, hsent⟩ := h.loop hnm hm hys
  obtain ⟨hsend, hsent', htemp, -⟩ := hinv.step_error hx
  refine ⟨ys.length, by simp, ?_, by rw [hsent']; exact hsend, htemp⟩
  rw [hsent', hsent, List.take_left' rfl]

/-- With every send and file operation succeeding, an error-free body within `max_each_size`
keeps its copy to the end of the loop. -/
theorem SpoolInv.loop_keeps_copy (hnm : n ≤ m) (hm : m < usizeMax) (hsend : ∀ i, fx.sendOk i = true)
    (hio : ∀ k, fx.ioOk k = true) :
    ∀ {frames : List Frame} {s : Spool}, SpoolInv m n s → s.cacheable = true → (∀ f ∈ frames, f.isErr = false) →
      (bodyData (s.sent ++ frames)).length ≤ m →
      ∃ s', frames.foldlM (spoolFrame fx m n) s = .ok s' ∧ s'.cacheable = true
  | [], s, _, hc, _, _ => ⟨s, rfl, hc⟩
  | f :: fs, s, h, hc, herr, hle => by
    have hle₁ : (bodyData (s.sent ++ [f])).length ≤ m := by
      rw [← List.singleton_append, ← List.append_assoc, bodyData_append, List.length_append] at hle
      omega
    have hfit : ∀ data, f.dataRef = some data → saturatingAdd s.size data.length ≤ m := by
      intro data hdata
      have hsize := (h.kept hc).size_eq
      simp only [bodyData_append, bodyData_singleton, hdata, Option.getD_some, List.length_append] at hle₁
      rw [saturatingAdd_of_le (by omega)]
      omega
    obtain ⟨s₁, h₁, hc₁⟩ := spoolFrame_keeps_copy hio hc (hsend _) (herr f (by simp)) hfit
    obtain ⟨hinv₁, hsent₁⟩ := h.step hnm hm h₁
    rw [List.foldlM_cons, h₁, except_bind_ok]
    refine hinv₁.loop_keeps_copy hnm hm hsend hio hc₁ (fun g hg => herr g (by simp [hg])) ?_
    rwa [hsent₁, List.append_assoc, List.singleton_append]

/-- At `max_each_size = usize::MAX` the size check never fires: with every send and file
operation succeeding, an error-free body of any length keeps its copy. -/
theorem loop_keeps_copy_at_usizeMax (hsend : ∀ i, fx.sendOk i = true) (hio : ∀ k, fx.ioOk k = true) :
    ∀ {frames : List Frame} {s : Spool}, s.cacheable = true → (∀ f ∈ frames, f.isErr = false) →
      ∃ s', frames.foldlM (spoolFrame fx usizeMax n) s = .ok s' ∧ s'.cacheable = true
  | [], s, hc, _ => ⟨s, rfl, hc⟩
  | f :: fs, s, hc, herr => by
    obtain ⟨s₁, h₁, hc₁⟩ := spoolFrame_keeps_copy hio hc (hsend _) (herr f (by simp))
      fun data _ => saturatingAdd_le s.size data.length
    rw [List.foldlM_cons, h₁, except_bind_ok]
    exact loop_keeps_copy_at_usizeMax hsend hio hc₁ fun g hg => herr g (by simp [hg])

end Loop

/-! ### The call -/

/-- A loop that keeps its copy stores it when the commit's operations succeed. -/
theorem spoolAndStore_isSome {Path : Type} (fx : SpoolEffects) (sha256 : List UInt8 → List UInt8) (finalPath : Path)
    {m n : Nat} {frames : List Frame} {s : Spool} (hio : ∀ k, fx.ioOk k = true)
    (hloop : frames.foldlM (spoolFrame fx m n) Spool.init = .ok s) (hc : s.cacheable = true) :
    (spoolAndStore fx sha256 finalPath m n frames).1.isSome := by
  unfold spoolAndStore
  rw [hloop]
  simp only [hc, Bool.not_true, Bool.false_eq_true, ↓reduceIte]
  split
  · simp [Disk.commit, hio]
  · rfl

/-- `spool_and_store` relays every frame (all of them unless the receiver is dropped, and then
it stores nothing), stores exactly the body with its hash and within the size bounds of the
phase it ends in, leaves no temp file behind, and stores whenever nothing fails and the body
fits. -/
theorem spool_and_store_stores_body {Path : Type} (fx : SpoolEffects) (sha256 : List UInt8 → List UInt8)
    (finalPath : Path) {maxEachSize maxEachSizeOnMemory : Nat} (hmem : maxEachSizeOnMemory ≤ maxEachSize)
    (hmax : maxEachSize < usizeMax) {frames : List Frame} {result : Option (CacheFileOrOnMemory Path × List UInt8)}
    {s : Spool} (hcall : spoolAndStore fx sha256 finalPath maxEachSize maxEachSizeOnMemory frames = (result, s)) :
    (s.sent = frames ∨ ∃ k < frames.length, s.sent = frames.take k ∧ fx.sendOk k = false ∧ result = none) ∧
      (∀ b hash, result = some (.onMemory b, hash) →
        (∀ f ∈ frames, f.isErr = false) ∧ b = bodyData frames ∧ b.length ≤ maxEachSizeOnMemory ∧ hash = sha256 b) ∧
      (∀ p hash, result = some (.file p, hash) →
        (∀ f ∈ frames, f.isErr = false) ∧ maxEachSizeOnMemory < (bodyData frames).length ∧
          (bodyData frames).length ≤ maxEachSize ∧ s.disk.final = some (bodyData frames) ∧
          hash = sha256 (bodyData frames)) ∧
      s.disk.temp = none ∧
      ((∀ f ∈ frames, f.isErr = false) → (∀ k, fx.ioOk k = true) → (∀ i, fx.sendOk i = true) →
        (bodyData frames).length ≤ maxEachSize → result.isSome) := by
  unfold spoolAndStore at hcall
  cases hloop : frames.foldlM (spoolFrame fx maxEachSize maxEachSizeOnMemory) Spool.init with
  | error s' =>
    rw [hloop] at hcall
    cases hcall
    obtain ⟨k, hk, hsent, hsend, htemp⟩ := (spoolInv_init maxEachSize maxEachSizeOnMemory).loop_error hmem hmax hloop
    simp only [Spool.init, List.nil_append] at hsent
    refine ⟨Or.inr ⟨k, hk, hsent, by rw [← hsend, hsent, List.length_take, Nat.min_eq_left (Nat.le_of_lt hk)], rfl⟩,
      nofun, nofun, htemp, fun _ _ hall _ => ?_⟩
    rw [hall] at hsend
    cases hsend
  | ok s' =>
    rw [hloop] at hcall
    obtain ⟨hinv, hsent⟩ := (spoolInv_init maxEachSize maxEachSizeOnMemory).loop hmem hmax hloop
    simp only [Spool.init, List.nil_append] at hsent
    by_cases hc : s'.cacheable = false
    · simp only [hc, Bool.not_false, ↓reduceIte, Prod.mk.injEq] at hcall
      obtain ⟨rfl, rfl⟩ := hcall
      have hsp : s'.spill = false := by
        cases hsp : s'.spill
        · rfl
        · simp [hinv.cacheable_of_spill hsp] at hc
      refine ⟨Or.inl hsent, nofun, nofun, hinv.temp_of_not_spill hsp, fun herr hio hsend hle => ?_⟩
      obtain ⟨s'', hs'', hc''⟩ := (spoolInv_init maxEachSize maxEachSizeOnMemory).loop_keeps_copy hmem hmax hsend hio
        rfl herr (by simpa [Spool.init] using hle)
      rw [hloop] at hs''
      cases hs''
      simp [hc''] at hc
    have hc : s'.cacheable = true := by simpa using hc
    have k := hinv.kept hc
    have hnoerr : ∀ f ∈ frames, f.isErr = false := hsent ▸ k.no_error
    have hhashed : s'.hashed = bodyData frames := hsent ▸ k.hashed_eq
    simp only [hc, Bool.not_true, Bool.false_eq_true, ↓reduceIte] at hcall
    by_cases hsp : s'.spill = true
    · have htemp : s'.disk.temp = some (bodyData frames) := by simpa [hsp, hsent] using hinv.temp_eq
      simp only [hsp, ↓reduceIte] at hcall
      by_cases hio : fx.ioOk s'.disk.ops = true ∧ fx.ioOk (s'.disk.ops + 1) = true
      · simp only [Disk.commit, hio, Bool.not_true, Bool.false_eq_true, ↓reduceIte, Prod.mk.injEq] at hcall
        obtain ⟨rfl, rfl⟩ := hcall
        refine ⟨Or.inl hsent, nofun, fun p hash hres => ?_, rfl, fun _ _ _ _ => rfl⟩
        simp only [Option.some.injEq, Prod.mk.injEq] at hres
        obtain ⟨-, rfl⟩ := hres
        exact ⟨hnoerr, hsent ▸ k.spilled hsp, hsent ▸ k.length_le, htemp, by rw [hhashed]⟩
      · have hfail : (s'.disk.commit fx.ioOk).1 = false ∧ (s'.disk.commit fx.ioOk).2.temp = none := by
          unfold Disk.commit
          split
          · exact ⟨rfl, rfl⟩
          · split
            · exact ⟨rfl, rfl⟩
            · rename_i h1 h2
              simp only [Bool.not_eq_true', Bool.not_eq_false] at h1 h2
              exact absurd ⟨by simpa using h1, by simpa using h2⟩ hio
        obtain ⟨hok, htemp'⟩ := hfail
        rw [Prod.mk.injEq] at hcall
        obtain ⟨hres, rfl⟩ := hcall
        rw [hok] at hres
        subst hres
        refine ⟨Or.inl hsent, nofun, nofun, htemp', fun _ hall _ _ => absurd ⟨hall _, hall _⟩ hio⟩
    · have hsp : s'.spill = false := by simpa using hsp
      simp only [hsp, Bool.false_eq_true, ↓reduceIte, Prod.mk.injEq] at hcall
      obtain ⟨rfl, rfl⟩ := hcall
      obtain ⟨hbuf, hbufle⟩ := k.buffered hsp
      rw [hsent] at hbuf hbufle
      refine ⟨Or.inl hsent, fun b hash hres => ?_, nofun, hinv.temp_of_not_spill hsp, fun _ _ _ _ => rfl⟩
      simp only [Option.some.injEq, Prod.mk.injEq, CacheFileOrOnMemory.onMemory.injEq] at hres
      obtain ⟨rfl, rfl⟩ := hres
      exact ⟨hnoerr, hbuf, hbuf ▸ hbufle, by rw [hhashed, hbuf]⟩

/-- A three-byte body with a two-byte memory bound spills at its second frame and is committed
to its final path. -/
theorem spool_and_store_spills_to_file :
    spoolAndStore ⟨fun _ => true, fun _ => true⟩ id "cache-file" 4 2 [.data [1, 2], .data [3], .trailers] =
        (some (.file "cache-file", [1, 2, 3]),
          ⟨[1, 2, 3], [], 3, true, true, ⟨none, some [1, 2, 3], 5⟩, [.data [1, 2], .data [3], .trailers]⟩) ∧
      2 < (bodyData [.data [1, 2], .data [3], .trailers]).length :=
  have hcall : spoolAndStore ⟨fun _ => true, fun _ => true⟩ id "cache-file" 4 2 [.data [1, 2], .data [3], .trailers] =
      (some (.file "cache-file", [1, 2, 3]),
        ⟨[1, 2, 3], [], 3, true, true, ⟨none, some [1, 2, 3], 5⟩, [.data [1, 2], .data [3], .trailers]⟩) := rfl
  ⟨hcall, ((spool_and_store_stores_body _ id "cache-file" (by decide) (by decide) hcall).2.2.1
    "cache-file" [1, 2, 3] rfl).2.1⟩

/-- At `max_each_size = usize::MAX`, four data frames of `2 ^ 62` bytes, `2 ^ 64` bytes in all,
are stored although the body is longer than `max_each_size`. -/
theorem spool_and_store_stores_past_usize_max :
    (spoolAndStore ⟨fun _ => true, fun _ => true⟩ id () usizeMax 0
        (List.replicate 4 (.data (List.replicate 4611686018427387904 0)))).1.isSome ∧
      usizeMax < (bodyData (List.replicate 4 (.data (List.replicate 4611686018427387904 0)))).length := by
  have herr : ∀ f ∈ List.replicate 4 (Frame.data (List.replicate 4611686018427387904 0)), f.isErr = false := by
    intro f hf
    rw [(List.mem_replicate.mp hf).2]
    rfl
  obtain ⟨s, hloop, hc⟩ := @loop_keeps_copy_at_usizeMax ⟨fun _ => true, fun _ => true⟩ 0 (fun _ => rfl)
    (fun _ => rfl) _ Spool.init rfl herr
  refine ⟨spoolAndStore_isSome _ id () (fun _ => rfl) hloop hc, ?_⟩
  have hlen : (bodyData (List.replicate 4 (.data (List.replicate 4611686018427387904 0)))).length =
      4 * 4611686018427387904 := by
    rw [bodyData, List.length_flatMap, List.map_replicate, List.sum_replicate_nat]
    simp only [Frame.dataRef, Option.getD_some, List.length_replicate]
  rw [hlen]
  decide

end Rpxy.CacheSpool
