import Mathlib.Data.List.Basic
import Mathlib.Data.Int.Basic

/-
# NetPulse.Mesh.Pipe — bounded pipes (`internal_modules/memory.py`, class `Pipe`)

A `Pipe` is a bounded `asyncio.Queue` with a flag for the end and an error. The end of a stream is a
sentinel in the queue, so it takes a place like a chunk. `asyncio` treats a bound of zero or less as
no bound.

An operation that suspends its caller is partial here: `put` answers `none` when the queue is full,
and the two iterators answer `Next.blocked` when it is empty.
-/

namespace NetPulse.Mesh

/-- An element of a queue: a chunk, or `_SENTINEL`. -/
inductive Item (D : Type*) where
  | chunk (d : D)
  | sentinel
  deriving DecidableEq

/-- The chunks among the elements of a queue. -/
def chunksOf {D : Type*} : List (Item D) → List D
  | [] => []
  | .chunk d :: rest => d :: chunksOf rest
  | .sentinel :: rest => chunksOf rest

structure Pipe (D : Type*) where
  buffLen : Int
  queue : List (Item D) := []
  closed : Bool := false
  error : Option String := none
  deriving DecidableEq

/-- What one step of an iterator over a pipe does. -/
inductive Next (D : Type*) where
  | item (d : D) (rest : Pipe D)
  /-- `StopAsyncIteration` -/
  | stop (rest : Pipe D)
  | raised (e : String) (rest : Pipe D)
  | blocked

namespace Pipe

variable {D : Type*}

/-! ## §1 Operations -/

/-- `is_full`: the `full()` of an `asyncio.Queue`. -/
def isFull (p : Pipe D) : Prop := 0 < p.buffLen ∧ p.buffLen ≤ p.queue.length

instance (p : Pipe D) : Decidable p.isFull := inferInstanceAs (Decidable (_ ∧ _))

/-- `failed` -/
def failed (p : Pipe D) : Bool := p.error.isSome

/-- Append to the queue. -/
def push (p : Pipe D) (x : Item D) : Pipe D := { p with queue := p.queue ++ [x] }

/-- `put`, `none` while it waits for a place. -/
def put (p : Pipe D) (x : Item D) : Option (Pipe D) := if p.isFull then none else some (p.push x)

/-- `put_nowait` under `except QueueFull: pass`. -/
def putNowait (p : Pipe D) (x : Item D) : Pipe D := if p.isFull then p else p.push x

def close (p : Pipe D) : Pipe D := { p with closed := true }

def fail (p : Pipe D) (e : String) : Pipe D :=
  (({ p with error := some e } : Pipe D).putNowait .sentinel).close

/-- The end of an iteration: `_raise_if_failed`, then `StopAsyncIteration`. -/
def finish (p : Pipe D) : Next D :=
  match p.error with
  | some e => .raised e p
  | none => .stop p

/-- `Pipe.__anext__` -/
def anext (p : Pipe D) : Next D :=
  if p.closed ∧ p.queue = [] then p.finish
  else
    match p.queue with
    | [] => .blocked
    | .chunk d :: rest => .item d { p with queue := rest }
    | .sentinel :: rest => ({ p with queue := rest } : Pipe D).finish

/-- `_MeshStreamIterator.__anext__`: it asks neither whether the pipe is closed nor whether it
failed. -/
def meshNext (p : Pipe D) : Next D :=
  match p.queue with
  | [] => .blocked
  | .chunk d :: rest => .item d { p with queue := rest }
  | .sentinel :: rest => .stop { p with queue := rest }

/-- A full pipe has an element. -/
theorem isFull.ne_nil {p : Pipe D} (h : p.isFull) : p.queue ≠ [] := by
  intro hnil
  obtain ⟨hpos, hle⟩ := h
  rw [hnil] at hle
  have hzero : p.buffLen ≤ 0 := hle
  omega

/-- A `put` that went through. -/
theorem put_eq {p q : Pipe D} {x : Item D} (hput : p.put x = some q) : q = p.push x := by
  unfold Pipe.put at hput
  split at hput
  · cases hput
  · exact (Option.some.inj hput).symm

/-! ## §2 The chunks of a pipe -/

/-- The chunks that wait in the pipe. -/
def chunks (p : Pipe D) : List D := chunksOf p.queue

@[simp] theorem chunksOf_append (xs ys : List (Item D)) :
    chunksOf (xs ++ ys) = chunksOf xs ++ chunksOf ys := by
  induction xs with
  | nil => rfl
  | cons x xs ih => cases x <;> simp [chunksOf, ih]

@[simp] theorem chunks_push_chunk (p : Pipe D) (d : D) :
    (p.push (.chunk d)).chunks = p.chunks ++ [d] := by
  simp [chunks, push, chunksOf]

@[simp] theorem chunks_push_sentinel (p : Pipe D) : (p.push .sentinel).chunks = p.chunks := by
  simp [chunks, push, chunksOf]

@[simp] theorem chunks_close (p : Pipe D) : p.close.chunks = p.chunks := rfl

@[simp] theorem chunks_putNowait_sentinel (p : Pipe D) :
    (p.putNowait .sentinel).chunks = p.chunks := by
  unfold putNowait
  split
  · rfl
  · exact p.chunks_push_sentinel

@[simp] theorem chunks_fail (p : Pipe D) (e : String) : (p.fail e).chunks = p.chunks := by
  unfold fail
  rw [chunks_close, chunks_putNowait_sentinel]
  rfl

@[simp] theorem putNowait_buffLen (p : Pipe D) (x : Item D) :
    (p.putNowait x).buffLen = p.buffLen := by
  unfold putNowait
  split <;> rfl

@[simp] theorem putNowait_closed (p : Pipe D) (x : Item D) :
    (p.putNowait x).closed = p.closed := by
  unfold putNowait
  split <;> rfl

@[simp] theorem putNowait_error (p : Pipe D) (x : Item D) : (p.putNowait x).error = p.error := by
  unfold putNowait
  split <;> rfl

@[simp] theorem fail_closed (p : Pipe D) (e : String) : (p.fail e).closed = true := rfl

@[simp] theorem fail_error (p : Pipe D) (e : String) : (p.fail e).error = some e := by
  simp [fail, close]

@[simp] theorem fail_buffLen (p : Pipe D) (e : String) : (p.fail e).buffLen = p.buffLen := by
  simp [fail, close]

/-! ## §3 Well-formed pipes

The sentinel is the last element that anybody puts, and a pipe that holds one is closed. -/

/-- Chunks, then at most one sentinel, which only a closed pipe holds. -/
structure Sound (p : Pipe D) : Prop where
  shape : p.queue = p.chunks.map .chunk ∨ p.closed = true ∧ p.queue = p.chunks.map .chunk ++ [.sentinel]

theorem Sound.push_chunk {p : Pipe D} (h : p.Sound) (hopen : p.closed = false) (d : D) :
    (p.push (.chunk d)).Sound := by
  refine ⟨Or.inl ?_⟩
  rw [chunks_push_chunk, List.map_append]
  rcases h.shape with hq | ⟨hc, _⟩
  · show p.queue ++ [.chunk d] = _
    rw [← hq]
    rfl
  · rw [hopen] at hc
    cases hc

/-- The end of a stream, with or without a place for the sentinel. -/
theorem Sound.close {p : Pipe D} (h : p.Sound) (hopen : p.closed = false) :
    (p.putNowait .sentinel).close.Sound := by
  have hq : p.queue = p.chunks.map .chunk := by
    rcases h.shape with hq | ⟨hc, _⟩
    · exact hq
    · rw [hopen] at hc
      cases hc
  constructor
  rw [chunks_close, chunks_putNowait_sentinel]
  unfold putNowait
  split
  · exact Or.inl hq
  · refine Or.inr ⟨rfl, ?_⟩
    show p.queue ++ [.sentinel] = _
    rw [← hq]

theorem Sound.fail {p : Pipe D} (h : p.Sound) (hopen : p.closed = false) (e : String) :
    (p.fail e).Sound :=
  Sound.close (p := { p with error := some e }) ⟨h.shape⟩ hopen

/-- What the iterator does on a sound pipe: a chunk is the first one, and the end comes after all
chunks, on a closed pipe. -/
inductive NextSpec (p : Pipe D) : Next D → Prop where
  | item (d : D) (rest : Pipe D) (hchunks : p.chunks = d :: rest.chunks)
      (hlen : p.queue.length = rest.queue.length + 1) (hbuff : rest.buffLen = p.buffLen)
      (hclosed : rest.closed = p.closed) (herror : rest.error = p.error) (hsound : rest.Sound) :
      NextSpec p (.item d rest)
  | stop (rest : Pipe D) (hchunks : p.chunks = []) (hrest : rest.queue = [])
      (hbuff : rest.buffLen = p.buffLen) (hclosed : p.closed = true) (hrestc : rest.closed = true)
      (herror : rest.error = p.error) : NextSpec p (.stop rest)
  | raised (e : String) (rest : Pipe D) (hchunks : p.chunks = []) (hrest : rest.queue = [])
      (hbuff : rest.buffLen = p.buffLen) (hclosed : p.closed = true) (hrestc : rest.closed = true)
      (herror : rest.error = p.error) (hfailed : p.error = some e) : NextSpec p (.raised e rest)
  | blocked (hempty : p.queue = []) : NextSpec p .blocked

theorem Sound.cons_cases {p : Pipe D} (h : p.Sound) {x : Item D} {rest : List (Item D)}
    (hq : p.queue = x :: rest) :
    (∃ d, x = .chunk d ∧ p.chunks = d :: chunksOf rest ∧ ({ p with queue := rest } : Pipe D).Sound) ∨
    (x = .sentinel ∧ rest = [] ∧ p.chunks = [] ∧ p.closed = true) := by
  cases x with
  | chunk d =>
      have hchunks : p.chunks = d :: chunksOf rest := by
        unfold chunks
        rw [hq]
        rfl
      refine Or.inl ⟨d, rfl, hchunks, ⟨?_⟩⟩
      have hshape := h.shape
      rw [hchunks, hq] at hshape
      rcases hshape with hs | ⟨hc, hs⟩
      · exact Or.inl (List.tail_eq_of_cons_eq hs)
      · exact Or.inr ⟨hc, List.tail_eq_of_cons_eq hs⟩
  | sentinel =>
      refine Or.inr ?_
      rcases h.shape with hs | ⟨hc, hs⟩
      · rw [hq] at hs
        cases hch : p.chunks with
        | nil =>
            rw [hch] at hs
            cases hs
        | cons d ds =>
            rw [hch] at hs
            cases hs
      · rw [hq] at hs
        cases hch : p.chunks with
        | nil =>
            rw [hch] at hs
            exact ⟨rfl, List.tail_eq_of_cons_eq hs, rfl, hc⟩
        | cons d ds =>
            rw [hch] at hs
            cases hs

theorem finish_spec {p q : Pipe D} (hchunks : p.chunks = []) (hclosed : p.closed = true)
    (hq : q.queue = []) (hbuff : q.buffLen = p.buffLen) (hqc : q.closed = true)
    (herror : q.error = p.error) : NextSpec p q.finish := by
  unfold finish
  cases he : q.error with
  | none => exact .stop q hchunks hq hbuff hclosed hqc herror
  | some e => exact .raised e q hchunks hq hbuff hclosed hqc herror (herror ▸ he)

/-- `Pipe.__anext__` on a sound pipe. -/
theorem Sound.anext {p : Pipe D} (h : p.Sound) : NextSpec p p.anext := by
  unfold Pipe.anext
  split
  · rename_i hend
    refine finish_spec ?_ (by simpa using hend.1) hend.2 rfl (by simpa using hend.1) rfl
    unfold chunks
    rw [hend.2]
    rfl
  · cases hq : p.queue with
    | nil => exact .blocked hq
    | cons x rest =>
        rcases h.cons_cases hq with ⟨d, rfl, hchunks, hsound⟩ | ⟨rfl, rfl, hchunks, hclosed⟩
        · exact .item d _ hchunks (by simp [hq]) rfl rfl rfl hsound
        · exact finish_spec hchunks hclosed rfl rfl hclosed rfl

/-- The iterator of a pipe does not stop normally on a failed pipe. -/
theorem anext_stop {p rest : Pipe D} (h : p.anext = .stop rest) : p.error = none := by
  have hfinish : ∀ q : Pipe D, q.error = p.error → q.finish = .stop rest → p.error = none := by
    intro q hq hstop
    unfold Pipe.finish at hstop
    split at hstop
    · cases hstop
    · rename_i hnone
      exact hq ▸ hnone
  unfold Pipe.anext at h
  split at h
  · exact hfinish p rfl h
  · split at h
    · cases h
    · cases h
    · rename_i tail _
      exact hfinish { p with queue := tail } rfl h

/-- `_MeshStreamIterator.__anext__` on a sound pipe. -/
theorem Sound.meshNext {p : Pipe D} (h : p.Sound) : NextSpec p p.meshNext := by
  unfold Pipe.meshNext
  cases hq : p.queue with
  | nil => exact .blocked hq
  | cons x rest =>
      rcases h.cons_cases hq with ⟨d, rfl, hchunks, hsound⟩ | ⟨rfl, rfl, hchunks, hclosed⟩
      · exact .item d _ hchunks (by simp [hq]) rfl rfl rfl hsound
      · exact .stop _ hchunks rfl rfl hclosed hclosed rfl

end Pipe

end NetPulse.Mesh
