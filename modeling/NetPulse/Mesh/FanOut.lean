import Mathlib.Data.List.Range
import NetPulse.Lib.Dict
import NetPulse.Lib.Loops
import NetPulse.Mesh.PipeRuns

/-
# NetPulse.Mesh.FanOut — one generator over several pipes (`memory.py`, class `Dispatcher`)

A thread runs the generator and puts its items into a bounded queue, `out_q`; the dispatcher takes
them out, gives each to the pipe with the fewest elements, waits while all pipes are full, and at
the end of the generator ends every pipe. Both timeouts, of `out_q.put` and of `out_q.get`, lead to
another attempt, and with no stop requested they change nothing. Items are numbered in the order in
which the generator yields them, and each pipe is a pipe of `PipeRuns` with its own consumer.

At any moment the items on their way to the pipes are consecutive and end with the last one yielded
(`Flowing.line`), so those in the pipes are all before them. `fanned_out` says what the consumers
get. Two things are left to the caller: the dispatcher keeps its pipes under their ids, and the
thread passes on what is an `Exception`. After any other exception, `SystemExit` for one, the
`finally` of the thread sends the sentinel all the same, and the pipes end as after a success.
-/

namespace NetPulse.Mesh.FanOut

open NetPulse.Lib PipeRuns

/-! ## §1 Steps -/

/-- An exception of the generator. -/
structure Raise where
  text : String
  /-- it is an `Exception`, not just a `BaseException` -/
  exception : Bool := true
  /-- `bool(e)` -/
  truthy : Bool := true
  deriving DecidableEq

/-- What the dispatcher fails the pipes with, when the thread has caught an `Exception`:
`state['error'] or RuntimeError('generator failed')`. -/
def reason : Option Raise → Option String
  | none => none
  | some e =>
      if e.exception then some (if e.truthy then e.text else "generator failed") else none

def ending (exit : Option Raise) : Ending :=
  match reason exit with
  | some e => .fail e
  | none => .dispatcher

structure State where
  /-- `Dispatcher.pipes`: the place in the list of each id -/
  pipes : Dict String Nat
  buff : Nat → Int
  /-- the pipe at a place of the list, and its consumer -/
  lane : Nat → PipeRuns.State Nat
  /-- the number of items that the generator has yielded -/
  yielded : Nat := 0
  /-- how the generator has ended -/
  exit : Option (Option Raise) := none
  /-- the element in `_put_out` -/
  offer : Option (Item Nat) := none
  outQ : List (Item Nat) := []
  /-- the item that the dispatcher has taken -/
  hand : Option Nat := none
  /-- `run` has returned -/
  finished : Bool := false

inductive Event where
  | yield
  /-- the generator returns, or raises -/
  | exit (error : Option Raise)
  /-- `out_q.put` finds a place -/
  | offer
  /-- `out_q.get` -/
  | take
  | assign
  /-- a step of the consumer at a place -/
  | next (w : Nat)

namespace State

variable (s : State)

/-- The size of `out_q`. -/
def places : Int := max 1 ((s.pipes.values.map s.buff).foldl (· + ·) 0)

/-- `_least_loaded`: the first of the emptiest pipes that are not full. -/
def leastLoaded : Option Nat :=
  (s.pipes.values.filter fun w => ¬ (s.lane w).pipe.isFull).argmin fun w =>
    (s.lane w).pipe.queue.length

/-- A pipe of the dispatcher at its end. -/
def endLane (w : Nat) : PipeRuns.State Nat :=
  match endPipe (s.lane w).pipe (ending s.exit.join) with
  | some pipe => { s.lane w with pipe := pipe, ended := true }
  | none => s.lane w

def step : Event → Option State
  | .yield =>
      if s.exit = none ∧ s.offer = none then
        some { s with yielded := s.yielded + 1, offer := some (.chunk s.yielded) }
      else none
  | .exit error =>
      if s.exit = none ∧ s.offer = none then
        -- `finally`: the sentinel, after an exception too
        some { s with exit := some error, offer := some .sentinel }
      else none
  | .offer =>
      match s.offer with
      | some x =>
          if s.outQ.length < s.places then some { s with offer := none, outQ := s.outQ ++ [x] }
          else none
      | none => none
  | .take =>
      match s.finished, s.hand, s.outQ with
      | false, none, .chunk i :: rest => some { s with outQ := rest, hand := some i }
      | false, none, .sentinel :: rest =>
          some { s with
            outQ := rest
            finished := true
            lane := fun w => if w ∈ s.pipes.values then s.endLane w else s.lane w }
      | _, _, _ => none
  | .assign =>
      match s.hand, s.leastLoaded with
      | some i, some w =>
          ((s.lane w).pipe.put (.chunk i)).map fun pipe =>
            { s with
              hand := none
              lane :=
                Function.update s.lane w
                  { s.lane w with put := (s.lane w).put ++ [i], pipe := pipe } }
      | _, _ => none
  | .next w =>
      ((s.lane w).step (ending s.exit.join) .next).map fun lane =>
        { s with lane := Function.update s.lane w lane }

end State

def machine : Machine State Event := ⟨State.step⟩

/-- `{p.pipe_id: p for p in pipes}`, with places for pipes. -/
def pipesOf (ids : List String) : Dict String Nat :=
  ids.zipIdx.foldl (fun d x => d.set x.1 x.2) Dict.empty

/-- A dispatcher over new pipes with these ids and lengths, before its `run`. -/
def start (pipes : List (String × Int)) : State where
  pipes := pipesOf (pipes.map Prod.fst)
  buff := fun w => ((pipes.map Prod.snd)[w]?).getD 0
  lane := fun w => PipeRuns.start [] (((pipes.map Prod.snd)[w]?).getD 0)

/-- What the items and the ends of the pipes are to be, `n` pipes being given. -/
structure FannedOut (n : Nat) (s : State) : Prop where
  /-- each pipe carries items of the generator in the generator's order, and no two the same item -/
  order : ∀ w, w < n → ((s.lane w).put).Sublist (List.range s.yielded)
  apart : ∀ w w' i, w < n → w' < n → i ∈ (s.lane w).put → i ∈ (s.lane w').put → w = w'
  bounded : ∀ w, w < n → ((s.lane w).pipe.queue.length : Int) ≤ s.buff w
  received : ∀ w, w < n → (s.lane w).received <+: (s.lane w).put
  /-- a pipe ends after the generator, with all items put -/
  ended : ∀ w, w < n → (s.lane w).pipe.closed = true →
    s.exit ≠ none ∧ ∀ i, i < s.yielded → ∃ w', w' < n ∧ i ∈ (s.lane w').put
  /-- an iteration that is over has received all of its pipe, and ended as the generator did -/
  done : ∀ w error, w < n → (s.lane w).reader = .done error →
    (s.lane w).received = (s.lane w).put ∧ s.exit = some (error.map fun e => ⟨e, true, true⟩)
  /-- when nothing more can happen, every pipe has ended and every iteration is over -/
  settled : (∀ ev, s.step ev = none) →
    ∀ w, w < n → (s.lane w).pipe.closed = true ∧ ∃ error, (s.lane w).reader = .done error

/-- An exception that the thread passes on as it is. -/
def Proper (_ : State) : Event → Prop
  | .exit (some e) => e.exception = true ∧ e.truthy = true
  | _ => True

/-! ## §2 The invariant -/

/-- Everything between the generator and the dispatcher. -/
def State.line (s : State) : List (Item Nat) := s.outQ ++ s.offer.toList

/-- The items that are in no pipe yet. -/
def State.pending (s : State) : List Nat := s.hand.toList ++ chunksOf s.line

/-- The sentinel of a generator that has ended. -/
def State.tail (s : State) : List (Item Nat) := if s.exit.isSome then [.sentinel] else []

/-- Items, then the sentinel of a generator that has ended; nothing after the dispatcher's end. -/
def State.Shape (s : State) : Prop :=
  s.finished = false ∧ s.line = (chunksOf s.line).map .chunk ++ s.tail ∨
    s.finished = true ∧ s.exit ≠ none ∧ s.line = [] ∧ s.hand = none

/-- The first `k` items are in the pipes, each in one, in order. -/
structure Placed (n k : Nat) (put : Nat → List Nat) : Prop where
  order : ∀ w, w < n → (put w).Sublist (List.range k)
  all : ∀ i, i < k → ∃ w, w < n ∧ i ∈ put w
  apart : ∀ w w' i, w < n → w' < n → i ∈ put w → i ∈ put w' → w = w'

theorem Placed.congr {n k : Nat} {put put' : Nat → List Nat} (h : Placed n k put)
    (hsame : ∀ w, w < n → put' w = put w) : Placed n k put' where
  order := fun w hw => by
    rw [hsame w hw]
    exact h.order w hw
  all := fun i hi => by
    obtain ⟨w, hw, hmem⟩ := h.all i hi
    refine ⟨w, hw, ?_⟩
    rw [hsame w hw]
    exact hmem
  apart := fun w w' i hw hw' hi hi' => by
    rw [hsame w hw] at hi
    rw [hsame w' hw'] at hi'
    exact h.apart w w' i hw hw' hi hi'

structure Flowing (n : Nat) (s : State) : Prop where
  values : s.pipes.values = List.range n
  nonempty : 0 < n
  long : ∀ w, w < n → 1 ≤ s.buff w
  line : ∃ k, k ≤ s.yielded ∧ s.pending = List.range' k (s.yielded - k) ∧
    Placed n k fun w => (s.lane w).put
  shape : s.Shape
  lanes : ∀ w, w < n → Running (s.lane w).put (s.buff w) (ending s.exit.join) (s.lane w)
  ended : ∀ w, w < n → (s.lane w).ended = s.finished
  proper : ∀ e, s.exit = some (some e) → e.exception = true ∧ e.truthy = true

theorem values_pipesOf {ids : List String} (hids : ids.Nodup) :
    (pipesOf ids).values = List.range ids.length := by
  have hkeys : ids.zipIdx.map Prod.fst = ids := by simp
  have hitems := Dict.items_foldl_set (d := (Dict.empty : Dict String Nat)) (l := ids.zipIdx)
    (by rw [hkeys]; exact hids) (fun _ _ => List.not_mem_nil)
  unfold pipesOf Dict.values
  rw [hitems]
  simp [Dict.empty, List.range_eq_range']

theorem flowing_start {pipes : List (String × Int)} (hne : pipes ≠ [])
    (hids : (pipes.map Prod.fst).Nodup) (hlong : ∀ p ∈ pipes, 1 ≤ p.2) :
    Flowing pipes.length (start pipes) where
  values := by
    show (pipesOf (pipes.map Prod.fst)).values = _
    rw [values_pipesOf hids, List.length_map]
  nonempty := List.length_pos_of_ne_nil hne
  long := fun w hw => by
    show 1 ≤ ((pipes.map Prod.snd)[w]?).getD 0
    rw [List.getElem?_map, List.getElem?_eq_getElem hw]
    exact hlong _ (List.getElem_mem hw)
  line := ⟨0, Nat.le_refl 0, rfl, fun _ _ => List.nil_sublist _,
    fun i hi => absurd hi i.not_lt_zero, fun _ _ _ _ _ hi => absurd hi List.not_mem_nil⟩
  shape := Or.inl ⟨rfl, rfl⟩
  lanes := fun _ _ => Running.start [] _ _
  ended := fun _ _ => rfl
  proper := fun _ he => by cases he

/-- The front of the line. -/
theorem line_cases {x : Item Nat} {r tail : List (Item Nat)}
    (h : x :: r = (chunksOf (x :: r)).map .chunk ++ tail) (htail : tail = [] ∨ tail = [.sentinel]) :
    (∃ i, x = .chunk i ∧ r = (chunksOf r).map .chunk ++ tail) ∨
      x = .sentinel ∧ r = [] ∧ tail = [.sentinel] := by
  cases x with
  | chunk i =>
      refine Or.inl ⟨i, rfl, ?_⟩
      simpa [chunksOf] using h
  | sentinel =>
      refine Or.inr ⟨rfl, ?_⟩
      have h' : .sentinel :: r = (chunksOf r).map Item.chunk ++ tail := h
      cases hr : chunksOf r with
      | nil =>
          rw [hr] at h'
          rcases htail with rfl | rfl
          · cases h'
          · exact ⟨List.tail_eq_of_cons_eq h', rfl⟩
      | cons i rest =>
          rw [hr] at h'
          cases h'

theorem State.tail_cases (s : State) : s.tail = [] ∨ s.tail = [.sentinel] := by
  unfold State.tail
  split
  · exact Or.inr rfl
  · exact Or.inl rfl

variable {n : Nat} {s t : State}

/-- A generator at work has a dispatcher at work. -/
theorem Flowing.running (h : Flowing n s) (hexit : s.exit = none) : s.finished = false := by
  rcases h.shape with ⟨hfinished, _⟩ | ⟨_, hno, _⟩
  · exact hfinished
  · exact absurd hexit hno

/-- Before the dispatcher is through, the line is items and the sentinel. -/
theorem Flowing.line_eq (h : Flowing n s) (hfinished : s.finished = false) :
    s.line = (chunksOf s.line).map .chunk ++ s.tail := by
  rcases h.shape with ⟨_, hline⟩ | ⟨hdone, _⟩
  · exact hline
  · rw [hfinished] at hdone
    cases hdone

/-! ## §3 The generator and its queue -/

theorem Flowing.yield (h : Flowing n s) (hexit : s.exit = none) (hoffer : s.offer = none) :
    Flowing n { s with yielded := s.yielded + 1, offer := some (.chunk s.yielded) } := by
  have hfinished := h.running hexit
  have hline := h.line_eq hfinished
  have hold : s.line = s.outQ := by simp [State.line, hoffer]
  obtain ⟨k, hk, hpending, hplaced⟩ := h.line
  refine
    { values := h.values
      nonempty := h.nonempty
      long := h.long
      line := ⟨k, Nat.le_succ_of_le hk, ?_, hplaced⟩
      shape := Or.inl ⟨hfinished, ?_⟩
      lanes := h.lanes
      ended := h.ended
      proper := h.proper }
  · show s.hand.toList ++ chunksOf (s.outQ ++ [.chunk s.yielded]) = _
    rw [State.pending, hold] at hpending
    rw [Pipe.chunksOf_append, ← List.append_assoc, hpending, Nat.succ_sub hk, List.range'_concat]
    simp [chunksOf, Nat.add_sub_cancel' hk]
  · show s.outQ ++ [.chunk s.yielded] =
      (chunksOf (s.outQ ++ [.chunk s.yielded])).map .chunk ++ s.tail
    rw [hold] at hline
    have htail : s.tail = [] := by simp [State.tail, hexit]
    rw [htail, List.append_nil] at hline ⊢
    rw [Pipe.chunksOf_append, List.map_append, ← hline]
    rfl

/-- How the generator ends does not matter to a pipe before the dispatcher is through. -/
theorem running_ending {items : List Nat} {buffLen : Int} {e e' : Ending} {l : PipeRuns.State Nat}
    (h : Running items buffLen e l) (hopen : l.ended = false) : Running items buffLen e' l :=
  { h with
    error := by
      rw [h.error, hopen]
      rfl
    done := fun error hdone => absurd (h.done error hdone).1 (by simp [hopen]) }

theorem Flowing.exit (h : Flowing n s) (hexit : s.exit = none) (hoffer : s.offer = none)
    {error : Option Raise} (hproper : ∀ e, error = some e → e.exception = true ∧ e.truthy = true) :
    Flowing n { s with exit := some error, offer := some .sentinel } := by
  have hfinished := h.running hexit
  have hline := h.line_eq hfinished
  have hold : s.line = s.outQ := by simp [State.line, hoffer]
  have hchunks : chunksOf (s.outQ ++ [.sentinel]) = chunksOf s.outQ := by
    rw [Pipe.chunksOf_append]
    exact List.append_nil _
  obtain ⟨k, hk, hpending, hplaced⟩ := h.line
  refine
    { values := h.values
      nonempty := h.nonempty
      long := h.long
      line := ⟨k, hk, ?_, hplaced⟩
      shape := Or.inl ⟨hfinished, ?_⟩
      lanes := fun w hw => running_ending (h.lanes w hw) ((h.ended w hw).trans hfinished)
      ended := h.ended
      proper := fun e he => hproper e (Option.some.inj he) }
  · show s.hand.toList ++ chunksOf (s.outQ ++ [.sentinel]) = _
    rw [hchunks, ← hold]
    exact hpending
  · show s.outQ ++ [.sentinel] = (chunksOf (s.outQ ++ [.sentinel])).map .chunk ++ [.sentinel]
    rw [hold] at hline
    have htail : s.tail = [] := by simp [State.tail, hexit]
    rw [htail, List.append_nil] at hline
    rw [hchunks, ← hline]

theorem Flowing.offer (h : Flowing n s) {x : Item Nat} (hoffer : s.offer = some x) :
    Flowing n { s with offer := none, outQ := s.outQ ++ [x] } := by
  have hline : ({ s with offer := none, outQ := s.outQ ++ [x] } : State).line = s.line := by
    simp [State.line, hoffer]
  refine { h with line := ?_, shape := ?_ }
  · rw [State.pending, hline]
    exact h.line
  · unfold State.Shape
    rw [hline]
    exact h.shape

/-! ## §4 The dispatcher -/

theorem Flowing.takeChunk (h : Flowing n s) (hfinished : s.finished = false) (hhand : s.hand = none)
    {i : Nat} {rest : List (Item Nat)} (hq : s.outQ = .chunk i :: rest) :
    Flowing n { s with outQ := rest, hand := some i } := by
  have hline := h.line_eq hfinished
  have hcons : s.line = .chunk i :: (rest ++ s.offer.toList) := by simp [State.line, hq]
  rw [hcons] at hline
  obtain ⟨k, hk, hpending, hplaced⟩ := h.line
  refine { h with line := ⟨k, hk, ?_, hplaced⟩, shape := Or.inl ⟨hfinished, ?_⟩ }
  · rw [State.pending, hcons, hhand] at hpending
    exact hpending
  · rcases line_cases hline s.tail_cases with ⟨j, _, hrest⟩ | ⟨hno, _⟩
    · exact hrest
    · cases hno

/-- The end of a pipe that has its items is one of the ends of `PipeRuns`. -/
theorem running_endLane (h : Flowing n s) (hfinished : s.finished = false) {w : Nat} (hw : w < n) :
    Running (s.lane w).put (s.buff w) (ending s.exit.join) (s.endLane w) ∧
      (s.endLane w).ended = true ∧ (s.endLane w).put = (s.lane w).put := by
  have hlane := h.lanes w hw
  have hopen : (s.lane w).ended = false := (h.ended w hw).trans hfinished
  have htodo : (s.lane w).todo = [] := by
    have hput := hlane.todo
    exact List.append_right_eq_self.mp hput
  have hsome : ∃ pipe, endPipe (s.lane w).pipe (ending s.exit.join) = some pipe := by
    unfold ending
    split
    · exact ⟨_, rfl⟩
    · exact ⟨_, rfl⟩
  obtain ⟨pipe, hpipe⟩ := hsome
  have hend : s.endLane w = { s.lane w with pipe := pipe, ended := true } := by
    unfold State.endLane
    rw [hpipe]
  rw [hend]
  exact ⟨hlane.finish htodo hopen hpipe, rfl, rfl⟩

theorem Flowing.takeSentinel (h : Flowing n s) (hfinished : s.finished = false)
    (hhand : s.hand = none) {rest : List (Item Nat)} (hq : s.outQ = .sentinel :: rest) :
    Flowing n
      { s with
        outQ := rest
        finished := true
        lane := fun w => if w ∈ s.pipes.values then s.endLane w else s.lane w } := by
  have hline := h.line_eq hfinished
  have hcons : s.line = .sentinel :: (rest ++ s.offer.toList) := by simp [State.line, hq]
  rw [hcons] at hline
  have hempty : rest ++ s.offer.toList = [] ∧ s.tail = [.sentinel] := by
    rcases line_cases hline s.tail_cases with ⟨j, hno, _⟩ | ⟨_, hrest, htail⟩
    · cases hno
    · exact ⟨hrest, htail⟩
  have hmem : ∀ w, w < n → w ∈ s.pipes.values := fun w hw => by
    rw [h.values]
    exact List.mem_range.mpr hw
  have hlane : ∀ w, w < n → (if w ∈ s.pipes.values then s.endLane w else s.lane w) = s.endLane w :=
    fun w hw => if_pos (hmem w hw)
  obtain ⟨k, hk, hpending, hplaced⟩ := h.line
  refine
    { values := h.values
      nonempty := h.nonempty
      long := h.long
      line := ⟨k, hk, ?_, ?_⟩
      shape := Or.inr ⟨rfl, ?_, hempty.1, hhand⟩
      lanes := fun w hw => ?_
      ended := fun w hw => ?_
      proper := h.proper }
  · rw [State.pending, hcons] at hpending
    exact hpending
  · refine hplaced.congr fun w hw => ?_
    dsimp only
    rw [hlane w hw]
    exact (running_endLane h hfinished hw).2.2
  · intro hno
    have htail := hempty.2
    have hnone : s.exit = none := hno
    simp [State.tail, hnone] at htail
  · dsimp only
    rw [hlane w hw, (running_endLane h hfinished hw).2.2]
    exact (running_endLane h hfinished hw).1
  · dsimp only
    rw [hlane w hw]
    exact (running_endLane h hfinished hw).2.1

theorem leastLoaded_some {w : Nat} (h : s.leastLoaded = some w) :
    w ∈ s.pipes.values ∧ ¬ (s.lane w).pipe.isFull :=
  mem_of_argmin_filter h

theorem leastLoaded_ne_none {w : Nat} (hw : w ∈ s.pipes.values)
    (hfull : ¬ (s.lane w).pipe.isFull) : s.leastLoaded ≠ none :=
  argmin_filter_ne_none hw hfull

/-- What holds at every place, and of a new lane at its place, holds once it is there. -/
theorem forall_update {P : Nat → PipeRuns.State Nat → Prop} {lane : Nat → PipeRuns.State Nat}
    (h : ∀ w, w < n → P w (lane w)) {w : Nat} {l : PipeRuns.State Nat} (hw : w < n → P w l) :
    ∀ w', w' < n → P w' (Function.update lane w l w') :=
  (Function.forall_update_iff lane fun w' l => w' < n → P w' l).mpr ⟨hw, fun w' _ => h w'⟩

/-- The next item, put into one of the pipes. -/
theorem Placed.put {k : Nat} {put : Nat → List Nat} (h : Placed n k put) {w : Nat} (hw : w < n) :
    Placed n (k + 1) (Function.update put w (put w ++ [k])) := by
  have hnew : ∀ w', w' < n → k ∉ put w' := fun w' hw' hmem =>
    absurd (List.mem_range.mp ((h.order w' hw').subset hmem)) (lt_irrefl k)
  have hmem : ∀ w' i, i ∈ Function.update put w (put w ++ [k]) w' ↔
      i ∈ put w' ∨ w' = w ∧ i = k := by
    intro w' i
    by_cases heq : w' = w
    · subst heq
      simp
    · simp [heq]
  refine ⟨fun w' hw' => ?_, fun i hi => ?_, fun w₁ w₂ i hw₁ hw₂ hi₁ hi₂ => ?_⟩
  · rw [List.range_succ]
    by_cases heq : w' = w
    · subst heq
      rw [Function.update_self]
      exact (h.order w' hw').append (List.Sublist.refl [k])
    · rw [Function.update_of_ne heq]
      exact (h.order w' hw').trans (List.sublist_append_left _ _)
  · rcases Nat.lt_succ_iff_lt_or_eq.mp hi with hold | rfl
    · obtain ⟨w', hw', hi'⟩ := h.all i hold
      exact ⟨w', hw', (hmem w' i).mpr (Or.inl hi')⟩
    · exact ⟨w, hw, (hmem w i).mpr (Or.inr ⟨rfl, rfl⟩)⟩
  · rcases (hmem w₁ i).mp hi₁ with hold₁ | ⟨rfl, rfl⟩
    · rcases (hmem w₂ i).mp hi₂ with hold₂ | ⟨rfl, rfl⟩
      · exact h.apart w₁ w₂ i hw₁ hw₂ hold₁ hold₂
      · exact absurd hold₁ (hnew w₁ hw₁)
    · rcases (hmem w₂ i).mp hi₂ with hold₂ | ⟨rfl, _⟩
      · exact absurd hold₂ (hnew w₂ hw₂)
      · rfl

/-- One more item for a pipe: a step of the producer of `PipeRuns`. -/
theorem running_put {buffLen : Int} {e : Ending} {l : PipeRuns.State Nat}
    (h : Running l.put buffLen e l) (hopen : l.ended = false) {i : Nat} {pipe : Pipe Nat}
    (hput : l.pipe.put (.chunk i) = some pipe) :
    Running (l.put ++ [i]) buffLen e { l with put := l.put ++ [i], pipe := pipe } := by
  have htodo : l.todo = [] := List.append_right_eq_self.mp h.todo
  have hmore : Running (l.put ++ [i]) buffLen e { l with todo := [i] } :=
    { sound := h.sound
      length := h.length
      conserved := h.conserved
      todo := rfl
      bounded := h.bounded
      closed := h.closed
      ended := fun hended => absurd hended (by simp [hopen])
      error := h.error
      done := h.done
      awake := h.awake }
  have hsame : ({ l with put := l.put ++ [i], pipe := pipe } : PipeRuns.State Nat) =
      { l with todo := [], put := l.put ++ [i], pipe := pipe } := by
    obtain ⟨todo, put, pipe', ended, reader, received⟩ := l
    cases htodo
    rfl
  rw [hsame]
  exact hmore.put rfl hput

theorem Flowing.assign (h : Flowing n s) {i w : Nat} (hhand : s.hand = some i)
    (hleast : s.leastLoaded = some w) {pipe : Pipe Nat}
    (hput : (s.lane w).pipe.put (.chunk i) = some pipe) :
    Flowing n
      { s with
        hand := none
        lane :=
          Function.update s.lane w
            { s.lane w with put := (s.lane w).put ++ [i], pipe := pipe } } := by
  have hfinished : s.finished = false := by
    rcases h.shape with ⟨hfinished, _⟩ | ⟨_, _, _, hno⟩
    · exact hfinished
    · rw [hhand] at hno
      cases hno
  have hw : w < n := by
    have hmem := (leastLoaded_some hleast).1
    rw [h.values] at hmem
    exact List.mem_range.mp hmem
  obtain ⟨k, hk, hpending, hplaced⟩ := h.line
  rw [State.pending, hhand] at hpending
  -- the item in hand is the first that is in no pipe
  obtain ⟨m, hm⟩ : ∃ m, s.yielded - k = m + 1 := by
    cases hm : s.yielded - k with
    | zero =>
        rw [hm] at hpending
        cases hpending
    | succ m => exact ⟨m, rfl⟩
  rw [hm, List.range'_succ] at hpending
  have hi : i = k := (List.cons.inj hpending).1
  have hrest : chunksOf s.line = List.range' (k + 1) m := (List.cons.inj hpending).2
  have hnext : k + 1 ≤ s.yielded := by omega
  refine
    { values := h.values
      nonempty := h.nonempty
      long := h.long
      line := ⟨k + 1, hnext, ?_, ?_⟩
      shape := Or.inl ⟨hfinished, h.line_eq hfinished⟩
      lanes := fun w' hw' => ?_
      ended := fun w' hw' => ?_
      proper := h.proper }
  · show [] ++ chunksOf s.line = _
    rw [hrest, List.nil_append]
    congr 1
    show m = s.yielded - (k + 1)
    omega
  · have hplaced' := hplaced.put hw
    rw [← hi] at hplaced' ⊢
    have hsame : (fun w' => (Function.update s.lane w
        { s.lane w with put := (s.lane w).put ++ [i], pipe := pipe } w').put) =
        Function.update (fun w => (s.lane w).put) w ((s.lane w).put ++ [i]) := by
      funext w'
      by_cases heq : w' = w
      · subst heq
        simp
      · simp [Function.update_of_ne heq]
    rw [hsame]
    exact hplaced'
  · refine forall_update (P := fun w l => Running l.put (s.buff w) (ending s.exit.join) l)
      h.lanes (fun _ => ?_) w' hw'
    exact running_put (h.lanes w hw) ((h.ended w hw).trans hfinished) hput
  · refine forall_update (P := fun _ l => l.ended = s.finished) h.ended (fun _ => ?_) w' hw'
    exact h.ended w hw

/-! ## §5 Steps -/

/-- A step of one of the consumers. -/
theorem Flowing.next (h : Flowing n s) {w : Nat} {lane : PipeRuns.State Nat}
    (hstep : (s.lane w).step (ending s.exit.join) .next = some lane) :
    Flowing n { s with lane := Function.update s.lane w lane } := by
  obtain ⟨hput, hended⟩ := next_frame hstep
  have hsame : ∀ w', (Function.update s.lane w lane w').put = (s.lane w').put := by
    intro w'
    by_cases heq : w' = w
    · subst heq
      rw [Function.update_self, hput]
    · rw [Function.update_of_ne heq]
  obtain ⟨k, hk, hpending, hplaced⟩ := h.line
  refine
    { h with
      line := ⟨k, hk, hpending, ?_⟩
      lanes := fun w' hw' => ?_
      ended := fun w' hw' => ?_ }
  · exact hplaced.congr fun w' _ => hsame w'
  · refine forall_update (P := fun w l => Running l.put (s.buff w) (ending s.exit.join) l)
      h.lanes (fun hw => ?_) w' hw'
    rw [hput]
    exact (h.lanes w hw).next hstep
  · exact forall_update (P := fun _ l => l.ended = s.finished) h.ended
      (fun hw => hended.trans (h.ended w hw)) w' hw'

/-- Every step of a run with proper exceptions keeps the invariant. -/
theorem Flowing.step (h : Flowing n s) {ev : Event} (hproper : Proper s ev)
    (hstep : machine.step s ev = some t) : Flowing n t := by
  cases ev with
  | yield =>
      obtain ⟨⟨hexit, hoffer⟩, hstep⟩ := Option.ite_none_right_eq_some.mp hstep
      cases hstep
      exact h.yield hexit hoffer
  | exit error =>
      obtain ⟨⟨hexit, hoffer⟩, hstep⟩ := Option.ite_none_right_eq_some.mp hstep
      cases hstep
      refine h.exit hexit hoffer fun e he => ?_
      subst he
      exact hproper
  | offer =>
      simp only [machine, State.step] at hstep
      split at hstep
      · rename_i x hoffer
        obtain ⟨_, hstep⟩ := Option.ite_none_right_eq_some.mp hstep
        cases hstep
        exact h.offer hoffer
      · cases hstep
  | take =>
      simp only [machine, State.step] at hstep
      split at hstep
      · rename_i i rest hfinished hhand hq
        cases hstep
        exact h.takeChunk hfinished hhand hq
      · rename_i rest hfinished hhand hq
        cases hstep
        exact h.takeSentinel hfinished hhand hq
      · cases hstep
  | assign =>
      simp only [machine, State.step] at hstep
      split at hstep
      · rename_i i w hhand hleast
        obtain ⟨pipe, hput, rfl⟩ := Option.map_eq_some_iff.mp hstep
        exact h.assign hhand hleast hput
      · cases hstep
  | next w =>
      obtain ⟨lane, hlane, rfl⟩ := Option.map_eq_some_iff.mp hstep
      exact h.next hlane

/-! ## §6 When nothing more can happen -/

/-- The dispatcher's item does not wait for ever: a pipe with all its places taken has a consumer
that can go on. -/
theorem Flowing.hand_none (h : Flowing n s) (hstuck : ∀ ev, s.step ev = none) : s.hand = none := by
  by_contra hsome
  obtain ⟨i, hhand⟩ := Option.ne_none_iff_exists'.mp hsome
  have hfinished : s.finished = false := by
    rcases h.shape with ⟨hfinished, _⟩ | ⟨_, _, _, hno⟩
    · exact hfinished
    · exact absurd hno hsome
  have hzero : (0 : Nat) ∈ s.pipes.values := by
    rw [h.values]
    exact List.mem_range.mpr h.nonempty
  by_cases hfull : (s.lane 0).pipe.isFull
  · have hreading : ∀ error, (s.lane 0).reader ≠ .done error := fun error hdone => by
      have hended := ((h.lanes 0 h.nonempty).done error hdone).1
      rw [h.ended 0 h.nonempty, hfinished] at hended
      cases hended
    obtain ⟨t, ht, _⟩ := next_of_ne_nil (ending s.exit.join) hfull.ne_nil hreading
    have hnext := hstuck (.next 0)
    have hstep : (s.lane 0).step (ending s.exit.join) .next = some t := ht
    simp only [State.step, hstep] at hnext
    cases hnext
  · obtain ⟨w, hleast⟩ := Option.ne_none_iff_exists'.mp (leastLoaded_ne_none hzero hfull)
    have hassign := hstuck .assign
    simp only [State.step, hhand, hleast, Pipe.put, if_neg (leastLoaded_some hleast).2] at hassign
    cases hassign

theorem Flowing.stuck_finished (h : Flowing n s) (hstuck : ∀ ev, s.step ev = none) :
    s.finished = true := by
  by_contra hno
  have hfinished : s.finished = false := by simpa using hno
  have hhand := h.hand_none hstuck
  have hempty : s.outQ = [] := by
    cases hq : s.outQ with
    | nil => rfl
    | cons x rest =>
        have htake := hstuck .take
        cases x with
        | chunk i => simp [State.step, hfinished, hhand, hq] at htake
        | sentinel => simp [State.step, hfinished, hhand, hq] at htake
  have hoffer : s.offer = none := by
    by_contra hsome
    obtain ⟨x, hx⟩ := Option.ne_none_iff_exists'.mp hsome
    have hroom : (s.outQ.length : Int) < s.places := by
      rw [hempty]
      exact lt_of_lt_of_le Int.zero_lt_one (le_max_left _ _)
    have hstep := hstuck .offer
    simp only [State.step, hx, if_pos hroom] at hstep
    cases hstep
  have hexit : s.exit ≠ none := by
    intro hexit
    have hstep := hstuck .yield
    simp [State.step, hexit, hoffer] at hstep
  have hline := h.line_eq hfinished
  simp [State.line, State.tail, hempty, hoffer, Option.isSome_iff_ne_none.mpr hexit, chunksOf]
    at hline

/-- Once the dispatcher is through, everything is in the pipes. -/
theorem Flowing.all_put (h : Flowing n s) (hfinished : s.finished = true) :
    s.exit ≠ none ∧ ∀ i, i < s.yielded → ∃ w, w < n ∧ i ∈ (s.lane w).put := by
  rcases h.shape with ⟨hno, _⟩ | ⟨_, hexit, hline, hhand⟩
  · rw [hfinished] at hno
    cases hno
  · refine ⟨hexit, fun i hi => ?_⟩
    obtain ⟨k, hk, hpending, hplaced⟩ := h.line
    have hall : s.yielded - k = 0 := by
      have hlength := congrArg List.length hpending
      rw [State.pending, hhand, hline] at hlength
      simpa [chunksOf] using hlength.symm
    exact hplaced.all i (by omega)

theorem ending_error (exit : Option Raise)
    (hproper : ∀ e, exit = some e → e.exception = true ∧ e.truthy = true) :
    exit = (ending exit).error.map fun e => ⟨e, true, true⟩ := by
  cases exit with
  | none => rfl
  | some e =>
      obtain ⟨text, exception, truthy⟩ := e
      obtain ⟨hexception, htruthy⟩ := hproper _ rfl
      cases hexception
      cases htruthy
      rfl

theorem Flowing.fannedOut (h : Flowing n s) : FannedOut n s := by
  obtain ⟨k, hk, hpending, hplaced⟩ := h.line
  refine
    { order := fun w hw => (hplaced.order w hw).trans (List.range_sublist.mpr hk)
      apart := hplaced.apart
      bounded := fun w hw => (h.lanes w hw).bounded (h.long w hw)
      received := fun w hw => (h.lanes w hw).fifo.received
      ended := fun w hw hclosed => ?_
      done := fun w error hw hdone => ?_
      settled := fun hstuck w hw => ?_ }
  · have hfinished : s.finished = true := by
      rw [← h.ended w hw, ← (h.lanes w hw).closed]
      exact hclosed
    exact h.all_put hfinished
  · have hlane := h.lanes w hw
    obtain ⟨hreceived, herror⟩ := hlane.fifo.done error hdone
    have hfinished : s.finished = true := by
      rw [← h.ended w hw]
      exact (hlane.done error hdone).1
    obtain ⟨exit, hexit⟩ := Option.ne_none_iff_exists'.mp (h.all_put hfinished).1
    refine ⟨hreceived, ?_⟩
    rw [hexit] at herror ⊢
    rw [herror]
    exact congrArg some (ending_error exit fun e he => h.proper e (by rw [hexit, he]))
  · have hfinished := h.stuck_finished hstuck
    have hlane := h.lanes w hw
    have hended : (s.lane w).ended = true := (h.ended w hw).trans hfinished
    refine ⟨hlane.closed.trans hended, ?_⟩
    by_contra hno
    obtain ⟨t, ht, _⟩ := next_of_ended hlane hended fun error hdone => hno ⟨error, hdone⟩
    have hnext := hstuck (.next w)
    have hstep : (s.lane w).step (ending s.exit.join) .next = some t := ht
    simp only [State.step, hstep] at hnext
    cases hnext

/-! ## §7 Runs -/

/-- **The items are fanned out.** With pipes of ids of their own, and a generator that ends normally
or with a (truthy) `Exception`, every state of every run has each item in one pipe at most, in order
and within the bounds, a pipe ends after the last item is put, and a consumer that is through has
received its pipe and the end of the generator; and a run that cannot go on has brought every
consumer there. -/
theorem fanned_out {pipes : List (String × Int)} (hne : pipes ≠ [])
    (hlong : ∀ p ∈ pipes, 1 ≤ p.2) (hids : (pipes.map Prod.fst).Nodup) {es : List Event}
    (hproper : machine.Guarded Proper (start pipes) es) :
    machine.Always (FannedOut pipes.length) (start pipes) es :=
  Machine.always_of_guarded (fun _ h => Flowing.fannedOut h)
    (fun _ _ _ h hok hstep => Flowing.step h hok hstep) (flowing_start hne hids hlong) hproper

/-- One item and an error, for two pipes. -/
def failingRun : List Event :=
  [.yield, .offer, .exit (some ⟨"ValueError: no more", true, true⟩), .take, .offer, .assign, .take,
    .next 0, .next 0, .next 1]

theorem fanned_out_two :
    machine.Always (FannedOut 2) (start [("a", 1), ("b", 2)]) failingRun := by
  refine @fanned_out [("a", 1), ("b", 2)] (by decide) (by decide) (by decide) failingRun ?_
  refine Machine.guarded_of_mem (fun ev hev s => ?_) _
  simp only [failingRun, List.mem_cons, List.not_mem_nil, or_false] at hev
  rcases hev with rfl | rfl | rfl | rfl | rfl | rfl | rfl | rfl | rfl | rfl
  all_goals first | exact ⟨rfl, rfl⟩ | trivial

/-- The generator calls `sys.exit`, and the consumer of the pipe meets a normal end. -/
theorem exit_ends_normally :
    ¬ machine.Always (FannedOut 1) (start [("a", 1)])
      [.exit (some ⟨"SystemExit: 1", false, true⟩), .offer, .take, .next 0] := by
  intro h
  have hlast : FannedOut 1 _ := Machine.Always.last h rfl
  have hdone := (hlast.done 0 none (by decide) rfl).2
  cases hdone

end NetPulse.Mesh.FanOut
