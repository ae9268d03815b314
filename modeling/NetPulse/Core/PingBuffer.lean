import Mathlib.Data.List.Perm.Basic
import NetPulse.Lib.Machine

/-
# NetPulse.Core.PingBuffer — samples on their way to the database (`pinger.py`, `services.py`)

The ping thread appends samples to `_pending_saves`. A flush, there or in the thread that stops the
program, copies the buffer and clears it under `_io_lock`, and hands the copy to `_save_pings`. Only
an exception brings the copy back, but `execute_many` answers `False` when a write fails.

`samples_kept_iff`: in a run of the machine no sample is lost or doubled exactly when no write of
samples answers `False` and no sample comes between a copy and its `clear` (an append does not take
the lock).
-/

namespace NetPulse.Core

open NetPulse.Lib

/-! ## §1 `execute_many` -/

/-- One attempt: committed, `database is locked`, or any other exception, also that of a closed
manager. A transaction that is not committed is rolled back. -/
inductive Attempt where
  | committed
  | locked
  | failed
  deriving DecidableEq

/-- `for attempt in range(retries)`, from `attempt` on. -/
def attempts (retries : Nat) (outcome : Nat → Attempt) : Nat → Nat → Bool
  | 0, _ => false
  | left + 1, attempt =>
      match outcome attempt with
      | .committed => true
      | .locked => if attempt < retries - 1 then attempts retries outcome left (attempt + 1) else false
      | .failed => false

/-- `execute_many(query, params_list, retries=3)`: the rows that the table gets, and the answer. -/
def execute_many {R : Type} (closed : Bool) (params_list : List R) (outcome : Nat → Attempt) :
    List R × Bool :=
  if closed || params_list.isEmpty then ([], false)
  else if attempts 3 outcome 3 0 then (params_list, true)
  else ([], false)

/-- The database commits at one of the three attempts, and is locked at those before. -/
def Commits (outcome : Nat → Attempt) : Prop :=
  ∃ n, n < 3 ∧ outcome n = .committed ∧ ∀ m, m < n → outcome m = .locked

theorem attempts_iff {retries : Nat} {outcome : Nat → Attempt} {left attempt : Nat}
    (hsum : attempt + left = retries) :
    attempts retries outcome left attempt = true ↔
      ∃ n, attempt ≤ n ∧ n < retries ∧ outcome n = .committed ∧
        ∀ m, attempt ≤ m → m < n → outcome m = .locked := by
  induction left generalizing attempt with
  | zero =>
      refine iff_of_false (fun h => by cases h) ?_
      rintro ⟨n, hle, hlt, -⟩
      omega
  | succ left ih =>
      rw [attempts]
      split
      · rename_i hcommitted
        exact iff_of_true rfl ⟨attempt, Nat.le_refl _, by omega, hcommitted, fun m _ _ => by omega⟩
      · rename_i hlocked
        have hrest : (if attempt < retries - 1 then attempts retries outcome left (attempt + 1)
            else false) = attempts retries outcome left (attempt + 1) := by
          split
          · rfl
          · rw [show left = 0 by omega]
            rfl
        rw [hrest, ih (by omega)]
        constructor
        · rintro ⟨n, hle, hlt, hn, hbefore⟩
          refine ⟨n, by omega, hlt, hn, fun m hm hmn => ?_⟩
          by_cases hm' : m = attempt
          · rw [hm', hlocked]
          · exact hbefore m (by omega) hmn
        · rintro ⟨n, hle, hlt, hn, hbefore⟩
          have hne : n ≠ attempt := fun heq => by
            rw [heq, hlocked] at hn
            cases hn
          exact ⟨n, by omega, hlt, hn, fun m hm hmn => hbefore m (by omega) hmn⟩
      · rename_i hfailed
        refine iff_of_false (fun h => by cases h) ?_
        rintro ⟨n, hle, hlt, hn, hbefore⟩
        by_cases hne : n = attempt
        · rw [hne, hfailed] at hn
          cases hn
        · have hlocked := hbefore attempt (Nat.le_refl _) (by omega)
          rw [hfailed] at hlocked
          cases hlocked

/-- When the answer is `True`. -/
theorem execute_many_true_iff {R : Type} (closed : Bool) (params_list : List R)
    (outcome : Nat → Attempt) :
    (execute_many closed params_list outcome).2 = true ↔
      params_list ≠ [] ∧ closed = false ∧ Commits outcome := by
  have htries : attempts 3 outcome 3 0 = true ↔ Commits outcome := by
    rw [attempts_iff (Nat.zero_add 3)]
    constructor
    · rintro ⟨n, -, hlt, hn, hbefore⟩
      exact ⟨n, hlt, hn, fun m => hbefore m (Nat.zero_le m)⟩
    · rintro ⟨n, hlt, hn, hbefore⟩
      exact ⟨n, Nat.zero_le n, hlt, hn, fun m _ => hbefore m⟩
  unfold execute_many
  split
  · rename_i hrefused
    refine iff_of_false (fun h => by cases h) ?_
    rintro ⟨hsome, hopen, -⟩
    rw [hopen, Bool.false_or, List.isEmpty_iff] at hrefused
    exact hsome hrefused
  · rename_i hopen
    rw [Bool.or_eq_true, List.isEmpty_iff, not_or, Bool.not_eq_true] at hopen
    split
    · rename_i htrue
      exact iff_of_true rfl ⟨hopen.2, hopen.1, htries.mp htrue⟩
    · rename_i hfalse
      exact iff_of_false (fun h => by cases h) fun h => hfalse (htries.mpr h.2.2)

/-- An answer tells whether the rows are there. -/
theorem execute_many_rows {R : Type} (closed : Bool) (params_list : List R)
    (outcome : Nat → Attempt) :
    (execute_many closed params_list outcome).1
      = if (execute_many closed params_list outcome).2 then params_list else [] := by
  unfold execute_many
  split
  · rfl
  · split <;> rfl

/-! ## §2 The pinger -/

/-- An entry of `_pending_saves`; `N` is the type of its measured numbers. -/
structure Sample (N : Type) where
  timestamp : String
  ping_ms : Option N
  loss : Nat
  jitter : N
  target : String

/-- A row of the table `pings`. -/
abbrev PingRow (N : Type) := String × Option N × Nat × N × String

def Sample.row {N : Type} (s : Sample N) : PingRow N :=
  (s.timestamp, s.ping_ms, s.loss, s.jitter, s.target)

structure Pinger (N : Type) where
  /-- Every sample so far. -/
  recorded : List (Sample N)
  /-- `_pending_saves` -/
  pending : List (Sample N)
  /-- Flushes that have found samples and wait for `_io_lock`. -/
  entered : Nat
  /-- The copy of the flush that holds `_io_lock`. -/
  copied : Option (List (Sample N))
  /-- The copies on their way through the callback, `_save_pings`. -/
  saving : List (List (Sample N))
  /-- `_closed` of the database -/
  closed : Bool
  pings : List (PingRow N)

namespace Pinger

variable {N : Type}

inductive Event (N : Type) where
  /-- `_do_ping` -/
  | record (s : Sample N)
  /-- `if not self._pending_saves` -/
  | enter
  | copy
  | clear
  /-- `_save_pings` of copy `k`. -/
  | save (k : Nat) (outcome : Nat → Attempt)
  /-- The callback raises for copy `k`. -/
  | raised (k : Nat)
  | closeDb

/-- `_save_pings(saves)` -/
def save_pings (s : Pinger N) (saves : List (Sample N)) (outcome : Nat → Attempt) : Pinger N × Bool :=
  let (rows, answer) := execute_many s.closed (saves.map Sample.row) outcome
  ({ s with pings := s.pings ++ rows }, answer)

def step (s : Pinger N) : Event N → Option (Pinger N)
  | .record x => some { s with
      recorded := s.recorded ++ [x]
      pending := s.pending ++ [x] }
  | .enter => if s.pending.isEmpty then none else some { s with entered := s.entered + 1 }
  | .copy =>
      match s.copied, s.entered with
      | none, entered + 1 => some { s with
          entered := entered
          copied := some s.pending }
      | _, _ => none
  | .clear =>
      match s.copied with
      | some saves => some { s with
          pending := []
          copied := none
          saving := s.saving ++ [saves] }
      | none => none
  | .save k outcome =>
      match s.saving[k]? with
      -- The answer is not looked at.
      | some saves => some (save_pings { s with saving := s.saving.eraseIdx k } saves outcome).1
      | none => none
  | .raised k =>
      match s.saving[k]?, s.copied with
      | some saves, none => some { s with
          pending := s.pending ++ saves
          saving := s.saving.eraseIdx k }
      | _, _ => none
  | .closeDb => some { s with closed := true }

def machine : Machine (Pinger N) (Event N) := ⟨step⟩

/-- A pinger with its callback. -/
def start : Pinger N := ⟨[], [], 0, none, [], false, []⟩

/-! ## §3 Conservation -/

/-- Pending for the next flush, or in one that has not come back. -/
def waiting (s : Pinger N) : List (Sample N) := s.pending ++ s.saving.flatten

/-- Rows and waiting samples together are the samples of the run, each as often as it was recorded. -/
def Conserved (s : Pinger N) : Prop :=
  (s.pings ++ s.waiting.map Sample.row).Perm (s.recorded.map Sample.row)

/-- Nothing came between the copy and `clear`, and the database took what it was given. -/
def Kept (s : Pinger N) : Event N → Prop
  | .clear => s.copied = some s.pending
  | .save k outcome => ∀ saves, s.saving[k]? = some saves →
      saves = [] ∨ s.closed = false ∧ Commits outcome
  | _ => True

/-- With the copy as the beginning of the buffer. -/
structure Inv (s : Pinger N) : Prop where
  conserved : Conserved s
  copy : ∀ saves, s.copied = some saves → ∃ later, s.pending = saves ++ later

section Steps

variable {s : Pinger N}

/-- A copy is taken out of those on their way. -/
theorem flatten_eraseIdx {k : Nat} {saves : List (Sample N)} (h : s.saving[k]? = some saves) :
    s.saving.flatten.Perm (saves ++ (s.saving.eraseIdx k).flatten) := by
  obtain ⟨hk, hget⟩ := List.getElem?_eq_some_iff.mp h
  have hperm := (List.getElem_cons_eraseIdx_perm hk).flatten
  rw [hget, List.flatten_cons] at hperm
  exact hperm.symm

theorem Inv.record (h : Inv s) (x : Sample N) :
    Inv { s with
      recorded := s.recorded ++ [x]
      pending := s.pending ++ [x] } := by
  refine ⟨?_, fun saves hcopied => ?_⟩
  · show (s.pings ++ ((s.pending ++ [x]) ++ s.saving.flatten).map Sample.row).Perm
      ((s.recorded ++ [x]).map Sample.row)
    have hmove : ((s.pending ++ [x]) ++ s.saving.flatten).Perm (s.waiting ++ [x]) := by
      rw [waiting, List.append_assoc, List.append_assoc]
      exact List.perm_append_comm.append_left _
    have hrows := (hmove.map Sample.row).append_left s.pings
    rw [(List.map_append : (s.waiting ++ [x]).map Sample.row = _), ← List.append_assoc] at hrows
    rw [(List.map_append : (s.recorded ++ [x]).map Sample.row = _)]
    exact List.Perm.trans hrows (h.conserved.append_right _)
  · obtain ⟨later, hlater⟩ := h.copy saves hcopied
    refine ⟨later ++ [x], ?_⟩
    show s.pending ++ [x] = _
    rw [hlater, List.append_assoc]

/-- The waiting samples change their places only. -/
theorem Conserved.of_perm {s' : Pinger N} (h : Conserved s) (hpings : s'.pings = s.pings)
    (hrecorded : s'.recorded = s.recorded) (hwaiting : s'.waiting.Perm s.waiting) : Conserved s' := by
  unfold Conserved
  rw [hpings, hrecorded]
  exact ((hwaiting.map Sample.row).append_left s.pings).trans h

/-- What waits and what is stored are as many as what was recorded. -/
theorem Conserved.length (h : Conserved s) :
    s.pings.length + s.waiting.length = s.recorded.length := by
  have hlength := List.Perm.length_eq h
  rwa [List.length_append, List.length_map, List.length_map] at hlength

theorem Inv.clear (h : Inv s) :
    Inv { s with
      pending := []
      copied := none
      saving := s.saving ++ [s.pending] } := by
  refine ⟨h.conserved.of_perm rfl rfl ?_, fun saves hcopied => by cases hcopied⟩
  show ([] ++ (s.saving ++ [s.pending]).flatten).Perm (s.pending ++ s.saving.flatten)
  rw [List.nil_append, List.flatten_append, List.flatten_singleton]
  exact List.perm_append_comm

/-- A sample that came after the copy is in no place any more. -/
theorem not_conserved_clear (h : Inv s) {saves : List (Sample N)} (hcopied : s.copied = some saves)
    (hlate : saves ≠ s.pending) :
    ¬ Conserved { s with
      pending := []
      copied := none
      saving := s.saving ++ [saves] } := by
  intro hafter
  obtain ⟨later, hlater⟩ := h.copy saves hcopied
  have hbefore := h.conserved.length
  have hlength : s.pings.length + ([] ++ (s.saving ++ [saves]).flatten).length = s.recorded.length :=
    hafter.length
  rw [waiting, hlater] at hbefore
  rw [List.nil_append, List.flatten_append, List.flatten_singleton, List.length_append] at hlength
  rw [List.length_append, List.length_append] at hbefore
  have hnone : later = [] := List.eq_nil_of_length_eq_zero (by omega)
  rw [hnone, List.append_nil] at hlater
  exact hlate hlater.symm

variable {k : Nat} {saves : List (Sample N)} {outcome : Nat → Attempt}

theorem Inv.saved (h : Inv s) (hk : s.saving[k]? = some saves)
    (hok : saves = [] ∨ s.closed = false ∧ Commits outcome) :
    Inv (save_pings { s with saving := s.saving.eraseIdx k } saves outcome).1 := by
  refine ⟨?_, h.copy⟩
  have hrows : (execute_many s.closed (saves.map Sample.row) outcome).1 = saves.map Sample.row := by
    rw [execute_many_rows]
    by_cases hnil : saves = []
    · rw [hnil, List.map_nil, ite_self]
    · refine if_pos ((execute_many_true_iff _ _ _).mpr ⟨fun hmap => hnil ?_, hok.resolve_left hnil⟩)
      exact List.map_eq_nil_iff.mp hmap
  show ((s.pings ++ (execute_many s.closed (saves.map Sample.row) outcome).1)
    ++ (s.pending ++ (s.saving.eraseIdx k).flatten).map Sample.row).Perm (s.recorded.map Sample.row)
  rw [hrows, List.append_assoc, ← List.map_append]
  refine List.Perm.trans (((?_ : List.Perm _ s.waiting).map Sample.row).append_left s.pings) h.conserved
  have hmove : (saves ++ (s.pending ++ (s.saving.eraseIdx k).flatten)).Perm
      (s.pending ++ (saves ++ (s.saving.eraseIdx k).flatten)) := by
    rw [← List.append_assoc, ← List.append_assoc]
    exact List.perm_append_comm.append_right _
  exact hmove.trans ((flatten_eraseIdx hk).symm.append_left s.pending)

/-- Samples that the database refused are in no place any more. -/
theorem not_conserved_save (h : Inv s) (hk : s.saving[k]? = some saves)
    (hno : ¬ (saves = [] ∨ s.closed = false ∧ Commits outcome)) :
    ¬ Conserved (save_pings { s with saving := s.saving.eraseIdx k } saves outcome).1 := by
  intro hafter
  have hnone : (execute_many s.closed (saves.map Sample.row) outcome).1 = [] := by
    rw [execute_many_rows]
    exact if_neg fun htrue => hno (Or.inr ((execute_many_true_iff _ _ _).mp htrue).2)
  have hlength : (s.pings ++ (execute_many s.closed (saves.map Sample.row) outcome).1).length
      + (s.pending ++ (s.saving.eraseIdx k).flatten).length = s.recorded.length := hafter.length
  have hbefore := h.conserved.length
  have htaken := (flatten_eraseIdx hk).length_eq
  rw [hnone, List.append_nil, List.length_append] at hlength
  rw [waiting, List.length_append] at hbefore
  rw [List.length_append] at htaken
  exact hno (Or.inl (List.eq_nil_of_length_eq_zero (by omega)))

theorem Inv.raised (h : Inv s) (hk : s.saving[k]? = some saves) (hfree : s.copied = none) :
    Inv { s with
      pending := s.pending ++ saves
      saving := s.saving.eraseIdx k } := by
  refine ⟨h.conserved.of_perm rfl rfl ?_, fun saves' hcopied => ?_⟩
  · show ((s.pending ++ saves) ++ (s.saving.eraseIdx k).flatten).Perm (s.pending ++ s.saving.flatten)
    rw [List.append_assoc]
    exact (flatten_eraseIdx hk).symm.append_left s.pending
  · rw [show s.copied = some saves' from hcopied] at hfree
    cases hfree

/-- **Step.** What the machine does in a step that is kept. -/
theorem step_inv {s' : Pinger N} {e : Event N} (h : Inv s) (hok : Kept s e)
    (hs : s.step e = some s') : Inv s' := by
  cases e with
  | record x => exact Option.some.inj hs ▸ h.record x
  | enter =>
      rw [step] at hs
      split at hs
      · cases hs
      · exact Option.some.inj hs ▸ ⟨h.conserved, h.copy⟩
  | copy =>
      rw [step] at hs
      split at hs
      · obtain rfl := Option.some.inj hs
        refine ⟨h.conserved, fun saves hcopied => ⟨[], ?_⟩⟩
        rw [List.append_nil]
        exact Option.some.inj hcopied
      · cases hs
  | clear =>
      have hall : s.copied = some s.pending := hok
      rw [step, hall] at hs
      exact Option.some.inj hs ▸ h.clear
  | save k outcome =>
      rw [step] at hs
      split at hs
      · rename_i saves hk
        exact Option.some.inj hs ▸ h.saved hk (hok saves hk)
      · cases hs
  | raised k =>
      rw [step] at hs
      split at hs
      · rename_i saves hk hfree
        exact Option.some.inj hs ▸ h.raised hk hfree
      · cases hs
  | closeDb => exact Option.some.inj hs ▸ ⟨h.conserved, h.copy⟩

/-- **Step.** A step that is not kept loses samples. -/
theorem step_not_conserved {s' : Pinger N} {e : Event N} (h : Inv s) (hno : ¬ Kept s e)
    (hs : s.step e = some s') : ¬ Conserved s' := by
  cases e with
  | clear =>
      rw [step] at hs
      split at hs
      · rename_i saves hcopied
        refine Option.some.inj hs ▸ not_conserved_clear h hcopied fun hall => hno ?_
        exact hcopied.trans (congrArg some hall)
      · cases hs
  | save k outcome =>
      rw [step] at hs
      split at hs
      · rename_i saves hk
        refine Option.some.inj hs ▸ not_conserved_save h hk fun hok => hno fun saves' hk' => ?_
        rwa [← Option.some.inj (hk.symm.trans hk')]
      · cases hs
  | record => exact absurd trivial hno
  | enter => exact absurd trivial hno
  | copy => exact absurd trivial hno
  | raised => exact absurd trivial hno
  | closeDb => exact absurd trivial hno

end Steps

/-! ## §4 Runs -/

theorem start_inv : Inv (start : Pinger N) :=
  ⟨List.Perm.refl _, fun saves hcopied => by cases hcopied⟩

/-- **Exactly** the runs whose writes all succeed and whose copies are complete keep every sample. -/
theorem samples_kept_iff (es : List (Event N)) (s : Pinger N) (hrun : machine.run start es = some s) :
    machine.Always Conserved start es ↔ machine.Guarded Kept start es :=
  Machine.always_iff_guarded (fun _ (h : Inv _) => h.conserved) (fun _ _ _ h => step_inv h)
    (fun _ _ _ h => step_not_conserved h) start_inv hrun

/-- One sample, saved at the second attempt. -/
theorem savedAtSecond_kept :
    machine.Always Conserved (start : Pinger Nat) [.record ⟨"t", some 20, 0, 1, "8.8.8.8"⟩, .enter,
      .copy, .clear, .save 0 fun attempt => if attempt = 0 then .locked else .committed] :=
  (samples_kept_iff _ _ rfl).mpr
    ⟨trivial, fun _ h₁ => ⟨trivial, fun _ h₂ => ⟨trivial, fun _ h₃ => by
      obtain rfl := Option.some.inj h₁
      obtain rfl := Option.some.inj h₂
      obtain rfl := Option.some.inj h₃
      refine ⟨rfl, fun _ h₄ => ?_⟩
      obtain rfl := Option.some.inj h₄
      refine ⟨fun saves hsaves => Or.inr ?_, fun _ _ => trivial⟩
      exact ⟨rfl, 1, by decide, rfl, fun m hm => if_pos (by omega)⟩⟩⟩⟩

/-- One sample, and a disk that is full: it is neither stored nor pending. -/
theorem refused_lost :
    ¬ ∀ es : List (Event Nat), machine.Always Conserved start es := by
  intro h
  have hend := Machine.Always.last (h [.record ⟨"t", some 20, 0, 1, "8.8.8.8"⟩, .enter, .copy, .clear,
    .save 0 fun _ => .failed]) rfl
  exact absurd hend.length (by decide)

end Pinger

end NetPulse.Core
