import NetPulse.Lib.Prog

/-
# NetPulse.Lib.Transaction — statements, commits and rollbacks of one connection

A connection has what is stored and what it sees itself. A statement works on what the connection
sees, a commit stores that, and the end of a `with` throws away what has not been stored. Each of
these can fail (`fails`), and that one did is kept (`failed`).

The rules follow a program from one stored state to the next: a `with` that ends with its only commit
either stores all that its statements did, or nothing (`transaction_spec`).
-/

namespace NetPulse.Lib

/-- A connection, and which of the next steps fail. -/
structure Conn (σ : Type) where
  stored : σ
  working : σ
  fails : Nat → Bool
  failed : Bool

/-- The connection after a step that has failed. -/
def Conn.afterFailure {σ : Type} (c : Conn σ) : Conn σ :=
  { c with fails := fun i => c.fails (i + 1), failed := true }

/-- The connection after a step that has not. -/
def Conn.next {σ : Type} (c : Conn σ) : Conn σ := { c with fails := fun i => c.fails (i + 1) }

namespace Transaction

open Prog

variable {σ α β : Type}

/-! ## §1 Programs -/

/-- A statement; `none` when it cannot be executed. -/
def statement (f : σ → Option (α × σ)) : Prog Unit (Conn σ) α := fun c =>
  if c.fails 0 then .error () c.afterFailure
  else
    match f c.working with
    | none => .error () c.afterFailure
    | some (a, w) => .ok a { c.next with working := w }

/-- `conn.commit()` -/
def commit : Prog Unit (Conn σ) Unit := fun c =>
  if c.fails 0 then .error () c.afterFailure else .ok () { c.next with stored := c.working }

/-- There may be no connection. -/
def acquire : Prog Unit (Conn σ) Unit := fun c =>
  if c.fails 0 then .error () c.afterFailure else .ok () c.next

/-- `conn.rollback()` -/
def rollback (c : Conn σ) : Conn σ := { c with working := c.stored }

/-- `with db.connection() as conn:` -/
def withConnection (x : Prog Unit (Conn σ) α) : Prog Unit (Conn σ) α :=
  acquire >>= fun _ => ensuring rollback x

/-- `try: ... except Exception:`, with nothing returned then. -/
def attempt (x : Prog Unit (Conn σ) α) : Prog Unit (Conn σ) (Option α) := fun c =>
  match x c with
  | .ok a c' => .ok (some a) c'
  | .error _ c' => .ok none c'

/-- `db.execute(...)`: one statement for itself, whose failure is only noted. -/
def execute (f : σ → Option (α × σ)) : Prog Unit (Conn σ) (Option α) :=
  attempt (withConnection (statement f >>= fun a => commit >>= fun _ => pure a))

/-- `db.execute(..., fetch=True)` -/
def fetch (f : σ → α) : Prog Unit (Conn σ) (Option α) :=
  attempt (withConnection (statement fun s => some (f s, s)))

/-- `conn.executemany(...)` -/
def executemany (f : β → σ → Option σ) : List β → Prog Unit (Conn σ) Unit
  | [] => pure ()
  | b :: rest => statement (fun w => (f b w).map fun w' => ((), w')) >>= fun _ =>
      executemany f rest

/-! ## §2 What they leave -/

/-- What is stored, what the connection sees, and whether a step is known to have failed. -/
structure Is (s w : σ) (failed : Prop) (c : Conn σ) : Prop where
  stored : c.stored = s
  working : c.working = w
  failed : failed → c.failed = true

/-- Nothing was stored, since a step failed. -/
def Broken (s : σ) (c : Conn σ) : Prop := ∃ w, Is s w True c

variable {s w t : σ} {p : Prop} {f : σ → Option (α × σ)} {c : Conn σ}

theorem Is.afterFailure (h : Is s w p c) : Is s w True c.afterFailure :=
  ⟨h.stored, h.working, fun _ => rfl⟩

theorem Is.forget (h : Is s w p c) : Is s w False c := ⟨h.stored, h.working, False.elim⟩

theorem statement_spec :
    Triple (Is s w p) (statement f) (fun a c => ∃ w', f w = some (a, w') ∧ Is s w' p c)
      fun _ => Broken s := by
  intro c hc
  unfold statement
  by_cases hfails : c.fails 0 = true
  · rw [if_pos hfails]
    exact ⟨w, hc.afterFailure⟩
  · rw [if_neg hfails, hc.working]
    rcases f w with _ | ⟨a, w'⟩
    · exact ⟨w, hc.afterFailure⟩
    · exact ⟨w', rfl, hc.stored, rfl, hc.failed⟩

theorem commit_spec :
    Triple (Is s w p) (commit : Prog Unit (Conn σ) Unit) (fun _ => Is w w p) fun _ => Broken s := by
  intro c hc
  unfold commit
  by_cases hfails : c.fails 0 = true
  · rw [if_pos hfails]
    exact ⟨w, hc.afterFailure⟩
  · rw [if_neg hfails]
    exact ⟨hc.working, hc.working, hc.failed⟩

theorem acquire_spec :
    Triple (Is s w p) (acquire : Prog Unit (Conn σ) Unit) (fun _ => Is s w p)
      fun _ => Is s w True := by
  intro c hc
  unfold acquire
  by_cases hfails : c.fails 0 = true
  · rw [if_pos hfails]
    exact hc.afterFailure
  · rw [if_neg hfails]
    exact ⟨hc.stored, hc.working, hc.failed⟩

/-- What was stored stays at the end of a `with`, and is what is seen from then on. -/
theorem withConnection_spec {x : Prog Unit (Conn σ) α} {R : α → σ → Prop}
    (h : Triple (Is s s p) x (fun a c => ∃ t w, R a t ∧ Is t w p c) fun _ => Broken s) :
    Triple (Is s s p) (withConnection x) (fun a c => ∃ t, R a t ∧ Is t t p c)
      fun _ => Is s s True := by
  refine Triple.bind acquire_spec fun _ => Triple.ensuring (h.weaken (fun _ => id) ?_ ?_)
  · rintro a c ⟨t, w, hR, hc⟩
    exact ⟨t, hR, hc.stored, hc.stored, hc.failed⟩
  · rintro e c ⟨w, hc⟩
    exact ⟨hc.stored, hc.stored, hc.failed⟩

/-- What does not speak of unstored work is as true after a `with` as at its end. -/
theorem withConnection_of_rollback {x : Prog Unit (Conn σ) α} {Q : α → Conn σ → Prop}
    {E : Conn σ → Prop} (hrefused : ∀ c, Is s s True c → E c)
    (hQ : ∀ a c, Q a c → Q a (rollback c)) (hE : ∀ c, E c → E (rollback c))
    (h : Triple (Is s s p) x Q fun _ => E) : Triple (Is s s p) (withConnection x) Q fun _ => E :=
  Triple.bind (acquire_spec.onError fun _ => hrefused) fun _ =>
    Triple.ensuring (h.weaken (fun _ => id) hQ fun _ => hE)

theorem attempt_spec {P : Conn σ → Prop} {x : Prog Unit (Conn σ) α} {Q : α → Conn σ → Prop}
    {E : Conn σ → Prop} (h : Triple P x Q fun _ => E) {E' : Unit → Conn σ → Prop} :
    Triple P (attempt x) (fun o c => o.elim (E c) fun a => Q a c) E' := by
  intro c hc
  have hpost := h c hc
  unfold attempt
  rcases hx : x c with ⟨a, c'⟩ | ⟨e, c'⟩
  · rw [hx] at hpost
    exact hpost
  · rw [hx] at hpost
    exact hpost

/-- **A transaction**: either all of it is stored, or nothing. -/
theorem transaction_spec {x : Prog Unit (Conn σ) α} {R : α → σ → Prop}
    (h : Triple (Is s s p) x (fun a c => ∃ t, R a t ∧ Is s t p c) fun _ => Broken s)
    {E : Unit → Conn σ → Prop} :
    Triple (Is s s p) (attempt (withConnection (x >>= fun a => commit >>= fun _ => pure a)))
      (fun o c => o.elim (Is s s True c) fun a => ∃ t, R a t ∧ Is t t p c) E := by
  refine attempt_spec (withConnection_spec (Triple.bind h fun a => ?_))
  refine Triple.of_exists fun t => Triple.of_fact fun hR => ?_
  refine Triple.bind commit_spec fun _ => Triple.pure fun c hc => ?_
  exact ⟨t, t, hR, hc⟩

theorem execute_spec {E : Unit → Conn σ → Prop} :
    Triple (Is s s p) (execute f)
      (fun o c => o.elim (Is s s True c) fun a => ∃ t, f s = some (a, t) ∧ Is t t p c) E :=
  transaction_spec statement_spec

theorem fetch_spec {f : σ → α} {E : Unit → Conn σ → Prop} :
    Triple (Is s s p) (fetch f)
      (fun o c => o.elim (Is s s True c) fun a => f s = a ∧ Is s s p c) E := by
  have hread : Triple (Is s s p) (statement fun s => some (f s, s))
      (fun a c => ∃ t w, (f s = a ∧ s = t) ∧ Is t w p c) fun _ => Broken s := by
    refine statement_spec.after ?_
    rintro a c ⟨w, hw, hc⟩
    obtain ⟨ha, rfl⟩ : f s = a ∧ s = w := by simpa using hw
    exact ⟨s, s, ⟨ha, rfl⟩, hc⟩
  refine (attempt_spec (withConnection_spec hread)).after ?_
  rintro (_ | a) c ho
  · exact ho
  · obtain ⟨t, ⟨ha, rfl⟩, hc⟩ := ho
    exact ⟨ha, hc⟩

/-- All rows one after the other. -/
def afterAll (g : β → σ → Option σ) : List β → σ → Option σ
  | [], s => some s
  | b :: rest, s => (g b s).bind (afterAll g rest)

theorem executemany_spec {g : β → σ → Option σ} {rows : List β} :
    Triple (Is s w p) (executemany g rows) (fun _ c => ∃ w', afterAll g rows w = some w' ∧ Is s w' p c)
      fun _ => Broken s := by
  induction rows generalizing w with
  | nil => exact Triple.pure fun c hc => ⟨w, rfl, hc⟩
  | cons b rest ih =>
      refine Triple.bind statement_spec fun _ => ?_
      refine Triple.of_exists fun w' => Triple.of_fact fun hw' => ?_
      obtain ⟨w'', hw'', heq⟩ := Option.map_eq_some_iff.mp hw'
      obtain rfl : w'' = w' := congrArg Prod.snd heq
      refine ih.after ?_
      rintro _ c ⟨t, ht, hc⟩
      exact ⟨t, by rw [afterAll, hw'', Option.bind_some, ht], hc⟩

/-! ## §3 Connections on which nothing fails -/

/-- None of the next steps fails. -/
def Unfailing (c : Conn σ) : Prop := ∀ i, c.fails i = false

theorem statement_unfailing (hf : ∀ s, (f s).isSome) :
    Triple Unfailing (statement f) (fun _ => Unfailing) fun _ _ => False := by
  intro c hc
  obtain ⟨⟨a, w⟩, ha⟩ := Option.isSome_iff_exists.mp (hf c.working)
  unfold statement
  rw [if_neg (by rw [hc 0]; exact Bool.false_ne_true), ha]
  exact fun i => hc (i + 1)

theorem commit_unfailing :
    Triple Unfailing (commit : Prog Unit (Conn σ) Unit) (fun _ => Unfailing) fun _ _ => False := by
  intro c hc
  unfold commit
  rw [if_neg (by rw [hc 0]; exact Bool.false_ne_true)]
  exact fun i => hc (i + 1)

theorem acquire_unfailing :
    Triple Unfailing (acquire : Prog Unit (Conn σ) Unit) (fun _ => Unfailing) fun _ _ => False := by
  intro c hc
  unfold acquire
  rw [if_neg (by rw [hc 0]; exact Bool.false_ne_true)]
  exact fun i => hc (i + 1)

theorem withConnection_unfailing {x : Prog Unit (Conn σ) α}
    (h : Triple Unfailing x (fun _ => Unfailing) fun _ _ => False) :
    Triple Unfailing (withConnection x) (fun _ => Unfailing) fun _ _ => False :=
  Triple.bind acquire_unfailing fun _ => Triple.ensuring h

/-- An `except` that has nothing to catch. -/
theorem attempt_unfailing {x : Prog Unit (Conn σ) α}
    (h : Triple Unfailing x (fun _ => Unfailing) fun _ _ => False) :
    Triple Unfailing (attempt x) (fun o c => o.isSome ∧ Unfailing c) fun _ _ => False := by
  refine (attempt_spec h).after ?_
  rintro (_ | a) c hc
  · exact hc.elim
  · exact ⟨rfl, hc⟩

end Transaction

end NetPulse.Lib
