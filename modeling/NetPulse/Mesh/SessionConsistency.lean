import NetPulse.Mesh.Sessions

/-
# NetPulse.Mesh.SessionConsistency — the two dictionaries of a `SessionTable`

A label has its future in `_table` and its service in `_meta`, and five operations edit the two. Over
them stands a registry: what is registered under which label, as the calls say it, without the
objects. A label that is registered again has a new session, and its old future is no session any more.

`session_table_consistent`: after every sequence of calls both dictionaries have the labels of the
registry, every future is completed at most once, and `cancel_by_service` completes the futures that
are registered for the service, and no others.
-/

namespace NetPulse.Mesh.SessionConsistency

open NetPulse.Lib SessionTable

variable {R V : Type}

/-! ## §1 Calls -/

/-- What a future is resolved with: the data of an answer, or `Exception(error)`. -/
inductive Answer (V : Type) where
  | data (v : V)
  | error (message : String)

inductive Call (V : Type) where
  | register_single (label service method : String)
  | resolve (label : String) (data : V)
  | resolveError (label message : String)
  | cancel (label : String)
  | cancel_by_service (service_name : String)

/-- `cancel_by_service`: the table, and the number that is returned. -/
def cancel_by_service (t : SessionTable R) (service_name : String) : SessionTable R × Nat :=
  (t.cancelByService service_name, (t.targets service_name).length)

def apply (t : SessionTable (Answer V)) : Call V → SessionTable (Answer V)
  | .register_single label service method => (t.registerSingle label service method).1
  | .resolve label data => t.resolve label (.data data)
  | .resolveError label message => t.resolve label (.error message)
  | .cancel label => t.cancel label
  | .cancel_by_service service_name => (cancel_by_service t service_name).1

/-- The table after a sequence of calls. -/
def after (calls : List (Call V)) : SessionTable (Answer V) := calls.foldl apply SessionTable.init

/-- The future on which `set_result` or `cancel` is called for a label, if there is one: it must not be
done. -/
def settledBy (t : SessionTable R) (label : String) : List Nat :=
  match t.table.get label with
  | none => []
  | some id =>
      match t.heap[id]? with
      | some (.future .pending) => [id]
      | _ => []

/-- The same for one label after the other, each of which is cancelled. -/
def settledByAll (t : SessionTable R) : List String → List Nat
  | [] => []
  | label :: rest => settledBy t label ++ settledByAll (t.cancel label) rest

/-- The futures that a call completes, each as often as it does. -/
def settles (t : SessionTable (Answer V)) : Call V → List Nat
  | .register_single .. => []
  | .resolve label _ => settledBy t label
  | .resolveError label _ => settledBy t label
  | .cancel label => settledBy t label
  | .cancel_by_service service_name => settledByAll t (t.targets service_name)

def settlesIn (t : SessionTable (Answer V)) : List (Call V) → List Nat
  | [] => []
  | call :: rest => settles t call ++ settlesIn (apply t call) rest

/-! ## §2 The registry -/

/-- The future of a label, by its number, and its service. -/
structure Registration where
  future : Nat
  service : String

structure Registry where
  /-- The number of registrations so far. -/
  next : Nat
  sessions : String → Option Registration

namespace Registry

/-- The label has no session any more. -/
def drop (r : Registry) (label : String) : Registry :=
  { r with sessions := Function.update r.sessions label none }

def step (r : Registry) : Call V → Registry
  | .register_single label service _ =>
      { next := r.next + 1
        sessions := Function.update r.sessions label (some ⟨r.next, service⟩) }
  | .resolve label _ => r.drop label
  | .resolveError label _ => r.drop label
  | .cancel label => r.drop label
  | .cancel_by_service service_name =>
      { r with sessions := fun label =>
          (r.sessions label).filter fun x => decide (x.service ≠ service_name) }

def init : Registry := ⟨0, fun _ => none⟩

theorem sessions_dropAll (r : Registry) (labels : List String) (label : String) :
    (labels.foldl drop r).sessions label = if label ∈ labels then none else r.sessions label := by
  induction labels generalizing r with
  | nil => rfl
  | cons l rest ih =>
      rw [List.foldl_cons, ih, drop]
      by_cases hl : label = l
      · subst hl
        simp
      · simp [hl]

theorem next_dropAll (r : Registry) (labels : List String) : (labels.foldl drop r).next = r.next := by
  induction labels generalizing r with
  | nil => rfl
  | cons l rest ih => exact ih (r.drop l)

end Registry

/-- What is registered after a sequence of calls. -/
def registry (calls : List (Call V)) : Registry := calls.foldl Registry.step Registry.init

/-! ## §3 The table and the registry -/

/-- The table has what the registry says. -/
structure Agrees (r : Registry) (t : SessionTable R) : Prop where
  length : t.heap.length = r.next
  /-- `_table` has the futures, -/
  table : ∀ label, t.table.get label = (r.sessions label).map Registration.future
  /-- and `_meta` has the services. -/
  metas : ∀ label, (t.metas.get label).map SessionMeta.service =
    (r.sessions label).map Registration.service
  /-- What is registered is pending, -/
  live : ∀ label x, r.sessions label = some x → t.heap[x.future]? = some (.future .pending)
  /-- and no future is registered twice. -/
  distinct : ∀ l l' x x', r.sessions l = some x → r.sessions l' = some x' → x.future = x'.future → l = l'

/-- What a call makes of the future of one label. -/
structure Effect (label : String) (state : FutureState R) (t u : SessionTable R) : Prop where
  length : u.heap.length = t.heap.length
  heap : ∀ id, u.heap[id]? = if id ∈ settledBy t label then some (.future state) else t.heap[id]?
  absent : u.Absent label
  others : ∀ l, l ≠ label → t.SameEntry u l

variable {r : Registry} {t u : SessionTable R} {label : String} {state : FutureState R}

theorem Agrees.settledBy_none (h : Agrees r t) (hnone : r.sessions label = none) :
    settledBy t label = [] := by
  rw [settledBy, h.table, hnone]
  rfl

theorem Agrees.settledBy_some (h : Agrees r t) {x : Registration} (hx : r.sessions label = some x) :
    settledBy t label = [x.future] := by
  rw [settledBy, h.table, hx, Option.map_some]
  simp only [h.live label x hx]

theorem Agrees.mem_settledBy (h : Agrees r t) {id : Nat} :
    id ∈ settledBy t label ↔ ∃ x, r.sessions label = some x ∧ x.future = id := by
  rcases hx : r.sessions label with _ | x
  · simp [h.settledBy_none hx]
  · simp [h.settledBy_some hx, eq_comm]

/-- Without a session, nothing is left to do. -/
theorem Agrees.absent (h : Agrees r t) (hnone : r.sessions label = none) : t.Absent label := by
  refine ⟨by rw [h.table, hnone]; rfl, ?_⟩
  have hmeta := h.metas label
  rw [hnone, Option.map_none, Option.map_eq_none_iff] at hmeta
  exact hmeta

/-- The future of the label is completed, and both entries go. -/
theorem effect_store_forget (h : Agrees r t) {x : Registration} (hx : r.sessions label = some x)
    (state : FutureState R) : Effect label state t ((t.store x.future (.future state)).forget label) where
  length := by simp
  heap id := by
    have hlt : x.future < t.heap.length := t.allocated label x.future (by rw [h.table, hx]; rfl)
    rw [h.settledBy_some hx, forget_heap, store_heap, List.getElem?_set]
    by_cases hid : x.future = id
    · subst hid
      simp [hlt]
    · simp [hid, Ne.symm hid]
  absent := forget_absent _ label
  others l hl := (t.store x.future (.future state)).forget_sameEntry hl

theorem resolve_effect (h : Agrees r t) (data : R) :
    Effect label (.result data) t (t.resolve label data) := by
  rcases hx : r.sessions label with _ | x
  · rw [resolve_of_free (h.absent hx).1]
    exact ⟨rfl, fun id => by simp [h.settledBy_none hx], h.absent hx, fun l _ => .refl t l⟩
  · have hpending : t.Pending label x.future := ⟨by rw [h.table, hx]; rfl, h.live label x hx⟩
    rw [hpending.resolve_eq]
    exact effect_store_forget h hx _

theorem cancel_effect (h : Agrees r t) : Effect label .cancelled t (t.cancel label) := by
  rcases hx : r.sessions label with _ | x
  · have hcancel : t.cancel label = t.forget label := by
      rw [SessionTable.cancel, (h.absent hx).1]
    rw [hcancel]
    exact ⟨rfl, fun id => by simp [h.settledBy_none hx], forget_absent t label,
      fun l hl => t.forget_sameEntry hl⟩
  · have hcancel : t.cancel label = (t.store x.future (.future .cancelled)).forget label := by
      rw [SessionTable.cancel, h.table, hx, Option.map_some]
      simp only [h.live label x hx, Session.cancelled]
    rw [hcancel]
    exact effect_store_forget h hx _

/-- **A session ends** in the table as it does in the registry. -/
theorem Effect.agrees (he : Effect label state t u) (h : Agrees r t) : Agrees (r.drop label) u where
  length := he.length.trans h.length
  table l := by
    by_cases hl : l = label
    · subst hl
      simp [Registry.drop, he.absent.1]
    · simp [Registry.drop, hl, (he.others l hl).1, h.table l]
  metas l := by
    by_cases hl : l = label
    · subst hl
      simp [Registry.drop, he.absent.2]
    · simp [Registry.drop, hl, (he.others l hl).2, h.metas l]
  live l x hx := by
    by_cases hl : l = label
    · subst hl
      simp [Registry.drop] at hx
    · have hx' : r.sessions l = some x := by simpa [Registry.drop, hl] using hx
      rw [he.heap, if_neg, h.live l x hx']
      intro hmem
      obtain ⟨y, hy, hfuture⟩ := h.mem_settledBy.mp hmem
      exact hl (h.distinct l label x y hx' hy hfuture.symm)
  distinct l l' x x' hx hx' := by
    have hkept : ∀ {l x}, (r.drop label).sessions l = some x → r.sessions l = some x := by
      intro l x hx
      by_cases hl : l = label
      · subst hl
        simp [Registry.drop] at hx
      · simpa [Registry.drop, hl] using hx
    exact h.distinct l l' x x' (hkept hx) (hkept hx')

/-- A new future is nobody else's. -/
theorem registerSingle_agrees (h : Agrees r t) (label service method : String) :
    Agrees ((r.step (.register_single label service method : Call V)))
      (t.registerSingle label service method).1 where
  length := by simp [registerSingle, Registry.step, h.length]
  table l := by
    by_cases hl : l = label
    · subst hl
      simp [registerSingle, Registry.step, h.length]
    · simp [registerSingle, Registry.step, hl, Dict.get_set_of_ne, h.table l]
  metas l := by
    by_cases hl : l = label
    · subst hl
      simp [registerSingle, Registry.step]
    · simp [registerSingle, Registry.step, hl, Dict.get_set_of_ne, h.metas l]
  live l x hx := by
    by_cases hl : l = label
    · subst hl
      obtain rfl : (⟨r.next, service⟩ : Registration) = x := by simpa [Registry.step] using hx
      simp [registerSingle, h.length]
    · have hx' : r.sessions l = some x := by simpa [Registry.step, hl] using hx
      have hlive := h.live l x hx'
      have hlt : x.future < t.heap.length := (List.getElem?_eq_some_iff.mp hlive).1
      rw [registerSingle, List.getElem?_append_left hlt, hlive]
  distinct l l' x x' hx hx' heq := by
    have hbelow : ∀ {l x}, l ≠ label →
        ((r.step (.register_single label service method : Call V))).sessions l = some x →
          r.sessions l = some x ∧ x.future < r.next := by
      intro l x hl hx
      have hx' : r.sessions l = some x := by simpa [Registry.step, hl] using hx
      refine ⟨hx', ?_⟩
      rw [← h.length]
      exact (List.getElem?_eq_some_iff.mp (h.live l x hx')).1
    have hnew : ∀ {x}, ((r.step (.register_single label service method : Call V))).sessions label =
        some x → x.future = r.next := by
      intro x hx
      obtain rfl : (⟨r.next, service⟩ : Registration) = x := by simpa [Registry.step] using hx
      rfl
    by_cases hl : l = label
    · by_cases hl' : l' = label
      · exact hl.trans hl'.symm
      · have hlt := (hbelow hl' hx').2
        rw [← heq, hnew (hl ▸ hx)] at hlt
        exact absurd hlt (Nat.lt_irrefl _)
    · by_cases hl' : l' = label
      · have hlt := (hbelow hl hx).2
        rw [heq, hnew (hl' ▸ hx')] at hlt
        exact absurd hlt (Nat.lt_irrefl _)
      · exact h.distinct l l' x x' (hbelow hl hx).1 (hbelow hl' hx').1 heq

/-! ## §4 Completions -/

/-- The calls of `set_result` and `cancel` so far: one for every future that is done, and no other. -/
structure Accounted (ids : List Nat) (t : SessionTable R) : Prop where
  nodup : ids.Nodup
  done_iff : ∀ id, id ∈ ids ↔ ∃ s, t.heap[id]? = some (.future s) ∧ s ≠ .pending

/-- What is done stays as it is. -/
def Keeps (t u : SessionTable R) : Prop :=
  ∀ (id : Nat) (s : FutureState R), t.heap[id]? = some (.future s) → s ≠ .pending →
    u.heap[id]? = some (.future s)

variable {ids : List Nat}

theorem pending_of_mem_settledBy {id : Nat} (h : id ∈ settledBy t label) :
    t.heap[id]? = some (.future .pending) := by
  unfold settledBy at h
  rcases hget : t.table.get label with _ | i
  · simp [hget] at h
  · simp only [hget] at h
    split at h
    · rename_i hheap
      rw [List.mem_singleton.mp h]
      exact hheap
    · cases h

theorem nodup_settledBy (t : SessionTable R) (label : String) : (settledBy t label).Nodup := by
  unfold settledBy
  split
  · exact List.nodup_nil
  · split
    · exact List.nodup_singleton _
    · exact List.nodup_nil

theorem Effect.keeps (he : Effect label state t u) : Keeps t u := by
  intro id s hs hdone
  rw [he.heap, if_neg, hs]
  intro hmem
  rw [pending_of_mem_settledBy hmem] at hs
  exact hdone (Session.future.inj (Option.some.inj hs)).symm

/-- **A completion is a new one.** -/
theorem Effect.accounted (he : Effect label state t u) (hstate : state ≠ .pending)
    (h : Accounted ids t) : Accounted (ids ++ settledBy t label) u where
  nodup := by
    refine List.nodup_append.mpr ⟨h.nodup, nodup_settledBy t label, ?_⟩
    rintro id hid _ hnew rfl
    obtain ⟨s, hs, hdone⟩ := (h.done_iff id).mp hid
    rw [pending_of_mem_settledBy hnew] at hs
    exact hdone (Session.future.inj (Option.some.inj hs)).symm
  done_iff id := by
    rw [List.mem_append, h.done_iff, he.heap]
    by_cases hnew : id ∈ settledBy t label
    · rw [if_pos hnew]
      exact iff_of_true (Or.inr hnew) ⟨state, rfl, hstate⟩
    · rw [if_neg hnew]
      exact or_iff_left hnew

/-! ## §5 One label after the other -/

variable {labels : List String}

theorem agrees_cancelAll (h : Agrees r t) (labels : List String) :
    Agrees (labels.foldl Registry.drop r) (labels.foldl SessionTable.cancel t) := by
  induction labels generalizing r t with
  | nil => exact h
  | cons label rest ih => exact ih ((cancel_effect h).agrees h)

theorem accounted_cancelAll (h : Agrees r t) (hids : Accounted ids t) (labels : List String) :
    Accounted (ids ++ settledByAll t labels) (labels.foldl SessionTable.cancel t) := by
  induction labels generalizing r t ids with
  | nil =>
      rw [settledByAll, List.append_nil]
      exact hids
  | cons label rest ih =>
      rw [settledByAll, ← List.append_assoc]
      have he : Effect label .cancelled t (t.cancel label) := cancel_effect h
      exact ih (he.agrees h) (he.accounted nofun hids)

/-- What is completed is cancelled, and nothing else changes. -/
theorem heap_cancelAll (h : Agrees r t) (labels : List String) (id : Nat) :
    (labels.foldl SessionTable.cancel t).heap[id]? =
      if id ∈ settledByAll t labels then some (.future .cancelled) else t.heap[id]? := by
  induction labels generalizing r t with
  | nil => rfl
  | cons label rest ih =>
      have he : Effect label .cancelled t (t.cancel label) := cancel_effect h
      rw [List.foldl_cons, ih (he.agrees h), he.heap, settledByAll]
      by_cases hrest : id ∈ settledByAll (t.cancel label) rest
      · simp [hrest]
      · simp [hrest]

/-- **What is completed** for a list of labels: the futures of their sessions. -/
theorem mem_settledByAll (h : Agrees r t) (labels : List String) (id : Nat) :
    id ∈ settledByAll t labels ↔ ∃ label ∈ labels, ∃ x, r.sessions label = some x ∧ x.future = id := by
  induction labels generalizing r t with
  | nil => simp [settledByAll]
  | cons label rest ih =>
      have he : Effect label .cancelled t (t.cancel label) := cancel_effect h
      rw [settledByAll, List.mem_append, h.mem_settledBy, ih (he.agrees h)]
      constructor
      · rintro (hfirst | ⟨l, hl, x, hx, hid⟩)
        · exact ⟨label, List.mem_cons_self, hfirst⟩
        · refine ⟨l, List.mem_cons_of_mem _ hl, x, ?_, hid⟩
          by_cases hsame : l = label
          · simp [Registry.drop, hsame] at hx
          · simpa [Registry.drop, hsame] using hx
      · rintro ⟨l, hl, x, hx, hid⟩
        by_cases hsame : l = label
        · exact Or.inl ⟨x, hsame ▸ hx, hid⟩
        · have hrest := (List.mem_cons.mp hl).resolve_left hsame
          exact Or.inr ⟨l, hrest, x, by simpa [Registry.drop, hsame] using hx, hid⟩

/-- Each of several labels with a session has one future. -/
theorem length_settledByAll (h : Agrees r t) (hnodup : labels.Nodup)
    (hall : ∀ label ∈ labels, ∃ x, r.sessions label = some x) :
    (settledByAll t labels).length = labels.length := by
  induction labels generalizing r t with
  | nil => rfl
  | cons label rest ih =>
      obtain ⟨hnew, hrest⟩ := List.nodup_cons.mp hnodup
      obtain ⟨x, hx⟩ := hall label List.mem_cons_self
      have hlater : ∀ l ∈ rest, ∃ x, (r.drop label).sessions l = some x := by
        intro l hl
        obtain ⟨y, hy⟩ := hall l (List.mem_cons_of_mem _ hl)
        have hne : l ≠ label := fun heq => hnew (heq ▸ hl)
        exact ⟨y, by simpa [Registry.drop, hne] using hy⟩
      rw [settledByAll, List.length_append, h.settledBy_some hx,
        ih ((cancel_effect h).agrees h) hrest hlater]
      exact Nat.add_comm 1 _

/-! ## §6 One call -/

theorem mem_targets_iff (h : Agrees r t) {service : String} :
    label ∈ t.targets service ↔ ∃ x, r.sessions label = some x ∧ x.service = service := by
  have hmeta := h.metas label
  rw [targets, Dict.mem_keys_iff, Dict.get_filter]
  rcases hm : t.metas.get label with _ | m
  · rw [hm, Option.map_none, eq_comm, Option.map_eq_none_iff] at hmeta
    simp [hmeta]
  · rw [hm, Option.map_some, eq_comm, Option.map_eq_some_iff] at hmeta
    obtain ⟨x, hx, hservice⟩ := hmeta
    simp [hx, hservice, Option.filter]

theorem nodup_targets (t : SessionTable R) (service : String) : (t.targets service).Nodup :=
  (t.metas.filter fun _ (m : SessionMeta) => m.service = service).nodup

/-- The registry without the sessions of a service. -/
theorem dropAll_targets (h : Agrees r t) (service : String) :
    (t.targets service).foldl Registry.drop r =
      r.step (.cancel_by_service service : Call V) := by
  have hsessions : ((t.targets service).foldl Registry.drop r).sessions =
      fun label => (r.sessions label).filter fun x => decide (x.service ≠ service) := by
    funext label
    rw [Registry.sessions_dropAll]
    rcases hx : r.sessions label with _ | x
    · simp
    · by_cases hservice : x.service = service
      · rw [if_pos ((mem_targets_iff h).mpr ⟨x, hx, hservice⟩)]
        simp [hservice, Option.filter]
      · rw [if_neg]
        · simp [hservice, Option.filter]
        · intro hmem
          obtain ⟨y, hy, hys⟩ := (mem_targets_iff h).mp hmem
          obtain rfl : x = y := Option.some.inj (hx.symm.trans hy)
          exact hservice hys
  rw [Registry.step, ← hsessions, ← Registry.next_dropAll r (t.targets service)]

section Calls
variable {t : SessionTable (Answer V)}

theorem agrees_apply (h : Agrees r t) (call : Call V) : Agrees (r.step call) (apply t call) := by
  cases call with
  | register_single label service method => exact registerSingle_agrees h label service method
  | resolve label data => exact (resolve_effect h _).agrees h
  | resolveError label message => exact (resolve_effect h _).agrees h
  | cancel label => exact (cancel_effect h).agrees h
  | cancel_by_service service_name =>
      rw [← dropAll_targets h service_name]
      exact agrees_cancelAll h _

theorem accounted_registerSingle {t : SessionTable R} (h : Accounted ids t)
    (label service method : String) : Accounted ids (t.registerSingle label service method).1 where
  nodup := h.nodup
  done_iff id := by
    rw [h.done_iff, registerSingle, List.getElem?_append]
    split
    · exact Iff.rfl
    · rename_i hge
      rw [List.getElem?_eq_none (Nat.not_lt.mp hge)]
      rcases Nat.eq_zero_or_pos (id - t.heap.length) with hzero | hpos
      · rw [hzero]
        simp
      · rw [List.getElem?_eq_none (by exact hpos)]

theorem accounted_apply (h : Agrees r t) (hids : Accounted ids t) (call : Call V) :
    Accounted (ids ++ settles t call) (apply t call) := by
  cases call with
  | register_single label service method =>
      rw [settles, List.append_nil]
      exact accounted_registerSingle hids label service method
  | resolve label data => exact (resolve_effect h _).accounted nofun hids
  | resolveError label message => exact (resolve_effect h _).accounted nofun hids
  | cancel label => exact (cancel_effect h).accounted nofun hids
  | cancel_by_service service_name => exact accounted_cancelAll h hids _

theorem keeps_apply (h : Agrees r t) (call : Call V) : Keeps t (apply t call) := by
  cases call with
  | register_single label service method =>
      intro id s hs _
      rw [apply, registerSingle, List.getElem?_append_left (List.getElem?_eq_some_iff.mp hs).1]
      exact hs
  | resolve label data => exact (resolve_effect h _).keeps
  | resolveError label message => exact (resolve_effect h _).keeps
  | cancel label => exact (cancel_effect h).keeps
  | cancel_by_service service_name =>
      intro id s hs hdone
      have hheap := heap_cancelAll h (t.targets service_name) id
      rw [if_neg] at hheap
      · exact hheap.trans hs
      · intro hmem
        obtain ⟨label, -, x, hx, rfl⟩ := (mem_settledByAll h _ _).mp hmem
        rw [h.live label x hx] at hs
        exact hdone (Session.future.inj (Option.some.inj hs)).symm

/-! ## §7 Every sequence of calls -/

theorem agrees_run (h : Agrees r t) (calls : List (Call V)) :
    Agrees (calls.foldl Registry.step r) (calls.foldl apply t) := by
  induction calls generalizing r t with
  | nil => exact h
  | cons call rest ih => exact ih (agrees_apply h call)

theorem accounted_run (h : Agrees r t) (hids : Accounted ids t) (calls : List (Call V)) :
    Accounted (ids ++ settlesIn t calls) (calls.foldl apply t) := by
  induction calls generalizing r t ids with
  | nil =>
      rw [settlesIn, List.append_nil]
      exact hids
  | cons call rest ih =>
      rw [settlesIn, ← List.append_assoc]
      exact ih (agrees_apply h call) (accounted_apply h hids call)

theorem keeps_run (h : Agrees r t) (calls : List (Call V)) : Keeps t (calls.foldl apply t) := by
  induction calls generalizing r t with
  | nil => exact fun _ _ hs _ => hs
  | cons call rest ih =>
      intro id s hs hdone
      exact ih (agrees_apply h call) id s (keeps_apply h call id s hs hdone) hdone

theorem agrees_init : Agrees Registry.init (SessionTable.init : SessionTable R) where
  length := rfl
  table _ := rfl
  metas _ := rfl
  live _ _ h := by cases h
  distinct _ _ _ _ h := by cases h

theorem accounted_init : Accounted [] (SessionTable.init : SessionTable R) where
  nodup := List.nodup_nil
  done_iff id := by simp [SessionTable.init]

end Calls

/-- What a table is after some calls. -/
structure Consistent (calls : List (Call V)) : Prop where
  /-- `_table` and `_meta` have the same labels, -/
  same_keys : ∀ label, label ∈ (after calls).table.keys ↔ label ∈ (after calls).metas.keys
  /-- which are those of the registry, each with its own future, -/
  registered : ∀ label, (after calls).table.get label =
    ((registry calls).sessions label).map Registration.future
  /-- and that is not done. -/
  pending : ∀ label id, (after calls).table.get label = some id →
    (after calls).future id = some .pending
  /-- No future has been completed twice, -/
  once : (settlesIn SessionTable.init calls).Nodup
  /-- those that have been completed are the ones that are done, -/
  done_iff : ∀ id, id ∈ settlesIn SessionTable.init calls ↔
    ∃ s, (after calls).future id = some s ∧ s ≠ .pending
  /-- and they stay as they are. -/
  stays : ∀ more id s, (after calls).future id = some s → s ≠ .pending →
    (after (calls ++ more)).future id = some s

/-- What `cancel_by_service` does next. -/
structure CancelsExactly (calls : List (Call V)) (service : String) : Prop where
  /-- It completes the futures of the sessions that are registered for the service, -/
  mem_iff : ∀ id, id ∈ settles (after calls) (.cancel_by_service service) ↔
    ∃ label, (registry calls).sessions label = some ⟨id, service⟩
  /-- as cancelled ones, and changes no other; -/
  future : ∀ id, (after (calls ++ [.cancel_by_service service])).future id =
    if id ∈ settles (after calls) (.cancel_by_service service) then some .cancelled
    else (after calls).future id
  /-- their number is what it returns. -/
  count : (cancel_by_service (after calls) service).2 =
    (settles (after calls) (.cancel_by_service service)).length

theorem future_eq_some_iff {t : SessionTable R} {id : Nat} {s : FutureState R} :
    t.future id = some s ↔ t.heap[id]? = some (.future s) := by
  unfold SessionTable.future
  split
  · rename_i s' hs
    rw [hs]
    simp
  · rename_i hnot
    exact iff_of_false nofun fun h => hnot s h

theorem future_cancelAll {t : SessionTable R} (h : Agrees r t) (labels : List String) (id : Nat) :
    (labels.foldl SessionTable.cancel t).future id =
      if id ∈ settledByAll t labels then some .cancelled else t.future id := by
  unfold SessionTable.future
  rw [heap_cancelAll h]
  split_ifs
  · rfl
  · rfl

/-- **Every sequence of calls leaves a consistent table**, and whatever the calls were before, a
`cancel_by_service` completes the sessions of its service and no others. -/
theorem session_table_consistent (calls : List (Call V)) :
    Consistent calls ∧ ∀ service, CancelsExactly calls service := by
  have h : Agrees (registry calls) (after calls) := agrees_run agrees_init calls
  have hids : Accounted (settlesIn SessionTable.init calls) (after calls) :=
    accounted_run agrees_init accounted_init calls
  refine ⟨⟨fun label => ?_, h.table, fun label id hid => ?_, hids.nodup, fun id => ?_,
    fun more id s hs hdone => ?_⟩, fun service => ⟨fun id => ?_, fun id => ?_, ?_⟩⟩
  · have hmeta := congrArg Option.isSome (h.metas label)
    have htable := congrArg Option.isSome (h.table label)
    rw [Option.isSome_map, Option.isSome_map] at hmeta
    rw [Option.isSome_map, ← hmeta] at htable
    rw [Dict.mem_keys_iff, Dict.mem_keys_iff, ← Option.isSome_iff_exists, ← Option.isSome_iff_exists,
      htable]
  · rw [h.table, Option.map_eq_some_iff] at hid
    obtain ⟨x, hx, rfl⟩ := hid
    exact future_eq_some_iff.mpr (h.live label x hx)
  · simp only [hids.done_iff, future_eq_some_iff]
  · rw [future_eq_some_iff] at hs ⊢
    rw [after, List.foldl_append]
    exact keeps_run h more id s hs hdone
  · rw [settles, mem_settledByAll h]
    constructor
    · rintro ⟨label, hmem, x, hx, rfl⟩
      obtain ⟨y, hy, rfl⟩ := (mem_targets_iff h).mp hmem
      obtain rfl : x = y := Option.some.inj (hx.symm.trans hy)
      exact ⟨label, hx⟩
    · rintro ⟨label, hx⟩
      exact ⟨label, (mem_targets_iff h).mpr ⟨_, hx, rfl⟩, _, hx, rfl⟩
  · have hlast : after (calls ++ [.cancel_by_service service]) =
        ((after calls).targets service).foldl SessionTable.cancel (after calls) := by
      rw [after, List.foldl_append]
      rfl
    rw [hlast, future_cancelAll h]
    rfl
  · rw [settles, length_settledByAll h (nodup_targets _ service)]
    · rfl
    · intro label hmem
      obtain ⟨x, hx, -⟩ := (mem_targets_iff h).mp hmem
      exact ⟨x, hx⟩

-- a label that is registered again, for another service: its first future is left alone
example : settles (after [.register_single "a" "files" "stat", .register_single "a" "chat" "send",
    .register_single "b" "files" "read", (.cancel "c" : Call Unit)]) (.cancel_by_service "files") =
      [2] := by decide +kernel

end NetPulse.Mesh.SessionConsistency
