import NetPulse.Lib.Dict

/-
# NetPulse.Mesh.Sessions — pending exchanges (`networking/sessions.py`)

A `SessionTable` maps a label to the object that waits for the answer under it, a future or a queue.
The objects outlive their entries: a future that left the table is still awaited by its caller. They
live on a heap of their own, and the table holds their addresses. That an address in the table is an
address of the heap is a field of the structure, so a new future never has the address of an old one.
-/

namespace NetPulse.Mesh

open NetPulse.Lib

/-- The state of an `asyncio.Future` that holds a result of type `R`. -/
inductive FutureState (R : Type*) where
  | pending
  | result (r : R)
  | cancelled
  deriving DecidableEq

/-- What a table entry points to. In a queue, `none` is the sentinel. -/
inductive Session (R : Type*) where
  | future (state : FutureState R)
  | queue (items : List (Option R))
  deriving DecidableEq

/-- What `cancel` does to the object it removes: a pending future is cancelled, a queue is drained
and left with the sentinel. -/
def Session.cancelled {R : Type*} : Session R → Session R
  | .future .pending => .future .cancelled
  | .future s => .future s
  | .queue _ => .queue [none]

structure SessionMeta where
  service : String
  method : String
  deriving DecidableEq

structure SessionTable (R : Type*) where
  heap : List (Session R)
  table : Dict String Nat
  metas : Dict String SessionMeta
  allocated : ∀ label id, table.get label = some id → id < heap.length

namespace SessionTable

variable {R : Type*}

/-! ## §1 Operations -/

/-- `SessionTable()`. -/
def init : SessionTable R := ⟨[], Dict.empty, Dict.empty, by simp⟩

/-- The session object stored under a label. -/
def find (t : SessionTable R) (label : String) : Option (Session R) :=
  (t.table.get label).bind fun id => t.heap[id]?

/-- The state of the future at an address. -/
def future (t : SessionTable R) (id : Nat) : Option (FutureState R) :=
  match t.heap[id]? with
  | some (.future s) => some s
  | _ => none

/-- `register_single`: the table with a new pending future, and its address. -/
def registerSingle (t : SessionTable R) (label service method : String) : SessionTable R × Nat where
  fst :=
    { heap := t.heap ++ [.future .pending]
      table := t.table.set label t.heap.length
      metas := t.metas.set label ⟨service, method⟩
      allocated := by
        intro l id h
        rw [Dict.get_set] at h
        rw [List.length_append, List.length_singleton]
        split at h
        · cases h
          omega
        · have := t.allocated l id h
          omega }
  snd := t.heap.length

/-- Replace the object at an address. -/
def store (t : SessionTable R) (id : Nat) (s : Session R) : SessionTable R :=
  { t with heap := t.heap.set id s, allocated := by simpa using t.allocated }

/-- Drop both entries of a label. -/
def forget (t : SessionTable R) (label : String) : SessionTable R :=
  { t with
    table := t.table.pop label
    metas := t.metas.pop label
    allocated := by
      intro l id h
      rw [Dict.get_pop] at h
      split at h
      · cases h
      · exact t.allocated l id h }

def resolve (t : SessionTable R) (label : String) (data : R) : SessionTable R :=
  match t.table.get label with
  | none => t
  | some id =>
      match t.heap[id]? with
      | some (.future .pending) => (t.store id (.future (.result data))).forget label
      | some (.queue items) => t.store id (.queue (items ++ [some data]))
      | _ => t

def cancel (t : SessionTable R) (label : String) : SessionTable R :=
  match t.table.get label with
  | none => t.forget label
  | some id =>
      match t.heap[id]? with
      | some s => (t.store id s.cancelled).forget label
      | none => t.forget label

/-- The labels whose session belongs to the service. -/
def targets (t : SessionTable R) (service : String) : List String :=
  (t.metas.filter fun _ m => m.service = service).keys

def cancelByService (t : SessionTable R) (service : String) : SessionTable R :=
  (t.targets service).foldl cancel t

/-! ## §2 The entries of a label -/

/-- The label has an entry in neither dictionary. -/
def Absent (t : SessionTable R) (label : String) : Prop :=
  t.table.get label = none ∧ t.metas.get label = none

instance (t : SessionTable R) (label : String) : Decidable (t.Absent label) :=
  inferInstanceAs (Decidable (_ ∧ _))

/-- Both dictionaries say the same of the label in `t` and in `u`. -/
def SameEntry (t u : SessionTable R) (label : String) : Prop :=
  u.table.get label = t.table.get label ∧ u.metas.get label = t.metas.get label

theorem SameEntry.refl (t : SessionTable R) (label : String) : t.SameEntry t label := ⟨rfl, rfl⟩

theorem SameEntry.trans {t u v : SessionTable R} {label : String} (h : t.SameEntry u label)
    (h' : u.SameEntry v label) : t.SameEntry v label :=
  ⟨h'.1.trans h.1, h'.2.trans h.2⟩

@[simp] theorem store_table (t : SessionTable R) (id : Nat) (s : Session R) :
    (t.store id s).table = t.table := rfl

@[simp] theorem store_metas (t : SessionTable R) (id : Nat) (s : Session R) :
    (t.store id s).metas = t.metas := rfl

@[simp] theorem store_heap (t : SessionTable R) (id : Nat) (s : Session R) :
    (t.store id s).heap = t.heap.set id s := rfl

@[simp] theorem forget_heap (t : SessionTable R) (label : String) :
    (t.forget label).heap = t.heap := rfl

theorem get_forget (t : SessionTable R) (label l : String) :
    (t.forget label).table.get l = if l = label then none else t.table.get l :=
  t.table.get_pop label l

theorem forget_absent (t : SessionTable R) (label : String) : (t.forget label).Absent label :=
  ⟨t.table.get_pop_self label, t.metas.get_pop_self label⟩

theorem forget_sameEntry (t : SessionTable R) {label l : String} (h : l ≠ label) :
    t.SameEntry (t.forget label) l :=
  ⟨t.table.get_pop_of_ne h, t.metas.get_pop_of_ne h⟩

theorem registerSingle_sameEntry (t : SessionTable R) {label l : String} (service method : String)
    (h : l ≠ label) : t.SameEntry (t.registerSingle label service method).1 l :=
  ⟨t.table.get_set_of_ne _ h, t.metas.get_set_of_ne _ h⟩

/-- `resolve` does nothing, feeds a queue, or completes the pending future of the label and drops
the entries. -/
theorem resolve_cases (t : SessionTable R) (label : String) (data : R) :
    t.resolve label data = t ∨
    (∃ id items, t.table.get label = some id ∧ t.heap[id]? = some (.queue items) ∧
      t.resolve label data = t.store id (.queue (items ++ [some data]))) ∨
    (∃ id, t.table.get label = some id ∧ t.heap[id]? = some (.future .pending) ∧
      t.resolve label data = (t.store id (.future (.result data))).forget label) := by
  unfold resolve
  cases hid : t.table.get label with
  | none => exact Or.inl rfl
  | some id =>
      cases hs : t.heap[id]? with
      | none => exact Or.inl (by simp [hs])
      | some s =>
          cases s with
          | queue items => exact Or.inr (Or.inl ⟨id, items, rfl, hs, by simp [hs]⟩)
          | future state =>
              cases state with
              | pending => exact Or.inr (Or.inr ⟨id, rfl, hs, by simp [hs]⟩)
              | result r => exact Or.inl (by simp [hs])
              | cancelled => exact Or.inl (by simp [hs])

theorem resolve_sameEntry (t : SessionTable R) {label l : String} (data : R) (h : l ≠ label) :
    t.SameEntry (t.resolve label data) l := by
  rcases t.resolve_cases label data with heq | ⟨id, items, _, _, heq⟩ | ⟨id, _, _, heq⟩
  · rw [heq]
    exact .refl t l
  · rw [heq]
    exact .refl t l
  · rw [heq]
    exact (t.store id _).forget_sameEntry h

/-- `cancel` drops the entries of the label; of the heap, it changes the object it removes. -/
theorem cancel_cases (t : SessionTable R) (label : String) :
    t.cancel label = t.forget label ∨
    ∃ id s, t.table.get label = some id ∧ t.heap[id]? = some s ∧
      t.cancel label = (t.store id s.cancelled).forget label := by
  unfold cancel
  cases hid : t.table.get label with
  | none => exact Or.inl rfl
  | some id =>
      cases hs : t.heap[id]? with
      | none => exact Or.inl (by simp [hs])
      | some s => exact Or.inr ⟨id, s, rfl, hs, by simp [hs]⟩

theorem cancel_absent (t : SessionTable R) (label : String) : (t.cancel label).Absent label := by
  rcases t.cancel_cases label with heq | ⟨id, s, _, _, heq⟩
  · rw [heq]
    exact t.forget_absent label
  · rw [heq]
    exact (t.store id _).forget_absent label

theorem cancel_sameEntry (t : SessionTable R) {label l : String} (h : l ≠ label) :
    t.SameEntry (t.cancel label) l := by
  rcases t.cancel_cases label with heq | ⟨id, s, _, _, heq⟩
  · rw [heq]
    exact t.forget_sameEntry h
  · rw [heq]
    exact (t.store id _).forget_sameEntry h

/-! ## §3 A label that one future answers -/

/-- The future at `id` is registered under the label, and pending. -/
def Pending (t : SessionTable R) (label : String) (id : Nat) : Prop :=
  t.table.get label = some id ∧ t.heap[id]? = some (.future .pending)

/-- The future at `id` has its result, and the label is free again. -/
def Answered (t : SessionTable R) (label : String) (id : Nat) : Prop :=
  t.table.get label = none ∧ ∃ r, t.heap[id]? = some (.future (.result r))

theorem Pending.future {t : SessionTable R} {label : String} {id : Nat} (h : t.Pending label id) :
    t.future id = some .pending := by
  simp [SessionTable.future, h.2]

theorem Answered.future {t : SessionTable R} {label : String} {id : Nat}
    (h : t.Answered label id) : ∃ r, t.future id = some (.result r) := by
  obtain ⟨r, hr⟩ := h.2
  exact ⟨r, by simp [SessionTable.future, hr]⟩

theorem pending_registerSingle (t : SessionTable R) (label service method : String) :
    (t.registerSingle label service method).1.Pending label
      (t.registerSingle label service method).2 :=
  ⟨t.table.get_set_self label _, by simp [registerSingle]⟩

theorem Pending.resolve_eq {t : SessionTable R} {label : String} {id : Nat}
    (h : t.Pending label id) (data : R) :
    t.resolve label data = (t.store id (.future (.result data))).forget label := by
  simp [SessionTable.resolve, h.1, h.2]

/-- The result is what the label was resolved with. -/
theorem Pending.result {t : SessionTable R} {label : String} {id : Nat} (h : t.Pending label id)
    (data : R) : (t.resolve label data).heap[id]? = some (.future (.result data)) := by
  have hlt := t.allocated label id h.1
  rw [h.resolve_eq]
  simp [hlt]

theorem Pending.resolve {t : SessionTable R} {label : String} {id : Nat} (h : t.Pending label id)
    (data : R) : (t.resolve label data).Answered label id := by
  refine ⟨?_, data, h.result data⟩
  rw [h.resolve_eq]
  exact (forget_absent _ label).1

/-- Of the heap, `resolve` changes the object of the label only. -/
theorem resolve_heap {t : SessionTable R} {label : String} {id id' : Nat} (data : R)
    (h : ∀ i, t.table.get label = some i → i = id) (hne : id' ≠ id) :
    (t.resolve label data).heap[id']? = t.heap[id']? := by
  rcases t.resolve_cases label data with heq | ⟨i, items, hget, _, heq⟩ | ⟨i, hget, _, heq⟩
  · rw [heq]
  · rw [heq, store_heap, h i hget, List.getElem?_set_ne hne.symm]
  · rw [heq, forget_heap, store_heap, h i hget, List.getElem?_set_ne hne.symm]

theorem resolve_of_free {t : SessionTable R} {label : String} (h : t.table.get label = none)
    (data : R) : t.resolve label data = t := by
  simp [SessionTable.resolve, h]

end SessionTable

end NetPulse.Mesh
