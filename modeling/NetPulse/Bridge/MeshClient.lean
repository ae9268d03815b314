import NetPulse.Lib.Machine
import Mathlib.Logic.Function.Basic

/-
# NetPulse.Bridge.MeshClient — calls of the bridge into the lattice (`mesh.py`)

`MeshClient.call` registers an event and a dict under a fresh label, sends the request and waits.
The receive thread fills the dict from a RESPONSE or an ERROR and sets the event; when the
connection ends, `_resolve_all` puts an error into every dict, sets every event and clears the table.
The caller that wakes up pops its dict from the table, with an empty one as the default.

Callers and receive thread meet in the table and in the dicts, so each access to them is a step of
its own below. `_lock` is held in the steps of `_resolve` and `_resolve_all`; the caller takes it
only to send.

`call_honest_iff` says when a call invents a result: exactly when its dict was cleared away before
the pop.
-/

namespace NetPulse.Bridge

open NetPulse.Lib

/-! ## §1 Data -/

/-- What `call` and `_on_pack` ask of a decoded value that is not `None`. -/
class Values (V : Type) where
  truthy : V → Bool
  str : V → String
  emptyDict : V

abbrev Label := String

/-- What the receive thread reads of a pack; a label that is no string is never in the table. -/
structure Pack (V : Type) where
  type : String
  label : Option Label
  data : Option V
  error : Option V

structure Request (V : Type) where
  type : String
  source : String
  dst : String
  service : String
  method : String
  data : V
  label : Label

/-- The arguments of `call`; `timeout` is the number as the message prints it. -/
structure Args (V : Type) where
  service : String
  method : String
  data : Option V
  dst : Option String
  timeout : String

structure Config where
  nodeId : String
  target : String

/-- The event and the dict of a call. -/
structure Cell (V : Type) where
  flag : Bool
  error : Option String
  result : Option (Option V)

def Cell.empty {V : Type} : Cell V := ⟨false, none, none⟩

/-- A key with its value, as `_resolve` gets them. -/
inductive Entry (V : Type) where
  | result (v : Option V)
  | error (text : String)

def Cell.store {V : Type} (c : Cell V) : Entry V → Cell V
  | .result v => { c with result := some v }
  | .error text => { c with error := some text }

inductive Outcome (V : Type) where
  | returned (v : Option V)
  | raised (text : String)

/-- The last lines of `call`, on a dict that nobody else has. -/
def Cell.outcome {V : Type} (c : Cell V) : Outcome V :=
  match c.error with
  | some text => .raised text
  | none => .returned (c.result.getD none)

/-- How far a call has come. -/
inductive Phase (V : Type) where
  | unused
  | checked (args : Args V)
  | registered (args : Args V)
  | waiting (args : Args V)
  | sendFailed (text : String)
  | dropping (text : String)
  | timedOut (args : Args V)
  | woken
  | popped
  | answered
  | done (out : Outcome V)

/-- Where the receive thread is. -/
inductive Recv (V : Type) where
  | offline
  | opened
  | receiving
  | found (l : Label) (entry : Entry V)
  | stored (l : Label)
  | leaving
  | disconnected
  | waking (keys visited : List Label)
  | marked (keys visited : List Label) (l : Label)

/-- `_lock` is held by the receive thread. -/
def Recv.locks {V : Type} : Recv V → Bool
  | .found _ _ | .stored _ | .waking _ _ | .marked _ _ _ => true
  | _ => false

/-- The client, with the packs it has received and the requests it has sent. -/
structure Client (V : Type) where
  connected : Bool
  ws : Bool
  pending : List Label
  cells : Label → Cell V
  calls : Label → Phase V
  recv : Recv V
  received : List (Pack V)
  sent : List (Request V)

def Client.init (V : Type) : Client V :=
  ⟨false, false, [], fun _ => .empty, fun _ => .unused, .offline, [], []⟩

/-! ## §2 The steps of a call -/

section Calls

variable {V : Type} [Values V]

def Client.setCall (s : Client V) (l : Label) (ph : Phase V) : Client V :=
  { s with calls := Function.update s.calls l ph }

def Client.setCell (s : Client V) (l : Label) (c : Cell V) : Client V :=
  { s with cells := Function.update s.cells l c }

/-- `self._pending.pop(label, …)` -/
def Client.pop (s : Client V) (l : Label) : Client V :=
  { s with pending := s.pending.filter (· ≠ l) }

/-- Is there a connection? -/
def Client.call (s : Client V) (l : Label) (args : Args V) : Client V :=
  if ¬ s.connected ∨ ¬ s.ws then
    s.setCall l (.done (.raised "нет связи с ядром решётки (мост отключён)"))
  else s.setCall l (.checked args)

/-- `self._pending[label] = (ev, {})` -/
def Client.register (s : Client V) (l : Label) (args : Args V) : Client V :=
  { (s.setCell l .empty).setCall l (.registered args) with pending := s.pending ++ [l] }

def request (cfg : Config) (l : Label) (args : Args V) : Request V where
  type := "request"
  source := cfg.nodeId
  dst := match args.dst with
    | some dst => if dst = "" then cfg.target else dst
    | none => cfg.target
  service := args.service
  method := args.method
  data := match args.data with
    | some v => if Values.truthy v then v else Values.emptyDict
    | none => Values.emptyDict
  label := l

def Client.send (cfg : Config) (s : Client V) (l : Label) (args : Args V) : Client V :=
  { s.setCall l (.waiting args) with sent := s.sent ++ [request cfg l args] }

def timeoutText (args : Args V) : String :=
  "таймаут RPC " ++ args.service ++ "." ++ args.method ++ " (" ++ args.timeout ++ " c)"

/-- `state = self._pending.pop(label, (None, {}))[1]`: with the default, nobody else can change the
dict, and the rest of the call is done at once. -/
def Client.popState (s : Client V) (l : Label) : Client V :=
  if l ∈ s.pending then (s.pop l).setCall l .popped
  else s.setCall l (.done (Cell.empty.outcome))

/-- `if "error" in state` -/
def Client.check (s : Client V) (l : Label) : Client V :=
  match (s.cells l).error with
  | some text => s.setCall l (.done (.raised text))
  | none => s.setCall l .answered

/-- `return state.get("result")` -/
def Client.finish (s : Client V) (l : Label) : Client V :=
  s.setCall l (.done (.returned ((s.cells l).result.getD none)))

/-! ## §3 The steps of the receive thread -/

def errorText : Option V → String
  | some v => if Values.truthy v then Values.str v else "ошибка RPC"
  | none => "ошибка RPC"

/-- `_resolve` takes the lock and looks for the label. -/
def Client.resolve (s : Client V) (label : Option Label) (entry : Entry V) : Client V :=
  match label with
  | some l => if l ∈ s.pending then { s with recv := .found l entry } else s
  | none => s

def Client.onPack (s : Client V) (p : Pack V) : Client V :=
  let s := { s with received := s.received ++ [p] }
  if p.type = "response" then s.resolve p.label (.result p.data)
  else if p.type = "error" then s.resolve p.label (.error (errorText p.error))
  else s

def brokenText : String := "соединение с решёткой разорвано"

/-! ## §4 The machine -/

inductive Event (V : Type) where
  | call (l : Label) (args : Args V)
  | register (l : Label)
  | send (l : Label)
  | sendFails (l : Label) (e : String)
  | popFailed (l : Label)
  | raiseFailed (l : Label)
  | expire (l : Label)
  | popExpired (l : Label)
  | wake (l : Label)
  | pop (l : Label)
  | check (l : Label)
  | finish (l : Label)
  | attach
  | connect
  | pack (p : Pack V)
  | store
  | set
  | disconnect
  | clearConnected
  | clearWs
  | mark (l : Label)
  | setMarked
  | clear
  | iterationFails

/-- One step. A loop over the table whose keys have changed meanwhile may miss some of them, or fail
with a `RuntimeError`. -/
def step (cfg : Config) (s : Client V) : Event V → Option (Client V)
  | .call l args =>
      match s.calls l with
      | .unused => some (s.call l args)
      | _ => none
  | .register l =>
      match s.calls l with
      | .checked args => some (s.register l args)
      | _ => none
  | .send l =>
      match s.calls l with
      | .registered args => if s.ws ∧ ¬ s.recv.locks then some (s.send cfg l args) else none
      | _ => none
  | .sendFails l e =>
      match s.calls l with
      | .registered _ => if s.recv.locks then none else some (s.setCall l (.sendFailed e))
      | _ => none
  | .popFailed l =>
      match s.calls l with
      | .sendFailed e => some ((s.pop l).setCall l (.dropping e))
      | _ => none
  | .raiseFailed l =>
      match s.calls l with
      | .dropping e => some (s.setCall l (.done (.raised ("отправка запроса: " ++ e))))
      | _ => none
  | .expire l =>
      match s.calls l with
      | .waiting args => some (s.setCall l (.timedOut args))
      | _ => none
  | .popExpired l =>
      match s.calls l with
      | .timedOut args => some ((s.pop l).setCall l (.done (.raised (timeoutText args))))
      | _ => none
  | .wake l =>
      match s.calls l with
      | .waiting _ => if (s.cells l).flag then some (s.setCall l .woken) else none
      | _ => none
  | .pop l =>
      match s.calls l with
      | .woken => some (s.popState l)
      | _ => none
  | .check l =>
      match s.calls l with
      | .popped => some (s.check l)
      | _ => none
  | .finish l =>
      match s.calls l with
      | .answered => some (s.finish l)
      | _ => none
  | .attach =>
      match s.recv with
      | .offline => some { s with ws := true, recv := .opened }
      | _ => none
  | .connect =>
      match s.recv with
      | .opened => some { s with connected := true, recv := .receiving }
      | _ => none
  | .pack p =>
      match s.recv with
      | .receiving => some (s.onPack p)
      | _ => none
  | .store =>
      match s.recv with
      | .found l entry => some { s.setCell l ((s.cells l).store entry) with recv := .stored l }
      | _ => none
  | .set =>
      match s.recv with
      | .stored l => some { s.setCell l { s.cells l with flag := true } with recv := .receiving }
      | _ => none
  | .disconnect =>
      match s.recv with
      | .receiving => some { s with recv := .leaving }
      | _ => none
  | .clearConnected =>
      match s.recv with
      | .leaving => some { s with connected := false, recv := .disconnected }
      | _ => none
  | .clearWs =>
      match s.recv with
      | .disconnected => some { s with ws := false, recv := .waking s.pending [] }
      | _ => none
  | .mark l =>
      match s.recv with
      | .waking keys visited =>
          if l ∈ s.pending ∧ l ∉ visited then
            some { s.setCell l ((s.cells l).store (.error brokenText)) with
              recv := .marked keys visited l }
          else none
      | _ => none
  | .setMarked =>
      match s.recv with
      | .marked keys visited l =>
          some { s.setCell l { s.cells l with flag := true } with
            recv := .waking keys (visited ++ [l]) }
      | _ => none
  | .clear =>
      match s.recv with
      | .waking keys visited =>
          if s.pending ≠ keys ∨ ∀ l ∈ s.pending, l ∈ visited then
            some { s with pending := [], recv := .offline }
          else none
      | _ => none
  | .iterationFails =>
      match s.recv with
      | .waking keys _ => if s.pending ≠ keys then some { s with recv := .offline } else none
      | _ => none

def client (cfg : Config) : Machine (Client V) (Event V) := ⟨step cfg⟩

end Calls

/-! ## §5 Honest results -/

section Honesty

variable {V : Type}

/-- A RESPONSE with this label and this data was received. -/
def Responded (s : Client V) (l : Label) (v : Option V) : Prop :=
  ∃ p ∈ s.received, p.type = "response" ∧ p.label = some l ∧ p.data = v

/-- A value is the data of a RESPONSE; anything else is a `MeshError`. -/
def Outcome.Right (s : Client V) (l : Label) : Outcome V → Prop
  | .returned v => Responded s l v
  | .raised _ => True

/-- No call has invented its result. -/
def Honest (s : Client V) : Prop := ∀ l out, s.calls l = .done out → out.Right s l

/-- The call that wakes up finds its dict in the table (or would return `None` rightly). -/
def PopFinds (s : Client V) : Event V → Prop
  | .pop l => l ∈ s.pending ∨ Responded s l none
  | _ => True

instance [DecidableEq V] (s : Client V) (l : Label) (v : Option V) : Decidable (Responded s l v) :=
  inferInstanceAs (Decidable (∃ p ∈ s.received, _))

instance [DecidableEq V] (s : Client V) : ∀ e, Decidable (PopFinds s e)
  | .pop l => inferInstanceAs (Decidable (l ∈ s.pending ∨ Responded s l none))
  | .call _ _ | .register _ | .send _ | .sendFails _ _ | .popFailed _ | .raiseFailed _ | .expire _
  | .popExpired _ | .wake _ | .check _ | .finish _ | .attach | .connect | .pack _ | .store | .set
  | .disconnect | .clearConnected | .clearWs | .mark _ | .setMarked | .clear | .iterationFails =>
      isTrue trivial

/-! ## §6 The invariant -/

/-- The call is in the table, or has been. -/
def Phase.started : Phase V → Bool
  | .unused | .checked _ => false
  | _ => true

/-- The call whose dict the receive thread has at hand. -/
def Recv.label : Recv V → Option Label
  | .found l _ | .stored l | .marked _ _ l => some l
  | _ => none

/-- The call whose dict it has just written into. -/
def Recv.written : Recv V → Option Label
  | .stored l | .marked _ _ l => some l
  | _ => none

def Cell.Filled (c : Cell V) : Prop := c.error.isSome ∨ c.result.isSome

/-- What holds of a call in its phase. -/
def PhaseOk (s : Client V) (l : Label) : Phase V → Prop
  | .woken | .popped => (s.cells l).flag = true
  | .answered => (s.cells l).result.isSome
  | .done out => out.Right s l
  | _ => True

structure Inv (s : Client V) : Prop where
  result : ∀ l v, (s.cells l).result = some v → Responded s l v
  flag : ∀ l, (s.cells l).flag = true → (s.cells l).Filled
  found : ∀ l v, s.recv = .found l (.result v) → Responded s l v
  written : ∀ l, s.recv.written = some l → (s.cells l).Filled
  pending : ∀ l ∈ s.pending, (s.calls l).started
  label : ∀ l, s.recv.label = some l → (s.calls l).started
  phase : ∀ l, PhaseOk s l (s.calls l)

theorem inv_init : Inv (Client.init V) where
  result := fun _ _ h => (by cases h)
  flag := fun _ h => (by cases h)
  found := fun _ _ h => (by cases h)
  written := fun _ h => (by cases h)
  pending := fun _ h => (by cases h)
  label := fun _ h => (by cases h)
  phase := fun _ => trivial

theorem Inv.honest {s : Client V} (h : Inv s) : Honest s := by
  intro l out hdone
  have hphase := h.phase l
  rw [hdone] at hphase
  exact hphase

theorem Responded.mono {s s' : Client V} (h : ∀ p ∈ s.received, p ∈ s'.received) {l : Label}
    {v : Option V} (hr : Responded s l v) : Responded s' l v := by
  obtain ⟨p, hp, hrest⟩ := hr
  exact ⟨p, h p hp, hrest⟩

theorem Outcome.Right.mono {s s' : Client V} (h : ∀ p ∈ s.received, p ∈ s'.received) {l : Label}
    {out : Outcome V} (hr : out.Right s l) : out.Right s' l := by
  cases out with
  | returned v => exact Responded.mono h hr
  | raised text => trivial

/-- A phase stays right while the dict only gains and packs only arrive. -/
theorem PhaseOk.mono {s s' : Client V} {l : Label} {ph : Phase V}
    (hrec : ∀ p ∈ s.received, p ∈ s'.received)
    (hflag : (s.cells l).flag = true → (s'.cells l).flag = true)
    (hres : (s.cells l).result.isSome → (s'.cells l).result.isSome)
    (h : PhaseOk s l ph) : PhaseOk s' l ph := by
  cases ph with
  | woken => exact hflag h
  | popped => exact hflag h
  | answered => exact hres h
  | done out => exact Outcome.Right.mono hrec h
  | _ => trivial

/-- Frame rule: the dicts and the calls are as before, packs have arrived, labels have gone from the
table, and the receive thread is somewhere it may be. -/
theorem Inv.frame {s s' : Client V} (h : Inv s) (hcells : s'.cells = s.cells)
    (hcalls : s'.calls = s.calls) (hrec : ∀ p ∈ s.received, p ∈ s'.received)
    (hpend : ∀ l ∈ s'.pending, l ∈ s.pending)
    (hfound : ∀ l v, s'.recv = .found l (.result v) → Responded s' l v)
    (hwritten : ∀ l, s'.recv.written = some l → (s.cells l).Filled)
    (hlabel : ∀ l, s'.recv.label = some l → (s.calls l).started) : Inv s' where
  result := fun l v hv => (h.result l v (by rwa [hcells] at hv)).mono hrec
  flag := by
    rw [hcells]
    exact h.flag
  found := hfound
  written := by
    rw [hcells]
    exact hwritten
  pending := by
    rw [hcalls]
    exact fun l hl => h.pending l (hpend l hl)
  label := by
    rw [hcalls]
    exact hlabel
  phase := by
    intro l
    rw [hcalls]
    exact (h.phase l).mono hrec (by rw [hcells]; exact id) (by rw [hcells]; exact id)

/-- The receive thread lets go of everything. -/
theorem Inv.letGo {s s' : Client V} (h : Inv s) (hcells : s'.cells = s.cells)
    (hcalls : s'.calls = s.calls) (hrec : ∀ p ∈ s.received, p ∈ s'.received)
    (hpend : ∀ l ∈ s'.pending, l ∈ s.pending) (hlabel : s'.recv.label = none) : Inv s' := by
  apply h.frame hcells hcalls hrec hpend
  · intro l v hr
    rw [hr] at hlabel
    cases hlabel
  · intro l hw
    cases hr : s'.recv <;> rw [hr] at hw hlabel <;> cases hw <;> cases hlabel
  · intro l hl
    rw [hlabel] at hl
    cases hl

/-- A call goes on. -/
theorem Inv.setCall {s : Client V} (h : Inv s) {l : Label} {ph : Phase V}
    (hstarted : (s.calls l).started → ph.started) (hph : PhaseOk s l ph) :
    Inv (s.setCall l ph) := by
  have hstill : ∀ k, (s.calls k).started → (Function.update s.calls l ph k).started :=
    (Function.forall_update_iff s.calls fun k c => (s.calls k).started → c.started).mpr
      ⟨hstarted, fun _ _ => id⟩
  exact
    { result := h.result
      flag := h.flag
      found := h.found
      written := h.written
      pending := fun k hk => hstill k (h.pending k hk)
      label := fun k hk => hstill k (h.label k hk)
      phase := (Function.forall_update_iff s.calls fun k c => PhaseOk s k c).mpr
        ⟨hph, fun k _ => h.phase k⟩ }

/-- A dict gains something, or the event is set on a dict that has something. -/
theorem Inv.setCell {s : Client V} (h : Inv s) {l : Label} {c : Cell V}
    (hres : ∀ v, c.result = some v → Responded s l v) (hfilled : c.Filled)
    (hflag : (s.cells l).flag = true → c.flag = true)
    (hkeep : (s.cells l).result.isSome → c.result.isSome) : Inv (s.setCell l c) := by
  -- what holds of each dict, and of the new one, holds of each dict afterwards
  have hcells : ∀ {P : Label → Cell V → Prop}, P l c → (∀ k, P k (s.cells k)) →
      ∀ k, P k ((s.setCell l c).cells k) := fun hc hall =>
    (Function.forall_update_iff s.cells _).mpr ⟨hc, fun k _ => hall k⟩
  have hrec : ∀ p ∈ s.received, p ∈ (s.setCell l c).received := fun _ => id
  exact
    { result := hcells (P := fun k c => ∀ v, c.result = some v → Responded s k v) hres h.result
      flag := hcells (P := fun _ c => c.flag = true → c.Filled) (fun _ => hfilled) h.flag
      found := h.found
      written := hcells (P := fun k c => s.recv.written = some k → c.Filled) (fun _ => hfilled)
        h.written
      pending := h.pending
      label := h.label
      phase := fun k => (h.phase k).mono hrec
        (hcells (P := fun k c => (s.cells k).flag = true → c.flag = true) hflag (fun _ => id) k)
        (hcells (P := fun k c => (s.cells k).result.isSome → c.result.isSome) hkeep
          (fun _ => id) k) }

theorem inv_pop {s : Client V} (h : Inv s) (l : Label) : Inv (s.pop l) :=
  h.frame rfl rfl (fun _ => id) (fun _ hk => (List.mem_filter.mp hk).1) h.found h.written h.label

theorem inv_register {s : Client V} {l : Label} {args : Args V} (h : Inv s)
    (hc : s.calls l = .checked args) : Inv (s.register l args) := by
  have hfresh : ¬ (s.calls l).started := by
    rw [hc]
    exact fun hf => (by cases hf)
  have hne : ∀ k, (s.calls k).started → k ≠ l := fun k hk hkl => hfresh (hkl ▸ hk)
  have hcell : ∀ k, k ≠ l → (s.register l args).cells k = s.cells k := fun k hkl =>
    Function.update_of_ne hkl _ _
  have hcall : ∀ k, k ≠ l → (s.register l args).calls k = s.calls k := fun k hkl =>
    Function.update_of_ne hkl _ _
  have hnewCell : (s.register l args).cells l = Cell.empty := Function.update_self _ _ _
  have hnewCall : (s.register l args).calls l = .registered args := Function.update_self _ _ _
  constructor
  · intro k v hv
    by_cases hkl : k = l
    · rw [hkl, hnewCell] at hv
      cases hv
    · rw [hcell k hkl] at hv
      exact h.result k v hv
  · intro k hk
    by_cases hkl : k = l
    · rw [hkl, hnewCell] at hk
      cases hk
    · rw [hcell k hkl] at hk ⊢
      exact h.flag k hk
  · exact h.found
  · -- nothing points to the dict of a call that is not in the table yet
    intro k hk
    have hlabel : s.recv.label = some k := by
      cases hr : s.recv <;> simp_all [Recv.written, Recv.label, Client.register, Client.setCall,
        Client.setCell]
    rw [hcell k (hne k (h.label k hlabel))]
    exact h.written k hk
  · intro k hk
    by_cases hkl : k = l
    · rw [hkl, hnewCall]
      rfl
    · rw [hcall k hkl]
      rcases List.mem_append.mp hk with hk | hk
      · exact h.pending k hk
      · exact absurd (List.mem_singleton.mp hk) hkl
  · intro k hk
    rw [hcall k (hne k (h.label k hk))]
    exact h.label k hk
  · intro k
    by_cases hkl : k = l
    · rw [hkl, hnewCall]
      trivial
    · rw [hcall k hkl]
      refine (PhaseOk.mono (fun _ => id) ?_ ?_ :
        PhaseOk s k (s.calls k) → PhaseOk (s.register l args) k (s.calls k)) (h.phase k)
      · rw [hcell k hkl]
        exact id
      · rw [hcell k hkl]
        exact id

theorem inv_popState {s : Client V} {l : Label} (h : Inv s) (hc : s.calls l = .woken)
    (hok : l ∈ s.pending ∨ Responded s l none) : Inv (s.popState l) := by
  unfold Client.popState
  split_ifs with hmem
  · have hflag := h.phase l
    rw [hc] at hflag
    exact (inv_pop h l).setCall (fun _ => rfl) hflag
  · exact h.setCall (fun _ => rfl) (hok.resolve_left hmem)

theorem inv_check {s : Client V} {l : Label} (h : Inv s) (hc : s.calls l = .popped) :
    Inv (s.check l) := by
  unfold Client.check
  split
  · exact h.setCall (fun _ => rfl) trivial
  · rename_i hnone
    have hflag := h.phase l
    rw [hc] at hflag
    refine h.setCall (fun _ => rfl) ?_
    show (s.cells l).result.isSome
    rcases h.flag l hflag with herr | hres
    · rw [hnone] at herr
      cases herr
    · exact hres

theorem inv_finish {s : Client V} {l : Label} (h : Inv s) (hc : s.calls l = .answered) :
    Inv (s.finish l) := by
  have hres := h.phase l
  rw [hc] at hres
  obtain ⟨v, hv⟩ := Option.isSome_iff_exists.mp hres
  refine h.setCall (fun _ => rfl) ?_
  show Responded s l ((s.cells l).result.getD none)
  rw [hv]
  exact h.result l v hv

theorem inv_resolve {s : Client V} {label : Option Label} {entry : Entry V} (h : Inv s)
    (hentry : ∀ l v, label = some l → entry = .result v → Responded s l v) :
    Inv (s.resolve label entry) := by
  unfold Client.resolve
  split
  · rename_i l
    split_ifs with hmem
    · refine h.frame rfl rfl (fun _ => id) (fun _ => id) ?_ ?_ ?_
      · intro k v hk
        cases hk
        exact hentry l v rfl rfl
      · intro k hk
        cases hk
      · intro k hk
        cases hk
        exact h.pending l hmem
    · exact h
  · exact h

/-- A dict that has just been written into. -/
theorem inv_write {s s' : Client V} {l : Label} {c : Cell V}
    (hcell : Inv (s.setCell l c)) (hfilled : c.Filled) (hstarted : (s.calls l).started)
    (hs : s' = { s.setCell l c with recv := s'.recv }) (hlabel : s'.recv.label = some l)
    (hfound : ∀ k v, s'.recv ≠ .found k (.result v)) : Inv s' := by
  have hself : (s.setCell l c).cells l = c := Function.update_self _ _ _
  rw [hs]
  refine hcell.frame rfl rfl (fun _ => id) (fun _ => id) ?_ ?_ ?_
  · exact fun k v hr => absurd hr (hfound k v)
  · intro k hk
    have hkl : k = l := by
      cases hr : s'.recv <;> simp_all [Recv.label, Recv.written]
    rw [hkl, hself]
    exact hfilled
  · intro k hk
    have hkl : k = l := Option.some.inj (hk.symm.trans hlabel)
    rw [hkl]
    exact hstarted

theorem inv_store {s : Client V} {l : Label} {entry : Entry V} (h : Inv s)
    (hres : ∀ v, entry = .result v → Responded s l v) :
    Inv (s.setCell l ((s.cells l).store entry)) ∧ ((s.cells l).store entry).Filled := by
  have hfilled : ((s.cells l).store entry).Filled := by
    cases entry with
    | result v => exact Or.inr rfl
    | error text => exact Or.inl rfl
  refine ⟨h.setCell ?_ hfilled ?_ ?_, hfilled⟩
  · intro v hv
    cases entry with
    | result v' =>
        cases hv
        exact hres v rfl
    | error text => exact h.result l v hv
  · intro hf
    cases entry with
    | result v => exact hf
    | error text => exact hf
  · intro hf
    cases entry with
    | result v => rfl
    | error text => exact hf

theorem inv_setFlag {s : Client V} {l : Label} (h : Inv s) (hw : s.recv.written = some l) :
    Inv (s.setCell l { s.cells l with flag := true }) :=
  h.setCell (h.result l) (h.written l hw) (fun _ => rfl) id

variable [Values V] {cfg : Config}

theorem inv_onPack {s : Client V} {p : Pack V} (h : Inv s) (hrecv : s.recv = .receiving) :
    Inv (s.onPack p) := by
  have harrived : Inv { s with received := s.received ++ [p] } := by
    refine h.letGo rfl rfl (fun q hq => List.mem_append_left _ hq) (fun _ => id) ?_
    show s.recv.label = none
    rw [hrecv]
    rfl
  unfold Client.onPack
  dsimp only
  split_ifs with hresp herr
  · apply inv_resolve harrived
    intro l v hl hv
    cases hv
    exact ⟨p, List.mem_append_right _ (List.mem_singleton_self p), hresp, hl, rfl⟩
  · apply inv_resolve harrived
    intro l v _ hv
    cases hv
  · exact harrived

/-- **Step lemma**: the invariant survives every step in which a pop finds its dict. -/
theorem inv_step {s s' : Client V} {e : Event V} (h : Inv s) (hok : PopFinds s e)
    (hs : step cfg s e = some s') : Inv s' := by
  cases e with
  | call l args =>
      simp only [step] at hs
      split at hs
      · rename_i hc
        cases hs
        unfold Client.call
        split_ifs
        · exact h.setCall (fun _ => rfl) trivial
        · refine h.setCall (fun hf => ?_) trivial
          rw [hc] at hf
          cases hf
      · cases hs
  | register l =>
      simp only [step] at hs
      split at hs
      · rename_i args hc
        cases hs
        exact inv_register h hc
      · cases hs
  | send l =>
      simp only [step] at hs
      split at hs
      · rename_i args hc
        split_ifs at hs
        cases hs
        have hcall : Inv (s.setCall l (.waiting args)) := h.setCall (fun _ => rfl) trivial
        exact hcall.frame rfl rfl (fun _ => id) (fun _ => id) hcall.found hcall.written hcall.label
      · cases hs
  | sendFails l e =>
      simp only [step] at hs
      split at hs
      · split_ifs at hs
        cases hs
        exact h.setCall (fun _ => rfl) trivial
      · cases hs
  | popFailed l =>
      simp only [step] at hs
      split at hs
      · cases hs
        exact (inv_pop h l).setCall (fun _ => rfl) trivial
      · cases hs
  | raiseFailed l =>
      simp only [step] at hs
      split at hs
      · cases hs
        exact h.setCall (fun _ => rfl) trivial
      · cases hs
  | expire l =>
      simp only [step] at hs
      split at hs
      · cases hs
        exact h.setCall (fun _ => rfl) trivial
      · cases hs
  | popExpired l =>
      simp only [step] at hs
      split at hs
      · cases hs
        exact (inv_pop h l).setCall (fun _ => rfl) trivial
      · cases hs
  | wake l =>
      simp only [step] at hs
      split at hs
      · split_ifs at hs with hflag
        cases hs
        exact h.setCall (fun _ => rfl) hflag
      · cases hs
  | pop l =>
      simp only [step] at hs
      split at hs
      · rename_i hc
        cases hs
        exact inv_popState h hc hok
      · cases hs
  | check l =>
      simp only [step] at hs
      split at hs
      · rename_i hc
        cases hs
        exact inv_check h hc
      · cases hs
  | finish l =>
      simp only [step] at hs
      split at hs
      · rename_i hc
        cases hs
        exact inv_finish h hc
      · cases hs
  | attach =>
      simp only [step] at hs
      split at hs
      · cases hs
        exact h.letGo rfl rfl (fun _ => id) (fun _ => id) rfl
      · cases hs
  | connect =>
      simp only [step] at hs
      split at hs
      · cases hs
        exact h.letGo rfl rfl (fun _ => id) (fun _ => id) rfl
      · cases hs
  | pack p =>
      simp only [step] at hs
      split at hs
      · rename_i hrecv
        cases hs
        exact inv_onPack h hrecv
      · cases hs
  | store =>
      simp only [step] at hs
      split at hs
      · rename_i l entry hr
        cases hs
        obtain ⟨hcell, hfilled⟩ := inv_store h fun v (hv : entry = .result v) =>
          h.found l v (hv ▸ hr)
        refine inv_write hcell hfilled (h.label l ?_) rfl rfl (fun k v hk => (by cases hk))
        rw [hr]
        rfl
      · cases hs
  | set =>
      simp only [step] at hs
      split at hs
      · rename_i l hr
        cases hs
        have hflag : Inv (s.setCell l { s.cells l with flag := true }) :=
          inv_setFlag h (by rw [hr]; rfl)
        exact hflag.letGo rfl rfl (fun _ => id) (fun _ => id) rfl
      · cases hs
  | disconnect =>
      simp only [step] at hs
      split at hs
      · cases hs
        exact h.letGo rfl rfl (fun _ => id) (fun _ => id) rfl
      · cases hs
  | clearConnected =>
      simp only [step] at hs
      split at hs
      · cases hs
        exact h.letGo rfl rfl (fun _ => id) (fun _ => id) rfl
      · cases hs
  | clearWs =>
      simp only [step] at hs
      split at hs
      · cases hs
        exact h.letGo rfl rfl (fun _ => id) (fun _ => id) rfl
      · cases hs
  | mark l =>
      simp only [step] at hs
      split at hs
      · split_ifs at hs with hmem
        cases hs
        obtain ⟨hcell, hfilled⟩ : Inv (s.setCell l ((s.cells l).store (.error brokenText))) ∧ _ :=
          inv_store h fun v hv => (by cases hv)
        exact inv_write hcell hfilled (h.pending l hmem.1) rfl rfl (fun k v hk => (by cases hk))
      · cases hs
  | setMarked =>
      simp only [step] at hs
      split at hs
      · rename_i keys visited l hr
        cases hs
        have hflag : Inv (s.setCell l { s.cells l with flag := true }) :=
          inv_setFlag h (by rw [hr]; rfl)
        exact hflag.letGo rfl rfl (fun _ => id) (fun _ => id) rfl
      · cases hs
  | clear =>
      simp only [step] at hs
      split at hs
      · split_ifs at hs
        cases hs
        exact h.letGo rfl rfl (fun _ => id) (fun _ hk => (by cases hk)) rfl
      · cases hs
  | iterationFails =>
      simp only [step] at hs
      split at hs
      · split_ifs at hs
        cases hs
        exact h.letGo rfl rfl (fun _ => id) (fun _ => id) rfl
      · cases hs

/-- A pop that misses invents a result. -/
theorem invents_of_not_popFinds {s s' : Client V} {e : Event V} (hok : ¬ PopFinds s e)
    (hs : step cfg s e = some s') : ¬ Honest s' := by
  cases e with
  | pop l =>
      have hmiss := not_or.mp hok
      simp only [step] at hs
      split at hs
      · cases hs
        intro hhonest
        unfold Client.popState at hhonest
        rw [if_neg hmiss.1] at hhonest
        exact hmiss.2 (hhonest l (.returned none) (Function.update_self _ _ _))
      · cases hs
  | _ => exact absurd trivial hok

/-- **No invented results**: in every state of a run, each finished call has raised a `MeshError` or
returned the data of a RESPONSE with its label, exactly when each caller that wakes up finds its
dict still in the table (or a RESPONSE without data makes the default right). -/
theorem call_honest_iff (cfg : Config) {es : List (Event V)} {t : Client V}
    (hr : (client cfg).run (Client.init V) es = some t) :
    (client cfg).Always Honest (Client.init V) es ↔
      (client cfg).Guarded PopFinds (Client.init V) es :=
  Machine.always_iff_guarded (fun _ => Inv.honest) (fun _ _ _ h hok hs => inv_step h hok hs)
    (fun _ _ _ _ hok hs => invents_of_not_popFinds hok hs) inv_init hr

end Honesty

/-! ## §7 Two runs -/

instance : Values String := ⟨fun v => v ≠ "", id, "{}"⟩

def exampleConfig : Config := ⟨"NetPulseHub", "Node0"⟩

def exampleArgs : Args String := ⟨"webpanel", "meta", none, none, "5"⟩

/-- A request and its answer. -/
def answeredRun : List (Event String) :=
  [.attach, .connect, .call "a" exampleArgs, .register "a", .send "a",
    .pack ⟨"response", some "a", some "42", none⟩, .store, .set, .wake "a", .pop "a", .check "a",
    .finish "a"]

/-- A request, and the connection ends before there is an answer. -/
def brokenRun : List (Event String) :=
  [.attach, .connect, .call "a" exampleArgs, .register "a", .send "a", .disconnect, .clearConnected,
    .clearWs, .mark "a", .setMarked, .clear, .wake "a", .pop "a"]

theorem call_honest_answered :
    (client exampleConfig).Always Honest (Client.init String) answeredRun := by
  have hrun : ((client exampleConfig).run (Client.init String) answeredRun).isSome := by
    decide +kernel
  obtain ⟨t, ht⟩ := Option.isSome_iff_exists.mp hrun
  refine (call_honest_iff exampleConfig ht).mpr ?_
  decide +kernel

/-- The caller whose connection has ended gets `None` for an answer, where nothing was received. -/
theorem call_invents_none :
    ∃ t, (client exampleConfig).run (Client.init String) brokenRun = some t ∧
      t.calls "a" = .done (.returned none) ∧ t.received = [] ∧ ¬ Honest t := by
  refine ⟨_, rfl, rfl, rfl, fun hhonest => ?_⟩
  obtain ⟨p, hp, _⟩ := hhonest "a" (.returned none) rfl
  cases hp

end NetPulse.Bridge
