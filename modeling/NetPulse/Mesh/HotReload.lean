import NetPulse.Lib.Machine
import Mathlib.Logic.Function.Basic

/-
# NetPulse.Mesh.HotReload — one service under hot reload (`loader.py`, `manager.py`, `context.py`)

A file event loads a version of the service and makes an instance of it. The first one is registered
as it is; for a later one a task is scheduled that stops the instance that was registered when the
event came, puts the new one in its place in the three registries, and starts it. The two awaits of
the task are where other events and other tasks come between.

`one_instance` says when at most one instance is started: if each task finds the instance that it
stops still registered. Two events before the first task is through capture one and the same
instance.
-/

namespace NetPulse.Mesh.HotReload

open NetPulse.Lib

/-! ## §1 The registries of a service -/

/-- What `get_rpc_methods` and `get_generators` find in a class. -/
structure Version where
  rpc : List String
  generators : List String

/-- Instances are numbered in the order in which they are made. -/
abbrev Instance := Nat

/-- A value of `services[name]`. -/
inductive Entry where
  | object (i : Instance)
  | generator (i : Instance)
  | method (i : Instance)
  deriving DecidableEq

/-- `services[name]` -/
abbrev Table := String → Option Entry

/-- `{}` -/
def noEntries : Table := fun _ => none

/-- One entry for each name of a list. -/
def setAll (key : String → String) (e : Entry) (names : List String) (table : Table) : Table :=
  names.foldl (fun t name => Function.update t (key name) (some e)) table

def genKey (name : String) : String := "__gen__" ++ name

def register_service (table : Table) (i : Instance) (v : Version) : Table :=
  setAll genKey (.generator i) v.generators (Function.update table "self" (some (.object i)))

/-- `register_service`, and `register_method` for each method. -/
def register (table : Table) (i : Instance) (v : Version) : Table :=
  setAll id (.method i) v.rpc (register_service table i v)

theorem setAll_get (key : String → String) (e : Entry) (names : List String) (table : Table)
    (k : String) :
    setAll key e names table k = if k ∈ names.map key then some e else table k := by
  induction names generalizing table with
  | nil => rfl
  | cons name rest ih =>
      show setAll key e rest (Function.update table (key name) (some e)) k = _
      rw [ih, List.map_cons]
      by_cases hrest : k ∈ rest.map key
      · rw [if_pos hrest, if_pos (List.mem_cons_of_mem _ hrest)]
      · by_cases hk : k = key name
        · rw [if_neg hrest, if_pos (hk ▸ List.mem_cons_self), hk, Function.update_self]
        · rw [if_neg hrest, Function.update_of_ne hk,
            if_neg fun h => (List.mem_cons.mp h).elim hk hrest]

theorem genKey_ne_self (name : String) : genKey name ≠ "self" := by
  intro h
  have hchars := congrArg String.toList h
  rw [genKey, String.toList_append] at hchars
  exact absurd (List.cons.inj hchars).1 (by decide)

theorem register_self (table : Table) (i : Instance) {v : Version} (h : "self" ∉ v.rpc) :
    register table i v "self" = some (.object i) := by
  have hgen : "self" ∉ v.generators.map genKey := by
    intro hmem
    obtain ⟨name, -, hname⟩ := List.mem_map.mp hmem
    exact genKey_ne_self name hname
  rw [register, setAll_get, List.map_id, if_neg h, register_service, setAll_get, if_neg hgen,
    Function.update_self]

/-- In a fresh table the methods are those of the instance. -/
theorem register_method {i j : Instance} {v : Version} {m : String} :
    register noEntries i v m = some (.method j) ↔ j = i ∧ m ∈ v.rpc := by
  rw [register, setAll_get, List.map_id, register_service, setAll_get]
  by_cases hm : m ∈ v.rpc
  · rw [if_pos hm, Option.some.injEq, Entry.method.injEq, eq_comm]
    exact (and_iff_left hm).symm
  · rw [if_neg hm]
    refine iff_of_false (fun h => ?_) fun h => hm h.2
    split at h
    · exact absurd (Option.some.inj h) Entry.noConfusion
    · by_cases hself : m = "self"
      · rw [hself, Function.update_self] at h
        exact absurd (Option.some.inj h) Entry.noConfusion
      · rw [Function.update_of_ne hself] at h
        exact absurd h.symm (Option.some_ne_none _)

/-! ## §2 File events, start-up and the tasks -/

/-- Where a task is. -/
inductive Stage where
  /-- Scheduled, or at `await old.stop()`. -/
  | stopping (old : Instance)
  /-- At `await new.start()`. -/
  | starting

/-- Where `ctx.startup` is; before it `ctx.loop` is `None`. -/
inductive Boot where
  | before
  | upTo (k : Nat)
  /-- At `await module.start()`. -/
  | during (k : Nat) (i : Instance)
  | over
  deriving DecidableEq

structure Reload where
  /-- The number of instances so far. -/
  next : Nat
  version : Instance → Version
  /-- `manager.services[name]` -/
  table : Table
  /-- The instances of the service in `ctx._modules`. -/
  modules : List Instance
  /-- Started and not stopped. -/
  live : Instance → Bool
  /-- The task that brings an instance in. -/
  swap : Instance → Option Stage
  boot : Boot

namespace Reload

/-- `_activate` -/
def activate (s : Reload) (i : Instance) : Reload :=
  { s with
    table := register s.table i (s.version i)
    modules := s.modules ++ [i] }

/-- `_swap_async` after `await old.stop()`, up to the next await; `stop` has raised if not `ok`. -/
def replace (s : Reload) (old new : Instance) (ok : Bool) : Reload :=
  { s with
    table := register noEntries new (s.version new)
    modules := s.modules.replace old new
    live := if ok then Function.update s.live old false else s.live
    swap := Function.update s.swap new (some .starting) }

inductive Event where
  /-- The scan or a file event: a version that loads. -/
  | load (v : Version)
  | startup
  /-- The next module of `startup`. -/
  | bootNext
  | bootStarted (ok : Bool)
  /-- `old.stop()` of the task of `new` has returned, or raised. -/
  | stopped (new : Instance) (ok : Bool)
  /-- `new.start()` has returned, or raised. -/
  | started (new : Instance) (ok : Bool)

/-- A new instance. -/
def make (s : Reload) (v : Version) : Reload :=
  { s with
    next := s.next + 1
    version := Function.update s.version s.next v }

def schedule (s : Reload) (old new : Instance) : Reload :=
  { s with swap := Function.update s.swap new (some (.stopping old)) }

/-- `_register_from_module` -/
def load (s : Reload) (v : Version) : Reload :=
  -- no @rpc methods found
  if v.rpc = [] then s
  else
    match s.table "self" with
    | none => (s.make v).activate s.next
    | some (.object old) =>
        if s.boot = .before then (s.make v).activate s.next else (s.make v).schedule old s.next
    -- A method has neither `stop` nor `name`: the task raises in its handler.
    | some _ => if s.boot = .before then (s.make v).activate s.next else s.make v

def step (s : Reload) : Event → Option Reload
  | .load v => some (s.load v)
  | .startup => if s.boot = .before then some { s with boot := .upTo 0 } else none
  | .bootNext =>
      match s.boot with
      | .upTo k =>
          some { s with boot := (s.modules[k]?).elim .over fun i => .during k i }
      | _ => none
  | .bootStarted ok =>
      match s.boot with
      | .during k i =>
          if ok then some { s with live := Function.update s.live i true, boot := .upTo (k + 1) }
          else some { s with boot := .over }
      | _ => none
  | .stopped new ok =>
      match s.swap new with
      | some (.stopping old) => some (s.replace old new ok)
      | _ => none
  | .started new ok =>
      match s.swap new with
      | some .starting =>
          some { s with
            live := if ok then Function.update s.live new true else s.live
            swap := Function.update s.swap new none }
      | _ => none

def machine : Machine Reload Event := ⟨step⟩

/-- Before the scan. -/
def empty : Reload :=
  ⟨0, fun _ => ⟨[], []⟩, noEntries, [], fun _ => false, fun _ => none, .before⟩

/-! ## §3 One instance -/

/-- What holds whenever no swap is in progress. -/
structure OneInstance (s : Reload) : Prop where
  atMostOne : ∀ i j, s.live i = true → s.live j = true → i = j
  /-- The one in the service manager and in `ctx._modules`. -/
  registered : ∀ i, s.live i = true → s.table "self" = some (.object i) ∧ s.modules = [i]
  methods : ∀ m j, s.table m = some (.method j) ↔
    s.table "self" = some (.object j) ∧ m ∈ (s.version j).rpc

def Coherent (s : Reload) : Prop := (∀ i, s.swap i = none) → s.OneInstance

/-- A start of the instance is under way. -/
def Starting (s : Reload) (i : Instance) : Prop :=
  s.swap i = some .starting ∨ ∃ k, s.boot = .during k i

/-- No method is called `self`; before start-up the service is registered once; each task finds the
instance that it has stopped still registered, and nothing is starting it. -/
def Orderly (s : Reload) : Event → Prop
  | .load v => v.rpc = [] ∨ "self" ∉ v.rpc ∧ (s.boot = .before → s.table "self" = none)
  | .stopped new ok => ∀ old, s.swap new = some (.stopping old) →
      s.table "self" = some (.object old) ∧ ¬ s.Starting old ∧ (ok = true ∨ s.live old = false)
  | _ => True

/-- Nothing is registered, or one instance, in all registries. -/
def Settled (s : Reload) : Prop :=
  (s.table = noEntries ∧ s.modules = []) ∨
  ∃ i < s.next, s.table = register noEntries i (s.version i) ∧ s.modules = [i]

structure Kept (s : Reload) : Prop where
  settled : s.Settled
  made : ∀ i, s.swap i ≠ none → i < s.next
  named : ∀ i, "self" ∉ (s.version i).rpc
  live : ∀ i, s.live i = true → s.table "self" = some (.object i)
  starting : ∀ i, s.Starting i → s.table "self" = some (.object i)

/-- What is registered is in all registries. -/
theorem Kept.serves {s : Reload} (h : Kept s) {i : Instance}
    (hi : s.table "self" = some (.object i)) :
    i < s.next ∧ s.table = register noEntries i (s.version i) ∧ s.modules = [i] := by
  rcases h.settled with ⟨hnone, -⟩ | ⟨r, hr, htable, hmodules⟩
  · rw [hnone] at hi
    exact absurd hi.symm (Option.some_ne_none _)
  · have hself := register_self noEntries r (h.named r)
    rw [htable, hself] at hi
    have hri : r = i := Entry.object.inj (Option.some.inj hi)
    exact hri ▸ ⟨hr, htable, hmodules⟩

theorem Kept.coherent {s : Reload} (h : Kept s) : s.Coherent := by
  intro _
  refine ⟨fun i j hi hj => ?_, fun i hi => ?_, fun m j => ?_⟩
  · exact Entry.object.inj (Option.some.inj ((h.live i hi).symm.trans (h.live j hj)))
  · exact ⟨h.live i hi, (h.serves (h.live i hi)).2.2⟩
  · rcases h.settled with ⟨hnone, -⟩ | ⟨r, -, htable, -⟩
    · rw [hnone]
      exact iff_of_false (Option.some_ne_none _).symm fun hj => Option.some_ne_none _ hj.1.symm
    · rw [htable, register_method, register_self noEntries r (h.named r), Option.some.injEq,
        Entry.object.injEq]
      constructor
      · rintro ⟨rfl, hm⟩
        exact ⟨rfl, hm⟩
      · rintro ⟨rfl, hm⟩
        exact ⟨rfl, hm⟩

/-! ## §4 Steps -/

/-- The registries without the instances that are not registered. -/
theorem Kept.make {s : Reload} (h : Kept s) {v : Version} (hv : "self" ∉ v.rpc) :
    Kept (s.make v) := by
  refine ⟨?_, fun i hi => Nat.lt_succ_of_lt (h.made i hi), fun i => ?_, h.live, h.starting⟩
  · refine h.settled.imp id ?_
    rintro ⟨r, hr, htable, hmodules⟩
    refine ⟨r, Nat.lt_succ_of_lt hr, ?_, hmodules⟩
    show s.table = register noEntries r (Function.update s.version s.next v r)
    rw [Function.update_of_ne (Nat.ne_of_lt hr)]
    exact htable
  · show "self" ∉ (Function.update s.version s.next v i).rpc
    by_cases hi : i = s.next
    · rw [hi, Function.update_self]
      exact hv
    · rw [Function.update_of_ne hi]
      exact h.named i

/-- The first registration. -/
theorem Kept.activate {s : Reload} (h : Kept s) {v : Version} (hv : "self" ∉ v.rpc)
    (hnone : s.table "self" = none) : Kept ((s.make v).activate s.next) := by
  have hempty : s.table = noEntries ∧ s.modules = [] := by
    rcases h.settled with hidle | ⟨r, -, htable, -⟩
    · exact hidle
    · rw [htable, register_self noEntries r (h.named r)] at hnone
      exact absurd hnone (Option.some_ne_none _)
  have hnobody : ∀ {i : Instance}, s.table "self" ≠ some (.object i) := by
    intro i hi
    rw [hnone] at hi
    exact Option.some_ne_none _ hi.symm
  refine ⟨Or.inr ⟨s.next, Nat.lt_succ_self _, ?_, ?_⟩, (h.make hv).made, (h.make hv).named, ?_, ?_⟩
  · show register s.table s.next _ = register noEntries s.next _
    rw [hempty.1]
    rfl
  · show s.modules ++ [s.next] = [s.next]
    rw [hempty.2]
    rfl
  · intro i hi
    exact absurd (h.live i hi) hnobody
  · intro i hi
    exact absurd (h.starting i hi) hnobody

/-- A task more does not count until it starts the instance. -/
theorem Kept.schedule {s : Reload} (h : Kept s) (old : Instance) {new : Instance}
    (hnew : new < s.next) : Kept (s.schedule old new) := by
  refine ⟨h.settled, fun i hi => ?_, h.named, h.live,
    fun i hi => h.starting i (hi.imp (fun hs => ?_) id)⟩
  · have hi' : Function.update s.swap new (some (.stopping old)) i ≠ none := hi
    by_cases hin : i = new
    · exact hin ▸ hnew
    · rw [Function.update_of_ne hin] at hi'
      exact h.made i hi'
  · have hs' : Function.update s.swap new (some (.stopping old)) i = some .starting := hs
    by_cases hin : i = new
    · rw [hin, Function.update_self] at hs'
      exact absurd (Option.some.inj hs') Stage.noConfusion
    · rwa [Function.update_of_ne hin] at hs'

theorem Kept.load {s : Reload} (h : Kept s) {v : Version} (hok : s.Orderly (.load v)) :
    Kept (s.load v) := by
  unfold Reload.load
  split
  · exact h
  · rename_i hrpc
    obtain ⟨hv, hboot⟩ := hok.resolve_left hrpc
    split
    · exact h.activate hv ‹_›
    · rename_i old hold
      -- an instance is registered, so that start-up has begun
      rw [if_neg fun hbefore => Option.some_ne_none _ (hold.symm.trans (hboot hbefore))]
      exact (h.make hv).schedule old (Nat.lt_succ_self _)
    · rename_i _ hsome
      rw [if_neg fun hbefore => Option.some_ne_none _ (hsome.symm.trans (hboot hbefore))]
      exact h.make hv

/-- The instance that was registered gives its place to the new one. -/
theorem Kept.replace {s : Reload} (h : Kept s) {old new : Instance} {ok : Bool}
    (hnew : new < s.next) (hold : s.table "self" = some (.object old)) (hstart : ¬ s.Starting old)
    (hstop : ok = true ∨ s.live old = false) : Kept (s.replace old new ok) := by
  have honly : ∀ {i : Instance}, s.table "self" = some (.object i) → i = old := fun hi =>
    Entry.object.inj (Option.some.inj (hi.symm.trans hold))
  have hself : (s.replace old new ok).table "self" = some (.object new) :=
    register_self noEntries new (h.named new)
  refine ⟨Or.inr ⟨new, hnew, rfl, ?_⟩, fun i hi => ?_, h.named, fun i hi => ?_, fun i hi => ?_⟩
  · show s.modules.replace old new = [new]
    rw [(h.serves hold).2.2, List.replace_cons_self]
  · have hi' : Function.update s.swap new (some .starting) i ≠ none := hi
    by_cases hin : i = new
    · exact hin ▸ hnew
    · rw [Function.update_of_ne hin] at hi'
      exact h.made i hi'
  · have hlive : (if ok then Function.update s.live old false else s.live) i = true := hi
    -- No instance is left that is started.
    exfalso
    by_cases hio : i = old
    · rcases hstop with hok | hstop
      · rw [if_pos hok, hio, Function.update_self] at hlive
        exact absurd hlive Bool.false_ne_true
      · rw [hio] at hlive
        split at hlive
        · rw [Function.update_self] at hlive
          exact absurd hlive Bool.false_ne_true
        · exact absurd (hstop.symm.trans hlive) Bool.false_ne_true
    · refine hio (honly (h.live i ?_))
      split at hlive
      · rwa [Function.update_of_ne hio] at hlive
      · exact hlive
  · rw [hself]
    by_cases hin : i = new
    · rw [hin]
    · exfalso
      refine hstart ?_
      have hi' : s.Starting i := hi.imp (fun hswap => by
        have hswap' : Function.update s.swap new (some .starting) i = some .starting := hswap
        rwa [Function.update_of_ne hin] at hswap') id
      exact honly (h.starting i hi') ▸ hi'

theorem Kept.bootStarted {s : Reload} (h : Kept s) {k : Nat} {i : Instance}
    (hboot : s.boot = .during k i) :
    Kept { s with live := Function.update s.live i true, boot := .upTo (k + 1) } := by
  refine ⟨h.settled, h.made, h.named, fun j hj => ?_, fun j hj => h.starting j (hj.imp id ?_)⟩
  · have hj' : Function.update s.live i true j = true := hj
    by_cases hji : j = i
    · exact hji ▸ h.starting i (Or.inr ⟨k, hboot⟩)
    · rw [Function.update_of_ne hji] at hj'
      exact h.live j hj'
  · rintro ⟨k', hk'⟩
    exact absurd hk' Boot.noConfusion

theorem Kept.started {s : Reload} (h : Kept s) {new : Instance} (ok : Bool)
    (hswap : s.swap new = some .starting) :
    Kept { s with
      live := if ok then Function.update s.live new true else s.live
      swap := Function.update s.swap new none } := by
  have hupdate : ∀ {i : Instance} {stage : Option Stage},
      Function.update s.swap new none i = stage → stage ≠ none → s.swap i = stage := by
    intro i stage hi hstage
    by_cases hin : i = new
    · rw [hin, Function.update_self] at hi
      exact absurd hi.symm hstage
    · rwa [Function.update_of_ne hin] at hi
  refine ⟨h.settled, fun i hi => ?_, h.named, fun i hi => ?_, fun i hi => ?_⟩
  · refine h.made i ?_
    rw [hupdate rfl hi]
    exact hi
  · have hi' : (if ok then Function.update s.live new true else s.live) i = true := hi
    by_cases hin : i = new
    · exact hin ▸ h.starting new (Or.inl hswap)
    · refine h.live i ?_
      split at hi'
      · rwa [Function.update_of_ne hin] at hi'
      · exact hi'
  · exact h.starting i (hi.imp (fun hs => hupdate hs (Option.some_ne_none _)) id)

/-- A module that `startup` comes to is the one that is registered. -/
theorem Kept.bootNext {s : Reload} (h : Kept s) (k : Nat) :
    Kept { s with boot := (s.modules[k]?).elim .over fun i => .during k i } := by
  refine ⟨h.settled, h.made, h.named, h.live, fun i hi => ?_⟩
  rcases hi with hs | ⟨k', hk'⟩
  · exact h.starting i (Or.inl hs)
  · have hk'' : (s.modules[k]?).elim Boot.over (fun i => .during k i) = .during k' i := hk'
    rcases hget : s.modules[k]? with _ | j
    · rw [hget] at hk''
      exact absurd hk'' Boot.noConfusion
    · rw [hget] at hk''
      have hji : j = i := (Boot.during.inj hk'').2
      have hmem : i ∈ s.modules := hji ▸ List.mem_of_getElem? hget
      rcases h.settled with ⟨-, hmodules⟩ | ⟨r, -, htable, hmodules⟩
      · rw [hmodules] at hmem
        exact absurd hmem List.not_mem_nil
      · rw [hmodules] at hmem
        rw [List.mem_singleton.mp hmem]
        show s.table "self" = some (.object r)
        rw [htable]
        exact register_self noEntries r (h.named r)

theorem Kept.boot {s : Reload} (h : Kept s) {b : Boot} (hb : ∀ k i, b ≠ .during k i) :
    Kept { s with boot := b } := by
  refine ⟨h.settled, h.made, h.named, h.live, fun i hi => h.starting i (hi.imp id ?_)⟩
  rintro ⟨k, hk⟩
  exact absurd hk (hb k i)

theorem step_kept (s : Reload) (e : Event) (s' : Reload) (h : Kept s) (hok : s.Orderly e)
    (hs : machine.step s e = some s') : Kept s' := by
  cases e with
  | load v =>
      cases hs
      exact h.load hok
  | startup =>
      have hs' : step s .startup = some s' := hs
      rw [step] at hs'
      obtain ⟨-, hs'⟩ := Option.ite_none_right_eq_some.mp hs'
      cases hs'
      exact h.boot fun _ _ => Boot.noConfusion
  | bootNext =>
      have hs' : step s .bootNext = some s' := hs
      unfold step at hs'
      dsimp only at hs'
      split at hs'
      · cases hs'
        exact h.bootNext _
      · exact absurd hs'.symm (Option.some_ne_none _)
  | bootStarted ok =>
      have hs' : step s (.bootStarted ok) = some s' := hs
      unfold step at hs'
      dsimp only at hs'
      split at hs'
      · split at hs'
        · cases hs'
          exact h.bootStarted ‹_›
        · cases hs'
          exact h.boot fun _ _ => Boot.noConfusion
      · exact absurd hs'.symm (Option.some_ne_none _)
  | stopped new ok =>
      have hs' : step s (.stopped new ok) = some s' := hs
      unfold step at hs'
      dsimp only at hs'
      split at hs'
      · rename_i old hswap
        cases hs'
        obtain ⟨hold, hstart, hstop⟩ := hok old hswap
        refine h.replace (h.made new ?_) hold hstart hstop
        rw [hswap]
        exact Option.some_ne_none _
      · exact absurd hs'.symm (Option.some_ne_none _)
  | started new ok =>
      have hs' : step s (.started new ok) = some s' := hs
      unfold step at hs'
      dsimp only at hs'
      split at hs'
      · cases hs'
        exact h.started ok ‹_›
      · exact absurd hs'.symm (Option.some_ne_none _)

theorem empty_kept : Kept empty := by
  refine ⟨Or.inl ⟨rfl, rfl⟩, fun _ hi => absurd rfl hi, fun _ => List.not_mem_nil, fun _ hi => ?_,
    fun i hi => ?_⟩
  · exact absurd hi Bool.false_ne_true
  · rcases hi with hs | ⟨k, hk⟩
    · exact absurd hs.symm (Option.some_ne_none _)
    · exact absurd hk Boot.noConfusion

/-! ## §5 Runs -/

/-- **In every run of orderly steps**, whenever no swap is in progress, at most one instance is
started, it is the registered one, and the methods are its own. -/
theorem one_instance (es : List Event) (h : machine.Guarded Orderly empty es) :
    machine.Always Coherent empty es :=
  Machine.always_of_guarded (fun _ hs => Kept.coherent hs) step_kept empty_kept h

/-- A version with one method. -/
def sample (name : String) : Version := ⟨[name], []⟩

/-- A reload, and one more after it. -/
def reloads : List Event :=
  [.load (sample "a"), .startup, .bootNext, .bootStarted true, .bootNext,
    .load (sample "b"), .stopped 1 true, .started 1 true,
    .load (sample "c"), .stopped 2 true, .started 2 true]

theorem one_instance_reloads : machine.Always Coherent empty reloads := by
  have hself : ∀ name, name ≠ "self" → "self" ∉ (sample name).rpc := fun name hname hmem =>
    hname (List.mem_singleton.mp hmem).symm
  have hboot : ∀ {old : Instance} {s : Reload}, s.swap old = none → s.boot = .over →
      ¬ s.Starting old := by
    rintro old s hswap hover (hs | ⟨k, hk⟩)
    · exact Option.some_ne_none _ (hs.symm.trans hswap)
    · exact Boot.noConfusion (hover.symm.trans hk)
  refine one_instance reloads ?_
  refine Machine.guarded_cons rfl (Or.inr ⟨hself "a" (by decide), fun _ => rfl⟩) ?_
  refine Machine.guarded_cons rfl trivial (Machine.guarded_cons rfl trivial ?_)
  refine Machine.guarded_cons rfl trivial (Machine.guarded_cons rfl trivial ?_)
  refine Machine.guarded_cons rfl (Or.inr ⟨hself "b" (by decide), fun h => Boot.noConfusion h⟩) ?_
  refine Machine.guarded_cons rfl (fun old hold => ?_) (Machine.guarded_cons rfl trivial ?_)
  · cases hold
    exact ⟨rfl, hboot rfl rfl, Or.inl rfl⟩
  refine Machine.guarded_cons rfl (Or.inr ⟨hself "c" (by decide), fun h => Boot.noConfusion h⟩) ?_
  refine Machine.guarded_cons rfl (fun old hold => ?_) (Machine.guarded_cons rfl trivial trivial)
  cases hold
  exact ⟨rfl, hboot rfl rfl, Or.inl rfl⟩

/-- Two events for one save: both tasks have captured the first instance. -/
def savedTwice : List Event :=
  [.load (sample "a"), .startup, .bootNext, .bootStarted true, .bootNext,
    .load (sample "b"), .load (sample "b"),
    .stopped 1 true, .started 1 true, .stopped 2 true, .started 2 true]

/-- The second and the third instance both run. -/
theorem saved_twice : ¬ machine.Always Coherent empty savedTwice := by
  intro h
  obtain ⟨s, hrun⟩ : ∃ s, machine.run empty savedTwice = some s := ⟨_, rfl⟩
  have hlast := h.last hrun
  cases hrun
  have hidle : ∀ i : Instance, Function.update (Function.update (Function.update (Function.update
      (Function.update (Function.update (fun _ => none) 1 (some (Stage.stopping 0))) 2
        (some (.stopping 0))) 1 (some .starting)) 1 none) 2 (some .starting)) 2 none i = none := by
    intro i
    by_cases h2 : i = 2
    · rw [h2, Function.update_self]
    · by_cases h1 : i = 1
      · rw [h1]
        rfl
      · simp only [Function.update_of_ne h2, Function.update_of_ne h1]
  exact absurd ((hlast hidle).atMostOne 1 2 rfl rfl) (by decide)

end Reload

end NetPulse.Mesh.HotReload
