import NetPulse.Lib.Machine
import NetPulse.Server.Settings

/-
# NetPulse.Server.ConfigWriters — the three writers of the configuration

`apply_settings` and `save_device` work under one lock: they copy the configuration, change the
copy, write it to the file, and install it. `ids_wl_add` takes no lock: it changes the configuration
in place and then writes a copy, and does not look whether that went well.

`updates_kept` says when no update is lost: if `ids_wl_add` is alone from its change to the end of
its write, and the write goes well. Otherwise a copy that was made before its change puts the old
list back, into the file and into memory.
-/

namespace NetPulse.Server.ConfigWriters

open NetPulse.Lib NetPulse.Lib.Json

variable {Num : Type}

/-! ## §1 Updates -/

/-- `service.cfg` -/
abbrev Config (Num : Type) := Dict String (Json Num)

/-- A device that `validate` has let through. -/
structure Device (Num : Type) where
  id : String
  entries : Entries Num
  id_entry : Dict.lookup "id" entries = some (.str id)

/-- The updates under the lock. -/
inductive Change (Num : Type) where
  | settings (updates : Entries Num)
  | device (device : Device Num)

/-- `process`, `ports` and `path`, as far as they are given. -/
abbrev Rule := List (String × String)

inductive Update (Num : Type) where
  | change (c : Change Num)
  | rule (r : Rule)

def Rule.json (r : Rule) : Json Num := .obj (r.map fun e => (e.1, .str e.2))

def isStr (s : String) : Json Num → Bool
  | .str t => t = s
  | _ => false

/-- `rule == item` -/
def Rule.same (r : Rule) : Json Num → Bool
  | .obj entries => entries.length = r.length &&
      r.all fun e => (Dict.lookup e.1 entries).any (isStr e.2)
  | _ => false

/-- What a `for` over the devices finds: an object or a text, if not empty, has items without an
id. -/
def devicesOf : Json Num → Option (List (Json Num))
  | .list items => some items
  | .obj [] => some []
  | .str s => if s = "" then some [] else none
  | _ => none

/-- `d['id']` -/
def idOf : Json Num → Option (Json Num)
  | .obj entries => Dict.lookup "id" entries
  | _ => none

/-- `[d for d in devices if d['id'] != device['id']]` -/
def withoutId (id : String) : List (Json Num) → Option (List (Json Num))
  | [] => some []
  | d :: rest => do
      let found ← idOf d
      let kept ← withoutId id rest
      pure (if isStr id found then kept else d :: kept)

/-- The section `mikrotik` with the device in it. -/
def addDevice (d : Device Num) : Json Num → Option (Json Num)
  | .obj section_ => do
      let devices ← devicesOf ((Dict.lookup "devices" section_).getD (.list []))
      let others ← withoutId d.id devices
      pure (.obj (Dict.assign "devices" (.list (others ++ [.obj d.entries]))
        (Dict.assign "enabled" (.bool true) section_)))
  | _ => none

def merge (cfg : Config Num) (updates : Entries Num) : Config Num :=
  ⟨deepMerge cfg.items updates, by
    rw [deepMerge_eq_writeOver]
    exact Dict.nodup_writeOver cfg.nodup⟩

section Writers

variable (valid : Config Num → Bool)

/-- What is done to the copy; `valid` says that `configured_devices` does not raise. -/
def Change.modify (cfg : Config Num) : Change Num → Option (Config Num)
  | settings updates => some (merge cfg updates)
  | device d => do
      let changed ← addDevice d ((cfg.get "mikrotik").getD (.obj []))
      let candidate := cfg.set "mikrotik" changed
      if valid candidate then some candidate else none

/-- How the copy gets into `service.cfg`. -/
def Change.install (cfg candidate : Config Num) : Change Num → Config Num
  | settings _ => ⟨update cfg.items candidate.items, by
      rw [update_eq_writeOver]
      exact Dict.nodup_writeOver cfg.nodup⟩
  | device _ => ((candidate.get "mikrotik").map (cfg.set "mikrotik")).getD cfg

/-- `ids_wl_add`, on the configuration itself. -/
def addRule (cfg : Config Num) (r : Rule) : Option (Config Num) :=
  match (cfg.get "ids").getD (.obj []) with
  | .obj ids =>
      match (Dict.lookup "whitelist" ids).getD (.list []) with
      | .list wl => some (cfg.set "ids" (.obj (Dict.assign "whitelist"
          (.list (if wl.any r.same then wl else wl ++ [r.json])) ids)))
      | _ => none
  | _ => none

/-- An update with nobody else around. -/
def Update.run (cfg : Config Num) : Update Num → Option (Config Num)
  | change c => (c.modify valid cfg).map fun candidate => c.install cfg candidate
  | rule r => addRule cfg r

/-- Updates one after another. -/
def runAll : List (Update Num) → Config Num → Option (Config Num)
  | [], cfg => some cfg
  | u :: rest, cfg => (Update.run valid cfg u).bind (runAll rest)

theorem runAll_concat {us : List (Update Num)} {u : Update Num} {cfg base next : Config Num}
    (h : runAll valid us cfg = some base) (hu : Update.run valid base u = some next) :
    runAll valid (us ++ [u]) cfg = some next := by
  induction us generalizing cfg with
  | nil =>
      cases h
      show (Update.run valid base u).bind _ = _
      rw [hu]
      rfl
  | cons u' rest ih =>
      obtain ⟨middle, hmiddle, hrest⟩ := Option.bind_eq_some_iff.mp h
      show (Update.run valid cfg u').bind _ = _
      rw [hmiddle]
      exact ih hrest

/-- **What is installed is the copy**, if the configuration is still what was copied. -/
theorem install_modify {c : Change Num} {cfg candidate : Config Num}
    (h : c.modify valid cfg = some candidate) : c.install cfg candidate = candidate := by
  rcases c with updates | d
  · cases h
    have hprefix : cfg.items.map Prod.fst <+: (deepMerge cfg.items updates).map Prod.fst := by
      rw [deepMerge_eq_writeOver]
      exact Dict.keys_prefix_writeOver _ _ _
    have hitems : update cfg.items (deepMerge cfg.items updates) = deepMerge cfg.items updates := by
      rw [update_eq_writeOver]
      exact Dict.writeOver_of_prefix (merge cfg updates).nodup hprefix
    exact Dict.eq_of_items hitems
  · obtain ⟨changed, -, hcandidate⟩ := Option.bind_eq_some_iff.mp h
    obtain ⟨-, hcandidate⟩ := Option.ite_none_right_eq_some.mp hcandidate
    cases hcandidate
    show ((Dict.get (Dict.set cfg "mikrotik" changed) "mikrotik").map _).getD cfg = _
    rw [Dict.get_set_self]
    rfl

/-! ## §2 Steps -/

abbrev Request := Nat

/-- How far a request is. -/
inductive Stage (Num : Type) where
  | idle
  | arrived (u : Update Num)
  /-- Under the lock, before the copy. -/
  | locked (c : Change Num)
  | copied (c : Change Num) (cfg : Config Num)
  | modified (c : Change Num) (candidate : Config Num)
  /-- Written, not yet installed. -/
  | saved (c : Change Num) (candidate : Config Num)
  /-- `ids_wl_add` has changed the configuration. -/
  | changed (r : Rule)
  /-- `save_config` of `ids_wl_add` has its copy. -/
  | taken (r : Rule) (cfg : Config Num)

structure Store (Num : Type) where
  /-- `service.cfg` -/
  memory : Config Num
  file : Config Num
  /-- `onboarding.LOCK` -/
  lock : Option Request
  stage : Request → Stage Num
  /-- The updates that have reported success, in this order. -/
  reported : List (Update Num)

namespace Store

def set (s : Store Num) (t : Request) (stage : Stage Num) : Store Num :=
  { s with stage := Function.update s.stage t stage }

/-- The end of the section under the lock, with an error. -/
def fail (s : Store Num) (t : Request) : Store Num := { s.set t .idle with lock := none }

def report (s : Store Num) (t : Request) (u : Update Num) : Store Num :=
  { s.set t .idle with reported := s.reported ++ [u] }

inductive Event (Num : Type) where
  | arrive (t : Request) (u : Update Num)
  | acquire (t : Request)
  /-- `ids_wl_add` puts its rule in. -/
  | change (t : Request)
  /-- `deepcopy` of the configuration; it raises when the configuration changes meanwhile. -/
  | copy (t : Request) (ok : Bool)
  | modify (t : Request)
  /-- `save_config` -/
  | write (t : Request) (ok : Bool)
  | install (t : Request)

def step (s : Store Num) : Event Num → Option (Store Num)
  | .arrive t u =>
      match s.stage t with
      | .idle => some (s.set t (.arrived u))
      | _ => none
  | .acquire t =>
      match s.stage t, s.lock with
      | .arrived (.change c), none => some { s.set t (.locked c) with lock := some t }
      | _, _ => none
  | .change t =>
      match s.stage t with
      | .arrived (.rule r) =>
          some ((addRule s.memory r).elim (s.set t .idle) fun cfg =>
            { s.set t (.changed r) with memory := cfg })
      | _ => none
  | .copy t ok =>
      match s.stage t with
      | .locked c => some (if ok then s.set t (.copied c s.memory) else s.fail t)
      | .changed r => some (if ok then s.set t (.taken r s.memory) else s.report t (.rule r))
      | _ => none
  | .modify t =>
      match s.stage t with
      | .copied c cfg =>
          some ((c.modify valid cfg).elim (s.fail t) fun candidate =>
            s.set t (.modified c candidate))
      | _ => none
  | .write t ok =>
      match s.stage t with
      | .modified c candidate =>
          some (if ok then { s.set t (.saved c candidate) with file := candidate } else s.fail t)
      -- The result of `save_config` is not looked at.
      | .taken r cfg =>
          some (if ok then { s.report t (.rule r) with file := cfg } else s.report t (.rule r))
      | _ => none
  | .install t =>
      match s.stage t with
      | .saved c candidate =>
          some { s.report t (.change c) with
            memory := c.install s.memory candidate
            lock := none }
      | _ => none

def machine : Machine (Store Num) (Event Num) := ⟨step valid⟩

/-- The file holds the configuration. -/
def start (cfg : Config Num) : Store Num := ⟨cfg, cfg, none, fun _ => .idle, []⟩

/-! ## §3 No lost update -/

/-- When all requests have finished, memory and file are what the reported updates make of the
first configuration, in some order. -/
def Reflected (cfg : Config Num) (s : Store Num) : Prop :=
  (∀ t, s.stage t = .idle) → ∃ order, order.Perm s.reported ∧
    runAll valid order cfg = some s.memory ∧ s.file = s.memory

/-- The request is in the middle of its work. -/
def Busy : Stage Num → Prop
  | .idle | .arrived _ => False
  | _ => True

/-- The stages of `ids_wl_add` between its change and its end. -/
def Open : Stage Num → Prop
  | .changed _ | .taken _ _ => True
  | _ => False

/-- The stages under the lock. -/
def Holds : Stage Num → Prop
  | .locked _ | .copied _ _ | .modified _ _ | .saved _ _ => True
  | _ => False

/-- `ids_wl_add` is alone, and its copy and its write go well. -/
def Alone (s : Store Num) : Event Num → Prop
  | .acquire _ => ∀ t, ¬ Open (s.stage t)
  | .change _ => ∀ t, ¬ Busy (s.stage t)
  | .copy t ok | .write t ok => Open (s.stage t) → ok = true
  | _ => True

/-- How memory and file stand to what the reported updates have made, at a stage of the one request
that is at work. -/
def Fits (s : Store Num) (base : Config Num) : Stage Num → Prop
  | .idle | .arrived _ | .locked _ => s.memory = base ∧ s.file = base
  | .copied _ cfg => s.memory = base ∧ s.file = base ∧ cfg = base
  | .modified c candidate => s.memory = base ∧ s.file = base ∧ c.modify valid base = some candidate
  | .saved c candidate =>
      s.memory = base ∧ s.file = candidate ∧ c.modify valid base = some candidate
  | .changed r => addRule base r = some s.memory
  | .taken r cfg => addRule base r = some s.memory ∧ cfg = s.memory

/-- One request at most is at work. -/
structure Focus (cfg : Config Num) (s : Store Num) (t : Request) (base : Config Num) : Prop where
  run : runAll valid s.reported cfg = some base
  others : ∀ t', t' ≠ t → ¬ Busy (s.stage t')
  locked : Holds (s.stage t) → s.lock = some t
  fits : s.Fits valid base (s.stage t)

def Kept (cfg : Config Num) (s : Store Num) : Prop := ∃ t base, s.Focus valid cfg t base

variable {valid} {cfg base : Config Num} {s : Store Num} {t t' : Request}

@[simp] theorem set_stage_self (s : Store Num) (t : Request) (stage : Stage Num) :
    (s.set t stage).stage t = stage := Function.update_self _ _ _

theorem set_stage_of_ne (s : Store Num) (stage : Stage Num) (h : t' ≠ t) :
    (s.set t stage).stage t' = s.stage t' := Function.update_of_ne h _ _

def Event.request : Event Num → Request
  | arrive t _ | acquire t | change t | copy t _ | modify t | write t _ | install t => t

/-- A step leaves the stages of the other requests. -/
theorem step_stage {e : Event Num} {s' : Store Num} (hs : step valid s e = some s')
    (hne : t ≠ e.request) : s'.stage t = s.stage t := by
  cases e <;> unfold step at hs <;> dsimp only at hs <;> split at hs <;>
    first | exact absurd hs.symm (Option.some_ne_none _) | skip
  all_goals
    rw [← Option.some.inj hs]
  · exact set_stage_of_ne s _ hne
  · exact set_stage_of_ne s _ hne
  · rcases addRule s.memory _ with _ | cfg
    · exact set_stage_of_ne s _ hne
    · exact set_stage_of_ne s _ hne
  · split <;> exact set_stage_of_ne s _ hne
  · split <;> exact set_stage_of_ne s _ hne
  · rcases Change.modify valid _ _ with _ | candidate
    · exact set_stage_of_ne s _ hne
    · exact set_stage_of_ne s _ hne
  · split <;> exact set_stage_of_ne s _ hne
  · split <;> exact set_stage_of_ne s _ hne
  · exact set_stage_of_ne s _ hne

theorem run_stage {es : List (Event Num)} {s' : Store Num}
    (hs : (machine valid).run s es = some s') (hne : ∀ e ∈ es, t ≠ e.request) :
    s'.stage t = s.stage t :=
  have hguard : (machine valid).Guarded (fun _ e => t ≠ Event.request e) s es :=
    Machine.guarded_of_mem (fun e he _ => hne e he) s
  Machine.frame_of_guarded (fun s => s.stage t)
    (fun _ _ _ hother hstep => step_stage hstep hother) hguard hs

/-- A request at work is the one that the invariant is about. -/
theorem Focus.eq (h : s.Focus valid cfg t base) (hbusy : Busy (s.stage t')) : t' = t := by
  by_contra hne
  exact h.others t' hne hbusy

theorem Focus.others_set (h : s.Focus valid cfg t base) (stage : Stage Num) (hne : t' ≠ t) :
    ¬ Busy ((s.set t stage).stage t') := by
  rw [set_stage_of_ne s stage hne]
  exact h.others t' hne

theorem Holds.busy {stage : Stage Num} (h : Holds stage) : Busy stage := by
  cases stage <;> first | exact h.elim | trivial

theorem Busy.holds_or_open {stage : Stage Num} (h : Busy stage) : Holds stage ∨ Open stage := by
  cases stage with
  | idle | arrived => exact h.elim
  | locked | copied | modified | saved => exact Or.inl trivial
  | changed | taken => exact Or.inr trivial

theorem fits_of_not_busy {stage : Stage Num} (hbusy : ¬ Busy stage) :
    s.Fits valid base stage ↔ s.memory = base ∧ s.file = base := by
  cases stage with
  | idle | arrived => exact Iff.rfl
  | locked | copied | modified | saved | changed | taken => exact absurd trivial hbusy

/-- Nobody is at work: memory and file are what the reported updates have made. -/
theorem Focus.quiet (h : s.Focus valid cfg t base) (hbusy : ¬ Busy (s.stage t)) :
    s.memory = base ∧ s.file = base :=
  (fits_of_not_busy hbusy).mp h.fits

theorem Kept.reflected (h : s.Kept valid cfg) : s.Reflected valid cfg := by
  intro hidle
  obtain ⟨t, base, hfocus⟩ := h
  have hquiet : ¬ Busy (s.stage t) := by
    rw [hidle t]
    exact id
  obtain ⟨hmemory, hfile⟩ := hfocus.quiet hquiet
  exact ⟨s.reported, List.Perm.refl _, hmemory ▸ hfocus.run, hfile.trans hmemory.symm⟩

/-- The section under the lock ends with an error. -/
theorem Focus.fail (h : s.Focus valid cfg t base) (hmemory : s.memory = base)
    (hfile : s.file = base) : (s.fail t).Kept valid cfg := by
  refine ⟨t, base, h.run, fun t' hne => h.others_set .idle hne, fun hholds => ?_, ?_⟩
  · have hstage : (s.fail t).stage t = .idle := set_stage_self s t .idle
    rw [hstage] at hholds
    exact hholds.elim
  · have hstage : (s.fail t).stage t = .idle := set_stage_self s t .idle
    rw [hstage]
    exact ⟨hmemory, hfile⟩

/-- A request goes on by itself. -/
theorem Focus.goes (h : s.Focus valid cfg t base) {s' : Store Num} {stage : Stage Num}
    (hstages : s'.stage = (s.set t stage).stage) (hreported : s'.reported = s.reported)
    (hlock : Holds stage → s'.lock = some t) (hfits : s'.Fits valid base stage) :
    s'.Kept valid cfg := by
  have hself : s'.stage t = stage := by rw [hstages, set_stage_self]
  refine ⟨t, base, hreported ▸ h.run, fun t' hne => ?_, fun hholds => ?_, ?_⟩
  · rw [hstages]
    exact h.others_set stage hne
  · rw [hself] at hholds
    exact hlock hholds
  · rw [hself]
    exact hfits

/-- A request reports its update. -/
theorem Focus.reports (h : s.Focus valid cfg t base) {s' : Store Num} {u : Update Num}
    (hstages : s'.stage = (s.set t .idle).stage) (hreported : s'.reported = s.reported ++ [u])
    (hrun : Update.run valid base u = some s'.memory) (hfile : s'.file = s'.memory) :
    s'.Kept valid cfg := by
  have hself : s'.stage t = .idle := by rw [hstages, set_stage_self]
  refine ⟨t, s'.memory, ?_, fun t' hne => ?_, fun hholds => ?_, ?_⟩
  · rw [hreported]
    exact runAll_concat valid h.run hrun
  · rw [hstages]
    exact h.others_set .idle hne
  · rw [hself] at hholds
    exact hholds.elim
  · rw [hself]
    exact ⟨rfl, hfile⟩

/-- While nobody is at work, any request can be the one that the invariant is about. -/
theorem Focus.move (h : s.Focus valid cfg t base) (hnone : ∀ t, ¬ Busy (s.stage t)) (t' : Request) :
    s.Focus valid cfg t' base where
  run := h.run
  others t _ := hnone t
  locked hholds := absurd hholds.busy (hnone t')
  fits := (fits_of_not_busy (hnone t')).mpr (h.quiet (hnone t))

/-! ## §4 What each step keeps -/

theorem Focus.arrive (h : s.Focus valid cfg t base) {u : Update Num} (hstage : s.stage t' = .idle) :
    (s.set t' (.arrived u)).Kept valid cfg := by
  by_cases ht : t' = t
  · subst ht
    refine h.goes rfl rfl False.elim (h.quiet ?_)
    rw [hstage]
    exact id
  · have hself : (s.set t' (.arrived u)).stage t = s.stage t :=
      set_stage_of_ne s _ (Ne.symm ht)
    refine ⟨t, base, h.run, fun t'' hne => ?_, fun hholds => h.locked (hself ▸ hholds), ?_⟩
    · by_cases ht'' : t'' = t'
      · rw [ht'', set_stage_self]
        exact id
      · rw [set_stage_of_ne s _ ht'']
        exact h.others t'' hne
    · rw [hself]
      exact h.fits

theorem Focus.acquire (h : s.Focus valid cfg t base) {c : Change Num} (hlock : s.lock = none)
    (hopen : ∀ t, ¬ Open (s.stage t)) :
    ({ s.set t' (.locked c) with lock := some t' } : Store Num).Kept valid cfg := by
  -- Who is at work holds the lock, or is an open `ids_wl_add`.
  have hquiet : ¬ Busy (s.stage t) := by
    intro hbusy
    rcases hbusy.holds_or_open with hholds | hat
    · exact Option.some_ne_none _ ((h.locked hholds).symm.trans hlock)
    · exact hopen t hat
  have hnone : ∀ t, ¬ Busy (s.stage t) := by
    intro t'' hbusy
    exact hquiet (h.eq hbusy ▸ hbusy)
  refine (h.move hnone t').goes rfl rfl (fun _ => rfl) (h.quiet hquiet)

theorem Focus.change (h : s.Focus valid cfg t base) {r : Rule} (hnone : ∀ t, ¬ Busy (s.stage t)) :
    ((addRule s.memory r).elim (s.set t' .idle) fun cfg =>
      { s.set t' (.changed r) with memory := cfg }).Kept valid cfg := by
  obtain ⟨hmemory, hfile⟩ := h.quiet (hnone t)
  rcases hadd : addRule s.memory r with _ | memory
  · exact (h.move hnone t').goes rfl rfl False.elim ⟨hmemory, hfile⟩
  · refine (h.move hnone t').goes rfl rfl False.elim ?_
    rw [hmemory] at hadd
    exact hadd

/-- The step of a request at work is the step of the one that the invariant is about. -/
theorem Focus.fits_at (h : s.Focus valid cfg t base) {stage : Stage Num}
    (hstage : s.stage t' = stage) (hbusy : Busy stage) : t' = t ∧ s.Fits valid base stage := by
  have ht : t' = t := h.eq (hstage ▸ hbusy)
  refine ⟨ht, ?_⟩
  rw [← hstage, ht]
  exact h.fits

theorem copy_kept {ok : Bool} {s' : Store Num} (h : s.Kept valid cfg)
    (hok : Open (s.stage t') → ok = true) (hs : step valid s (.copy t' ok) = some s') :
    s'.Kept valid cfg := by
  obtain ⟨t, base, h⟩ := h
  unfold step at hs
  dsimp only at hs
  split at hs
  · rename_i c hstage
    obtain ⟨rfl, hmemory, hfile⟩ := h.fits_at hstage trivial
    cases hs
    split
    · refine h.goes rfl rfl (fun _ => h.locked ?_) ⟨hmemory, hfile, hmemory⟩
      rw [hstage]
      trivial
    · exact h.fail hmemory hfile
  · rename_i r hstage
    obtain ⟨rfl, hadd⟩ := h.fits_at hstage trivial
    rw [hok (by rw [hstage]; trivial)] at hs
    cases hs
    exact h.goes rfl rfl False.elim ⟨hadd, rfl⟩
  · exact absurd hs.symm (Option.some_ne_none _)

theorem modify_kept {s' : Store Num} (h : s.Kept valid cfg)
    (hs : step valid s (.modify t') = some s') : s'.Kept valid cfg := by
  obtain ⟨t, base, h⟩ := h
  unfold step at hs
  dsimp only at hs
  split at hs
  · rename_i c copy hstage
    obtain ⟨rfl, hmemory, hfile, rfl⟩ := h.fits_at hstage trivial
    cases hs
    rcases hmodify : c.modify valid copy with _ | candidate
    · exact h.fail hmemory hfile
    · refine h.goes rfl rfl (fun _ => h.locked ?_) ⟨hmemory, hfile, hmodify⟩
      rw [hstage]
      trivial
  · exact absurd hs.symm (Option.some_ne_none _)

theorem write_kept {ok : Bool} {s' : Store Num} (h : s.Kept valid cfg)
    (hok : Open (s.stage t') → ok = true) (hs : step valid s (.write t' ok) = some s') :
    s'.Kept valid cfg := by
  obtain ⟨t, base, h⟩ := h
  unfold step at hs
  dsimp only at hs
  split at hs
  · rename_i c candidate hstage
    obtain ⟨rfl, hmemory, hfile, hmodify⟩ := h.fits_at hstage trivial
    cases hs
    split
    · refine h.goes rfl rfl (fun _ => h.locked ?_) ⟨hmemory, rfl, hmodify⟩
      rw [hstage]
      trivial
    · exact h.fail hmemory hfile
  · rename_i r copy hstage
    obtain ⟨rfl, hadd, hcopy⟩ := h.fits_at hstage trivial
    rw [hok (by rw [hstage]; trivial)] at hs
    cases hs
    exact h.reports rfl rfl hadd hcopy
  · exact absurd hs.symm (Option.some_ne_none _)

/-- **The lock** keeps what was copied as it was, so that the copy is what is installed. -/
theorem install_kept {s' : Store Num} (h : s.Kept valid cfg)
    (hs : step valid s (.install t') = some s') : s'.Kept valid cfg := by
  obtain ⟨t, base, h⟩ := h
  unfold step at hs
  dsimp only at hs
  split at hs
  · rename_i c candidate hstage
    obtain ⟨rfl, hmemory, hfile, hmodify⟩ := h.fits_at hstage trivial
    cases hs
    have hinstall : c.install s.memory candidate = candidate := by
      rw [hmemory]
      exact install_modify valid hmodify
    refine h.reports (u := .change c) rfl rfl ?_ (hfile.trans hinstall.symm)
    show (c.modify valid base).map _ = some (c.install s.memory candidate)
    rw [hmodify, hmemory]
    rfl
  · exact absurd hs.symm (Option.some_ne_none _)

theorem step_kept (s : Store Num) (e : Event Num) (s' : Store Num) (h : s.Kept valid cfg)
    (hok : s.Alone e) (hs : (machine valid).step s e = some s') : s'.Kept valid cfg := by
  cases e with
  | arrive t' u =>
      obtain ⟨t, base, h⟩ := h
      have hs' : step valid s (.arrive t' u) = some s' := hs
      unfold step at hs'
      dsimp only at hs'
      split at hs'
      · cases hs'
        exact h.arrive ‹_›
      · exact absurd hs'.symm (Option.some_ne_none _)
  | acquire t' =>
      obtain ⟨t, base, h⟩ := h
      have hs' : step valid s (.acquire t') = some s' := hs
      unfold step at hs'
      dsimp only at hs'
      split at hs'
      · cases hs'
        exact h.acquire ‹_› hok
      · exact absurd hs'.symm (Option.some_ne_none _)
  | change t' =>
      obtain ⟨t, base, h⟩ := h
      have hs' : step valid s (.change t') = some s' := hs
      unfold step at hs'
      dsimp only at hs'
      split at hs'
      · cases hs'
        exact h.change hok
      · exact absurd hs'.symm (Option.some_ne_none _)
  | copy t' ok => exact copy_kept h hok hs
  | modify t' => exact modify_kept h hs
  | write t' ok => exact write_kept h hok hs
  | install t' => exact install_kept h hs

theorem start_kept (cfg : Config Num) : (start cfg).Kept valid cfg :=
  ⟨0, cfg, rfl, fun _ _ => id, False.elim, rfl, rfl⟩

end Store

/-! ## §5 Runs -/

/-- **No update is lost** in any run in which each `ids_wl_add` is alone and its write goes well. -/
theorem updates_kept (cfg : Config Num) (es : List (Store.Event Num))
    (h : (Store.machine valid).Guarded Store.Alone (Store.start cfg) es) :
    (Store.machine valid).Always (Store.Reflected valid cfg) (Store.start cfg) es :=
  Machine.always_of_guarded (fun _ => Store.Kept.reflected) Store.step_kept (Store.start_kept cfg) h

end Writers

def noRules : Config Int := ⟨[("ids", .obj [("whitelist", .list [])])], by decide⟩

def sshRule : Rule := [("process", "ssh")]

/-- A rule, and after it settings. -/
def inTurn : List (Store.Event Int) :=
  [.arrive 1 (.rule sshRule), .change 1, .copy 1 true, .write 1 true,
    .arrive 0 (.change (.settings [("ping_target", .str "1.1.1.1")])), .acquire 0, .copy 0 true,
    .modify 0, .write 0 true, .install 0]

theorem updates_kept_inTurn : (Store.machine fun _ => true).Always
    (Store.Reflected (fun _ => true) noRules) (Store.start noRules) inTurn := by
  refine updates_kept _ noRules inTurn ?_
  refine Machine.guarded_cons rfl trivial (Machine.guarded_cons rfl (fun t => ?_) ?_)
  · by_cases ht : t = 1
    · rw [ht]
      exact id
    · show ¬ Store.Busy (Function.update (fun _ => Stage.idle) 1 _ t)
      rw [Function.update_of_ne ht]
      exact id
  refine Machine.guarded_cons rfl (fun _ => rfl) (Machine.guarded_cons rfl (fun _ => rfl) ?_)
  refine Machine.guarded_cons rfl trivial (Machine.guarded_cons rfl (fun t => ?_) ?_)
  · by_cases ht : t = 0
    · rw [ht]
      exact id
    · by_cases ht' : t = 1
      · rw [ht']
        exact id
      · show ¬ Store.Open (Function.update (Function.update (Function.update (Function.update
          (Function.update (fun _ => Stage.idle) 1 _) 1 _) 1 _) 1 _) 0 _ t)
        simp only [Function.update_of_ne ht, Function.update_of_ne ht']
        exact id
  refine Machine.guarded_cons rfl (fun hopen => hopen.elim) (Machine.guarded_cons rfl trivial ?_)
  refine Machine.guarded_cons rfl (fun hopen => hopen.elim) ?_
  exact Machine.guarded_cons rfl trivial trivial

/-- Settings are copied, a rule is put in and written, the settings are written and installed. -/
def crossed : List (Store.Event Int) :=
  [.arrive 0 (.change (.settings [])), .acquire 0, .copy 0 true,
    .arrive 1 (.rule sshRule), .change 1, .copy 1 true, .write 1 true,
    .modify 0, .write 0 true, .install 0]

/-- The length of the whitelist. -/
def ruleCount (cfg : Config Int) : Nat :=
  match cfg.get "ids" with
  | some (.obj ids) =>
      match Dict.lookup "whitelist" ids with
      | some (.list wl) => wl.length
      | _ => 0
  | _ => 0

/-- The rule that was reported is in neither place. -/
theorem crossed_loses_rule : ¬ (Store.machine fun _ => true).Always
    (Store.Reflected (fun _ => true) noRules) (Store.start noRules) crossed := by
  intro h
  obtain ⟨s, hrun⟩ : ∃ s, (Store.machine fun _ => true).run (Store.start noRules) crossed =
    some s := ⟨_, rfl⟩
  have hlast := h.last hrun
  have hidle : ∀ t, s.stage t = .idle := by
    intro t
    by_cases h0 : t = 0
    · cases hrun
      rw [h0]
      rfl
    · by_cases h1 : t = 1
      · cases hrun
        rw [h1]
        rfl
      · refine (Store.run_stage hrun fun e he => ?_).trans rfl
        have hrequests : ∀ r ∈ crossed.map Store.Event.request, r = 0 ∨ r = 1 := by decide
        rintro rfl
        rcases hrequests _ (List.mem_map_of_mem he) with hrequest | hrequest
        · exact h0 hrequest
        · exact h1 hrequest
  obtain ⟨order, hperm, horder, -⟩ := hlast hidle
  cases hrun
  have hlength : order.length = 2 := hperm.length_eq
  obtain ⟨u, u', rfl⟩ := List.length_eq_two.mp hlength
  have hrule : Update.rule sshRule ∈ [u, u'] := hperm.mem_iff.mpr List.mem_cons_self
  have hsettings : Update.change (.settings []) ∈ [u, u'] :=
    hperm.mem_iff.mpr (List.mem_cons_of_mem _ List.mem_cons_self)
  rcases List.mem_pair.mp hrule with rfl | rfl
  · rcases List.mem_pair.mp hsettings with hsame | rfl
    · cases hsame
    · have hcount : some 1 = some 0 := congrArg (Option.map ruleCount) horder
      exact absurd hcount (by decide)
  · rcases List.mem_pair.mp hsettings with rfl | hsame
    · have hcount : some 1 = some 0 := congrArg (Option.map ruleCount) horder
      exact absurd hcount (by decide)
    · cases hsame

end NetPulse.Server.ConfigWriters
