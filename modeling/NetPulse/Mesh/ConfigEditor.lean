import NetPulse.Lib.Machine
import Mathlib.Logic.Function.Basic

/-
# NetPulse.Mesh.ConfigEditor — concurrent saves of `config.yaml` (`services/config/service.py`)

A save asks for the modification time of the file, compares it with the time that the editor has
seen, writes a temporary file, puts it in the place of `config.yaml`, and brings the live
configuration up to date. Asking and writing are done in threads, and nothing keeps another save
away in between. The backups that are made before a write are left out.

`one_save_wins` says when the check is enough: if no save finds the old time after another one has
found it.
-/

namespace NetPulse.Mesh.ConfigEditor

open NetPulse.Lib

/-! ## §1 Saves -/

abbrev Request := Nat

/-- In nanoseconds. -/
abbrev Mtime := Int

/-- `abs(cur_mtime - float(base_mtime)) > 0.001` -/
def conflicts (cur base : Mtime) : Bool := decide (1000000 < (cur - base).natAbs)

section Editor

variable {Text Cfg : Type}

/-- What a save has after its validation: `final_text` and `new_cfg`. -/
structure Edit (Text Cfg : Type) where
  text : Text
  cfg : Cfg

inductive Outcome (Text Cfg : Type) where
  | saved (v : Edit Text Cfg)
  | conflict
  | error

/-- How far a save is. -/
inductive Stage (Text Cfg : Type) where
  | idle
  /-- Before `stat`. -/
  | valid (v : Edit Text Cfg)
  /-- `stat` has answered. -/
  | statted (v : Edit Text Cfg) (cur : Mtime)
  /-- In `_backup_and_write`. -/
  | writing (v : Edit Text Cfg)
  /-- Before `os.replace`. -/
  | inTmp (v : Edit Text Cfg)
  /-- Before `_sync_live`. -/
  | replaced (v : Edit Text Cfg)
  | done (o : Outcome Text Cfg)

structure State (Text Cfg : Type) where
  /-- `config.yaml` -/
  file : Text
  mtime : Mtime
  /-- `config.yaml.tmp` -/
  tmp : Option Text
  /-- `ctx.config` and `config_manager.cfg` -/
  live : Cfg
  stage : Request → Stage Text Cfg

namespace State

def set (s : State Text Cfg) (t : Request) (stage : Stage Text Cfg) : State Text Cfg :=
  { s with stage := Function.update s.stage t stage }

inductive Event (Text Cfg : Type) where
  /-- Up to the validation; `none` if the text is refused. -/
  | begin_ (t : Request) (v : Option (Edit Text Cfg))
  | stat (t : Request) (ok : Bool)
  | check (t : Request)
  /-- The backup and the temporary file. -/
  | write (t : Request) (ok : Bool)
  /-- `os.replace`, which gives the file a time. -/
  | replace (t : Request) (now : Mtime)
  /-- `_sync_live`, and `stat` for the answer. -/
  | finish (t : Request) (ok : Bool)

def step (base : Mtime) (s : State Text Cfg) : Event Text Cfg → Option (State Text Cfg)
  | .begin_ t v =>
      match s.stage t with
      | .idle => some (s.set t (v.elim (.done .error) .valid))
      | _ => none
  | .stat t ok =>
      match s.stage t with
      | .valid v => some (s.set t (if ok then .statted v s.mtime else .done .error))
      | _ => none
  | .check t =>
      match s.stage t with
      | .statted v cur =>
          some (s.set t (if conflicts cur base then .done .conflict else .writing v))
      | _ => none
  | .write t ok =>
      match s.stage t with
      | .writing v =>
          some (if ok then { s.set t (.inTmp v) with tmp := some v.text }
            else s.set t (.done .error))
      | _ => none
  | .replace t now =>
      match s.stage t with
      | .inTmp v =>
          some (match s.tmp with
            | some text =>
                { s.set t (.replaced v) with
                  file := text
                  mtime := now
                  tmp := none }
            -- Another save has taken the temporary file away.
            | none => s.set t (.done .error))
      | _ => none
  | .finish t ok =>
      match s.stage t with
      | .replaced v =>
          some { s.set t (.done (if ok then .saved v else .error)) with live := v.cfg }
      | _ => none

/-- Saves that carry one `base_mtime`. -/
def machine (base : Mtime) : Machine (State Text Cfg) (Event Text Cfg) := ⟨step base⟩

def start (file : Text) (mtime : Mtime) (live : Cfg) : State Text Cfg :=
  ⟨file, mtime, none, live, fun _ => .idle⟩

/-! ## §2 One save wins -/

def Finished : Stage Text Cfg → Prop
  | .idle | .done _ => True
  | _ => False

/-- Optimistic locking, when all saves have finished. -/
structure OneWins (s : State Text Cfg) : Prop where
  atMostOne : ∀ t t' v v', s.stage t = .done (.saved v) → s.stage t' = .done (.saved v') → t = t'
  others : ∀ t, s.stage t ≠ .done .error
  reflected : ∀ t v, s.stage t = .done (.saved v) → s.file = v.text ∧ s.live = v.cfg

def Locked (s : State Text Cfg) : Prop := (∀ t, Finished (s.stage t)) → s.OneWins

/-- The save has found the old time, and has not replaced the file yet. -/
def Passing (base : Mtime) : Stage Text Cfg → Prop
  | .statted _ cur => conflicts cur base = false
  | .writing _ | .inTmp _ => True
  | _ => False

/-- The save has replaced the file. -/
def Through : Stage Text Cfg → Prop
  | .replaced _ | .done (.saved _) => True
  | _ => False

def Winner (base : Mtime) (stage : Stage Text Cfg) : Prop := Passing base stage ∨ Through stage

/-- The texts are accepted, the file can be read and written and gets a new time, and no save finds
the old time after another one has found it. -/
def Apart (base : Mtime) (s : State Text Cfg) : Event Text Cfg → Prop
  | .begin_ _ v => v ≠ none
  | .stat _ ok => ok = true ∧ (conflicts s.mtime base = false → ∀ t, ¬ Passing base (s.stage t))
  | .write _ ok => ok = true
  | .replace _ now => conflicts now base = true
  | .finish _ ok => ok = true
  | .check _ => True

/-- What is so for a save at a stage. -/
def Fits (s : State Text Cfg) : Stage Text Cfg → Prop
  | .inTmp v => s.tmp = some v.text
  | .replaced v => s.file = v.text
  | .done (.saved v) => s.file = v.text ∧ s.live = v.cfg
  | .done .error => False
  | _ => True

structure Kept (base : Mtime) (s : State Text Cfg) : Prop where
  /-- One save at most has found the old time. -/
  alone : ∀ t t', Winner base (s.stage t) → Winner base (s.stage t') → t = t'
  changed : ∀ t, Through (s.stage t) → conflicts s.mtime base = true
  fits : ∀ t, s.Fits (s.stage t)

theorem Kept.locked {base : Mtime} {s : State Text Cfg} (h : s.Kept base) : s.Locked := by
  intro _
  refine ⟨fun t t' v v' ht ht' => ?_, fun t ht => ?_, fun t v ht => ?_⟩
  · refine h.alone t t' (Or.inr ?_) (Or.inr ?_)
    · rw [ht]
      trivial
    · rw [ht']
      trivial
  · have hfits := h.fits t
    rw [ht] at hfits
    exact hfits
  · have hfits := h.fits t
    rw [ht] at hfits
    exact hfits

/-! ## §3 Steps -/

variable {base : Mtime} {s s' : State Text Cfg} {t : Request}

def Event.request : Event Text Cfg → Request
  | begin_ t _ | stat t _ | check t | write t _ | replace t _ | finish t _ => t

/-- A step leaves the stages of the other saves. -/
theorem step_stage {e : Event Text Cfg} (hs : step base s e = some s') (hne : t ≠ e.request) :
    s'.stage t = s.stage t := by
  cases e <;> unfold step at hs <;> dsimp only at hs <;> split at hs <;>
    first | exact absurd hs.symm (Option.some_ne_none _) | skip
  all_goals
    rw [← Option.some.inj hs]
  · exact Function.update_of_ne hne _ _
  · exact Function.update_of_ne hne _ _
  · exact Function.update_of_ne hne _ _
  · split <;> exact Function.update_of_ne hne _ _
  · split <;> exact Function.update_of_ne hne _ _
  · exact Function.update_of_ne hne _ _

/-- Where a save is not concerned with the files. -/
theorem Fits.of_not_winner {stage : Stage Text Cfg} (h : s.Fits stage)
    (hstage : ¬ Winner base stage) : s'.Fits stage := by
  rcases stage with _ | _ | _ | _ | _ | _ | (_ | _ | _)
  · trivial
  · trivial
  · trivial
  · trivial
  · exact absurd (Or.inl trivial) hstage
  · exact absurd (Or.inr trivial) hstage
  · exact absurd (Or.inr trivial) hstage
  · trivial
  · exact h

/-- The step of one save: files and configuration are changed by the winner only, and a save that
becomes the winner is the only one. -/
theorem Kept.put (h : s.Kept base) {stage : Stage Text Cfg}
    (hstages : s'.stage = Function.update s.stage t stage)
    (hrest : Winner base (s.stage t) ∨ s' = s.set t stage)
    (hwin : Winner base stage → ∀ t', t' ≠ t → ¬ Winner base (s.stage t'))
    (hchanged : Through stage → conflicts s'.mtime base = true) (hfits : s'.Fits stage) :
    s'.Kept base := by
  have hself : s'.stage t = stage := by rw [hstages, Function.update_self]
  have hother : ∀ t', t' ≠ t → s'.stage t' = s.stage t' := fun t' hne => by
    rw [hstages, Function.update_of_ne hne]
  -- If the winner makes the step, no other save is concerned.
  have hnone : Winner base (s.stage t) → ∀ t', t' ≠ t → ¬ Winner base (s.stage t') :=
    fun ht t' hne ht' => hne (h.alone t' t ht' ht)
  refine ⟨fun t₁ t₂ h₁ h₂ => ?_, fun t' ht' => ?_, fun t' => ?_⟩
  · by_cases e₁ : t₁ = t
    · by_cases e₂ : t₂ = t
      · rw [e₁, e₂]
      · rw [e₁, hself] at h₁
        rw [hother t₂ e₂] at h₂
        exact absurd h₂ (hwin h₁ t₂ e₂)
    · rw [hother t₁ e₁] at h₁
      by_cases e₂ : t₂ = t
      · rw [e₂, hself] at h₂
        exact absurd h₁ (hwin h₂ t₁ e₁)
      · rw [hother t₂ e₂] at h₂
        exact h.alone t₁ t₂ h₁ h₂
  · by_cases e : t' = t
    · rw [e, hself] at ht'
      exact hchanged ht'
    · rw [hother t' e] at ht'
      rcases hrest with hwinner | hset
      · exact absurd (Or.inr ht') (hnone hwinner t' e)
      · rw [hset]
        exact h.changed t' ht'
  · by_cases e : t' = t
    · rw [e, hself]
      exact hfits
    · rw [hother t' e]
      rcases hrest with hwinner | hset
      · exact (h.fits t').of_not_winner (hnone hwinner t' e)
      · have hsame := h.fits t'
        rw [hset]
        rcases hstage : s.stage t' with _ | _ | _ | _ | _ | _ | (_ | _ | _) <;>
          rw [hstage] at hsame <;> exact hsame

theorem begin_kept {v : Option (Edit Text Cfg)} (h : s.Kept base) (hok : v ≠ none)
    (hs : step base s (.begin_ t v) = some s') : s'.Kept base := by
  unfold step at hs
  dsimp only at hs
  split at hs
  · cases hs
    obtain ⟨edit, rfl⟩ := Option.ne_none_iff_exists'.mp hok
    exact h.put rfl (Or.inr rfl) (fun hwin => hwin.elim False.elim False.elim) False.elim trivial
  · exact absurd hs.symm (Option.some_ne_none _)

theorem stat_kept {ok : Bool} (h : s.Kept base)
    (hok : ok = true ∧ (conflicts s.mtime base = false → ∀ t, ¬ Passing base (s.stage t)))
    (hs : step base s (.stat t ok) = some s') : s'.Kept base := by
  obtain ⟨rfl, hnone⟩ := hok
  unfold step at hs
  dsimp only at hs
  split at hs
  · cases hs
    refine h.put rfl (Or.inr rfl) (fun hwin t' _ ht' => ?_) False.elim trivial
    -- Whoever finds the old time finds it first: nobody has replaced the file.
    have hfound : conflicts s.mtime base = false := hwin.elim id False.elim
    rcases ht' with hpass | hthrough
    · exact hnone hfound t' hpass
    · exact Bool.false_ne_true (hfound.symm.trans (h.changed t' hthrough))
  · exact absurd hs.symm (Option.some_ne_none _)

theorem check_kept (h : s.Kept base) (hs : step base s (.check t) = some s') : s'.Kept base := by
  unfold step at hs
  dsimp only at hs
  split at hs
  · rename_i v cur hstage
    cases hs
    by_cases hconflict : conflicts cur base = true
    · rw [if_pos hconflict]
      exact h.put rfl (Or.inr rfl) (fun hwin => hwin.elim False.elim False.elim) False.elim trivial
    · rw [if_neg hconflict]
      have hpass : Winner base (s.stage t) := by
        rw [hstage]
        exact Or.inl (Bool.eq_false_iff.mpr hconflict)
      exact h.put rfl (Or.inr rfl) (fun _ t' hne ht' => hne (h.alone t' t ht' hpass)) False.elim
        trivial
  · exact absurd hs.symm (Option.some_ne_none _)

theorem write_kept {ok : Bool} (h : s.Kept base) (hok : ok = true)
    (hs : step base s (.write t ok) = some s') : s'.Kept base := by
  subst hok
  unfold step at hs
  dsimp only at hs
  split at hs
  · rename_i v hstage
    cases hs
    have hwinner : Winner base (s.stage t) := by
      rw [hstage]
      exact Or.inl trivial
    exact h.put rfl (Or.inl hwinner) (fun _ t' hne ht' => hne (h.alone t' t ht' hwinner))
      False.elim rfl
  · exact absurd hs.symm (Option.some_ne_none _)

theorem replace_kept {now : Mtime} (h : s.Kept base) (hok : conflicts now base = true)
    (hs : step base s (.replace t now) = some s') : s'.Kept base := by
  unfold step at hs
  dsimp only at hs
  split at hs
  · rename_i v hstage
    have hwinner : Winner base (s.stage t) := by
      rw [hstage]
      exact Or.inl trivial
    have htmp : s.tmp = some v.text := by
      have hfits := h.fits t
      rw [hstage] at hfits
      exact hfits
    rw [htmp] at hs
    cases hs
    exact h.put rfl (Or.inl hwinner) (fun _ t' hne ht' => hne (h.alone t' t ht' hwinner))
      (fun _ => hok) rfl
  · exact absurd hs.symm (Option.some_ne_none _)

theorem finish_kept {ok : Bool} (h : s.Kept base) (hok : ok = true)
    (hs : step base s (.finish t ok) = some s') : s'.Kept base := by
  subst hok
  unfold step at hs
  dsimp only at hs
  split at hs
  · rename_i v hstage
    have hthrough : Through (s.stage t) := by
      rw [hstage]
      trivial
    have hfile : s.file = v.text := by
      have hfits := h.fits t
      rw [hstage] at hfits
      exact hfits
    cases hs
    exact h.put rfl (Or.inl (Or.inr hthrough))
      (fun _ t' hne ht' => hne (h.alone t' t ht' (Or.inr hthrough)))
      (fun _ => h.changed t hthrough) ⟨hfile, rfl⟩
  · exact absurd hs.symm (Option.some_ne_none _)

theorem step_kept (s : State Text Cfg) (e : Event Text Cfg) (s' : State Text Cfg)
    (h : s.Kept base) (hok : s.Apart base e) (hs : (machine base).step s e = some s') :
    s'.Kept base := by
  cases e with
  | begin_ t v => exact begin_kept h hok hs
  | stat t ok => exact stat_kept h hok hs
  | check t => exact check_kept h hs
  | write t ok => exact write_kept h hok hs
  | replace t now => exact replace_kept h hok hs
  | finish t ok => exact finish_kept h hok hs

theorem start_kept (file : Text) (mtime : Mtime) (live : Cfg) :
    (start file mtime live).Kept base :=
  ⟨fun _ _ ht => ht.elim False.elim False.elim, fun _ => False.elim, fun _ => trivial⟩

end State

/-! ## §4 Runs -/

/-- **One save wins** in any run in which no save finds the old time after another one has. -/
theorem one_save_wins (base : Mtime) (file : Text) (mtime : Mtime) (live : Cfg)
    (es : List (State.Event Text Cfg))
    (h : (State.machine base).Guarded (State.Apart base) (State.start file mtime live) es) :
    (State.machine base).Always State.Locked (State.start file mtime live) es :=
  Machine.always_of_guarded (fun _ => State.Kept.locked) State.step_kept
    (State.start_kept file mtime live) h

end Editor

/-- Configurations that are their texts. -/
def edit (n : Nat) : Edit Nat Nat := ⟨n, n⟩

/-- The second save asks when the first has written. -/
def inTurn : List (State.Event Nat Nat) :=
  [.begin_ 1 (some (edit 1)), .begin_ 2 (some (edit 2)), .stat 1 true, .check 1, .write 1 true,
    .replace 1 2000000, .stat 2 true, .check 2, .finish 1 true]

theorem one_save_wins_inTurn :
    (State.machine 0).Always State.Locked (State.start 0 0 0) inTurn := by
  refine one_save_wins 0 0 0 0 inTurn ?_
  refine Machine.guarded_cons rfl (Option.some_ne_none _) ?_
  refine Machine.guarded_cons rfl (Option.some_ne_none _) ?_
  refine Machine.guarded_cons rfl ⟨rfl, fun _ t => ?_⟩ ?_
  · by_cases h1 : t = 1
    · rw [h1]
      exact id
    · by_cases h2 : t = 2
      · rw [h2]
        exact id
      · show ¬ State.Passing 0 (Function.update (Function.update (fun _ => Stage.idle) 1 _) 2 _ t)
        rw [Function.update_of_ne h2, Function.update_of_ne h1]
        exact id
  refine Machine.guarded_cons rfl trivial (Machine.guarded_cons rfl rfl ?_)
  refine Machine.guarded_cons rfl rfl ?_
  refine Machine.guarded_cons rfl ⟨rfl, fun hfound => Bool.noConfusion hfound⟩ ?_
  exact Machine.guarded_cons rfl trivial (Machine.guarded_cons rfl rfl trivial)

/-- Both saves ask before either has written. -/
def crossed : List (State.Event Nat Nat) :=
  [.begin_ 1 (some (edit 1)), .begin_ 2 (some (edit 2)), .stat 1 true, .stat 2 true, .check 1,
    .check 2, .write 1 true, .replace 1 2000000, .finish 1 true, .write 2 true,
    .replace 2 4000000, .finish 2 true]

/-- Both report success. -/
theorem crossed_both_saved :
    ¬ (State.machine 0).Always State.Locked (State.start 0 0 0) crossed := by
  intro h
  obtain ⟨s, hrun⟩ : ∃ s, (State.machine 0).run (State.start 0 0 0) crossed = some s := ⟨_, rfl⟩
  have hlast := h.last hrun
  have hothers : ∀ t, t ≠ 1 → t ≠ 2 → s.stage t = .idle := by
    intro t h1 h2
    have hrequests : ∀ r ∈ crossed.map State.Event.request, r = 1 ∨ r = 2 := by decide
    have hguard : (State.machine 0).Guarded (fun _ e => t ≠ State.Event.request e)
        (State.start 0 0 0) crossed := by
      refine Machine.guarded_of_mem (fun e he _ => ?_) _
      rintro rfl
      exact (hrequests _ (List.mem_map_of_mem he)).elim h1 h2
    exact Machine.frame_of_guarded (fun s => s.stage t)
      (fun _ _ _ hne hs => State.step_stage hs hne) hguard hrun
  cases hrun
  have hsaved := hlast fun t => ?_
  · exact absurd (hsaved.atMostOne 1 2 (edit 1) (edit 2) rfl rfl) (by decide)
  · by_cases h1 : t = 1
    · rw [h1]
      trivial
    · by_cases h2 : t = 2
      · rw [h2]
        trivial
      · rw [hothers t h1 h2]
        trivial

end NetPulse.Mesh.ConfigEditor
