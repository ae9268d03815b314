import NetPulse.Updater.Boot

/-
# NetPulse.Updater.BootRuns — what holds of an update, whenever a process dies

`boot_marker`: as long as a node only confirms an update whose binary it was started from, the
updater only confirms what the node has confirmed, and each rollback finds the staged binary in
place, there is one rollback at most for each `apply`, it leaves the binary that ran before, and
`boot_ok` is set by a process of the version that the state file names. The automatic check applies
nothing, in any run.

The code does not see to the condition: the state file still says `pending_boot_confirm` when the
old binary is back. `marker_outlives_rollback` has three runs in which this goes wrong.
-/

namespace NetPulse.Updater

open NetPulse.Lib

/-- The staged binary is not in place yet. -/
def Watch.early : Watch → Bool
  | .waiting | .unlinked | .renamed => true
  | _ => false

variable {Bin : Type} {version : Bin → String}

/-! ## §1 The files -/

/-- The files, by what the updater has done and what has become of the update. -/
structure Files (version : Bin → String) (exe old updaterExe origin : Option Bin)
    (updater : Option (Watchdog Bin)) (phase : Phase) (rollbacks : Nat) (m : Marker) : Prop where
  once : rollbacks ≤ 1
  notYet : phase ≠ .rolledBack → rollbacks = 0
  saved : phase = .installed → old = origin
  labelled : phase = .installed → ∀ b, exe = some b → version b = m.toVersion
  back : phase = .rolledBack → exe = origin
  early : ∀ u, updater = some u → u.stage.early = true →
    phase = .marked ∧ m.unconfirmed = true
  home : ∀ u, updater = some u → u.stage = .waiting ∨ u.stage = .unlinked →
    exe = origin ∧ exe.isSome = true
  away : ∀ u, updater = some u → u.stage = .renamed → exe = none ∧ old = origin
  kept : ∀ u, updater = some u → u.stage = .copied → old = origin
  copy : ∀ u, updater = some u → updaterExe = origin

namespace Files

variable {exe old updaterExe origin : Option Bin} {updater : Option (Watchdog Bin)} {phase : Phase}
  {rollbacks : Nat} {m m' : Marker}

/-- Only the version in the state file counts, and whether the update is confirmed. -/
theorem of_marker (h : Files version exe old updaterExe origin updater phase rollbacks m)
    (hunconfirmed : m'.unconfirmed = m.unconfirmed) (hto : m'.toVersion = m.toVersion) :
    Files version exe old updaterExe origin updater phase rollbacks m' :=
  { h with
    labelled := by
      rw [hto]
      exact h.labelled
    early := by
      rw [hunconfirmed]
      exact h.early }

/-- Without an updater, its part is not needed. -/
theorem alone {updaterExe' : Option Bin}
    (h : Files version exe old updaterExe origin updater phase rollbacks m) :
    Files version exe old updaterExe' origin none phase rollbacks m where
  once := h.once
  notYet := h.notYet
  saved := h.saved
  labelled := h.labelled
  back := h.back
  early u hu := by cases hu
  home u hu := by cases hu
  away u hu := by cases hu
  kept u hu := by cases hu
  copy u hu := by cases hu

/-- Behind the early stages the updater only needs its own copy. -/
theorem late {u u' : Watchdog Bin}
    (h : Files version exe old updaterExe origin (some u) phase rollbacks m)
    (hearly : u'.stage.early = false) (hcopied : u'.stage ≠ .copied) :
    Files version exe old updaterExe origin (some u') phase rollbacks m where
  once := h.once
  notYet := h.notYet
  saved := h.saved
  labelled := h.labelled
  back := h.back
  early w hw he := by
    cases hw
    rw [hearly] at he
    cases he
  home w hw he := by
    cases hw
    rcases he with he | he <;> rw [he] at hearly <;> cases hearly
  away w hw he := by
    cases hw
    rw [he] at hearly
    cases hearly
  kept w hw he := by
    cases hw
    exact absurd he hcopied
  copy w hw := by
    cases hw
    exact h.copy u rfl

end Files

/-! ## §2 The node -/

/-- What a node relies on, by its task. -/
def Fits (s : System Bin) (n : Node Bin) : Task → Prop
  | .serving => True
  | .prepared _ => s.updaterExe = some n.bin ∧ s.load.unconfirmed = false ∧ s.updater = none
  | .announced => n.confirming = false ∧ s.load.unconfirmed = true ∧ s.updaterExe = some n.bin ∧
      s.origin = some n.bin ∧ s.phase = .marked ∧ s.updater = none ∧ s.exe = some n.bin
  | .leaving | .locked => n.confirming = false ∧ s.load.unconfirmed = true
  | .failed st | .renamed st | .restored st | .recorded st =>
      n.confirming = false ∧ s.load.unconfirmed = true ∧ st.unconfirmed = true ∧
        st.toVersion = s.load.toVersion

/-- A node that may apply, or confirm, runs from the binary in place, which stays. -/
structure Tenant (version : Bin → String) (s : System Bin) (n : Node Bin) : Prop where
  fits : Fits s n n.task
  waits : n.confirming = true → s.load.unconfirmed = true
  seated : s.load.unconfirmed = false ∨ n.confirming = true ∧ n.fresh = true →
    s.exe = some n.bin ∧ n.atExe = true ∧ ∀ u, s.updater = some u → u.stage.early = false
  named : n.confirming = true → n.fresh = true → version n.bin = s.load.toVersion

/-- **The invariant.** -/
structure Sound (version : Bin → String) (s : System Bin) : Prop where
  files : Files version s.exe s.old s.updaterExe s.origin s.updater s.phase s.rollbacks s.load
  tenant : ∀ n, s.node = some n → Tenant version s n

/-- A node in the middle of something can neither apply nor confirm. -/
theorem tenant_of_busy {s : System Bin} {n : Node Bin} (hfits : Fits s n n.task)
    (hconfirming : n.confirming = false) (hunconfirmed : s.load.unconfirmed = true) :
    Tenant version s n where
  fits := hfits
  waits h := by
    rw [hconfirming] at h
    cases h
  seated h := by
    rw [hconfirming, hunconfirmed] at h
    rcases h with h | ⟨h, -⟩ <;> cases h
  named h := by
    rw [hconfirming] at h
    cases h

/-- A task of a node that confirms, or of one without an open update. -/
theorem Tenant.serving {s : System Bin} {n : Node Bin} (h : Tenant version s n)
    (hconfirming : n.confirming = true) : n.task = .serving := by
  have hfits := h.fits
  have hopen := h.waits hconfirming
  cases htask : n.task with
  | serving => rfl
  | prepared target =>
      rw [htask] at hfits
      rw [hfits.2.1] at hopen
      cases hopen
  | _ =>
      rw [htask] at hfits
      rw [hfits.1] at hconfirming
      cases hconfirming

/-- With an updater around, the tasks of a node do not depend on files. -/
theorem Fits.of_updater {s s' : System Bin} {n n' : Node Bin} {task : Task}
    (h : Fits s n task) (hupdater : s.updater ≠ none)
    (hconfirming : n'.confirming = n.confirming)
    (hload : s'.load = s.load) : Fits s' n' task := by
  cases task with
  | serving => trivial
  | prepared target => exact absurd h.2.2 hupdater
  | announced => exact absurd h.2.2.2.2.2.1 hupdater
  | _ =>
      simp only [Fits, hconfirming, hload] at h ⊢
      exact h

/-! ## §3 What a node does -/

namespace Sound

variable {s s' : System Bin}

/-- The invariant is kept, and `boot_ok` is not set. -/
def Kept (version : Bin → String) (s s' : System Bin) : Prop :=
  Sound version s' ∧ (s'.load.bootOk = true → s.load.bootOk = true)

theorem crash (h : Sound version s) (hs : s.crash = some s') : Kept version s s' := by
  obtain ⟨n, hn, rfl⟩ := Option.map_eq_some_iff.mp hs
  exact ⟨⟨h.files, fun n' hn' => by cases hn'⟩, id⟩

theorem exit (h : Sound version s) (hs : s.exit = some s') : Kept version s s' := by
  obtain ⟨n, hn, hs⟩ := Option.bind_eq_some_iff.mp hs
  split at hs
  · cases hs
    exact ⟨⟨h.files, fun n' hn' => by cases hn'⟩, id⟩
  · cases hs

/-- A start counts itself, and takes the binary as it finds it. -/
theorem startNode (h : Sound version s) {b : Bin} (launched : Bool) (hexe : s.exe = some b) :
    Kept version s (s.startNode launched b) := by
  have hphase : decide (s.phase = .installed) = true → s.phase = .installed := of_decide_eq_true
  have hlate : s.load.unconfirmed = false ∨ s.phase = .installed →
      ∀ u, s.updater = some u → u.stage.early = false := by
    intro hwhy u hu
    by_contra hearly
    obtain ⟨hmarked, hopen⟩ := h.files.early u hu (Bool.not_eq_false _ ▸ hearly)
    rcases hwhy with hclosed | hinstalled
    · rw [hclosed] at hopen
      cases hopen
    · rw [hinstalled] at hmarked
      cases hmarked
  unfold System.startNode
  by_cases hopen : s.load.unconfirmed = true
  · rw [if_pos hopen]
    refine ⟨⟨h.files.of_marker rfl rfl, fun n hn => ?_⟩, id⟩
    have hopen' : ({ s.load with attempts := s.load.attempts + 1 } : Marker).unconfirmed = true :=
      hopen
    dsimp only at hn
    split at hn
    · cases hn
      exact tenant_of_busy ⟨rfl, hopen', hopen', rfl⟩ rfl hopen'
    · cases hn
      refine ⟨trivial, fun _ => hopen', fun hwhy => ?_, fun _ hfresh => ?_⟩
      · rcases hwhy with hclosed | ⟨-, hfresh⟩
        · exact absurd (hopen'.symm.trans hclosed) (by decide)
        · exact ⟨hexe, rfl, hlate (Or.inr (hphase hfresh))⟩
      · exact h.files.labelled (hphase hfresh) b hexe
  · rw [if_neg hopen]
    refine ⟨⟨h.files, fun n hn => ?_⟩, id⟩
    cases hn
    refine ⟨trivial, (fun hc => by cases hc), fun _ => ?_, (fun hc => by cases hc)⟩
    exact ⟨hexe, rfl, hlate (Or.inl (Bool.not_eq_true _ ▸ hopen))⟩

theorem start (h : Sound version s) (hs : s.start = some s') : Kept version s s' := by
  unfold System.start at hs
  split at hs
  · cases hs
    exact h.startNode false ‹_›
  · cases hs

/-- The checks of `apply` have found no open update. -/
theorem confirmed_of_mayApply [VersionText] {cfg : Settings} {current target : String}
    {force pending : Bool} {u : Unit} (h : mayApply cfg current target force pending = .ok u) :
    pending = false := by
  simp only [mayApply, bind_eq_ok, require_eq_ok] at h
  obtain ⟨-, -, -, -, -, -, h⟩ := h
  exact Bool.not_eq_true' _ ▸ h

theorem prepare [VersionText] {cfg : Settings} {target : String} {force : Bool}
    (h : Sound version s) (hs : s.prepare version cfg target force = some s') :
    Kept version s s' := by
  unfold System.prepare at hs
  split at hs
  · rename_i n b hn hexe hupdater
    split at hs
    · rename_i u file htask hmay hstaged
      cases hs
      have hclosed := confirmed_of_mayApply hmay
      have ht := h.tenant n hn
      obtain ⟨hbin, hat, hlate⟩ := ht.seated (Or.inl hclosed)
      refine ⟨⟨?_, fun n' hn' => ?_⟩, id⟩
      · show Files version s.exe s.old (some b) s.origin s.updater s.phase s.rollbacks s.load
        rw [hupdater]
        exact h.files.alone
      · cases hn'
        exact ⟨⟨hexe.symm.trans hbin, hclosed, hupdater⟩, ht.waits, ht.seated, ht.named⟩
    · cases hs
  · cases hs

theorem announce (h : Sound version s) (hs : s.announce version = some s') :
    Kept version s s' := by
  obtain ⟨n, hn, hs⟩ := Option.bind_eq_some_iff.mp hs
  split at hs
  · rename_i target htask
    cases hs
    have ht := h.tenant n hn
    have hfits := ht.fits
    rw [htask] at hfits
    obtain ⟨hcopy, hclosed, hupdater⟩ := hfits
    obtain ⟨hexe, hat, -⟩ := ht.seated (Or.inl hclosed)
    have hidle : n.confirming = false := by
      cases hc : n.confirming with
      | false => rfl
      | true => exact absurd (hclosed.symm.trans (ht.waits hc)) (by decide)
    refine ⟨⟨?_, fun n' hn' => ?_⟩, fun hboot => by cases hboot⟩
    · show Files version s.exe s.old s.updaterExe (some n.bin) s.updater .marked 0 _
      rw [hupdater]
      exact {
        once := Nat.zero_le 1
        notYet := fun _ => rfl
        saved := fun hphase => by cases hphase
        labelled := fun hphase => by cases hphase
        back := fun hphase => by cases hphase
        early := fun u hu => by cases hu
        home := fun u hu => by cases hu
        away := fun u hu => by cases hu
        kept := fun u hu => by cases hu
        copy := fun u hu => by cases hu }
    · cases hn'
      exact tenant_of_busy ⟨hidle, rfl, hcopy, rfl, rfl, hupdater, hexe⟩ hidle rfl
  · cases hs

theorem launchUpdater {starts : Bool} (h : Sound version s)
    (hs : s.launchUpdater starts = some s') : Kept version s s' := by
  obtain ⟨n, hn, hs⟩ := Option.bind_eq_some_iff.mp hs
  split at hs
  · rename_i u htask hcopy hstarts
    cases hs
    have hfits := (h.tenant n hn).fits
    rw [htask] at hfits
    obtain ⟨hidle, hopen, hupd, horigin, hphase, hnone, hexe⟩ := hfits
    have hfiles := h.files
    refine ⟨⟨?_, fun n' hn' => ?_⟩, id⟩
    · exact { hfiles with
        early := fun w hw _ => ⟨hphase, hopen⟩
        home := fun w hw _ => ⟨hexe.trans horigin.symm, Option.isSome_iff_exists.mpr ⟨_, hexe⟩⟩
        away := fun w hw hstage => by
          cases hw
          cases hstage
        kept := fun w hw hstage => by
          cases hw
          cases hstage
        copy := fun w _ => hupd.trans horigin.symm }
    · cases hn'
      exact tenant_of_busy ⟨hidle, hopen⟩ hidle hopen
  · rename_i htask hstarts
    cases hs
    have hfits := (h.tenant n hn).fits
    rw [htask] at hfits
    obtain ⟨hidle, hopen, -, -, -, hnone, -⟩ := hfits
    refine ⟨⟨?_, fun n' hn' => ?_⟩, id⟩
    · show Files version s.exe s.old none s.origin s.updater s.phase s.rollbacks s.load
      rw [hnone]
      exact h.files.alone
    · cases hn'
      exact tenant_of_busy trivial hidle hopen
  · cases hs

/-- A node that was started from the staged binary confirms its own version. -/
theorem confirm (h : Sound version s)
    (hfresh : s.load.unconfirmed = true → ∀ n, s.node = some n → n.fresh = true)
    (hs : s.confirm = some s') :
    Sound version s' ∧ (s'.load.bootOk = true → s.load.bootOk = true ∨
      ∃ n, s.node = some n ∧ version n.bin = s'.load.toVersion) := by
  obtain ⟨n, hn, hs⟩ := Option.bind_eq_some_iff.mp hs
  split at hs
  · rename_i hconfirming
    cases hs
    have ht := h.tenant n hn
    have hopen := ht.waits hconfirming
    have hseat := ht.seated (Or.inr ⟨hconfirming, hfresh hopen n hn⟩)
    have htask := ht.serving hconfirming
    rw [if_pos hopen]
    refine ⟨⟨?_, fun n' hn' => ?_⟩, fun _ => Or.inr ⟨n, hn, ht.named hconfirming (hfresh hopen n hn)⟩⟩
    · have hfiles := h.files
      -- the updater is past the stages that need an open update
      exact { hfiles with
        early := fun u hu hearly => by
          rw [hseat.2.2 u hu] at hearly
          cases hearly }
    · cases hn'
      refine ⟨?_, (fun hc => by cases hc), fun _ => hseat, (fun hc => by cases hc)⟩
      show Fits _ _ n.task
      rw [htask]
      trivial
  · cases hs

theorem beginRollback {renames : Bool} (h : Sound version s)
    (hphase : s.old.isSome = true → s.phase = .installed)
    (hs : s.beginRollback renames = some s') : Kept version s s' := by
  obtain ⟨n, hn, hs⟩ := Option.bind_eq_some_iff.mp hs
  split at hs
  · rename_i st htask
    cases hs
    have hfits := (h.tenant n hn).fits
    rw [htask] at hfits
    obtain ⟨hidle, hopen, hst, hto⟩ := hfits
    have hclosed : st.bootOk = false := by
      rw [Marker.unconfirmed, Bool.and_eq_true] at hst
      exact Bool.not_eq_true' _ ▸ hst.2
    split
    · refine ⟨⟨h.files.of_marker (hst.trans hopen.symm) hto, fun n' hn' => ?_⟩, fun hboot => ?_⟩
      · cases hn'
        exact tenant_of_busy trivial hidle hst
      · exact absurd (hclosed.symm.trans hboot) (by decide)
    · rename_i hold
      have hinstalled : s.phase = .installed := by
        apply hphase
        cases ho : s.old with
        | none =>
            rw [ho] at hold
            exact absurd rfl hold
        | some b => rfl
      split
      · have hfiles := h.files
        refine ⟨⟨?_, fun n' hn' => ?_⟩, id⟩
        · exact { hfiles with
            labelled := fun _ b hb => by cases hb
            back := fun hback => by
              rw [show s.phase = .rolledBack from hback] at hinstalled
              cases hinstalled
            home := fun u hu hstage => by
              have hearly : u.stage.early = true := by
                rcases hstage with hstage | hstage <;> rw [hstage] <;> rfl
              rw [(hfiles.early u hu hearly).1] at hinstalled
              cases hinstalled
            away := fun u hu hstage => ⟨rfl, (hfiles.away u hu hstage).2⟩ }
        · cases hn'
          exact tenant_of_busy ⟨hidle, hopen, hst, hto⟩ hidle hopen
      · refine ⟨⟨h.files, fun n' hn' => ?_⟩, id⟩
        cases hn'
        exact tenant_of_busy trivial hidle hopen
  · cases hs

/-- In a phase of its own, no update is waiting for its files. -/
theorem not_early (h : Sound version s) (hphase : s.phase ≠ .marked) {u : Watchdog Bin}
    (hu : s.updater = some u) : u.stage.early = false := by
  cases hearly : u.stage.early with
  | false => rfl
  | true => exact absurd (h.files.early u hu hearly).1 hphase

/-- **A rollback**: what goes into the place of the binary is what ran before the `apply`. -/
theorem files_rolledBack (h : Sound version s) (hphase : s.phase = .installed)
    {exe : Option Bin} (hexe : exe = s.origin) (updater : Option (Watchdog Bin))
    (hupdater : updater = none ∨ updater = s.updater) :
    Files version exe s.old s.updaterExe s.origin updater .rolledBack (s.rollbacks + 1) s.load := by
  have hlate : ∀ u, updater = some u → s.updater = some u ∧ u.stage.early = false := by
    intro u hu
    rcases hupdater with hnone | hsame
    · rw [hnone] at hu
      cases hu
    · have hu' := hsame.symm.trans hu
      exact ⟨hu', h.not_early (by rw [hphase]; decide) hu'⟩
  have hcount : s.rollbacks = 0 := h.files.notYet (by rw [hphase]; decide)
  exact {
    once := by rw [hcount]
    notYet := fun hno => absurd rfl hno
    saved := fun hinstalled => by cases hinstalled
    labelled := fun hinstalled => by cases hinstalled
    back := fun _ => hexe
    early := fun u hu hearly => by
      rw [(hlate u hu).2] at hearly
      cases hearly
    home := fun u hu hstage => by
      have hlate := (hlate u hu).2
      rcases hstage with hstage | hstage <;> rw [hstage] at hlate <;> cases hlate
    away := fun u hu hstage => by
      have hlate := (hlate u hu).2
      rw [hstage] at hlate
      cases hlate
    kept := fun u hu => h.files.kept u (hlate u hu).1
    copy := fun u hu => h.files.copy u (hlate u hu).1 }

theorem copyOld (h : Sound version s) (hphase : s.phase = .installed)
    (hs : s.copyOld = some s') : Kept version s s' := by
  obtain ⟨n, hn, hs⟩ := Option.bind_eq_some_iff.mp hs
  split at hs
  · rename_i st b htask hold
    cases hs
    have hfits := (h.tenant n hn).fits
    rw [htask] at hfits
    obtain ⟨hidle, hopen, hst, hto⟩ := hfits
    refine ⟨⟨?_, fun n' hn' => ?_⟩, id⟩
    · exact h.files_rolledBack hphase (hold.symm.trans (h.files.saved hphase)) s.updater (Or.inr rfl)
    · cases hn'
      exact tenant_of_busy ⟨hidle, hopen, hst, hto⟩ hidle hopen
  · cases hs

theorem recordRollback (h : Sound version s) (hs : s.recordRollback = some s') :
    Kept version s s' := by
  obtain ⟨n, hn, hs⟩ := Option.bind_eq_some_iff.mp hs
  split at hs
  · rename_i st htask
    cases hs
    have hfits := (h.tenant n hn).fits
    rw [htask] at hfits
    obtain ⟨hidle, hopen, hst, hto⟩ := hfits
    have hclosed : st.bootOk = false := by
      rw [Marker.unconfirmed, Bool.and_eq_true] at hst
      exact Bool.not_eq_true' _ ▸ hst.2
    refine ⟨⟨h.files.of_marker (hst.trans hopen.symm) hto, fun n' hn' => ?_⟩, fun hboot => ?_⟩
    · cases hn'
      exact tenant_of_busy ⟨hidle, hst, hst, rfl⟩ hidle hst
    · exact absurd (hclosed.symm.trans hboot) (by decide)
  · cases hs

theorem lockVersion (h : Sound version s) (hs : s.lockVersion = some s') :
    Kept version s s' := by
  obtain ⟨n, hn, hs⟩ := Option.bind_eq_some_iff.mp hs
  split at hs
  · rename_i st htask
    cases hs
    have hfits := (h.tenant n hn).fits
    rw [htask] at hfits
    obtain ⟨hidle, hopen, -, -⟩ := hfits
    dsimp only
    split
    · refine ⟨⟨h.files, fun n' hn' => ?_⟩, id⟩
      cases hn'
      exact tenant_of_busy ⟨hidle, hopen⟩ hidle hopen
    · refine ⟨⟨h.files.of_marker rfl rfl, fun n' hn' => ?_⟩, id⟩
      cases hn'
      exact tenant_of_busy ⟨hidle, hopen⟩ hidle hopen
  · cases hs

theorem scheduleRestart (h : Sound version s) (hs : s.scheduleRestart = some s') :
    Kept version s s' := by
  obtain ⟨n, hn, hs⟩ := Option.bind_eq_some_iff.mp hs
  split at hs
  · rename_i htask
    cases hs
    have hfits := (h.tenant n hn).fits
    rw [htask] at hfits
    obtain ⟨hidle, hopen⟩ := hfits
    refine ⟨⟨h.files, fun n' hn' => ?_⟩, id⟩
    cases hn'
    exact tenant_of_busy ⟨hidle, hopen⟩ hidle hopen
  · cases hs

/-! ## §4 What the updater does -/

/-- A node whose binary stays while the updater moves on. -/
theorem tenant_of_stage (h : Sound version s) {u : Watchdog Bin} (hu : s.updater = some u)
    {n n' : Node Bin} (hn : s.node = some n) (hload : s'.load = s.load)
    (hnode : n'.bin = n.bin ∧ n'.task = n.task ∧ n'.confirming = n.confirming ∧
      n'.fresh = n.fresh)
    (hseated : n.atExe = true → u.stage.early = false → s.exe = some n.bin →
      s'.exe = some n.bin ∧ n'.atExe = true ∧
        ∀ u', s'.updater = some u' → u'.stage.early = false) : Tenant version s' n' := by
  have ht := h.tenant n hn
  obtain ⟨hbin, htask, hconfirming, hfresh⟩ := hnode
  refine ⟨?_, ?_, ?_, ?_⟩
  · rw [htask]
    exact ht.fits.of_updater (by rw [hu]; exact fun hnone => by cases hnone) hconfirming hload
  · rw [hconfirming, hload]
    exact ht.waits
  · rw [hconfirming, hfresh, hload, hbin]
    intro hwhy
    obtain ⟨hexe, hat, hlate⟩ := ht.seated hwhy
    exact hseated hat (hlate u hu) hexe
  · rw [hconfirming, hfresh, hload, hbin]
    exact ht.named

theorem withoutUpdater (h : Sound version s) {u : Watchdog Bin} (hu : s.updater = some u) :
    Kept version s s.withoutUpdater := by
  refine ⟨⟨h.files.alone, fun n hn => ?_⟩, id⟩
  refine h.tenant_of_stage hu hn rfl ⟨rfl, rfl, rfl, rfl⟩ fun hat _ hexe => ?_
  exact ⟨hexe, hat, fun u' hu' => by cases hu'⟩

theorem stopUpdater (h : Sound version s) (hs : s.stopUpdater = some s') : Kept version s s' := by
  obtain ⟨u, hu, rfl⟩ := Option.map_eq_some_iff.mp hs
  exact h.withoutUpdater hu

/-- The updater goes on behind the early stages. -/
theorem setStage (h : Sound version s) {u : Watchdog Bin} {stage : Watch}
    (hu : s.updater = some u) (hearly : stage.early = false) (hcopied : stage ≠ .copied) :
    Kept version s (s.setStage u stage) := by
  refine ⟨⟨?_, fun n hn => ?_⟩, id⟩
  · have hfiles := h.files
    rw [hu] at hfiles
    exact hfiles.late hearly hcopied
  · refine h.tenant_of_stage hu hn rfl ⟨rfl, rfl, rfl, rfl⟩ fun hat _ hexe => ?_
    refine ⟨hexe, hat, fun u' hu' => ?_⟩
    cases hu'
    exact hearly

theorem unlinkOld {unlinks : Bool} (h : Sound version s)
    (hs : s.unlinkOld unlinks = some s') : Kept version s s' := by
  obtain ⟨u, hu, hs⟩ := Option.bind_eq_some_iff.mp hs
  split at hs
  · rename_i hstage
    cases hs
    split
    · exact h.withoutUpdater hu
    · have hfiles := h.files
      have hearly : u.stage.early = true := by
        rw [hstage]
        rfl
      obtain ⟨hphase, hopen⟩ := hfiles.early u hu hearly
      have hhome := hfiles.home u hu (Or.inl hstage)
      refine ⟨⟨?_, fun n hn => ?_⟩, id⟩
      · exact { hfiles with
          saved := fun hinstalled => by
            rw [show s.phase = .installed from hinstalled] at hphase
            cases hphase
          early := fun w _ _ => ⟨hphase, hopen⟩
          home := fun w _ _ => hhome
          away := fun w hw hrenamed => by
            cases hw
            cases hrenamed
          kept := fun w hw hcopied => by
            cases hw
            cases hcopied
          copy := fun w _ => hfiles.copy u hu }
      · refine h.tenant_of_stage hu hn rfl ⟨rfl, rfl, rfl, rfl⟩ fun _ hlate _ => ?_
        exact absurd (hearly.symm.trans hlate) (by decide)
  · cases hs

theorem renameExe {renames : Bool} (h : Sound version s)
    (hs : s.renameExe renames = some s') : Kept version s s' := by
  obtain ⟨u, hu, hs⟩ := Option.bind_eq_some_iff.mp hs
  split at hs
  · rename_i hstage
    cases hs
    have hfiles := h.files
    have hearly : u.stage.early = true := by
      rw [hstage]
      rfl
    obtain ⟨hphase, hopen⟩ := hfiles.early u hu hearly
    obtain ⟨hexe, hsome⟩ := hfiles.home u hu (Or.inr hstage)
    split
    · rename_i hnone
      rw [hnone] at hsome
      cases hsome
    · rename_i b hb
      split
      · refine ⟨⟨?_, fun n hn => ?_⟩, id⟩
        · exact { hfiles with
            saved := fun hinstalled => by
              rw [show s.phase = .installed from hinstalled] at hphase
              cases hphase
            labelled := fun hinstalled => by
              rw [show s.phase = .installed from hinstalled] at hphase
              cases hphase
            back := fun hback => by
              rw [show s.phase = .rolledBack from hback] at hphase
              cases hphase
            early := fun w _ _ => ⟨hphase, hopen⟩
            home := fun w hw hwhere => by
              cases hw
              rcases hwhere with hwhere | hwhere <;> cases hwhere
            away := fun w _ _ => ⟨rfl, hb.symm.trans hexe⟩
            kept := fun w hw hcopied => by
              cases hw
              cases hcopied
            copy := fun w _ => hfiles.copy u hu }
        · obtain ⟨m, hm, hmoved⟩ := Option.map_eq_some_iff.mp hn
          rw [← hmoved]
          refine h.tenant_of_stage hu hm rfl ⟨rfl, rfl, rfl, rfl⟩ fun _ hlate _ => ?_
          exact absurd (hearly.symm.trans hlate) (by decide)
      · exact h.withoutUpdater hu
  · cases hs

/-- Before the copy, no node sits on the binary. -/
theorem takeBack (h : Sound version s) {u : Watchdog Bin} (hu : s.updater = some u)
    (hstage : u.stage = .renamed) : Kept version s s.takeBack := by
  have hfiles := h.files
  have hearly : u.stage.early = true := by
    rw [hstage]
    rfl
  obtain ⟨hphase, hopen⟩ := hfiles.early u hu hearly
  unfold System.takeBack
  split
  · refine ⟨⟨?_, fun n hn => ?_⟩, id⟩
    · have hbare : Files version s.exe s.old s.updaterExe s.origin none s.phase s.rollbacks s.load :=
        hfiles.alone
      exact { hbare with
        saved := fun hinstalled => by
          rw [show s.phase = .installed from hinstalled] at hphase
          cases hphase
        labelled := fun hinstalled => by
          rw [show s.phase = .installed from hinstalled] at hphase
          cases hphase
        back := fun hback => by
          rw [show s.phase = .rolledBack from hback] at hphase
          cases hphase
        home := fun w hw => by cases hw
        away := fun w hw => by cases hw
        kept := fun w hw => by cases hw }
    · refine h.tenant_of_stage hu hn rfl ⟨rfl, rfl, rfl, rfl⟩ fun _ hlate _ => ?_
      exact absurd (hearly.symm.trans hlate) (by decide)
  · exact h.withoutUpdater hu

theorem copyStaged {copies : Bool} (h : Sound version s)
    (hlabel : ∀ b, s.staged = some b → version b = s.load.toVersion)
    (hs : s.copyStaged copies = some s') : Kept version s s' := by
  obtain ⟨u, hu, hs⟩ := Option.bind_eq_some_iff.mp hs
  split at hs
  · rename_i hstage
    cases hs
    have hfiles := h.files
    have hearly : u.stage.early = true := by
      rw [hstage]
      rfl
    obtain ⟨hphase, hopen⟩ := hfiles.early u hu hearly
    have hold := (hfiles.away u hu hstage).2
    split
    · rename_i b hb
      split
      · refine ⟨⟨?_, fun n hn => ?_⟩, id⟩
        · exact {
            once := hfiles.once
            notYet := fun _ => hfiles.notYet (by rw [hphase]; decide)
            saved := fun _ => hold
            labelled := fun _ c hc => by
              cases hc
              exact hlabel b hb
            back := fun hback => by cases hback
            early := fun w hw hno => by
              cases hw
              cases hno
            home := fun w hw hno => by
              cases hw
              rcases hno with hno | hno <;> cases hno
            away := fun w hw hno => by
              cases hw
              cases hno
            kept := fun w _ _ => hold
            copy := fun w _ => hfiles.copy u hu }
        · refine h.tenant_of_stage hu hn rfl ⟨rfl, rfl, rfl, rfl⟩ fun _ hlate _ => ?_
          exact absurd (hearly.symm.trans hlate) (by decide)
      · exact h.takeBack hu hstage
    · exact h.takeBack hu hstage
  · cases hs

/-- The file of a running program is not written to. -/
theorem not_atExe {n : Node Bin} (hlocked : s.locked = false) (hn : s.node = some n) :
    n.atExe = false := by
  rw [System.locked, hn] at hlocked
  exact hlocked

theorem verifyCopy {sha256 : Bin → String} (h : Sound version s)
    (hs : s.verifyCopy sha256 = some s') : Kept version s s' := by
  obtain ⟨u, hu, hs⟩ := Option.bind_eq_some_iff.mp hs
  split at hs
  · rename_i hstage
    cases hs
    have hfiles := h.files
    split
    · rename_i b c hb hc
      split
      · exact h.setStage hu rfl (by decide)
      · split
        · rename_i hback
          rw [Bool.and_eq_true, Bool.not_eq_true'] at hback
          have hold := hfiles.kept u hu hstage
          refine ⟨⟨?_, fun n hn => ?_⟩, id⟩
          · have hbare : Files version s.exe s.old s.updaterExe s.origin none s.phase s.rollbacks
                s.load := hfiles.alone
            exact { hbare with
              notYet := fun hno => by
                apply hfiles.notYet
                intro hrolled
                simp only [hrolled] at hno
                exact hno rfl
              saved := fun hinstalled => by
                dsimp only at hinstalled
                split at hinstalled
                · cases hinstalled
                · rename_i hno
                  exact absurd hinstalled hno
              labelled := fun hinstalled => by
                dsimp only at hinstalled
                split at hinstalled
                · cases hinstalled
                · rename_i hno
                  exact absurd hinstalled hno
              back := fun _ => hold
              early := fun w hw => by cases hw
              home := fun w hw => by cases hw
              away := fun w hw => by cases hw
              kept := fun w hw => by cases hw }
          · refine h.tenant_of_stage hu hn rfl ⟨rfl, rfl, rfl, rfl⟩ fun hat _ _ => ?_
            exact absurd (hat.symm.trans (not_atExe hback.2 hn)) (by decide)
        · exact h.withoutUpdater hu
    · exact h.withoutUpdater hu
  · cases hs

/-- A node that is there is not the one that was meant. -/
theorem unwatched (h : Sound version s) : Kept version s { s with node := s.unwatched } := by
  refine ⟨⟨h.files, fun n hn => ?_⟩, id⟩
  obtain ⟨m, hm, rfl⟩ := Option.map_eq_some_iff.mp hn
  have ht := h.tenant m hm
  refine ⟨?_, ht.waits, ht.seated, ht.named⟩
  have hfits := ht.fits
  show Fits _ _ m.task
  cases htask : m.task <;> rw [htask] at hfits <;> exact hfits

theorem launchNew {starts : Bool} (h : Sound version s)
    (hs : s.launchNew starts = some s') : Kept version s s' := by
  obtain ⟨u, hu, hs⟩ := Option.bind_eq_some_iff.mp hs
  split at hs
  · cases hs
    split
    · rename_i b hb
      split
      · split
        · have hwatch : Kept version s (s.setStage u .watching) := h.setStage hu rfl (by decide)
          have hstart := hwatch.1.startNode true (b := b) hb
          exact ⟨hstart.1, fun hboot => hwatch.2 (hstart.2 hboot)⟩
        · have hother := h.unwatched
          have hwatch : Kept version { s with node := s.unwatched }
              ({ s with node := s.unwatched }.setStage u .watching) :=
            hother.1.setStage hu rfl (by decide)
          exact ⟨hwatch.1, fun hboot => hother.2 (hwatch.2 hboot)⟩
      · exact h.setStage hu rfl (by decide)
    · exact h.setStage hu rfl (by decide)
  · cases hs

theorem rollback {copies : Bool} (h : Sound version s) (hphase : s.phase = .installed)
    (hs : s.rollback copies = some s') : Kept version s s' := by
  obtain ⟨u, hu, hs⟩ := Option.bind_eq_some_iff.mp hs
  split at hs
  · cases hs
    split
    · rename_i hcan
      rw [Bool.and_eq_true, Bool.not_eq_true'] at hcan
      refine ⟨⟨?_, fun n hn => ?_⟩, id⟩
      · exact h.files_rolledBack hphase (h.files.copy u hu) none (Or.inl rfl)
      · refine h.tenant_of_stage hu hn rfl ⟨rfl, rfl, rfl, rfl⟩ fun hat _ _ => ?_
        exact absurd (hat.symm.trans (not_atExe hcan.2 hn)) (by decide)
    · exact h.withoutUpdater hu
  · cases hs

theorem confirmUpdate (h : Sound version s)
    (hdone : s.marker = none ∨ s.load.bootOk = true) (hs : s.confirmUpdate = some s') :
    Kept version s s' := by
  obtain ⟨u, hu, hs⟩ := Option.bind_eq_some_iff.mp hs
  split at hs
  · cases hs
    have hsame : s.marker.map (fun m => { m with bootOk := true }) = s.marker := by
      rcases hdone with hnone | hboot
      · rw [hnone]
        rfl
      · cases hmarker : s.marker with
        | none => rfl
        | some m =>
            rw [System.load, hmarker] at hboot
            show some { m with bootOk := true } = some m
            rw [← show m.bootOk = true from hboot]
    rw [hsame]
    exact h.withoutUpdater hu
  · cases hs

end Sound

/-! ## §5 Runs -/

/-- The process that sets `boot_ok`, by its binary. -/
def confirmer (s : System Bin) : Move Bin → Option Bin
  | .confirm => s.node.map fun n => n.bin
  | .confirmUpdate => s.updater.map fun u => u.bin
  | _ => none

/-- A node confirms an update when it was started from the new binary, the updater when a node has;
a rollback finds the new binary in place; and the staged file is of the version that it is for. -/
def Orderly (version : Bin → String) (s : System Bin) : Move Bin → Prop
  | .confirm => s.load.unconfirmed = true → ∀ n, s.node = some n → n.fresh = true
  | .confirmUpdate => s.marker = none ∨ s.load.bootOk = true
  | .beginRollback _ => s.old.isSome = true → s.phase = .installed
  | .copyOld => s.phase = .installed
  | .rollback _ => s.phase = .installed
  | .copyStaged _ => ∀ b, s.staged = some b → version b = s.load.toVersion
  | _ => True

/-- One rollback for an `apply`, and behind it the binary that ran before. -/
def Settled (s : System Bin) : Prop :=
  s.rollbacks ≤ 1 ∧ (s.phase = .rolledBack → s.exe = s.origin)

/-- `boot_ok` is set by the version that the state file names; what starts behind a rollback is the
binary that ran before; and the automatic check leaves everything as it is. -/
structure Rightful (version : Bin → String) (s : System Bin) (e : Move Bin) (s' : System Bin) :
    Prop where
  confirmed : s.load.bootOk = false → s'.load.bootOk = true →
    ∃ b, confirmer s e = some b ∧ version b = s'.load.toVersion
  restarted : e = .start → s.phase = .rolledBack → ∃ n, s'.node = some n ∧ s.origin = some n.bin
  checked : e = .check → s' = s

theorem sound_initial (exe old updaterExe staged : Option Bin) :
    Sound version (.initial exe old updaterExe staged) where
  files := {
    once := Nat.zero_le 1
    notYet := fun _ => rfl
    saved := fun hphase => by cases hphase
    labelled := fun hphase => by cases hphase
    back := fun hphase => by cases hphase
    early := fun u hu => by cases hu
    home := fun u hu => by cases hu
    away := fun u hu => by cases hu
    kept := fun u hu => by cases hu
    copy := fun u hu => by cases hu }
  tenant n hn := by cases hn

section Runs

variable [VersionText] {sha256 : Bin → String} {cfg : Settings} {s s' : System Bin} {e : Move Bin}

/-- **Step lemma.** A step that meets the condition keeps the invariant, and sets `boot_ok` only for
the version in the state file. -/
theorem Sound.step (h : Sound version s) (hok : Orderly version s e)
    (hs : (updating version sha256 cfg).step s e = some s') :
    Sound version s' ∧ (s'.load.bootOk = true → s.load.bootOk = true ∨
      ∃ b, confirmer s e = some b ∧ version b = s'.load.toVersion) := by
  have hkept : Sound.Kept version s s' → Sound version s' ∧ (s'.load.bootOk = true →
      s.load.bootOk = true ∨ ∃ b, confirmer s e = some b ∧ version b = s'.load.toVersion) :=
    fun hk => ⟨hk.1, fun hboot => Or.inl (hk.2 hboot)⟩
  cases e with
  | check =>
      cases hs
      exact hkept ⟨h, id⟩
  | stage file =>
      cases hs
      exact hkept ⟨⟨h.files, fun n hn =>
        have ht := h.tenant n hn
        ⟨by
          have hfits := ht.fits
          cases htask : n.task <;> rw [htask] at hfits <;> exact hfits,
          ht.waits, ht.seated, ht.named⟩⟩, id⟩
  | start => exact hkept (h.start hs)
  | crash => exact hkept (h.crash hs)
  | prepare target force => exact hkept (h.prepare hs)
  | announce => exact hkept (h.announce hs)
  | launchUpdater starts => exact hkept (h.launchUpdater hs)
  | exit => exact hkept (h.exit hs)
  | confirm =>
      obtain ⟨hsound, hboot⟩ := h.confirm hok hs
      refine ⟨hsound, fun hset => ?_⟩
      rcases hboot hset with hbefore | ⟨n, hn, hname⟩
      · exact Or.inl hbefore
      · exact Or.inr ⟨n.bin, by rw [confirmer, hn]; rfl, hname⟩
  | beginRollback renames => exact hkept (h.beginRollback hok hs)
  | copyOld => exact hkept (h.copyOld hok hs)
  | recordRollback => exact hkept (h.recordRollback hs)
  | lockVersion => exact hkept (h.lockVersion hs)
  | scheduleRestart => exact hkept (h.scheduleRestart hs)
  | unlinkOld unlinks => exact hkept (h.unlinkOld hs)
  | renameExe renames => exact hkept (h.renameExe hs)
  | copyStaged copies => exact hkept (h.copyStaged hok hs)
  | verifyCopy => exact hkept (h.verifyCopy hs)
  | launchNew starts => exact hkept (h.launchNew hs)
  | rollback copies => exact hkept (h.rollback hok hs)
  | confirmUpdate => exact hkept (h.confirmUpdate hok hs)
  | stopUpdater => exact hkept (h.stopUpdater hs)

omit [VersionText] in
/-- What is started is the binary in place. -/
theorem start_bin (hs : s.start = some s') :
    ∃ n, s'.node = some n ∧ s.exe = some n.bin := by
  unfold System.start at hs
  split at hs
  · rename_i b hnode hexe
    cases hs
    unfold System.startNode
    dsimp only
    split
    · split
      · exact ⟨_, rfl, hexe⟩
      · exact ⟨_, rfl, hexe⟩
    · exact ⟨_, rfl, hexe⟩
  · cases hs

/-- **The boot marker does what it is for**, in every run that meets the condition, wherever the node
and the updater are stopped. -/
theorem boot_marker (version sha256 : Bin → String) (cfg : Settings)
    (exe old updaterExe staged : Option Bin) (events : List (Move Bin))
    (hguard : (updating version sha256 cfg).Guarded (Orderly version)
      (.initial exe old updaterExe staged) events) :
    (updating version sha256 cfg).Always Settled (.initial exe old updaterExe staged) events ∧
      (updating version sha256 cfg).Each (Rightful version)
        (.initial exe old updaterExe staged) events := by
  have hstep : ∀ (s : System Bin) e s', Sound version s → Orderly version s e →
      (updating version sha256 cfg).step s e = some s' → Sound version s' :=
    fun s e s' h hok hs => (h.step hok hs).1
  have hstart : Sound version (.initial exe old updaterExe staged) :=
    sound_initial exe old updaterExe staged
  constructor
  · exact Machine.always_of_guarded (fun s h => ⟨h.files.once, h.files.back⟩) hstep hstart hguard
  · refine Machine.each_of_guarded (fun s e s' h hok hs => ⟨?_, ?_, ?_⟩) hstep hstart hguard
    · intro hbefore hset
      rcases (h.step hok hs).2 hset with hno | hyes
      · exact absurd (hbefore.symm.trans hno) (by decide)
      · exact hyes
    · rintro rfl hphase
      obtain ⟨n, hn, hexe⟩ := start_bin hs
      exact ⟨n, hn, (h.files.back hphase).symm.trans hexe⟩
    · rintro rfl
      cases hs
      rfl

end Runs

/-! ## §6 A marker that outlives its update -/

section Concrete

attribute [local instance] asciiVersions

/-- Binaries that are their own version, and their own hash. -/
def labelled : Machine (System String) (Move String) := updating id id ⟨true, ["nas"], true, false, true⟩

/-- `apply` of 2.0.0, up to the exit of the node. -/
def applied : List (Move String) :=
  [.start, .prepare "2.0.0" false, .announce, .launchUpdater true, .exit]

/-- The replacement, up to the start of the new version. -/
def replaced : List (Move String) :=
  [.unlinkOld true, .renameExe true, .copyStaged true, .verifyCopy, .launchNew true]

/-- `_do_rollback` -/
def backToOld : List (Move String) :=
  [.beginRollback true, .copyOld, .recordRollback, .lockVersion, .scheduleRestart, .exit]

/-- **Rolled back twice, confirmed by the old version, rolled back to an older one.** -/
theorem marker_outlives_rollback :
    -- the second rollback is that of the old version, which the first one has started
    ((labelled.run (.initial (some "1.0.0") none none (some "2.0.0"))
      (applied ++ replaced ++ [.stopUpdater, .crash, .start, .crash, .start] ++ backToOld ++
        [.start] ++ backToOld)).map fun s => s.rollbacks) = some 2 ∧
    -- the updater rolls back, and the old version confirms the new one
    ((labelled.run (.initial (some "1.0.0") none none (some "2.0.0"))
      (applied ++ replaced ++ [.crash, .rollback true, .start, .confirm])).map fun s =>
        (s.node.map fun n => n.bin, s.load.toVersion, s.load.bootOk)) =
      some (some "1.0.0", "2.0.0", true) ∧
    -- the updater dies before the replacement, and the `.old` of an earlier update comes back
    ((labelled.run (.initial (some "1.0.0") (some "0.9.0") none (some "2.0.0"))
      (applied ++ [.stopUpdater, .start, .crash, .start, .crash, .start] ++ backToOld)).map
        fun s => (s.origin, s.exe)) = some (some "1.0.0", some "0.9.0") := by
  refine ⟨?_, ?_, ?_⟩ <;> decide +kernel

/-- A new version that is rolled back after three starts. -/
theorem third_start_rolls_back :
    labelled.Always Settled (.initial (some "1.0.0") none none (some "2.0.0"))
      (applied ++ replaced ++ [.stopUpdater, .crash, .start, .crash, .start] ++ backToOld) ∧
    labelled.Each (Rightful id) (.initial (some "1.0.0") none none (some "2.0.0"))
      (applied ++ replaced ++ [.stopUpdater, .crash, .start, .crash, .start] ++ backToOld) := by
  apply boot_marker
  iterate 7 refine Machine.guarded_cons rfl trivial ?_
  refine Machine.guarded_cons rfl (fun b hb => by cases hb; decide +kernel) ?_
  iterate 7 refine Machine.guarded_cons rfl trivial ?_
  -- the rollback finds the new binary in place
  refine Machine.guarded_cons rfl (fun _ => rfl) ?_
  refine Machine.guarded_cons rfl rfl ?_
  iterate 4 refine Machine.guarded_cons rfl trivial ?_
  trivial

end Concrete

end NetPulse.Updater
