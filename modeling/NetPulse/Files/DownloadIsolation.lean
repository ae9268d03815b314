import NetPulse.Files.DownloadApart

/-
# NetPulse.Files.DownloadIsolation — downloads that go on at the same time

`downloads_isolated`: while no two downloads that go on have a file in common, each of them comes to
what it would have come to if no other had made a step, and a file that is in its place stays as it
is, unless the same file of the same source is downloaded again. Without the condition two downloads
from different directories with one last component write to one `.part`.
-/

namespace NetPulse.Files

open NetPulse.Lib

variable {node : String} {s s' r : Receiver} {label : String}

/-! ## §1 Whose events -/

/-- An event that a download sees. -/
def Event.concerns (label : String) : Event → Bool
  | .start l .. => l = label
  | .move l _ => l = label
  | .restart => true

/-- The loop is in the middle of what is busy. -/
def LoopHeld (s : Receiver) : Prop :=
  ∀ l t, s.downloads l = some t → t.stage.busy = true → s.loop = some l

theorem set_loop_busy {res : Folder × Transfer} (h : res.2.stage.busy = true) :
    (s.set label res).loop = some label := if_pos h

theorem set_loop_idle {res : Folder × Transfer} (h : res.2.stage.busy = false) :
    (s.set label res).loop = if s.loop = some label then none else s.loop :=
  if_neg (Bool.eq_false_iff.mp h)

/-- The loop after an event of another download. -/
theorem set_loop_other {res : Folder × Transfer} {l : String} (hl : label ≠ l)
    (h : res.2.stage.busy = true → s.loop ≠ some l) :
    (s.set label res).loop = some l ↔ s.loop = some l := by
  cases hbusy : res.2.stage.busy with
  | true =>
      rw [set_loop_busy hbusy]
      exact iff_of_false (fun heq => hl (Option.some.inj heq)) (h hbusy)
  | false =>
      rw [set_loop_idle hbusy]
      split
      · rename_i hloop
        rw [hloop]
        exact iff_of_false (fun heq => by cases heq) (fun heq => hl (Option.some.inj heq))
      · exact Iff.rfl

section Steps

variable [Sha256] [PathText]

omit [PathText] in
theorem threaded_stage {m : Move} {d d' : Folder} {t t' : Transfer} (hm : m.threaded = true)
    (h : advance d label t m = some (d', t')) : t'.stage = t.stage := by
  cases advances_of_eq h with
  | cancelPop | cancelReturn => rfl
  | _ => cases hm

omit [PathText] in
/-- What is busy after a move has the loop. -/
theorem busy_of_move {m : Move} {t t' : Transfer} {d' : Folder} (hs : LoopHeld s)
    (ht : s.downloads label = some t) (h : advance s.disk label t m = some (d', t'))
    (hloop : m.threaded = true ∨ s.loop = none ∨ s.loop = some label)
    (hbusy : t'.stage.busy = true) : s.loop = none ∨ s.loop = some label := by
  rcases hloop with hthread | hloop
  · rw [threaded_stage hthread h] at hbusy
    exact Or.inr (hs label t ht hbusy)
  · exact hloop

theorem loopHeld_step {e : Event} (hs : LoopHeld s) (h : (receiving node).step s e = some s') :
    LoopHeld s' := by
  have hset : ∀ {l : String} {res : Folder × Transfer}, (res.2.stage.busy = true →
      s.loop = none ∨ s.loop = some l) → LoopHeld (s.set l res) := by
    intro l res hfree l' t ht hbusy
    rcases set_cases ht with ⟨rfl, rfl⟩ | ⟨hne, hold⟩
    · exact set_loop_busy hbusy
    · have hheld := hs l' t hold hbusy
      refine (set_loop_other hne.symm fun hres => ?_).mpr hheld
      rcases hfree hres with hnone | hsome
      · rw [hnone] at hheld
        cases hheld
      · rw [hsome] at hheld
        exact absurd (Option.some.inj hheld).symm hne
  cases e with
  | start l dst saveAs resume man =>
      obtain ⟨-, hloop, ⟨-, rfl⟩ | ⟨-, rfl⟩⟩ := step_start h
      · exact hs
      · exact hset fun _ => Or.inl hloop
  | move l m =>
      obtain ⟨t, d', t', ht, hadvance, hloop, rfl⟩ := step_move h
      exact hset (busy_of_move hs ht hadvance hloop)
  | restart =>
      obtain rfl := Option.some.inj h
      intro l t ht hbusy
      obtain ⟨t₀, -, rfl⟩ := restarted_cases ht
      cases hbusy

/-! ## §2 Alone -/

/-- The download of the label is the same in both, and so are its files as long as it goes on. -/
structure Seen (label : String) (s r : Receiver) : Prop where
  known : (s.downloads label).isSome = true
  record : r.downloads label = s.downloads label
  files : ∀ t, s.downloads label = some t → t.live = true →
    Disk.Agree t.Names (t.Own label s.disk) s.disk r.disk
  loop : r.loop = none ∨ r.loop = some label
  held : s.loop = some label ↔ r.loop = some label

omit [Sha256] [PathText] in
theorem set_loop_self {res res' : Folder × Transfer} (hrecord : res'.2 = res.2)
    (hloop : r.loop = none ∨ r.loop = some label) :
    ((r.set label res').loop = none ∨ (r.set label res').loop = some label) ∧
      ((s.set label res).loop = some label ↔ (r.set label res').loop = some label) := by
  cases hbusy : res.2.stage.busy with
  | true =>
      rw [set_loop_busy hbusy, set_loop_busy (by rw [hrecord]; exact hbusy)]
      exact ⟨Or.inr rfl, Iff.rfl⟩
  | false =>
      rw [set_loop_idle hbusy, set_loop_idle (by rw [hrecord]; exact hbusy)]
      have hr : (if r.loop = some label then none else r.loop) = none := by
        rcases hloop with hnone | hsome
        · rw [hnone]
          rfl
        · rw [if_pos hsome]
      rw [hr]
      refine ⟨Or.inl rfl, iff_of_false (fun heq => ?_) (fun heq => by cases heq)⟩
      split at heq
      · cases heq
      · rename_i hne
        exact hne heq

/-- **A step of the download itself** is the same alone. -/
theorem seen_own {e : Event} (hseen : Seen label s r) (hok : Apart s e)
    (h : (receiving node).step s e = some s') (hmine : e.concerns label = true) :
    ∃ r', (receiving node).step r e = some r' ∧ Seen label s' r' := by
  cases e with
  | start l dst saveAs resume man =>
      have hl : l = label := of_decide_eq_true hmine
      obtain ⟨hnew, -, -⟩ := step_start h
      have hknown := hseen.known
      rw [← hl, hnew] at hknown
      cases hknown
  | move l m =>
      obtain rfl : l = label := of_decide_eq_true hmine
      obtain ⟨t, d', t', ht, hadvance, -, rfl⟩ := step_move h
      have hkept := advance_local hadvance
      have hsame : ∃ d₂', advance r.disk l t m = some (d₂', t') ∧
          (t'.live = true → Disk.Agree t'.Names (t'.Own l d') d' d₂') := by
        cases hlive : t.live with
        | true =>
            obtain ⟨d₂', hr, hagree⟩ := advance_agree (hseen.files t ht hlive) hadvance
            refine ⟨d₂', hr, fun _ => ⟨fun n hn => ?_, fun i hi => ?_⟩⟩
            · exact hagree.dir n (hkept.kept.names.mp hn)
            · exact hagree.data i (hkept.own i hi)
        | false =>
            obtain ⟨d₂', hr⟩ := (advance_ended hlive hadvance).2.1 r.disk
            refine ⟨d₂', hr, fun hlive' => ?_⟩
            rw [advance_not_live hok ht hlive hadvance] at hlive'
            cases hlive'
      obtain ⟨d₂', hr, hagree⟩ := hsame
      have hloop : ((r.set l (d₂', t')).loop = none ∨ (r.set l (d₂', t')).loop = some l) ∧
          ((s.set l (d', t')).loop = some l ↔ (r.set l (d₂', t')).loop = some l) :=
        set_loop_self rfl hseen.loop
      refine ⟨r.set l (d₂', t'), ?_, ?_⟩
      · simp only [receiving, hseen.record, ht, Option.bind_some]
        rw [if_pos, hr]
        · rfl
        · simp only [Bool.or_eq_true, decide_eq_true_eq, or_assoc]
          exact Or.inr hseen.loop
      · refine ⟨by rw [set_self]; rfl, by rw [set_self, set_self], ?_, hloop.1, hloop.2⟩
        intro t₁ ht₁ hlive₁
        rw [set_self, Option.some.injEq] at ht₁
        rw [← ht₁] at hlive₁ ⊢
        exact hagree hlive₁
  | restart =>
      obtain rfl := Option.some.inj h
      refine ⟨r.restarted, rfl, ?_, ?_, ?_, Or.inl rfl, Iff.rfl⟩
      · rw [restarted_downloads, Option.isSome_map]
        exact hseen.known
      · rw [restarted_downloads, restarted_downloads, hseen.record]
      · intro t ht hlive
        obtain ⟨t₀, -, rfl⟩ := restarted_cases ht
        cases hlive

/-- **A step of another download** is none. -/
theorem seen_other {e : Event} (hseen : Seen label s r) (hs : Separate s) (hheld : LoopHeld s)
    (hok : Apart s e) (h : (receiving node).step s e = some s')
    (hother : e.concerns label = false) : Seen label s' r := by
  cases e with
  | start l dst saveAs resume man =>
      have hl : label ≠ l := fun heq => of_decide_eq_false hother heq.symm
      obtain ⟨-, hloop, ⟨-, rfl⟩ | ⟨-, rfl⟩⟩ := step_start h
      · exact hseen
      · have hsame := set_other s (s.disk, enter node s.disk dst saveAs resume man) hl
        refine ⟨hsame ▸ hseen.known, hseen.record.trans hsame.symm, fun t ht hlive => ?_,
          hseen.loop, (set_loop_other hl.symm fun _ => ?_).trans hseen.held⟩
        · exact hseen.files t (hsame.symm.trans ht) hlive
        · rw [hloop]
          exact fun heq => by cases heq
  | move l m =>
      have hl : label ≠ l := fun heq => of_decide_eq_false hother heq.symm
      have hstep := h
      obtain ⟨t, d', t', ht, hadvance, hloop, rfl⟩ := step_move h
      have hsame := set_other s (d', t') hl
      refine ⟨hsame ▸ hseen.known, hseen.record.trans hsame.symm, fun t₁ ht₁ hlive₁ => ?_,
        hseen.loop, (set_loop_other hl.symm fun hbusy => ?_).trans hseen.held⟩
      · obtain ⟨-, hagree⟩ := others_agree hs hok hstep hl (hsame.symm.trans ht₁) hlive₁
        have hfiles := hseen.files t₁ (hsame.symm.trans ht₁) hlive₁
        have hown : ∀ i, t₁.Own label d' i → t₁.Own label s.disk i := by
          rintro i (hmade | hpart | hhandle)
          · exact Or.inl hmade
          · exact Or.inr (Or.inl (by rw [← hagree.dir t₁.part (Or.inr rfl)]; exact hpart))
          · exact Or.inr (Or.inr hhandle)
        refine ⟨fun n hn => ?_, fun i hi => ?_⟩
        · rw [hfiles.dir n hn, hagree.dir n hn]
        · rw [hfiles.data i (hown i hi), hagree.data i (Or.inl (hown i hi))]
      · rcases busy_of_move hheld ht hadvance hloop hbusy with hnone | hsome
        · rw [hnone]
          exact fun heq => by cases heq
        · rw [hsome]
          exact fun heq => hl (Option.some.inj heq).symm
  | restart => cases hother

/-- **Alone**: what a download comes to, it comes to without the steps of the others. -/
theorem alone_run {es : List Event} {t : Receiver} (hs : Separate s) (hheld : LoopHeld s)
    (hg : (receiving node).Guarded Apart s es) (hr : (receiving node).run s es = some t)
    (hseen : Seen label s r) :
    ∃ r', (receiving node).run r (es.filter (Event.concerns label)) = some r' ∧ Seen label t r' := by
  induction es generalizing s r with
  | nil =>
      cases hr
      exact ⟨r, rfl, hseen⟩
  | cons e es ih =>
      obtain ⟨s', hs', hrest⟩ := (Machine.run_cons_eq_some _).mp hr
      have hinv := separate_step hs hg.1 hs'
      have hloop := loopHeld_step hheld hs'
      cases hmine : e.concerns label with
      | true =>
          obtain ⟨r₁, hr₁, hseen₁⟩ := seen_own hseen hg.1 hs' hmine
          obtain ⟨r', hr', hseen'⟩ := ih hinv hloop (hg.2 s' hs') hrest hseen₁
          refine ⟨r', ?_, hseen'⟩
          rw [List.filter_cons_of_pos hmine]
          exact (Machine.run_cons_eq_some _).mpr ⟨r₁, hr₁, hr'⟩
      | false =>
          rw [List.filter_cons_of_neg (by rw [hmine]; exact Bool.false_ne_true)]
          exact ih hinv hloop (hg.2 s' hs') hrest (seen_other hseen hs hheld hg.1 hs' hmine)

end Steps

/-! ## §3 Files that are in their place -/

/-- The downloads are of one file of one source. -/
def SameSource (t t' : Transfer) : Prop := t.src = t'.src ∧ t.share = t'.share ∧ t.path = t'.path

/-- **The condition** for files that are in their place: no `.part` is one of them, and a download
goes to the place of one only if it is the same file of the same source. -/
def Unclaimed [Sha256] [PathText] (s : Receiver) : Event → Prop
  | .start _ dst saveAs _ man => present s.disk saveAs man = false →
      ∀ l t, s.downloads l = some t → t.replaced = true →
        partOf (finalName saveAs man) ≠ t.name ∧ (finalName saveAs man = t.name →
          dst = t.src ∧ man.share = t.share ∧ man.path = t.path)
  | .move label (.cancelReturn true) => ∀ t, s.downloads label = some t →
      ∀ l t', l ≠ label → s.downloads l = some t' → t'.replaced = true → t.part ≠ t'.name
  | _ => True

/-- Downloads that go on leave the files alone that are in their place. -/
structure Claimed (s : Receiver) : Prop where
  apart : ∀ {l l' t t'}, s.downloads l = some t → s.downloads l' = some t' → l ≠ l' →
    t.live = true → t'.replaced = true → t.part ≠ t'.name ∧ (t.name = t'.name → SameSource t t')
  stage : ∀ {l t}, s.downloads l = some t → t.replaced = true →
    t.stage = .marking ∨ t.live = false

/-- What the step makes of the file of a download that is in its place: nothing, or another download
of the same file of the same source takes its place. -/
def Completed (s : Receiver) (_ : Event) (s' : Receiver) : Prop :=
  ∀ l t, s.downloads l = some t → t.replaced = true →
    s'.disk.content t.name = s.disk.content t.name ∨
      ∃ l' t', l' ≠ l ∧ s.downloads l' = some t' ∧ t'.stage = .replacing ∧ t'.name = t.name ∧
        SameSource t' t

section Steps

variable [Sha256] [PathText]

theorem claimed_step {e : Event} (hs : Separate s) (hc : Claimed s) (hapart : Apart s e)
    (hok : Unclaimed s e) (h : (receiving node).step s e = some s') : Claimed s' := by
  cases e with
  | start label dst saveAs resume man =>
      obtain ⟨hnew, -, ⟨-, rfl⟩ | ⟨hpresent, rfl⟩⟩ := step_start h
      · exact hc
      · constructor
        · intro l l' t t' ht ht' hne hlive hreplaced
          rcases set_cases ht' with ⟨rfl, rfl⟩ | ⟨-, hold'⟩
          · cases hreplaced
          · rcases set_cases ht with ⟨rfl, rfl⟩ | ⟨-, hold⟩
            · exact hok hpresent l' t' hold' hreplaced
            · exact hc.apart hold hold' hne hlive hreplaced
        · intro l t ht hreplaced
          rcases set_cases ht with ⟨rfl, rfl⟩ | ⟨-, hold⟩
          · cases hreplaced
          · exact hc.stage hold hreplaced
  | move label m =>
      obtain ⟨t₀, d', t₀', ht₀, hadvance, -, rfl⟩ := step_move h
      have hkept := (advance_local hadvance).kept
      have hprogress := advance_progress hadvance
      have hlive₀ : t₀'.live = true → t₀.live = true := by
        intro hlive
        by_contra hno
        rw [advance_not_live hapart ht₀ (Bool.eq_false_iff.mpr hno) hadvance] at hlive
        cases hlive
      have hsource : SameSource t₀' = SameSource t₀ := by
        unfold SameSource
        rw [hkept.src, hkept.share, hkept.path]
      have hsource' : ∀ x, SameSource x t₀' = SameSource x t₀ := by
        intro x
        unfold SameSource
        rw [hkept.src, hkept.share, hkept.path]
      constructor
      · intro l l' t t' ht ht' hne hlive hreplaced
        rcases set_cases ht with ⟨rfl, rfl⟩ | ⟨-, hold⟩ <;>
          rcases set_cases ht' with ⟨rfl, rfl⟩ | ⟨-, hold'⟩
        · exact absurd rfl hne
        · rw [hkept.part, hkept.name, hsource]
          exact hc.apart ht₀ hold' hne (hlive₀ hlive) hreplaced
        · rw [hkept.name, hsource']
          rcases hprogress.replaced with hsame | ⟨hbefore, -⟩
          · exact hc.apart hold ht₀ hne hlive (hsame ▸ hreplaced)
          · have hactive : t₀.live = true := live_of_active (by rw [hbefore]; rfl)
            have hnames := fun n hn => hs.names (n := n) hold ht₀ hne hlive hactive hn
            exact ⟨fun heq => hnames t.part (Or.inr rfl) (Or.inl heq), fun heq =>
              absurd (Or.inl heq) (hnames t.name (Or.inl rfl))⟩
        · exact hc.apart hold hold' hne hlive hreplaced
      · intro l t ht hreplaced
        rcases set_cases ht with ⟨rfl, rfl⟩ | ⟨-, hold⟩
        · rcases hprogress.replaced with hsame | ⟨-, hafter⟩
          · rcases hc.stage ht₀ (hsame ▸ hreplaced) with hmarking | hended
            · rcases (advance_marking hmarking hadvance).1 with hst | ⟨hst, -⟩
              · exact Or.inl hst
              · refine Or.inr ?_
                rw [Transfer.live, hst]
                rfl
            · exact Or.inr (advance_not_live hapart ht₀ hended hadvance)
          · exact Or.inl hafter
        · exact hc.stage hold hreplaced
  | restart =>
      obtain rfl := Option.some.inj h
      constructor
      · intro l l' t t' ht ht' hne hlive
        obtain ⟨t₁, -, rfl⟩ := restarted_cases ht
        cases hlive
      · intro l t ht _
        obtain ⟨t₁, -, rfl⟩ := restarted_cases ht
        exact Or.inr rfl

theorem completed_step {e : Event} (hs : Separate s) (hc : Claimed s) (hapart : Apart s e)
    (hok : Unclaimed s e) (h : (receiving node).step s e = some s') : Completed s e s' := by
  intro l t ht hreplaced
  cases e with
  | start label dst saveAs resume man =>
      obtain ⟨-, -, ⟨-, rfl⟩ | ⟨-, rfl⟩⟩ := step_start h
      · exact Or.inl rfl
      · exact Or.inl rfl
  | restart =>
      obtain rfl := Option.some.inj h
      exact Or.inl rfl
  | move label m =>
      obtain ⟨t₀, d', t₀', ht₀, hadvance, -, rfl⟩ := step_move h
      show d'.content t.name = _ ∨ _
      have hended : t₀.live = false → t₀.part ≠ t.name ∨ m ≠ .cancelReturn true →
          d'.content t.name = s.disk.content t.name := by
        intro hended hpart
        rcases (advance_ended hended hadvance).1 with rfl | ⟨hm, rfl⟩
        · rfl
        · exact unlink_content (hpart.resolve_right fun hne => hne hm)
      by_cases hl : l = label
      · rw [hl, ht₀] at ht
        obtain rfl := Option.some.inj ht
        refine Or.inl ?_
        rcases hc.stage ht₀ hreplaced with hmarking | hno
        · rcases (advance_marking hmarking hadvance).2.1 with rfl | rfl
          · rfl
          · exact unlink_content t₀.part_ne_name
        · exact hended hno (Or.inl t₀.part_ne_name)
      · cases hlive : t₀.live with
        | false =>
            refine Or.inl (hended hlive ?_)
            by_cases hm : m = .cancelReturn true
            · rw [hm] at hok
              exact Or.inl (hok t₀ ht₀ l t hl ht hreplaced)
            · exact Or.inr hm
        | true =>
            obtain ⟨hpart, hsource⟩ := hc.apart ht₀ ht (Ne.symm hl) hlive hreplaced
            by_cases hrename : t₀.name = t.name ∧ t₀.stage = .replacing
            · exact Or.inr ⟨label, t₀, Ne.symm hl, ht₀, hrename.2, hrename.1, hsource hrename.1⟩
            · exact Or.inl (content_of_local hs ht₀ (advance_local hadvance) hpart
                fun hname hst => hrename ⟨hname, hst.1⟩)

/-! ## §4 The result -/

/-- What is kept along a run. -/
structure Isolated (s : Receiver) : Prop where
  separate : Separate s
  held : LoopHeld s
  claimed : Claimed s

theorem isolated_step {e : Event} (hs : Isolated s) (hok : Apart s e ∧ Unclaimed s e)
    (h : (receiving node).step s e = some s') : Isolated s' :=
  ⟨separate_step hs.separate hok.1 h, loopHeld_step hs.held h,
    claimed_step hs.separate hs.claimed hok.1 hok.2 h⟩

omit [Sha256] [PathText] in
theorem isolated_boot (files : String → Option Bytes) : Isolated (.boot files) := by
  refine ⟨separate_boot files, fun l t ht => (by cases ht), ⟨?_, ?_⟩⟩
  · intro l l' t t' ht
    cases ht
  · intro l t ht
    cases ht

omit [Sha256] [PathText] in
theorem seen_refl (hheld : s.loop = none ∨ s.loop = some label)
    (hknown : (s.downloads label).isSome = true) : Seen label s s :=
  ⟨hknown, rfl, fun _ _ _ => ⟨fun _ _ => rfl, fun _ _ => rfl⟩, hheld, Iff.rfl⟩

/-- From where a download of the run starts on, it comes to what it comes to without the steps of
the others. -/
def Alone (node : String) (files : String → Option Bytes) (events : List Event) : Prop :=
  ∀ before after label dst saveAs resume man s₀ s₁ t,
    events = before ++ .start label dst saveAs resume man :: after →
    (receiving node).run (.boot files) before = some s₀ →
    (receiving node).step s₀ (.start label dst saveAs resume man) = some s₁ →
    (s₁.downloads label).isSome = true → (receiving node).run s₁ after = some t →
    ∃ alone, (receiving node).run s₁ (after.filter (Event.concerns label)) = some alone ∧
      alone.downloads label = t.downloads label

/-- **Downloads are isolated** along every run whose steps meet the conditions: each of them is as it
is alone, and a file that is in its place is left alone. -/
theorem downloads_isolated (node : String) (files : String → Option Bytes) (events : List Event)
    (hguard : (receiving node).Guarded (fun s e => Apart s e ∧ Unclaimed s e) (.boot files)
      events) :
    (receiving node).Each Completed (.boot files) events ∧ Alone node files events := by
  have hstep : ∀ (s : Receiver) e s', Isolated s → Apart s e ∧ Unclaimed s e →
      (receiving node).step s e = some s' → Isolated s' := fun s e s' => isolated_step
  constructor
  · refine Machine.each_of_guarded (fun s e s' hs hok h => ?_) hstep (isolated_boot files) hguard
    exact completed_step hs.separate hs.claimed hok.1 hok.2 h
  · rintro before after label dst saveAs resume man s₀ s₁ t rfl hbefore hstart hknown hafter
    obtain ⟨hg, hrest⟩ := Machine.guarded_append _ hguard hbefore
    have hs₀ := Machine.invariant_of_guarded hstep (isolated_boot files) hg hbefore
    have hs₁ := isolated_step hs₀ hrest.1 hstart
    have hloop : s₁.loop = none ∨ s₁.loop = some label := by
      obtain ⟨hnew, hidle, ⟨-, rfl⟩ | ⟨-, rfl⟩⟩ := step_start hstart
      · exact Or.inl hidle
      · cases hbusy : (enter node s₀.disk dst saveAs resume man).stage.busy with
        | true => exact Or.inr (set_loop_busy hbusy)
        | false =>
            refine Or.inl ((set_loop_idle hbusy).trans ?_)
            rw [hidle]
            rfl
    obtain ⟨alone, halone, hseen⟩ := alone_run hs₁.separate hs₁.held
      ((hrest.2 s₁ hstart).mono fun s e => And.left) hafter (seen_refl hloop hknown)
    exact ⟨alone, halone, hseen.record⟩

end Steps

/-! ## §5 Two names, and one name twice -/

attribute [local instance] slashText spelled

/-- `pub/b` of `srv`. -/
def srvFile : Offer := ⟨"x", "pub", "b", 1⟩

/-- Downloads under two names. -/
def twoNames : List Event :=
  [.start "1" "nas" none true nasFile, .start "2" "srv" none true srvFile, .move "1" .stream,
    .move "2" .stream]

theorem twoNames_isolated :
    (receiving "me").Each Completed (.boot fun _ => none) twoNames ∧
      Alone "me" (fun _ => none) twoNames := by
  apply downloads_isolated
  refine Machine.guarded_cons rfl ⟨?_, ?_⟩ (Machine.guarded_cons rfl ⟨?_, ?_⟩
    (Machine.guarded_cons rfl ⟨?_, trivial⟩ (Machine.guarded_cons rfl ⟨?_, trivial⟩ trivial)))
  · intro _ l t ht
    cases ht
  · intro _ l t ht
    cases ht
  · intro _ l t ht _ n hn hn'
    rcases set_cases ht with ⟨-, rfl⟩ | ⟨-, hold⟩
    · rcases hn with rfl | rfl <;> rcases hn' with hn' | hn' <;> exact absurd hn' (by decide)
    · cases hold
  · intro _ l t ht hreplaced
    rcases set_cases ht with ⟨-, rfl⟩ | ⟨-, hold⟩
    · cases hreplaced
    · cases hold
  · intro t ht _
    cases ht
    rfl
  · intro t ht _
    cases ht
    rfl

/-- The same with a file of the same name at the source: the second download opens the `.part` of the
first while that is being written. -/
def oneName : List Event :=
  [.start "1" "nas" none true nasFile, .start "2" "srv" none true { srvFile with path := "a" },
    .move "1" .stream, .move "1" .ack, .move "1" .openPart, .move "1" (.chunk [104] false 1),
    .move "2" .stream, .move "2" .ack, .move "2" .openPart, .move "1" (.chunk [105] false 1),
    .move "1" .eof, .move "1" .advance, .move "1" .advance]

/-- The first download fails, and alone it is done. -/
theorem oneName_collides :
    statusOf "1" ((receiving "me").run (.boot fun _ => none) oneName) = some .error ∧
      statusOf "1" ((receiving "me").run (.boot fun _ => none)
        (oneName.filter (Event.concerns "1") ++ [.move "1" .advance, .move "1" .advance])) =
          some .done := by
  constructor <;> decide +kernel

end NetPulse.Files
