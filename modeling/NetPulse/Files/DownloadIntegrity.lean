import NetPulse.Files.DownloadApart

/-
# NetPulse.Files.DownloadIntegrity — what is in a file when its download is done

`downloads_intact`: a download is done only when its file has the size and the hash that the source
has named, and is what the download started from and what has come since; until then, and when it
ends in any other way, the file that was there is left alone. What has to be excluded, besides
downloads that share a file, is that `serve` is found to have failed when the stream has been there
already: `_fail` does not ask for the status, and takes back what is done.
-/

namespace NetPulse.Files

open NetPulse.Lib

variable {node : String} {s s' : Receiver} {label : String} {d d' : Folder} {t t' : Transfer}

/-! ## §1 The bytes of a download -/

/-- The `.part` is open, and has the bytes so far. -/
def Holds (d : Folder) (t : Transfer) (h : Handle Ino UInt8) : Prop :=
  d.dir t.part = some h.ino ∧ Disk.InStep d h ∧ d.data h.ino ++ h.pending = t.base ++ t.arrived

section Definitions

variable [Sha256]

/-- What is in the file is what the download has, and it is what the source has named. -/
def Verified (t : Transfer) (data : Bytes) : Prop :=
  data = t.base ++ t.arrived ∧ (data.length : Int) = t.size ∧ Sha256.sha256 data = t.id

/-- **The invariant** of a download that goes on, stage by stage. -/
def Sound (d : Folder) (t : Transfer) : Prop :=
  match t.stage with
  | .asked | .prepared | .acked => t.arrived = [] ∧ (t.registered = true →
      if t.resumedFrom = 0 then t.base = [] else d.content t.part = some t.base)
  | .copying => t.base = []
  | .reading h | .acking h => t.registered = true → Holds d t h
  | .filling h => t.base = [] ∧ (t.registered = true →
      d.dir t.part = some h.ino ∧ Disk.InStep d h ∧ d.data h.ino ++ h.pending = [])
  | .sizing => ∀ data, d.content t.part = some data → data = t.base ++ t.arrived
  | .hashing => ∀ data, d.content t.part = some data →
      data = t.base ++ t.arrived ∧ (data.length : Int) = t.size
  | .replacing => ∀ data, d.content t.part = some data → Verified t data
  | .marking => ∃ data, d.content t.name = some data ∧ Verified t data
  | .drained | .finished | .raised | .killed => True

end Definitions

theorem Holds.agree {h : Handle Ino UInt8} (hd : Disk.Agree t.Names (Held label d t) d d')
    (hh : t.stage.handle = some h) (hholds : Holds d t h) : Holds d' t h := by
  have hdata : d'.data h.ino = d.data h.ino := hd.data _ (Or.inl (own_of_handle hh))
  refine ⟨(hd.dir t.part (Or.inr rfl)).trans hholds.1, ?_, ?_⟩
  · unfold Disk.InStep
    rw [hdata]
    exact hholds.2.1
  · rw [hdata]
    exact hholds.2.2

section Proofs

variable [Sha256]

/-- The invariant is about what belongs to the download. -/
theorem Sound.agree (hd : Disk.Agree t.Names (Held label d t) d d') (hsound : Sound d t) :
    Sound d' t := by
  have hpart : d'.content t.part = d.content t.part :=
    hd.content (Or.inr rfl) fun i hi => Or.inl (Or.inr (Or.inl hi))
  have hname : d'.content t.name = d.content t.name :=
    hd.content (Or.inl rfl) fun i hi => Or.inr hi
  cases hst : t.stage with
  | asked | prepared | acked | sizing | hashing | replacing =>
      simp only [Sound, hst, hpart] at hsound ⊢
      exact hsound
  | marking =>
      simp only [Sound, hst, hname] at hsound ⊢
      exact hsound
  | copying =>
      simp only [Sound, hst] at hsound ⊢
      exact hsound
  | reading h | acking h =>
      simp only [Sound, hst] at hsound ⊢
      exact fun hregistered => (hsound hregistered).agree hd (by rw [hst]; rfl)
  | filling h =>
      simp only [Sound, hst] at hsound ⊢
      have hdata : d'.data h.ino = d.data h.ino :=
        hd.data _ (Or.inl (own_of_handle (by rw [hst]; rfl)))
      refine ⟨hsound.1, fun hregistered => ?_⟩
      obtain ⟨hdir, hstep, hbytes⟩ := hsound.2 hregistered
      refine ⟨(hd.dir t.part (Or.inr rfl)).trans hdir, ?_, ?_⟩
      · unfold Disk.InStep
        rw [hdata]
        exact hstep
      · rw [hdata]
        exact hbytes
  | drained | finished | raised | killed =>
      simp only [Sound, hst]

/-! ## §2 One move -/

omit [Sha256] in
theorem content_of_dir {n : String} {i : Ino} (h : d.dir n = some i) :
    d.content n = some (d.data i) := congrArg (Option.map d.data) h

omit [Sha256] in
theorem dir_of_content {n : String} {data : Bytes} (h : d.content n = some data) :
    ∃ i, d.dir n = some i ∧ d.data i = data := Option.map_eq_some_iff.mp h

omit [Sha256] in
/-- All of the buffer goes to the file, with more bytes in it. -/
theorem close_content {h : Handle Ino UInt8} (hdir : d.dir t.part = some h.ino)
    (hstep : Disk.InStep d h) (pending : Bytes) :
    (d.close { h with pending := pending }).content t.part = some (d.data h.ino ++ pending) := by
  have hstep' : Disk.InStep d { h with pending := pending } := hstep
  obtain ⟨hdata, -, -⟩ := Disk.flush_inStep hstep' pending.length
  rw [content_of_dir (i := h.ino), Disk.close]
  · rw [hdata, List.take_length]
  · rw [Disk.close, Disk.flush_dir]
    exact hdir

omit [Sha256] in
theorem settle_live (h : t.settle.live = true) :
    t.registered = true ∧ t.settle = { t with stage := .sizing } := by
  unfold Transfer.settle Transfer.finalize at h ⊢
  split at h
  · cases h
  · split at h
    · cases h
    · split at h
      · rename_i h₁ h₂ hregistered
        exact ⟨hregistered, by rw [if_neg h₁, if_neg h₂, if_pos hregistered]⟩
      · cases h

omit [Sha256] in
theorem openPart_holds (harrived : t.arrived = [])
    (hbase : if t.resumedFrom = 0 then t.base = [] else d.content t.part = some t.base) :
    Holds (openPart d label t).1 t (openPart d label t).2 := by
  unfold openPart Holds
  rw [harrived, List.append_nil]
  by_cases hzero : t.resumedFrom = 0
  · rw [if_pos hzero] at hbase
    rw [if_neg (not_not.mpr hzero), hbase]
    refine ⟨Function.update_self .., Or.inr ?_, ?_⟩
    · rw [Disk.openTruncate_data]
      rfl
    · rw [Disk.openTruncate_data]
      rfl
  · rw [if_neg hzero] at hbase
    rw [if_pos hzero]
    obtain ⟨i, hdir, hdata⟩ := dir_of_content hbase
    rw [Disk.openAppend, hdir]
    exact ⟨hdir, Or.inl rfl, by rw [List.append_nil]; exact hdata⟩

omit [Sha256] in
theorem writeTo_holds {h : Handle Ino UInt8} {bytes : Bytes} {flushed : Nat}
    (hholds : Holds d t h) :
    (writeTo d h bytes flushed).1.dir t.part = some (writeTo d h bytes flushed).2.ino ∧
      Disk.InStep (writeTo d h bytes flushed).1 (writeTo d h bytes flushed).2 ∧
      (writeTo d h bytes flushed).1.data (writeTo d h bytes flushed).2.ino ++
        (writeTo d h bytes flushed).2.pending = t.base ++ (t.arrived ++ bytes) := by
  obtain ⟨hdir, hstep, hbytes⟩ := hholds
  have hstep' : Disk.InStep d { h with pending := h.pending ++ bytes } := hstep
  obtain ⟨hdata, hpending, hstep''⟩ := Disk.flush_inStep hstep' flushed
  refine ⟨?_, hstep'', ?_⟩
  · rw [writeTo_ino, writeTo, Disk.flush_dir]
    exact hdir
  · rw [writeTo_ino]
    unfold writeTo
    rw [hdata, hpending, List.append_assoc, List.take_append_drop, ← List.append_assoc, hbytes,
      List.append_assoc]

theorem Finalizes.sound (hsound : Sound d t) (h : Finalizes d t d' t')
    (hlive : t'.live = true) : Sound d' t' := by
  cases h with
  | vanished | wrongSize | wrongHash | marked => cases hlive
  | @sized data hstage hdata hsize =>
      simp only [Sound, hstage] at hsound
      intro data' hdata'
      obtain rfl := Option.some.inj (hdata.symm.trans hdata')
      exact ⟨hsound data hdata, hsize⟩
  | @hashed data hstage hdata hhash =>
      simp only [Sound, hstage] at hsound
      intro data' hdata'
      obtain rfl := Option.some.inj (hdata.symm.trans hdata')
      exact ⟨(hsound data hdata).1, (hsound data hdata).2, hhash⟩
  | @replaced i hstage hdir =>
      simp only [Sound, hstage] at hsound
      refine ⟨d.data i, ?_, hsound _ (content_of_dir hdir)⟩
      show Option.map d.data ((d.replace t.part t.name).dir t.name) = _
      rw [Disk.replace_target t.part_ne_name.symm, hdir]
      rfl

/-- What is deleted by `cancel_download` is not counted on. -/
theorem unlink_sound (hregistered : t.registered = false) (hsound : Sound d t) :
    Sound (d.unlink t.part) t := by
  have hnone : (d.unlink t.part).content t.part = none := by
    unfold Disk.content
    rw [Disk.unlink_self]
    rfl
  have hno : ∀ {p : Prop}, t.registered = true → p := fun h => by
    rw [hregistered] at h
    cases h
  cases hst : t.stage with
  | asked | prepared | acked =>
      simp only [Sound, hst] at hsound ⊢
      exact ⟨hsound.1, hno⟩
  | copying =>
      simp only [Sound, hst] at hsound ⊢
      exact hsound
  | reading h | acking h =>
      simp only [Sound, hst]
      exact hno
  | filling h =>
      simp only [Sound, hst] at hsound ⊢
      exact ⟨hsound.1, hno⟩
  | sizing | hashing | replacing =>
      simp only [Sound, hst, hnone]
      exact fun data hdata => by cases hdata
  | marking =>
      simp only [Sound, hst, unlink_content t.part_ne_name] at hsound ⊢
      exact hsound
  | drained | finished | raised | killed =>
      simp only [Sound, hst]

/-- **The invariant is kept** by a move of the download. -/
theorem advance_sound {m : Move} (hlive : t.live = true)
    (hcancel : t.cancel ≠ .never → t.registered = false) (hsound : Sound d t)
    (h : advance d label t m = some (d', t')) (hlive' : t'.live = true) : Sound d' t' := by
  cases advances_of_eq h with
  | served => exact hsound
  | refused =>
      unfold Transfer.fail
      split <;> exact hsound
  | stream hstage =>
      have hregistered : t.registered = true := by
        simp only [Transfer.live, hstage, Stage.active, Bool.false_or, Bool.and_eq_true] at hlive
        exact hlive.1.2
      simp only [Sound, hstage] at hsound
      rw [if_pos hregistered]
      exact hsound
  | ackFirst hstage | ackNext hstage =>
      simp only [Sound, hstage] at hsound
      exact hsound
  | openPart hstage =>
      simp only [Sound, hstage] at hsound
      exact fun hregistered => openPart_holds hsound.1 (hsound.2 hregistered)
  | @chunk handle bytes room flushed hstage =>
      simp only [Sound, hstage] at hsound
      unfold chunkStep at hlive' ⊢
      split at hlive' <;> rename_i hstatus
      · have hover : t.settle.live = false := by
          unfold Transfer.settle
          rw [if_pos hstatus]
          rfl
        rw [hover] at hlive'
        cases hlive'
      · rw [if_neg hstatus]
        cases room with
        | true => exact fun hregistered => writeTo_holds (hsound hregistered)
        | false => exact fun hregistered => writeTo_holds (hsound hregistered)
  | @eof handle hstage =>
      simp only [Sound, hstage] at hsound
      obtain ⟨hregistered, hsettle⟩ := settle_live hlive'
      obtain ⟨hdir, hstep, hbytes⟩ := hsound hregistered
      rw [hsettle]
      intro data hdata
      have hclose := close_content hdir hstep handle.pending
      rw [← Option.some.inj (hclose.symm.trans hdata)]
      exact hbytes
  | broken | brokenOpen | copyFails | copyFailsOpen | trouble => cases hlive'
  | copyOpen hstage =>
      simp only [Sound, hstage] at hsound
      refine ⟨hsound, fun _ => ⟨Function.update_self .., Or.inr ?_, ?_⟩⟩
      · rw [Disk.openTruncate_data]
        rfl
      · rw [Disk.openTruncate_data]
        rfl
  | @copied handle bytes hstage =>
      simp only [Sound, hstage] at hsound
      cases hregistered : t.registered with
      | false =>
          rw [hregistered] at hlive'
          cases hlive'
      | true =>
          obtain ⟨hdir, hstep, hbytes⟩ := hsound.2 hregistered
          intro data hdata
          have hclose := close_content hdir hstep (handle.pending ++ bytes)
          rw [← Option.some.inj (hclose.symm.trans hdata), ← List.append_assoc, hbytes]
          show bytes = t.base ++ bytes
          rw [hsound.1]
          rfl
  | finalize hstep => exact hstep.sound hsound hlive'
  | cancelPop =>
      have hno : ∀ {p : Prop}, false = true → p := fun h => by cases h
      cases hst : t.stage with
      | asked | prepared | acked | filling handle =>
          simp only [Sound, hst] at hsound ⊢
          exact ⟨hsound.1, hno⟩
      | reading handle | acking handle =>
          simp only [Sound]
          exact hno
      | copying | sizing | hashing | replacing | marking =>
          simp only [Sound, hst] at hsound ⊢
          exact hsound
      | drained | finished | raised | killed =>
          simp only [Sound]
  | @cancelReturn unlinked hpopped =>
      have hregistered : t.registered = false := by
        apply hcancel
        rw [hpopped]
        exact fun heq => by cases heq
      cases unlinked with
      | true => exact unlink_sound hregistered hsound
      | false => exact hsound

/-! ## §3 Runs -/

variable [PathText]

omit [Sha256] [PathText] in
/-- **The condition**, besides `Apart`: the call of `serve` does not fail when the download is done,
and the process is not stopped between the replacement of the file and the note of it. -/
def Prompt (s : Receiver) : Event → Prop
  | .move label (.refused _) => ∀ t, s.downloads label = some t → t.registered = true →
      t.status ≠ .done
  | .restart => ∀ l t, s.downloads l = some t → t.stage ≠ .marking
  | _ => True

/-- What holds of every record. -/
structure Good (d : Folder) (t : Transfer) : Prop where
  popped : t.cancel ≠ .never → t.registered = false
  sound : t.live = true → Sound d t
  placed : t.replaced = true → t.stage = .marking ∨ t.status = .done
  ended : t.status = .done → t.live = false

/-- What is kept along a run. -/
structure Integral (s : Receiver) : Prop where
  separate : Separate s
  good : ∀ {l t}, s.downloads l = some t → Good s.disk t

omit [PathText] in
theorem integral_boot (files : String → Option Bytes) : Integral (.boot files) :=
  ⟨separate_boot files, fun ht => by cases ht⟩

/-- A download starts with the `.part` that it goes on from. -/
theorem enter_sound (dst : String) (saveAs : Option String) (resume : Bool) (man : Offer) :
    Sound d (enter node d dst saveAs resume man) := by
  by_cases hlocal : dst = node
  · simp only [enter, Sound, hlocal, if_true, decide_true, Bool.true_or]
  · simp only [enter, Sound, hlocal, if_false, decide_false, Bool.false_or]
    refine ⟨trivial, fun _ => ?_⟩
    by_cases hzero : offsetOf d (finalName saveAs man) resume man = 0
    · simp only [hzero, if_true, decide_true]
    · simp only [hzero, if_false, decide_false, Bool.false_eq_true]
      show d.content (partOf (finalName saveAs man)) = _
      cases hpart : d.content (partOf (finalName saveAs man)) with
      | some data => rfl
      | none =>
          unfold offsetOf at hzero
          rw [hpart] at hzero
          simp at hzero

omit [PathText] in
/-- The status of a download that has ended does not change on a prompt move. -/
theorem ended_status {m : Move} (hok : Prompt s (.move label m)) (ht : s.downloads label = some t)
    (hlive : t.live = false) (hdone : t.status = .done)
    (h : advance d label t m = some (d', t')) : t'.status = .done := by
  rcases (advance_ended hlive h).2.2 with hsame | ⟨hregistered, why, rfl⟩
  · exact hsame.trans hdone
  · exact absurd hdone (hok t ht hregistered)

omit [PathText] in
/-- **Every record stays good** on a prompt move of its own. -/
theorem Good.advance {m : Move} (hgood : Good s.disk t) (hok : Prompt s (.move label m))
    (ht : s.downloads label = some t) (hback : t.live = false → t'.live = false)
    (h : Files.advance s.disk label t m = some (d', t')) : Good d' t' := by
  have hprogress := advance_progress h
  refine ⟨hprogress.popped hgood.popped, fun hlive' => ?_, fun hreplaced => ?_, fun hdone => ?_⟩
  · have hlive : t.live = true := by
      by_contra hno
      rw [hback (Bool.eq_false_iff.mpr hno)] at hlive'
      cases hlive'
    exact advance_sound hlive hgood.popped (hgood.sound hlive) h hlive'
  · rcases hprogress.replaced with hsame | ⟨-, hafter⟩
    · rcases hgood.placed (hsame ▸ hreplaced) with hmarking | hdone
      · exact (advance_marking hmarking h).1.imp_right And.right
      · exact Or.inr (ended_status hok ht (hgood.ended hdone) hdone h)
    · exact Or.inl hafter
  · rcases hprogress.done hdone with hbefore | ⟨-, hafter⟩
    · exact hback (hgood.ended hbefore)
    · rw [Transfer.live, hafter]
      rfl

theorem integral_step {e : Event} (hs : Integral s) (hapart : Apart s e) (hok : Prompt s e)
    (h : (receiving node).step s e = some s') : Integral s' := by
  refine ⟨separate_step hs.separate hapart h, ?_⟩
  intro l t ht
  cases e with
  | start label dst saveAs resume man =>
      obtain ⟨hnew, -, ⟨-, rfl⟩ | ⟨hpresent, rfl⟩⟩ := step_start h
      · exact hs.good ht
      · rcases set_cases ht with ⟨rfl, rfl⟩ | ⟨-, hold⟩
        · exact ⟨fun hcancel => absurd rfl hcancel, fun _ => enter_sound dst saveAs resume man,
            (fun hreplaced => by cases hreplaced), fun hdone => by cases hdone⟩
        · exact hs.good hold
  | restart =>
      obtain rfl := Option.some.inj h
      obtain ⟨t₀, ht₀, rfl⟩ := restarted_cases ht
      refine ⟨fun _ => rfl, (fun hlive => by cases hlive), fun hreplaced => ?_, fun _ => rfl⟩
      exact Or.inr (((hs.good ht₀).placed hreplaced).resolve_left (hok l t₀ ht₀))
  | move label m =>
      have hstep := h
      obtain ⟨t₀, d', t₀', ht₀, hadvance, -, rfl⟩ := step_move h
      rcases set_cases ht with ⟨rfl, rfl⟩ | ⟨hl, hold⟩
      · exact (hs.good ht₀).advance hok ht₀
          (fun hended => advance_not_live hapart ht₀ hended hadvance) hadvance
      · have hgood := hs.good hold
        refine ⟨hgood.popped, fun hlive => ?_, hgood.placed, hgood.ended⟩
        exact (hgood.sound hlive).agree (others_agree hs.separate hapart hstep hl hold hlive).2

/-! ## §4 The result -/

omit [PathText] in
/-- The file of a download that is done. -/
def Finished (d : Folder) (t : Transfer) : Prop :=
  ∃ data, d.content t.name = some data ∧ (data.length : Int) = t.size ∧
    Sha256.sha256 data = t.id ∧
    ∀ source, t.base <+: source → t.arrived <+: source.drop t.base.length →
      t.size = source.length → data = source

omit [PathText] in
theorem Verified.finished {data : Bytes} (hcontent : d.content t.name = some data)
    (h : Verified t data) : Finished d t := by
  obtain ⟨hbytes, hsize, hhash⟩ := h
  refine ⟨data, hcontent, hsize, hhash, ?_⟩
  rintro source ⟨rest, rfl⟩ harrived hlength
  rw [List.drop_left] at harrived
  have hprefix : data <+: t.base ++ rest := by
    rw [hbytes]
    exact (List.prefix_append_right_inj t.base).mpr harrived
  exact hprefix.eq_of_length (by omega)

/-- What a step does to the files of the downloads: one that is done now has its file, and one that
goes on leaves the file in its place alone, but for putting its own there. -/
structure Intact (s : Receiver) (_ : Event) (s' : Receiver) : Prop where
  finished : ∀ l t', s'.downloads l = some t' → t'.status = .done →
    (∀ t, s.downloads l = some t → t.status ≠ .done) → Finished s'.disk t'
  untouched : ∀ l t, s.downloads l = some t → t.live = true →
    s'.disk.content t.name = s.disk.content t.name ∨
      ∃ t', s'.downloads l = some t' ∧ t.replaced = false ∧ t'.replaced = true

/-- A download that has ended without being done has not put a file in its place. -/
def Unreplaced (s : Receiver) : Prop :=
  ∀ l t, s.downloads l = some t → t.live = false → t.status ≠ .done → t.replaced = false

omit [PathText] in
theorem Integral.unreplaced (hs : Integral s) : Unreplaced s := by
  intro l t ht hended hstatus
  by_contra hreplaced
  rw [Bool.not_eq_false] at hreplaced
  rcases (hs.good ht).placed hreplaced with hmarking | hdone
  · rw [Transfer.live, hmarking] at hended
    cases hended
  · exact hstatus hdone

theorem intact_step {e : Event} (hs : Integral s) (hapart : Apart s e)
    (h : (receiving node).step s e = some s') : Intact s e s' := by
  cases e with
  | start label dst saveAs resume man =>
      obtain ⟨hnew, -, ⟨-, rfl⟩ | ⟨hpresent, rfl⟩⟩ := step_start h
      · exact ⟨fun l t ht hdone hbefore => absurd hdone (hbefore t ht), fun _ _ _ _ => Or.inl rfl⟩
      · refine ⟨fun l t ht hdone hbefore => ?_, fun _ _ _ _ => Or.inl rfl⟩
        rcases set_cases ht with ⟨rfl, rfl⟩ | ⟨-, hold⟩
        · cases hdone
        · exact absurd hdone (hbefore t hold)
  | restart =>
      obtain rfl := Option.some.inj h
      refine ⟨fun l t ht hdone hbefore => ?_, fun _ _ _ _ => Or.inl rfl⟩
      obtain ⟨t₀, ht₀, rfl⟩ := restarted_cases ht
      exact absurd hdone (hbefore t₀ ht₀)
  | move label m =>
      have hstep := h
      obtain ⟨t₀, d', t₀', ht₀, hadvance, -, rfl⟩ := step_move h
      have hlocal := advance_local hadvance
      constructor
      · intro l t ht hdone hbefore
        rcases set_cases ht with ⟨rfl, rfl⟩ | ⟨-, hold⟩
        · obtain ⟨hmarking, -⟩ :=
            ((advance_progress hadvance).done hdone).resolve_left (hbefore t₀ ht₀)
          have hsound := (hs.good ht₀).sound (live_of_active (by rw [hmarking]; rfl))
          simp only [Sound, hmarking] at hsound
          obtain ⟨data, hcontent, hverified⟩ := hsound
          obtain ⟨-, hdisk, harrived⟩ := advance_marking hmarking hadvance
          have hsame : d'.content t₀.name = s.disk.content t₀.name := by
            rcases hdisk with rfl | rfl
            · rfl
            · exact unlink_content t₀.part_ne_name
          have hkept := hlocal.kept
          refine Verified.finished (?_ : _ = some data) ?_
          · rw [hkept.name]
            exact hsame.trans hcontent
          · unfold Verified
            rw [hkept.base, hkept.size, hkept.id, harrived]
            exact hverified
        · exact absurd hdone (hbefore t hold)
      · intro l t ht hlive
        by_cases hl : l = label
        · rw [hl, ht₀] at ht
          obtain rfl := Option.some.inj ht
          by_cases hrename : t₀.stage = .replacing ∧ t₀'.replaced = true
          · refine Or.inr ⟨t₀', by rw [hl]; exact set_self s label _, ?_, hrename.2⟩
            by_contra hreplaced
            rw [Bool.not_eq_false] at hreplaced
            rcases (hs.good ht₀).placed hreplaced with hmarking | hdone
            · rw [hrename.1] at hmarking
              cases hmarking
            · rw [(hs.good ht₀).ended hdone] at hlive
              cases hlive
          · exact Or.inl (content_of_local hs.separate ht₀ hlocal t₀.part_ne_name fun _ => hrename)
        · obtain ⟨-, hagree⟩ := others_agree hs.separate hapart hstep hl ht hlive
          exact Or.inl (hagree.content (Or.inl rfl) fun i hi => Or.inr hi)

/-- **Downloads are intact** along every run whose steps meet the conditions. -/
theorem downloads_intact (node : String) (files : String → Option Bytes) (events : List Event)
    (hguard : (receiving node).Guarded (fun s e => Apart s e ∧ Prompt s e) (.boot files) events) :
    (receiving node).Each Intact (.boot files) events ∧
      (receiving node).Always Unreplaced (.boot files) events := by
  have hstep : ∀ (s : Receiver) e s', Integral s → Apart s e ∧ Prompt s e →
      (receiving node).step s e = some s' → Integral s' :=
    fun s e s' hs hok => integral_step hs hok.1 hok.2
  constructor
  · exact Machine.each_of_guarded (fun s e s' hs hok => intact_step hs hok.1) hstep
      (integral_boot files) hguard
  · exact Machine.always_of_guarded (fun s => Integral.unreplaced) hstep (integral_boot files) hguard

end Proofs

/-! ## §5 One download -/

attribute [local instance] slashText spelled

/-- A file of another content is there. -/
def oldFile (name : String) : Option Bytes := if name = "a" then some [111] else none

/-- A whole download. -/
def wholeDownload : List Event :=
  [.start "1" "nas" none true nasFile, .move "1" .stream, .move "1" .ack, .move "1" .openPart,
    .move "1" (.chunk [104, 105] false 1), .move "1" .eof, .move "1" .advance, .move "1" .advance,
    .move "1" .advance, .move "1" .advance]

theorem wholeDownload_intact :
    (receiving "me").Each Intact (.boot oldFile) wholeDownload ∧
      (receiving "me").Always Unreplaced (.boot oldFile) wholeDownload := by
  apply downloads_intact
  refine Machine.guarded_cons rfl ⟨?_, trivial⟩ (Machine.guarded_cons rfl ⟨?_, trivial⟩ ?_)
  · intro _ l t ht
    cases ht
  · intro t ht _
    cases ht
    rfl
  · exact Machine.guarded_of_mem (fun e he s => by
      simp only [List.mem_cons, List.not_mem_nil, or_false] at he
      rcases he with rfl | rfl | rfl | rfl | rfl | rfl | rfl | rfl <;> exact ⟨trivial, trivial⟩) _

/-- The answer of `serve` is lost: when the call gives up, the download is done, and `_fail` makes
an error of it. The file that was there is gone. -/
theorem late_failure :
    statusOf "1" ((receiving "me").run (.boot oldFile)
        (wholeDownload ++ [.move "1" (.refused (.unreachable "timeout"))])) = some .error ∧
      ((receiving "me").run (.boot oldFile)
        (wholeDownload ++ [.move "1" (.refused (.unreachable "timeout"))])).bind
          (fun s => s.disk.content "a") = some [104, 105] := by
  constructor <;> decide +kernel

end NetPulse.Files
