import NetPulse.Recovery.Verify

/-
# NetPulse.Recovery.Restore — a restoration is all or nothing

`restore_all_or_nothing`: for every archive, every tree and every operation that fails, nothing that
was there changes; the destination appears only after the archive has been verified, a run that fails
before that leaves the tree as it was, and one that succeeds leaves the two payloads in the
destination and nothing else.
-/

namespace NetPulse.Recovery

open NetPulse.Lib NetPulse.Lib.Json NetPulse.Lib.Prog

variable {Num : Type} {lib : Library Num}

/-! ## §1 What is left in the end -/

/-- `t` is `T` with a new directory that has these files. -/
structure Grown (T : Tree) (d : Path) (files : String → Option Bytes) (t : Tree) : Prop where
  free : T.node d = none
  dir : t.node d = some .dir
  child : ∀ n, t.node (d ++ [n]) = (files n).map .file
  other : ∀ p, p ≠ d → (∀ n, p ≠ d ++ [n]) → t.node p = T.node p

theorem Grown.kept {T t : Tree} {d : Path} {files : String → Option Bytes} (h : Grown T d files t)
    {p : Path} (hp : T.node p ≠ none) : t.node p = T.node p := by
  apply h.other
  · rintro rfl
    exact hp h.free
  · rintro n rfl
    exact hp (FileTree.none_below h.free (List.prefix_append d [n]))

/-- The path leads to a verified archive with these contents. -/
def Verified (lib : Library Num) (T : Tree) (path : Path) (c : Contents Num) : Prop :=
  ∃ archive, T.fileAt path = some archive ∧ Genuine lib archive c

/-- The destination has appeared, after the archive was verified. -/
def Appeared (lib : Library Num) (T : Tree) (path destination : Path) (t : Tree) : Prop :=
  ∃ c q n files, Verified lib T path c ∧ T.slot destination = some (q, n) ∧ Grown T (q ++ [n]) files t

/-! ## §2 The stage goes -/

section Stages

variable {T B : Tree} {q : Path} {tmp : String} {stage : Path}

theorem ne_nil (q : Path) (n : String) : q ++ [n] ≠ [] :=
  List.append_ne_nil_of_right_ne_nil q (List.cons_ne_nil n [])

/-- With the stage all that was written there is gone. -/
theorem rmtree_node {t : Tree} (h : t.locate stage = some (q ++ [tmp])) (p : Path) :
    (rmtree stage t).node p = if q ++ [tmp] <+: p then none else t.node p := by
  unfold rmtree
  rw [h]
  exact FileTree.remove_node (ne_nil q tmp) p

theorem not_prefix_of_ne {p : Path} (h : ¬ q ++ [tmp] <+: p) :
    p ≠ q ++ [tmp] ∧ ∀ n, p ≠ q ++ [tmp] ++ [n] := by
  constructor
  · rintro rfl
    exact h (List.prefix_refl _)
  · rintro n rfl
    exact h (List.prefix_append _ _)

/-- **As before**: a stage was made, filled and taken away. -/
theorem rmtree_filled {t : Tree} {parent : Path} {files : String → Option Bytes}
    (hparent : T.locate parent = some q) (hdir : T.node q = some .dir)
    (hfree : T.node (q ++ [tmp]) = none)
    (ht : FileTree.Filled (T.put q tmp .dir hdir hfree) (q ++ [tmp]) files t) :
    rmtree (parent ++ [tmp]) t = T := by
  have hs := stage_put hparent hdir hfree
  ext p : 1
  rw [rmtree_node ((ht.extends hs.empty).locate hs.locate)]
  split
  · rename_i hunder
    exact (FileTree.none_below hfree hunder).symm
  · rename_i hunder
    obtain ⟨hne, hchild⟩ := not_prefix_of_ne hunder
    rw [ht.other p hchild, FileTree.put_other hne]

/-- Next to the stage a directory was made and filled; it stays when the stage goes. -/
theorem rmtree_grown {t : Tree} {parent : Path} {name : String}
    {staged files : String → Option Bytes} (hparent : T.locate parent = some q)
    (hdir : T.node q = some .dir) (hfree : T.node (q ++ [tmp]) = none)
    (hB : FileTree.Filled (T.put q tmp .dir hdir hfree) (q ++ [tmp]) staged B)
    {hdir' : B.node q = some .dir} {hfree' : B.node (q ++ [name]) = none}
    (ht : FileTree.Filled (B.put q name .dir hdir' hfree') (q ++ [name]) files t) :
    Grown T (q ++ [name]) files (rmtree (parent ++ [tmp]) t) := by
  have hs := stage_put hparent hdir hfree
  have hne : name ≠ tmp := by
    rintro rfl
    rw [hB.self, hs.dir] at hfree'
    cases hfree'
  have happart : ∀ r, ¬ q ++ [tmp] <+: q ++ [name] ++ r := by
    intro r hpre
    rw [List.append_assoc, List.prefix_append_right_inj] at hpre
    obtain ⟨r', hr'⟩ := hpre
    exact hne (List.cons.inj hr').1.symm
  have hnext : ¬ q ++ [tmp] <+: q ++ [name] := by
    have hnil := happart []
    rwa [List.append_nil] at hnil
  have hlocate : t.locate (parent ++ [tmp]) = some (q ++ [tmp]) :=
    (ht.extends FileTree.put_below).locate (FileTree.extends_put.locate
      ((hB.extends hs.empty).locate hs.locate))
  have hfreeT : T.node (q ++ [name]) = none := by
    have hout := not_prefix_of_ne hnext
    rw [hB.other _ hout.2, FileTree.put_other hout.1] at hfree'
    exact hfree'
  refine ⟨hfreeT, ?_, fun n => ?_, fun p hp hchild => ?_⟩
  · rw [rmtree_node hlocate, if_neg hnext, ht.self]
    exact FileTree.put_self
  · rw [rmtree_node hlocate, if_neg (happart [n])]
    exact ht.child n
  · rw [rmtree_node hlocate]
    split
    · rename_i hunder
      exact (FileTree.none_below hfree hunder).symm
    · rename_i hunder
      have hout := not_prefix_of_ne hunder
      rw [ht.other p hchild, FileTree.put_other hp, hB.other p hout.2, FileTree.put_other hout.1]

end Stages

/-! ## §3 The copies -/

section Install

variable {calm : Bool} {X : Prop} {PE : Tree → Prop} {D t : Tree} {stage destination d : Path}
  {done : String → Option Bytes}

theorem install_spec {name : String} {content : Bytes} (hd : Stage D destination d)
    (ht : FileTree.Filled D d done t) (hfree : done name = none)
    (hread : ∀ files t, FileTree.Filled D d files t → t.fileAt (stage ++ [name]) = some content)
    (hPE : ∀ files t, FileTree.Filled D d files t → PE t) :
    Triple (On calm t) (install stage destination name)
      (fun _ w => ∃ t', FileTree.Filled D d (Function.update done name (some content)) t' ∧
        On calm t' w) (Err calm X PE) := by
  have hdir : t.node d = some .dir := ht.self.trans hd.dir
  have hplace : t.node (d ++ [name]) = none := by
    rw [ht.child, hfree]
    rfl
  refine Triple.bind (enter_at (hPE _ _ ht) (hd.slot ht name) hdir hplace) fun handle =>
    Triple.of_fact fun hhandle => ?_
  subst hhandle
  have hput : FileTree.Filled D d (Function.update done name (some []))
    (t.put d name (.file []) hdir hplace) := ht.put []
  have hwritten : ∀ written, FileTree.Filled D d (Function.update done name (some written))
      ((t.put d name (.file []) hdir hplace).setContent (d ++ [name]) (· ++ written)) :=
    fun written => ht.put_setContent [] (· ++ written)
  refine Triple.bind (readFile_spec (hPE _ _ hput) (hread _ _ hput)) fun content' =>
    Triple.of_fact fun hcontent => ?_
  subst hcontent
  refine Triple.bind (attempt_spec (hPE _ _ hput)) fun _ => ?_
  exact (writeBlock_spec fun k => hPE _ _ (hwritten (content.take k))).after
    fun _ w hw => ⟨_, hwritten content, hw⟩

theorem installs_spec {config database : Bytes} (hd : Stage D destination d)
    (hconfig : ∀ files t, FileTree.Filled D d files t →
      t.fileAt (stage ++ ["config.json"]) = some config)
    (hdatabase : ∀ files t, FileTree.Filled D d files t →
      t.fileAt (stage ++ ["network_stats.db"]) = some database)
    (hPE : ∀ files t, FileTree.Filled D d files t → PE t) :
    Triple (On calm D) (payloads.forM (install stage destination))
      (fun _ w => ∃ t, FileTree.Filled D d (bothFiles config database) t ∧ On calm t w)
      (Err calm X PE) := by
  refine Triple.bind (install_spec hd (FileTree.Filled.empty hd.empty) rfl hconfig hPE) fun _ =>
    Triple.of_exists fun t => Triple.of_fact fun ht => ?_
  refine Triple.bind (install_spec hd ht rfl hdatabase hPE) fun _ =>
    Triple.of_exists fun t' => Triple.of_fact fun ht' => ?_
  exact Triple.pure fun w hw => ⟨t', ht', hw⟩

end Install

/-! ## §4 The run -/

variable {T : Tree} {path parent q : Path} {name tmp : String}

/-- Where the checks of the destination succeed there is a place for it. -/
theorem checkTarget_spec {destination : Path} {PE : Tree → Prop} (h : PE T) :
    Triple (On false T) (checkTarget destination)
      (fun _ w => (∃ parent name q, destination = parent ++ [name] ∧ T.locate parent = some q ∧
        T.node q = some .dir) ∧ On false T w) (Err false True PE) := by
  refine Triple.bind (pathExists_spec h) fun there => Triple.of_fact fun hthere => ?_
  refine Triple.bind (require_spec h fun _ => trivial) fun _ => Triple.of_fact fun hno => ?_
  refine Triple.bind (isSymlink_spec h) fun link => Triple.of_fact fun hlink => ?_
  refine Triple.bind (require_spec h fun _ => trivial) fun _ => Triple.of_fact fun hlinkno => ?_
  refine Triple.bind (isDir_spec h) fun dir => Triple.of_fact fun hdir => ?_
  refine (require_spec h fun _ => trivial).after fun _ w hw => ⟨?_, hw.2⟩
  have hstat : T.stat destination.dropLast = some .dir := beq_iff_eq.mp (hdir.symm.trans hw.1)
  obtain ⟨q, hq, hnode⟩ := Option.bind_eq_some_iff.mp hstat
  have hne : destination ≠ [] := by
    rintro rfl
    rw [hno, FileTree.stat_of_locate (FileTree.locate_of_present (Or.inl T.root)), T.root] at hthere
    cases hthere
  refine ⟨destination.dropLast, destination.getLast hne, q, ?_, hq, hnode⟩
  exact (List.dropLast_append_getLast hne).symm

/-- Up to here nothing but the stage is written to. -/
theorem unpack_spec (hparent : T.locate parent = some q) (hdir : T.node q = some .dir)
    (hfree : T.node (q ++ [tmp]) = none) :
    Triple (On false (T.put q tmp .dir hdir hfree)) (unpackVerified lib path (parent ++ [tmp]))
      (fun summary w => ∃ c : Contents Num, Verified lib T path c ∧ summary = c.summary ∧
        ∃ B, FileTree.Filled (T.put q tmp .dir hdir hfree) (q ++ [tmp]) c.payload B ∧ On false B w)
      (Err false True fun t => rmtree (parent ++ [tmp]) t = T) := by
  have hs := stage_put hparent hdir hfree
  refine (unpackVerified_spec hs (fun files t ht => rmtree_filled hparent hdir hfree ht)
    fun _ => trivial).after fun summary w hw => ?_
  obtain ⟨archive, c, hat, hgenuine, hsummary, hB⟩ := hw
  exact ⟨c, ⟨archive, FileTree.fileAt_put hat, hgenuine⟩, hsummary, hB⟩

theorem restoreFrom_spec (hparent : T.locate parent = some q) (hdir : T.node q = some .dir)
    (hfree : T.node (q ++ [tmp]) = none) :
    Triple (On false (T.put q tmp .dir hdir hfree))
      (restoreFrom lib path (parent ++ [name]) (parent ++ [tmp]))
      (fun summary w => ∃ c : Contents Num, Verified lib T path c ∧ summary = c.summary ∧
        Grown T (q ++ [name]) c.payload (rmtree (parent ++ [tmp]) w.tree))
      (Err false True fun t => rmtree (parent ++ [tmp]) t = T ∨
        Appeared lib T path (parent ++ [name]) (rmtree (parent ++ [tmp]) t)) := by
  refine Triple.bind ((unpack_spec hparent hdir hfree).onError
    fun e w hw => ⟨Or.inl hw.1, hw.2⟩) fun summary => Triple.of_exists fun c =>
    Triple.of_fact fun hverified => Triple.of_fact fun hsummary => Triple.of_exists fun B =>
    Triple.of_fact fun hB => ?_
  have hs := stage_put hparent hdir hfree
  have hB' := hB.extends hs.empty
  have hparentB : B.locate parent = some q := hB'.locate (FileTree.extends_put.locate hparent)
  have hunmade : rmtree (parent ++ [tmp]) B = T := rmtree_filled hparent hdir hfree hB
  have hdirB : B.node q = some .dir := hB'.dir (FileTree.extends_put.dir hdir)
  refine Triple.bind (mkdir_spec (Or.inl hunmade) (fun _ => trivial) hparentB hdirB) fun _ =>
    Triple.of_exists fun hfree' => ?_
  have hd := stage_put hparentB hdirB hfree'
  have hgrown : ∀ files t, FileTree.Filled (B.put q name .dir hdirB hfree') (q ++ [name]) files t →
      Grown T (q ++ [name]) files (rmtree (parent ++ [tmp]) t) := fun files t ht =>
    rmtree_grown hparent hdir hfree hB ht
  have hPE : ∀ files t, FileTree.Filled (B.put q name .dir hdirB hfree') (q ++ [name]) files t →
      rmtree (parent ++ [tmp]) t = T ∨
        Appeared lib T path (parent ++ [name]) (rmtree (parent ++ [tmp]) t) := fun files t ht =>
    Or.inr ⟨c, q, name, files, hverified, FileTree.slot_append hparent, hgrown files t ht⟩
  -- The stage is still there to be read, next to the destination.
  have hread : ∀ {n content}, c.payload n = some content → ∀ files t,
      FileTree.Filled (B.put q name .dir hdirB hfree') (q ++ [name]) files t →
      t.fileAt (parent ++ [tmp] ++ [n]) = some content := by
    intro n content hcontent files t ht
    have hstaged := hB.child n
    rw [hcontent] at hstaged
    refine FileTree.fileAt_eq_some.mpr ⟨q ++ [tmp] ++ [n], ?_, ?_⟩
    · exact (ht.extends hd.empty).locate (FileTree.extends_put.locate
        (hB.locate hs.empty hs.locate hcontent))
    · rw [ht.other _ fun m heq => ?_, FileTree.put_other ?_]
      · exact hstaged
      · rintro heq
        have hlength := congrArg List.length heq
        simp at hlength
      · have hsame := List.append_cancel_left (List.append_inj_left' heq rfl)
        have hstage := hB.self.trans hs.dir
        rw [hsame, hfree'] at hstage
        cases hstage
  refine Triple.bind (Triple.rethrow (installs_spec hd (hread rfl) (hread rfl) hPE)) fun _ =>
    Triple.of_exists fun t => Triple.of_fact fun ht => Triple.pure fun w hw => ?_
  exact ⟨c, hverified, hsummary, by rw [hw.2]; exact hgrown _ t ht⟩

/-! ## §5 All or nothing -/

/-- `restore` up to the end of the verification: nothing has been asked of the destination but that
it is not there. -/
def untilVerified (lib : Library Num) (path destination : Path) (tmp : String) :
    Work (Summary Num) := do
  checkTarget destination
  withTemporary destination.dropLast tmp (unpackVerified lib path)

theorem untilVerified_spec {destination : Path} :
    Triple (On false T) (untilVerified lib path destination tmp) (fun _ w => w.tree = T)
      (Err false True fun t => t = T) := by
  refine Triple.bind (checkTarget_spec rfl) fun _ => Triple.of_fact fun htarget => ?_
  obtain ⟨parent, name, q, rfl, hparent, hdir⟩ := htarget
  rw [List.dropLast_concat]
  refine withTemporary_spec rfl (fun _ => trivial) hparent hdir fun hfree => ?_
  refine (unpack_spec hparent hdir hfree).after fun summary w hw => ?_
  obtain ⟨c, -, -, B, hB, hw⟩ := hw
  show rmtree (parent ++ [tmp]) w.tree = T
  rw [hw.2]
  exact rmtree_filled hparent hdir hfree hB

/-- Where the verification fails `restore` has done nothing else. -/
theorem raisesIn_restore (destination : Path) :
    RaisesIn (untilVerified lib path destination tmp) (restore lib path destination tmp) :=
  RaisesIn.bind _ fun _ => RaisesIn.then (RaisesIn.bind _ fun _ =>
    RaisesIn.ensuring (RaisesIn.more _))

theorem restore_spec {destination : Path} :
    Triple (On false T) (restore lib path destination tmp)
      (fun summary w => ∃ c q n, Verified lib T path c ∧ T.slot destination = some (q, n) ∧
        Grown T (q ++ [n]) c.payload w.tree ∧
        summary = { c.summary with destination := some destination })
      (Err false True fun t => t = T ∨ Appeared lib T path destination t) := by
  refine Triple.bind (checkTarget_spec (Or.inl rfl)) fun _ => Triple.of_fact fun htarget => ?_
  obtain ⟨parent, name, q, rfl, hparent, hdir⟩ := htarget
  rw [List.dropLast_concat]
  have hbody : Triple (On false T)
      (withTemporary parent tmp (restoreFrom lib path (parent ++ [name])))
      (fun summary w => ∃ c, Verified lib T path c ∧ summary = c.summary ∧
        Grown T (q ++ [name]) c.payload w.tree)
      (Err false True fun t => t = T ∨ Appeared lib T path (parent ++ [name]) t) :=
    withTemporary_spec (Or.inl rfl) (fun _ => trivial) hparent hdir
      fun hfree => restoreFrom_spec hparent hdir hfree
  refine Triple.bind hbody fun summary => Triple.pure fun w hw => ?_
  obtain ⟨c, hverified, rfl, hgrown⟩ := hw
  exact ⟨c, q, name, hverified, FileTree.slot_append hparent, hgrown, rfl⟩

/-- What `restore` promises about a run. -/
structure AllOrNothing (lib : Library Num) (path destination : Path) (tmp : String) (w : World)
    (run : EStateM.Result Raised World (Summary Num)) : Prop where
  /-- Nothing that was there has changed. -/
  kept : ∀ p, w.tree.node p ≠ none → (final run).tree.node p = w.tree.node p
  /-- The destination has appeared only if the archive was verified, and nothing else has. -/
  late : (final run).tree = w.tree ∨ Appeared lib w.tree path destination (final run).tree
  /-- Success: the destination has the verified payloads, and nothing else is new. -/
  whole : ∀ summary w', run = .ok summary w' → ∃ c q n, Verified lib w.tree path c ∧
    w.tree.slot destination = some (q, n) ∧ Grown w.tree (q ++ [n]) c.payload w'.tree ∧
    summary = { c.summary with destination := some destination }
  /-- A failure up to the end of the verification leaves nothing. -/
  early : ∀ e w', untilVerified lib path destination tmp w = .error e w' →
    run = .error e w' ∧ w'.tree = w.tree

/-- **All or nothing**, for every archive, every tree and all faults. -/
theorem restore_all_or_nothing (lib : Library Num) (path destination : Path) (tmp : String)
    (w : World) :
    AllOrNothing lib path destination tmp w (restore lib path destination tmp w) := by
  have hstart : On false w.tree w := On.of_tree rfl
  have hlate : (final (restore lib path destination tmp w)).tree = w.tree ∨
      Appeared lib w.tree path destination (final (restore lib path destination tmp w)).tree := by
    cases hrun : restore lib path destination tmp w with
    | error e w' => exact (restore_spec.raised hstart hrun).1
    | ok summary w' =>
        obtain ⟨c, q, n, hverified, hslot, hgrown, -⟩ := restore_spec.returned hstart hrun
        exact Or.inr ⟨c, q, n, c.payload, hverified, hslot, hgrown⟩
  refine ⟨fun p hp => ?_, hlate, fun summary w' hrun => restore_spec.returned hstart hrun,
    fun e w' hrun => ⟨raisesIn_restore destination w e w' hrun, ?_⟩⟩
  · rcases hlate with hsame | ⟨c, q, n, files, -, -, hgrown⟩
    · rw [hsame]
    · exact hgrown.kept hp
  · exact (untilVerified_spec.raised hstart hrun).1

end NetPulse.Recovery
