import NetPulse.Recovery.Archive

/-
# NetPulse.Recovery.Triples — what each operation does to the tree

`On calm T` is the state where the tree is `T`, and no operation fails from here on if `calm`. An
operation that raises leaves a tree with `PE`, and if nothing fails there is a reason `X` for it;
so that one triple says what a program does under all faults, and why it refuses without any.
-/

namespace NetPulse.Recovery

open NetPulse.Lib NetPulse.Lib.Json NetPulse.Lib.Prog

abbrev Tree := FileTree String Bytes

/-- The tree is `T`; in the calm nothing will fail. -/
def On (calm : Bool) (T : Tree) (w : World) : Prop := (calm = true → w.faults = []) ∧ w.tree = T

/-- An exception; in the calm it has a reason. -/
def Err (calm : Bool) (X : Prop) (PE : Tree → Prop) (_ : Raised) (w : World) : Prop :=
  PE w.tree ∧ (calm = true → X)

variable {calm : Bool} {T : Tree} {X : Prop} {PE : Tree → Prop} {p : Path}

theorem On.of_tree {w : World} (h : w.tree = T) : On false T w := ⟨(fun h => by cases h), h⟩

/-! ## §1 Reading -/

theorem draw_spec : Triple (On calm T) draw
    (fun fault w => (calm = true → fault = none) ∧ On calm T w) (Err calm X PE) := by
  intro w hw
  obtain ⟨hcalm, htree⟩ := hw
  unfold draw
  cases hf : w.faults with
  | nil => exact ⟨fun _ => rfl, fun _ => hf, htree⟩
  | cons fault rest =>
      have hwild : ¬ calm = true := fun h => by
        rw [hcalm h] at hf
        cases hf
      exact ⟨fun h => absurd h hwild, fun h => absurd h hwild, htree⟩

theorem attempt_spec (h : PE T) :
    Triple (On calm T) attempt (fun _ => On calm T) (Err calm X PE) := by
  refine Triple.bind draw_spec fun fault => Triple.of_fact fun hcalm => ?_
  cases fault with
  | none => exact Triple.pure fun _ hw => hw
  | some fault =>
      refine Triple.throw fun w hw => ⟨hw.2 ▸ h, fun hc => ?_⟩
      cases hcalm hc

theorem require_spec {c : Prop} [Decidable c] {text : String} (h : PE T) (hX : ¬ c → X) :
    Triple (On calm T) (require c text) (fun _ w => c ∧ On calm T w) (Err calm X PE) :=
  Triple.ite (fun hc => Triple.pure fun _ hw => ⟨hc, hw⟩)
    (fun hc => Triple.throw fun _ hw => ⟨hw.2 ▸ h, fun _ => hX hc⟩)

theorem library_spec {α : Type} {answer : Except Trouble α} (h : PE T)
    (hX : ∀ kind, answer = .error kind → X) :
    Triple (On calm T) (library answer) (fun a w => answer = .ok a ∧ On calm T w)
      (Err calm X PE) := by
  refine Triple.bind (attempt_spec h) fun _ => ?_
  cases answer with
  | ok a => exact Triple.pure fun _ hw => ⟨rfl, hw⟩
  | error kind => exact Triple.throw fun _ hw => ⟨hw.2 ▸ h, fun _ => hX kind rfl⟩

theorem asObject_spec {Num : Type} {value : Option (Json Num)} {text : String} (h : PE T)
    (hX : (∀ entries, value ≠ some (.obj entries)) → X) :
    Triple (On calm T) (asObject value text)
      (fun entries w => value = some (.obj entries) ∧ On calm T w) (Err calm X PE) := by
  unfold asObject
  split
  · exact Triple.pure fun _ hw => ⟨rfl, hw⟩
  · rename_i hother
    exact Triple.throw fun _ hw => ⟨hw.2 ▸ h, fun _ => hX hother⟩

theorem getinfo_spec {entries : List ZipEntry} {name : String} (h : PE T)
    (hX : entries.find? (·.filename = name) = none → X) :
    Triple (On calm T) (getinfo entries name)
      (fun e w => entries.find? (·.filename = name) = some e ∧ On calm T w) (Err calm X PE) := by
  unfold getinfo
  split
  · rename_i e he
    exact Triple.pure fun _ hw => ⟨he, hw⟩
  · rename_i hnone
    exact Triple.throw fun _ hw => ⟨hw.2 ▸ h, fun _ => hX hnone⟩

theorem endOf_spec {e : ZipEntry} (h : PE T) (hX : e.failure ≠ none → X) :
    Triple (On calm T) (endOf e) (fun _ w => e.failure = none ∧ On calm T w) (Err calm X PE) := by
  unfold endOf
  split
  · rename_i hnone
    exact (attempt_spec h).after fun _ _ hw => ⟨hnone, hw⟩
  · rename_i kind hkind
    refine Triple.throw fun _ hw => ⟨hw.2 ▸ h, fun _ => hX ?_⟩
    rw [hkind]
    exact Option.some_ne_none kind

/-- What is asked about the tree is about `T`. -/
theorem get_spec : Triple (On calm T) (get : Work World)
    (fun w s => w.tree = T ∧ w = s ∧ On calm T s) (Err calm X PE) :=
  fun _ hw => ⟨hw.2, rfl, hw⟩

theorem isFile_spec (h : PE T) : Triple (On calm T) (isFile p)
    (fun b w => b = (T.fileAt p).isSome ∧ On calm T w) (Err calm X PE) := by
  refine Triple.bind (attempt_spec h) fun _ => Triple.bind get_spec fun w => ?_
  refine Triple.of_fact fun htree => Triple.pure fun _ hw => ⟨?_, hw.2⟩
  rw [htree]

theorem isDir_spec (h : PE T) : Triple (On calm T) (isDir p)
    (fun b w => b = (T.stat p == some .dir) ∧ On calm T w) (Err calm X PE) := by
  refine Triple.bind (attempt_spec h) fun _ => Triple.bind get_spec fun w => ?_
  refine Triple.of_fact fun htree => Triple.pure fun _ hw => ⟨?_, hw.2⟩
  rw [htree]

theorem pathExists_spec (h : PE T) : Triple (On calm T) (pathExists p)
    (fun b w => b = (T.stat p).isSome ∧ On calm T w) (Err calm X PE) := by
  refine Triple.bind (attempt_spec h) fun _ => Triple.bind get_spec fun w => ?_
  refine Triple.of_fact fun htree => Triple.pure fun _ hw => ⟨?_, hw.2⟩
  rw [htree]

theorem isSymlink_spec (h : PE T) : Triple (On calm T) (isSymlink p)
    (fun b w => (b = true ↔ ∃ target, lstat T p = some (.link target)) ∧ On calm T w)
      (Err calm X PE) := by
  refine Triple.bind (attempt_spec h) fun _ => Triple.bind get_spec fun w => ?_
  refine Triple.of_fact fun htree => ?_
  rw [htree]
  split
  · rename_i target htarget
    exact Triple.pure fun _ hw => ⟨⟨fun _ => ⟨target, htarget⟩, fun _ => rfl⟩, hw.2⟩
  · rename_i hother
    refine Triple.pure fun _ hw => ⟨⟨(fun hb => by cases hb), fun hlink => ?_⟩, hw.2⟩
    obtain ⟨target, htarget⟩ := hlink
    exact absurd htarget (hother target)

theorem readFile_spec {content : Bytes} (h : PE T) (hat : T.fileAt p = some content) :
    Triple (On calm T) (readFile p) (fun bytes w => content = bytes ∧ On calm T w)
      (Err calm X PE) := by
  refine Triple.bind (attempt_spec h) fun _ => Triple.bind get_spec fun w => ?_
  refine Triple.of_fact fun htree => ?_
  rw [htree]
  split
  · rename_i bytes hbytes
    exact Triple.pure fun _ hw => ⟨Option.some.inj (hat.symm.trans hbytes), hw.2⟩
  · rename_i hnone
    exact absurd (hat.symm.trans hnone) (Option.some_ne_none content)

theorem fileSize_spec {content : Bytes} (h : PE T) (hat : T.fileAt p = some content) :
    Triple (On calm T) (fileSize p) (fun size w => size = content.length ∧ On calm T w)
      (Err calm X PE) := by
  refine Triple.bind (readFile_spec h hat) fun bytes => Triple.of_fact fun hbytes => ?_
  subst hbytes
  exact Triple.pure fun _ hw => ⟨rfl, hw⟩

/-! ## §2 Writing -/

theorem enter_spec {x : FileEntry String Bytes} (h : PE T)
    (hX : (∀ q n, T.slot p = some (q, n) → T.node q = some .dir → T.node (q ++ [n]) ≠ none) → X) :
    Triple (On calm T) (enter p x)
      (fun handle w => ∃ q n, ∃ (hdir : T.node q = some .dir) (hfree : T.node (q ++ [n]) = none),
        T.slot p = some (q, n) ∧ handle = q ++ [n] ∧ On calm (T.put q n x hdir hfree) w)
      (Err calm X PE) := by
  refine Triple.bind (attempt_spec h) fun _ => Triple.bind get_spec fun w => ?_
  refine Triple.of_fact fun htree => ?_
  subst htree
  split
  · rename_i hslot
    refine Triple.throw fun _ hw => ⟨hw.2.2 ▸ h, fun _ => hX fun q n hqn => ?_⟩
    rw [hslot] at hqn
    cases hqn
  · rename_i q n hslot
    split
    · rename_i hqn
      intro s hs
      exact ⟨q, n, hqn.1, hqn.2, hslot, rfl, fun hcalm => hs.1 ▸ hs.2.1 hcalm, rfl⟩
    · rename_i hqn
      refine Triple.throw fun _ hw => ⟨hw.2.2 ▸ h, fun _ => hX fun q' n' hslot' hdir hne => ?_⟩
      obtain ⟨rfl, rfl⟩ := Prod.mk.inj (Option.some.inj (hslot.symm.trans hslot'))
      exact hqn ⟨hdir, hne⟩

/-- Something new where there is a place for it. -/
theorem enter_at {x : FileEntry String Bytes} {q : Path} {n : String} (h : PE T)
    (hslot : T.slot p = some (q, n)) (hdir : T.node q = some .dir)
    (hfree : T.node (q ++ [n]) = none) :
    Triple (On calm T) (enter p x)
      (fun handle w => handle = q ++ [n] ∧ On calm (T.put q n x hdir hfree) w)
      (Err calm X PE) := by
  refine (enter_spec h fun hX => ?_).after fun handle w hw => ?_
  · exact absurd hfree (hX q n hslot hdir)
  · obtain ⟨q', n', hdir', hfree', hslot', hhandle, hw⟩ := hw
    obtain ⟨rfl, rfl⟩ := Prod.mk.inj (Option.some.inj (hslot.symm.trans hslot'))
    exact ⟨hhandle, hw⟩

theorem writeBlock_spec {handle : Path} {block : Bytes}
    (h : ∀ k, PE (T.setContent handle (· ++ block.take k))) :
    Triple (On calm T) (writeBlock handle block)
      (fun _ => On calm (T.setContent handle (· ++ block))) (Err calm X PE) := by
  refine Triple.bind draw_spec fun fault => Triple.of_fact fun hcalm => ?_
  cases fault with
  | none => exact fun w hw => ⟨hw.1, by rw [← hw.2]⟩
  | some fault =>
      intro w hw
      refine ⟨?_, fun hc => by cases hcalm hc⟩
      rw [← hw.2] at h
      exact h fault.written

theorem mkdir_spec {parent q : Path} {name : String} (h : PE T)
    (hX : T.node (q ++ [name]) ≠ none → X) (hparent : T.locate parent = some q)
    (hdir : T.node q = some .dir) :
    Triple (On calm T) (mkdir (parent ++ [name]))
      (fun _ w => ∃ hfree : T.node (q ++ [name]) = none,
        On calm (T.put q name .dir hdir hfree) w) (Err calm X PE) := by
  have hslot := FileTree.slot_append (n := name) hparent
  refine Triple.bind (enter_spec h fun hno => hX (hno q name hslot hdir)) fun handle =>
    Triple.of_exists fun q' => Triple.of_exists fun n => Triple.of_exists fun hdir' =>
    Triple.of_exists fun hfree => Triple.of_fact fun hslot' => Triple.of_fact fun _ => ?_
  obtain ⟨rfl, rfl⟩ := Prod.mk.inj (Option.some.inj (hslot.symm.trans hslot'))
  exact Triple.pure fun w hw => ⟨hfree, hw⟩

theorem mkdtemp_spec {parent q : Path} {tmp : String} (h : PE T)
    (hX : T.node (q ++ [tmp]) ≠ none → X) (hparent : T.locate parent = some q)
    (hdir : T.node q = some .dir) :
    Triple (On calm T) (mkdtemp parent tmp)
      (fun stage w => stage = parent ++ [tmp] ∧ ∃ hfree : T.node (q ++ [tmp]) = none,
        On calm (T.put q tmp .dir hdir hfree) w) (Err calm X PE) :=
  Triple.bind (mkdir_spec h hX hparent hdir) fun _ => Triple.pure fun _ hw => ⟨rfl, hw⟩

/-- A directory of our own, for as long as the body runs. -/
theorem withTemporary_spec {α : Type} {body : Path → Work α} {Q : α → World → Prop}
    {parent q : Path} {tmp : String} (h : PE T) (hX : T.node (q ++ [tmp]) ≠ none → X)
    (hparent : T.locate parent = some q) (hdir : T.node q = some .dir)
    (hbody : ∀ hfree : T.node (q ++ [tmp]) = none,
      Triple (On calm (T.put q tmp .dir hdir hfree)) (body (parent ++ [tmp]))
        (fun a w => Q a (cleanup (parent ++ [tmp]) w))
        (Err calm X fun t => PE (rmtree (parent ++ [tmp]) t))) :
    Triple (On calm T) (withTemporary parent tmp body) Q (Err calm X PE) := by
  refine Triple.bind (mkdtemp_spec h hX hparent hdir) fun stage => Triple.of_fact fun hstage =>
    Triple.of_exists fun hfree => ?_
  subst hstage
  exact Triple.ensuring (hbody hfree)

end NetPulse.Recovery
