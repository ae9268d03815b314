import NetPulse.Recovery.Verify

/-
# NetPulse.Recovery.Create — what `create` leaves in the destination

`create_spec`: an archive that has been created has the configuration of the data directory, the
snapshot of the database and the manifest of the two; and if nothing fails, one is created for all
sources that are not too large and whose checks succeed.
-/

namespace NetPulse.Recovery

open NetPulse.Lib NetPulse.Lib.Json NetPulse.Lib.Prog

variable {Num : Type} (lib : Library Num)

/-! ## §1 Archives -/

/-- `tables` of the manifest. -/
def tablesOf (database : Bytes) : Nat := (lib.tableCount database).toOption.getD 0

/-- `dpapi_values` of the manifest. -/
def dpapiOf (config : Bytes) : Nat :=
  match lib.loadsText config with
  | some (.obj settings) => encryptedEntries settings
  | _ => 0

/-- The manifest of two payloads. -/
def manifestFor (o : Occasion) (config database : Bytes) : Json Num :=
  manifestOf lib o.version o.created config database (tablesOf lib database) (dpapiOf lib config)

/-- What goes into the zip. -/
def membersFor (o : Occasion) (config database : Bytes) : List (String × Bytes) :=
  [("config.json", config), ("manifest.json", lib.dumps (manifestFor lib o config database)),
    ("network_stats.db", database)]

def archiveFor (o : Occasion) (config database : Bytes) : Bytes :=
  lib.writeZip (membersFor lib o config database)

/-- What `create` asks of the payloads. -/
structure Acceptable (config database : Bytes) : Prop where
  small : config.length ≤ maxConfig
  sum : config.length + database.length ≤ maxBytes
  parsed : ∃ settings, lib.loadsText config = some (.obj settings)
  whole : lib.integrityCheck database = .ok ["ok"]
  counted : ∃ tables, lib.tableCount database = .ok tables

/-- What `create` asks of the tree. -/
structure Ready (T : Tree) (o : Occasion) (source destination : Path) (config : Bytes) : Prop where
  config : T.fileAt (source ++ ["config.json"]) = some config
  database : ∃ content, T.fileAt (source ++ ["network_stats.db"]) = some content ∧
    content.length ≤ maxBytes
  dir : T.node destination = some .dir
  stage : T.node (destination ++ [o.tmp]) = none
  target : T.node (destination ++ [o.name]) ≠ some .dir
  apart : o.name ≠ o.tmp

/-! ## §2 Steps -/

variable {lib}
variable {calm : Bool} {T : Tree} {X : Prop} {PE : Tree → Prop}

/-- All that is in the first tree is in the second one as it was. -/
def Keeps (T T' : Tree) : Prop := ∀ p, T.node p ≠ none → T'.node p = T.node p

theorem Keeps.trans {T T' T'' : Tree} (h : Keeps T T') (h' : Keeps T' T'') : Keeps T T'' := by
  intro p hp
  rw [h' p (by rw [h p hp]; exact hp), h p hp]

theorem Keeps.fileAt {T T' : Tree} {p : Path} {content : Bytes} (h : Keeps T T')
    (hp : T.fileAt p = some content) : T'.fileAt p = some content := by
  obtain ⟨q, hq, hnode⟩ := FileTree.fileAt_eq_some.mp hp
  refine FileTree.fileAt_eq_some.mpr ⟨q, (FileTree.Extends.of_same h).locate hq, ?_⟩
  rw [h q (by rw [hnode]; exact Option.some_ne_none _), hnode]

theorem keeps_put {q : Path} {n : String} {x : FileEntry String Bytes}
    {hdir : T.node q = some .dir} {hfree : T.node (q ++ [n]) = none} :
    Keeps T (T.put q n x hdir hfree) := by
  intro p hp
  apply FileTree.put_other
  rintro rfl
  exact hp hfree

theorem mkdirs_spec {cur todo : Path} (hcur : T.node cur = some .dir) (h : ∀ T', PE T')
    (hX : T.node (cur ++ todo) ≠ some .dir → X) :
    Triple (On calm T) (mkdirs cur todo)
      (fun _ w => ∃ T', Keeps T T' ∧ T'.node (cur ++ todo) = some .dir ∧
        (T.node (cur ++ todo) = some .dir → T' = T) ∧ On calm T' w) (Err calm X PE) := by
  induction todo generalizing cur T with
  | nil =>
      refine Triple.pure fun w hw => ⟨T, fun _ _ => rfl, ?_, fun _ => rfl, hw⟩
      rw [List.append_nil]
      exact hcur
  | cons n rest ih =>
      have hsplit : cur ++ n :: rest = cur ++ [n] ++ rest := by
        rw [List.append_assoc]
        rfl
      rw [hsplit] at hX ⊢
      refine Triple.bind (attempt_spec (h T)) fun _ => Triple.bind get_spec fun w =>
        Triple.of_fact fun htree => ?_
      rw [htree]
      split
      · rename_i hthere
        exact (ih hthere hX).before fun w hw => hw.2
      · rename_i hmissing
        have hbad : T.node (cur ++ [n] ++ rest) ≠ some .dir := by
          intro hdir
          apply hmissing
          by_cases hrest : rest = []
          · rw [hrest, List.append_nil] at hdir
            exact hdir
          · exact FileTree.dir_of_child (by rw [hdir]; exact Option.some_ne_none _) hrest
        have hlocate := FileTree.locate_of_present (Or.inl hcur)
        refine Triple.bind ((mkdir_spec (h T) (fun _ => hX hbad) hlocate hcur).before
          fun w hw => hw.2) fun _ => Triple.of_exists fun hfree => ?_
        refine ((ih FileTree.put_self (fun _ => hX hbad)).after fun _ w hw => ?_)
        obtain ⟨T', hkeeps, hdir, -, hw⟩ := hw
        exact ⟨T', keeps_put.trans hkeeps, hdir, fun hthere => absurd hthere hbad, hw⟩

theorem writeNew_spec {B : Tree} {stage d : Path} {done : String → Option Bytes} {name : String}
    {content : Bytes} (hs : Stage B stage d) (hT : FileTree.Filled B d done T)
    (hfree : done name = none) (h : ∀ T', PE T') :
    Triple (On calm T) (writeNew (stage ++ [name]) content)
      (fun _ w => ∃ T', FileTree.Filled B d (Function.update done name (some content)) T' ∧
        On calm T' w) (Err calm X PE) := by
  have hplace : T.node (d ++ [name]) = none := by
    rw [hT.child, hfree]
    rfl
  refine Triple.bind (enter_at (h T) (hs.slot hT name) (hT.self.trans hs.dir) hplace) fun handle =>
    Triple.of_fact fun hhandle => ?_
  subst hhandle
  exact (writeBlock_spec fun k => h _).after
    fun _ w hw => ⟨_, hT.put_setContent [] (· ++ content), hw⟩

theorem addMembers_spec {stage : Path} {names : List String} (content : String → Bytes)
    (h : PE T) (hat : ∀ name ∈ names, T.fileAt (stage ++ [name]) = some (content name)) :
    Triple (On calm T) (addMembers stage names)
      (fun files w => files = names.map (fun name => (name, content name)) ∧ On calm T w)
      (Err calm X PE) := by
  induction names with
  | nil => exact Triple.pure fun _ hw => ⟨rfl, hw⟩
  | cons name rest ih =>
      have hfirst := hat name List.mem_cons_self
      refine Triple.bind (readFile_spec h hfirst) fun bytes => Triple.of_fact fun hbytes => ?_
      subst hbytes
      refine Triple.bind (ih fun m hm => hat m (List.mem_cons_of_mem name hm)) fun others =>
        Triple.of_fact fun hothers => ?_
      exact Triple.pure fun w hw => ⟨by rw [hothers]; rfl, hw⟩

theorem osReplace_spec {source target q : Path} {n : String} {content : Bytes} (h : PE T)
    (hsource : T.node source = some (.file content)) (hslot : T.slot target = some (q, n))
    (hdir : T.node q = some .dir) (hX : T.node (q ++ [n]) = some .dir → X) :
    Triple (On calm T) (osReplace source target)
      (fun _ w => ∃ htarget : T.node (q ++ [n]) ≠ some .dir,
        On calm (T.rename source content q n hsource hdir htarget) w) (Err calm X PE) := by
  refine Triple.bind (attempt_spec h) fun _ => Triple.bind get_spec fun w =>
    Triple.of_fact fun htree => ?_
  subst htree
  split
  · rename_i content' q' n' hsource' hslot'
    obtain ⟨rfl, rfl⟩ := Prod.mk.inj (Option.some.inj (hslot.symm.trans hslot'))
    cases hsource.symm.trans hsource'
    split
    · rename_i hok
      exact fun s hs => ⟨hok.2, fun hcalm => hs.1 ▸ hs.2.1 hcalm, rfl⟩
    · rename_i hno
      refine Triple.throw fun s hs => ⟨hs.2.2 ▸ h, fun _ => hX ?_⟩
      by_contra hfree
      exact hno ⟨hdir, hfree⟩
  · rename_i hno
    exact absurd hslot (hno content q n hsource)

/-! ## §3 The archive -/

/-- The tables and the protected values, as the checks have found them. -/
theorem recorded {config database : Bytes} {settings : Entries Num} {tables : Nat}
    (hsettings : lib.loadsText config = some (.obj settings))
    (htables : lib.tableCount database = .ok tables) :
    tables = tablesOf lib database ∧ encryptedEntries settings = dpapiOf lib config := by
  unfold tablesOf dpapiOf
  rw [hsettings, htables]
  exact ⟨rfl, rfl⟩

/-- The archive is in the destination, and the stage can be taken away. -/
structure Packed (stage target : Path) (archive : Bytes) (t : Tree) : Prop where
  placed : t.node target = some (.file archive)
  staged : t.node stage = some .dir
  apart : target ≠ stage

theorem pack_spec {B : Tree} {o : Occasion} {path destination stage : Path} {config : Bytes}
    (hs : Stage B stage stage) (hdest : B.node destination = some .dir)
    (hpath : B.fileAt path = some config) (h : ∀ T', PE T')
    (hX : (∀ database, o.snapshot = .ok database → ¬ Acceptable lib config database) → X)
    (hX' : B.node (destination ++ [o.name]) = some .dir → X) :
    Triple (On calm B) (pack lib o path destination stage)
      (fun receipt w => ∃ database, (o.snapshot = .ok database ∧ Acceptable lib config database ∧
        receipt = ⟨destination ++ [o.name], tablesOf lib database, dpapiOf lib config⟩) ∧
        Packed stage (destination ++ [o.name]) (archiveFor lib o config database) w.tree)
      (Err calm X PE) := by
  have hempty : FileTree.Filled B stage (fun _ => none) B := FileTree.Filled.empty hs.empty
  refine Triple.bind (readFile_spec (h B) hpath) fun source => Triple.of_fact fun hsource => ?_
  subst hsource
  refine Triple.bind (writeNew_spec hs hempty rfl h) fun _ => Triple.of_exists fun T₁ =>
    Triple.of_fact fun h₁ => ?_
  have hconfig₁ := h₁.fileAt hs.empty hs.locate (Function.update_self _ _ _)
  refine Triple.bind (checkConfig_spec hconfig₁ (h T₁) fun hno => hX fun database _ hok => ?_)
    fun dpapi => Triple.of_fact fun hsettings => ?_
  · obtain ⟨settings, hparsed⟩ := hok.parsed
    exact hno settings ⟨hok.small, hparsed⟩
  obtain ⟨settings, hsmall, hparsed, rfl⟩ := hsettings
  refine Triple.bind (library_spec (h T₁) fun kind hkind => hX fun database hdb => ?_) fun database =>
    Triple.of_fact fun hdb => ?_
  · rw [hdb] at hkind
    cases hkind
  have hrest : ¬ Acceptable lib config database → X := fun hno => hX fun database' hdb' => by
    rw [← Except.ok.inj (hdb.symm.trans hdb')]
    exact hno
  refine Triple.bind (require_spec (h T₁) fun hno => hrest fun hok => hno ?_) fun _ =>
    Triple.of_fact fun hfits => ?_
  · exact Nat.le_trans (Nat.le_add_left _ _) hok.sum
  refine Triple.bind (writeNew_spec hs h₁ rfl h) fun _ => Triple.of_exists fun T₂ =>
    Triple.of_fact fun h₂ => ?_
  have hdatabase₂ := h₂.fileAt hs.empty hs.locate (Function.update_self _ _ _)
  have hconfig₂ : T₂.fileAt (stage ++ ["config.json"]) = some config :=
    h₂.fileAt hs.empty hs.locate rfl
  refine Triple.bind (checkDatabase_spec hdatabase₂ (h T₂) fun hno => hrest fun hok => ?_) fun tables =>
    Triple.of_fact fun hcheck => ?_
  · obtain ⟨tables, htables⟩ := hok.counted
    exact hno tables ⟨hok.whole, htables⟩
  refine Triple.bind (readFile_spec (h T₂) hconfig₂) fun config' => Triple.of_fact fun hc => ?_
  subst hc
  refine Triple.bind (readFile_spec (h T₂) hdatabase₂) fun database' => Triple.of_fact fun hd => ?_
  subst hd
  refine Triple.bind (require_spec (h T₂) fun hno => hrest fun hok => hno hok.sum) fun _ =>
    Triple.of_fact fun hsum => ?_
  have hok : Acceptable lib config database :=
    ⟨hsmall, hsum, ⟨settings, hparsed⟩, hcheck.1, tables, hcheck.2⟩
  obtain ⟨rfl, hdpapi⟩ := recorded hparsed hcheck.2
  rw [hdpapi]
  refine Triple.bind (writeNew_spec hs h₂ rfl h) fun _ => Triple.of_exists fun T₃ =>
    Triple.of_fact fun h₃ => ?_
  -- The three members are in the stage.
  let content : String → Bytes := fun name =>
    if name = "config.json" then config
    else if name = "manifest.json" then lib.dumps (manifestFor lib o config database) else database
  refine Triple.bind (addMembers_spec content (h T₃) fun name hname => ?_) fun files =>
    Triple.of_fact fun hfiles => ?_
  · rcases List.mem_cons.mp hname with rfl | hname
    · exact h₃.fileAt hs.empty hs.locate rfl
    rcases List.mem_cons.mp hname with rfl | hname
    · exact h₃.fileAt hs.empty hs.locate rfl
    · obtain rfl := List.mem_singleton.mp hname
      exact h₃.fileAt hs.empty hs.locate rfl
  have hmembers : files = membersFor lib o config database := hfiles
  subst hmembers
  refine Triple.bind (writeNew_spec hs h₃ rfl h) fun _ => Triple.of_exists fun T₄ =>
    Triple.of_fact fun h₄ => ?_
  refine Triple.bind (attempt_spec (h T₄)) fun _ => ?_
  have hext := h₄.extends hs.empty
  have hdest₄ : T₄.node destination = some .dir := hext.dir hdest
  have hzip : T₄.node (stage ++ ["archive.zip"]) = some (.file (archiveFor lib o config database)) := by
    rw [h₄.child]
    rfl
  have hslot := FileTree.slot_append (n := o.name) (FileTree.locate_of_present (Or.inl hdest₄))
  refine Triple.bind (osReplace_spec (h T₄) hzip hslot hdest₄ fun htarget => hX' ?_) fun _ =>
    Triple.of_exists fun htarget => ?_
  · rw [← htarget]
    refine (h₄.other _ fun n heq => ?_).symm
    rw [heq, h₄.child] at htarget
    obtain ⟨bytes, -, hbytes⟩ := Option.map_eq_some_iff.mp htarget
    cases hbytes
  have hstage₄ : T₄.node stage = some .dir := hext.dir hs.dir
  refine Triple.pure fun w hw => ⟨database, ⟨hdb, hok, rfl⟩, ?_⟩
  rw [hw.2]
  refine ⟨FileTree.rename_target, FileTree.rename_dir hstage₄, fun heq => htarget ?_⟩
  rw [heq]
  exact hstage₄

/-- The stage goes, the archive stays. -/
theorem Packed.rmtree {destination : Path} {name tmp : String} {archive : Bytes} {t : Tree}
    (h : Packed (destination ++ [tmp]) (destination ++ [name]) archive t) :
    (rmtree (destination ++ [tmp]) t).fileAt (destination ++ [name]) = some archive := by
  apply FileTree.fileAt_of_node
  unfold Recovery.rmtree
  rw [FileTree.locate_of_present (Or.inl h.staged)]
  show (t.remove (destination ++ [tmp])).node _ = _
  rw [FileTree.remove_node (List.append_ne_nil_of_right_ne_nil _ (List.cons_ne_nil tmp [])),
    if_neg fun hpre => h.apart ?_, h.placed]
  exact (hpre.eq_of_length (by rw [List.length_append, List.length_append]; rfl)).symm

theorem acquire_spec : Triple (fun w => (calm = true → w.locked = false) ∧ On calm T w) acquire
    (fun _ => On calm T) (Err calm X fun _ => True) := by
  intro w hw
  show Post _ _ (EStateM.bind (require (w.locked = false) "Резервное копирование уже выполняется")
    (fun _ => set { w with locked := true }) w)
  unfold require EStateM.bind
  by_cases hfree : w.locked = false
  · rw [if_pos hfree]
    exact hw.2
  · rw [if_neg hfree]
    exact ⟨trivial, fun hcalm => absurd (hw.1 hcalm) hfree⟩

/-- **What `create` does**, under all faults, and when it succeeds if nothing fails. -/
theorem create_spec {o : Occasion} {source destination : Path}
    (hX : (∀ config database, o.snapshot = .ok database → Acceptable lib config database →
      ¬ Ready T o source destination config) → X) :
    Triple (fun w => (calm = true → w.locked = false) ∧ On calm T w)
      (create lib o source destination)
      (fun receipt w => ∃ config database, T.fileAt (source ++ ["config.json"]) = some config ∧
        o.snapshot = .ok database ∧ Acceptable lib config database ∧
        receipt = ⟨destination ++ [o.name], tablesOf lib database, dpapiOf lib config⟩ ∧
        w.tree.fileAt (destination ++ [o.name]) = some (archiveFor lib o config database))
      (Err calm X fun _ => True) := by
  refine Triple.bind acquire_spec fun _ => Triple.ensuring ?_
  show Triple (On calm T) _ _ (Err calm X fun _ => True)
  refine Triple.bind (isFile_spec trivial) fun there => Triple.of_fact fun hthere => ?_
  refine Triple.bind (require_spec trivial fun hno => hX fun config database _ _ hr => hno ?_)
    fun _ => Triple.of_fact fun hyes => ?_
  · rw [hthere, hr.config]
    rfl
  obtain ⟨config, hconfig⟩ := Option.isSome_iff_exists.mp (hthere.symm.trans hyes)
  refine Triple.bind (isFile_spec trivial) fun there' => Triple.of_fact fun hthere' => ?_
  refine Triple.bind (require_spec trivial fun hno => hX fun config database _ _ hr => hno ?_)
    fun _ => Triple.of_fact fun hyes' => ?_
  · obtain ⟨content, hcontent, -⟩ := hr.database
    rw [hthere', hcontent]
    rfl
  obtain ⟨database, hdatabase⟩ := Option.isSome_iff_exists.mp (hthere'.symm.trans hyes')
  refine Triple.bind (fileSize_spec trivial hconfig) fun size => Triple.of_fact fun hsize => ?_
  subst hsize
  have hsame : ∀ {config'}, Ready T o source destination config' → config' = config := fun hr =>
    Option.some.inj (hr.config.symm.trans hconfig)
  refine Triple.bind (require_spec trivial fun hno => hX fun config' _ _ hok hr => hno ?_)
    fun _ => Triple.of_fact fun hsmall => ?_
  · rw [← hsame hr]
    exact hok.small
  refine Triple.bind (fileSize_spec trivial hdatabase) fun size => Triple.of_fact fun hsize => ?_
  subst hsize
  refine Triple.bind (require_spec trivial fun hno => hX fun config' _ _ _ hr => hno ?_)
    fun _ => Triple.of_fact fun _ => ?_
  · obtain ⟨content, hcontent, hlength⟩ := hr.database
    rw [Option.some.inj (hdatabase.symm.trans hcontent)]
    exact hlength
  refine Triple.bind (mkdirs_spec T.root (fun _ => trivial) fun hno => hX fun _ _ _ _ hr =>
    hno hr.dir) fun _ => Triple.of_exists fun T' => Triple.of_fact fun hkeeps =>
    Triple.of_fact fun hdir => Triple.of_fact fun hunless => ?_
  rw [List.nil_append] at hdir hunless
  have hlocate := FileTree.locate_of_present (Or.inl hdir)
  refine withTemporary_spec trivial (fun hno => hX fun _ _ _ _ hr => hno ?_) hlocate hdir
    fun hfree => ?_
  · rw [hunless hr.dir]
    exact hr.stage
  refine ((pack_spec (stage_put hlocate hdir hfree) (FileTree.extends_put.dir hdir)
    ((hkeeps.trans keeps_put).fileAt hconfig) (fun _ => trivial) (fun hno => hX
    fun config' database hdb hok hr => hno database hdb (hsame hr ▸ hok))
    (fun htarget => hX fun _ _ _ _ hr => hr.target ?_)).after fun receipt w hw => ?_)
  · have hne : destination ++ [o.name] ≠ destination ++ [o.tmp] := fun heq =>
      hr.apart (List.cons.inj (List.append_cancel_left heq)).1
    rw [FileTree.put_other hne, hunless hr.dir] at htarget
    exact htarget
  · obtain ⟨database, ⟨hdb, hok, hreceipt⟩, hpacked⟩ := hw
    exact ⟨config, database, hconfig, hdb, hok, hreceipt, hpacked.rmtree⟩

/-- What a successful `create` has left. -/
theorem create_created {o : Occasion} {source destination : Path} {w w' : World} {receipt : Receipt}
    (hrun : create lib o source destination w = .ok receipt w') :
    ∃ config database, w.tree.fileAt (source ++ ["config.json"]) = some config ∧
      o.snapshot = .ok database ∧ Acceptable lib config database ∧
      receipt = ⟨destination ++ [o.name], tablesOf lib database, dpapiOf lib config⟩ ∧
      w'.tree.fileAt (destination ++ [o.name]) = some (archiveFor lib o config database) := by
  have hspec : Triple (fun s => (false = true → s.locked = false) ∧ On false w.tree s)
      (create lib o source destination) _ (Err false True fun _ => True) :=
    create_spec fun _ => trivial
  exact hspec.returned ⟨(fun h => by cases h), On.of_tree rfl⟩ hrun

/-- `create` succeeds, if nothing fails. -/
theorem create_succeeds {o : Occasion} {source destination : Path} {w : World}
    {config database : Bytes} (hfree : w.locked = false) (hcalm : w.faults = [])
    (hsnapshot : o.snapshot = .ok database) (hok : Acceptable lib config database)
    (hready : Ready w.tree o source destination config) :
    ∃ receipt w', create lib o source destination w = .ok receipt w' := by
  have hspec : Triple _ (create lib o source destination) _ (Err true False fun _ => True) :=
    create_spec fun hno => hno config database hsnapshot hok hready
  cases hrun : create lib o source destination w with
  | ok receipt w' => exact ⟨receipt, w', rfl⟩
  | error e w' => exact ((hspec.raised ⟨fun _ => hfree, fun _ => hcalm, rfl⟩ hrun).2 rfl).elim

end NetPulse.Recovery
