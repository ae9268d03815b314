import NetPulse.Files.Catalog

/-
# NetPulse.Files.Access — what a node learns of the shares that it may not have

Two states of the shared directories are alike for a node when the shares that it may have are the
same. `responses_confined_iff` says for which requests the answer is the same then, whatever there is
in the others: only `serve` asks for the allow list, behind the search for the file, and no other
method does. So `list_shares` tells of every share, `find` of every one that is asked for, and `stat`,
`read` and `download` give out what they are asked for by name; and an id is searched for everywhere.
-/

namespace NetPulse.Files

open NetPulse.Lib
open NetPulse.Mesh (Canon canon)

variable {Blob : Type}

/-! ## §1 Two states of the directories -/

section Definitions

variable [Canon] [PathText] [Patterns] [Content Blob]

/-- The node may have a share of this directory. -/
def Visible (shares : List Share) (node path : String) : Prop :=
  ∃ s ∈ shares, aclOk s node = true ∧ s.path = path

/-- The shares that the node may have are the same. -/
def Alike (shares : List Share) (node : String) (fs fs' : String → Dir Blob) : Prop :=
  ∀ path, Visible shares node path → fs path = fs' path

/-- The answer does not depend on what the node may not have. -/
def Confined (h : Host Blob) (node : String) (req : Request) : Prop :=
  ∀ fs fs', Alike h.shares node fs fs' → respond h fs req = respond h fs' req

/-- Everything is visible. -/
def Open (shares : List Share) (node : String) : Prop :=
  ∀ s ∈ shares, Visible shares node s.path

/-- A path of components in a directory. -/
def KeyOk (key : List String) : Prop := key ≠ [] ∧ ∀ c ∈ key, Component c ∧ c ≠ ".."

instance (key : List String) : Decidable (KeyOk key) := inferInstanceAs (Decidable (_ ∧ _))

/-- A text that names a file, whether there is one or not. -/
def Names (rel : String) : Prop :=
  rel ≠ "" ∧ PathText.isAbsolute rel = false ∧ ".." ∉ PathText.parts rel ∧ PathText.parts rel ≠ []

variable (Blob) in
/-- A reference that leads to nothing that the node may not have: an id that is the hash of
nothing, a share that there is not, one that the node may have, or a path that names no file. -/
def RefHarmless (shares : List Share) (node : String) (ref : Ref) : Prop :=
  match set? ref.share, set? ref.id with
  | none, some fid => Open shares node ∨ ∀ data : Blob, Content.sha256 data ≠ fid
  | _, _ => ∀ s, shareByName shares (ref.share.getD "") = some s →
      Visible shares node s.path ∨ ¬ Names (ref.path.getD "")

/-- **The condition**, by request. -/
def Harmless (h : Host Blob) (node : String) : Request → Prop
  | .listShares => Open h.shares node
  | .find want pattern _ => ∀ s ∈ h.shares, asked want s = true → Visible h.shares node s.path ∨
      ∀ key, KeyOk key → Patterns.fits (posix key) ((set? pattern).getD "*") = false
  | .stat ref _ => RefHarmless Blob h.shares node ref
  | .read ref limit => limit.get 262144 = .error .raised ∨
      RefHarmless Blob h.shares node ref
  | .serve label replyTo ref _ _ _ =>
      (∀ l, set? label = some l → (set? replyTo).isSome = true → h.serves.contains l = true) ∨
        RefHarmless Blob h.shares node ref
  | .download ref _ => RefHarmless Blob h.shares node ref

end Definitions

/-! ## §2 Directories and paths -/

/-- A directory without files. -/
def Dir.empty : Dir Blob := ⟨[], some, (fun e he => by cases he), rfl⟩

/-- A directory with one file. -/
def Dir.single (key : List String) (hkey : KeyOk key) (data : Blob) : Dir Blob where
  files := [(key, ⟨data, 0⟩)]
  resolve := some
  named e he := by
    rw [List.mem_singleton.mp he]
    exact hkey
  root := rfl

/-- There is nothing anywhere. -/
def nothing : String → Dir Blob := fun _ => Dir.empty

/-- There is nothing anywhere, but for one file. -/
def only (path : String) (key : List String) (hkey : KeyOk key) (data : Blob) : String → Dir Blob :=
  Function.update nothing path (Dir.single key hkey data)

theorem only_self (path : String) (key : List String) (hkey : KeyOk key) (data : Blob) :
    only path key hkey data path = Dir.single key hkey data := Function.update_self ..

theorem alike_only [Canon] {shares : List Share} {node path : String} {key : List String}
    {hkey : KeyOk key} {data : Blob} (h : ¬ Visible shares node path) :
    Alike shares node nothing (only path key hkey data) := by
  intro other hother
  have hne : other ≠ path := fun heq => h (heq ▸ hother)
  exact (Function.update_of_ne hne _ _).symm

theorem mem_scan [Content Blob] {dir : Dir Blob} {row : Row} (h : row ∈ scan dir) :
    ∃ key, KeyOk key ∧ row.path = posix key := by
  unfold scan at h
  rw [List.mem_insertionSort] at h
  obtain ⟨e, he, rfl⟩ := List.mem_map.mp h
  exact ⟨e.1, dir.named e he, rfl⟩

section Paths

variable [PathText]

/-- A text that names no file leads to none. -/
theorem fileAt_of_not_names {dir : Dir Blob} {rel : String} (h : ¬ Names rel) :
    fileAt dir rel = none := by
  unfold fileAt safeJoin
  split
  · rfl
  · rename_i hsafe
    simp only [Bool.or_eq_true, decide_eq_true_eq, List.contains_iff_mem, not_or] at hsafe
    have hparts : PathText.parts rel = [] := by
      by_contra hne
      exact h ⟨hsafe.1.1, Bool.eq_false_iff.mpr hsafe.1.2, hsafe.2, hne⟩
    have hnone : Dict.lookup [] dir.files = none := by
      apply Dict.lookup_eq_none
      intro hmem
      obtain ⟨e, he, hkey⟩ := List.mem_map.mp hmem
      exact (dir.named e he).1 hkey
    rw [hparts, dir.root, Option.bind_some, hnone]
    rfl

theorem fileAt_empty (rel : String) : fileAt (Dir.empty : Dir Blob) rel = none := by
  unfold fileAt
  cases safeJoin Dir.empty rel <;> rfl

theorem keyOk_of_names {rel : String} (h : Names rel) : KeyOk (PathText.parts rel) := by
  obtain ⟨-, habsolute, hdots, hne⟩ := h
  refine ⟨hne, fun c hc => ⟨PathText.component rel habsolute c hc, ?_⟩⟩
  rintro rfl
  exact hdots hc

theorem fileAt_single {rel : String} (h : Names rel) (data : Blob) :
    fileAt (Dir.single (PathText.parts rel) (keyOk_of_names h) data) rel =
      some (PathText.parts rel, ⟨data, 0⟩) := by
  obtain ⟨hne, habsolute, hdots, -⟩ := h
  unfold fileAt safeJoin
  rw [if_neg]
  · show (Dict.lookup _ [(PathText.parts rel, _)]).map _ = _
    rw [Dict.lookup, if_pos rfl]
    rfl
  · simp only [Bool.or_eq_true, decide_eq_true_eq, List.contains_iff_mem, not_or]
    exact ⟨⟨hne, Bool.eq_false_iff.mp habsolute⟩, hdots⟩

/-- `a` names a file. -/
theorem names_plain : Names "a" := by
  refine ⟨by decide, PathText.plain.1, ?_, ?_⟩
  · rw [PathText.plain.2]
    decide
  · rw [PathText.plain.2]
    decide

end Paths

/-! ## §3 What the search for a file does not tell -/

theorem findSome?_congr {α β : Type} {f g : α → Option β} {l : List α} (h : ∀ x ∈ l, f x = g x) :
    l.findSome? f = l.findSome? g := by
  induction l with
  | nil => rfl
  | cons x rest ih =>
      rw [List.findSome?_cons, List.findSome?_cons, h x List.mem_cons_self,
        ih fun y hy => h y (List.mem_cons_of_mem x hy)]

section Search

variable [Canon] [PathText] [Content Blob]

theorem findById_alike {shares : List Share} {node : String} {fs fs' : String → Dir Blob}
    (hfs : Alike shares node fs fs') (hopen : Open shares node) (fid : String) :
    findById shares fs fid = findById shares fs' fid := by
  unfold findById
  refine findSome?_congr fun s hs => ?_
  rw [hfs s.path (hopen s hs)]

omit [Canon] in
theorem findById_of_no_hash {shares : List Share} {fs : String → Dir Blob} {fid : String}
    (h : ∀ data : Blob, Content.sha256 data ≠ fid) : findById shares fs fid = none := by
  unfold findById
  rw [List.findSome?_eq_none_iff]
  intro s _
  rw [List.findSome?_eq_none_iff]
  intro e _
  cases fileAt (fs s.path) e.path with
  | none => rfl
  | some found => exact if_neg (h found.2.data)

omit [Content Blob] in
theorem locate_alike {shares : List Share} {node : String} {fs fs' : String → Dir Blob}
    {name : Option String} {rel : String} (hfs : Alike shares node fs fs')
    (h : ∀ s, shareByName shares (name.getD "") = some s →
      Visible shares node s.path ∨ ¬ Names rel) :
    locate shares fs name rel = locate shares fs' name rel := by
  unfold locate
  cases hshare : shareByName shares (name.getD "") with
  | none => rfl
  | some s =>
      simp only [Option.elim_some, ok_bind]
      rcases h s hshare with hvisible | hnames
      · rw [hfs s.path hvisible]
      · rw [fileAt_of_not_names hnames, fileAt_of_not_names hnames]

/-- **The search is confined** where the reference is harmless. -/
theorem resolveRef_alike {shares : List Share} {node : String} {fs fs' : String → Dir Blob}
    {ref : Ref} (hfs : Alike shares node fs fs')
    (href : RefHarmless Blob shares node ref) :
    resolveRef shares fs ref = resolveRef shares fs' ref := by
  cases hshare : set? ref.share with
  | some name =>
      simp only [RefHarmless, hshare] at href
      simp only [resolveRef, target, hshare]
      exact locate_alike hfs href
  | none =>
      cases hid : set? ref.id with
      | none =>
          simp only [RefHarmless, hshare, hid] at href
          simp only [resolveRef, target, hshare, hid]
          exact locate_alike hfs href
      | some fid =>
          simp only [RefHarmless, hshare, hid] at href
          simp only [resolveRef, target, hshare, hid]
          rcases href with hopen | hhash
          · rw [findById_alike hfs hopen]
            cases findById shares fs' fid with
            | none => rfl
            | some found =>
                refine locate_alike hfs fun s hs => Or.inl (hopen s ?_)
                exact List.mem_of_find?_eq_some hs
          · rw [findById_of_no_hash hhash, findById_of_no_hash hhash]
            rfl

theorem stat_alike {h : Host Blob} {node : String} {fs fs' : String → Dir Blob} {ref : Ref}
    {chunkSize : Number} (hfs : Alike h.shares node fs fs')
    (href : RefHarmless Blob h.shares node ref) :
    stat h fs ref chunkSize = stat h fs' ref chunkSize := by
  unfold stat
  rw [resolveRef_alike hfs href]

theorem refHarmless_kept {shares : List Share} {node : String} {ref : Ref} :
    RefHarmless Blob shares node ref.kept ↔
      RefHarmless Blob shares node ref := by
  simp only [RefHarmless, Ref.kept, set?_set?, getD_set?]

omit [Canon] in
theorem findById_nothing {shares : List Share} {fid : String} :
    findById shares (nothing : String → Dir Blob) fid = none := by
  unfold findById
  rw [List.findSome?_eq_none_iff]
  intro s _
  rfl

omit [Canon] in
/-- The one file that there is is found by its hash. -/
theorem findById_only {shares : List Share} {s : Share} {data : Blob} {fid : String}
    (hs : s ∈ shares) (hdata : Content.sha256 data = fid) :
    (findById shares (only s.path _ (keyOk_of_names names_plain) data) fid).isSome = true := by
  unfold findById
  rw [List.findSome?_isSome_iff]
  refine ⟨s, hs, ?_⟩
  rw [only_self, List.findSome?_isSome_iff]
  have hpath : posix (PathText.parts "a") = "a" := by
    rw [PathText.plain.2]
    rfl
  refine ⟨⟨posix (PathText.parts "a"), Content.size data, 0⟩, List.mem_singleton_self _, ?_⟩
  rw [hpath, fileAt_single names_plain]
  simp only [Option.bind_some]
  rw [if_pos hdata]
  rfl

omit [Canon] [Content Blob] in
theorem locate_ne_noId {shares : List Share} {fs : String → Dir Blob} {name : Option String}
    {rel fid : String} : locate shares fs name rel ≠ .error (.noId fid) := by
  unfold locate
  cases shareByName shares (name.getD "") with
  | none => exact fun heq => by cases heq
  | some s =>
      simp only [Option.elim_some, ok_bind]
      cases fileAt (fs s.path) rel with
      | none => exact fun heq => by cases heq
      | some found => exact fun heq => by cases heq

/-- A search that has found nothing. -/
def Refusal.missing : Refusal → Bool
  | .noId _ | .noFile _ _ => true
  | _ => false

/-- **A search that is not harmless tells** whether a file is there. -/
theorem resolveRef_tells {shares : List Share} {node : String} {ref : Ref}
    (h : ¬ RefHarmless Blob shares node ref) :
    ∃ fs fs' : String → Dir Blob, Alike shares node fs fs' ∧ ∃ r, r.missing = true ∧
      resolveRef shares fs ref = .error r ∧ resolveRef shares fs' ref ≠ .error r := by
  have hlocate : ∀ name : Option String, (∃ s, shareByName shares (name.getD "") = some s ∧
      ¬ Visible shares node s.path ∧ Names (ref.path.getD "")) →
      ∃ fs fs' : String → Dir Blob, Alike shares node fs fs' ∧ ∃ r, r.missing = true ∧
        locate shares fs name (ref.path.getD "") = .error r ∧
          locate shares fs' name (ref.path.getD "") ≠ .error r := by
    rintro name ⟨s, hs, hhidden, hnames⟩
    refine ⟨nothing, only s.path _ (keyOk_of_names hnames) Content.empty, alike_only hhidden,
      .noFile s.name (ref.path.getD ""), rfl, ?_, ?_⟩
    · rw [locate, hs, Option.elim_some, ok_bind, nothing, fileAt_empty]
      rfl
    · rw [locate, hs, Option.elim_some, ok_bind, only_self, fileAt_single hnames]
      exact fun heq => by cases heq
  cases hshare : set? ref.share with
  | some name =>
      simp only [RefHarmless, hshare, not_forall, not_or, not_not] at h
      obtain ⟨s, hs, hhidden, hnames⟩ := h
      simp only [resolveRef, target, hshare]
      exact hlocate ref.share ⟨s, hs, hhidden, hnames⟩
  | none =>
      cases hid : set? ref.id with
      | none =>
          simp only [RefHarmless, hshare, hid, not_forall, not_or, not_not] at h
          obtain ⟨s, hs, hhidden, hnames⟩ := h
          simp only [resolveRef, target, hshare, hid]
          exact hlocate ref.share ⟨s, hs, hhidden, hnames⟩
      | some fid =>
          simp only [RefHarmless, hshare, hid, not_forall, not_or, not_not, Open] at h
          obtain ⟨⟨s, hs, hhidden⟩, data, hdata⟩ := h
          simp only [resolveRef, target, hshare, hid]
          refine ⟨nothing, only s.path _ (keyOk_of_names names_plain) data, alike_only hhidden,
            .noId fid, rfl, ?_, ?_⟩
          · rw [findById_nothing]
            rfl
          · obtain ⟨found, hfound⟩ := Option.isSome_iff_exists.mp (findById_only hs hdata)
            rw [hfound]
            exact locate_ne_noId

end Search

/-! ## §4 Harmless requests -/

section Requests

variable [Canon] [PathText] [Patterns] [Content Blob]

omit [Canon] [PathText] in
/-- No row of a share fits a pattern that fits no path. -/
theorem fitting_of_no_fit {fs : String → Dir Blob} {pattern : String} {s : Share}
    (h : ∀ key, KeyOk key → Patterns.fits (posix key) pattern = false) :
    fitting fs pattern s = [] := by
  unfold fitting
  rw [List.map_eq_nil_iff, List.filter_eq_nil_iff]
  intro row hrow
  obtain ⟨key, hkey, hpath⟩ := mem_scan hrow
  rw [hpath, h key hkey]
  exact Bool.false_ne_true

theorem find_alike {h : Host Blob} {node : String} {fs fs' : String → Dir Blob}
    {want pattern : Option String} {limit : Number} (hfs : Alike h.shares node fs fs')
    (hok : Harmless h node (.find want pattern limit)) :
    find h.shares fs want pattern limit = find h.shares fs' want pattern limit := by
  have hrows : (h.shares.filter (asked want)).flatMap (fitting fs ((set? pattern).getD "*")) =
      (h.shares.filter (asked want)).flatMap (fitting fs' ((set? pattern).getD "*")) := by
    apply List.flatMap_congr
    intro s hs
    obtain ⟨hmem, hasked⟩ := List.mem_filter.mp hs
    rcases hok s hmem hasked with hvisible | hfits
    · rw [fitting, fitting, hfs s.path hvisible]
    · rw [fitting_of_no_fit hfits, fitting_of_no_fit hfits]
  unfold find
  rw [hrows]

/-- **What is harmless is confined.** -/
theorem confined_of_harmless {h : Host Blob} {node : String} {req : Request}
    (hok : Harmless h node req) : Confined h node req := by
  intro fs fs' hfs
  cases req with
  | listShares =>
      simp only [respond, listShares]
      congr 1
      apply List.map_congr_left
      intro s hs
      rw [hfs s.path (hok s hs)]
  | find want pattern limit => rw [respond, respond, find_alike hfs hok]
  | stat ref chunkSize => rw [respond, respond, stat_alike hfs hok]
  | read ref limit =>
      rw [respond, respond, read, read]
      rcases hok with hraised | href
      · rw [hraised]
        rfl
      · rw [resolveRef_alike hfs href]
  | serve label replyTo ref offset chunkSize buff =>
      rw [respond, respond, serve, serve]
      rcases hok with htaken | href
      · cases hlabel : set? label with
        | none => rfl
        | some l =>
            cases hpeer : set? replyTo with
            | none => rfl
            | some peer =>
                simp only [Option.elim_some, ok_bind]
                have hcontains : h.serves.contains l = true := htaken l hlabel (by rw [hpeer]; rfl)
                rw [if_pos hcontains, if_pos hcontains]
      · rw [resolveRef_alike hfs href]
  | download ref saveAs =>
      have hstat : stat h fs ref.kept .unset = stat h fs' ref.kept .unset :=
        stat_alike hfs (refHarmless_kept.mpr hok)
      rw [respond, respond, download, download]
      dsimp only
      rw [hstat]

/-! ## §5 What the other requests tell -/

/-- The answer to the request says when the search for the file has found nothing. -/
def Tells (h : Host Blob) (req : Request) (ref : Ref) : Prop :=
  ∀ (fs : String → Dir Blob) (r : Refusal), r.missing = true →
    (respond h fs req = .failed r ↔ resolveRef h.shares fs ref = .error r)

theorem harmless_of_tells {h : Host Blob} {node : String} {req : Request} {ref : Ref}
    (htells : Tells h req ref) (hconfined : Confined h node req) :
    RefHarmless Blob h.shares node ref := by
  by_contra hno
  obtain ⟨fs, fs', hfs, r, hr, hmissing, hother⟩ := resolveRef_tells hno
  apply hother
  rw [← htells fs' r hr, ← hconfined fs fs' hfs, htells fs r hr]
  exact hmissing

omit [Canon] [PathText] [Patterns] [Content Blob] in
theorem Number.get_ne_missing {n : Number} {d : Int} {r : Refusal} (hr : r.missing = true) :
    n.get d ≠ .error r := by
  intro h
  cases n with
  | unset => cases h
  | of n => cases h
  | bad =>
      cases h
      cases hr

omit [Canon] [PathText] [Patterns] [Content Blob] in
theorem bind_ne_error {α β : Type} {x : Except Refusal α} {f : α → Except Refusal β} {r : Refusal}
    (hx : x ≠ .error r) (hf : ∀ a, f a ≠ .error r) : x >>= f ≠ .error r := by
  cases x with
  | error e => exact fun h => hx (by cases h; rfl)
  | ok a => exact hf a

omit [Canon] [PathText] [Patterns] [Content Blob] in
/-- What comes behind the search cannot be taken for its failure. -/
theorem bind_eq_error {α β : Type} {x : Except Refusal α} {f : α → Except Refusal β} {r : Refusal}
    (hf : ∀ a, f a ≠ .error r) : x >>= f = .error r ↔ x = .error r := by
  cases x with
  | error e =>
      show (Except.error e : Except Refusal β) = .error r ↔ _
      rw [Except.error.injEq, Except.error.injEq]
  | ok a => exact iff_of_false (hf a) (fun h => by cases h)

omit [Canon] [PathText] [Patterns] [Content Blob] in
theorem orFailed_map {α : Type} {x : Except Refusal α} {f : α → Response Blob} {r : Refusal}
    (hf : ∀ a, f a ≠ .failed r) : orFailed (x.map f) = .failed r ↔ x = .error r := by
  cases x with
  | error e =>
      show Response.failed e = .failed r ↔ _
      rw [Response.failed.injEq, Except.error.injEq]
  | ok a => exact iff_of_false (hf a) (fun h => by cases h)

omit [Canon] [Patterns] in
theorem stat_eq_error {h : Host Blob} {fs : String → Dir Blob} {ref : Ref} {chunkSize : Number}
    {r : Refusal} (hr : r.missing = true) :
    stat h fs ref chunkSize = .error r ↔ resolveRef h.shares fs ref = .error r := by
  refine bind_eq_error ?_
  rintro ⟨share, key, file⟩
  exact bind_ne_error (Number.get_ne_missing hr) fun cs heq => by cases heq

theorem tells_stat (h : Host Blob) (ref : Ref) (chunkSize : Number) :
    Tells h (.stat ref chunkSize) ref := by
  intro fs r hr
  rw [respond, orFailed_map fun m heq => by cases heq]
  exact stat_eq_error hr

omit [Canon] [PathText] [Patterns] [Content Blob] in
theorem orFailed_eq {x : Except Refusal (Response Blob)} {r : Refusal}
    (hx : ∀ resp, x = .ok resp → resp ≠ .failed r) : orFailed x = .failed r ↔ x = .error r := by
  cases x with
  | error e =>
      show Response.failed e = .failed r ↔ _
      rw [Response.failed.injEq, Except.error.injEq]
  | ok resp => exact iff_of_false (hx resp rfl) (fun h => by cases h)

/-- A read with a limit that is a number. -/
theorem tells_read {h : Host Blob} {ref : Ref} {limit : Number} {n : Int}
    (hlimit : limit.get 262144 = .ok n) : Tells h (.read ref limit) ref := by
  intro fs r hr
  rw [respond, orFailed_eq]
  · rw [read, hlimit, ok_bind]
    refine bind_eq_error ?_
    rintro ⟨share, key, file⟩ heq
    dsimp only at heq
    split at heq
    · cases heq
      cases hr
    · cases heq
  · intro resp hresp
    rw [read, hlimit, ok_bind, bind_eq_ok] at hresp
    obtain ⟨⟨share, key, file⟩, -, hrest⟩ := hresp
    dsimp only at hrest
    split at hrest
    · cases hrest
    · cases hrest
      exact fun heq => by cases heq

/-- A transfer under a label that is free. -/
theorem tells_serve {h : Host Blob} {label replyTo : Option String} {ref : Ref}
    {offset chunkSize buff : Number} {l peer : String} (hlabel : set? label = some l)
    (hpeer : set? replyTo = some peer) (hfree : h.serves.contains l = false) :
    Tells h (.serve label replyTo ref offset chunkSize buff) ref := by
  have hserve : ∀ fs, serve h fs label replyTo ref offset chunkSize buff =
      resolveRef h.shares fs ref >>= fun found =>
        if aclOk found.1 peer then do
          let cs ← chunkSize.get found.1.chunkSize
          let start ← offset.get 0
          let _ ← buff.get 8
          .ok (.serving l (manifestOf found.1 found.2.1 found.2.2 (min cs h.maxChunk))
            (max 0 start) found.2.2.data)
        else .error (.denied found.1.name) := by
    intro fs
    rw [serve, hlabel, hpeer]
    show (if h.serves.contains l then _ else _) = _
    rw [if_neg (Bool.eq_false_iff.mp hfree)]
  intro fs r hr
  rw [respond, orFailed_eq, hserve]
  · refine bind_eq_error fun found => ?_
    split
    · refine bind_ne_error (Number.get_ne_missing hr) fun cs => ?_
      refine bind_ne_error (Number.get_ne_missing hr) fun start => ?_
      exact bind_ne_error (Number.get_ne_missing hr) fun _ heq => by cases heq
    · intro heq
      cases heq
      cases hr
  · intro resp hresp
    rw [hserve, bind_eq_ok] at hresp
    obtain ⟨found, -, hrest⟩ := hresp
    split at hrest
    · obtain ⟨cs, -, hrest⟩ := bind_eq_ok.mp hrest
      obtain ⟨start, -, hrest⟩ := bind_eq_ok.mp hrest
      obtain ⟨_, -, hrest⟩ := bind_eq_ok.mp hrest
      cases hrest
      exact fun heq => by cases heq
    · cases hrest

/-- A download of something. -/
theorem tells_download {h : Host Blob} {ref : Ref} {saveAs : Option String}
    (hsome : ¬ (ref.kept.share.isNone && ref.kept.path.isNone && ref.kept.id.isNone) = true) :
    Tells h (.download ref saveAs) ref.kept := by
  have hdownload : ∀ fs, download h fs ref saveAs = stat h fs ref.kept .unset >>= fun man =>
      if (h.downloads (targetName ((set? saveAs).getD man.path))).any
          (fun data => Content.sha256 data = man.id)
        then .ok (.present (targetName ((set? saveAs).getD man.path))) else .ok .copying := by
    intro fs
    rw [download]
    exact if_neg hsome
  intro fs r hr
  rw [respond, orFailed_eq, hdownload]
  · rw [bind_eq_error, stat_eq_error hr]
    intro man
    split <;> exact fun heq => by cases heq
  · intro resp hresp
    rw [hdownload, bind_eq_ok] at hresp
    obtain ⟨man, -, hrest⟩ := hresp
    split at hrest <;> cases hrest <;> exact fun heq => by cases heq

/-- The totals of a share tell of its files. -/
theorem open_of_confined {h : Host Blob} {node : String}
    (hconfined : Confined h node .listShares) : Open h.shares node := by
  intro s hs
  by_contra hhidden
  have halike : Alike h.shares node nothing
      (only s.path _ (keyOk_of_names names_plain) (Content.empty : Blob)) := alike_only hhidden
  have hrows := Response.shares.inj (hconfined _ _ halike)
  have hrow := List.map_inj_left.mp hrows s hs
  have hcount := congrArg (fun row : String × Nat × Nat => row.2.1) hrow
  simp only [only_self, nothing] at hcount
  exact absurd hcount Nat.zero_ne_one

omit [Canon] [PathText] [Patterns] [Content Blob] in
theorem collect_eq_nil {limit : Number} {acc rows : List (String × Row)} {truncated : Bool}
    (h : collect limit acc rows = .ok ([], truncated)) : acc = [] ∧ rows = [] := by
  induction rows generalizing acc with
  | nil =>
      cases h
      exact ⟨rfl, rfl⟩
  | cons row rest ih =>
      rw [collect, bind_eq_ok] at h
      obtain ⟨n, -, hrest⟩ := h
      split at hrest
      · have hnil : acc ++ [row] = [] := (Prod.mk.inj (Except.ok.inj hrest)).1
        exact absurd hnil (by simp)
      · exact absurd (ih hrest).1 (by simp)

/-- A search finds what fits, in every share that is asked for. -/
theorem harmless_find {h : Host Blob} {node : String} {want pattern : Option String} {limit : Number}
    (hconfined : Confined h node (.find want pattern limit)) :
    Harmless h node (.find want pattern limit) := by
  intro s hs hasked
  by_contra hno
  simp only [not_or, not_forall, Bool.not_eq_false] at hno
  obtain ⟨hhidden, key, hkey, hfits⟩ := hno
  have hnothing : respond h (nothing : String → Dir Blob) (.find want pattern limit) =
      .entries [] false := by
    have hrows : (h.shares.filter (asked want)).flatMap
        (fitting (nothing : String → Dir Blob) ((set? pattern).getD "*")) = [] := by
      rw [List.flatMap_eq_nil_iff]
      exact fun _ _ => rfl
    rw [respond, find, hrows]
    rfl
  have halike : Alike h.shares node nothing (only s.path key hkey (Content.empty : Blob)) :=
    alike_only hhidden
  have hsame := hconfined _ _ halike
  rw [hnothing, respond, find] at hsame
  generalize hrows : (h.shares.filter (asked want)).flatMap (fitting
    (only s.path key hkey (Content.empty : Blob)) ((set? pattern).getD "*")) = rows at hsame
  have hrow : (s.name, (⟨posix key, Content.size (Content.empty : Blob), 0⟩ : Row)) ∈ rows := by
    rw [← hrows, List.mem_flatMap]
    refine ⟨s, List.mem_filter.mpr ⟨hs, hasked⟩, ?_⟩
    rw [fitting, only_self]
    refine List.mem_map.mpr ⟨_, List.mem_filter.mpr ⟨?_, hfits⟩, rfl⟩
    exact List.mem_singleton_self _
  cases hcollect : collect limit [] rows with
  | error r =>
      rw [hcollect] at hsame
      cases hsame
  | ok found =>
      rw [hcollect] at hsame
      obtain ⟨found, truncated⟩ := found
      have hnil : found = [] := (Response.entries.inj hsame.symm).1
      rw [hnil] at hcollect
      rw [(collect_eq_nil hcollect).2] at hrow
      exact absurd hrow List.not_mem_nil

/-- **Exactly the harmless requests are confined.** -/
theorem responses_confined_iff (h : Host Blob) (node : String) (req : Request) :
    Confined h node req ↔ Harmless h node req := by
  refine ⟨fun hconfined => ?_, confined_of_harmless⟩
  cases req with
  | listShares => exact open_of_confined hconfined
  | find want pattern limit => exact harmless_find hconfined
  | stat ref chunkSize => exact harmless_of_tells (tells_stat h ref chunkSize) hconfined
  | read ref limit =>
      cases hlimit : limit.get 262144 with
      | error r =>
          refine Or.inl ?_
          cases limit with
          | bad => rfl
          | unset => cases hlimit
          | of n => cases hlimit
      | ok n => exact Or.inr (harmless_of_tells (tells_read hlimit) hconfined)
  | serve label replyTo ref offset chunkSize buff =>
      by_cases htaken : ∀ l, set? label = some l → (set? replyTo).isSome = true →
          h.serves.contains l = true
      · exact Or.inl htaken
      · simp only [not_forall, Bool.not_eq_true] at htaken
        obtain ⟨l, hlabel, hpeer, hfree⟩ := htaken
        obtain ⟨peer, hpeer⟩ := Option.isSome_iff_exists.mp hpeer
        exact Or.inr (harmless_of_tells (tells_serve hlabel hpeer hfree) hconfined)
  | download ref saveAs =>
      by_cases hnone : (ref.kept.share.isNone && ref.kept.path.isNone && ref.kept.id.isNone) = true
      · simp only [Bool.and_eq_true, Option.isNone_iff_eq_none] at hnone
        obtain ⟨⟨hshare, hpath⟩, hid⟩ := hnone
        apply refHarmless_kept.mp
        simp only [RefHarmless, hshare, hpath, hid]
        exact fun s _ => Or.inr fun hnames => hnames.1 rfl
      · exact refHarmless_kept.mp (harmless_of_tells (tells_download hnone) hconfined)

end Requests

/-! ## §6 A share that is for one node only -/

/-- Every path fits, as with `*`. -/
@[reducible] def anyPath : Patterns where
  fits _ _ := true

/-- Files of text; a text stands for its own hash. -/
@[reducible] def textContent : Content String where
  size := String.length
  sha256 s := s
  empty := ""

attribute [local instance] NetPulse.Mesh.asciiCanon slashText anyPath textContent

/-- The share `private` is for `nas`. -/
def office : Host String where
  shares := [⟨"private", "/srv/private", ["nas"], 65536⟩]
  maxChunk := 262144
  serves := []
  downloads _ := none

/-- `guest` reads the file by share and path, and tells the two states apart. -/
theorem private_share_read :
    ¬ Confined office "guest" (.read ⟨some "private", some "a", none⟩ .unset) := by
  intro hconfined
  have hhidden : ¬ Visible office.shares "guest" "/srv/private" := by
    rintro ⟨s, hs, hallowed, -⟩
    rw [List.mem_singleton.mp hs] at hallowed
    exact absurd hallowed (by decide)
  have halike : Alike office.shares "guest" nothing
      (only "/srv/private" ["a"] (by decide) "secret") := alike_only hhidden
  have hsame := hconfined _ _ halike
  have hread : ∃ size, respond office (only "/srv/private" ["a"] (by decide) "secret")
      (.read ⟨some "private", some "a", none⟩ .unset) = .content "secret" size := ⟨6, by rfl⟩
  obtain ⟨size, hread⟩ := hread
  rw [hread] at hsame
  cases hsame

end NetPulse.Files
