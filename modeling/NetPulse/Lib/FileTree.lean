import Mathlib.Logic.Function.Basic
import Mathlib.Data.List.Infix

/-
# NetPulse.Lib.FileTree — directories, files and symbolic links

A place of the tree is a list of names from the root; there is something at a place only in a
directory. `locate` follows a path through the links, with a limit on their number, to the place it
leads to.

Four changes are enough for a program that makes, fills and removes files of its own: `put` makes an
entry where there is none, `setContent` writes to a file, `remove` takes a place away with all that is
below it, and `rename` moves a file. `Extends` says that nothing of a tree is lost in another, which
is what a path needs to lead to the same place; `Filled` that a directory has got certain files and
that all else is as it was.
-/

namespace NetPulse.Lib

/-- What there is at a place. -/
inductive FileEntry (ν β : Type) where
  | dir
  | file (content : β)
  | link (target : List ν)
  deriving DecidableEq

namespace FileEntry

variable {ν β : Type}

/-- Another content, if it is a file. -/
def write (f : β → β) : FileEntry ν β → FileEntry ν β
  | dir => dir
  | file content => file (f content)
  | link target => link target

theorem write_write (f g : β → β) (x : FileEntry ν β) : (x.write f).write g = x.write (g ∘ f) := by
  cases x <;> rfl

theorem write_id (x : FileEntry ν β) : x.write id = x := by
  cases x <;> rfl

end FileEntry

structure FileTree (ν β : Type) where
  node : List ν → Option (FileEntry ν β)
  root : node [] = some .dir
  closed : ∀ p n, node (p ++ [n]) ≠ none → node p = some .dir

namespace FileTree

variable {ν β : Type}

@[ext]
theorem ext {t t' : FileTree ν β} (h : ∀ p, t.node p = t'.node p) : t = t' := by
  obtain ⟨node, root, closed⟩ := t
  obtain ⟨node', root', closed'⟩ := t'
  have hnode : node = node' := funext h
  subst hnode
  rfl

/-- A directory or a file, which is where a path can end. -/
def Present (t : FileTree ν β) (p : List ν) : Prop :=
  t.node p = some .dir ∨ ∃ b, t.node p = some (.file b)

theorem Present.node_ne_none {t : FileTree ν β} {p : List ν} (h : t.Present p) :
    t.node p ≠ none := by
  rcases h with h | ⟨b, h⟩
  · rw [h]
    exact Option.some_ne_none _
  · rw [h]
    exact Option.some_ne_none _

theorem dir_of_child {t : FileTree ν β} {p q : List ν} (h : t.node (p ++ q) ≠ none) (hq : q ≠ []) :
    t.node p = some .dir := by
  induction q using List.reverseRecOn with
  | nil => exact absurd rfl hq
  | append_singleton q n ih =>
      rw [← List.append_assoc] at h
      have hdir := t.closed _ _ h
      by_cases hnil : q = []
      · rw [hnil, List.append_nil] at hdir
        exact hdir
      · exact ih (by rw [hdir]; exact Option.some_ne_none _) hnil

/-- Where there is nothing, nothing is below. -/
theorem none_below {t : FileTree ν β} {p q : List ν} (hp : t.node p = none) (h : p <+: q) :
    t.node q = none := by
  obtain ⟨r, rfl⟩ := h
  by_contra hne
  by_cases hr : r = []
  · rw [hr, List.append_nil] at hne
    exact hne hp
  · rw [dir_of_child hne hr] at hp
    cases hp

/-! ## §1 Paths -/

/-- From a place along the names; at a link the walk goes on with `again`. -/
def walk (t : FileTree ν β) (again : List ν → Option (List ν)) : List ν → List ν → Option (List ν)
  | cur, [] => some cur
  | cur, n :: rest =>
      match t.node (cur ++ [n]) with
      | none => none
      | some (.link target) => again (target ++ rest)
      | some _ => walk t again (cur ++ [n]) rest

/-- The place that a path leads to, with at most so many links on the way. -/
def resolve (t : FileTree ν β) : Nat → List ν → Option (List ν)
  | 0, p => t.walk (fun _ => none) [] p
  | links + 1, p => t.walk (t.resolve links) [] p

/-- The number of links that the system follows for one path. -/
def maxLinks : Nat := 40

def locate (t : FileTree ν β) (p : List ν) : Option (List ν) := t.resolve maxLinks p

/-- What a path leads to. -/
def stat (t : FileTree ν β) (p : List ν) : Option (FileEntry ν β) := (t.locate p).bind t.node

def fileAt (t : FileTree ν β) (p : List ν) : Option β :=
  match t.stat p with
  | some (.file b) => some b
  | _ => none

/-- The place where an entry with this path is or would be: the last name is not followed. -/
def slot (t : FileTree ν β) (p : List ν) : Option (List ν × ν) :=
  p.getLast?.bind fun n => (t.locate p.dropLast).map fun q => (q, n)

section Walk

variable {t t' : FileTree ν β} {again again' : List ν → Option (List ν)} {cur todo p q : List ν} {n : ν}

theorem walk_dir (h : t.node (cur ++ [n]) = some .dir) :
    t.walk again cur (n :: todo) = t.walk again (cur ++ [n]) todo := by
  rw [walk, h]

theorem walk_file {b : β} (h : t.node (cur ++ [n]) = some (.file b)) :
    t.walk again cur (n :: todo) = t.walk again (cur ++ [n]) todo := by
  rw [walk, h]

theorem walk_link {target : List ν} (h : t.node (cur ++ [n]) = some (.link target)) :
    t.walk again cur (n :: todo) = again (target ++ todo) := by
  rw [walk, h]

theorem walk_none (h : t.node (cur ++ [n]) = none) : t.walk again cur (n :: todo) = none := by
  rw [walk, h]

theorem Present.walk (h : t.Present (cur ++ [n])) :
    t.walk again cur (n :: todo) = t.walk again (cur ++ [n]) todo := by
  rcases h with h | ⟨b, h⟩
  · exact walk_dir h
  · exact walk_file h

/-- A walk through what is there ends where the names say. -/
theorem walk_of_present (h : t.Present (cur ++ todo)) :
    t.walk again cur todo = some (cur ++ todo) := by
  induction todo generalizing cur with
  | nil =>
      rw [List.append_nil]
      rfl
  | cons n rest ih =>
      have hsplit : cur ++ n :: rest = cur ++ [n] ++ rest := by
        rw [List.append_assoc]
        rfl
      rw [hsplit] at h ⊢
      have hfirst : t.Present (cur ++ [n]) := by
        by_cases hrest : rest = []
        · rw [hrest, List.append_nil] at h
          exact h
        · exact Or.inl (dir_of_child h.node_ne_none hrest)
      rw [hfirst.walk]
      exact ih h

/-- One more name, after a walk that has come to an end. -/
theorem walk_append (hagain : ∀ p q, again p = some q → t.Present (q ++ [n]) →
      again (p ++ [n]) = some (q ++ [n]))
    (hn : t.Present (q ++ [n])) (h : t.walk again cur todo = some q) :
    t.walk again cur (todo ++ [n]) = some (q ++ [n]) := by
  induction todo generalizing cur with
  | nil =>
      obtain rfl := Option.some.inj h
      show t.walk again cur [n] = _
      rw [hn.walk]
      rfl
  | cons m rest ih =>
      show t.walk again cur (m :: (rest ++ [n])) = _
      cases hnode : t.node (cur ++ [m]) with
      | none =>
          rw [walk_none hnode] at h
          cases h
      | some x =>
          cases x with
          | dir =>
              rw [walk_dir hnode] at h ⊢
              exact ih h
          | file b =>
              rw [walk_file hnode] at h ⊢
              exact ih h
          | link target =>
              rw [walk_link hnode] at h ⊢
              rw [← List.append_assoc]
              exact hagain _ _ h hn

end Walk

/-! ## §2 Where a path leads -/

section Locate

variable {t t' : FileTree ν β} {p q : List ν} {n : ν}

theorem locate_of_present (h : t.Present p) : t.locate p = some p := by
  have h' : t.Present ([] ++ p) := h
  exact walk_of_present h'

theorem resolve_append {links : Nat} (h : t.resolve links p = some q)
    (hn : t.Present (q ++ [n])) : t.resolve links (p ++ [n]) = some (q ++ [n]) := by
  induction links generalizing p q with
  | zero => exact walk_append (fun _ _ h => by cases h) hn h
  | succ links ih => exact walk_append (fun _ _ h hn => ih h hn) hn h

theorem locate_append (h : t.locate p = some q) (hn : t.Present (q ++ [n])) :
    t.locate (p ++ [n]) = some (q ++ [n]) := resolve_append h hn

theorem stat_of_locate (h : t.locate p = some q) : t.stat p = t.node q := by
  rw [stat, h]
  rfl

theorem fileAt_eq_some {b : β} :
    t.fileAt p = some b ↔ ∃ q, t.locate p = some q ∧ t.node q = some (.file b) := by
  unfold fileAt stat
  constructor
  · intro h
    cases hq : t.locate p with
    | none =>
        rw [hq] at h
        cases h
    | some q =>
        rw [hq] at h
        refine ⟨q, rfl, ?_⟩
        show (t.node q) = _
        cases hnode : t.node q with
        | none => simp [hnode] at h
        | some x =>
            cases x with
            | dir => simp [hnode] at h
            | file b' => simp only [Option.bind_some, hnode, Option.some.injEq] at h; rw [h]
            | link target => simp [hnode] at h
  · rintro ⟨q, hq, hb⟩
    rw [hq, Option.bind_some, hb]

theorem fileAt_of_node {b : β} (h : t.node p = some (.file b)) : t.fileAt p = some b :=
  fileAt_eq_some.mpr ⟨p, locate_of_present (Or.inr ⟨b, h⟩), h⟩

theorem slot_append (h : t.locate p = some q) : t.slot (p ++ [n]) = some (q, n) := by
  rw [slot, List.getLast?_append_of_ne_nil _ (List.cons_ne_nil n []), List.dropLast_concat, h]
  rfl

end Locate

/-! ## §3 Changes -/

section Changes

variable [DecidableEq ν]

/-- A new entry in a directory. -/
def put (t : FileTree ν β) (q : List ν) (n : ν) (x : FileEntry ν β) (hdir : t.node q = some .dir)
    (hfree : t.node (q ++ [n]) = none) : FileTree ν β where
  node := Function.update t.node (q ++ [n]) (some x)
  root := by
    rw [Function.update_of_ne (List.append_ne_nil_of_right_ne_nil q (List.cons_ne_nil n [])).symm]
    exact t.root
  closed := by
    intro p m hpm
    by_cases heq : p ++ [m] = q ++ [n]
    · obtain ⟨rfl, -⟩ := List.append_inj' heq rfl
      rw [Function.update_of_ne (fun h => by rw [← h, hdir] at hfree; cases hfree)]
      exact hdir
    · rw [Function.update_of_ne heq] at hpm
      have hp := t.closed p m hpm
      rw [Function.update_of_ne (fun h => by rw [← h, hp] at hfree; cases hfree)]
      exact hp

/-- A file gets another content. -/
def setContent (t : FileTree ν β) (p : List ν) (f : β → β) : FileTree ν β where
  node := fun q => if q = p then (t.node q).map (·.write f) else t.node q
  root := by
    rw [t.root]
    split <;> rfl
  closed := by
    intro q n hqn
    have hne : t.node (q ++ [n]) ≠ none := by
      intro hnone
      rw [hnone] at hqn
      exact hqn (by split <;> rfl)
    rw [t.closed q n hne]
    split <;> rfl

/-- All that is at the place and below it goes. -/
def remove (t : FileTree ν β) (p : List ν) : FileTree ν β where
  node := fun q => if p ≠ [] ∧ p <+: q then none else t.node q
  root := by
    rw [if_neg (fun h => h.1 (List.prefix_nil.mp h.2))]
    exact t.root
  closed := by
    intro q n hqn
    split at hqn
    · exact absurd rfl hqn
    · rename_i hout
      rw [if_neg (fun h => hout ⟨h.1, h.2.trans (List.prefix_append q [n])⟩)]
      exact t.closed q n hqn

/-- A file gets a name in a directory, in the place of what was there, unless it was a directory. -/
def rename (t : FileTree ν β) (source : List ν) (b : β) (q : List ν) (n : ν)
    (hsource : t.node source = some (.file b)) (hdir : t.node q = some .dir)
    (htarget : t.node (q ++ [n]) ≠ some .dir) : FileTree ν β where
  node := Function.update (Function.update t.node source none) (q ++ [n]) (some (.file b))
  root := by
    rw [Function.update_of_ne (List.append_ne_nil_of_right_ne_nil q (List.cons_ne_nil n [])).symm,
      Function.update_of_ne (fun h => by rw [← h, t.root] at hsource; cases hsource)]
    exact t.root
  closed := by
    intro p m hpm
    have hp : t.node p = some .dir := by
      by_cases heq : p ++ [m] = q ++ [n]
      · obtain ⟨rfl, -⟩ := List.append_inj' heq rfl
        exact hdir
      · rw [Function.update_of_ne heq] at hpm
        refine t.closed p m (fun hnone => hpm ?_)
        by_cases hs : p ++ [m] = source
        · rw [hs, Function.update_self]
        · rw [Function.update_of_ne hs]
          exact hnone
    have htarget' : p ≠ q ++ [n] := by
      rintro rfl
      exact htarget hp
    rw [Function.update_of_ne htarget',
      Function.update_of_ne (fun h => by rw [← h, hp] at hsource; cases hsource)]
    exact hp

variable {t : FileTree ν β} {p q : List ν} {n : ν} {x : FileEntry ν β}

theorem put_node {hdir : t.node q = some .dir} {hfree : t.node (q ++ [n]) = none} (p : List ν) :
    (t.put q n x hdir hfree).node p = if p = q ++ [n] then some x else t.node p :=
  Function.update_apply t.node (q ++ [n]) (some x) p

theorem setContent_file {f : β → β} {b : β} (h : t.node p = some (.file b)) :
    (t.setContent p f).node p = some (.file (f b)) := by
  show (if p = p then (t.node p).map (·.write f) else t.node p) = _
  rw [if_pos rfl, h]
  rfl

theorem setContent_other {f : β → β} (h : q ≠ p) : (t.setContent p f).node q = t.node q := if_neg h

theorem setContent_setContent (f g : β → β) :
    (t.setContent p f).setContent p g = t.setContent p (g ∘ f) := by
  ext q : 1
  by_cases hq : q = p
  · subst hq
    show (if q = q then (if q = q then (t.node q).map (·.write f) else _).map (·.write g) else _) =
      if q = q then (t.node q).map (·.write (g ∘ f)) else _
    rw [if_pos rfl, if_pos rfl, if_pos rfl, Option.map_map]
    exact congrArg (fun h => (t.node q).map h) (funext fun x => x.write_write f g)
  · rw [setContent_other hq, setContent_other hq, setContent_other hq]

theorem setContent_id {f : β → β} (hf : ∀ b, f b = b) : t.setContent p f = t := by
  obtain rfl : f = id := funext hf
  ext q : 1
  by_cases hq : q = p
  · subst hq
    show (if q = q then (t.node q).map (·.write id) else _) = _
    rw [if_pos rfl, show (fun x : FileEntry ν β => x.write id) = id from
      funext fun x => x.write_id, Option.map_id]
    rfl
  · exact setContent_other hq

theorem remove_node (hp : p ≠ []) (q : List ν) :
    (t.remove p).node q = if p <+: q then none else t.node q := by
  show (if p ≠ [] ∧ p <+: q then none else t.node q) = _
  by_cases h : p <+: q
  · rw [if_pos ⟨hp, h⟩, if_pos h]
  · rw [if_neg (fun hand => h hand.2), if_neg h]

section Rename

variable {source : List ν} {b : β} {hsource : t.node source = some (.file b)}
  {hdir : t.node q = some .dir} {htarget : t.node (q ++ [n]) ≠ some .dir}

theorem rename_target : (t.rename source b q n hsource hdir htarget).node (q ++ [n]) = some (.file b) :=
  Function.update_self (q ++ [n]) _ _

/-- A directory stays where it is. -/
theorem rename_dir (hp : t.node p = some .dir) :
    (t.rename source b q n hsource hdir htarget).node p = some .dir := by
  have hne : p ≠ q ++ [n] := by
    rintro rfl
    exact htarget hp
  have hne' : p ≠ source := by
    rintro rfl
    rw [hp] at hsource
    cases hsource
  show Function.update (Function.update t.node source none) (q ++ [n]) _ p = _
  rw [Function.update_of_ne hne, Function.update_of_ne hne', hp]

end Rename

end Changes

/-! ## §4 Trees that have all that another has -/

/-- The same kind of entry; a file may have another content. -/
def Kindred : FileEntry ν β → FileEntry ν β → Prop
  | .file _, .file _ => True
  | x, y => x = y

/-- Nothing of the first tree is missing, but files may have been written to. -/
def Extends (t t' : FileTree ν β) : Prop :=
  ∀ p x, t.node p = some x → ∃ y, t'.node p = some y ∧ Kindred x y

section Extends

variable {t t' : FileTree ν β} {p q : List ν} {n : ν}

theorem Kindred.refl (x : FileEntry ν β) : Kindred x x := by
  cases x with
  | dir => rfl
  | file b => trivial
  | link target => rfl

theorem Extends.of_same (h : ∀ p, t.node p ≠ none → t'.node p = t.node p) : t.Extends t' := by
  intro p x hx
  exact ⟨x, by rw [h p (by rw [hx]; exact Option.some_ne_none x), hx], Kindred.refl x⟩

theorem Extends.dir (h : t.Extends t') (hp : t.node p = some .dir) : t'.node p = some .dir := by
  obtain ⟨y, hy, hkind⟩ := h p .dir hp
  cases y with
  | dir => exact hy
  | file b => cases hkind
  | link target => cases hkind

theorem Extends.link {target : List ν} (h : t.Extends t') (hp : t.node p = some (.link target)) :
    t'.node p = some (.link target) := by
  obtain ⟨y, hy, hkind⟩ := h p (.link target) hp
  cases y with
  | dir => cases hkind
  | file b => cases hkind
  | link target' => rw [hy, ← (show FileEntry.link target = .link target' from hkind)]

theorem Extends.file {b : β} (h : t.Extends t') (hp : t.node p = some (.file b)) :
    ∃ b', t'.node p = some (.file b') := by
  obtain ⟨y, hy, hkind⟩ := h p (.file b) hp
  cases y with
  | dir => cases hkind
  | file b' => exact ⟨b', hy⟩
  | link target => cases hkind

theorem Extends.walk {again again' : List ν → Option (List ν)} {cur todo : List ν}
    (h : t.Extends t') (hagain : ∀ p q, again p = some q → again' p = some q)
    (hwalk : t.walk again cur todo = some q) : t'.walk again' cur todo = some q := by
  induction todo generalizing cur with
  | nil => exact hwalk
  | cons n rest ih =>
      cases hnode : t.node (cur ++ [n]) with
      | none =>
          rw [walk_none hnode] at hwalk
          cases hwalk
      | some x =>
          cases x with
          | dir =>
              rw [walk_dir hnode] at hwalk
              rw [walk_dir (h.dir hnode)]
              exact ih hwalk
          | file b =>
              obtain ⟨b', hb'⟩ := h.file hnode
              rw [walk_file hnode] at hwalk
              rw [walk_file hb']
              exact ih hwalk
          | link target =>
              rw [walk_link hnode] at hwalk
              rw [walk_link (h.link hnode)]
              exact hagain _ _ hwalk

theorem Extends.resolve {links : Nat} (h : t.Extends t') (hp : t.resolve links p = some q) :
    t'.resolve links p = some q := by
  induction links generalizing p q with
  | zero => exact h.walk (fun _ _ hnone => hnone) hp
  | succ links ih => exact h.walk (fun _ _ hr => ih hr) hp

/-- **A path leads to the same place** in a tree that has more. -/
theorem Extends.locate (h : t.Extends t') (hp : t.locate p = some q) : t'.locate p = some q :=
  h.resolve hp

section Put

variable [DecidableEq ν] {x : FileEntry ν β} {hdir : t.node q = some .dir}
  {hfree : t.node (q ++ [n]) = none}

theorem put_self : (t.put q n x hdir hfree).node (q ++ [n]) = some x := by
  rw [put_node, if_pos rfl]

theorem put_other (h : p ≠ q ++ [n]) : (t.put q n x hdir hfree).node p = t.node p := by
  rw [put_node, if_neg h]

theorem extends_put : t.Extends (t.put q n x hdir hfree) := by
  apply Extends.of_same
  intro p hp
  apply put_other
  rintro rfl
  exact hp hfree

/-- Where there was nothing, nothing is below what is new. -/
theorem put_below (m : ν) : (t.put q n x hdir hfree).node (q ++ [n] ++ [m]) = none := by
  have hne : q ++ [n] ++ [m] ≠ q ++ [n] := fun h => by
    have hlength := congrArg List.length h
    rw [List.length_append] at hlength
    exact absurd hlength (by show (q ++ [n]).length + 1 ≠ _; omega)
  rw [put_other hne]
  exact none_below hfree (List.prefix_append _ _)

theorem walk_put {again again' : List ν → Option (List ν)} {cur todo r : List ν}
    (hagain : ∀ p r, again' p = some r → r = q ++ [n] ∨ again p = some r)
    (h : (t.put q n .dir hdir hfree).walk again' cur todo = some r) :
    r = q ++ [n] ∨ t.walk again cur todo = some r := by
  induction todo generalizing cur with
  | nil => exact Or.inr h
  | cons m rest ih =>
      by_cases hnew : cur ++ [m] = q ++ [n]
      · rw [walk_dir (by rw [hnew]; exact put_self), hnew] at h
        cases rest with
        | nil => exact Or.inl (Option.some.inj h).symm
        | cons k rest =>
            rw [walk_none (put_below k)] at h
            cases h
      · have hsame : (t.put q n .dir hdir hfree).node (cur ++ [m]) = t.node (cur ++ [m]) :=
          put_other hnew
        cases hnode : t.node (cur ++ [m]) with
        | none =>
            rw [walk_none (hsame.trans hnode)] at h
            cases h
        | some y =>
            cases y with
            | dir =>
                rw [walk_dir (hsame.trans hnode)] at h
                rw [walk_dir hnode]
                exact ih h
            | file b =>
                rw [walk_file (hsame.trans hnode)] at h
                rw [walk_file hnode]
                exact ih h
            | link target =>
                rw [walk_link (hsame.trans hnode)] at h
                rw [walk_link hnode]
                exact hagain _ _ h

theorem resolve_put {links : Nat} {r : List ν}
    (h : (t.put q n .dir hdir hfree).resolve links p = some r) :
    r = q ++ [n] ∨ t.resolve links p = some r := by
  induction links generalizing p r with
  | zero => exact walk_put (fun _ _ hnone => by cases hnone) h
  | succ links ih => exact walk_put (fun _ _ hr => ih hr) h

/-- A new directory brings no file that a path could lead to. -/
theorem fileAt_put {b : β} (h : (t.put q n .dir hdir hfree).fileAt p = some b) :
    t.fileAt p = some b := by
  obtain ⟨r, hr, hb⟩ := fileAt_eq_some.mp h
  have hne : r ≠ q ++ [n] := by
    rintro rfl
    rw [put_self] at hb
    cases hb
  rw [put_other hne] at hb
  exact fileAt_eq_some.mpr ⟨r, (resolve_put hr).resolve_left hne, hb⟩

end Put

end Extends

/-! ## §5 A directory that gets files -/

/-- `t` is `base` with these files in the directory `q`, in the place of what was there. -/
structure Filled (base : FileTree ν β) (q : List ν) (files : ν → Option β) (t : FileTree ν β) :
    Prop where
  child : ∀ n, t.node (q ++ [n]) = (files n).map .file
  other : ∀ p, (∀ n, p ≠ q ++ [n]) → t.node p = base.node p

section Filled

variable {base t : FileTree ν β} {q : List ν} {files : ν → Option β} {n : ν}

theorem ne_child (q : List ν) (n : ν) : q ≠ q ++ [n] := by
  intro h
  have hlength := congrArg List.length h
  rw [List.length_append] at hlength
  exact absurd hlength (by show q.length ≠ q.length + 1; omega)

theorem Filled.self (h : Filled base q files t) : t.node q = base.node q :=
  h.other q (fun n => ne_child q n)

/-- Only what was not there is new. -/
theorem Filled.extends (hempty : ∀ n, base.node (q ++ [n]) = none) (h : Filled base q files t) :
    base.Extends t := by
  apply Extends.of_same
  intro p hp
  apply h.other
  rintro n rfl
  exact hp (hempty n)

theorem Filled.locate {p : List ν} {b : β} (hempty : ∀ n, base.node (q ++ [n]) = none)
    (h : Filled base q files t) (hp : base.locate p = some q) (hn : files n = some b) :
    t.locate (p ++ [n]) = some (q ++ [n]) := by
  refine locate_append ((h.extends hempty).locate hp) (Or.inr ⟨b, ?_⟩)
  rw [h.child, hn]
  rfl

theorem Filled.fileAt {p : List ν} {b : β} (hempty : ∀ n, base.node (q ++ [n]) = none)
    (h : Filled base q files t) (hp : base.locate p = some q) (hn : files n = some b) :
    t.fileAt (p ++ [n]) = some b := by
  refine fileAt_eq_some.mpr ⟨q ++ [n], h.locate hempty hp hn, ?_⟩
  rw [h.child, hn]
  rfl

theorem Filled.empty (h : ∀ n, base.node (q ++ [n]) = none) :
    Filled base q (fun _ => none) base :=
  ⟨h, fun _ _ => rfl⟩

variable [DecidableEq ν]

theorem Filled.put (h : Filled base q files t) (b : β) {hdir : t.node q = some .dir}
    {hfree : t.node (q ++ [n]) = none} :
    Filled base q (Function.update files n (some b)) (t.put q n (.file b) hdir hfree) := by
  refine ⟨fun m => ?_, fun p hp => ?_⟩
  · rw [put_node]
    by_cases hm : m = n
    · rw [hm, if_pos rfl, Function.update_self]
      rfl
    · rw [if_neg (fun heq => hm (List.cons.inj (List.append_cancel_left heq)).1),
        Function.update_of_ne hm]
      exact h.child m
  · rw [put_node, if_neg (hp n)]
    exact h.other p hp

theorem Filled.setContent (h : Filled base q files t) {b : β} (hn : files n = some b) (f : β → β) :
    Filled base q (Function.update files n (some (f b))) (t.setContent (q ++ [n]) f) := by
  refine ⟨fun m => ?_, fun p hp => ?_⟩
  · by_cases hm : m = n
    · have hfile := h.child n
      rw [hn] at hfile
      rw [hm, Function.update_self, setContent_file hfile]
      rfl
    · rw [Function.update_of_ne hm,
        setContent_other (fun heq => hm (List.cons.inj (List.append_cancel_left heq)).1)]
      exact h.child m
  · rw [setContent_other (hp n)]
    exact h.other p hp

/-- A new file that has been written to. -/
theorem Filled.put_setContent (h : Filled base q files t) (b : β) (f : β → β)
    {hdir : t.node q = some .dir} {hfree : t.node (q ++ [n]) = none} :
    Filled base q (Function.update files n (some (f b)))
      ((t.put q n (.file b) hdir hfree).setContent (q ++ [n]) f) := by
  have hput : Filled base q (Function.update files n (some b)) (t.put q n (.file b) hdir hfree) :=
    h.put b
  have hset := hput.setContent (Function.update_self n (some b) files) f
  rw [Function.update_idem] at hset
  exact hset

end Filled

end FileTree

end NetPulse.Lib
