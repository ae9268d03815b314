import NetPulse.Lib.JsonMerge
import Mathlib.Data.List.Forall2

/-
# NetPulse.Lib.Schema — records that are read from trees, with conversions and defaults

A `Kind` says what a value is to be: a scalar, which a `Coercion` converts, any tree, a list or a
mapping of values of one kind, or a record. A record has fields with defaults; `validate` takes the
fields in their order, converts what is there, puts the defaults for what is not, and drops all other
keys.

What has been validated is its own validation (`validate_again`), as long as no default was put that
would be converted: `Ready` says so of a tree, and `Sound` of a kind whose defaults are all of that
sort.
-/

namespace NetPulse.Lib.Schema

open NetPulse.Lib.Json

variable {S Num : Type}

/-! ## §1 Kinds -/

inductive Kind (S Num : Type) where
  | scalar (s : S)
  | any
  | list (item : Kind S Num)
  | dict (value : Kind S Num)
  | model (fields : List (String × Kind S Num × Option (Json Num)))

abbrev Field (S Num : Type) := String × Kind S Num × Option (Json Num)

mutual

/-- Induction over the fields of records. -/
@[elab_as_elim]
theorem Kind.fieldInduction {P : Kind S Num → Prop} (scalar : ∀ s, P (.scalar s)) (any : P .any)
    (list : ∀ item, P item → P (.list item)) (dict : ∀ value, P value → P (.dict value))
    (model : ∀ fields : List (Field S Num), (∀ f ∈ fields, P f.2.1) → P (.model fields)) :
    ∀ k : Kind S Num, P k
  | .scalar s => scalar s
  | .any => any
  | .list item => list item (fieldInduction scalar any list dict model item)
  | .dict value => dict value (fieldInduction scalar any list dict model value)
  | .model fields => model fields (fieldInduction_fields scalar any list dict model fields)

theorem Kind.fieldInduction_fields {P : Kind S Num → Prop} (scalar : ∀ s, P (.scalar s))
    (any : P .any) (list : ∀ item, P item → P (.list item))
    (dict : ∀ value, P value → P (.dict value))
    (model : ∀ fields : List (Field S Num), (∀ f ∈ fields, P f.2.1) → P (.model fields)) :
    ∀ fields : List (Field S Num), ∀ f ∈ fields, P f.2.1
  | [], _, h => absurd h List.not_mem_nil
  | (_, k, _) :: rest, f, h => by
      rcases List.mem_cons.mp h with rfl | h
      · exact fieldInduction scalar any list dict model k
      · exact fieldInduction_fields scalar any list dict model rest f h

end

/-- Neither a list nor a mapping. -/
def isLeaf : Json Num → Bool
  | .list _ | .obj _ => false
  | .null | .bool _ | .num _ | .str _ => true

def listItems : Json Num → Option (List (Json Num))
  | .list items => some items
  | .null | .bool _ | .num _ | .str _ | .obj _ => none

def objEntries : Json Num → Option (Entries Num)
  | .obj entries => some entries
  | .null | .bool _ | .num _ | .str _ | .list _ => none

theorem listItems_eq_some {v : Json Num} {items : List (Json Num)} :
    listItems v = some items ↔ v = .list items := by
  cases v <;> simp [listItems]

theorem objEntries_eq_some {v : Json Num} {entries : Entries Num} :
    objEntries v = some entries ↔ v = .obj entries := by
  cases v <;> simp [objEntries]

/-- How scalars are converted; what has been converted stays. -/
structure Coercion (S Num : Type) where
  coerce : S → Json Num → Option (Json Num)
  again : ∀ {s v w}, coerce s v = some w → coerce s w = some w
  leaf : ∀ {s v w}, coerce s v = some w → isLeaf w = true

/-- The defaults of a record, as it prints them. -/
def defaults (fields : List (Field S Num)) : Entries Num :=
  fields.filterMap fun f => f.2.2.map fun d => (f.1, d)

/-! ## §2 Validation -/

section Validation

variable (c : Coercion S Num)

mutual

/-- The value as a record prints it, unless it is refused. -/
def validate : Kind S Num → Json Num → Option (Json Num)
  | .scalar s, v => c.coerce s v
  | .any, v => some v
  | .list item, v => (listItems v).bind fun items => (items.mapM (validate item)).map .list
  | .dict value, v => (objEntries v).bind fun entries =>
      (entries.mapM fun e => (validate value e.2).map fun v => (e.1, v)).map .obj
  | .model fields, v => (objEntries v).bind fun entries =>
      (validateFields fields entries).map .obj

def validateFields : List (Field S Num) → Entries Num → Option (Entries Num)
  | [], _ => some []
  | (name, kind, default_) :: rest, entries =>
      (match Dict.lookup name entries with
        | some v => validate kind v
        | none => default_).bind fun v =>
          (validateFields rest entries).map fun others => (name, v) :: others

end

/-- What a field gets. -/
def fieldValue (f : Field S Num) (entries : Entries Num) : Option (Json Num) :=
  match Dict.lookup f.1 entries with
  | some v => validate c f.2.1 v
  | none => f.2.2

theorem fieldValue_some {f : Field S Num} {entries : Entries Num} {v : Json Num}
    (h : Dict.lookup f.1 entries = some v) : fieldValue c f entries = validate c f.2.1 v := by
  rw [fieldValue, h]

theorem fieldValue_none {f : Field S Num} {entries : Entries Num}
    (h : Dict.lookup f.1 entries = none) : fieldValue c f entries = f.2.2 := by
  rw [fieldValue, h]

theorem mapM_eq_some_iff {α β : Type} {f : α → Option β} {l : List α} {r : List β} :
    l.mapM f = some r ↔ List.Forall₂ (fun a b => f a = some b) l r := by
  induction l generalizing r with
  | nil => simp [eq_comm]
  | cons a l ih =>
      rw [List.mapM_cons, List.forall₂_cons_left_iff]
      constructor
      · intro h
        obtain ⟨b, hb, h⟩ := Option.bind_eq_some_iff.mp h
        obtain ⟨bs, hbs, h⟩ := Option.bind_eq_some_iff.mp h
        cases h
        exact ⟨b, bs, hb, ih.mp hbs, rfl⟩
      · rintro ⟨b, bs, hb, hbs, rfl⟩
        exact Option.bind_eq_some_iff.mpr ⟨b, hb, Option.bind_eq_some_iff.mpr ⟨bs, ih.mpr hbs, rfl⟩⟩

variable {c}

/-- **A validated record** has its fields in their order, each with its value. -/
theorem validateFields_eq_some {fields : List (Field S Num)} {entries out : Entries Num} :
    validateFields c fields entries = some out ↔
      List.Forall₂ (fun f e => e.1 = f.1 ∧ fieldValue c f entries = some e.2) fields out := by
  induction fields generalizing out with
  | nil =>
      rw [validateFields, List.forall₂_nil_left_iff, Option.some.injEq, eq_comm]
  | cons f rest ih =>
      obtain ⟨name, kind, default_⟩ := f
      rw [validateFields, List.forall₂_cons_left_iff, Option.bind_eq_some_iff]
      constructor
      · rintro ⟨v, hv, h⟩
        obtain ⟨others, hothers, rfl⟩ := Option.map_eq_some_iff.mp h
        exact ⟨(name, v), others, ⟨rfl, hv⟩, ih.mp hothers, rfl⟩
      · rintro ⟨⟨k, v⟩, others, ⟨rfl, hv⟩, hothers, rfl⟩
        exact ⟨v, hv, Option.map_eq_some_iff.mpr ⟨others, ih.mpr hothers, rfl⟩⟩

theorem keys_of_forall₂ {R : Field S Num → Json Num → Prop} {fields : List (Field S Num)}
    {out : Entries Num} (h : List.Forall₂ (fun f e => e.1 = f.1 ∧ R f e.2) fields out) :
    out.map Prod.fst = fields.map Prod.fst := by
  induction h with
  | nil => rfl
  | cons hfirst _ ih => rw [List.map_cons, List.map_cons, hfirst.1, ih]

theorem lookup_of_forall₂ {R : Field S Num → Json Num → Prop} {fields : List (Field S Num)}
    {out : Entries Num} (h : List.Forall₂ (fun f e => e.1 = f.1 ∧ R f e.2) fields out)
    (hnames : (fields.map Prod.fst).Nodup) {f : Field S Num} (hf : f ∈ fields) :
    ∃ v, Dict.lookup f.1 out = some v ∧ R f v := by
  induction h with
  | nil => exact absurd hf List.not_mem_nil
  | @cons f' e fields out hfirst hrest ih =>
      obtain ⟨k, v⟩ := e
      rw [List.map_cons, List.nodup_cons] at hnames
      rcases List.mem_cons.mp hf with rfl | hf
      · refine ⟨v, ?_, hfirst.2⟩
        rw [Dict.lookup, if_pos hfirst.1]
      · have hne : k ≠ f.1 := by
          intro heq
          exact hnames.1 (List.mem_map.mpr ⟨f, hf, heq.symm.trans hfirst.1⟩)
        rw [Dict.lookup, if_neg hne]
        exact ih hnames.2 hf

/-- A validated record has exactly its fields. -/
theorem lookup_validateFields {fields : List (Field S Num)} {entries out : Entries Num}
    (h : validateFields c fields entries = some out) (hnames : (fields.map Prod.fst).Nodup)
    {f : Field S Num} (hf : f ∈ fields) :
    ∃ v, Dict.lookup f.1 out = some v ∧ fieldValue c f entries = some v :=
  lookup_of_forall₂ (R := fun f v => fieldValue c f entries = some v)
    (validateFields_eq_some.mp h) hnames hf

theorem keys_validateFields {fields : List (Field S Num)} {entries out : Entries Num}
    (h : validateFields c fields entries = some out) :
    out.map Prod.fst = fields.map Prod.fst :=
  keys_of_forall₂ (R := fun f v => fieldValue c f entries = some v) (validateFields_eq_some.mp h)

theorem validate_model {fields : List (Field S Num)} {v w : Json Num} :
    validate c (.model fields) v = some w ↔
      ∃ entries out, v = .obj entries ∧ w = .obj out ∧
        validateFields c fields entries = some out := by
  rw [validate, Option.bind_eq_some_iff]
  constructor
  · rintro ⟨entries, hv, h⟩
    obtain ⟨out, hout, rfl⟩ := Option.map_eq_some_iff.mp h
    exact ⟨entries, out, objEntries_eq_some.mp hv, rfl, hout⟩
  · rintro ⟨entries, out, rfl, rfl, hout⟩
    exact ⟨entries, rfl, Option.map_eq_some_iff.mpr ⟨out, hout, rfl⟩⟩

theorem validate_list {item : Kind S Num} {v w : Json Num} :
    validate c (.list item) v = some w ↔
      ∃ items out, v = .list items ∧ w = .list out ∧
        List.Forall₂ (fun u u' => validate c item u = some u') items out := by
  rw [validate, Option.bind_eq_some_iff]
  constructor
  · rintro ⟨items, hv, h⟩
    obtain ⟨out, hout, rfl⟩ := Option.map_eq_some_iff.mp h
    exact ⟨items, out, listItems_eq_some.mp hv, rfl, mapM_eq_some_iff.mp hout⟩
  · rintro ⟨items, out, rfl, rfl, hout⟩
    exact ⟨items, rfl, Option.map_eq_some_iff.mpr ⟨out, mapM_eq_some_iff.mpr hout, rfl⟩⟩

theorem validate_dict {value : Kind S Num} {v w : Json Num} :
    validate c (.dict value) v = some w ↔
      ∃ entries out, v = .obj entries ∧ w = .obj out ∧
        List.Forall₂ (fun e e' => e'.1 = e.1 ∧ validate c value e.2 = some e'.2) entries out := by
  have hpair : ∀ e e' : String × Json Num,
      ((validate c value e.2).map fun v => (e.1, v)) = some e' ↔
        e'.1 = e.1 ∧ validate c value e.2 = some e'.2 := by
    intro e e'
    rw [Option.map_eq_some_iff]
    constructor
    · rintro ⟨u, hu, rfl⟩
      exact ⟨rfl, hu⟩
    · rintro ⟨hkey, hu⟩
      exact ⟨e'.2, hu, Prod.ext hkey.symm rfl⟩
  rw [validate, Option.bind_eq_some_iff]
  constructor
  · rintro ⟨entries, hv, h⟩
    obtain ⟨out, hout, rfl⟩ := Option.map_eq_some_iff.mp h
    exact ⟨entries, out, objEntries_eq_some.mp hv, rfl,
      (mapM_eq_some_iff.mp hout).imp fun e e' => (hpair e e').mp⟩
  · rintro ⟨entries, out, rfl, rfl, hout⟩
    exact ⟨entries, rfl, Option.map_eq_some_iff.mpr
      ⟨out, mapM_eq_some_iff.mpr (hout.imp fun e e' => (hpair e e').mpr), rfl⟩⟩

end Validation

/-! ## §3 Kinds whose records are well formed -/

mutual

/-- No record has a field twice, and no default a key. -/
def Proper : Kind S Num → Prop
  | .scalar _ | .any => True
  | .list item => Proper item
  | .dict value => Proper value
  | .model fields => (fields.map Prod.fst).Nodup ∧ ProperFields fields

def ProperFields : List (Field S Num) → Prop
  | [] => True
  | (_, kind, default_) :: rest =>
      Proper kind ∧ (∀ d, default_ = some d → Json.Unique d) ∧ ProperFields rest

end

theorem properFields_iff {fields : List (Field S Num)} :
    ProperFields fields ↔ ∀ f ∈ fields, Proper f.2.1 ∧ ∀ d, f.2.2 = some d → Json.Unique d := by
  induction fields with
  | nil =>
      rw [ProperFields]
      exact iff_of_true trivial fun f hf => absurd hf List.not_mem_nil
  | cons f rest ih => rw [ProperFields, ih, List.forall_mem_cons, and_assoc]

theorem forall_mem_right {α β : Type} {R : α → β → Prop} {P : β → Prop} {l : List α} {r : List β}
    (h : List.Forall₂ R l r) (hall : ∀ a ∈ l, ∀ b, R a b → P b) : ∀ b ∈ r, P b := by
  induction h with
  | nil => exact fun b hb => absurd hb List.not_mem_nil
  | cons hfirst _ ih =>
      rw [List.forall_mem_cons] at hall ⊢
      exact ⟨hall.1 _ hfirst, ih hall.2⟩

/-- The defaults have no key twice. -/
theorem unique_defaults {fields : List (Field S Num)} (h : Proper (.model fields)) :
    Json.Unique (.obj (defaults fields)) := by
  rw [Proper, properFields_iff] at h
  have hkeys : ((defaults fields).map Prod.fst).Sublist (fields.map Prod.fst) := by
    clear h
    induction fields with
    | nil => exact List.Sublist.refl _
    | cons f rest ih =>
        unfold defaults at ih ⊢
        rw [List.filterMap_cons]
        cases f.2.2 with
        | none => exact ih.trans (List.sublist_cons_self _ _)
        | some d => exact ih.cons_cons f.1
  refine unique_obj.mpr ⟨h.1.sublist hkeys, uniqueEntries_iff.mpr fun e he => ?_⟩
  obtain ⟨f, hf, hfield⟩ := List.mem_filterMap.mp he
  obtain ⟨d, hd, rfl⟩ := Option.map_eq_some_iff.mp hfield
  exact (h.2 f hf).2 d hd

theorem lookup_defaults {fields : List (Field S Num)} (h : (fields.map Prod.fst).Nodup)
    {f : Field S Num} (hf : f ∈ fields) : Dict.lookup f.1 (defaults fields) = f.2.2 := by
  induction fields with
  | nil => exact absurd hf List.not_mem_nil
  | cons g rest ih =>
      rw [List.map_cons, List.nodup_cons] at h
      unfold defaults at ih ⊢
      rw [List.filterMap_cons]
      rcases List.mem_cons.mp hf with rfl | hf
      · cases hd : f.2.2 with
        | some d => exact if_pos rfl
        | none =>
            -- no later field has this name
            refine Dict.lookup_eq_none fun hmem => h.1 ?_
            obtain ⟨e, he, hkey⟩ := List.mem_map.mp hmem
            obtain ⟨g, hg, hd⟩ := List.mem_filterMap.mp he
            obtain ⟨d, -, rfl⟩ := Option.map_eq_some_iff.mp hd
            exact List.mem_map.mpr ⟨g, hg, hkey⟩
      · cases g.2.2 with
        | none => exact ih h.2 hf
        | some d =>
            have hne : g.1 ≠ f.1 := by
              intro heq
              exact h.1 (heq ▸ List.mem_map_of_mem hf)
            show Dict.lookup f.1 ((g.1, d) :: _) = _
            rw [Dict.lookup, if_neg hne]
            exact ih h.2 hf

/-- What the defaults of a record have. -/
theorem mem_defaults {fields : List (Field S Num)} {e : String × Json Num}
    (h : e ∈ defaults fields) : ∃ f ∈ fields, f.1 = e.1 ∧ f.2.2 = some e.2 := by
  obtain ⟨f, hf, hfield⟩ := List.mem_filterMap.mp h
  obtain ⟨d, hd, rfl⟩ := Option.map_eq_some_iff.mp hfield
  exact ⟨f, hf, rfl, hd⟩

/-! ## §4 Validating again -/

variable (c : Coercion S Num)

mutual

/-- Where a default is put, it is its own validation. -/
def Ready : Kind S Num → Json Num → Prop
  | .scalar _, _ | .any, _ => True
  | .list item, v => ∀ items, v = .list items → ∀ u ∈ items, Ready item u
  | .dict value, v => ∀ entries, v = .obj entries → ∀ e ∈ entries, Ready value e.2
  | .model fields, v => ∀ entries, v = .obj entries → ReadyFields fields entries

def ReadyFields : List (Field S Num) → Entries Num → Prop
  | [], _ => True
  | (name, kind, default_) :: rest, entries =>
      (∀ u, Dict.lookup name entries = some u → Ready kind u) ∧
        (Dict.lookup name entries = none → ∀ d, default_ = some d → validate c kind d = some d) ∧
        ReadyFields rest entries

/-- Every default is its own validation. -/
def Sound : Kind S Num → Prop
  | .scalar _ | .any => True
  | .list item => Sound item
  | .dict value => Sound value
  | .model fields => SoundFields fields

def SoundFields : List (Field S Num) → Prop
  | [] => True
  | (_, kind, default_) :: rest =>
      Sound kind ∧ (∀ d, default_ = some d → validate c kind d = some d) ∧ SoundFields rest

end

variable {c}

theorem readyFields_iff {fields : List (Field S Num)} {entries : Entries Num} :
    ReadyFields c fields entries ↔ ∀ f ∈ fields,
      (∀ u, Dict.lookup f.1 entries = some u → Ready c f.2.1 u) ∧
        (Dict.lookup f.1 entries = none → ∀ d, f.2.2 = some d → validate c f.2.1 d = some d) := by
  induction fields with
  | nil =>
      rw [ReadyFields]
      exact iff_of_true trivial fun f hf => absurd hf List.not_mem_nil
  | cons f rest ih => rw [ReadyFields, ih, List.forall_mem_cons, and_assoc]

theorem soundFields_iff {fields : List (Field S Num)} :
    SoundFields c fields ↔ ∀ f ∈ fields,
      Sound c f.2.1 ∧ ∀ d, f.2.2 = some d → validate c f.2.1 d = some d := by
  induction fields with
  | nil =>
      rw [SoundFields]
      exact iff_of_true trivial fun f hf => absurd hf List.not_mem_nil
  | cons f rest ih => rw [SoundFields, ih, List.forall_mem_cons, and_assoc]

theorem Sound.ready {k : Kind S Num} (h : Sound c k) : ∀ v, Ready c k v := by
  induction k using Kind.fieldInduction with
  | scalar s =>
      intro v
      rw [Ready]
      trivial
  | any =>
      intro v
      rw [Ready]
      trivial
  | list item ih =>
      intro v
      rw [Sound] at h
      rw [Ready]
      exact fun items _ u _ => ih h u
  | dict value ih =>
      intro v
      rw [Sound] at h
      rw [Ready]
      exact fun entries _ e _ => ih h e.2
  | model fields ih =>
      intro v
      rw [Sound, soundFields_iff] at h
      rw [Ready]
      intro entries _
      exact readyFields_iff.mpr fun f hf =>
        ⟨fun u _ => ih f hf (h f hf).1 u, fun _ => (h f hf).2⟩

/-- A record whose fields are in their order, each with its value. -/
theorem forall₂_of_lookup {R : Field S Num → Json Num → Prop} {fields : List (Field S Num)}
    {out : Entries Num} (hkeys : out.map Prod.fst = fields.map Prod.fst)
    (hnames : (fields.map Prod.fst).Nodup)
    (h : ∀ f ∈ fields, ∀ v, Dict.lookup f.1 out = some v → R f v) :
    List.Forall₂ (fun f e => e.1 = f.1 ∧ R f e.2) fields out := by
  induction fields generalizing out with
  | nil =>
      rw [List.map_nil, List.map_eq_nil_iff] at hkeys
      rw [hkeys]
      exact .nil
  | cons f rest ih =>
      cases out with
      | nil => cases hkeys
      | cons e out =>
          obtain ⟨k, v⟩ := e
          rw [List.map_cons, List.map_cons, List.cons.injEq] at hkeys
          rw [List.map_cons, List.nodup_cons] at hnames
          obtain ⟨hk, hkeys⟩ := hkeys
          rw [List.forall_mem_cons] at h
          refine .cons ⟨hk, h.1 v ?_⟩ (ih hkeys hnames.2 fun g hg u hu => h.2 g hg u ?_)
          · rw [Dict.lookup, if_pos hk]
          · have hne : k ≠ g.1 := by
              rintro rfl
              exact hnames.1 (hk ▸ List.mem_map_of_mem hg)
            rw [Dict.lookup, if_neg hne, hu]

/-- **What has been validated** is its own validation. -/
theorem validate_again {k : Kind S Num} (hk : Proper k) :
    ∀ {v w : Json Num}, Ready c k v → validate c k v = some w → validate c k w = some w := by
  induction k using Kind.fieldInduction with
  | scalar s =>
      intro v w _ h
      rw [validate] at h ⊢
      exact c.again h
  | any =>
      intro v w _ h
      rw [validate]
  | list item ih =>
      intro v w hready h
      rw [Proper] at hk
      rw [Ready] at hready
      obtain ⟨items, out, rfl, rfl, hout⟩ := validate_list.mp h
      refine validate_list.mpr ⟨out, out, rfl, rfl, List.forall₂_same.mpr ?_⟩
      exact forall_mem_right hout fun u hu u' => ih hk (hready items rfl u hu)
  | dict value ih =>
      intro v w hready h
      rw [Proper] at hk
      rw [Ready] at hready
      obtain ⟨entries, out, rfl, rfl, hout⟩ := validate_dict.mp h
      refine validate_dict.mpr ⟨out, out, rfl, rfl, List.forall₂_same.mpr ?_⟩
      exact forall_mem_right hout fun e he e' he' => ⟨rfl, ih hk (hready entries rfl e he) he'.2⟩
  | model fields ih =>
      intro v w hready h
      rw [Proper, properFields_iff] at hk
      rw [Ready] at hready
      obtain ⟨entries, out, rfl, rfl, hout⟩ := validate_model.mp h
      have hfields := readyFields_iff.mp (hready entries rfl)
      refine validate_model.mpr ⟨out, out, rfl, rfl, validateFields_eq_some.mpr ?_⟩
      refine forall₂_of_lookup (R := fun f v => fieldValue c f out = some v)
        (keys_validateFields hout) hk.1 fun f hf u hu => ?_
      rw [fieldValue_some c hu]
      obtain ⟨u', hu', hvalue⟩ := lookup_validateFields hout hk.1 hf
      obtain rfl : u' = u := Option.some.inj (hu'.symm.trans hu)
      cases hlookup : Dict.lookup f.1 entries with
      | none =>
          rw [fieldValue_none c hlookup] at hvalue
          exact (hfields f hf).2 hlookup u' hvalue
      | some old =>
          rw [fieldValue_some c hlookup] at hvalue
          exact ih f hf (hk.2 f hf).1 ((hfields f hf).1 old hlookup) hvalue

/-- A field of a validated record is its own validation. -/
theorem validate_field {fields : List (Field S Num)} (hnames : (fields.map Prod.fst).Nodup)
    {out : Entries Num} (h : validateFields c fields out = some out) {f : Field S Num}
    (hf : f ∈ fields) : ∃ v, Dict.lookup f.1 out = some v ∧ validate c f.2.1 v = some v := by
  obtain ⟨v, hv, hvalue⟩ := lookup_validateFields h hnames hf
  rw [fieldValue_some c hv] at hvalue
  exact ⟨v, hv, hvalue⟩

/-- **One field of a validated record** is exchanged for another validated value. -/
theorem validateFields_assign {fields : List (Field S Num)} (hnames : (fields.map Prod.fst).Nodup)
    {out : Entries Num} (h : validateFields c fields out = some out) {f : Field S Num}
    (hf : f ∈ fields) {v : Json Num} (hv : validate c f.2.1 v = some v) :
    validateFields c fields (Dict.assign f.1 v out) = some (Dict.assign f.1 v out) := by
  have hkeys : (Dict.assign f.1 v out).map Prod.fst = fields.map Prod.fst := by
    rw [Dict.keys_assign v, keys_validateFields h]
    rw [keys_validateFields h]
    exact List.mem_map_of_mem hf
  refine validateFields_eq_some.mpr (forall₂_of_lookup
    (R := fun f' u => fieldValue c f' (Dict.assign f.1 v out) = some u) hkeys hnames ?_)
  intro g hg u hu
  rw [fieldValue_some c hu]
  rw [Dict.lookup_assign] at hu
  by_cases hname : g.1 = f.1
  · obtain rfl : g = f := List.inj_on_of_nodup_map hnames hg hf hname
    rw [if_pos rfl] at hu
    rw [← Option.some.inj hu]
    exact hv
  · rw [if_neg hname] at hu
    obtain ⟨u', hu', hvalue⟩ := validate_field hnames h hg
    obtain rfl : u' = u := Option.some.inj (hu'.symm.trans hu)
    exact hvalue

end NetPulse.Lib.Schema
