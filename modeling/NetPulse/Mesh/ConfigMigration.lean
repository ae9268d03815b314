import NetPulse.Mesh.ConfigManager

/-
# NetPulse.Mesh.ConfigMigration — what a loading keeps of `config.yaml` (`internal_modules/config.py`)

`Carries` says that a tree has every key and value of another one, up to the case of the letters in
names of nodes; peers that are there twice are taken away before. Filling with defaults loses what
stands where a section goes (`Sectioned`); a migration writes what the models print and so loses every
key that they do not declare and every value that they spell in another way (`Plain`).

`load_keeps_iff`: a file that is canonical keeps everything exactly if it is `Sectioned`, and one that
is migrated exactly if it is `Plain`.
-/

namespace NetPulse.Mesh.NodeConfig

open NetPulse.Lib NetPulse.Lib.Json NetPulse.Lib.Schema

variable {Num Text : Type}

section Carrying

variable [Letters] [Pydantic Num]

/-! ## §1 Trees that carry a file -/

/-- The scalars that go through `_canon_node`. -/
def isName : Scalar → Bool
  | .ident | .node => true
  | _ => false

/-- The same name, up to the case of its letters. -/
def SameName (v w : Json Num) : Prop :=
  v = w ∨ ∃ s t, v = .str s ∧ w = .str t ∧ Letters.lower s = Letters.lower t

mutual

/-- The second value has all that the first one has, where a value of the kind is meant; an empty
section may have been filled. -/
def Carries : KindOf Num → Json Num → Json Num → Prop
  | .scalar s, v, w => if isName s then SameName v w else v = w
  | .any, v, w => v = w
  | .list item, v, w =>
      match listItems v with
      | some items => ∃ out, w = .list out ∧ List.Forall₂ (Carries item) items out
      | none => v = w
  | .dict value, v, w =>
      match objEntries v with
      | some entries => ∃ out, w = .obj out ∧
          List.Forall₂ (fun e e' => e'.1 = e.1 ∧ Carries value e.2 e'.2) entries out
      | none => v = .null ∧ isObj w = true ∨ v = w
  | .model fields, v, w =>
      match objEntries v with
      | some entries => ∃ out, w = .obj out ∧ CarriesFields fields entries out ∧
          ∀ k u, k ∉ fields.map Prod.fst → Dict.lookup k entries = some u →
            Dict.lookup k out = some u
      | none => v = .null ∧ isObj w = true ∨ v = w

def CarriesFields : Fields Num → Entries Num → Entries Num → Prop
  | [], _, _ => True
  | (name, kind, _) :: rest, entries, out =>
      (∀ u, Dict.lookup name entries = some u →
        ∃ w, Dict.lookup name out = some w ∧ Carries kind u w) ∧ CarriesFields rest entries out

/-- Every section of the file is a mapping, or empty. -/
def Sectioned : KindOf Num → Json Num → Prop
  | .scalar _, _ | .any, _ | .list _, _ => True
  | .dict _, v => isObj v = true ∨ v = .null
  | .model fields, v =>
      match objEntries v with
      | some entries => SectionedFields fields entries
      | none => v = .null

def SectionedFields : Fields Num → Entries Num → Prop
  | [], _ => True
  | (_, _, none) :: rest, entries => SectionedFields rest entries
  | (name, kind, some _) :: rest, entries =>
      (∀ u, Dict.lookup name entries = some u → Sectioned kind u) ∧ SectionedFields rest entries

/-- The value is spelled as the models print it, but for the case of names, and has no key that they
do not declare. -/
def Plain : KindOf Num → Json Num → Prop
  | .scalar s, v =>
      if isName s then ∀ t, v = .str t → canon t = Letters.lower t else coerce s v = some v
  | .any, _ => True
  | .list item, v => ∀ items, listItems v = some items → ∀ u ∈ items, Plain item u
  | .dict value, v =>
      match objEntries v with
      | some entries => ∀ e ∈ entries, Plain value e.2
      | none => v = .null
  | .model fields, v =>
      match objEntries v with
      | some entries => PlainFields fields entries ∧
          ∀ k u, Dict.lookup k entries = some u → k ∈ fields.map Prod.fst
      | none => v = .null

def PlainFields : Fields Num → Entries Num → Prop
  | [], _ => True
  | (name, kind, _) :: rest, entries =>
      (∀ u, Dict.lookup name entries = some u → Plain kind u) ∧ PlainFields rest entries

end

theorem carriesFields_iff {fields : Fields Num} {entries out : Entries Num} :
    CarriesFields fields entries out ↔ ∀ f ∈ fields, ∀ u, Dict.lookup f.1 entries = some u →
      ∃ w, Dict.lookup f.1 out = some w ∧ Carries f.2.1 u w := by
  induction fields with
  | nil =>
      rw [CarriesFields]
      exact iff_of_true trivial fun f hf => absurd hf List.not_mem_nil
  | cons f rest ih => rw [CarriesFields, ih, List.forall_mem_cons]

theorem plainFields_iff {fields : Fields Num} {entries : Entries Num} :
    PlainFields fields entries ↔
      ∀ f ∈ fields, ∀ u, Dict.lookup f.1 entries = some u → Plain f.2.1 u := by
  induction fields with
  | nil =>
      rw [PlainFields]
      exact iff_of_true trivial fun f hf => absurd hf List.not_mem_nil
  | cons f rest ih => rw [PlainFields, ih, List.forall_mem_cons]

theorem sectionedFields_iff {fields : Fields Num} {entries : Entries Num} :
    SectionedFields fields entries ↔ ∀ f ∈ fields, f.2.2 ≠ none →
      ∀ u, Dict.lookup f.1 entries = some u → Sectioned f.2.1 u := by
  induction fields with
  | nil =>
      rw [SectionedFields]
      exact iff_of_true trivial fun f hf => absurd hf List.not_mem_nil
  | cons f rest ih =>
      obtain ⟨name, kind, default_⟩ := f
      rw [List.forall_mem_cons, ← ih]
      cases default_ with
      | none => rw [SectionedFields]; simp
      | some d => rw [SectionedFields]; simp

omit [Letters] in
theorem forall₂_iff_of {α β : Type} {R Q : α → β → Prop} {P : α → Prop} {l : List α} {r : List β}
    (h : List.Forall₂ R l r) (hiff : ∀ a ∈ l, ∀ b, R a b → (Q a b ↔ P a)) :
    List.Forall₂ Q l r ↔ ∀ a ∈ l, P a := by
  induction h with
  | nil => exact iff_of_true .nil fun a ha => absurd ha List.not_mem_nil
  | cons hfirst _ ih =>
      rw [List.forall_mem_cons] at hiff ⊢
      rw [List.forall₂_cons, ih hiff.2, hiff.1 _ hfirst]

/-- Every value carries itself. -/
theorem Carries.refl (k : KindOf Num) : ∀ v : Json Num, Carries k v v := by
  induction k using Kind.fieldInduction with
  | scalar s =>
      intro v
      rw [Carries]
      split
      · exact .inl rfl
      · rfl
  | any =>
      intro v
      rw [Carries]
  | list item ih =>
      intro v
      rw [Carries]
      cases v with
      | list items => exact ⟨items, rfl, List.forall₂_same.mpr fun u _ => ih u⟩
      | null | bool | num | str | obj => rfl
  | dict value ih =>
      intro v
      rw [Carries]
      cases v with
      | obj entries => exact ⟨entries, rfl, List.forall₂_same.mpr fun e _ => ⟨rfl, ih e.2⟩⟩
      | null | bool | num | str | list => exact .inr rfl
  | model fields ih =>
      intro v
      rw [Carries]
      cases v with
      | obj entries =>
          exact ⟨entries, rfl, carriesFields_iff.mpr fun f hf u hu => ⟨u, hu, ih f hf u⟩,
            fun k u _ hu => hu⟩
      | null | bool | num | str | list => exact .inr rfl

/-! ## §2 Filling -/

/-- **Filling keeps a value** exactly if its sections are mappings or empty. -/
theorem carries_fill_iff {k : KindOf Num} (hk : Proper k) :
    ∀ {d : Json Num}, Backed k d → ∀ u : Json Num,
      Carries k u (fillWith (some u) d) ↔ Sectioned k u := by
  induction k using Kind.fieldInduction with
  | scalar s =>
      intro d hd u
      rw [Backed] at hd
      rw [fillWith_leaf hd, Sectioned]
      exact iff_of_true (Carries.refl _ u) trivial
  | any =>
      intro d hd u
      rw [Backed] at hd
      rw [fillWith_leaf hd, Sectioned]
      exact iff_of_true (Carries.refl _ u) trivial
  | list item _ =>
      intro d hd u
      rw [Backed] at hd
      rw [fillWith_leaf hd.2, Sectioned]
      exact iff_of_true (Carries.refl _ u) trivial
  | dict value _ =>
      intro d hd u
      rw [Backed] at hd
      rw [hd.2, Sectioned]
      cases u with
      | obj entries =>
          rw [fillWith_section, filled, deep_fill]
          exact iff_of_true (Carries.refl _ _) (.inl rfl)
      | null =>
          rw [fillWith_replaced rfl, Carries]
          exact iff_of_true (.inl ⟨rfl, rfl⟩) (.inr rfl)
      | bool | num | str | list =>
          rw [fillWith_replaced rfl, Carries]
          exact iff_of_false (by rintro (⟨h, -⟩ | h) <;> cases h) (by rintro (h | h) <;> cases h)
  | model fields ih =>
      intro d hd u
      rw [Backed, backedFields_iff] at hd
      have hunique := (unique_obj.mp (unique_defaults hk)).1
      rw [Proper, properFields_iff] at hk
      rw [hd.1, Sectioned]
      cases u with
      | obj entries =>
          rw [fillWith_section, Carries]
          -- what the defaults do not have is taken over
          have hunknown : ∀ name u, name ∉ fields.map Prod.fst →
              Dict.lookup name entries = some u →
              Dict.lookup name (filled entries (defaults fields)) = some u := by
            intro name u hname hu
            rw [lookup_filled_none hunique, hu]
            refine Dict.lookup_eq_none fun hmem => hname ?_
            obtain ⟨e, he, heq⟩ := List.mem_map.mp hmem
            obtain ⟨f, hf, hf', -⟩ := mem_defaults he
            exact List.mem_map.mpr ⟨f, hf, hf'.trans heq⟩
          have hfields : CarriesFields fields entries (filled entries (defaults fields)) ↔
              SectionedFields fields entries := by
            rw [carriesFields_iff, sectionedFields_iff]
            refine forall_congr' fun f => forall_congr' fun hf => ?_
            have hlookup := lookup_defaults hk.1 hf
            cases hdefault : f.2.2 with
            | none =>
                rw [hdefault] at hlookup
                refine iff_of_true (fun u hu => ⟨u, ?_, Carries.refl _ u⟩) fun h => absurd rfl h
                rw [lookup_filled_none hunique hlookup, hu]
            | some d =>
                rw [hdefault] at hlookup
                have hiff := ih f hf (hk.2 f hf).1 ((hd.2 f hf).2 d hdefault)
                constructor
                · intro h _ u hu
                  obtain ⟨w, hw, hcarries⟩ := h u hu
                  rw [lookup_filled_some hunique hlookup, hu] at hw
                  rw [← Option.some.inj hw] at hcarries
                  exact (hiff u).mp hcarries
                · intro h u hu
                  refine ⟨_, ?_, (hiff u).mpr (h (Option.some_ne_none d) u hu)⟩
                  rw [lookup_filled_some hunique hlookup, hu]
          constructor
          · rintro ⟨out, hout, hcarries, -⟩
            rw [← Json.obj.inj hout] at hcarries
            exact hfields.mp hcarries
          · intro h
            exact ⟨_, rfl, hfields.mpr h, hunknown⟩
      | null =>
          rw [fillWith_replaced rfl, Carries]
          exact iff_of_true (.inl ⟨rfl, rfl⟩) rfl
      | bool | num | str | list =>
          rw [fillWith_replaced rfl, Carries]
          exact iff_of_false (by rintro (⟨h, -⟩ | h) <;> cases h) (by intro h; cases h)

/-! ## §3 Validating -/

omit [Pydantic Num] in
theorem sameName_canon (s : String) :
    SameName (.str s) (.str (canon s) : Json Num) ↔ canon s = Letters.lower s := by
  constructor
  · rintro (h | ⟨t, u, ht, hu, hlower⟩)
    · have hcanon : canon s = s := (Json.str.inj h).symm
      have hlower := Letters.lower_canon s
      rw [hcanon] at hlower
      rw [hcanon, hlower]
    · rw [← Json.str.inj ht, ← Json.str.inj hu, Letters.lower_canon] at hlower
      exact hlower.symm
  · intro h
    refine .inr ⟨s, canon s, rfl, rfl, ?_⟩
    rw [Letters.lower_canon, h]

theorem carries_coerce_iff {s : Scalar} {v w : Json Num} (h : coerce s v = some w) :
    Carries (.scalar s) v w ↔ Plain (.scalar s) v := by
  rw [Carries, Plain]
  -- a name is trimmed and put into lower case
  have hname : ∀ t, v = .str t → w = .str (canon t) →
      (SameName v w ↔ ∀ t, v = .str t → canon t = Letters.lower t) := by
    rintro t rfl rfl
    rw [sameName_canon]
    exact ⟨fun h t' heq => Json.str.inj heq ▸ h, fun h => h t rfl⟩
  cases s with
  | ident =>
      obtain ⟨t, ht, hw⟩ := coerce_ident h
      exact hname t ht hw
  | node =>
      obtain ⟨t, ht, -, hw⟩ := coerce_node h
      exact hname t ht hw
  | int | float | bool | str | optStr | path =>
      show (v = w) ↔ coerce _ v = some v
      rw [h, Option.some.injEq]
      exact eq_comm

omit [Letters] [Pydantic Num] in
/-- The keys of a record that is read, and of what a model prints. -/
theorem unknown_kept_iff {fields : Fields Num} {entries out : Entries Num}
    (hkeys : out.map Prod.fst = fields.map Prod.fst) :
    (∀ k u, k ∉ fields.map Prod.fst → Dict.lookup k entries = some u →
        Dict.lookup k out = some u) ↔
      ∀ k u, Dict.lookup k entries = some u → k ∈ fields.map Prod.fst := by
  refine forall_congr' fun k => forall_congr' fun u => ⟨fun h hu => ?_, fun h hk hu => ?_⟩
  · by_contra hk
    have hmem := List.mem_map_of_mem (f := Prod.fst) (Dict.mem_of_lookup (h hk hu))
    rw [hkeys] at hmem
    exact hk hmem
  · exact absurd (h hu) hk

/-- A record is kept exactly if it is plain, where what it has under each field is. -/
theorem carries_model_iff {fields : Fields Num} {entries out : Entries Num}
    (hkeys : out.map Prod.fst = fields.map Prod.fst)
    (hvalues : ∀ f ∈ fields, ∀ u, Dict.lookup f.1 entries = some u →
      ∃ v, Dict.lookup f.1 out = some v ∧ (Carries f.2.1 u v ↔ Plain f.2.1 u)) :
    Carries (.model fields) (.obj entries) (.obj out) ↔ Plain (.model fields) (.obj entries) := by
  have hfields : CarriesFields fields entries out ↔ PlainFields fields entries := by
    rw [carriesFields_iff, plainFields_iff]
    refine forall_congr' fun f => forall_congr' fun hf => forall_congr' fun u =>
      forall_congr' fun hu => ?_
    obtain ⟨v, hv, hiff⟩ := hvalues f hf u hu
    simp only [hv, Option.some.injEq, exists_eq_left', hiff]
  rw [Carries, Plain]
  dsimp only [objEntries]
  rw [← hfields, ← unknown_kept_iff hkeys]
  constructor
  · rintro ⟨out', heq, hcarries⟩
    obtain rfl := Json.obj.inj heq
    exact hcarries
  · intro h
    exact ⟨out, rfl, h⟩

/-- **A validation keeps a value** exactly if it is plain. -/
theorem carries_validated_iff {k : KindOf Num} (hk : Proper k) :
    ∀ {u w : Json Num}, validate coercion k u = some w → (Carries k u w ↔ Plain k u) := by
  induction k using Kind.fieldInduction with
  | scalar s =>
      intro u w h
      exact carries_coerce_iff h
  | any =>
      intro u w h
      rw [validate, Option.some.injEq] at h
      rw [Carries, Plain]
      exact iff_of_true h trivial
  | list item ih =>
      intro u w h
      rw [Proper] at hk
      obtain ⟨items, out, rfl, rfl, hout⟩ := validate_list.mp h
      have hiff := forall₂_iff_of (Q := Carries item) hout fun v _ v' => ih hk
      rw [Carries, Plain]
      constructor
      · rintro ⟨out', heq, hcarries⟩ items' heq'
        obtain rfl := Json.list.inj heq
        obtain rfl := Option.some.inj heq'
        exact hiff.mp hcarries
      · intro h
        exact ⟨out, rfl, hiff.mpr (h items rfl)⟩
  | dict value ih =>
      intro u w h
      rw [Proper] at hk
      obtain ⟨entries, out, rfl, rfl, hout⟩ := validate_dict.mp h
      have hiff := forall₂_iff_of (P := fun e => Plain value e.2)
        (Q := fun e e' => e'.1 = e.1 ∧ Carries value e.2 e'.2) hout
        fun e _ e' he => (and_iff_right he.1).trans (ih hk he.2)
      rw [Carries, Plain]
      dsimp only [objEntries]
      rw [← hiff]
      constructor
      · rintro ⟨out', heq, hcarries⟩
        obtain rfl := Json.obj.inj heq
        exact hcarries
      · intro h
        exact ⟨out, rfl, h⟩
  | model fields ih =>
      intro u w h
      rw [Proper, properFields_iff] at hk
      obtain ⟨entries, out, rfl, rfl, hout⟩ := validate_model.mp h
      refine carries_model_iff (keys_validateFields hout) fun f hf u hu => ?_
      obtain ⟨v, hv, hvalue⟩ := lookup_validateFields hout hk.1 hf
      rw [fieldValue_some coercion hu] at hvalue
      exact ⟨v, hv, ih f hf (hk.2 f hf).1 hvalue⟩

/-- **Filling and validating** keep a value exactly if it is plain. -/
theorem carries_filled_validated_iff {k : KindOf Num} (hk : Proper k) :
    ∀ {d : Json Num}, Backed k d → ∀ {u w : Json Num},
      validate coercion k (fillWith (some u) d) = some w → (Carries k u w ↔ Plain k u) := by
  induction k using Kind.fieldInduction with
  | scalar s =>
      intro d hd u w h
      rw [Backed] at hd
      rw [fillWith_leaf hd] at h
      exact carries_validated_iff hk h
  | any =>
      intro d hd u w h
      rw [Backed] at hd
      rw [fillWith_leaf hd] at h
      exact carries_validated_iff hk h
  | list item _ =>
      intro d hd u w h
      rw [Backed] at hd
      rw [fillWith_leaf hd.2] at h
      exact carries_validated_iff hk h
  | dict value _ =>
      intro d hd u w h
      rw [Backed] at hd
      rw [hd.2] at h
      cases u with
      | obj entries =>
          rw [fillWith_section, filled, deep_fill] at h
          exact carries_validated_iff hk h
      | null =>
          rw [fillWith_replaced rfl] at h
          obtain ⟨_, out, -, rfl, -⟩ := validate_dict.mp h
          rw [Carries, Plain]
          exact iff_of_true (.inl ⟨rfl, rfl⟩) rfl
      | bool | num | str | list =>
          rw [fillWith_replaced rfl] at h
          obtain ⟨_, out, -, rfl, -⟩ := validate_dict.mp h
          rw [Carries, Plain]
          exact iff_of_false (by rintro (⟨h, -⟩ | h) <;> cases h) (by intro h; cases h)
  | model fields ih =>
      intro d hd u w h
      rw [Backed, backedFields_iff] at hd
      have hunique := (unique_obj.mp (unique_defaults hk)).1
      rw [Proper, properFields_iff] at hk
      rw [hd.1] at h
      cases u with
      | obj entries =>
          rw [fillWith_section] at h
          obtain ⟨_, out, heq, rfl, hout⟩ := validate_model.mp h
          rw [← Json.obj.inj heq] at hout
          -- a field without a default is validated as it was read, the others after filling
          refine carries_model_iff (keys_validateFields hout) fun f hf u hu => ?_
          obtain ⟨v, hv, hvalue⟩ := lookup_validateFields hout hk.1 hf
          have hlookup := lookup_defaults hk.1 hf
          refine ⟨v, hv, ?_⟩
          cases hdefault : f.2.2 with
          | none =>
              rw [hdefault] at hlookup
              rw [fieldValue_some coercion ((lookup_filled_none hunique hlookup).trans hu)]
                at hvalue
              exact carries_validated_iff (hk.2 f hf).1 hvalue
          | some d' =>
              rw [hdefault] at hlookup
              rw [fieldValue_some coercion (lookup_filled_some hunique hlookup), hu] at hvalue
              exact ih f hf (hk.2 f hf).1 ((hd.2 f hf).2 d' hdefault) hvalue
      | null =>
          rw [fillWith_replaced rfl] at h
          obtain ⟨_, out, -, rfl, -⟩ := validate_model.mp h
          rw [Carries, Plain]
          exact iff_of_true (.inl ⟨rfl, rfl⟩) rfl
      | bool | num | str | list =>
          rw [fillWith_replaced rfl] at h
          obtain ⟨_, out, -, rfl, -⟩ := validate_model.mp h
          rw [Carries, Plain]
          exact iff_of_false (by rintro (⟨h, -⟩ | h) <;> cases h) (by intro h; cases h)

/-! ## §4 Peers that are there twice -/

/-- `_canon_node` of the name of a peer, as it is read. -/
def canonId (peer : Json Num) : String := canon ((nodeId peer).getD "")

/-- The first peer of each name. -/
def firstPeers (seen : List String) : List (Json Num) → List (Json Num)
  | [] => []
  | p :: rest =>
      if canonId p ∈ seen then firstPeers seen rest else p :: firstPeers (canonId p :: seen) rest

/-- What was read, without the peers whose name is there before. -/
def dropDuplicates (raw : Entries Num) : Entries Num :=
  match (Dict.lookup "local" raw).bind objEntries with
  | some loc =>
      match (Dict.lookup "peers" loc).bind listItems with
      | some peers =>
          Dict.assign "local" (.obj (Dict.assign "peers" (.list (firstPeers [] peers)) loc)) raw
      | none => raw
  | none => raw

/-- A peer that is validated has a name in canonical spelling. -/
theorem nodeId_validated {p q : Json Num} (h : validate coercion (.model peerConfig) p = some q) :
    ∃ s, nodeId p = some s ∧ nodeId q = some (canon s) := by
  obtain ⟨entries, out, rfl, rfl, hout⟩ := validate_model.mp h
  have hnames : ((peerConfig : Fields Num).map Prod.fst).Nodup := by
    simp [peerConfig, required]
  have hmem : required "node_id" .ident ∈ (peerConfig : Fields Num) := by simp [peerConfig]
  obtain ⟨v, hv, hvalue⟩ := lookup_validateFields hout hnames hmem
  cases hlookup : Dict.lookup "node_id" entries with
  | none =>
      rw [fieldValue_none coercion (f := required "node_id" .ident) hlookup] at hvalue
      cases hvalue
  | some u =>
      rw [fieldValue_some coercion (f := required "node_id" .ident) hlookup] at hvalue
      obtain ⟨s, rfl, rfl⟩ := coerce_ident hvalue
      refine ⟨s, ?_, ?_⟩
      · unfold nodeId
        rw [get_key, hlookup]
        rfl
      · unfold nodeId
        rw [get_key, show Dict.lookup "node_id" out = _ from hv]
        rfl

theorem lowId_validated {p q : Json Num} (h : validate coercion (.model peerConfig) p = some q) :
    lowId q = canonId p := by
  obtain ⟨s, hp, hq⟩ := nodeId_validated h
  unfold lowId canonId
  rw [hp, hq]
  exact Letters.lower_canon s

/-- The peers that are kept are the ones that are the first of their name in the file. -/
theorem uniqPeers_validated {raw cfg : List (Json Num)}
    (h : List.Forall₂ (fun p q => validate coercion (.model peerConfig) p = some q) raw cfg)
    (seen : List String) :
    List.Forall₂ (fun p q => validate coercion (.model peerConfig) p = some q)
      (firstPeers seen raw) (uniqPeers seen cfg) := by
  induction h generalizing seen with
  | nil => exact .nil
  | cons hfirst _ ih =>
      rw [firstPeers, uniqPeers, lowId_validated hfirst]
      split
      · exact ih seen
      · exact .cons hfirst (ih _)

omit [Pydantic Num] in
theorem firstPeers_sublist (seen : List String) (peers : List (Json Num)) :
    (firstPeers seen peers).Sublist peers := by
  induction peers generalizing seen with
  | nil => exact List.Sublist.refl _
  | cons p rest ih =>
      rw [firstPeers]
      split
      · exact (ih seen).trans (List.sublist_cons_self _ _)
      · exact (ih _).cons_cons p

/-- One field of what is read is exchanged, and with it one of the record. -/
theorem validateFields_filled_assign {fields : Fields Num} (hk : Proper (.model fields))
    {entries out : Entries Num}
    (h : validateFields coercion fields (filled entries (defaults fields)) = some out)
    {f : Field Scalar Num} (hf : f ∈ fields) {d v w : Json Num} (hd : f.2.2 = some d)
    (hv : validate coercion f.2.1 (fillWith (some v) d) = some w) :
    validateFields coercion fields (filled (Dict.assign f.1 v entries) (defaults fields)) =
      some (Dict.assign f.1 w out) := by
  have hunique := (unique_obj.mp (unique_defaults hk)).1
  rw [Proper] at hk
  have hkeys : (Dict.assign f.1 w out).map Prod.fst = fields.map Prod.fst := by
    rw [Dict.keys_assign w, keys_validateFields h]
    rw [keys_validateFields h]
    exact List.mem_map_of_mem hf
  refine validateFields_eq_some.mpr (forall₂_of_lookup
    (R := fun g u => fieldValue coercion g
      (filled (Dict.assign f.1 v entries) (defaults fields)) = some u) hkeys hk.1 ?_)
  intro g hg u hu
  rw [Dict.lookup_assign] at hu
  by_cases hname : g.1 = f.1
  · obtain rfl : g = f := List.inj_on_of_nodup_map hk.1 hg hf hname
    have hlookup := (lookup_defaults hk.1 hg).trans hd
    rw [if_pos rfl] at hu
    rw [fieldValue_some coercion (lookup_filled_some hunique hlookup), Dict.lookup_assign, if_pos rfl,
      hv, hu]
  · rw [if_neg hname] at hu
    obtain ⟨u', hu', hvalue⟩ := lookup_validateFields h hk.1 hg
    obtain rfl : u' = u := Option.some.inj (hu'.symm.trans hu)
    rw [← hvalue]
    -- the other fields are as they were
    have hsame : Dict.lookup g.1 (filled (Dict.assign f.1 v entries) (defaults fields)) =
        Dict.lookup g.1 (filled entries (defaults fields)) := by
      cases hd' : Dict.lookup g.1 (defaults fields) with
      | none =>
          rw [lookup_filled_none hunique hd', lookup_filled_none hunique hd', Dict.lookup_assign,
            if_neg hname]
      | some d' =>
          rw [lookup_filled_some hunique hd', lookup_filled_some hunique hd', Dict.lookup_assign,
            if_neg hname]
    unfold fieldValue
    rw [hsame]

/-! ## §5 Files that are not migrated -/

omit [Letters] [Pydantic Num] in
/-- What a section has when it is filled. -/
theorem fillWith_fields {fields : Fields Num} (hk : Proper (.model fields))
    (cur : Option (Json Num)) :
    ∃ full, fillWith cur (.obj (defaults fields)) = .obj full ∧
      ∀ f ∈ fields, ∀ d, f.2.2 = some d → Dict.lookup f.1 full =
        some (fillWith ((cur.bind objEntries).bind (Dict.lookup f.1)) d) := by
  have hunique := (unique_obj.mp (unique_defaults hk)).1
  rw [Proper] at hk
  by_cases hcur : cur.any isObj = true
  · obtain ⟨v, rfl, hv⟩ := (Option.any_eq_true _ _).mp hcur
    cases v with
    | obj entries =>
        refine ⟨_, fillWith_section _ _, fun f hf d hd => ?_⟩
        rw [lookup_filled_some hunique ((lookup_defaults hk.1 hf).trans hd)]
        rfl
    | null | bool | num | str | list => cases hv
  · rw [Bool.not_eq_true] at hcur
    refine ⟨_, fillWith_replaced hcur _, fun f hf d hd => ?_⟩
    have hnone : cur.bind objEntries = none := by
      cases cur with
      | none => rfl
      | some v =>
          cases v with
          | obj entries => cases hcur
          | null | bool | num | str | list => rfl
    rw [hnone, Option.bind_none, fillWith_none]
    exact (lookup_defaults hk.1 hf).trans hd

/-- The section `local` of what is filled and validated. -/
theorem local_validated {hostname : String} {raw cfg : Entries Num}
    (h : validateFields coercion (configFields hostname)
      (filled raw (default_config_dict hostname)) = some cfg) :
    ∃ loc loc', Dict.lookup "local" (filled raw (default_config_dict hostname)) = some (.obj loc) ∧
      fillWith (Dict.lookup "local" raw) (.obj (defaults (localConfig hostname))) = .obj loc ∧
      Dict.lookup "local" cfg = some (.obj loc') ∧
      validateFields coercion (localConfig hostname) loc = some loc' := by
  have hk : Proper (config hostname : KindOf Num) := proper_config hostname
  have hlookup : Dict.lookup "local" (filled raw (default_config_dict hostname)) =
      some (fillWith (Dict.lookup "local" raw) (.obj (defaults (localConfig hostname)))) :=
    lookup_filled_some (unique_obj.mp (unique_defaults hk)).1
      (lookup_defaults (names_nodup hostname) (mem_configFields_local hostname))
  obtain ⟨v, hv, hvalue⟩ := lookup_validateFields h (names_nodup hostname)
    (mem_configFields_local hostname)
  rw [fieldValue_some coercion (f := section_ "local" (localConfig hostname)) hlookup] at hvalue
  obtain ⟨loc, loc', hloc, rfl, hvalid⟩ := validate_model.mp hvalue
  rw [hloc] at hlookup
  exact ⟨loc, loc', hlookup, hloc, hv, hvalid⟩

omit [Pydantic Num] in
theorem differs_eq_false {p : List String} {raw cfg : Entries Num} {s : String}
    (hraw : textOf (get p (.obj raw)) = some s)
    (hcfg : textOf (get p (.obj cfg)) = some (canon s)) :
    differs p raw cfg = false ↔ ∀ t, textOf (get p (.obj raw)) = some t → canon t = t := by
  unfold differs
  rw [hraw, hcfg]
  dsimp only
  rw [decide_eq_false_iff_not, not_not, Option.some.injEq]
  exact ⟨fun h t ht => Option.some.inj ht ▸ h, fun h => h s rfl⟩

/-- The peers that were read and the ones of the models. -/
theorem peers_agree_iff {raw cfg : List (Json Num)}
    (h : List.Forall₂ (fun p q => validate coercion (.model peerConfig) p = some q) raw cfg) :
    (raw.zip cfg).any (fun p => decide (nodeId p.1 ≠ nodeId p.2)) = false ↔
      ∀ p ∈ raw, ∀ s, nodeId p = some s → canon s = s := by
  induction h with
  | nil => exact iff_of_true rfl fun p hp => absurd hp List.not_mem_nil
  | @cons p q raw cfg hfirst _ ih =>
      obtain ⟨s, hp, hq⟩ := nodeId_validated hfirst
      rw [List.zip_cons_cons, List.any_cons, Bool.or_eq_false_iff, ih, List.forall_mem_cons,
        decide_eq_false_iff_not, not_not, hp, hq, Option.some.injEq]
      refine and_congr_left' ⟨fun h t ht => ?_, fun h => (h s rfl).symm⟩
      rw [← Option.some.inj ht]
      exact h.symm

theorem uniqPeers_eq_self_iff {raw cfg : List (Json Num)}
    (h : List.Forall₂ (fun p q => validate coercion (.model peerConfig) p = some q) raw cfg) :
    uniqPeers [] cfg = cfg ↔ (raw.map canonId).Nodup := by
  have hids : cfg.map lowId = raw.map canonId := by
    induction h with
    | nil => rfl
    | cons hfirst _ ih => rw [List.map_cons, List.map_cons, lowId_validated hfirst, ih]
  rw [← hids]
  constructor
  · intro huniq
    rw [← huniq]
    exact (lowId_uniqPeers [] cfg).1
  · intro hnodup
    exact uniqPeers_of_nodup hnodup fun _ _ => List.not_mem_nil

/-- Of what is filled, the names that the loading compares are in canonical spelling, and no peer is
there twice. -/
structure Canonical (hostname : String) (raw : Entries Num) : Prop where
  names : ∀ p ∈ [["node"], ["local", "alias"], ["local", "name"]], ∀ s,
    textOf (get p (.obj (filled raw (default_config_dict hostname)))) = some s → canon s = s
  peers : ∀ p ∈ peersOf (filled raw (default_config_dict hostname)), ∀ s,
    nodeId p = some s → canon s = s
  once : ((peersOf (filled raw (default_config_dict hostname))).map canonId).Nodup

/-- A name of a record that is filled, as it was and as the model has it. -/
theorem name_validated {fields : Fields Num} (hnames : (fields.map Prod.fst).Nodup)
    {entries out : Entries Num} (h : validateFields coercion fields entries = some out)
    {f : Field Scalar Num} (hf : f ∈ fields) {s : Scalar} (hs : f.2.1 = .scalar s)
    (hname : isName s = true) (hsome : (Dict.lookup f.1 entries).isSome = true) :
    ∃ t, textOf (Dict.lookup f.1 entries) = some t ∧ textOf (Dict.lookup f.1 out) = some (canon t) := by
  obtain ⟨u, hu⟩ := Option.isSome_iff_exists.mp hsome
  obtain ⟨v, hv, hvalue⟩ := lookup_validateFields h hnames hf
  rw [fieldValue_some coercion hu, hs] at hvalue
  rw [hu, hv]
  cases s with
  | ident =>
      obtain ⟨t, rfl, rfl⟩ := coerce_ident hvalue
      exact ⟨t, rfl, rfl⟩
  | node =>
      obtain ⟨t, rfl, -, rfl⟩ := coerce_node hvalue
      exact ⟨t, rfl, rfl⟩
  | int | float | bool | str | optStr | path => cases hname

omit [Letters] in
theorem proper_localConfig (hostname : String) :
    Proper (.model (localConfig hostname : Fields Num)) := by
  have hk : Proper (config hostname : KindOf Num) := proper_config hostname
  rw [config, Proper, properFields_iff] at hk
  exact (hk.2 _ (mem_configFields_local hostname)).1

omit [Letters] in
/-- The fields of `local` are there after the filling. -/
theorem local_present {hostname : String} {cur : Option (Json Num)} {loc : Entries Num}
    (h : fillWith cur (.obj (defaults (localConfig hostname))) = .obj loc) :
    ∀ f ∈ (localConfig hostname : Fields Num), f.2.2 ≠ none →
      (Dict.lookup f.1 loc).isSome = true := by
  intro f hf hne
  obtain ⟨d, hd⟩ := Option.ne_none_iff_exists'.mp hne
  obtain ⟨full, hfull, hall⟩ := fillWith_fields (proper_localConfig hostname) cur
  rw [h] at hfull
  rw [Json.obj.inj hfull, hall f hf d hd]
  rfl

theorem peers_validated {hostname : String} {raw cfg : Entries Num}
    (h : validateFields coercion (configFields hostname)
      (filled raw (default_config_dict hostname)) = some cfg) :
    List.Forall₂ (fun p q => validate coercion (.model peerConfig) p = some q)
      (peersOf (filled raw (default_config_dict hostname))) (peersOf cfg) := by
  obtain ⟨loc, loc', hloc, hfull, hloc', hvalid⟩ := local_validated h
  obtain ⟨v, hv, hvalue⟩ := lookup_validateFields hvalid (local_nodup hostname)
    (mem_localConfig_peers hostname)
  obtain ⟨u, hu⟩ := Option.isSome_iff_exists.mp
    (local_present hfull _ (mem_localConfig_peers hostname) (Option.some_ne_none _))
  rw [fieldValue_some coercion hu] at hvalue
  obtain ⟨peers, out, rfl, rfl, hout⟩ := validate_list.mp hvalue
  unfold peersOf
  rw [get_cons, get_cons, hloc, hloc', Option.bind_some, Option.bind_some, get_key, get_key,
    show Dict.lookup "peers" loc = _ from hu, show Dict.lookup "peers" loc' = _ from hv]
  exact hout

/-- **No migration** exactly if what was filled is canonical. -/
theorem canonical_iff {hostname : String} {raw cfg : Entries Num}
    (h : validateFields coercion (configFields hostname)
      (filled raw (default_config_dict hostname)) = some cfg) :
    Canonical hostname raw ↔ uniqPeers [] (peersOf cfg) = peersOf cfg ∧
      need_migrate (filled raw (default_config_dict hostname)) cfg = false := by
  obtain ⟨loc, loc', hloc, hfull, hloc', hvalid⟩ := local_validated h
  have hfield := local_present hfull
  have hget : ∀ k, get ["local", k] (.obj (filled raw (default_config_dict hostname))) =
      Dict.lookup k loc := by
    intro k
    rw [get_cons, hloc, Option.bind_some, get_key]
  have hget' : ∀ k, get ["local", k] (.obj cfg) = Dict.lookup k loc' := by
    intro k
    rw [get_cons, hloc', Option.bind_some, get_key]
  have hnode : (Dict.lookup "node" (filled raw (default_config_dict hostname))).isSome = true := by
    have hmem : field "node" .node (.str hostname) ∈ (configFields hostname : Fields Num) := by
      simp [configFields]
    exact congrArg Option.isSome
      (lookup_filled_some (unique_obj.mp (unique_defaults (proper_config hostname))).1
        (lookup_defaults (names_nodup hostname) hmem))
  obtain ⟨s, hs, hs'⟩ := name_validated (f := field "node" .node (.str hostname))
    (names_nodup hostname) h (by simp [configFields]) rfl rfl hnode
  obtain ⟨a, ha, ha'⟩ := name_validated (f := field "alias" .ident (.str hostname))
    (local_nodup hostname) hvalid (by simp [localConfig]) rfl rfl
    (hfield (field "alias" .ident (.str hostname)) (by simp [localConfig]) (Option.some_ne_none _))
  obtain ⟨n, hn, hn'⟩ := name_validated (f := field "name" .ident (.str "Core"))
    (local_nodup hostname) hvalid (by simp [localConfig]) rfl rfl
    (hfield (field "name" .ident (.str "Core")) (by simp [localConfig]) (Option.some_ne_none _))
  have hpeers := peers_validated h
  have hdiffers : differs ["node"] (filled raw (default_config_dict hostname)) cfg = false ↔ _ :=
    differs_eq_false (by rw [get_key]; exact hs) (by rw [get_key]; exact hs')
  have halias : differs ["local", "alias"] (filled raw (default_config_dict hostname)) cfg = false ↔ _ :=
    differs_eq_false (by rw [hget]; exact ha) (by rw [hget']; exact ha')
  have hname : differs ["local", "name"] (filled raw (default_config_dict hostname)) cfg = false ↔ _ :=
    differs_eq_false (by rw [hget]; exact hn) (by rw [hget']; exact hn')
  rw [uniqPeers_eq_self_iff hpeers]
  unfold need_migrate
  rw [Bool.or_eq_false_iff, Bool.or_eq_false_iff, Bool.or_eq_false_iff, Bool.or_eq_false_iff,
    hdiffers, halias, hname, decide_eq_false (not_not.mpr hpeers.length_eq), peers_agree_iff hpeers]
  constructor
  · rintro ⟨hall, hcanon, honce⟩
    rw [List.forall_mem_cons, List.forall_mem_cons, List.forall_mem_singleton] at hall
    exact ⟨honce, ⟨⟨⟨hall.1, hall.2.1⟩, hall.2.2⟩, rfl⟩, hcanon⟩
  · rintro ⟨honce, ⟨⟨⟨h₁, h₂⟩, h₃⟩, -⟩, hcanon⟩
    refine ⟨?_, hcanon, honce⟩
    rw [List.forall_mem_cons, List.forall_mem_cons, List.forall_mem_singleton]
    exact ⟨h₁, h₂, h₃⟩

/-! ## §6 What a loading keeps -/

/-- The peers of a configuration are those that were read, each of them validated; where none were
read there are none. -/
theorem peers_of_read {hostname : String} {raw cfg : Entries Num}
    (h : validateFields coercion (configFields hostname)
      (filled raw (default_config_dict hostname)) = some cfg) :
    ∃ loc loc' read,
      fillWith (Dict.lookup "local" raw) (.obj (defaults (localConfig hostname))) = .obj loc ∧
      validateFields coercion (localConfig hostname) loc = some loc' ∧
      Dict.lookup "local" cfg = some (.obj loc') ∧
      (((Dict.lookup "local" raw).bind objEntries).bind (Dict.lookup "peers")).getD (.list []) =
        .list read ∧
      List.Forall₂ (fun p q => validate coercion (.model peerConfig) p = some q) read
        (peersOf cfg) := by
  obtain ⟨loc, loc', -, hfull, hloc', hvalid⟩ := local_validated h
  obtain ⟨loc₀, peers, hlocal, -, hpeers, hof, -⟩ := (valid_of_filled h).peers
  obtain rfl : loc' = loc₀ := Json.obj.inj (Option.some.inj (hloc'.symm.trans hlocal))
  obtain ⟨full, hfull', hall⟩ := fillWith_fields (proper_localConfig hostname)
    (Dict.lookup "local" raw)
  rw [hfull] at hfull'
  obtain rfl := Json.obj.inj hfull'
  have hread : Dict.lookup "peers" loc =
      some ((((Dict.lookup "local" raw).bind objEntries).bind (Dict.lookup "peers")).getD
        (.list [])) := by
    have hleaf := hall _ (mem_localConfig_peers hostname) (.list []) rfl
    rwa [fillWith_leaf rfl] at hleaf
  obtain ⟨v, hv, hvalue⟩ := lookup_validateFields hvalid (local_nodup hostname)
    (mem_localConfig_peers hostname)
  rw [fieldValue_some coercion (f := listField "peers" (.model peerConfig) []) hread] at hvalue
  obtain ⟨read, out, hlist, rfl, hout⟩ := validate_list.mp hvalue
  obtain rfl : out = peers := Json.list.inj (Option.some.inj (hv.symm.trans hpeers))
  rw [hof]
  exact ⟨loc, loc', read, hfull, hvalid, hlocal, hlist, hout⟩

/-- What was read without doubles is validated as the configuration that is written. -/
theorem validated_dropDuplicates {hostname : String} {raw cfg : Entries Num}
    (h : validateFields coercion (configFields hostname)
      (filled raw (default_config_dict hostname)) = some cfg) :
    validateFields coercion (configFields hostname)
        (filled (dropDuplicates raw) (default_config_dict hostname)) =
      some (setPeers (uniqPeers [] (peersOf cfg)) cfg) ∧
      (uniqPeers [] (peersOf cfg) = peersOf cfg → dropDuplicates raw = raw) := by
  obtain ⟨loc, loc', read, hfull, hvalid, hlocal, hlist, hout⟩ := peers_of_read h
  -- without peers there is nothing to drop
  have hnothing : read = [] → dropDuplicates raw = raw →
      validateFields coercion (configFields hostname)
          (filled (dropDuplicates raw) (default_config_dict hostname)) =
        some (setPeers (uniqPeers [] (peersOf cfg)) cfg) ∧
        (uniqPeers [] (peersOf cfg) = peersOf cfg → dropDuplicates raw = raw) := by
    rintro rfl hdrop
    rw [List.forall₂_nil_left_iff] at hout
    have hset := (valid_of_filled h).setPeers_self
    rw [hout] at hset
    rw [hdrop, hout, uniqPeers, hset]
    exact ⟨h, fun _ => rfl⟩
  cases hsection : (Dict.lookup "local" raw).bind objEntries with
  | none =>
      rw [hsection] at hlist
      refine hnothing (Json.list.inj hlist).symm ?_
      rw [dropDuplicates, hsection]
  | some entries =>
      rw [hsection, Option.bind_some] at hlist
      cases hkey : Dict.lookup "peers" entries with
      | none =>
          rw [hkey] at hlist
          refine hnothing (Json.list.inj hlist).symm ?_
          rw [dropDuplicates, hsection]
          dsimp only
          rw [hkey]
          rfl
      | some u =>
          rw [hkey, Option.getD_some] at hlist
          obtain ⟨w, hw, hentries⟩ := Option.bind_eq_some_iff.mp hsection
          rw [objEntries_eq_some] at hentries
          subst hlist hentries
          have hdrop : dropDuplicates raw = Dict.assign "local"
              (.obj (Dict.assign "peers" (.list (firstPeers [] read)) entries)) raw := by
            rw [dropDuplicates, hsection]
            dsimp only
            rw [hkey]
            rfl
          have hset : setPeers (uniqPeers [] (peersOf cfg)) cfg = Dict.assign "local"
              (.obj (Dict.assign "peers" (.list (uniqPeers [] (peersOf cfg))) loc')) cfg := by
            rw [setPeers, hlocal]
          have huniq := uniqPeers_validated hout []
          refine ⟨?_, fun hself => ?_⟩
          · -- the peers in `local`, and `local` in the whole
            rw [hw, fillWith_section] at hfull
            rw [← Json.obj.inj hfull] at hvalid
            have hinner := validateFields_filled_assign (proper_localConfig hostname) hvalid
              (mem_localConfig_peers hostname) rfl
              (v := .list (firstPeers [] read)) (w := .list (uniqPeers [] (peersOf cfg))) (by
                rw [fillWith_leaf rfl]
                exact validate_list.mpr ⟨_, _, rfl, rfl, huniq⟩)
            rw [hdrop, hset]
            refine validateFields_filled_assign (proper_config hostname) h
              (mem_configFields_local hostname) rfl ?_
            rw [fillWith_section]
            exact validate_model.mpr ⟨_, _, rfl, rfl, hinner⟩
          · have hlength : (firstPeers [] read).length = read.length := by
              rw [huniq.length_eq, hself, hout.length_eq]
            rw [hdrop, (firstPeers_sublist [] read).eq_of_length hlength,
              Dict.assign_of_lookup hkey, Dict.assign_of_lookup hw]

section Keeping

variable [Truth Num] (yaml : Yaml Num Text) (hostname : String)

/-- The file that is left has every key and value of what was read, but for the case of names and for
peers that were there twice. -/
def Keeps (raw : Entries Num) (file' : Text) : Prop :=
  ∃ tree, (yaml.safe_load file').bind rootOf = some tree ∧
    Carries (config hostname) (.obj (dropDuplicates raw)) (.obj tree)

/-- **What a loading keeps.** Everything, if the file is canonical when it is filled and its sections
are mappings; and if it is not canonical, exactly what the models print as it is. -/
theorem load_keeps_iff {file file' : Text} {raw cfg : Entries Num}
    (hraw : (yaml.safe_load file).bind rootOf = some raw)
    (hload : load yaml hostname (some file) = (file', some cfg)) :
    Keeps yaml hostname raw file' ↔
      (Canonical hostname raw → Sectioned (config hostname) (.obj raw)) ∧
        (¬ Canonical hostname raw → Plain (config hostname) (.obj (dropDuplicates raw))) := by
  rw [load_of_root yaml hraw] at hload
  have hroot : ∀ {tree : Entries Num}, (yaml.safe_load file').bind rootOf = some tree →
      (Keeps yaml hostname raw file' ↔
        Carries (config hostname) (.obj (dropDuplicates raw)) (.obj tree)) := by
    intro tree htree
    unfold Keeps
    rw [htree]
    exact ⟨fun ⟨_, heq, h⟩ => Option.some.inj heq ▸ h, fun h => ⟨tree, rfl, h⟩⟩
  obtain ⟨cfg₀, hvalid, ⟨huniq, -, hneed, hfile⟩ | ⟨hmigrate, -, -, hcfg, hfile⟩⟩ :=
    loadRaw_cases yaml hload
  · have hcanonical := (canonical_iff hvalid).mpr ⟨huniq, hneed⟩
    have htree : (yaml.safe_load file').bind rootOf =
        some (filled raw (default_config_dict hostname)) := by
      rw [hfile]
      split
      · rename_i hempty
        -- nothing was added
        have hnil : additions (.obj (default_config_dict hostname)) (some (.obj raw)) = [] := by
          rw [deep_fill_paths (unique_default_config_dict hostname)] at hempty
          rw [additions_section]
          exact List.map_eq_nil_iff.mp (List.isEmpty_iff.mp hempty)
        have hsame := fillWith_of_additions (unique_default_config_dict hostname) _ hnil
        rw [fillWith_section] at hsame
        rw [Json.obj.inj hsame, hraw]
      · exact root_dump yaml _
    rw [hroot htree, (validated_dropDuplicates hvalid).2 huniq, ← fillWith_section,
      carries_fill_iff (proper_config hostname) (backed_config hostname)]
    exact ⟨fun h => ⟨fun _ => h, fun hnot => absurd hcanonical hnot⟩, fun h => h.1 hcanonical⟩
  · have hnot : ¬ Canonical hostname raw := by
      intro hcanonical
      obtain ⟨huniq, hneed⟩ := (canonical_iff hvalid).mp hcanonical
      rcases hmigrate with hne | htrue
      · exact hne huniq
      · rw [hneed] at htrue
        cases htrue
    have htree : (yaml.safe_load file').bind rootOf = some cfg := by
      rw [hfile]
      exact root_dump yaml _
    have hfilled := (validated_dropDuplicates hvalid).1
    rw [← hcfg] at hfilled
    rw [hroot htree, carries_filled_validated_iff (proper_config hostname) (backed_config hostname)
      (validate_model.mpr ⟨_, _, fillWith_section _ _, rfl, hfilled⟩)]
    exact ⟨fun h => ⟨fun hc => absurd hc hnot, fun _ => h⟩, fun h => h.2 hnot⟩

end Keeping


end Carrying

/-! ## §7 A section of its own -/

attribute [local instance] asciiLetters plainPydantic intTruth

/-- A file with one key, which no model declares. -/
def custom : Json Int := .obj [("custom", .str "x")]

theorem load_custom :
    ∃ tree cfg, load sameYaml "pc" (some custom) = (.obj tree, some cfg) ∧
      Dict.lookup "custom" tree = none := by
  have hsome : (load sameYaml "pc" (some custom)).2.isSome = true := by decide +kernel
  have hgone : ((objEntries (load sameYaml "pc" (some custom)).1).any fun tree =>
      (Dict.lookup "custom" tree).isNone) = true := by decide +kernel
  obtain ⟨cfg, hcfg⟩ := Option.isSome_iff_exists.mp hsome
  obtain ⟨tree, htree, hnone⟩ := (Option.any_eq_true _ _).mp hgone
  exact ⟨tree, cfg, Prod.ext (objEntries_eq_some.mp htree) hcfg, Option.isNone_iff_eq_none.mp hnone⟩

theorem load_keeps_iff_custom :
    ∃ file' cfg, load sameYaml "pc" (some custom) = (file', some cfg) ∧
      (Keeps sameYaml "pc" [("custom", .str "x")] file' ↔
        (Canonical "pc" [("custom", (.str "x" : Json Int))] →
          Sectioned (config "pc") (.obj [("custom", (.str "x" : Json Int))])) ∧
        (¬ Canonical "pc" [("custom", (.str "x" : Json Int))] →
          Plain (config "pc") (.obj (dropDuplicates [("custom", (.str "x" : Json Int))])))) := by
  obtain ⟨tree, cfg, hload, -⟩ := load_custom
  exact ⟨.obj tree, cfg, hload, load_keeps_iff sameYaml "pc" rfl hload⟩

/-- The default name `Core` is not canonical, so the file is migrated, and the key is gone. -/
theorem load_drops_custom :
    ¬ ∀ (file file' : Json Int) (raw cfg : Entries Int),
      (sameYaml.safe_load file).bind rootOf = some raw →
      load sameYaml "pc" (some file) = (file', some cfg) → Keeps sameYaml "pc" raw file' := by
  intro h
  obtain ⟨tree, cfg, hload, hgone⟩ := load_custom
  obtain ⟨tree', htree, hcarries⟩ := h custom _ _ cfg rfl hload
  obtain rfl : tree = tree' := Option.some.inj htree
  rw [config, Carries] at hcarries
  obtain ⟨out, hout, -, hunknown⟩ := hcarries
  obtain rfl := Json.obj.inj hout
  rw [hunknown "custom" (.str "x") (by simp [configFields, field, section_]) rfl] at hgone
  cases hgone

end NetPulse.Mesh.NodeConfig
