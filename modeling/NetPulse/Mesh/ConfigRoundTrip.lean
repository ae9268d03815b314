import NetPulse.Lib.JsonPlaces
import NetPulse.Mesh.ConfigMask
import NetPulse.Mesh.ConfigManager

/-
# NetPulse.Mesh.ConfigRoundTrip — saving what the config editor has shown (`services/config/service.py`)

`save` takes the text of the editor, puts the secret of the node in the place of the placeholder, in
the tree at `local.secret` and in the text on every line that looks like a secret, and writes the
text. So a text that is saved as it was shown has the secret of the node on each of these lines,
whatever they stood for.

`saved_back_iff` says when the tree and the configuration stay as they were, for files in which each of
these lines is an entry of a mapping.
-/

namespace NetPulse.Mesh.ConfigService

open NetPulse.Lib NetPulse.Lib.Json NetPulse.Lib.Schema NetPulse.Mesh.NodeConfig

variable {Num : Type}

/-! ## §1 The secret as a scalar -/

def hexDigit (n : Nat) : Char := "0123456789abcdef".toList.getD n '0'

/-- `json.dumps` on a character, with `ensure_ascii=False`. -/
def escape (c : Char) : Chars :=
  if c = '"' then ['\\', '"']
  else if c = '\\' then ['\\', '\\']
  else if c = '\n' then ['\\', 'n']
  else if c = '\r' then ['\\', 'r']
  else if c = '\t' then ['\\', 't']
  else if c.toNat = 8 then ['\\', 'b']
  else if c.toNat = 12 then ['\\', 'f']
  else if c.toNat < 32 then ['\\', 'u', '0', '0', hexDigit (c.toNat / 16), hexDigit (c.toNat % 16)]
  else [c]

/-- `_yaml_scalar` of a text. -/
def yaml_scalar (s : String) : Chars := '"' :: s.toList.flatMap escape ++ ['"']

/-! ## §2 Lines that are entries -/

def joinLines (lines : List Chars) : Chars := ['\n'].intercalate lines

theorem joinLines_linesOf (text : Chars) : joinLines (linesOf text) = text :=
  List.intercalate_splitOn '\n'

/-- The text with another line. -/
def setLine (text : Chars) (i : Nat) (l : Chars) : Chars := joinLines ((linesOf text).set i l)

def placeholderText : String := "__MASKED_SECRET__"

/-- PyYAML, and what it makes of the lines of a text. -/
structure Loader (Num : Type) where
  safe_load : Chars → Option (Json Num)
  /-- The place of the value, if the line is an entry of a block mapping and has the whole of its
  value, a scalar. -/
  entry : Chars → Nat → Option Place
  /-- A scalar that can stand in a line, and the text that it is. -/
  reads : Chars → String → Prop
  reads_placeholder : reads secret_placeholder placeholderText
  reads_value : ∀ {v s}, reads v s → valueOf v = some v ∧ '\n' ∉ v
  load_blank : ∀ {text}, isBlankText text = true → ∀ entries, safe_load text ≠ some (.obj entries)
  entry_scalar : ∀ {text t i p}, safe_load text = some t → entry text i = some p →
    ∃ u, at_ p t = some u ∧ IsScalar u
  /-- Another scalar in such a line is another scalar at its place. -/
  load_entry : ∀ {text i p l m v s}, entry text i = some p → (linesOf text)[i]? = some l →
    secretLine l = some m → reads v s →
    safe_load (setLine text i (written m.indent v)) = (safe_load text).map (put p (.str s)) ∧
      ∀ j, entry (setLine text i (written m.indent v)) j = entry text j

/-- The line with another value, if its match is among the chosen. -/
def subLine (sel : Match → Bool) (v : Chars) (l : Chars) : Chars :=
  match secretLine l with
  | some m => if sel m then written m.indent v else l
  | none => l

/-- What `_mask_secret` changes. -/
def masked (m : Match) : Bool := !plainValue m.val

theorem maskLine_eq (l : Chars) : maskLine l = subLine masked secret_placeholder l := by
  unfold maskLine subLine masked
  cases secretLine l with
  | none => rfl
  | some m =>
      dsimp only
      cases plainValue m.val <;> rfl

theorem unmaskLine_eq (scalar l : Chars) : unmaskLine scalar l = subLine (fun _ => true) scalar l := by
  unfold unmaskLine subLine
  cases secretLine l <;> rfl

section Places

variable (y : Loader Num)

/-- The place of a line, if it is among the chosen. -/
def placeOf (text : Chars) (sel : Match → Bool) (i : Nat) (l : Chars) : Option Place :=
  (secretLine l).bind fun m => if sel m then y.entry text i else none

/-- The places of the chosen lines, from a line on. -/
def placesFrom (text : Chars) (sel : Match → Bool) : Nat → List Chars → List Place
  | _, [] => []
  | i, l :: rest => (placeOf y text sel i l).toList ++ placesFrom text sel (i + 1) rest

/-- The places of the chosen lines of a text. -/
def placesOf (text : Chars) (sel : Match → Bool) : List Place :=
  placesFrom y text sel 0 (linesOf text)

/-- Every line that looks like a secret is an entry of a mapping. -/
def AllEntries (text : Chars) : Prop :=
  ∀ i l, (linesOf text)[i]? = some l → (secretLine l).isSome = true → (y.entry text i).isSome = true

end Places

section Writing

variable {y : Loader Num} {text : Chars} {sel : Match → Bool}

theorem mem_placesFrom {i : Nat} {lines : List Chars} {p : Place} :
    p ∈ placesFrom y text sel i lines ↔
      ∃ j l, lines[j]? = some l ∧ placeOf y text sel (i + j) l = some p := by
  induction lines generalizing i with
  | nil =>
      rw [placesFrom]
      refine iff_of_false List.not_mem_nil ?_
      rintro ⟨j, l, h, -⟩
      rw [List.getElem?_nil] at h
      cases h
  | cons l rest ih =>
      rw [placesFrom, List.mem_append, Option.mem_toList, ih]
      constructor
      · rintro (h | ⟨j, l', hl', h⟩)
        · exact ⟨0, l, rfl, h⟩
        · refine ⟨j + 1, l', hl', ?_⟩
          rw [← h]
          congr 1
          omega
      · rintro ⟨j, l', hl', h⟩
        cases j with
        | zero =>
            obtain rfl := Option.some.inj hl'
            exact .inl h
        | succ j =>
            refine .inr ⟨j, l', hl', ?_⟩
            rw [← h]
            congr 1
            omega

theorem scalars_placesOf {t : Json Num} (h : y.safe_load text = some t) (sel : Match → Bool) :
    Scalars (placesOf y text sel) t := by
  intro p hp
  obtain ⟨j, l, -, hplace⟩ := mem_placesFrom.mp hp
  obtain ⟨m, -, hentry⟩ := Option.bind_eq_some_iff.mp hplace
  split at hentry
  · exact y.entry_scalar h hentry
  · cases hentry

theorem newline_not_mem_subLine {v l : Chars} (hv : '\n' ∉ v) (hl : '\n' ∉ l) :
    '\n' ∉ subLine sel v l := by
  unfold subLine
  cases hmatch : secretLine l with
  | none => exact hl
  | some m =>
      dsimp only
      split
      · exact newline_not_mem_written (secretLine_wf hmatch).newline_not_mem hv
      · exact hl

theorem linesOf_joinLines {lines : List Chars} (hne : lines ≠ []) (h : ∀ l ∈ lines, '\n' ∉ l) :
    linesOf (joinLines lines) = lines := List.splitOn_intercalate '\n' h hne

/-- Some of the lines are written already; each of the others is an entry still. -/
theorem load_joinLines {v : Chars} {s : String} (hv : y.reads v s) (hall : AllEntries y text)
    (rest : List Chars) : ∀ done : List Chars, linesOf text = done ++ rest →
      (∀ j, y.entry (joinLines (done.map (subLine sel v) ++ rest)) j = y.entry text j) →
      y.safe_load (joinLines ((done ++ rest).map (subLine sel v))) =
        (y.safe_load (joinLines (done.map (subLine sel v) ++ rest))).map
          (putAll (placesFrom y text sel done.length rest) (.str s)) := by
  induction rest with
  | nil =>
      intro done _ _
      rw [List.append_nil, List.append_nil, placesFrom]
      exact Option.map_id'.symm
  | cons l rest ih =>
      intro done hlines hentries
      have hclean : ∀ l' ∈ done ++ l :: rest, '\n' ∉ l' := by
        intro l' hl'
        exact newline_not_mem (hlines ▸ hl')
      have hnewline : ∀ l' ∈ done.map (subLine sel v) ++ l :: rest, '\n' ∉ l' := by
        intro l' hl'
        rcases List.mem_append.mp hl' with hl' | hl'
        · obtain ⟨l'', hl'', rfl⟩ := List.mem_map.mp hl'
          exact newline_not_mem_subLine (y.reads_value hv).2 (hclean _ (List.mem_append_left _ hl''))
        · exact hclean _ (List.mem_append_right _ hl')
      have hsplit := linesOf_joinLines (by simp) hnewline
      have hagain := ih (done ++ [l]) (by rw [hlines, List.append_assoc, List.singleton_append])
      rw [List.append_assoc, List.singleton_append, List.map_append, List.map_singleton,
        List.append_assoc, List.singleton_append, List.length_append, List.length_singleton] at hagain
      rw [placesFrom]
      unfold placeOf
      -- a line that is written as it was does not move the text
      cases hmatch : secretLine l with
      | none =>
          have hsame : subLine sel v l = l := by rw [subLine, hmatch]
          rw [hsame] at hagain
          exact hagain hentries
      | some m =>
          rw [Option.bind_some]
          cases hsel : sel m with
          | false =>
              have hsame : subLine sel v l = l := by
                rw [subLine, hmatch]
                dsimp only
                rw [hsel, if_neg Bool.false_ne_true]
              rw [hsame] at hagain
              rw [if_neg Bool.false_ne_true]
              exact hagain hentries
          | true =>
              -- the loader sees one more scalar, and the entries behind it as they were
              have hat : (linesOf text)[done.length]? = some l := by
                rw [hlines, List.getElem?_append_right le_rfl, Nat.sub_self, List.getElem?_cons_zero]
              obtain ⟨p, hp⟩ := Option.isSome_iff_exists.mp
                (hall _ l hat (by rw [hmatch]; rfl))
              have hat' : (linesOf (joinLines (done.map (subLine sel v) ++ l :: rest)))[done.length]? =
                  some l := by
                rw [hsplit, List.getElem?_append_right (by rw [List.length_map]), List.length_map,
                  Nat.sub_self, List.getElem?_cons_zero]
              have hset : setLine (joinLines (done.map (subLine sel v) ++ l :: rest)) done.length
                  (written m.indent v) =
                  joinLines (done.map (subLine sel v) ++ subLine sel v l :: rest) := by
                have hline : subLine sel v l = written m.indent v := by
                  rw [subLine, hmatch]
                  dsimp only
                  rw [hsel, if_pos rfl]
                rw [setLine, hsplit, List.set_append_right _ _ (by rw [List.length_map]),
                  List.length_map, Nat.sub_self, List.set_cons_zero, hline]
              obtain ⟨hload, hkeep⟩ := y.load_entry ((hentries _).trans hp) hat' hmatch hv
              rw [hset] at hload hkeep
              rw [hagain fun j => (hkeep j).trans (hentries j), hload, if_pos rfl, hp,
                Option.map_map]
              rfl

/-- **A text with other scalars** on the chosen lines is the tree with other scalars at their places. -/
theorem load_mapLines {v : Chars} {s : String} (hv : y.reads v s) (hall : AllEntries y text)
    (sel : Match → Bool) :
    y.safe_load (mapLines (subLine sel v) text) =
      (y.safe_load text).map (putAll (placesOf y text sel) (.str s)) := by
  have hsame := joinLines_linesOf text
  have hstart : ∀ j, y.entry (joinLines ([].map (subLine sel v) ++ linesOf text)) j =
      y.entry text j := by
    intro j
    rw [List.map_nil, List.nil_append, hsame]
  have h := load_joinLines hv hall (linesOf text) [] rfl hstart
  rw [List.map_nil, List.nil_append, hsame] at h
  exact h

end Writing

/-! ## §3 Saving -/

section Saving

variable [Canon] [Pydantic Num] (y : Loader Num) (hostname : String)

/-- `config.yaml` and the live configuration. -/
structure Editor (Num : Type) where
  file : Chars
  live : Entries Num

inductive Refusal where
  /-- The text is empty. -/
  | blank
  | unparsable
  /-- The root is no mapping. -/
  | root
  /-- There is the placeholder, and no secret on the node. -/
  | secret
  | invalid
  deriving DecidableEq

def secretPlace : Place := [.key "local", .key "secret"]

def textAt (p : Place) (t : Json Num) : Option String := textOf (at_ p t)

/-- `ctx.config.local.secret` -/
def secretOf (live : Entries Num) : Option String := textAt secretPlace (.obj live)

/-- `_commit` of a text when nothing was written in between; the text is written. -/
def commit (e : Editor Num) (text : Chars) : Except Refusal (Editor Num) :=
  match y.safe_load text with
  | none => .error .unparsable
  | some (.obj parsed) =>
      if textAt secretPlace (.obj parsed) = some placeholderText then
        if isSet (secretOf e.live) then
          let real := (secretOf e.live).getD ""
          match validate coercion (config hostname) (put secretPlace (.str real) (.obj parsed)) with
          | some (.obj cfg) => .ok ⟨unmask_secret (yaml_scalar real) text, cfg⟩
          | _ => .error .invalid
        else .error .secret
      else
        match validate coercion (config hostname) (.obj parsed) with
        | some (.obj cfg) => .ok ⟨text, cfg⟩
        | _ => .error .invalid
  | some _ => .error .root

/-- `save` -/
def save (e : Editor Num) (text : Chars) : Except Refusal (Editor Num) :=
  if isBlankText text then .error .blank else commit y hostname e text

/-- The editor after the text that it shows has been saved. -/
def saved_back (e : Editor Num) : Editor Num :=
  match save y hostname e (mask_secret (secretOf e.live) e.file) with
  | .ok e' => e'
  | .error _ => e

/-- The file stands for the same tree, and the configuration is the same. -/
def RoundTrip (e : Editor Num) : Prop :=
  y.safe_load (saved_back y hostname e).file = y.safe_load e.file ∧
    (saved_back y hostname e).live = e.live

/-- The tree that is validated when the shown text is saved. -/
def shownTree (file : Chars) (t : Json Num) : Json Num :=
  putAll (placesOf y file masked) (.str placeholderText) t

/-- The secret stands on every line that looks like one, and the models read nothing of the other
lines; where `local.secret` is not masked, none of the masked lines says anything but the
placeholder. A text that the models refuse is not saved. -/
def Undisturbed (e : Editor Num) (real : String) (t : Json Num) : Prop :=
  if textAt secretPlace (shownTree y e.file t) = some placeholderText then
    ∀ cfg, validate coercion (config hostname) (put secretPlace (.str real) (shownTree y e.file t)) =
      some cfg →
      (∀ p ∈ placesOf y e.file fun _ => true, at_ p t = some (.str real)) ∧ cfg = .obj e.live
  else
    ∀ cfg, validate coercion (config hostname) (shownTree y e.file t) = some cfg →
      ∀ p ∈ placesOf y e.file masked, at_ p t = some (.str placeholderText)

variable {y hostname}

omit [Canon] [Pydantic Num] in
/-- Masking before does not matter to what is put into all of the lines. -/
theorem unmask_mask {scalar : Chars} (hscalar : '\n' ∉ scalar) (text : Chars) :
    unmask_secret scalar (mapLines maskLine text) = unmask_secret scalar text := by
  refine eq_of_linesOf ?_
  rw [linesOf_unmask hscalar, linesOf_unmask hscalar, linesOf_mask, List.map_map]
  exact List.map_congr_left fun l _ => unmaskLine_maskLine scalar l

omit [Canon] [Pydantic Num] in
theorem load_mask {file : Chars} (hall : AllEntries y file) {t : Json Num}
    (h : y.safe_load file = some t) :
    y.safe_load (mapLines maskLine file) = some (shownTree y file t) := by
  rw [show maskLine = subLine masked secret_placeholder from funext maskLine_eq,
    load_mapLines y.reads_placeholder hall, h]
  rfl

omit [Canon] [Pydantic Num] in
theorem load_unmask {file scalar : Chars} {real : String} (hreads : y.reads scalar real)
    (hall : AllEntries y file) {t : Json Num} (h : y.safe_load file = some t) :
    y.safe_load (unmask_secret scalar (mapLines maskLine file)) =
      some (putAll (placesOf y file fun _ => true) (.str real) t) := by
  rw [unmask_mask (y.reads_value hreads).2, unmask_secret,
    show unmaskLine scalar = subLine (fun _ => true) scalar from funext (unmaskLine_eq scalar),
    load_mapLines hreads hall, h]
  rfl

/-- What the models accept is a mapping, and so is the configuration. -/
theorem validated_obj {v w : Json Num} (h : validate coercion (config hostname) v = some w) :
    ∃ entries cfg, v = .obj entries ∧ w = .obj cfg := by
  obtain ⟨entries, cfg, hv, hw, -⟩ := validate_model.mp h
  exact ⟨entries, cfg, hv, hw⟩

theorem validate_cases (hostname : String) (v : Json Num) :
    validate coercion (config hostname) v = none ∨
      ∃ cfg, validate coercion (config hostname) v = some (.obj cfg) := by
  cases h : validate coercion (config hostname) v with
  | none => exact .inl rfl
  | some w =>
      obtain ⟨-, cfg, -, rfl⟩ := validated_obj h
      exact .inr ⟨cfg, rfl⟩

omit [Canon] [Pydantic Num] in
theorem obj_of_textAt {t : Json Num} {s : String} (h : textAt secretPlace t = some s) :
    ∃ entries, t = .obj entries := by
  cases t with
  | obj entries => exact ⟨entries, rfl⟩
  | null | bool | num | str | list => cases h

/-- A save that is refused changes nothing. -/
theorem saved_back_of_refused {e : Editor Num} {r : Refusal}
    (h : save y hostname e (mask_secret (secretOf e.live) e.file) = .error r) :
    RoundTrip y hostname e := by
  unfold RoundTrip saved_back
  rw [h]
  exact ⟨rfl, rfl⟩

theorem saved_back_of_saved {e e' : Editor Num}
    (h : save y hostname e (mask_secret (secretOf e.live) e.file) = .ok e') :
    RoundTrip y hostname e ↔ y.safe_load e'.file = y.safe_load e.file ∧ e'.live = e.live := by
  unfold RoundTrip saved_back
  rw [h]

/-- The shown text says the placeholder for the secret: the file gets the secret on each line, if the
models accept it there. -/
theorem roundTrip_masked_iff {e : Editor Num} {t : Json Num} {parsed : Entries Num} {real : String}
    (hload : y.safe_load e.file = some t) (hsecret : secretOf e.live = some real) (hne : real ≠ "")
    (hreads : y.reads (yaml_scalar real) real) (hall : AllEntries y e.file)
    (hshown : y.safe_load (mapLines maskLine e.file) = some (.obj parsed))
    (hused : textAt secretPlace (.obj parsed) = some placeholderText)
    (hsave : save y hostname e (mask_secret (secretOf e.live) e.file) =
      commit y hostname e (mapLines maskLine e.file)) :
    RoundTrip y hostname e ↔
      ∀ cfg, validate coercion (config hostname) (put secretPlace (.str real) (.obj parsed)) =
        some cfg →
        (∀ p ∈ placesOf y e.file fun _ => true, at_ p t = some (.str real)) ∧ cfg = .obj e.live := by
  have hset : isSet (secretOf e.live) = true := by
    rw [hsecret]
    exact decide_eq_true hne
  rcases validate_cases hostname (put secretPlace (.str real) (.obj parsed)) with hnone | ⟨cfg, hcfg⟩
  · have hrefused : commit y hostname e (mapLines maskLine e.file) = .error .invalid := by
      rw [commit, hshown]
      dsimp only
      rw [if_pos hused, if_pos hset, hsecret, Option.getD_some, hnone]
    refine iff_of_true (saved_back_of_refused (hsave.trans hrefused)) fun cfg h => ?_
    rw [hnone] at h
    cases h
  · have hsaved : commit y hostname e (mapLines maskLine e.file) =
        .ok ⟨unmask_secret (yaml_scalar real) (mapLines maskLine e.file), cfg⟩ := by
      rw [commit, hshown]
      dsimp only
      rw [if_pos hused, if_pos hset, hsecret, Option.getD_some, hcfg]
    rw [saved_back_of_saved (hsave.trans hsaved), load_unmask hreads hall hload, hload,
      Option.some.injEq, putAll_eq_self_iff (scalars_placesOf hload _) (isScalar_str real), hcfg]
    constructor
    · rintro ⟨hplaces, hlive⟩ w hw
      rw [← Option.some.inj hw]
      exact ⟨hplaces, congrArg Json.obj hlive⟩
    · intro h
      exact ⟨(h _ rfl).1, Json.obj.inj (h _ rfl).2⟩

/-- The shown text says something else for the secret: it is the file, if the models accept it. -/
theorem roundTrip_unmasked_iff {e : Editor Num} {t : Json Num} {parsed : Entries Num}
    (hload : y.safe_load e.file = some t)
    (hvalid : validate coercion (config hostname) t = some (.obj e.live))
    (hroot : shownTree y e.file t = .obj parsed)
    (hshown : y.safe_load (mapLines maskLine e.file) = some (.obj parsed))
    (hused : textAt secretPlace (.obj parsed) ≠ some placeholderText)
    (hsave : save y hostname e (mask_secret (secretOf e.live) e.file) =
      commit y hostname e (mapLines maskLine e.file)) :
    RoundTrip y hostname e ↔
      ∀ cfg, validate coercion (config hostname) (.obj parsed) = some cfg →
        ∀ p ∈ placesOf y e.file masked, at_ p t = some (.str placeholderText) := by
  rcases validate_cases hostname (.obj parsed) with hnone | ⟨cfg, hcfg⟩
  · have hrefused : commit y hostname e (mapLines maskLine e.file) = .error .invalid := by
      rw [commit, hshown]
      dsimp only
      rw [if_neg hused, hnone]
    refine iff_of_true (saved_back_of_refused (hsave.trans hrefused)) fun cfg h => ?_
    rw [hnone] at h
    cases h
  · have hsaved : commit y hostname e (mapLines maskLine e.file) =
        .ok ⟨mapLines maskLine e.file, cfg⟩ := by
      rw [commit, hshown]
      dsimp only
      rw [if_neg hused, hcfg]
    -- the shown tree is the tree of the file where masking says nothing new
    have hself := putAll_eq_self_iff (scalars_placesOf hload masked)
      (isScalar_str placeholderText)
    have htree : putAll (placesOf y e.file masked) (.str placeholderText) t = .obj parsed := hroot
    rw [saved_back_of_saved (hsave.trans hsaved), hshown, hload, Option.some.injEq, hcfg,
      ← hself, htree]
    constructor
    · rintro ⟨heq, -⟩ w -
      exact heq
    · intro h
      have heq := h _ rfl
      rw [heq, hvalid] at hcfg
      exact ⟨heq, (Json.obj.inj (Option.some.inj hcfg)).symm⟩

/-- **What is saved as it was shown** leaves tree and configuration exactly if the file is
undisturbed. -/
theorem saved_back_iff {e : Editor Num} {t : Json Num} (hload : y.safe_load e.file = some t)
    (hvalid : validate coercion (config hostname) t = some (.obj e.live)) {real : String}
    (hsecret : secretOf e.live = some real) (hne : real ≠ "")
    (hreads : y.reads (yaml_scalar real) real) (hall : AllEntries y e.file) :
    RoundTrip y hostname e ↔ Undisturbed y hostname e real t := by
  have hset : isSet (secretOf e.live) = true := by
    rw [hsecret]
    exact decide_eq_true hne
  have hmask : mask_secret (secretOf e.live) e.file = mapLines maskLine e.file := if_pos hset
  have hshown := load_mask hall hload
  -- what is no mapping is refused, and the models would refuse it too
  have hno : (∀ entries, shownTree y e.file t ≠ .obj entries) → Undisturbed y hostname e real t := by
    intro hobj
    unfold Undisturbed
    rw [if_neg fun h => (obj_of_textAt h).elim hobj]
    intro cfg h
    obtain ⟨entries, -, heq, -⟩ := validated_obj h
    exact absurd heq (hobj entries)
  by_cases hblank : isBlankText (mapLines maskLine e.file) = true
  · have hsave : save y hostname e (mask_secret (secretOf e.live) e.file) = .error .blank := by
      rw [hmask, save, if_pos hblank]
    refine iff_of_true (saved_back_of_refused hsave) (hno fun entries heq => ?_)
    rw [heq] at hshown
    exact y.load_blank hblank entries hshown
  have hsave : save y hostname e (mask_secret (secretOf e.live) e.file) =
      commit y hostname e (mapLines maskLine e.file) := by
    rw [hmask, save, if_neg hblank]
  cases hroot : shownTree y e.file t with
  | null | bool | num | str | list =>
      have hrefused : commit y hostname e (mapLines maskLine e.file) = .error .root := by
        rw [commit, hshown, hroot]
      exact iff_of_true (saved_back_of_refused (hsave.trans hrefused))
        (hno fun entries heq => by rw [hroot] at heq; cases heq)
  | obj parsed =>
      rw [hroot] at hshown
      unfold Undisturbed
      rw [hroot]
      by_cases hused : textAt secretPlace (.obj parsed) = some placeholderText
      · rw [if_pos hused]
        exact roundTrip_masked_iff hload hsecret hne hreads hall hshown hused hsave
      · rw [if_neg hused]
        exact roundTrip_unmasked_iff hload hvalid hroot hshown hused hsave

end Saving

/-! ## §4 Two sections with a secret -/

attribute [local instance] asciiLetters plainPydantic intTruth

def isLetter (c : Char) : Bool := decide ('a' ≤ c ∧ c ≤ 'z')

/-- Words, words in quotes, and the placeholder. -/
def scalarOf (v : Chars) : Option String :=
  if v = secret_placeholder then some placeholderText
  else if v ∈ ["alpha".toList, "beta".toList] then some (String.ofList v)
  else
    match v with
    | '"' :: rest =>
        if rest.getLast? = some '"' ∧ rest.dropLast.all isLetter ∧ rest.dropLast ≠ [] then
          some (String.ofList rest.dropLast)
        else none
    | _ => none

/-- The value of a line `  secret: value`. -/
def lineValue (l : Chars) : Option String :=
  (secretLine l).bind fun m =>
    if l = written m.indent m.val ∧ m.indent = "  ".toList then scalarOf m.val else none

/-- `local` and another section, each with a secret. -/
def twoSections (s s' : String) : Json Int :=
  .obj [("local", .obj [("secret", .str s)]), ("other", .obj [("secret", .str s')])]

/-- YAML of the texts with two sections. -/
def sectionsLoad (text : Chars) : Option (Json Int) :=
  match linesOf text with
  | [a, b, c, d] =>
      if a = "local:".toList ∧ c = "other:".toList then
        (lineValue b).bind fun s => (lineValue d).map fun s' => twoSections s s'
      else none
  | _ => none

def sectionsEntry (text : Chars) (i : Nat) : Option Place :=
  if (sectionsLoad text).isSome then
    if i = 1 then some secretPlace
    else if i = 3 then some [.key "other", .key "secret"]
    else none
  else none

theorem sectionsLoad_eq_some {text : Chars} {t : Json Int} (h : sectionsLoad text = some t) :
    ∃ b d s s', linesOf text = ["local:".toList, b, "other:".toList, d] ∧ lineValue b = some s ∧
      lineValue d = some s' ∧ t = twoSections s s' := by
  unfold sectionsLoad at h
  split at h
  · rename_i a b c d hlines
    split at h
    · rename_i hac
      obtain ⟨s, hs, h⟩ := Option.bind_eq_some_iff.mp h
      obtain ⟨s', hs', rfl⟩ := Option.map_eq_some_iff.mp h
      obtain ⟨rfl, rfl⟩ := hac
      exact ⟨b, d, s, s', hlines, hs, hs', rfl⟩
    · cases h
  · cases h

theorem lineValue_written {l v : Chars} {m : Match} {s s' : String} (hm : secretLine l = some m)
    (hl : lineValue l = some s') (hv : valueOf v = some v) (hs : scalarOf v = some s) :
    lineValue (written m.indent v) = some s := by
  have hwf := secretLine_wf hm
  have hindent : m.indent = "  ".toList := by
    unfold lineValue at hl
    rw [hm, Option.bind_some] at hl
    split at hl
    · rename_i h
      exact h.2
    · cases hl
  unfold lineValue
  rw [secretLine_written hwf.indent_ne hwf.indent_tabs hv, Option.bind_some, if_pos ⟨rfl, hindent⟩, hs]

theorem sectionsLoad_of_lines {text b d : Chars} {s s' : String}
    (hlines : linesOf text = ["local:".toList, b, "other:".toList, d]) (hb : lineValue b = some s)
    (hd : lineValue d = some s') : sectionsLoad text = some (twoSections s s') := by
  rw [sectionsLoad, hlines]
  dsimp only
  rw [if_pos ⟨rfl, rfl⟩, hb, hd]
  rfl

theorem sectionsLoad_setLine {text b d l : Chars} {i : Nat} {s s' : String}
    (hlines : (linesOf text).set i l = ["local:".toList, b, "other:".toList, d]) (hl : '\n' ∉ l)
    (hb : lineValue b = some s) (hd : lineValue d = some s') :
    sectionsLoad (setLine text i l) = some (twoSections s s') := by
  refine sectionsLoad_of_lines ?_ hb hd
  rw [setLine, linesOf_joinLines _ fun l' hl' => ?_, hlines]
  · rw [hlines]
    exact List.cons_ne_nil _ _
  · rcases List.mem_or_eq_of_mem_set hl' with hmem | rfl
    · exact newline_not_mem hmem
    · exact hl

theorem sectionsEntry_congr {text text' : Chars}
    (h : (sectionsLoad text).isSome = (sectionsLoad text').isSome) (j : Nat) :
    sectionsEntry text j = sectionsEntry text' j := by
  unfold sectionsEntry
  rw [h]

def sections : Loader Int where
  safe_load := sectionsLoad
  entry := sectionsEntry
  reads v s := valueOf v = some v ∧ '\n' ∉ v ∧ scalarOf v = some s
  reads_placeholder := by decide +kernel
  reads_value h := ⟨h.1, h.2.1⟩
  load_blank {text} hblank entries h := by
    obtain ⟨b, d, -, -, hlines, -⟩ := sectionsLoad_eq_some h
    -- the character of `local:` is no blank
    have hmem : 'l' ∈ text := by
      rw [← joinLines_linesOf text, hlines]
      exact List.mem_append_left _ (by decide)
    have hspace := List.all_eq_true.mp hblank 'l' hmem
    revert hspace
    decide
  entry_scalar {text t i p} h hentry := by
    obtain ⟨-, -, s, s', -, -, -, rfl⟩ := sectionsLoad_eq_some h
    unfold sectionsEntry at hentry
    rw [h, Option.isSome_some, if_pos rfl] at hentry
    split at hentry
    · obtain rfl := Option.some.inj hentry
      exact ⟨.str s, rfl, isScalar_str s⟩
    · split at hentry
      · obtain rfl := Option.some.inj hentry
        exact ⟨.str s', rfl, isScalar_str s'⟩
      · cases hentry
  load_entry {text i p l m v s} hentry hline hm hv := by
    obtain ⟨hvalue, hnewline, hscalar⟩ := hv
    cases hload : sectionsLoad text with
    | none =>
        rw [sectionsEntry, hload] at hentry
        cases hentry
    | some t =>
        obtain ⟨b, d, s₁, s₂, hlines, hb, hd, rfl⟩ := sectionsLoad_eq_some hload
        have hwritten := newline_not_mem_written (secretLine_wf hm).newline_not_mem hnewline
        rw [sectionsEntry, hload, Option.isSome_some, if_pos rfl] at hentry
        rw [hlines] at hline
        have hsame : ∀ {t'}, sectionsLoad (setLine text i (written m.indent v)) = some t' →
            ∀ j, sectionsEntry (setLine text i (written m.indent v)) j = sectionsEntry text j := by
          intro t' h j
          refine sectionsEntry_congr ?_ j
          rw [h, hload]
          rfl
        split at hentry
        · rename_i hi
          subst hi
          obtain rfl := Option.some.inj hentry
          obtain rfl : b = l := Option.some.inj hline
          have hnew := sectionsLoad_setLine (i := 1) (by rw [hlines]; rfl) hwritten
            (lineValue_written hm hb hvalue hscalar) hd
          exact ⟨hnew, hsame hnew⟩
        · split at hentry
          · rename_i hi
            subst hi
            obtain rfl := Option.some.inj hentry
            obtain rfl : d = l := Option.some.inj hline
            have hnew := sectionsLoad_setLine (i := 3) (by rw [hlines]; rfl) hwritten hb
              (lineValue_written hm hd hvalue hscalar)
            exact ⟨hnew, hsame hnew⟩
          · cases hentry

/-- `local` with one secret, and a section with another one. -/
def otherFile : Chars := "local:\n  secret: alpha\nother:\n  secret: beta".toList

def otherTree : Json Int := twoSections "alpha" "beta"

/-- The node that runs with this file. -/
def otherNode : Editor Int :=
  ⟨otherFile, (objEntries ((validate coercion (config "pc") otherTree).getD .null)).getD []⟩

theorem otherNode_valid :
    validate coercion (config "pc") otherTree = some (.obj otherNode.live) := by
  have hsome : (validate coercion (config "pc") otherTree).isSome = true := by decide +kernel
  obtain ⟨w, hw⟩ := Option.isSome_iff_exists.mp hsome
  obtain ⟨-, cfg, -, rfl⟩ := validated_obj hw
  rw [otherNode, hw]
  rfl

theorem allEntries_otherFile : AllEntries sections otherFile := by
  have hlines : linesOf otherFile = ["local:".toList, "  secret: alpha".toList, "other:".toList,
    "  secret: beta".toList] := by decide +kernel
  intro i l hl hmatch
  rw [hlines] at hl
  rcases i with _ | _ | _ | _ | i
  · obtain rfl := Option.some.inj hl
    revert hmatch
    decide +kernel
  · decide +kernel
  · obtain rfl := Option.some.inj hl
    revert hmatch
    decide +kernel
  · decide +kernel
  · cases hl

theorem saved_back_iff_otherNode :
    RoundTrip sections "pc" otherNode ↔ Undisturbed sections "pc" otherNode "alpha" otherTree :=
  saved_back_iff (by rfl) otherNode_valid (by decide +kernel) (by decide) (by
    exact ⟨by decide +kernel, by decide +kernel, by decide +kernel⟩) allEntries_otherFile

/-- The other section has the secret of the node afterwards. -/
theorem saved_back_other :
    ¬ ∀ (e : Editor Int) (t : Json Int) (real : String), sections.safe_load e.file = some t →
      validate coercion (config "pc") t = some (.obj e.live) → secretOf e.live = some real →
      real ≠ "" → RoundTrip sections "pc" e := by
  intro h
  obtain ⟨hload, -⟩ := h otherNode otherTree "alpha" (by rfl) otherNode_valid (by decide +kernel)
    (by decide)
  have hafter : (sections.safe_load (saved_back sections "pc" otherNode).file).bind
      (textAt [.key "other", .key "secret"]) = some "alpha" := by decide +kernel
  have hbefore : (sections.safe_load otherNode.file).bind (textAt [.key "other", .key "secret"]) =
      some "beta" := by decide +kernel
  rw [hload, hbefore] at hafter
  revert hafter
  decide

end NetPulse.Mesh.ConfigService
