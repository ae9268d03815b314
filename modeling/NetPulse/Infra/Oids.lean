import NetPulse.Infra.Response

/-
# NetPulse.Infra.Oids — object identifiers on the wire and as texts

An identifier has its first two arcs in one number, which `_oid_enc` writes as one byte and `_oid_dec`
reads from one byte. `Oid.content` is what the standard writes. For a second arc below 40 the three
agree (`oidBytes_plain`, `oidDec_plain`); above that `_oid_dec` makes of the first byte a first arc of 3
or more (`oidDec_joint`), which no identifier has.

The walk compares texts. Behind a dot, one text begins with another exactly if the arcs do
(`dot_prefix_iff`).
-/

namespace NetPulse.Infra

open NetPulse.Lib (Bytes Text fromBytes)
open NetPulse.Mesh (strip)

/-! ## §1 Identifiers -/

/-- What an object identifier of a MIB can be. -/
structure Oid where
  first : Nat
  second : Nat
  rest : List Nat
  root : first ≤ 2
  small : first < 2 → second < 40
  word : ∀ p ∈ second :: rest, p < 2 ^ 32
  short : rest.length ≤ 126

namespace Oid

def parts (o : Oid) : List Nat := o.first :: o.second :: o.rest

def text (o : Oid) : String := oidText o.parts

/-- A number in base 128, with a bit on every byte but the last. -/
def part (p : Nat) : Bytes := (oidPart p).getD []

/-- The content of the TLV. -/
def content (o : Oid) : Bytes := ((40 * o.first + o.second) :: o.rest).flatMap part

/-- The second arc is one that fits beside each first one. -/
def Plain (o : Oid) : Prop := o.second < 40

instance (o : Oid) : Decidable o.Plain := inferInstanceAs (Decidable (_ < _))

theorem first_of_not_plain {o : Oid} (h : ¬ o.Plain) : o.first = 2 := by
  have hroot := o.root
  by_contra hne
  exact h (o.small (by omega))

theorem parts_ne_nil (o : Oid) : o.parts ≠ [] := List.cons_ne_nil _ _

end Oid

/-! ## §2 The content -/

theorem length_partLoop_le (p : Nat) (chunk : Bytes) : (partLoop p chunk).length ≤ p + chunk.length := by
  induction p using Nat.strongRecOn generalizing chunk with
  | ind p ih =>
      by_cases hp : p = 0
      · subst hp
        rw [partLoop, if_pos rfl]
        omega
      · rw [partLoop_of_pos (Nat.pos_of_ne_zero hp)]
        have hle := ih (p / 128) (by omega) (UInt8.ofNat (p % 128 ||| 0x80) :: chunk)
        rw [List.length_cons] at hle
        omega

/-- Behind a number that is not 0 the first byte has its bit. -/
theorem head_partLoop {p : Nat} (hp : 0 < p) (chunk : Bytes) :
    ∃ b bs, partLoop p chunk = b :: bs ∧ 128 ≤ b.toNat := by
  induction p using Nat.strongRecOn generalizing chunk with
  | ind p ih =>
      rw [partLoop_of_pos hp]
      by_cases hsmall : p / 128 = 0
      · rw [hsmall, partLoop, if_pos rfl]
        refine ⟨_, _, rfl, ?_⟩
        have hbit : ∀ d < 128, 128 ≤ (UInt8.ofNat (d ||| 0x80)).toNat := by decide +kernel
        exact hbit _ (Nat.mod_lt _ (by decide))
      · exact ih (p / 128) (by omega) (Nat.pos_of_ne_zero hsmall) _

theorem oidPart_eq (p : Nat) : oidPart (p : Int) = some (Oid.part p) := by
  obtain ⟨part, hpart, -⟩ := arcs_oidPart p
  rw [Oid.part, hpart, Option.getD_some]

theorem arcs_part (p : Nat) (bs : Bytes) : arcs 0 (Oid.part p ++ bs) = p :: arcs 0 bs := by
  obtain ⟨part, hpart, hread⟩ := arcs_oidPart p
  rw [Oid.part, hpart, Option.getD_some, hread]

theorem part_small {p : Nat} (h : p < 128) : Oid.part p = [UInt8.ofNat p] := by
  unfold Oid.part oidPart
  rw [if_neg (by omega), if_pos (by omega)]
  rfl

/-- A number of 120 or more begins with a byte of 120 or more. -/
theorem head_part {p : Nat} (h : 120 ≤ p) : ∃ b bs, Oid.part p = b :: bs ∧ 120 ≤ b.toNat := by
  by_cases hsmall : p < 128
  · refine ⟨UInt8.ofNat p, [], part_small hsmall, ?_⟩
    rw [UInt8.toNat_ofNat']
    omega
  · obtain ⟨b, bs, hloop, hb⟩ := head_partLoop (by omega : 0 < p / 128) []
    unfold Oid.part oidPart
    rw [if_neg (by omega), if_neg (by omega), Int.toNat_natCast, partLoop_of_pos (by omega : 0 < p),
      partLoop_append, hloop]
    dsimp only
    rw [List.dropLast_concat]
    exact ⟨b, _, rfl, by omega⟩

theorem length_part_le (p : Nat) : (Oid.part p).length ≤ p + 1 := by
  have hle := length_partLoop_le p []
  rw [List.length_nil, Nat.add_zero] at hle
  unfold Oid.part oidPart
  rw [if_neg (by omega)]
  split
  · exact Nat.le_add_left 1 p
  · rw [Option.getD_some, List.length_append, List.length_dropLast, List.length_singleton,
      Int.toNat_natCast]
    omega

theorem arcs_flatMap (ps : List Nat) : arcs 0 (ps.flatMap Oid.part) = ps := by
  induction ps with
  | nil => rfl
  | cons p ps ih => rw [List.flatMap_cons, arcs_part, ih]

/-- **The content has the identifier.** -/
theorem parts_of_content {o o' : Oid} (h : o.content = o'.content) : o.parts = o'.parts := by
  have harcs := congrArg (arcs 0) h
  rw [Oid.content, Oid.content, arcs_flatMap, arcs_flatMap, List.cons.injEq] at harcs
  obtain ⟨hfirst, hrest⟩ := harcs
  have h1 := o.root
  have h2 := o.small
  have h1' := o'.root
  have h2' := o'.small
  have hf : o.first = o'.first := by omega
  have hs : o.second = o'.second := by omega
  rw [Oid.parts, Oid.parts, hrest, hf, hs]

theorem length_flatMap_le {m : Nat} {ps : List Nat} (h : ∀ p ∈ ps, p < m) :
    (ps.flatMap Oid.part).length ≤ ps.length * m := by
  induction ps with
  | nil => exact Nat.zero_le _
  | cons p ps ih =>
      obtain ⟨hp, hps⟩ := List.forall_mem_cons.mp h
      have hpart := length_part_le p
      have hrest := ih hps
      rw [List.flatMap_cons, List.length_append, List.length_cons, Nat.succ_mul]
      omega

theorem length_content_lt (o : Oid) : o.content.length < 2 ^ 61 := by
  have hroot := o.root
  obtain ⟨hsecond, hrest⟩ := List.forall_mem_cons.mp o.word
  have hword : ∀ p ∈ (40 * o.first + o.second) :: o.rest, p < 2 ^ 33 := by
    rw [List.forall_mem_cons]
    exact ⟨by omega, fun p hp => Nat.lt_trans (hrest p hp) (by decide)⟩
  calc o.content.length
      ≤ (o.rest.length + 1) * 2 ^ 33 := length_flatMap_le hword
    _ ≤ 127 * 2 ^ 33 := Nat.mul_le_mul_right _ (Nat.succ_le_succ o.short)
    _ < 2 ^ 61 := by decide

theorem length_rest_lt (o : Oid) : (o.rest.flatMap Oid.part).length < 2 ^ 60 :=
  calc (o.rest.flatMap Oid.part).length
      ≤ o.rest.length * 2 ^ 32 := length_flatMap_le (List.forall_mem_cons.mp o.word).2
    _ ≤ 126 * 2 ^ 32 := Nat.mul_le_mul_right _ o.short
    _ < 2 ^ 60 := by decide

theorem mapM_oidPart (ps : List Nat) : (ps.map Int.ofNat).mapM oidPart = some (ps.map Oid.part) := by
  induction ps with
  | nil => rfl
  | cons p ps ih =>
      rw [List.map_cons, List.mapM_cons, Int.ofNat_eq_natCast, oidPart_eq, ih]
      rfl

/-- What `_oid_enc` writes, if the first byte is one. -/
theorem oidBytes_text (o : Oid) :
    oidBytes o.text = (byte (40 * o.first + o.second)).map fun head => head :: o.rest.flatMap Oid.part := by
  unfold oidBytes Oid.text Oid.parts
  rw [read_oidText (List.cons_ne_nil _ _)]
  simp only [List.map_cons, Option.bind_eq_bind, Option.bind_some, Int.ofNat_eq_natCast]
  rw [if_pos (by omega), show ((40 : Int) * o.first + o.second).toNat = 40 * o.first + o.second by omega]
  cases byte (40 * o.first + o.second) with
  | none => rfl
  | some head =>
      rw [Option.bind_some]
      rw [mapM_oidPart, List.flatMap_def]
      rfl

/-- **`_oid_enc` writes the content** of a plain identifier. -/
theorem oidBytes_plain {o : Oid} (h : o.Plain) : oidBytes o.text = some o.content := by
  have hroot := o.root
  have hlt : 40 * o.first + o.second < 128 := by
    unfold Oid.Plain at h
    omega
  rw [oidBytes_text, byte, if_pos (by omega), Oid.content, List.flatMap_cons, part_small hlt]
  rfl

/-- **`_oid_dec` reads it.** -/
theorem oidDec_plain {o : Oid} (h : o.Plain) : oidDec o.content = .ok o.text := by
  have hroot := o.root
  have hsecond : o.second < 40 := h
  have hcontent : o.content = UInt8.ofNat (40 * o.first + o.second) :: o.rest.flatMap Oid.part := by
    rw [Oid.content, List.flatMap_cons, part_small (by omega)]
    rfl
  have hhead : (UInt8.ofNat (40 * o.first + o.second)).toNat = 40 * o.first + o.second := by
    rw [UInt8.toNat_ofNat']
    omega
  have hparts : ∀ p ∈ o.parts, p < 10 ^ maxStrDigits := by
    have hbase : 2 ^ 32 ≤ 10 ^ maxStrDigits := by
      calc 2 ^ 32 ≤ 10 ^ 10 := by decide
        _ ≤ 10 ^ maxStrDigits := Nat.pow_le_pow_right (by decide) (by decide)
    intro p hp
    rcases List.mem_cons.mp hp with rfl | hp
    · omega
    · exact Nat.lt_of_lt_of_le (o.word p hp) hbase
  have hdiv : (40 * o.first + o.second) / 40 = o.first := by omega
  have hmod : (40 * o.first + o.second) % 40 = o.second := by omega
  rw [hcontent]
  unfold oidDec
  simp only [hhead, hdiv, hmod, arcs_flatMap]
  show (o.parts.mapM pyStr >>= fun ss => Except.ok (".".intercalate ss)) = _
  rw [mapM_pyStr hparts]
  rfl

/-- A text that begins with a first arc that there is not. -/
def Foreign (t : String) : Prop := ∃ c ∈ ['3', '4', '5', '6'], t.toList.head? = some c

/-- A text of numbers begins with the first digit of the first one. -/
theorem head_oidText (n : Nat) (ns : List Nat) :
    (oidText (n :: ns)).toList.head? = (Nat.toDigits 10 n).head? := by
  rw [toList_oidText, List.map_cons]
  obtain ⟨c, cs, hc⟩ := List.exists_cons_of_ne_nil (Nat.toDigits_ne_nil (n := n) (b := 10))
  rw [hc]
  cases ns with
  | nil => rw [List.map_nil, List.intercalate_singleton]
  | cons m ms => rw [List.map_cons, List.intercalate_cons_cons, List.append_assoc]; rfl

theorem mapM_pyStr_eq_ok {parts : List Nat} {ss : List String} (h : parts.mapM pyStr = .ok ss) :
    ss = parts.map toString := by
  induction parts generalizing ss with
  | nil =>
      cases h
      rfl
  | cons p parts ih =>
      rw [List.mapM_cons] at h
      obtain ⟨s, hs, h⟩ := NetPulse.Lib.bind_eq_ok.mp h
      obtain ⟨rest, hrest, h⟩ := NetPulse.Lib.bind_eq_ok.mp h
      cases h
      unfold pyStr at hs
      split_ifs at hs
      cases hs
      rw [ih hrest, List.map_cons, Nat.toString_eq_ofList_toDigits]

/-- **What `_oid_dec` makes of another identifier** is the text of none. -/
theorem oidDec_joint {o : Oid} (h : ¬ o.Plain) {t : String} (ht : oidDec o.content = .ok t) :
    Foreign t := by
  have hfirst := Oid.first_of_not_plain h
  have hsecond : 40 ≤ o.second := Nat.not_lt.mp h
  obtain ⟨b, bs, hpart, hb⟩ := head_part (by omega : 120 ≤ 40 * o.first + o.second)
  have hb' : b.toNat < 256 := b.toNat_lt
  have hcontent : o.content = b :: (bs ++ o.rest.flatMap Oid.part) := by
    rw [Oid.content, List.flatMap_cons, hpart, List.cons_append]
  rw [hcontent] at ht
  unfold oidDec at ht
  obtain ⟨ss, hss, ht⟩ := NetPulse.Lib.bind_eq_ok.mp ht
  cases ht
  rw [mapM_pyStr_eq_ok hss]
  have hdigit : ∀ n < 7, 3 ≤ n →
      (Nat.toDigits 10 n).head?.any (· ∈ ['3', '4', '5', '6']) = true := by decide
  have hany := hdigit (b.toNat / 40) (by omega) (by omega)
  obtain ⟨c, hhead, hc⟩ := (Option.any_eq_true _ _).mp hany
  exact ⟨c, of_decide_eq_true hc, (head_oidText _ _).trans hhead⟩

/-! ## §3 Texts -/

theorem intercalate_append (sep : List Char) {ls ms : List (List Char)} (hls : ls ≠ []) (hms : ms ≠ []) :
    sep.intercalate (ls ++ ms) = sep.intercalate ls ++ sep ++ sep.intercalate ms := by
  induction ls with
  | nil => exact absurd rfl hls
  | cons l ls ih =>
      cases ls with
      | nil =>
          obtain ⟨m, ms, rfl⟩ := List.exists_cons_of_ne_nil hms
          rw [List.singleton_append, List.intercalate_cons_cons, List.intercalate_singleton]
      | cons l' ls =>
          rw [List.cons_append, List.cons_append, List.intercalate_cons_cons, ← List.cons_append,
            ih (List.cons_ne_nil _ _), List.intercalate_cons_cons]
          simp only [List.append_assoc]

theorem oidText_append {ps qs : List Nat} (hp : ps ≠ []) (hq : qs ≠ []) :
    (oidText (ps ++ qs)).toList = (oidText ps).toList ++ '.' :: (oidText qs).toList := by
  rw [toList_oidText, toList_oidText, toList_oidText, List.map_append, intercalate_append,
    List.append_assoc, List.singleton_append]
  · exact fun h => hp (List.map_eq_nil_iff.mp h)
  · exact fun h => hq (List.map_eq_nil_iff.mp h)

theorem not_dot {n : Nat} : '.' ∉ Nat.toDigits 10 n :=
  fun h => absurd (isDigit_of_mem h) (by decide)

theorem splitOn_oidText {ps : List Nat} (hp : ps ≠ []) :
    (oidText ps).toList.splitOn '.' = ps.map (Nat.toDigits 10) := by
  rw [toList_oidText, List.splitOn_intercalate '.']
  · intro l hl
    obtain ⟨n, -, rfl⟩ := List.mem_map.mp hl
    exact not_dot
  · exact fun h => hp (List.map_eq_nil_iff.mp h)

/-- What is behind the first dot. -/
theorem behind_dot {n m : Nat} {u v : List Char}
    (h : Nat.toDigits 10 n ++ '.' :: u = Nat.toDigits 10 m ++ '.' :: v) : u = v := by
  have hsplit := congrArg (List.splitOn '.') h
  rw [List.splitOn_append_cons_self_of_not_mem not_dot,
    List.splitOn_append_cons_self_of_not_mem not_dot, List.cons.injEq] at hsplit
  have hjoin := congrArg (List.intercalate ['.']) hsplit.2
  rwa [List.intercalate_splitOn, List.intercalate_splitOn] at hjoin

theorem toDigits_injective : Function.Injective (Nat.toDigits 10) := by
  intro n m h
  have hpy := congrArg pyDigits h
  rw [pyDigits_toDigits, pyDigits_toDigits] at hpy
  exact Option.some.inj hpy

/-- **Behind a dot**, one text begins with another exactly if the arcs go on. -/
theorem dot_prefix_iff {ps xs : List Nat} (hp : ps ≠ []) (hx : xs ≠ []) :
    (oidText ps).toList ++ ['.'] <+: (oidText xs).toList ↔ ps <+: xs ∧ ps ≠ xs := by
  constructor
  · rintro ⟨rest, hrest⟩
    rw [List.append_assoc, List.singleton_append] at hrest
    have hsplit := splitOn_oidText hx
    rw [← hrest, List.splitOn_append_cons_self, splitOn_oidText hp] at hsplit
    have hmap : ps.map (Nat.toDigits 10) <+: xs.map (Nat.toDigits 10) := ⟨_, hsplit⟩
    refine ⟨(List.prefix_map_iff_of_injective toDigits_injective).mp hmap, ?_⟩
    rintro rfl
    have hnil := List.append_right_eq_self.mp hsplit
    exact List.splitOn_ne_nil _ _ hnil
  · rintro ⟨⟨rest, rfl⟩, hne⟩
    have hrest : rest ≠ [] := by
      rintro rfl
      exact hne (List.append_nil ps).symm
    rw [oidText_append hp hrest]
    exact ⟨_, List.append_assoc _ _ _⟩

namespace Oid

/-- What begins with the text of an identifier is not foreign. -/
theorem not_prefix_of_foreign (o : Oid) {t : String} (ht : Foreign t) :
    ¬ o.text.toList <+: t.toList := by
  rintro ⟨rest, hrest⟩
  obtain ⟨c, hc, hhead⟩ := ht
  have hdigit : ∀ n < 3, (Nat.toDigits 10 n).head?.any (· ∉ ['3', '4', '5', '6']) = true := by
    decide
  have hroot := o.root
  obtain ⟨d, hd, hnot⟩ := (Option.any_eq_true _ _).mp (hdigit o.first (by omega))
  have hfirst : o.text.toList.head? = some d := (head_oidText _ _).trans hd
  obtain ⟨ds, hds⟩ := List.head?_eq_some_iff.mp hfirst
  rw [← hrest, hds, List.cons_append, List.head?_cons] at hhead
  exact of_decide_eq_true hnot (Option.some.inj hhead ▸ hc)

/-- The text of an identifier: two numbers, and what is behind the second. -/
theorem text_eq (o : Oid) : ∃ tail, o.text.toList =
    Nat.toDigits 10 o.first ++ '.' :: (Nat.toDigits 10 o.second ++ tail) ∧
      (tail = [] ∨ ∃ rest, tail = '.' :: rest) := by
  have hone (n : Nat) : (oidText [n]).toList = Nat.toDigits 10 n := by
    rw [toList_oidText, List.map_singleton, List.intercalate_singleton]
  have hparts : o.parts = [o.first] ++ o.second :: o.rest := rfl
  rw [text, hparts, oidText_append (List.cons_ne_nil _ _) (List.cons_ne_nil _ _), hone]
  by_cases hrest : o.rest = []
  · exact ⟨[], by rw [hrest, hone, List.append_nil], .inl rfl⟩
  · have hsecond : o.second :: o.rest = [o.second] ++ o.rest := rfl
    rw [hsecond, oidText_append (List.cons_ne_nil _ _) hrest, hone]
    exact ⟨_, rfl, .inr ⟨_, rfl⟩⟩

theorem text_ne (o : Oid) : o.text ≠ "" := by
  intro h
  obtain ⟨tail, htext, -⟩ := o.text_eq
  rw [h] at htext
  have hlen := congrArg List.length htext
  rw [List.length_append, List.length_cons] at hlen
  exact absurd hlen (by simp)

/-- A plain identifier does not begin with one that is not. -/
theorem not_prefix_of_plain {o y : Oid} (ho : ¬ o.Plain) (hy : y.Plain) :
    ¬ o.text.toList <+: y.text.toList := by
  rintro ⟨r, hr⟩
  obtain ⟨tail, ho', -⟩ := o.text_eq
  obtain ⟨tail', hy', htail'⟩ := y.text_eq
  have hsecond : y.second < 40 := hy
  have hlarge : 40 ≤ o.second := Nat.not_lt.mp ho
  have hne : Nat.toDigits 10 o.second ≠ Nat.toDigits 10 y.second := fun h =>
    absurd (toDigits_injective h) (by omega)
  rw [ho', hy', List.append_assoc, List.cons_append, List.append_assoc] at hr
  have hbehind := behind_dot hr
  have hpre : Nat.toDigits 10 o.second <+: Nat.toDigits 10 y.second ++ tail' :=
    ⟨_, hbehind⟩
  rcases List.prefix_or_prefix_of_prefix hpre (List.prefix_append _ tail') with ⟨e, he⟩ | ⟨e, he⟩
  · -- two digits at least, and two at most
    have hle : (Nat.toDigits 10 y.second).length ≤ 2 :=
      (Nat.length_toDigits_le_iff (by decide) (by decide)).mpr (by omega)
    have hge : ¬ (Nat.toDigits 10 o.second).length ≤ 1 := fun h =>
      absurd ((Nat.length_toDigits_le_iff (by decide) (by decide)).mp h) (by omega)
    have hlen := congrArg List.length he
    rw [List.length_append] at hlen
    have hnil : e = [] := List.length_eq_zero_iff.mp (by omega)
    rw [hnil, List.append_nil] at he
    exact hne he
  · rw [← he, List.append_assoc] at hbehind
    have htail := List.append_cancel_left hbehind
    cases e with
    | nil => exact hne (by rw [← he, List.append_nil])
    | cons c e =>
        rcases htail' with rfl | ⟨rest, rfl⟩
        · cases htail
        · have hc : c = '.' := (List.cons.inj htail).1
          rw [hc] at he
          exact not_dot (he ▸ List.mem_append_right _ List.mem_cons_self)

end Oid

end NetPulse.Infra
