import NetPulse.Infra.Ber
import NetPulse.Lib.Text

/-
# NetPulse.Infra.Values — the values in an SNMP message (`infra.py`)

`_oid_enc` and `_int_enc` write a value as bytes, `_oid_dec` and `_val_convert` read the bytes of a
response. `value_round_trip` says that the two sides agree on object identifiers and on numbers that
are not negative, wherever `_tlv` and `_tlv_parse` agree, which is below 128 bytes.

An arc of an identifier is a number in base 128 with a bit on every digit but the last. `arcs` reads
what `partLoop` wrote digit by digit, so the induction is on the number and not on the bytes
(`arcs_partLoop`). Numbers of more than 4300 digits have no `str`; the arcs of a short content stay
far below (`arcs_lt`).
-/

namespace NetPulse.Infra

open NetPulse.Lib (Bytes Text CodePoint fromBytes)
open NetPulse.Mesh (strip isBlank)

/-! ## §1 Decoding -/

/-- What reading a message can raise. -/
inductive PyError where
  | indexError
  | valueError
  | nameError
  deriving DecidableEq

/-- The digits that `str` writes at most. -/
def maxStrDigits : Nat := 4300

/-- `str(n)`; more digits raise `ValueError`. -/
def pyStr (n : Nat) : Except PyError String :=
  if (Nat.toDigits 10 n).length ≤ maxStrDigits then .ok (String.ofList (Nat.toDigits 10 n))
  else .error .valueError

/-- The rest of an arc that has come to `v`, and the arcs behind it. -/
def arcs (v : Nat) : Bytes → List Nat
  | [] => []
  | b :: bs =>
      let v := v <<< 7 ||| (b &&& 0x7F).toNat
      if b &&& 0x80 = 0 then v :: arcs 0 bs else arcs v bs

/-- `_oid_dec` -/
def oidDec : Bytes → Except PyError String
  | [] => .ok "?"
  | b0 :: bs => do
      let parts := (b0.toNat / 40) :: (b0.toNat % 40) :: arcs 0 bs
      return ".".intercalate (← parts.mapM pyStr)

/-- Behind the first byte of a longer UTF-8 sequence: how many bytes follow, and between which
bounds the first of these lies. -/
def utf8Follow (b : Nat) : Option (Nat × Nat × Nat) :=
  if 0xC2 ≤ b ∧ b ≤ 0xDF then some (1, 0x80, 0xBF)
  else if b = 0xE0 then some (2, 0xA0, 0xBF)
  else if b = 0xED then some (2, 0x80, 0x9F)
  else if 0xE1 ≤ b ∧ b ≤ 0xEF then some (2, 0x80, 0xBF)
  else if b = 0xF0 then some (3, 0x90, 0xBF)
  else if 0xF1 ≤ b ∧ b ≤ 0xF3 then some (3, 0x80, 0xBF)
  else if b = 0xF4 then some (3, 0x80, 0x8F)
  else none

/-- Read `k` bytes that follow, as far as they are what they have to be. -/
def utf8Tail : Nat → Nat → Nat → Nat → Bytes → Option Nat × Bytes
  | 0, _, _, v, bs => (some v, bs)
  | _ + 1, _, _, _, [] => (none, [])
  | k + 1, lo, hi, v, b :: bs =>
      if lo ≤ b.toNat ∧ b.toNat ≤ hi then utf8Tail k 0x80 0xBF (64 * v + b.toNat % 64) bs
      else (none, b :: bs)

theorem length_utf8Tail_le (k lo hi v : Nat) (bs : Bytes) :
    (utf8Tail k lo hi v bs).2.length ≤ bs.length := by
  fun_induction utf8Tail k lo hi v bs with
  | case1 => exact Nat.le_refl _
  | case2 => exact Nat.le_refl _
  | case3 k lo hi v b bs hb ih => exact Nat.le_succ_of_le ih
  | case4 => exact Nat.le_refl _

/-- `raw.decode("utf-8", "replace")`: one U+FFFD for each longest start of a sequence that does not
go on as it must. -/
def decodeReplace : Bytes → Text
  | [] => []
  | b :: bs =>
      if b.toNat < 0x80 then .scalar (Char.ofNat b.toNat) :: decodeReplace bs
      else match utf8Follow b.toNat with
        | none => .scalar (Char.ofNat 0xFFFD) :: decodeReplace bs
        | some (k, lo, hi) =>
            let tail := utf8Tail k lo hi (b.toNat % 2 ^ (6 - k)) bs
            .scalar (Char.ofNat (tail.1.getD 0xFFFD)) :: decodeReplace tail.2
termination_by bs => bs.length
decreasing_by
  · simp
  · simp
  · have hle := length_utf8Tail_le k lo hi (b.toNat % 2 ^ (6 - k)) bs
    simp only [List.length_cons]
    omega

/-- `raw.hex()` -/
def hex (raw : Bytes) : Text :=
  raw.flatMap fun b =>
    [.scalar (Nat.digitChar (b.toNat / 16)), .scalar (Nat.digitChar (b.toNat % 16))]

inductive SnmpValue where
  | str (s : Text)
  | int (v : Nat)
  deriving DecidableEq

/-- `_val_convert` -/
def valConvert (tag : UInt8) (raw : Bytes) : SnmpValue :=
  if tag = 0x04 ∨ tag = 0x16 then .str (decodeReplace raw).strip
  else if tag ∈ [0x02, 0x41, 0x43, 0x46, 0x47, 0x48] then
    .int (raw.foldl (fun v b => v <<< 8 ||| b.toNat) 0)
  else if tag = 0x05 then .str []
  else .str (hex raw)

-- a sequence that is cut short is one replacement, what lies behind it is read again
example : valConvert 0x04 [0x20, 0xE2, 0x82, 0x41, 0xC3, 0xA9, 0x20] =
    .str [.scalar (Char.ofNat 0xFFFD), .scalar 'A', .scalar (Char.ofNat 0xE9)] := by
  simp [valConvert, decodeReplace, utf8Follow, utf8Tail]
  decide

/-! ## §2 Numbers -/

theorem shift_or (v : Nat) (b : UInt8) : v <<< 8 ||| b.toNat = 256 * v + b.toNat := by
  rw [← Nat.shiftLeft_add_eq_or_of_lt (i := 8) b.toNat_lt v, Nat.shiftLeft_eq, Nat.mul_comm]

theorem valConvert_int (raw : Bytes) : valConvert 0x02 raw = .int (valueFrom 256 0 raw) := by
  have hfold : raw.foldl (fun v b => v <<< 8 ||| b.toNat) 0 = valueFrom 256 0 raw := by
    apply List.foldl_ext
    intro v b _
    exact shift_or v b
  show SnmpValue.int (raw.foldl (fun v b => v <<< 8 ||| b.toNat) 0) = _
  rw [hfold]

/-- The loop of `_int_enc` writes the digits of `v` in front. -/
theorem valueFrom_intLoop (v : Nat) (out : Bytes) :
    valueFrom 256 0 (intLoop v out) = valueFrom 256 v out := by
  induction v using Nat.strongRecOn generalizing out with
  | ind v ih =>
      have hdigit : (UInt8.ofNat (v &&& 0xFF)).toNat = v % 256 := by
        rw [show v &&& 0xFF = v % 256 from Nat.and_two_pow_sub_one_eq_mod v 8, UInt8.toNat_ofNat']
        omega
      have hhead (a : Nat) : valueFrom 256 a (UInt8.ofNat (v &&& 0xFF) :: out) =
          valueFrom 256 (256 * a + v % 256) out := by
        show valueFrom 256 (256 * a + (UInt8.ofNat (v &&& 0xFF)).toNat) out = _
        rw [hdigit]
      have hshift : v >>> 8 = v / 256 := Nat.shiftRight_eq_div_pow v 8
      rw [intLoop]
      by_cases hz : v >>> 8 = 0
      · rw [if_pos hz, hhead]
        congr 1
        omega
      · rw [if_neg hz, ih (v >>> 8) (by omega), hhead]
        congr 1
        omega

/-- **The bytes of `_int_enc` spell the number**, with the zero for the sign or without it. -/
theorem valueFrom_intBytes (v : Nat) : valueFrom 256 0 (intBytes v) = v := by
  have hloop : valueFrom 256 0 (intLoop v []) = v := valueFrom_intLoop v []
  unfold intBytes
  cases hout : intLoop v [] with
  | nil =>
      rw [hout] at hloop
      exact hloop
  | cons b rest =>
      rw [hout] at hloop
      show valueFrom 256 0 (if b &&& 0x80 ≠ 0 then 0 :: b :: rest else b :: rest) = v
      split
      · exact hloop
      · exact hloop

/-! ## §3 Arcs -/

theorem low_bits (b : UInt8) : (b &&& 0x7F).toNat = b.toNat % 128 := by
  rw [UInt8.toNat_and]
  exact Nat.and_two_pow_sub_one_eq_mod b.toNat 7

theorem arc_step (v : Nat) (b : UInt8) :
    v <<< 7 ||| (b &&& 0x7F).toNat = 128 * v + b.toNat % 128 := by
  have hlt : (b &&& 0x7F).toNat < 2 ^ 7 := by
    rw [low_bits]
    exact Nat.mod_lt _ (by decide)
  rw [← Nat.shiftLeft_add_eq_or_of_lt hlt v, Nat.shiftLeft_eq, Nat.mul_comm, low_bits]

/-- A digit of `_oid_enc` that another one follows, and the last one. -/
theorem digit_bits : ∀ d < 128,
    (UInt8.ofNat (d ||| 0x80) &&& 0x80 ≠ 0 ∧ (UInt8.ofNat (d ||| 0x80)).toNat % 128 = d) ∧
      (UInt8.ofNat (d ||| 0x80) &&& 0x7F) = UInt8.ofNat d ∧
      UInt8.ofNat d &&& 0x80 = 0 ∧ (UInt8.ofNat d).toNat % 128 = d := by
  decide +kernel

theorem arcs_more (v : Nat) {d : Nat} (hd : d < 128) (bs : Bytes) :
    arcs v (UInt8.ofNat (d ||| 0x80) :: bs) = arcs (128 * v + d) bs := by
  obtain ⟨⟨hbit, hval⟩, -⟩ := digit_bits d hd
  rw [arcs, if_neg hbit, arc_step, hval]

theorem arcs_last (v : Nat) {d : Nat} (hd : d < 128) (bs : Bytes) :
    arcs v (UInt8.ofNat d :: bs) = (128 * v + d) :: arcs 0 bs := by
  obtain ⟨-, -, hbit, hval⟩ := digit_bits d hd
  rw [arcs, if_pos hbit, arc_step, hval]

theorem partLoop_of_pos {p : Nat} (hp : 0 < p) (chunk : Bytes) :
    partLoop p chunk = partLoop (p / 128) (UInt8.ofNat (p % 128 ||| 0x80) :: chunk) := by
  rw [partLoop, if_neg (by omega), Nat.shiftRight_eq_div_pow]
  rw [show p &&& 0x7F = p % 128 from Nat.and_two_pow_sub_one_eq_mod p 7]

/-- What the loop has written is read back as the number it started from. -/
theorem arcs_partLoop (p : Nat) (chunk bs : Bytes) :
    arcs 0 (partLoop p chunk ++ bs) = arcs p (chunk ++ bs) := by
  induction p using Nat.strongRecOn generalizing chunk with
  | ind p ih =>
      by_cases hp : p = 0
      · subst hp
        rw [partLoop, if_pos rfl]
      · have hlast : p % 128 < 128 := Nat.mod_lt _ (by decide)
        rw [partLoop_of_pos (by omega), ih (p / 128) (by omega), List.cons_append,
          arcs_more _ hlast, Nat.div_add_mod]

theorem partLoop_append (p : Nat) (chunk : Bytes) : partLoop p chunk = partLoop p [] ++ chunk := by
  induction p using Nat.strongRecOn generalizing chunk with
  | ind p ih =>
      by_cases hp : p = 0
      · subst hp
        rw [partLoop, if_pos rfl, partLoop, if_pos rfl, List.nil_append]
      · have hpos : 0 < p := Nat.pos_of_ne_zero hp
        rw [partLoop_of_pos hpos chunk, partLoop_of_pos hpos [], ih (p / 128) (by omega),
          ih (p / 128) (by omega) [_], List.append_assoc, List.singleton_append]

/-- **One part of an OID** is read back as the arc it was written for. -/
theorem arcs_oidPart (p : Nat) :
    ∃ part, oidPart p = some part ∧ ∀ bs, arcs 0 (part ++ bs) = p :: arcs 0 bs := by
  unfold oidPart
  rw [if_neg (by omega)]
  by_cases hp : p < 128
  · refine ⟨[UInt8.ofNat p], if_pos (by omega), ?_⟩
    intro bs
    rw [List.singleton_append, arcs_last 0 hp, Nat.mul_zero, Nat.zero_add]
  · have hlast : p % 128 < 128 := Nat.mod_lt _ (by decide)
    have hchunk : partLoop p [] = partLoop (p / 128) [] ++ [UInt8.ofNat (p % 128 ||| 0x80)] := by
      rw [partLoop_of_pos (by omega), partLoop_append]
    refine ⟨partLoop (p / 128) [] ++ [UInt8.ofNat (p % 128)], ?_, ?_⟩
    · rw [if_neg (by omega), Int.toNat_natCast, hchunk]
      show some (List.dropLast _ ++ [(List.getLast? _).getD 0 &&& 0x7F]) = _
      rw [List.dropLast_concat, List.getLast?_concat, Option.getD_some, (digit_bits _ hlast).2.1]
    · intro bs
      rw [List.append_assoc, arcs_partLoop, List.singleton_append, List.nil_append,
        arcs_last _ hlast, Nat.div_add_mod]

theorem arcs_oidParts (ps : List Nat) :
    ∃ parts, (ps.map Int.ofNat).mapM oidPart = some parts ∧ arcs 0 parts.flatten = ps := by
  induction ps with
  | nil => exact ⟨[], rfl, rfl⟩
  | cons p ps ih =>
      obtain ⟨part, hpart, hread⟩ := arcs_oidPart p
      obtain ⟨parts, hparts, hrest⟩ := ih
      refine ⟨part :: parts, ?_, ?_⟩
      · rw [List.map_cons, List.mapM_cons, Int.ofNat_eq_natCast, hpart, hparts]
        rfl
      · rw [List.flatten_cons, hread, hrest]

/-- An arc of a content with `k` bytes is below `128 ^ k`. -/
theorem arcs_lt {v a : Nat} {bs : Bytes} (h : a ∈ arcs v bs) : a < (v + 1) * 128 ^ bs.length := by
  induction bs generalizing v with
  | nil => exact absurd h List.not_mem_nil
  | cons b bs ih =>
      have hpos : 0 < 128 ^ bs.length := Nat.pow_pos (by decide)
      have hstep : 128 * v + b.toNat % 128 + 1 ≤ (v + 1) * 128 := by omega
      have hle : (128 * v + b.toNat % 128 + 1) * 128 ^ bs.length ≤
          (v + 1) * 128 ^ (b :: bs).length := by
        rw [List.length_cons, Nat.pow_succ, Nat.mul_comm (128 ^ bs.length), ← Nat.mul_assoc]
        exact Nat.mul_le_mul_right _ hstep
      rw [arcs, arc_step] at h
      split at h
      · rcases List.mem_cons.mp h with rfl | h
        · calc 128 * v + b.toNat % 128
              < (128 * v + b.toNat % 128 + 1) * 1 := by omega
            _ ≤ (128 * v + b.toNat % 128 + 1) * 128 ^ bs.length := Nat.mul_le_mul_left _ hpos
            _ ≤ _ := hle
        · -- the next arc starts from nothing
          calc a < (0 + 1) * 128 ^ bs.length := ih h
            _ ≤ (128 * v + b.toNat % 128 + 1) * 128 ^ bs.length :=
                Nat.mul_le_mul_right _ (by omega)
            _ ≤ _ := hle
      · exact Nat.lt_of_lt_of_le (ih h) hle

/-! ## §4 Texts -/

/-- The text of an object identifier. -/
def oidText (parts : List Nat) : String := ".".intercalate (parts.map toString)

theorem not_blank_of_isDigit {c : Char} (h : c.isDigit = true) : isBlank c = false := by
  have hlow : 48 ≤ c.toNat := by
    simp only [Char.isDigit, Bool.and_eq_true, decide_eq_true_eq] at h
    exact UInt32.le_iff_toNat_le.mp h.1
  unfold isBlank
  rw [Bool.or_eq_false_iff]
  constructor
  · exact decide_eq_false (by omega)
  · exact decide_eq_false (by omega)

theorem strip_of_not_blank {l : List Char} (h : ∀ c ∈ l, isBlank c = false) : strip l = l := by
  have hfront (l : List Char) (h : ∀ c ∈ l, isBlank c = false) : l.dropWhile isBlank = l := by
    cases l with
    | nil => rfl
    | cons c rest => rw [List.dropWhile_cons, h c List.mem_cons_self, if_neg Bool.false_ne_true]
  unfold strip List.rdropWhile
  rw [hfront l h, hfront l.reverse fun c hc => h c (List.mem_reverse.mp hc), List.reverse_reverse]

theorem mem_intercalate {c sep : Char} {ls : List (List Char)} (h : c ∈ [sep].intercalate ls) :
    c = sep ∨ ∃ l ∈ ls, c ∈ l := by
  induction ls with
  | nil => exact absurd h List.not_mem_nil
  | cons l rest ih =>
      cases rest with
      | nil =>
          rw [List.intercalate_singleton] at h
          exact .inr ⟨l, List.mem_cons_self, h⟩
      | cons l' rest =>
          rw [List.intercalate_cons_cons, List.append_assoc] at h
          rcases List.mem_append.mp h with hl | h
          · exact .inr ⟨l, List.mem_cons_self, hl⟩
          · rcases List.mem_append.mp h with hsep | h
            · exact .inl (List.mem_singleton.mp hsep)
            · exact (ih h).imp_right fun ⟨k, hk, hc⟩ => ⟨k, List.mem_cons_of_mem _ hk, hc⟩

theorem isDigit_of_mem {n : Nat} {c : Char} (h : c ∈ Nat.toDigits 10 n) : c.isDigit = true :=
  Nat.isDigit_of_mem_toDigits (by decide) (by decide) h

theorem pyDigits_toDigits (n : Nat) : pyDigits (Nat.toDigits 10 n) = some n := by
  have hsplit : (Nat.toDigits 10 n).splitOn '_' = [Nat.toDigits 10 n] :=
    List.splitOn_eq_singleton Nat.underscore_not_in_toDigits
  have hall : ([Nat.toDigits 10 n].all fun part => part ≠ [] ∧ part.all Char.isDigit) = true := by
    simp only [List.all_cons, List.all_nil, Bool.and_true, decide_eq_true_eq]
    exact ⟨Nat.toDigits_ne_nil, List.all_eq_true.mpr fun c hc => isDigit_of_mem hc⟩
  have hfold : (Nat.toDigits 10 n).foldl
      (fun n c => if c = '_' then n else 10 * n + (c.toNat - '0'.toNat)) 0 = n := by
    rw [List.foldl_ext _ (fun n c => 10 * n + (c.toNat - '0'.toNat))]
    · rw [← Nat.ofDigitChars_eq_foldl, Nat.ofDigitChars_ten_toDigits]
    · intro k c hc
      have hne : c ≠ '_' := fun heq => Nat.underscore_not_in_toDigits (heq ▸ hc)
      rw [if_neg hne]
  unfold pyDigits
  rw [hsplit, if_pos hall, hfold]

/-- **`int` of a number's text** is the number. -/
theorem pyInt_toDigits (n : Nat) : pyInt (Nat.toDigits 10 n) = some (n : Int) := by
  unfold pyInt
  rw [strip_of_not_blank fun c hc => not_blank_of_isDigit (isDigit_of_mem hc)]
  split
  · rename_i ds heq
    have hsign : '-' ∈ Nat.toDigits 10 n := heq ▸ List.mem_cons_self
    exact absurd (isDigit_of_mem hsign) (by decide)
  · rename_i ds heq
    have hsign : '+' ∈ Nat.toDigits 10 n := heq ▸ List.mem_cons_self
    exact absurd (isDigit_of_mem hsign) (by decide)
  · rw [pyDigits_toDigits]
    rfl

theorem mapM_pyInt (parts : List Nat) :
    (parts.map (Nat.toDigits 10)).mapM pyInt = some (parts.map Int.ofNat) := by
  induction parts with
  | nil => rfl
  | cons p parts ih =>
      rw [List.map_cons, List.mapM_cons, pyInt_toDigits, ih]
      rfl

theorem toList_oidText (parts : List Nat) :
    (oidText parts).toList = ['.'].intercalate (parts.map (Nat.toDigits 10)) := by
  unfold oidText
  rw [String.toList_intercalate, List.map_map]
  congr 1
  apply List.map_congr_left
  intro n _
  exact Nat.toList_repr

/-- The parts of an identifier's text, as `_oid_enc` reads them. -/
theorem read_oidText {parts : List Nat} (h : parts ≠ []) :
    ((strip (oidText parts).toList).splitOn '.').mapM pyInt = some (parts.map Int.ofNat) := by
  have hnot_dot : ∀ l ∈ parts.map (Nat.toDigits 10), '.' ∉ l := by
    intro l hl hdot
    obtain ⟨n, -, rfl⟩ := List.mem_map.mp hl
    exact absurd (isDigit_of_mem hdot) (by decide)
  have hblank : ∀ c ∈ (oidText parts).toList, isBlank c = false := by
    intro c hc
    rw [toList_oidText] at hc
    rcases mem_intercalate hc with rfl | ⟨l, hl, hcl⟩
    · decide
    · obtain ⟨n, -, rfl⟩ := List.mem_map.mp hl
      exact not_blank_of_isDigit (isDigit_of_mem hcl)
  rw [strip_of_not_blank hblank, toList_oidText, List.splitOn_intercalate '.' hnot_dot, mapM_pyInt]
  intro hnil
  exact h (List.map_eq_nil_iff.mp hnil)

/-! ## §5 The round trip -/

/-- `str` writes what has few enough digits. -/
theorem pyStr_of_lt {n : Nat} (h : n < 10 ^ maxStrDigits) : pyStr n = .ok (toString n) := by
  have hlen : (Nat.toDigits 10 n).length ≤ maxStrDigits :=
    (Nat.length_toDigits_le_iff (by decide) (by decide)).mpr h
  unfold pyStr
  rw [if_pos hlen]
  exact congrArg Except.ok Nat.toString_eq_ofList_toDigits.symm

theorem mapM_pyStr {parts : List Nat} (h : ∀ p ∈ parts, p < 10 ^ maxStrDigits) :
    parts.mapM pyStr = .ok (parts.map toString) := by
  induction parts with
  | nil => rfl
  | cons p parts ih =>
      rw [List.mapM_cons, pyStr_of_lt (h p List.mem_cons_self),
        ih fun q hq => h q (List.mem_cons_of_mem _ hq)]
      rfl

/-- What `_oid_enc` makes of an identifier: one byte for the first two arcs, the parts of the
others behind it. -/
theorem oidBytes_oidText {a b : Nat} (ha : a ≤ 2) (hb : b < 40) (rest : List Nat) :
    ∃ bs, oidBytes (oidText (a :: b :: rest)) = some (UInt8.ofNat (40 * a + b) :: bs) ∧
      arcs 0 bs = rest := by
  obtain ⟨parts, hparts, hread⟩ := arcs_oidParts rest
  have hfits : 40 * a + b < 256 := by omega
  refine ⟨parts.flatten, ?_, hread⟩
  unfold oidBytes
  rw [read_oidText (List.cons_ne_nil _ _)]
  simp only [List.map_cons, Option.bind_eq_bind, Option.bind_some, Int.ofNat_eq_natCast] at hparts ⊢
  rw [if_pos (by omega), show ((40 : Int) * a + b).toNat = 40 * a + b by omega, byte,
    if_pos hfits, Option.bind_some, hparts]
  rfl

theorem short_fits {k : Nat} (hk : k < 0x80) : 128 ^ k ≤ 10 ^ maxStrDigits := by
  calc 128 ^ k
      ≤ (10 ^ 3) ^ k := Nat.pow_le_pow_left (by decide) k
    _ = 10 ^ (3 * k) := (Nat.pow_mul 10 3 k).symm
    _ ≤ 10 ^ maxStrDigits := Nat.pow_le_pow_right (by decide) (by unfold maxStrDigits; omega)

/-- A short content is read back as the identifier. -/
theorem oidDec_short {a b : Nat} (ha : a ≤ 2) (hb : b < 40) {bs : Bytes}
    (hlen : (UInt8.ofNat (40 * a + b) :: bs).length < 0x80) :
    oidDec (UInt8.ofNat (40 * a + b) :: bs) = .ok (oidText (a :: b :: arcs 0 bs)) := by
  have hhead : (UInt8.ofNat (40 * a + b)).toNat = 40 * a + b := by
    rw [UInt8.toNat_ofNat']
    omega
  have hdiv : (40 * a + b) / 40 = a := by omega
  have hmod : (40 * a + b) % 40 = b := by omega
  have hbase : (128 : Nat) ≤ 10 ^ maxStrDigits := short_fits (k := 1) (by decide)
  have hparts : ∀ p ∈ a :: b :: arcs 0 bs, p < 10 ^ maxStrDigits := by
    intro p hp
    rcases List.mem_cons.mp hp with rfl | hp
    · omega
    rcases List.mem_cons.mp hp with rfl | hp
    · omega
    calc p < (0 + 1) * 128 ^ bs.length := arcs_lt hp
      _ = 128 ^ bs.length := by rw [Nat.zero_add, Nat.one_mul]
      _ ≤ 10 ^ maxStrDigits := short_fits (by rw [List.length_cons] at hlen; omega)
  unfold oidDec
  simp only [hhead, hdiv, hmod, mapM_pyStr hparts]
  rfl

/-- A short content comes out of `_tlv` and `_tlv_parse` as it went in. -/
theorem tlvParse_tlv (tag : UInt8) {content : Bytes} (h : content.length < 0x80) :
    ∃ t, tlv tag content = some t ∧ tlvParse t 0 = some (tag, content, t.length) := by
  refine ⟨_, tlv_short tag h, ?_⟩
  have hparse := tlvParse_short [] [] tag h
  rw [List.nil_append, List.append_nil, List.length_nil] at hparse
  rw [hparse, List.length_cons, List.length_cons]
  congr 3
  omega

/-- **Values round trip.** An identifier with its first two arcs in range has a content, and behind
`_oid_enc`, `_tlv_parse` and `_oid_dec` it is what it was; a number is what it was behind `_int_enc`,
`_tlv_parse` and `_val_convert`. The contents are to be shorter than 128 bytes. -/
theorem value_round_trip {a b : Nat} (ha : a ≤ 2) (hb : b < 40) (rest : List Nat) (v : Nat) :
    (∃ content, oidBytes (oidText (a :: b :: rest)) = some content ∧
      (content.length < 0x80 → ∃ t, oidEnc (oidText (a :: b :: rest)) = some t ∧
        tlvParse t 0 = some (0x06, content, t.length) ∧
        oidDec content = .ok (oidText (a :: b :: rest)))) ∧
      ((intBytes v).length < 0x80 → ∃ t, intEnc v = some t ∧
        tlvParse t 0 = some (0x02, intBytes v, t.length) ∧
        valConvert 0x02 (intBytes v) = .int v) := by
  constructor
  · obtain ⟨bs, hbytes, hread⟩ := oidBytes_oidText ha hb rest
    refine ⟨_, hbytes, ?_⟩
    intro hshort
    obtain ⟨t, ht, hparse⟩ := tlvParse_tlv 0x06 hshort
    refine ⟨t, ?_, hparse, ?_⟩
    · unfold oidEnc
      rw [hbytes, Option.bind_some, ht]
    · rw [oidDec_short ha hb hshort, hread]
  · intro hshort
    obtain ⟨t, ht, hparse⟩ := tlvParse_tlv 0x02 hshort
    refine ⟨t, ht, hparse, ?_⟩
    rw [valConvert_int, valueFrom_intBytes]

/-- At `1.3.6.1.4.1.2021`, whose last arc has two digits, and at a number whose first byte has the
sign bit. -/
theorem value_round_trip_2021 :
    (1 ≤ 2 ∧ 3 < 40) ∧
      (∃ content, oidBytes (oidText [1, 3, 6, 1, 4, 1, 2021]) = some content ∧
        (content.length < 0x80 → ∃ t, oidEnc (oidText [1, 3, 6, 1, 4, 1, 2021]) = some t ∧
          tlvParse t 0 = some (0x06, content, t.length) ∧
          oidDec content = .ok (oidText [1, 3, 6, 1, 4, 1, 2021]))) ∧
      ((intBytes 200).length < 0x80 → ∃ t, intEnc 200 = some t ∧
        tlvParse t 0 = some (0x02, intBytes 200, t.length) ∧
        valConvert 0x02 (intBytes 200) = .int 200) :=
  ⟨⟨by decide, by decide⟩,
    value_round_trip (a := 1) (b := 3) (by decide) (by decide) [6, 1, 4, 1, 2021] 200⟩

end NetPulse.Infra
