import NetPulse.Lib.BigEndian
import NetPulse.Mesh.Canon

/-
# NetPulse.Infra.Ber — BER by hand for SNMP (`infra.py`)

An SNMP request is a tree of TLVs: a tag, the length of the content, the content. `tlv` writes one,
`tlvParse` reads one, and the two were written apart. They agree on the short form of the length. The
long form is a count of bytes and then the length in base 256; `len` writes it in base 128, so what
`tlvParse` reads is too large.

`tlv_round_trip_iff` says that this is all: contents shorter than 128 bytes round trip, no others do,
and a request is a well-formed tree exactly when its outermost content is that short.
-/

namespace NetPulse.Infra

open NetPulse.Lib (Bytes fromBytes)
open NetPulse.Mesh (strip)

/-! ## §1 Encoding -/

/-- `bytes([n])`; `none` is the `ValueError` for more than a byte. -/
def byte (n : Nat) : Option UInt8 := if n < 256 then some (UInt8.ofNat n) else none

/-- The loop of `_len`: seven bits a byte. -/
def lenLoop (n : Nat) (out : Bytes) : Bytes :=
  if n = 0 then out else lenLoop (n >>> 7) (UInt8.ofNat (n &&& 0x7F) :: out)
termination_by n
decreasing_by
  rw [Nat.shiftRight_eq_div_pow]
  exact Nat.div_lt_self (by omega) (by decide)

def len (n : Nat) : Option Bytes :=
  if n < 0x80 then some [UInt8.ofNat n]
  else
    let out := lenLoop n []
    (byte (0x80 ||| out.length)).map fun head => head :: out

def tlv (tag : UInt8) (content : Bytes) : Option Bytes :=
  (len content.length).map fun l => tag :: l ++ content

/-- The loop of `_int_enc`. -/
def intLoop (v : Nat) (out : Bytes) : Bytes :=
  let out := UInt8.ofNat (v &&& 0xFF) :: out
  if v >>> 8 = 0 then out else intLoop (v >>> 8) out
termination_by v
decreasing_by
  rename_i h
  rw [Nat.shiftRight_eq_div_pow] at h ⊢
  exact Nat.div_lt_self (by omega) (by decide)

/-- The content of `_int_enc`, for a number that is not negative. -/
def intBytes (v : Nat) : Bytes :=
  let out := intLoop v []
  match out with
  | b :: _ => if b &&& 0x80 ≠ 0 then 0 :: out else out
  | [] => out

def intEnc (v : Nat) : Option Bytes := tlv 0x02 (intBytes v)

/-- The digits of `int(x)`, with single underscores between them. -/
def pyDigits (ds : List Char) : Option Nat :=
  if (ds.splitOn '_').all fun part => part ≠ [] ∧ part.all Char.isDigit then
    some (ds.foldl (fun n c => if c = '_' then n else 10 * n + (c.toNat - '0'.toNat)) 0)
  else none

/-- `int(x)` on ASCII text. -/
def pyInt (x : List Char) : Option Int :=
  match strip x with
  | '-' :: ds => (pyDigits ds).map fun n => -(n : Int)
  | '+' :: ds => (pyDigits ds).map fun n => (n : Int)
  | ds => (pyDigits ds).map fun n => (n : Int)

/-- The loop for a part of seven bits and more. -/
def partLoop (p : Nat) (chunk : Bytes) : Bytes :=
  if p = 0 then chunk else partLoop (p >>> 7) (UInt8.ofNat ((p &&& 0x7F) ||| 0x80) :: chunk)
termination_by p
decreasing_by
  rw [Nat.shiftRight_eq_div_pow]
  exact Nat.div_lt_self (by omega) (by decide)

/-- What one part of an OID adds; a negative one raises. -/
def oidPart (p : Int) : Option Bytes :=
  if p < 0 then none
  else if p < 0x80 then some [UInt8.ofNat p.toNat]
  else
    let chunk := partLoop p.toNat []
    some (chunk.dropLast ++ [chunk.getLast?.getD 0 &&& 0x7F])

/-- The content of `_oid_enc`. -/
def oidBytes (oid : String) : Option Bytes := do
  match ← ((strip oid.toList).splitOn '.').mapM pyInt with
  | p0 :: p1 :: rest =>
      let first := 40 * p0 + p1
      let head ← if 0 ≤ first then byte first.toNat else none
      return head :: (← rest.mapM oidPart).flatten
  | _ => none

def oidEnc (oid : String) : Option Bytes := (oidBytes oid).bind (tlv 0x06)

def octet (s : String) : Option Bytes := tlv 0x04 s.toUTF8.toList

/-! ## §2 Parsing -/

/-- `buf[a:b]` -/
def slice (buf : Bytes) (a b : Nat) : Bytes := (buf.take b).drop a

def tlvParse (buf : Bytes) (pos : Nat) : Option (UInt8 × Bytes × Nat) := do
  let tag ← buf[pos]?
  let ln ← buf[pos + 1]?
  if ln &&& 0x80 ≠ 0 then
    let n := (ln &&& 0x7F).toNat
    let ln := fromBytes (slice buf (pos + 2) (pos + 2 + n))
    let hlen := 2 + n
    return (tag, slice buf (pos + hlen) (pos + hlen + ln), pos + hlen + ln)
  else
    return (tag, slice buf (pos + 2) (pos + 2 + ln.toNat), pos + 2 + ln.toNat)

/-! ## §3 The request of `snmp_get` -/

/-- The keys of `OIDS`. -/
def OIDS : List String :=
  ["1.3.6.1.2.1.1.1.0", "1.3.6.1.2.1.1.2.0", "1.3.6.1.2.1.1.3.0", "1.3.6.1.2.1.1.4.0",
    "1.3.6.1.2.1.1.5.0", "1.3.6.1.2.1.1.6.0", "1.3.6.1.2.1.2.1.0"]

def snmpRequest (oids : List String) (community : String) (reqId : Nat) : Option Bytes := do
  let varbinds ← oids.mapM fun oid => do tlv 0x30 ((← oidEnc oid) ++ (← tlv 0x05 []))
  let pdu ← tlv 0xA0
    ((← intEnc reqId) ++ (← intEnc 0) ++ (← intEnc 0) ++ (← tlv 0x30 varbinds.flatten))
  tlv 0x30 ((← intEnc 1) ++ (← octet community) ++ pdu)

/-! ## §4 Well-formed messages -/

/-- A message as a tree: a TLV with bytes, or a TLV made of TLVs. -/
inductive Ber where
  | prim (tag : UInt8) (content : Bytes)
  | cons (tag : UInt8) (parts : List Ber)

mutual

/-- The message lies in the buffer between two positions: its length covers exactly its content, and
its parts lie in the content one behind the other, without a gap or a rest. -/
def Ber.Lies (buf : Bytes) : Ber → Nat → Nat → Prop
  | .prim tag content, pos, fin => tlvParse buf pos = some (tag, content, fin)
  | .cons tag parts, pos, fin =>
      ∃ content, tlvParse buf pos = some (tag, content, fin) ∧
        Ber.AllLie content parts 0 content.length

def Ber.AllLie (buf : Bytes) : List Ber → Nat → Nat → Prop
  | [], pos, fin => pos = fin
  | b :: rest, pos, fin => ∃ mid, Ber.Lies buf b pos mid ∧ Ber.AllLie buf rest mid fin

end

mutual

/-- The message as `tlv` writes it. -/
def Ber.encode : Ber → Option Bytes
  | .prim tag content => tlv tag content
  | .cons tag parts => (Ber.encodeAll parts).bind (tlv tag)

def Ber.encodeAll : List Ber → Option Bytes
  | [] => some []
  | b :: rest => do return (← Ber.encode b) ++ (← Ber.encodeAll rest)

end

mutual

/-- The number of bytes of the message, with the length of each TLV in one byte. -/
def Ber.size : Ber → Nat
  | .prim _ content => 2 + content.length
  | .cons _ parts => 2 + Ber.sizes parts

def Ber.sizes : List Ber → Nat
  | [] => 0
  | b :: rest => Ber.size b + Ber.sizes rest

end

/-- What an SNMP request is to be. -/
def requestTree (oids : List Bytes) (community : String) (reqId : Nat) : Ber :=
  .cons 0x30
    [.prim 0x02 (intBytes 1), .prim 0x04 community.toUTF8.toList,
      .cons 0xA0
        [.prim 0x02 (intBytes reqId), .prim 0x02 (intBytes 0), .prim 0x02 (intBytes 0),
          .cons 0x30 (oids.map fun oid => .cons 0x30 [.prim 0x06 oid, .prim 0x05 []])]]

/-- The bytes are a well-formed request. -/
def IsRequest (oids : List String) (community : String) (reqId : Nat) (m : Bytes) : Prop :=
  ∃ contents, oids.mapM oidBytes = some contents ∧
    (requestTree contents community reqId).Lies m 0 m.length

/-! ## §5 Numbers in two bases -/

/-- The value of a string of digits, most significant first. -/
def valueFrom (base a : Nat) (bs : Bytes) : Nat := bs.foldl (fun n b => base * n + b.toNat) a

theorem valueFrom_mono {b b' a a' : Nat} (hb : b ≤ b') (ha : a ≤ a') (bs : Bytes) :
    valueFrom b a bs ≤ valueFrom b' a' bs := by
  induction bs generalizing a a' with
  | nil => exact ha
  | cons d ds ih =>
      apply ih
      exact Nat.add_le_add_right (Nat.mul_le_mul hb ha) _

theorem valueFrom_strict {b a a' : Nat} (hb : 0 < b) (ha : a < a') (bs : Bytes) :
    valueFrom b a bs < valueFrom b a' bs := by
  induction bs generalizing a a' with
  | nil => exact ha
  | cons d ds ih =>
      apply ih
      exact Nat.add_lt_add_right (Nat.mul_lt_mul_of_pos_left ha hb) _

/-- Behind a digit that is not zero, the greater base makes the greater number. -/
theorem valueFrom_lt {b b' a : Nat} (hb : b < b') (ha : 0 < a) {bs : Bytes} (hbs : bs ≠ []) :
    valueFrom b a bs < valueFrom b' a bs := by
  cases bs with
  | nil => exact absurd rfl hbs
  | cons d ds =>
      have hstep : b * a + d.toNat < b' * a + d.toNat :=
        Nat.add_lt_add_right (Nat.mul_lt_mul_of_pos_right hb ha) _
      calc valueFrom b (b * a + d.toNat) ds
          ≤ valueFrom b' (b * a + d.toNat) ds := valueFrom_mono hb.le (Nat.le_refl _) ds
        _ < valueFrom b' (b' * a + d.toNat) ds := valueFrom_strict (by omega) hstep ds

theorem valueFrom_lt_pow (a : Nat) (bs : Bytes) :
    valueFrom 256 a bs < 256 ^ bs.length * (a + 1) := by
  induction bs generalizing a with
  | nil =>
      show a < 256 ^ 0 * (a + 1)
      omega
  | cons d ds ih =>
      have hd : d.toNat < 256 := d.toNat_lt
      calc valueFrom 256 (256 * a + d.toNat) ds
          < 256 ^ ds.length * (256 * a + d.toNat + 1) := ih _
        _ ≤ 256 ^ ds.length * (256 * (a + 1)) := Nat.mul_le_mul_left _ (by omega)
        _ = 256 ^ (d :: ds).length * (a + 1) := by
            rw [List.length_cons, Nat.pow_succ, Nat.mul_assoc]

/-! ## §6 The length bytes -/

theorem lenLoop_zero (out : Bytes) : lenLoop 0 out = out := by
  rw [lenLoop, if_pos rfl]

theorem lenLoop_of_pos {n : Nat} (hn : 0 < n) (out : Bytes) :
    lenLoop n out = lenLoop (n / 128) (UInt8.ofNat (n % 128) :: out) := by
  rw [lenLoop, if_neg (by omega), Nat.shiftRight_eq_div_pow]
  have hand : n &&& 0x7F = n % 128 := Nat.and_two_pow_sub_one_eq_mod n 7
  rw [hand]

theorem toNat_ofNat_mod (n : Nat) : (UInt8.ofNat (n % 128)).toNat = n % 128 := by
  rw [UInt8.toNat_ofNat']
  omega

/-- Read in base 256, the digits say more than the length. -/
theorem lt_value_lenLoop {n : Nat} (hn : 0 < n) {out : Bytes} (hout : out ≠ []) :
    valueFrom 128 n out < valueFrom 256 0 (lenLoop n out) := by
  induction n using Nat.strongRecOn generalizing out with
  | ind n ih =>
      rw [lenLoop_of_pos hn]
      have hdigit : valueFrom 128 (n / 128) (UInt8.ofNat (n % 128) :: out) = valueFrom 128 n out := by
        show valueFrom 128 (128 * (n / 128) + (UInt8.ofNat (n % 128)).toNat) out = _
        rw [toNat_ofNat_mod, Nat.div_add_mod]
      by_cases hsmall : n < 128
      · -- the first digit, and at least one behind it
        have hdiv : n / 128 = 0 := by omega
        rw [hdiv, lenLoop_zero]
        show valueFrom 128 n out < valueFrom 256 (256 * 0 + (UInt8.ofNat (n % 128)).toNat) out
        rw [toNat_ofNat_mod, Nat.mul_zero, Nat.zero_add, Nat.mod_eq_of_lt hsmall]
        exact valueFrom_lt (by decide) hn hout
      · rw [← hdigit]
        exact ih (n / 128) (by omega) (by omega) (List.cons_ne_nil _ _)

/-- As many digits as the size of the length asks for. -/
theorem length_lenLoop {n : Nat} (hn : 0 < n) (out : Bytes) :
    ∃ k, (lenLoop n out).length = k + 1 + out.length ∧ 128 ^ k ≤ n := by
  induction n using Nat.strongRecOn generalizing out with
  | ind n ih =>
      rw [lenLoop_of_pos hn]
      by_cases hsmall : n < 128
      · have hdiv : n / 128 = 0 := by omega
        rw [hdiv, lenLoop_zero]
        exact ⟨0, by simp [Nat.add_comm], hn⟩
      · obtain ⟨k, hlen, hk⟩ := ih (n / 128) (by omega) (by omega) (UInt8.ofNat (n % 128) :: out)
        refine ⟨k + 1, ?_, ?_⟩
        · rw [hlen, List.length_cons]
          omega
        · rw [Nat.pow_succ]
          omega

theorem short_head : ∀ n < 128, UInt8.ofNat n &&& 0x80 = 0 ∧ (UInt8.ofNat n).toNat = n := by
  decide +kernel

theorem long_head : ∀ k < 256,
    UInt8.ofNat (0x80 ||| k) &&& 0x80 ≠ 0 ∧
      (UInt8.ofNat (0x80 ||| k) &&& 0x7F).toNat = k % 128 := by
  decide +kernel

theorem tlv_short (tag : UInt8) {content : Bytes} (h : content.length < 0x80) :
    tlv tag content = some (tag :: UInt8.ofNat content.length :: content) := by
  simp [tlv, len, h]

/-- The long form, when the count of its digits fits in a byte. -/
theorem tlv_long {tag : UInt8} {content t : Bytes} (h : 0x80 ≤ content.length)
    (ht : tlv tag content = some t) :
    ∃ digits, digits = lenLoop content.length [] ∧ digits.length < 256 ∧
      t = tag :: UInt8.ofNat (0x80 ||| digits.length) :: (digits ++ content) := by
  obtain ⟨l, hl, rfl⟩ := Option.map_eq_some_iff.mp ht
  unfold len at hl
  rw [if_neg (by omega)] at hl
  obtain ⟨head, hhead, rfl⟩ := Option.map_eq_some_iff.mp hl
  unfold byte at hhead
  split at hhead
  · rename_i hfits
    cases hhead
    have hk : (lenLoop content.length []).length ≤ 0x80 ||| (lenLoop content.length []).length :=
      Nat.right_le_or
    exact ⟨_, rfl, by omega, rfl⟩
  · cases hhead

theorem two_add_le_tlv {tag : UInt8} {content t : Bytes} (ht : tlv tag content = some t) :
    2 + content.length ≤ t.length := by
  by_cases h : content.length < 0x80
  · rw [tlv_short tag h] at ht
    cases ht
    simp only [List.length_cons]
    omega
  · obtain ⟨digits, _, _, rfl⟩ := tlv_long (by omega) ht
    simp only [List.length_cons, List.length_append]
    omega

/-! ## §7 What the parser reads -/

theorem slice_append (pre bs post : Bytes) :
    slice (pre ++ bs ++ post) pre.length (pre.length + bs.length) = bs := by
  unfold slice
  rw [← List.length_append, List.take_left, List.drop_left]

/-- **Short contents round trip**, anywhere in a buffer. -/
theorem tlvParse_short (pre post : Bytes) (tag : UInt8) {content : Bytes}
    (h : content.length < 0x80) :
    tlvParse (pre ++ (tag :: UInt8.ofNat content.length :: content) ++ post) pre.length =
      some (tag, content, pre.length + 2 + content.length) := by
  obtain ⟨hbit, hnat⟩ := short_head content.length h
  have hslice := slice_append (pre ++ [tag, UInt8.ofNat content.length]) content post
  simp only [List.append_assoc, List.cons_append, List.nil_append, List.length_append,
    List.length_cons, List.length_nil] at hslice
  simp only [tlvParse, List.append_assoc, List.cons_append]
  simp [hbit, hnat, hslice]

/-- The length the parser makes of the digits is never the one they were written for. -/
theorem misread_length {n k : Nat} (hn : 0x80 ≤ n) (hk : (lenLoop n []).length = k)
    (hfits : k < 256) : k % 128 + fromBytes ((lenLoop n []).take (k % 128)) ≠ k + n := by
  by_cases hsmall : k < 128
  · -- all digits are read, and base 256 makes more of them
    have hval : valueFrom 128 (n / 128) [UInt8.ofNat (n % 128)] <
        valueFrom 256 0 (lenLoop (n / 128) [UInt8.ofNat (n % 128)]) :=
      lt_value_lenLoop (by omega) (List.cons_ne_nil _ _)
    have hdigit : valueFrom 128 (n / 128) [UInt8.ofNat (n % 128)] = n := by
      show 128 * (n / 128) + (UInt8.ofNat (n % 128)).toNat = n
      rw [toNat_ofNat_mod, Nat.div_add_mod]
    rw [hdigit, ← lenLoop_of_pos (by omega)] at hval
    rw [Nat.mod_eq_of_lt hsmall, List.take_of_length_le (Nat.le_of_eq hk)]
    show k + valueFrom 256 0 (lenLoop n []) ≠ k + n
    omega
  · -- the count has lost its top bit: too few digits are read
    obtain ⟨j, hj, hpow⟩ := length_lenLoop (by omega : 0 < n) []
    rw [hk, List.length_nil, Nat.add_zero] at hj
    have hmod : k % 128 = k - 128 := by omega
    have hval : valueFrom 256 0 ((lenLoop n []).take (k - 128)) < 256 ^ (k - 128) := by
      have hlt := valueFrom_lt_pow 0 ((lenLoop n []).take (k - 128))
      rwa [List.length_take_of_le (by omega), Nat.zero_add, Nat.mul_one] at hlt
    have hbase : 256 ^ (k - 128) ≤ 128 ^ j := by
      rw [show (256 : Nat) = 2 ^ 8 from rfl, show (128 : Nat) = 2 ^ 7 from rfl, ← Nat.pow_mul,
        ← Nat.pow_mul]
      exact Nat.pow_le_pow_right (by decide) (by omega)
    rw [hmod]
    show k - 128 + valueFrom 256 0 ((lenLoop n []).take (k - 128)) ≠ k + n
    omega

/-- **Long contents do not.** The parser ends elsewhere. -/
theorem tlvParse_long {tag : UInt8} {content t : Bytes} (h : 0x80 ≤ content.length)
    (ht : tlv tag content = some t) (rest : Bytes) {r : UInt8 × Bytes × Nat}
    (hr : tlvParse (t ++ rest) 0 = some r) : r.2.2 ≠ t.length := by
  obtain ⟨digits, hdigits, hk, rfl⟩ := tlv_long h ht
  obtain ⟨hbit, hnat⟩ := long_head digits.length hk
  have htake : slice (tag :: UInt8.ofNat (0x80 ||| digits.length) :: (digits ++ content ++ rest)) 2
      (2 + digits.length % 128) = digits.take (digits.length % 128) := by
    have hle : digits.length % 128 ≤ digits.length := Nat.mod_le _ _
    unfold slice
    rw [Nat.add_comm 2]
    simp [List.take_append_of_le_length hle]
  have hmiss := misread_length h (hdigits ▸ rfl) hk
  rw [← hdigits] at hmiss
  simp only [tlvParse, List.cons_append, List.getElem?_cons_zero, List.getElem?_cons_succ,
    Option.bind_eq_bind, Option.bind_some, Nat.zero_add, hbit, hnat, ne_eq, not_false_eq_true,
    if_true, htake, Option.pure_def, Option.some.injEq] at hr
  subst hr
  simp only [List.length_cons, List.length_append]
  omega

/-! ## §8 Trees -/

theorem encode_prim (tag : UInt8) (content : Bytes) :
    (Ber.prim tag content).encode = tlv tag content := by
  rw [Ber.encode]

theorem encode_cons (tag : UInt8) (parts : List Ber) :
    (Ber.cons tag parts).encode = (Ber.encodeAll parts).bind (tlv tag) := by
  rw [Ber.encode]

theorem encodeAll_nil : Ber.encodeAll [] = some [] := by
  rw [Ber.encodeAll]

theorem encodeAll_cons {b : Ber} {rest : List Ber} {t : Bytes}
    (h : Ber.encodeAll (b :: rest) = some t) :
    ∃ hd tl, b.encode = some hd ∧ Ber.encodeAll rest = some tl ∧ t = hd ++ tl := by
  rw [Ber.encodeAll] at h
  cases hhd : b.encode with
  | none => rw [hhd] at h; cases h
  | some hd =>
      cases htl : Ber.encodeAll rest with
      | none => rw [hhd, htl] at h; cases h
      | some tl =>
          rw [hhd, htl] at h
          cases h
          exact ⟨hd, tl, rfl, rfl, rfl⟩

mutual

/-- No tree is written in fewer bytes than its size. -/
theorem size_le_encode : ∀ (b : Ber) {t : Bytes}, b.encode = some t → b.size ≤ t.length
  | .prim tag content, t, h => by
      rw [encode_prim] at h
      rw [Ber.size]
      exact two_add_le_tlv h
  | .cons tag parts, t, h => by
      rw [encode_cons] at h
      obtain ⟨content, hparts, ht⟩ := Option.bind_eq_some_iff.mp h
      have hle := sizes_le_encodeAll parts hparts
      have htwo := two_add_le_tlv ht
      rw [Ber.size]
      omega

theorem sizes_le_encodeAll : ∀ (bs : List Ber) {t : Bytes},
    Ber.encodeAll bs = some t → Ber.sizes bs ≤ t.length
  | [], t, _ => by
      rw [Ber.sizes]
      exact Nat.zero_le _
  | b :: rest, t, h => by
      obtain ⟨hd, tl, hhd, htl, rfl⟩ := encodeAll_cons h
      have hfirst := size_le_encode b hhd
      have hrest := sizes_le_encodeAll rest htl
      rw [Ber.sizes, List.length_append]
      omega

end

mutual

/-- **A small tree lies where it is written**, whatever stands around it. -/
theorem lies_encode : ∀ (b : Ber) {t : Bytes}, b.encode = some t → b.size < 0x80 + 2 →
    ∀ pre post : Bytes, t.length = b.size ∧
      b.Lies (pre ++ t ++ post) pre.length (pre.length + t.length)
  | .prim tag content, t, h, hsize, pre, post => by
      rw [encode_prim] at h
      rw [Ber.size] at hsize ⊢
      have hshort : content.length < 0x80 := by omega
      rw [tlv_short tag hshort] at h
      cases h
      refine ⟨by simp only [List.length_cons]; omega, ?_⟩
      have hparse := tlvParse_short pre post tag hshort
      rw [Ber.Lies, hparse, List.length_cons, List.length_cons, Nat.add_assoc,
        Nat.add_comm 2 content.length]
  | .cons tag parts, t, h, hsize, pre, post => by
      rw [encode_cons] at h
      obtain ⟨content, hparts, ht⟩ := Option.bind_eq_some_iff.mp h
      rw [Ber.size] at hsize ⊢
      obtain ⟨hlen, hlie⟩ := allLie_encodeAll parts hparts (by omega) [] []
      have hshort : content.length < 0x80 := by omega
      rw [tlv_short tag hshort] at ht
      cases ht
      refine ⟨by simp only [List.length_cons]; omega, ?_⟩
      have hparse := tlvParse_short pre post tag hshort
      rw [Ber.Lies]
      refine ⟨content, ?_, ?_⟩
      · rw [hparse, List.length_cons, List.length_cons, Nat.add_assoc, Nat.add_comm 2 content.length]
      · simpa using hlie

theorem allLie_encodeAll : ∀ (bs : List Ber) {t : Bytes}, Ber.encodeAll bs = some t →
    Ber.sizes bs < 0x80 → ∀ pre post : Bytes, t.length = Ber.sizes bs ∧
      Ber.AllLie (pre ++ t ++ post) bs pre.length (pre.length + t.length)
  | [], t, h, _, pre, post => by
      rw [encodeAll_nil] at h
      cases h
      rw [Ber.sizes, Ber.AllLie]
      exact ⟨rfl, rfl⟩
  | b :: rest, t, h, hsize, pre, post => by
      obtain ⟨hd, tl, hhd, htl, rfl⟩ := encodeAll_cons h
      rw [Ber.sizes] at hsize ⊢
      obtain ⟨hlen, hlies⟩ := lies_encode b hhd (by omega) pre (tl ++ post)
      obtain ⟨hlen', hlies'⟩ := allLie_encodeAll rest htl (by omega) (pre ++ hd) post
      rw [Ber.AllLie]
      refine ⟨by rw [List.length_append]; omega, pre.length + hd.length, ?_, ?_⟩
      · simpa only [List.append_assoc] using hlies
      · rw [List.length_append] at hlies'
        rw [List.length_append, ← Nat.add_assoc, ← List.append_assoc]
        exact hlies'

end

mutual

/-- A small tree can be written. -/
theorem encode_of_size : ∀ (b : Ber), b.size < 0x80 + 2 → ∃ t, b.encode = some t
  | .prim tag content, hsize => by
      rw [Ber.size] at hsize
      rw [encode_prim]
      exact ⟨_, tlv_short tag (by omega)⟩
  | .cons tag parts, hsize => by
      rw [Ber.size] at hsize
      obtain ⟨content, hparts⟩ := encodeAll_of_size parts (by omega)
      obtain ⟨hlen, _⟩ := allLie_encodeAll parts hparts (by omega) [] []
      rw [encode_cons, hparts]
      exact ⟨_, tlv_short tag (by omega)⟩

theorem encodeAll_of_size : ∀ (bs : List Ber), Ber.sizes bs < 0x80 →
    ∃ t, Ber.encodeAll bs = some t
  | [], _ => ⟨[], encodeAll_nil⟩
  | b :: rest, hsize => by
      rw [Ber.sizes] at hsize
      obtain ⟨hd, hhd⟩ := encode_of_size b (by omega)
      obtain ⟨tl, htl⟩ := encodeAll_of_size rest (by omega)
      refine ⟨hd ++ tl, ?_⟩
      rw [Ber.encodeAll, hhd, htl]
      rfl

end

/-- A message that lies in its own bytes has a short outermost content. -/
theorem size_of_lies {tag : UInt8} {parts : List Ber} {m : Bytes}
    (h : (Ber.cons tag parts).encode = some m) (hlies : (Ber.cons tag parts).Lies m 0 m.length) :
    (Ber.cons tag parts).size < 0x80 + 2 := by
  rw [encode_cons] at h
  obtain ⟨content, hparts, ht⟩ := Option.bind_eq_some_iff.mp h
  -- the real content is at least as long as the size, which counts one byte for each length
  have hle := sizes_le_encodeAll parts hparts
  rw [Ber.Lies] at hlies
  obtain ⟨read, hread, _⟩ := hlies
  rw [Ber.size]
  by_cases hshort : content.length < 0x80
  · omega
  · exact absurd rfl (tlvParse_long (by omega) ht [] (by rw [List.append_nil]; exact hread))

/-! ## §9 The request -/

/-- One varbind of the request. -/
def varbind (oid : Bytes) : Ber := .cons 0x30 [.prim 0x06 oid, .prim 0x05 []]

theorem encode_varbind (oid : Bytes) :
    (varbind oid).encode = (do tlv 0x30 ((← tlv 0x06 oid) ++ (← tlv 0x05 []))) := by
  rw [varbind, encode_cons]
  simp only [Ber.encodeAll, Ber.encode]
  cases tlv 0x06 oid with
  | none => rfl
  | some t =>
      cases tlv 0x05 [] with
      | none => rfl
      | some e => simp

/-- The varbinds of the request are those of the tree. -/
theorem varbinds_eq (oids : List String) :
    ((oids.mapM fun oid => do tlv 0x30 ((← oidEnc oid) ++ (← tlv 0x05 []))).map List.flatten) =
      (oids.mapM oidBytes).bind fun contents => Ber.encodeAll (contents.map varbind) := by
  induction oids with
  | nil =>
      show some [] = Ber.encodeAll []
      rw [encodeAll_nil]
  | cons oid rest ih =>
      rw [List.mapM_cons, List.mapM_cons]
      cases hoid : oidBytes oid with
      | none => simp [oidEnc, hoid]
      | some content =>
          have henc : (do tlv 0x30 ((← oidEnc oid) ++ (← tlv 0x05 []))) =
              (varbind content).encode := by
            rw [encode_varbind, oidEnc, hoid, Option.bind_some]
          rw [henc]
          cases hrest : rest.mapM oidBytes with
          | none =>
              rw [hrest] at ih
              cases hv : (varbind content).encode with
              | none => rfl
              | some v =>
                  have hnone := Option.map_eq_none_iff.mp ih
                  rw [Option.bind_eq_bind, Option.bind_some, hnone]
                  rfl
          | some contents =>
              rw [hrest] at ih
              simp only [Option.bind_eq_bind, Option.bind_some, Option.pure_def, List.map_cons]
              simp only [Option.bind_some] at ih
              rw [Ber.encodeAll, ← ih]
              cases (varbind content).encode with
              | none => rfl
              | some v =>
                  simp only [Option.bind_eq_bind, Option.bind_some]
                  cases rest.mapM fun oid => do tlv 0x30 ((← oidEnc oid) ++ (← tlv 0x05 [])) with
                  | none => rfl
                  | some vs => rfl

theorem snmpRequest_eq (oids : List String) (community : String) (reqId : Nat) :
    snmpRequest oids community reqId =
      (oids.mapM oidBytes).bind fun contents => (requestTree contents community reqId).encode := by
  have hvar := varbinds_eq oids
  unfold snmpRequest
  cases hoids : oids.mapM oidBytes with
  | none =>
      rw [hoids] at hvar
      have hnone := Option.map_eq_none_iff.mp hvar
      rw [Option.bind_eq_bind, hnone]
      rfl
  | some contents =>
      rw [hoids, Option.bind_some] at hvar
      rw [Option.bind_some, requestTree]
      simp only [Ber.encode, Ber.encodeAll]
      rw [show (contents.map fun oid => Ber.cons 0x30 [.prim 0x06 oid, .prim 0x05 []]) =
        contents.map varbind from rfl, ← hvar]
      cases (oids.mapM fun oid => do tlv 0x30 ((← oidEnc oid) ++ (← tlv 0x05 []))) with
      | none =>
          cases tlv 0x02 (intBytes reqId) with
          | none => simp
          | some _ => simp
      | some varbinds =>
          simp only [intEnc, octet, Option.bind_eq_bind, Option.bind_some, Option.map_some]
          cases tlv 0x02 (intBytes reqId) with
          | none => simp
          | some rid =>
              cases tlv 0x02 (intBytes 0) with
              | none => simp
              | some zero =>
                  cases tlv 0x30 varbinds.flatten with
                  | none => simp
                  | some list =>
                      -- the tree writes the version and the community before the PDU
                      cases tlv 0x02 (intBytes 1) with
                      | none => simp
                      | some version =>
                          cases tlv 0x04 community.toUTF8.toList with
                          | none => simp
                          | some name =>
                              simp only [Option.bind_some, Option.pure_def, List.append_assoc,
                                List.append_nil]
                              cases tlv 0xA0 (rid ++ (zero ++ (zero ++ list))) with
                              | none => simp
                              | some pdu => simp

/-- What is built is well formed exactly when its outermost content is short. -/
theorem isRequest_iff {oids : List String} {community : String} {reqId : Nat} {m : Bytes}
    (h : snmpRequest oids community reqId = some m) :
    IsRequest oids community reqId m ↔ ∃ contents, oids.mapM oidBytes = some contents ∧
      (requestTree contents community reqId).size < 0x80 + 2 := by
  rw [snmpRequest_eq] at h
  obtain ⟨contents, hoids, hm⟩ := Option.bind_eq_some_iff.mp h
  constructor
  · rintro ⟨contents', hoids', hlies⟩
    rw [hoids] at hoids'
    cases hoids'
    exact ⟨contents, hoids, size_of_lies hm hlies⟩
  · rintro ⟨contents', hoids', hsize⟩
    rw [hoids] at hoids'
    cases hoids'
    refine ⟨contents, hoids, ?_⟩
    obtain ⟨_, hlies⟩ := lies_encode _ hm hsize [] []
    simpa using hlies

/-- **The round trip**: a TLV is read back, whatever follows it, exactly when its content is shorter
than 128 bytes; and a request is built and well formed exactly when the content of its outermost
TLV, with one byte for each length in it, is that short. -/
theorem tlv_round_trip_iff (tag : UInt8) (content rest : Bytes) (oids : List String)
    (community : String) (reqId : Nat) :
    ((∃ t, tlv tag content = some t ∧ tlvParse (t ++ rest) 0 = some (tag, content, t.length)) ↔
      content.length < 0x80) ∧
    ((∃ m, snmpRequest oids community reqId = some m ∧ IsRequest oids community reqId m) ↔
      ∃ contents, oids.mapM oidBytes = some contents ∧
        (requestTree contents community reqId).size < 0x80 + 2) := by
  refine ⟨⟨?_, ?_⟩, ⟨?_, ?_⟩⟩
  · rintro ⟨t, ht, hparse⟩
    by_contra hlong
    exact tlvParse_long (by omega) ht rest hparse rfl
  · intro hshort
    refine ⟨_, tlv_short tag hshort, ?_⟩
    have hparse := tlvParse_short [] rest tag hshort
    rw [List.length_nil, Nat.zero_add, List.nil_append] at hparse
    rw [hparse, List.length_cons, List.length_cons, Nat.add_comm 2]
  · rintro ⟨m, hm, hreq⟩
    exact (isRequest_iff hm).mp hreq
  · rintro ⟨contents, hoids, hsize⟩
    obtain ⟨m, hm⟩ := encode_of_size _ hsize
    have hbuilt : snmpRequest oids community reqId = some m := by
      rw [snmpRequest_eq, hoids]
      exact hm
    exact ⟨m, hbuilt, (isRequest_iff hbuilt).mpr ⟨contents, hoids, hsize⟩⟩

theorem OIDS_bytes : OIDS.mapM oidBytes =
    some [[43, 6, 1, 2, 1, 1, 1, 0], [43, 6, 1, 2, 1, 1, 2, 0], [43, 6, 1, 2, 1, 1, 3, 0],
      [43, 6, 1, 2, 1, 1, 4, 0], [43, 6, 1, 2, 1, 1, 5, 0], [43, 6, 1, 2, 1, 1, 6, 0],
      [43, 6, 1, 2, 1, 2, 1, 0]] := by
  decide +kernel

example : (OIDS.mapM oidBytes).map (fun contents => (requestTree contents "public" 1700000000).size) =
    some 127 := by
  decide +kernel

/-- A content of 128 bytes is read back with the two bytes behind it, and a community of nine
characters is enough for a request that is not well formed. -/
theorem tlv_round_trip_fails :
    (∃ t, tlv 0x04 (List.replicate 128 0) = some t ∧
      tlvParse (t ++ [5, 0]) 0 ≠ some (0x04, List.replicate 128 0, t.length)) ∧
    ∃ m, snmpRequest OIDS "community" 1700000000 = some m ∧
      ¬ IsRequest OIDS "community" 1700000000 m := by
  constructor
  · exact ⟨4 :: 130 :: 1 :: 0 :: List.replicate 128 0, by decide +kernel, by decide +kernel⟩
  · have hbuilt : (snmpRequest OIDS "community" 1700000000).isSome := by decide +kernel
    obtain ⟨m, hm⟩ := Option.isSome_iff_exists.mp hbuilt
    refine ⟨m, hm, fun hreq => ?_⟩
    obtain ⟨contents, hoids, hsize⟩ := (isRequest_iff hm).mp hreq
    rw [OIDS_bytes] at hoids
    cases hoids
    revert hsize
    decide +kernel

end NetPulse.Infra
