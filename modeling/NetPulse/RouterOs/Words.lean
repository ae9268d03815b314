import NetPulse.Lib.BigEndian
import NetPulse.Lib.Except

/-
# NetPulse.RouterOs.Words — words on the RouterOS API (`routeros.py`)

A sentence is a list of words, each behind its length, and a length of zero at the end. A length is
written in one to four bytes and read in one to five; `encode_length` branches on the number and
`_length` on the first byte. `LengthForm` is the table that both follow.

What a router sends is a place for each byte, and every `recv` takes some of the bytes that stand at
the next places. `recv_eq` says that it does not matter how many: `_recv` answers as `take` does, which
knows no chunks. Everything behind it is about places only.
-/

namespace NetPulse.RouterOs

open NetPulse.Lib (Bytes fromBytes toBytes)

/-! ## §1 Writing -/

def MAX_BYTES : Nat := 2 * 1024 * 1024

inductive Exn where
  | routerError (text : String)
  | osError (text : String)
  | unicodeError
  deriving DecidableEq

/-- `encode_length`, for a length that is not negative. -/
def encodeLength (length : Nat) : Except Exn Bytes :=
  if ¬ length ≤ MAX_BYTES then .error (.routerError "API word too large")
  else if length < 0x80 then .ok [UInt8.ofNat length]
  else if length < 0x4000 then .ok (toBytes 2 (length ||| 0x8000))
  else if length < 0x200000 then .ok (toBytes 3 (length ||| 0xC00000))
  else .ok (toBytes 4 (length ||| 0xE0000000))

/-- `word.encode()` -/
def encode (word : String) : Bytes := word.toUTF8.data.toList

/-- `.decode('utf-8')`; `none` is the `UnicodeDecodeError`. -/
def decode (raw : Bytes) : Option String := String.fromUTF8? ⟨raw.toArray⟩

def encodeWord (word : String) : Except Exn Bytes := do
  return (← encodeLength (encode word).length) ++ encode word

/-- What `_exchange` sends. -/
def encodeSentence (words : List String) : Except Exn Bytes := do
  return (← words.mapM encodeWord).flatten ++ [0]

/-! ## §2 Reading -/

/-- What stands at a place of the reply: a byte, the end of the connection, or nothing until the
deadline has passed, or until the socket gives up. -/
inductive Place where
  | byte (b : UInt8)
  | closed
  | late
  | silent

/-- A reply that may go on for ever, and how far each `recv` reads behind its first byte at most. -/
structure Sock where
  reply : Nat → Place
  cut : Nat → Nat

def closed : Exn := .routerError "Router closed API connection"

def timedOut : Exn := .routerError "API operation timed out"

def silent : Exn := .osError "timed out"

/-- The bytes from a place on, at most so many. -/
def segment (reply : Nat → Place) (pos : Nat) : Nat → Bytes
  | 0 => []
  | k + 1 =>
      match reply pos with
      | .byte b => b :: segment reply (pos + 1) k
      | _ => []

/-- The check of the deadline, and `self.sock.recv(n)`. -/
def Sock.chunk (s : Sock) (n pos : Nat) : Except Exn Bytes :=
  match s.reply pos with
  | .late => .error timedOut
  | .silent => .error silent
  | .closed => .ok []
  | .byte _ => .ok (segment s.reply pos (min n (s.cut pos + 1)))

/-- The loop of `_recv`. -/
def Sock.recvLoop (s : Sock) (size : Nat) (data : Bytes) (pos : Nat) : Except Exn (Bytes × Nat) :=
  if data.length < size then
    match s.chunk (size - data.length) pos with
    | .error e => .error e
    | .ok [] => .error closed
    | .ok (b :: bs) => s.recvLoop size (data ++ b :: bs) (pos + (b :: bs).length)
  else .ok (data, pos)
termination_by size - data.length
decreasing_by
  simp only [List.length_append, List.length_cons]
  omega

/-- `_recv`, from a place on: the bytes, and the place behind them. -/
def Sock.recv (s : Sock) (size pos : Nat) : Except Exn (Bytes × Nat) := s.recvLoop size [] pos

/-- `_length`, behind its first byte. -/
def Sock.lengthFrom (s : Sock) (first : UInt8) (pos : Nat) : Except Exn (Nat × Nat) :=
  if first < 0x80 then return (first.toNat, pos)
  else if first < 0xC0 then do
    let (ext, pos) ← s.recv 1 pos
    return ((first &&& 0x3F).toNat <<< 8 ||| fromBytes ext, pos)
  else if first < 0xE0 then do
    let (ext, pos) ← s.recv 2 pos
    return ((first &&& 0x1F).toNat <<< 16 ||| fromBytes ext, pos)
  else if first < 0xF0 then do
    let (ext, pos) ← s.recv 3 pos
    return ((first &&& 0x0F).toNat <<< 24 ||| fromBytes ext, pos)
  else if first = 0xF0 then do
    let (ext, pos) ← s.recv 4 pos
    return (fromBytes ext, pos)
  else .error (.routerError "Unsupported API control byte")

/-- `_length` -/
def Sock.length (s : Sock) (pos : Nat) : Except Exn (Nat × Nat) := do
  let (head, pos) ← s.recv 1 pos
  s.lengthFrom (head.headD 0) pos

/-- The words up to the next length of zero; `none` when there are more than that. -/
def Sock.readWords (s : Sock) : Nat → Nat → Except Exn (Option (List Bytes × Nat))
  | 0, _ => .ok none
  | limit + 1, pos => do
      let (size, pos) ← s.length pos
      if size = 0 then return some ([], pos)
      let (word, pos) ← s.recv size pos
      return (← s.readWords limit pos).map fun r => (word :: r.1, r.2)

/-! ## §3 Chunks do not matter -/

/-- The next `n` bytes, one by one. -/
def take (reply : Nat → Place) : Nat → Nat → Except Exn Bytes
  | 0, _ => .ok []
  | n + 1, pos =>
      match reply pos with
      | .byte b => (take reply n (pos + 1)).map (b :: ·)
      | .late => .error timedOut
      | .silent => .error silent
      | .closed => .error closed

/-- The bytes stand at the places from `pos` on. -/
def Arrives (reply : Nat → Place) : Nat → Bytes → Prop
  | _, [] => True
  | pos, b :: bs => reply pos = .byte b ∧ Arrives reply (pos + 1) bs

variable {reply : Nat → Place} {s : Sock}

theorem arrives_append {pos : Nat} {xs ys : Bytes} :
    Arrives reply pos (xs ++ ys) ↔ Arrives reply pos xs ∧ Arrives reply (pos + xs.length) ys := by
  induction xs generalizing pos with
  | nil => exact (and_iff_right trivial).symm
  | cons x xs ih =>
      rw [List.cons_append, Arrives, Arrives, ih, and_assoc, List.length_cons, Nat.add_assoc,
        Nat.add_comm 1]

theorem map_map {α β γ : Type} (f : α → β) (g : β → γ) (x : Except Exn α) :
    (x.map f).map g = x.map fun a => g (f a) := by
  cases x with
  | error e => rfl
  | ok a => rfl

/-- A segment is what `take` begins with. -/
theorem take_segment (reply : Nat → Place) (pos : Nat) {n k : Nat} (hk : k ≤ n) :
    (segment reply pos k).length ≤ k ∧
      take reply n pos = (take reply (n - (segment reply pos k).length)
        (pos + (segment reply pos k).length)).map (segment reply pos k ++ ·) := by
  induction k generalizing n pos with
  | zero =>
      refine ⟨Nat.le_refl 0, ?_⟩
      show take reply n pos = (take reply n pos).map id
      cases take reply n pos with
      | error e => rfl
      | ok xs => rfl
  | succ k ih =>
      cases n with
      | zero => exact absurd hk (by omega)
      | succ n =>
          cases hpos : reply pos with
          | byte b =>
              obtain ⟨hlen, htake⟩ := ih (pos + 1) (Nat.le_of_succ_le_succ hk)
              have hsegment : segment reply pos (k + 1) = b :: segment reply (pos + 1) k := by
                rw [segment, hpos]
              rw [hsegment, List.length_cons]
              refine ⟨by omega, ?_⟩
              rw [take, hpos]
              dsimp only
              rw [htake, map_map, Nat.add_sub_add_right, Nat.add_assoc, Nat.add_comm 1]
              rfl
          | closed | late | silent =>
              have hsegment : segment reply pos (k + 1) = [] := by rw [segment, hpos]
              rw [hsegment]
              refine ⟨Nat.zero_le _, ?_⟩
              show take reply (n + 1) pos = (take reply (n + 1) pos).map id
              rw [take, hpos]
              rfl

theorem recvLoop_eq (size : Nat) (data : Bytes) (pos : Nat) :
    s.recvLoop size data pos = (take s.reply (size - data.length) pos).map
      fun xs => (data ++ xs, pos + xs.length) := by
  induction hk : size - data.length using Nat.strongRecOn generalizing data pos with
  | ind k ih =>
      rw [Sock.recvLoop]
      by_cases hlt : data.length < size
      · obtain ⟨n, rfl⟩ : ∃ n, k = n + 1 := ⟨k - 1, by omega⟩
        rw [if_pos hlt, hk, Sock.chunk]
        cases hpos : s.reply pos with
        | byte b =>
            -- at least this byte, and not more than is missing
            obtain ⟨hlen, htake⟩ := take_segment s.reply pos
              (Nat.min_le_left (n + 1) (s.cut pos + 1))
            obtain ⟨c, hc⟩ : ∃ c, min (n + 1) (s.cut pos + 1) = c + 1 :=
              ⟨min n (s.cut pos), Nat.succ_min_succ n (s.cut pos)⟩
            have hsegment : segment s.reply pos (min (n + 1) (s.cut pos + 1)) =
                b :: segment s.reply (pos + 1) c := by
              rw [hc, segment, hpos]
            have hmin := Nat.min_le_left (n + 1) (s.cut pos + 1)
            rw [hsegment] at hlen htake ⊢
            rw [List.length_cons] at hlen
            dsimp only
            rw [htake, ih (n + 1 - (b :: segment s.reply (pos + 1) c).length)
              (by rw [List.length_cons]; omega) _ _
              (by rw [List.length_append, List.length_cons]; omega), map_map]
            congr 1
            funext xs
            rw [List.append_assoc, List.length_append, Nat.add_assoc]
        | closed | late | silent =>
            rw [take, hpos]
            rfl
      · obtain rfl : k = 0 := by omega
        rw [if_neg hlt, take]
        show Except.ok (data, pos) = .ok (data ++ [], pos + 0)
        rw [List.append_nil, Nat.add_zero]

/-- **It does not matter how the socket cuts the bytes.** -/
theorem recv_eq (size pos : Nat) :
    s.recv size pos = (take s.reply size pos).map fun xs => (xs, pos + xs.length) := by
  have h := recvLoop_eq (s := s) size [] pos
  rwa [List.length_nil, Nat.sub_zero] at h

theorem take_ok_iff {n pos : Nat} {xs : Bytes} :
    take reply n pos = .ok xs ↔ xs.length = n ∧ Arrives reply pos xs := by
  induction n generalizing pos xs with
  | zero =>
      rw [take, List.length_eq_zero_iff]
      constructor
      · intro h
        cases h
        exact ⟨rfl, trivial⟩
      · rintro ⟨rfl, -⟩
        rfl
  | succ n ih =>
      rw [take]
      cases hpos : reply pos with
      | byte b =>
          dsimp only
          constructor
          · intro h
            cases hrest : take reply n (pos + 1) with
            | error e => rw [hrest] at h; cases h
            | ok ys =>
                rw [hrest] at h
                cases h
                obtain ⟨hlen, harr⟩ := ih.mp hrest
                exact ⟨by rw [List.length_cons, hlen], hpos, harr⟩
          · rintro ⟨hlen, harr⟩
            cases xs with
            | nil => cases hlen
            | cons x xs =>
                obtain ⟨hx, harr⟩ := harr
                rw [hpos] at hx
                cases hx
                rw [ih.mpr ⟨Nat.succ.inj hlen, harr⟩]
                rfl
      | closed | late | silent =>
          refine iff_of_false (fun h => by cases h) ?_
          rintro ⟨hlen, harr⟩
          cases xs with
          | nil => cases hlen
          | cons x xs =>
              rw [Arrives, hpos] at harr
              cases harr.1

/-- **`_recv`** answers with the next bytes, where so many stand. -/
theorem recv_ok_iff {size pos : Nat} {r : Bytes × Nat} :
    s.recv size pos = .ok r ↔
      r.1.length = size ∧ Arrives s.reply pos r.1 ∧ r.2 = pos + size := by
  rw [recv_eq]
  constructor
  · intro h
    cases htake : take s.reply size pos with
    | error e => rw [htake] at h; cases h
    | ok xs =>
        rw [htake] at h
        cases h
        obtain ⟨hlen, harr⟩ := take_ok_iff.mp htake
        exact ⟨hlen, harr, congrArg (pos + ·) hlen⟩
  · obtain ⟨xs, pos'⟩ := r
    rintro ⟨hlen, harr, hpos⟩
    dsimp only at hlen harr hpos
    rw [take_ok_iff.mpr ⟨hlen, harr⟩, hpos, ← hlen]
    rfl

/-! ## §4 Lengths -/

/-- How many bytes follow the first one, and what it counts itself. -/
def headerOf (first : Nat) : Option (Nat × Nat) :=
  if first < 0x80 then some (0, first)
  else if first < 0xC0 then some (1, first - 0x80)
  else if first < 0xE0 then some (2, first - 0xC0)
  else if first < 0xF0 then some (3, first - 0xE0)
  else if first = 0xF0 then some (4, 0)
  else none

/-- The bytes are a form of this length. -/
def LengthForm (ls : Bytes) (n : Nat) : Prop :=
  ∃ first ext base, ls = first :: ext ∧ headerOf first.toNat = some (ext.length, base) ∧
    n = base * 256 ^ ext.length + fromBytes ext

theorem or_high {n k a : Nat} (h : n < 2 ^ k) : n ||| 2 ^ k * a = 2 ^ k * a + n := by
  rw [Nat.or_comm, ← Nat.two_pow_add_eq_or_of_lt h]

/-- The bytes of a number are a form of what is left when its first byte is taken for a header. -/
theorem lengthForm_toBytes {k m base n : Nat} (hfits : m / 256 ^ k < 256)
    (hhead : headerOf (m / 256 ^ k) = some (k, base)) (hn : n = base * 256 ^ k + m % 256 ^ k) :
    LengthForm (toBytes (k + 1) m) n := by
  refine ⟨UInt8.ofNat (m / 256 ^ k), toBytes k m, base, NetPulse.Lib.toBytes_succ k m, ?_, ?_⟩
  · rw [UInt8.toNat_ofNat', Nat.mod_eq_of_lt hfits, NetPulse.Lib.length_toBytes, hhead]
  · rw [NetPulse.Lib.length_toBytes, NetPulse.Lib.fromBytes_toBytes_mod, hn]

/-- **What is written is a form of the length.** -/
theorem lengthForm_encodeLength {n : Nat} (h : n ≤ MAX_BYTES) :
    ∃ ls, encodeLength n = .ok ls ∧ LengthForm ls n := by
  have hmax : n ≤ 0x200000 := h
  unfold encodeLength
  rw [if_neg (not_not.mpr h)]
  by_cases h₁ : n < 0x80
  · refine ⟨_, if_pos h₁, UInt8.ofNat n, [], n, rfl, ?_, ?_⟩
    · rw [UInt8.toNat_ofNat', Nat.mod_eq_of_lt (by omega), headerOf, if_pos h₁]
      rfl
    · show n = n * 1 + 0
      omega
  rw [if_neg h₁]
  by_cases h₂ : n < 0x4000
  · have hor : n ||| 0x8000 = 0x8000 + n := or_high (k := 14) (a := 2) h₂
    have hhead : headerOf ((0x8000 + n) / 256 ^ 1) = some (1, (0x8000 + n) / 256 - 0x80) := by
      rw [headerOf, if_neg (by omega), if_pos (by omega)]
      rfl
    rw [if_pos h₂, hor]
    exact ⟨_, rfl, lengthForm_toBytes (by omega) hhead (by omega)⟩
  rw [if_neg h₂]
  by_cases h₃ : n < 0x200000
  · have hor : n ||| 0xC00000 = 0xC00000 + n := or_high (k := 21) (a := 6) h₃
    have hhead : headerOf ((0xC00000 + n) / 256 ^ 2) = some (2, (0xC00000 + n) / 65536 - 0xC0) := by
      rw [headerOf, if_neg (by omega), if_neg (by omega), if_pos (by omega)]
      rfl
    rw [if_pos h₃, hor]
    exact ⟨_, rfl, lengthForm_toBytes (by omega) hhead (by omega)⟩
  · have hor : n ||| 0xE0000000 = 0xE0000000 + n := or_high (k := 28) (a := 14) (by omega)
    have hhead : headerOf ((0xE0000000 + n) / 256 ^ 3) =
        some (3, (0xE0000000 + n) / 16777216 - 0xE0) := by
      rw [headerOf, if_neg (by omega), if_neg (by omega), if_neg (by omega), if_pos (by omega)]
      rfl
    rw [if_neg h₃, hor]
    exact ⟨_, rfl, lengthForm_toBytes (by omega) hhead (by omega)⟩

theorem low_bits : ∀ b < 256,
    (0x80 ≤ b → b < 0xC0 → (UInt8.ofNat b &&& 0x3F).toNat = b - 0x80) ∧
      (0xC0 ≤ b → b < 0xE0 → (UInt8.ofNat b &&& 0x1F).toNat = b - 0xC0) ∧
      (0xE0 ≤ b → b < 0xF0 → (UInt8.ofNat b &&& 0x0F).toNat = b - 0xE0) := by
  decide +kernel

theorem shift_or {a i k : Nat} {ext : Bytes} (hk : ext.length = k) (hi : 2 ^ i = 256 ^ k) :
    a <<< i ||| fromBytes ext = a * 256 ^ k + fromBytes ext := by
  have hlt : fromBytes ext < 2 ^ i := by
    rw [hi, ← hk]
    exact NetPulse.Lib.fromBytes_lt ext
  rw [← Nat.shiftLeft_add_eq_or_of_lt hlt, Nat.shiftLeft_eq, hi]

theorem length_byte {pos : Nat} {first : UInt8} (h : s.reply pos = .byte first) :
    s.length pos = s.lengthFrom first (pos + 1) := by
  have hrecv : s.recv 1 pos = .ok ([first], pos + 1) := recv_ok_iff.mpr ⟨rfl, ⟨h, trivial⟩, rfl⟩
  unfold Sock.length
  rw [hrecv]
  rfl

theorem recv_zero (pos : Nat) : s.recv 0 pos = .ok ([], pos) :=
  recv_ok_iff.mpr ⟨rfl, trivial, rfl⟩

/-- `_length` at a byte that begins a length: as many bytes are read as the byte says. -/
theorem length_of_header {pos k base : Nat} {first : UInt8} (h : s.reply pos = .byte first)
    (hhead : headerOf first.toNat = some (k, base)) :
    ∃ value : Bytes → Nat, (∀ ext, ext.length = k → value ext = base * 256 ^ k + fromBytes ext) ∧
      s.length pos = (s.recv k (pos + 1) >>= fun r => pure (value r.1, r.2)) := by
  obtain ⟨hlow₁, hlow₂, hlow₃⟩ := low_bits first.toNat first.toNat_lt
  rw [UInt8.ofNat_toNat] at hlow₁ hlow₂ hlow₃
  rw [length_byte h, Sock.lengthFrom]
  unfold headerOf at hhead
  by_cases h₁ : first.toNat < 0x80
  · rw [if_pos h₁] at hhead
    cases hhead
    refine ⟨fun _ => first.toNat, ?_, ?_⟩
    · intro ext hext
      rw [List.length_eq_zero_iff.mp hext, Nat.pow_zero, Nat.mul_one]
      rfl
    · rw [if_pos (UInt8.lt_iff_toNat_lt.mpr h₁), recv_zero]
      rfl
  rw [if_neg h₁] at hhead
  rw [if_neg (fun hlt => h₁ (UInt8.lt_iff_toNat_lt.mp hlt))]
  by_cases h₂ : first.toNat < 0xC0
  · rw [if_pos h₂] at hhead
    cases hhead
    refine ⟨fun ext => (first &&& 0x3F).toNat <<< 8 ||| fromBytes ext, ?_, ?_⟩
    · intro ext hext
      rw [← hlow₁ (by omega) h₂]
      exact shift_or hext rfl
    · rw [if_pos (UInt8.lt_iff_toNat_lt.mpr h₂)]
  rw [if_neg h₂] at hhead
  rw [if_neg (fun hlt => h₂ (UInt8.lt_iff_toNat_lt.mp hlt))]
  by_cases h₃ : first.toNat < 0xE0
  · rw [if_pos h₃] at hhead
    cases hhead
    refine ⟨fun ext => (first &&& 0x1F).toNat <<< 16 ||| fromBytes ext, ?_, ?_⟩
    · intro ext hext
      rw [← hlow₂ (by omega) h₃]
      exact shift_or hext rfl
    · rw [if_pos (UInt8.lt_iff_toNat_lt.mpr h₃)]
  rw [if_neg h₃] at hhead
  rw [if_neg (fun hlt => h₃ (UInt8.lt_iff_toNat_lt.mp hlt))]
  by_cases h₄ : first.toNat < 0xF0
  · rw [if_pos h₄] at hhead
    cases hhead
    refine ⟨fun ext => (first &&& 0x0F).toNat <<< 24 ||| fromBytes ext, ?_, ?_⟩
    · intro ext hext
      rw [← hlow₃ (by omega) h₄]
      exact shift_or hext rfl
    · rw [if_pos (UInt8.lt_iff_toNat_lt.mpr h₄)]
  rw [if_neg h₄] at hhead
  rw [if_neg (fun hlt => h₄ (UInt8.lt_iff_toNat_lt.mp hlt))]
  split at hhead
  · rename_i h₅
    cases hhead
    refine ⟨fromBytes, fun ext _ => by rw [Nat.zero_mul, Nat.zero_add], ?_⟩
    rw [if_pos (UInt8.toNat.inj h₅)]
  · cases hhead

/-- `_length` at any other byte. -/
theorem length_of_no_header {pos : Nat} {first : UInt8} (h : s.reply pos = .byte first)
    (hhead : headerOf first.toNat = none) :
    s.length pos = .error (.routerError "Unsupported API control byte") := by
  have hbig : 0xF0 < first.toNat := by
    unfold headerOf at hhead
    by_contra hle
    split_ifs at hhead
    omega
  have hne : first ≠ 0xF0 := by
    rintro rfl
    exact absurd hbig (by decide)
  have hnot : ∀ b : UInt8, b.toNat ≤ 0xF0 → ¬ first < b := by
    intro b hb hlt
    have hlt' := UInt8.lt_iff_toNat_lt.mp hlt
    omega
  rw [length_byte h, Sock.lengthFrom]
  rw [if_neg (hnot _ (by decide)), if_neg (hnot _ (by decide)), if_neg (hnot _ (by decide)),
    if_neg (hnot _ (by decide)), if_neg hne]

theorem length_ok_byte {pos : Nat} {r : Nat × Nat} (h : s.length pos = .ok r) :
    ∃ first, s.reply pos = .byte first := by
  obtain ⟨⟨head, p⟩, hrecv, -⟩ := NetPulse.Lib.bind_eq_ok.mp h
  obtain ⟨hlen, harr, -⟩ := recv_ok_iff.mp hrecv
  obtain ⟨first, rfl⟩ := List.length_eq_one_iff.mp hlen
  exact ⟨first, harr.1⟩

/-- **A length is read** where one of its forms stands. -/
theorem length_ok_iff {pos n pos' : Nat} :
    s.length pos = .ok (n, pos') ↔
      ∃ ls, LengthForm ls n ∧ Arrives s.reply pos ls ∧ pos' = pos + ls.length := by
  constructor
  · intro h
    obtain ⟨first, hpos⟩ := length_ok_byte h
    cases hhead : headerOf first.toNat with
    | none =>
        rw [length_of_no_header hpos hhead] at h
        cases h
    | some r =>
        obtain ⟨k, base⟩ := r
        obtain ⟨value, hvalue, hlength⟩ := length_of_header hpos hhead
        rw [hlength] at h
        obtain ⟨⟨ext, p⟩, hrecv, hr⟩ := NetPulse.Lib.bind_eq_ok.mp h
        obtain ⟨hlen, harr, hp⟩ := recv_ok_iff.mp hrecv
        dsimp only at hlen harr hp
        cases hr
        refine ⟨first :: ext, ⟨first, ext, base, rfl, ?_, ?_⟩, ⟨hpos, harr⟩, ?_⟩
        · rw [hlen, hhead]
        · rw [hlen, hvalue ext hlen]
        · rw [hp, List.length_cons, hlen]
          omega
  · rintro ⟨ls, ⟨first, ext, base, rfl, hhead, rfl⟩, ⟨hpos, harr⟩, rfl⟩
    obtain ⟨value, hvalue, hlength⟩ := length_of_header hpos hhead
    have hrecv : s.recv ext.length (pos + 1) = .ok (ext, pos + 1 + ext.length) :=
      recv_ok_iff.mpr ⟨rfl, harr, rfl⟩
    rw [hlength, hrecv, NetPulse.Lib.ok_bind, hvalue ext rfl, List.length_cons, Nat.add_assoc,
      Nat.add_comm 1]
    rfl

/-! ## §5 Lists of words -/

/-- A word that can be sent. -/
structure Word where
  text : String
  nonempty : 1 ≤ (encode text).length
  fits : (encode text).length ≤ MAX_BYTES

theorem decode_encode (word : String) : decode (encode word) = some word := by
  show String.fromUTF8? ⟨word.toUTF8.data.toList.toArray⟩ = _
  rw [Array.toArray_toList]
  unfold String.fromUTF8?
  exact dif_pos word.isValidUTF8

theorem encodeWord_eq (w : Word) :
    ∃ ls, LengthForm ls (encode w.text).length ∧ encodeWord w.text = .ok (ls ++ encode w.text) := by
  obtain ⟨ls, hls, hform⟩ := lengthForm_encodeLength w.fits
  refine ⟨ls, hform, ?_⟩
  unfold encodeWord
  rw [hls]
  rfl

/-- At a word, the word is read, and then what follows it. -/
theorem readWords_word {pos limit : Nat} {ls : Bytes} {w : Bytes} (hform : LengthForm ls w.length)
    (hw : w ≠ []) (harr : Arrives s.reply pos (ls ++ w)) :
    s.readWords (limit + 1) pos =
      (s.readWords limit (pos + (ls ++ w).length)).map (Option.map fun r => (w :: r.1, r.2)) := by
  obtain ⟨hls, hword⟩ := arrives_append.mp harr
  have hlength := length_ok_iff.mpr ⟨ls, hform, hls, rfl⟩
  have hrecv : s.recv w.length (pos + ls.length) = .ok (w, pos + ls.length + w.length) :=
    recv_ok_iff.mpr ⟨rfl, hword, rfl⟩
  have hne : w.length ≠ 0 := fun h => hw (List.length_eq_zero_iff.mp h)
  rw [Sock.readWords, hlength, NetPulse.Lib.ok_bind]
  dsimp only
  rw [if_neg hne, hrecv, NetPulse.Lib.ok_bind, List.length_append, Nat.add_assoc]
  cases s.readWords limit (pos + (ls.length + w.length)) with
  | error e => rfl
  | ok r => rfl

theorem readWords_end {pos : Nat} (limit : Nat) (h : s.reply pos = .byte 0) :
    s.readWords (limit + 1) pos = .ok (some ([], pos + 1)) := by
  have hform : LengthForm [0] 0 := ⟨0, [], 0, rfl, rfl, rfl⟩
  have hlength : s.length pos = .ok (0, pos + 1) := length_ok_iff.mpr ⟨[0], hform, ⟨h, trivial⟩, rfl⟩
  rw [Sock.readWords, hlength]
  rfl

/-- **Words are read as they were written.** What is sent for a list of words, wherever it stands in a
reply, however `recv` cuts it and whatever follows it, is read as exactly these words, up to the place
behind the length of zero; and each of them decodes to its text. -/
theorem words_round_trip (words : List Word) :
    ∃ data, encodeSentence (words.map Word.text) = .ok data ∧
      ∀ (s : Sock) (pos : Nat) (following : Bytes), Arrives s.reply pos (data ++ following) →
        (∀ limit, words.length < limit →
          s.readWords limit pos =
            .ok (some (words.map fun w => encode w.text, pos + data.length))) ∧
          (∀ w ∈ words, decode (encode w.text) = some w.text) ∧
          Arrives s.reply (pos + data.length) following := by
  have hread : ∃ parts, (words.map Word.text).mapM encodeWord = .ok parts ∧
      ∀ (s : Sock) (pos : Nat), Arrives s.reply pos (parts.flatten ++ [0]) →
        ∀ limit, words.length < limit → s.readWords limit pos =
          .ok (some (words.map fun w => encode w.text, pos + (parts.flatten ++ [0]).length)) := by
    induction words with
    | nil =>
        refine ⟨[], rfl, ?_⟩
        intro s pos harr limit hlimit
        obtain ⟨limit, rfl⟩ : ∃ k, limit = k + 1 := ⟨limit - 1, by omega⟩
        exact readWords_end limit harr.1
    | cons w words ih =>
        obtain ⟨parts, hparts, hread⟩ := ih
        obtain ⟨ls, hform, hw⟩ := encodeWord_eq w
        refine ⟨(ls ++ encode w.text) :: parts, ?_, ?_⟩
        · rw [List.map_cons, List.mapM_cons, hw, hparts]
          rfl
        · intro s pos harr limit hlimit
          rw [List.flatten_cons, List.append_assoc] at harr ⊢
          obtain ⟨hfirst, hrest⟩ := arrives_append.mp harr
          rw [List.length_cons] at hlimit
          obtain ⟨limit, rfl⟩ : ∃ k, limit = k + 1 := ⟨limit - 1, by omega⟩
          have hne : encode w.text ≠ [] := List.ne_nil_of_length_pos w.nonempty
          rw [readWords_word hform hne hfirst, hread s _ hrest limit (by omega), Nat.add_assoc,
            ← List.length_append, List.append_assoc]
          rfl
  obtain ⟨parts, hparts, hread⟩ := hread
  refine ⟨parts.flatten ++ [0], ?_, ?_⟩
  · unfold encodeSentence
    rw [hparts]
    rfl
  · intro s pos following harr
    obtain ⟨hdata, hfollowing⟩ := arrives_append.mp harr
    exact ⟨hread s pos hdata, fun w _ => decode_encode w.text, hfollowing⟩

end NetPulse.RouterOs
