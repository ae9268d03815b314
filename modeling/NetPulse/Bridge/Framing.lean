import Mathlib.Data.Fin.VecNotation
import NetPulse.Bridge.WebSocket

/-
# NetPulse.Bridge.Framing — the frames that the bridge sends (`mesh.py`)

`_send_payload` writes a frame by hand, `recv_frame` reads one by hand, and neither was made from the
other: a client masks what it sends and a server does not. Between them stands the grammar of
RFC 6455, `parseFrame`, which is in quotients and remainders where the code has bits.

`framing` says that what is sent is one final frame of that grammar, and that the same frame without
its mask is read back. The mask is an involution at every place (`applyMask_applyMask`), so nothing
depends on which key is drawn.
-/

namespace NetPulse.Bridge

open NetPulse.Lib (Bytes fromBytes toBytes)

/-! ## §1 Sending -/

/-- A `bytes` object: its length is at most `sys.maxsize`. -/
structure Payload where
  bytes : Bytes
  fits : bytes.length < 2 ^ 63

/-- `os.urandom(4)` -/
abbrev MaskKey := Fin 4 → UInt8

def MaskKey.bytes (mask : MaskKey) : Bytes := List.ofFn mask

/-- `bytes(b ^ mask[i % 4] for i, b in enumerate(payload))` -/
def applyMask (mask : MaskKey) (payload : Bytes) : Bytes :=
  payload.mapIdx fun i b => b ^^^ mask (Fin.ofNat 4 i)

/-- `struct.pack(">Q", n)`; `none` is the `struct.error` for more than eight bytes. -/
def packQ (n : Nat) : Option Bytes := if n < 2 ^ 64 then some (toBytes 8 n) else none

/-- What `_send_payload` writes to the socket. -/
def sendPayload (opcode : Fin 16) (mask : MaskKey) (payload : Bytes) : Option Bytes := do
  let ln := payload.length
  let hdr := [UInt8.ofNat (0x80 ||| opcode.val)]
  let hdr ←
    if ln ≤ 125 then some (hdr ++ [UInt8.ofNat (0x80 ||| ln)])
    else if ln ≤ 0xFFFF then some (hdr ++ [UInt8.ofNat (0x80 ||| 126)] ++ toBytes 2 ln)
    else (packQ ln).map fun ext => hdr ++ [UInt8.ofNat (0x80 ||| 127)] ++ ext
  return hdr ++ mask.bytes ++ applyMask mask payload

/-! ## §2 The grammar -/

/-- A frame as RFC 6455 has it. -/
structure WireFrame where
  fin : Bool
  rsv : Nat
  opcode : Nat
  masking : Option MaskKey
  payload : Bytes

/-- `n` bytes, and what is behind them. -/
def splitExactly (n : Nat) (bs : Bytes) : Option (Bytes × Bytes) :=
  if n ≤ bs.length then some (bs.take n, bs.drop n) else none

/-- The length of the payload: seven bits, or sixteen, or sixty-four with the top bit clear. Only the
shortest form is valid. -/
def parseLength (len7 : Nat) (bs : Bytes) : Option (Nat × Bytes) :=
  if len7 ≤ 125 then some (len7, bs)
  else do
    let (ext, rest) ← splitExactly (if len7 = 126 then 2 else 8) bs
    let n := fromBytes ext
    if len7 = 126 then
      if 126 ≤ n then some (n, rest) else none
    else if 65536 ≤ n ∧ n < 2 ^ 63 then some (n, rest) else none

def parseMask (masked : Bool) (bs : Bytes) : Option (Option MaskKey × Bytes) :=
  if masked then
    match bs with
    | k0 :: k1 :: k2 :: k3 :: rest => some (some ![k0, k1, k2, k3], rest)
    | _ => none
  else some (none, bs)

/-- One frame, and what is behind it. -/
def parseFrame : Bytes → Option (WireFrame × Bytes)
  | b0 :: b1 :: bs => do
      let (n, bs) ← parseLength (b1.toNat % 128) bs
      let (masking, bs) ← parseMask (b1.toNat / 128 = 1) bs
      let (data, rest) ← splitExactly n bs
      return (⟨b0.toNat / 128 = 1, b0.toNat / 16 % 8, b0.toNat % 16, masking,
        masking.elim data fun mask => applyMask mask data⟩, rest)
  | _ => none

/-- The bytes of the same frame without a mask. -/
def WireFrame.unmasked (f : WireFrame) : Bytes :=
  UInt8.ofNat (128 * f.fin.toNat + 16 * f.rsv + f.opcode) :: lengthBytes f.payload.length ++ f.payload

/-! ## §3 The parts of a frame -/

theorem fin_bits : ∀ opcode : Fin 16,
    (UInt8.ofNat (0x80 ||| opcode.val)).toNat = 128 + opcode.val := by
  decide +kernel

theorem masked_bits : ∀ n < 128, (UInt8.ofNat (0x80 ||| n)).toNat = 128 + n := by
  decide +kernel

/-- Behind the fin bit, the two halves of the first byte. -/
theorem seen_bits : ∀ opcode : Fin 16,
    UInt8.ofNat (128 + opcode.val) &&& 0x80 = 0x80 ∧
      UInt8.ofNat (128 + opcode.val) &&& 0x0F = UInt8.ofNat opcode.val := by
  decide +kernel

theorem length_applyMask (mask : MaskKey) (payload : Bytes) :
    (applyMask mask payload).length = payload.length := List.length_mapIdx

/-- **Masking twice** is not masking. -/
theorem applyMask_applyMask (mask : MaskKey) (payload : Bytes) :
    applyMask mask (applyMask mask payload) = payload := by
  unfold applyMask
  rw [List.mapIdx_mapIdx]
  apply List.ext_getElem
  · exact List.length_mapIdx
  · intro i _ _
    rw [List.getElem_mapIdx]
    show (payload[i] ^^^ mask (Fin.ofNat 4 i)) ^^^ mask (Fin.ofNat 4 i) = payload[i]
    rw [UInt8.xor_assoc, UInt8.xor_self, UInt8.xor_zero]

theorem splitExactly_append {n : Nat} {xs : Bytes} (h : xs.length = n) (rest : Bytes) :
    splitExactly n (xs ++ rest) = some (xs, rest) := by
  unfold splitExactly
  rw [if_pos (by rw [List.length_append]; omega), List.take_left' h, List.drop_left' h]

theorem parseMask_bytes (mask : MaskKey) (rest : Bytes) :
    parseMask true (mask.bytes ++ rest) = some (some mask, rest) := by
  have hkey : ![mask 0, mask 1, mask 2, mask 3] = mask := by
    funext i
    match i with
    | 0 => rfl
    | 1 => rfl
    | 2 => rfl
    | 3 => rfl
  show some (some ![mask 0, mask 1, mask 2, mask 3], rest) = _
  rw [hkey]

/-- **The length** stands in one of three forms, which are the same for client and server but for the
bit beside the seven. -/
theorem lengthBytes_forms {n : Nat} (h : n < 2 ^ 63) :
    ∃ len7 ext, len7 < 128 ∧ lengthBytes n = UInt8.ofNat len7 :: ext ∧
      (∀ rest, parseLength len7 (ext ++ rest) = some (n, rest)) ∧
      ∀ (opcode : Fin 16) (mask : MaskKey) (payload : Bytes), payload.length = n →
        sendPayload opcode mask payload = some (UInt8.ofNat (0x80 ||| opcode.val) ::
          UInt8.ofNat (0x80 ||| len7) :: (ext ++ (mask.bytes ++ applyMask mask payload))) := by
  by_cases hseven : n ≤ 125
  · refine ⟨n, [], by omega, ?_, ?_, ?_⟩
    · unfold lengthBytes
      rw [if_pos hseven]
    · intro rest
      unfold parseLength
      rw [if_pos hseven]
      rfl
    · rintro opcode mask payload rfl
      unfold sendPayload
      simp only [hseven, if_true, Option.bind_eq_bind, Option.bind_some, Option.pure_def]
      rfl
  by_cases hsixteen : n ≤ 0xFFFF
  · refine ⟨126, toBytes 2 n, by omega, ?_, ?_, ?_⟩
    · unfold lengthBytes
      rw [if_neg hseven, if_pos hsixteen]
      rfl
    · intro rest
      have hsplit := splitExactly_append (NetPulse.Lib.length_toBytes 2 n) rest
      have hread : fromBytes (toBytes 2 n) = n := NetPulse.Lib.fromBytes_toBytes (by omega)
      unfold parseLength
      simp only [Nat.reduceLeDiff, if_false, if_true, hsplit, Option.bind_eq_bind, Option.bind_some,
        hread]
      rw [if_pos (by omega)]
    · rintro opcode mask payload rfl
      unfold sendPayload
      simp only [hseven, hsixteen, if_true, if_false, Option.bind_eq_bind, Option.bind_some,
        Option.pure_def, List.append_assoc]
      rfl
  · refine ⟨127, toBytes 8 n, by omega, ?_, ?_, ?_⟩
    · unfold lengthBytes
      rw [if_neg hseven, if_neg hsixteen]
      rfl
    · intro rest
      have hsplit := splitExactly_append (NetPulse.Lib.length_toBytes 8 n) rest
      have hread : fromBytes (toBytes 8 n) = n := NetPulse.Lib.fromBytes_toBytes (by omega)
      unfold parseLength
      simp only [Nat.reduceLeDiff, Nat.reduceEqDiff, if_false, hsplit, Option.bind_eq_bind,
        Option.bind_some, hread]
      rw [if_pos ⟨by omega, h⟩]
    · rintro opcode mask payload rfl
      have hpack : packQ payload.length = some (toBytes 8 payload.length) := if_pos (by omega)
      unfold sendPayload
      simp only [hseven, hsixteen, if_false, hpack, Option.map_some, Option.bind_eq_bind,
        Option.bind_some, Option.pure_def, List.append_assoc]
      rfl

/-! ## §4 Both directions -/

/-- The bytes behind a header whose length is read as `n`. -/
theorem parseFrame_of_parts (b0 : UInt8) (rest : Bytes) {b1 : UInt8} {len7 n : Nat} {masked : Bool}
    {ext key data : Bytes} {masking : Option MaskKey} (hb1 : b1.toNat = 128 * masked.toNat + len7) (hlen7 : len7 < 128)
    (hlength : ∀ rest, parseLength len7 (ext ++ rest) = some (n, rest))
    (hmask : ∀ rest, parseMask masked (key ++ rest) = some (masking, rest))
    (hdata : data.length = n) :
    parseFrame (b0 :: b1 :: (ext ++ (key ++ data)) ++ rest) =
      some (⟨b0.toNat / 128 = 1, b0.toNat / 16 % 8, b0.toNat % 16, masking,
        masking.elim data fun mask => applyMask mask data⟩, rest) := by
  have hmod : b1.toNat % 128 = len7 := by omega
  have hbit : decide (b1.toNat / 128 = 1) = masked := by
    cases masked with
    | false => exact decide_eq_false (by rw [hb1]; show ¬ (128 * 0 + len7) / 128 = 1; omega)
    | true => exact decide_eq_true (by rw [hb1]; show (128 * 1 + len7) / 128 = 1; omega)
  rw [List.cons_append, List.cons_append, List.append_assoc, List.append_assoc]
  show ((parseLength (b1.toNat % 128) (ext ++ (key ++ (data ++ rest)))).bind fun _ => _) = _
  rw [hmod, hlength, Option.bind_some]
  show ((parseMask (decide (b1.toNat / 128 = 1)) (key ++ (data ++ rest))).bind fun _ => _) = _
  rw [hbit, hmask, Option.bind_some]
  show ((splitExactly n (data ++ rest)).bind fun _ => _) = _
  rw [splitExactly_append hdata, Option.bind_some]
  rfl

/-- The final frame with this opcode and payload. -/
def finalFrame (opcode : Fin 16) (masking : Option MaskKey) (payload : Bytes) : WireFrame :=
  ⟨true, 0, opcode.val, masking, payload⟩

theorem first_byte {b0 : UInt8} {opcode : Fin 16} (h : b0.toNat = 128 + opcode.val)
    (masking : Option MaskKey) (payload : Bytes) :
    (⟨b0.toNat / 128 = 1, b0.toNat / 16 % 8, b0.toNat % 16, masking, payload⟩ : WireFrame) =
      finalFrame opcode masking payload := by
  have hop := opcode.isLt
  have hfin : decide (b0.toNat / 128 = 1) = true := decide_eq_true (by omega)
  rw [hfin, show b0.toNat / 16 % 8 = 0 by omega, show b0.toNat % 16 = opcode.val by omega]
  rfl

/-- On every script that brings these bytes, however they are cut, `recv_frame` takes exactly them and
returns this, unless the script falls silent before it has brought them all. -/
def Receives (xs : Bytes) (r : Received) : Prop := Reads recvFrame xs r

/-- **Frames are well formed, and read back.** What `_send_payload` writes is one final frame of
RFC 6455 with this opcode, whose payload behind the mask is this payload; and the same frame without
a mask is one for `recv_frame`, which returns the fin bit, this opcode and this payload. -/
theorem framing (opcode : Fin 16) (mask : MaskKey) (payload : Payload) :
    ∃ m, sendPayload opcode mask payload.bytes = some m ∧
      (∀ rest, parseFrame (m ++ rest) =
        some (finalFrame opcode (some mask) payload.bytes, rest)) ∧
      (∀ rest, parseFrame ((finalFrame opcode (some mask) payload.bytes).unmasked ++ rest) =
        some (finalFrame opcode none payload.bytes, rest)) ∧
      Receives (finalFrame opcode (some mask) payload.bytes).unmasked
        (0x80, UInt8.ofNat opcode.val, payload.bytes) := by
  obtain ⟨len7, ext, hlen7, hforms, hlength, hsend⟩ := lengthBytes_forms payload.fits
  have hop := opcode.isLt
  refine ⟨_, hsend opcode mask payload.bytes rfl, ?_, ?_, ?_⟩
  · intro rest
    have hparse := parseFrame_of_parts (UInt8.ofNat (0x80 ||| opcode.val)) rest
      (masked_bits len7 hlen7) hlen7 hlength (parseMask_bytes mask)
      (length_applyMask mask payload.bytes)
    rw [hparse, Option.elim_some, applyMask_applyMask, first_byte (fin_bits opcode)]
  · intro rest
    have hb0 : (UInt8.ofNat (128 + opcode.val)).toNat = 128 + opcode.val := by
      rw [UInt8.toNat_ofNat']
      omega
    have hb1 : (UInt8.ofNat len7).toNat = 128 * false.toNat + len7 := by
      rw [UInt8.toNat_ofNat']
      show _ = 128 * 0 + len7
      omega
    have hmask (rest : Bytes) : parseMask false ([] ++ rest) = some (none, rest) := rfl
    have hparse := parseFrame_of_parts (UInt8.ofNat (128 + opcode.val)) rest hb1 hlen7 hlength hmask
      (rfl : payload.bytes.length = _)
    have hbytes : (finalFrame opcode (some mask) payload.bytes).unmasked =
        UInt8.ofNat (128 + opcode.val) :: UInt8.ofNat len7 :: (ext ++ ([] ++ payload.bytes)) := by
      show UInt8.ofNat (128 + opcode.val) :: lengthBytes payload.bytes.length ++ payload.bytes = _
      rw [hforms]
      rfl
    rw [hbytes, hparse, first_byte hb0]
    rfl
  · have hfits : payload.bytes.length < 2 ^ 64 := Nat.lt_trans payload.fits (by decide)
    have hreads := reads_recvFrame ⟨UInt8.ofNat (128 + opcode.val), payload.bytes, hfits⟩
    obtain ⟨hfin, hopcode⟩ := seen_bits opcode
    have hseen : Frame.seen ⟨UInt8.ofNat (128 + opcode.val), payload.bytes, hfits⟩ =
        (0x80, UInt8.ofNat opcode.val, payload.bytes) := by
      unfold Frame.seen
      rw [hfin, hopcode]
    rw [hseen] at hreads
    exact hreads

end NetPulse.Bridge
