import Mathlib.Data.List.Basic
import NetPulse.Lib.BigEndian

/-
# NetPulse.Bridge.WebSocket — how the bridge receives frames (`mesh.py`)

`_recv_loop` asks for one frame after the other. A frame is read in three stages, header, extended
length and payload, each with a loop of partial reads, and the timeout of the socket is caught
outside of all of them. A timeout throws away what the stages before it have read.

The socket is a script: segments of bytes, and silences that last past the timeout. Any cutting of
the bytes into segments, with silences anywhere, is one such script, and what `recvLoop` delivers
is a function of it. `delivered_iff` says which scripts lose nothing.
-/

namespace NetPulse.Bridge

open NetPulse.Lib (Bytes fromBytes toBytes)

/-! ## §1 The socket -/

/-- What the socket does next: it gives the bytes of a segment (at least one), or it stays silent
past its timeout. -/
inductive Arrival where
  | segment (first : UInt8) (more : Bytes)
  | silence

abbrev Wire := List Arrival

inductive Exn where
  | timeout
  | mesh (text : String)
  | other (text : String)

abbrev Reader := EStateM Exn Wire

/-- What is left of a segment stays in the socket. -/
def putBack : Bytes → Wire → Wire
  | [], w => w
  | b :: bs, w => .segment b bs :: w

/-- `sock.recv(n)`; at the end the server has closed the connection, and there is nothing. -/
def recv (n : Nat) : Reader Bytes
  | [] => .ok [] []
  | .silence :: w => .error .timeout w
  | .segment b bs :: w => .ok ((b :: bs).take n) (putBack ((b :: bs).drop n) w)

/-! ## §2 One frame -/

def closed : Exn := .mesh "WebSocket: соединение закрыто"

/-- The loop of `_read`. -/
def readLoop (n : Nat) (data : Bytes) : Reader Bytes :=
  if data.length < n then do
    match ← recv (n - data.length) with
    | [] => throw closed
    | b :: bs => readLoop n (data ++ b :: bs)
  else pure data
termination_by n - data.length
decreasing_by
  simp only [List.length_append, List.length_cons]
  omega

def read (n : Nat) : Reader Bytes := readLoop n []

/-- FIN, opcode and payload. -/
abbrev Received := UInt8 × UInt8 × Bytes

/-- The length of the payload, read from further bytes if the header says so. -/
def frameLength (ln : UInt8) : Reader Nat :=
  if ln = 126 then do return fromBytes (← read 2)
  else if ln = 127 then do return fromBytes (← read 8)
  else pure ln.toNat

def framePayload (ln : Nat) : Reader Bytes := if ln ≠ 0 then read ln else pure []

def recvFrame : Reader Received := do
  match ← read 2 with
  | [b0, b1] =>
      let ln ← frameLength (b1 &&& 0x7F)
      let payload ← framePayload ln
      return (b0 &&& 0x80, b0 &&& 0x0F, payload)
  | _ => throw (.other "ValueError")

/-! ## §3 What a script has in it -/

/-- All bytes that the socket will give. -/
def bytes : Wire → Bytes
  | [] => []
  | .silence :: w => bytes w
  | .segment b bs :: w => b :: bs ++ bytes w

/-- How many bytes come before each silence. -/
def silences : Wire → List Nat
  | [] => []
  | .silence :: w => 0 :: silences w
  | .segment _ bs :: w => (silences w).map (· + (bs.length + 1))

/-- Every step of a reader takes something away. -/
def weight : Wire → Nat
  | [] => 0
  | .silence :: w => 1 + weight w
  | .segment _ bs :: w => bs.length + 1 + weight w

/-- Exactly these bytes are taken, and no silence. -/
structure Takes (w : Wire) (bs : Bytes) (w' : Wire) : Prop where
  bytes : bytes w = bs ++ bytes w'
  silences : silences w = (silences w').map (· + bs.length)
  weight : weight w = bs.length + weight w'

theorem Takes.refl (w : Wire) : Takes w [] w :=
  ⟨rfl, by simp, by simp⟩

theorem Takes.trans {w₁ w₂ w₃ : Wire} {bs cs : Bytes} (h : Takes w₁ bs w₂) (h' : Takes w₂ cs w₃) :
    Takes w₁ (bs ++ cs) w₃ where
  bytes := by rw [h.bytes, h'.bytes, List.append_assoc]
  silences := by
    rw [h.silences, h'.silences, List.map_map, List.length_append]
    apply List.map_congr_left
    intro k _
    show k + cs.length + bs.length = k + (bs.length + cs.length)
    omega
  weight := by
    rw [h.weight, h'.weight, List.length_append]
    omega

theorem takes_putBack (bs : Bytes) (w : Wire) : Takes (putBack bs w) bs w := by
  cases bs with
  | nil => exact Takes.refl w
  | cons b bs => exact ⟨rfl, rfl, rfl⟩

theorem takes_segment (b : UInt8) (bs : Bytes) (w : Wire) (n : Nat) :
    Takes (.segment b bs :: w) ((b :: bs).take n) (putBack ((b :: bs).drop n) w) := by
  have hput := takes_putBack ((b :: bs).drop n) w
  have hlen : ((b :: bs).take n).length + ((b :: bs).drop n).length = bs.length + 1 := by
    rw [← List.length_append, List.take_append_drop, List.length_cons]
  constructor
  · rw [hput.bytes, ← List.append_assoc, List.take_append_drop]
    rfl
  · rw [hput.silences, List.map_map]
    apply List.map_congr_left
    intro k _
    show k + (bs.length + 1) = k + ((b :: bs).drop n).length + ((b :: bs).take n).length
    omega
  · rw [hput.weight]
    show bs.length + 1 + weight w = _
    omega

/-! ## §4 What a reader may do -/

/-- A reader over any script: it takes bytes and answers, or it takes bytes and is stopped by a
silence, or it takes all there is and fails. -/
def Costs {α : Type} (m : Reader α) (P : α → Bytes → Prop) : Prop :=
  ∀ w, (∃ a bs w', m w = .ok a w' ∧ Takes w bs w' ∧ P a bs) ∨
    (∃ bs w', m w = .error .timeout w' ∧ Takes w bs (.silence :: w')) ∨
    (∃ bs, m w = .error closed [] ∧ Takes w bs [])

theorem Costs.pure {α : Type} {a : α} {P : α → Bytes → Prop} (h : P a []) :
    Costs (pure a : Reader α) P :=
  fun w => Or.inl ⟨a, [], w, rfl, Takes.refl w, h⟩

theorem bind_ok {α β : Type} {m : Reader α} {k : α → Reader β} {w w' : Wire} {a : α}
    (h : m w = .ok a w') : (m >>= k) w = k a w' := by
  show EStateM.bind m k w = _
  unfold EStateM.bind
  rw [h]

theorem bind_error {α β : Type} {m : Reader α} {k : α → Reader β} {w w' : Wire} {e : Exn}
    (h : m w = .error e w') : (m >>= k) w = .error e w' := by
  show EStateM.bind m k w = _
  unfold EStateM.bind
  rw [h]

/-- One reader behind the other. -/
theorem Costs.bind {α β : Type} {m : Reader α} {k : α → Reader β} {P : α → Bytes → Prop}
    {Q : β → Bytes → Prop} (hm : Costs m P)
    (hk : ∀ a bs, P a bs → Costs (k a) fun b cs => Q b (bs ++ cs)) : Costs (m >>= k) Q := by
  intro w
  rcases hm w with ⟨a, bs, w₁, hok, htake, hP⟩ | ⟨bs, w₁, herr, htake⟩ | ⟨bs, herr, htake⟩
  · rcases hk a bs hP w₁ with ⟨b, cs, w₂, hok', htake', hQ⟩ | ⟨cs, w₂, herr', htake'⟩ |
      ⟨cs, herr', htake'⟩
    · exact Or.inl ⟨b, bs ++ cs, w₂, (bind_ok hok).trans hok', htake.trans htake', hQ⟩
    · exact Or.inr (Or.inl ⟨bs ++ cs, w₂, (bind_ok hok).trans herr', htake.trans htake'⟩)
    · exact Or.inr (Or.inr ⟨bs ++ cs, (bind_ok hok).trans herr', htake.trans htake'⟩)
  · exact Or.inr (Or.inl ⟨bs, w₁, bind_error herr, htake⟩)
  · exact Or.inr (Or.inr ⟨bs, bind_error herr, htake⟩)

theorem Costs.mono {α : Type} {m : Reader α} {P Q : α → Bytes → Prop} (h : Costs m P)
    (hPQ : ∀ a bs, P a bs → Q a bs) : Costs m Q := by
  intro w
  rcases h w with ⟨a, bs, w', hok, htake, hP⟩ | hrest
  · exact Or.inl ⟨a, bs, w', hok, htake, hPQ a bs hP⟩
  · exact Or.inr hrest

theorem readLoop_done {n : Nat} {data : Bytes} (h : ¬ data.length < n) :
    readLoop n data = pure data := by
  rw [readLoop, if_neg h]

theorem readLoop_nil {n : Nat} {data : Bytes} (h : data.length < n) :
    readLoop n data [] = .error closed [] := by
  rw [readLoop, if_pos h]
  rfl

theorem readLoop_silence {n : Nat} {data : Bytes} (h : data.length < n) (w : Wire) :
    readLoop n data (.silence :: w) = .error .timeout w := by
  rw [readLoop, if_pos h]
  rfl

theorem readLoop_segment {n : Nat} {data : Bytes} (h : data.length < n) (b : UInt8) (bs : Bytes)
    (w : Wire) : readLoop n data (.segment b bs :: w) =
      readLoop n (data ++ (b :: bs).take (n - data.length))
        (putBack ((b :: bs).drop (n - data.length)) w) := by
  have hpos : n - data.length = (n - data.length - 1) + 1 := by omega
  rw [readLoop, if_pos h, bind_ok (show recv _ (.segment b bs :: w) = _ from rfl), hpos,
    List.take_succ_cons]

/-- `_read(n)` takes as many bytes as are still missing, or it is stopped before it has them. -/
theorem readLoop_spec (n : Nat) (data : Bytes) (h : data.length ≤ n) (w : Wire) :
    (∃ bs w', readLoop n data w = .ok (data ++ bs) w' ∧ Takes w bs w' ∧
        data.length + bs.length = n) ∨
      (∃ bs w', readLoop n data w = .error .timeout w' ∧ Takes w bs (.silence :: w') ∧
        data.length + bs.length < n) ∨
      (∃ bs, readLoop n data w = .error closed [] ∧ Takes w bs [] ∧ data.length + bs.length < n) := by
  induction hk : n - data.length using Nat.strongRecOn generalizing data w with
  | ind k ih =>
      by_cases hlt : data.length < n
      · cases w with
        | nil => exact Or.inr (Or.inr ⟨[], readLoop_nil hlt, Takes.refl _, hlt⟩)
        | cons a w =>
            cases a with
            | silence => exact Or.inr (Or.inl ⟨[], w, readLoop_silence hlt w, Takes.refl _, hlt⟩)
            | segment b bs =>
                -- one `recv`: at least one byte, at most what is missing
                have hlen : ((b :: bs).take (n - data.length)).length =
                    min (n - data.length) (bs.length + 1) := by
                  rw [List.length_take, List.length_cons]
                have htake := takes_segment b bs w (n - data.length)
                rw [readLoop_segment hlt]
                rcases ih (n - (data ++ (b :: bs).take (n - data.length)).length)
                    (by rw [List.length_append]; omega) (data ++ (b :: bs).take (n - data.length))
                    (by rw [List.length_append]; omega) _ rfl with
                  ⟨cs, w', hok, htake', hn⟩ | ⟨cs, w', herr, htake', hn⟩ | ⟨cs, herr, htake', hn⟩
                · refine Or.inl ⟨_, w', ?_, htake.trans htake', ?_⟩
                  · rw [hok, List.append_assoc]
                  · rw [List.length_append] at hn ⊢
                    omega
                · refine Or.inr (Or.inl ⟨_, w', herr, htake.trans htake', ?_⟩)
                  rw [List.length_append] at hn ⊢
                  omega
                · refine Or.inr (Or.inr ⟨_, herr, htake.trans htake', ?_⟩)
                  rw [List.length_append] at hn ⊢
                  omega
      · rw [readLoop_done hlt]
        refine Or.inl ⟨[], w, ?_, Takes.refl w, ?_⟩
        · rw [List.append_nil]
          rfl
        · show data.length + 0 = n
          omega

theorem costs_read (n : Nat) : Costs (read n) fun out bs => out = bs ∧ out.length = n := by
  intro w
  rcases readLoop_spec n [] (Nat.zero_le n) w with ⟨bs, w', hok, htake, hn⟩ |
    ⟨bs, w', herr, htake, _⟩ | ⟨bs, herr, htake, _⟩
  · exact Or.inl ⟨bs, bs, w', hok, htake, rfl, by rw [← hn, List.length_nil, Nat.zero_add]⟩
  · exact Or.inr (Or.inl ⟨bs, w', herr, htake⟩)
  · exact Or.inr (Or.inr ⟨bs, herr, htake⟩)

/-! ## §5 The frames of the server -/

/-- An unmasked frame: the byte with FIN and the opcode, and the payload. -/
structure Frame where
  b0 : UInt8
  payload : Bytes
  fits : payload.length < 2 ^ 64

/-- The length of a payload, in the shortest form. -/
def lengthBytes (n : Nat) : Bytes :=
  if n ≤ 125 then [UInt8.ofNat n]
  else if n ≤ 0xFFFF then 126 :: toBytes 2 n
  else 127 :: toBytes 8 n

def Frame.bytes (f : Frame) : Bytes := f.b0 :: lengthBytes f.payload.length ++ f.payload

/-- The frame as `recv_frame` returns it. -/
def Frame.seen (f : Frame) : Received := (f.b0 &&& 0x80, f.b0 &&& 0x0F, f.payload)

/-- The fewest bytes a frame can be sent in. -/
def minimal (r : Received) : Nat := 1 + (lengthBytes r.2.2.length).length + r.2.2.length

theorem length_bytes (f : Frame) : f.bytes.length = minimal f.seen := by
  show (f.b0 :: lengthBytes f.payload.length ++ f.payload).length =
    1 + (lengthBytes f.payload.length).length + f.payload.length
  rw [List.cons_append, List.length_cons, List.length_append]
  omega

theorem length_lengthBytes_le (n : Nat) : (lengthBytes n).length ≤ 9 := by
  have htwo := NetPulse.Lib.length_toBytes 2 n
  have height := NetPulse.Lib.length_toBytes 8 n
  unfold lengthBytes
  split_ifs with h₁ h₂
  · exact Nat.le_of_ble_eq_true rfl
  · show (toBytes 2 n).length + 1 ≤ 9
    omega
  · show (toBytes 8 n).length + 1 ≤ 9
    omega

theorem length_lengthBytes_le_three {n : Nat} (h : n < 65536) : (lengthBytes n).length ≤ 3 := by
  have htwo := NetPulse.Lib.length_toBytes 2 n
  unfold lengthBytes
  rw [if_pos (show n ≤ 0xFFFF by omega)]
  split_ifs
  · exact Nat.le_of_ble_eq_true rfl
  · show (toBytes 2 n).length + 1 ≤ 3
    omega

theorem length_lengthBytes_small {n : Nat} (h : n ≤ 125) : (lengthBytes n).length = 1 := by
  unfold lengthBytes
  rw [if_pos h, List.length_singleton]

theorem seven_bits : ∀ b < 256, (UInt8.ofNat b &&& 0x7F).toNat < 128 := by
  decide +kernel

theorem seven_bits_lt (b : UInt8) : (b &&& 0x7F).toNat < 128 := by
  have h := seven_bits b.toNat b.toNat_lt
  rwa [UInt8.ofNat_toNat] at h

theorem costs_frameLength (b1 : UInt8) : Costs (frameLength (b1 &&& 0x7F)) fun n cs =>
    (lengthBytes n).length ≤ 1 + cs.length := by
  unfold frameLength
  split_ifs with h126 h127
  · apply Costs.bind (costs_read 2)
    rintro out bs ⟨rfl, hlen⟩
    apply Costs.pure
    have hlt := NetPulse.Lib.fromBytes_lt out
    rw [hlen] at hlt
    have hle := length_lengthBytes_le_three hlt
    rw [List.append_nil]
    omega
  · apply Costs.bind (costs_read 8)
    rintro out bs ⟨rfl, hlen⟩
    apply Costs.pure
    have hle := length_lengthBytes_le (fromBytes out)
    rw [List.append_nil]
    omega
  · apply Costs.pure
    have hlt := seven_bits_lt b1
    have hne126 : (b1 &&& 0x7F).toNat ≠ 126 := fun h => h126 (UInt8.toNat.inj h)
    have hne127 : (b1 &&& 0x7F).toNat ≠ 127 := fun h => h127 (UInt8.toNat.inj h)
    rw [length_lengthBytes_small (by omega)]
    omega

theorem costs_framePayload (ln : Nat) : Costs (framePayload ln) fun out ds =>
    out.length = ln ∧ ds.length = ln := by
  unfold framePayload
  split_ifs with h
  · apply (costs_read ln).mono
    rintro out ds ⟨rfl, hout⟩
    exact ⟨hout, hout⟩
  · have hzero : ln = 0 := not_not.mp h
    subst hzero
    exact Costs.pure ⟨rfl, rfl⟩

/-- **No frame is delivered for fewer bytes than it needs.** -/
theorem costs_recvFrame : Costs recvFrame fun r bs => minimal r ≤ bs.length := by
  unfold recvFrame
  apply Costs.bind (costs_read 2)
  rintro hdr bs ⟨rfl, hlen⟩
  obtain ⟨b0, b1, rfl⟩ : ∃ b0 b1, hdr = [b0, b1] := List.length_eq_two.mp hlen
  apply Costs.bind (costs_frameLength b1)
  intro ln cs hcs
  apply Costs.bind (costs_framePayload ln)
  rintro out ds ⟨hout, hds⟩
  apply Costs.pure
  show 1 + (lengthBytes out.length).length + out.length ≤ _
  rw [hout]
  simp only [List.length_append, List.length_cons, List.length_nil]
  omega

/-! ## §6 What a reader does at the start of a frame -/

/-- On a script that starts with these bytes, the reader takes them and answers, or a silence stops
it before it has them all. -/
def Reads {α : Type} (m : Reader α) (xs : Bytes) (a : α) : Prop :=
  ∀ w rest, bytes w = xs ++ rest → (∃ w', m w = .ok a w' ∧ Takes w xs w') ∨
    (∃ bs w', m w = .error .timeout w' ∧ Takes w bs (.silence :: w') ∧ bs.length < xs.length)

theorem Reads.pure {α : Type} (a : α) : Reads (pure a : Reader α) [] a :=
  fun w _ _ => Or.inl ⟨w, rfl, Takes.refl w⟩

theorem Reads.bind {α β : Type} {m : Reader α} {k : α → Reader β} {xs ys : Bytes} {a : α} {b : β}
    (hm : Reads m xs a) (hk : Reads (k a) ys b) : Reads (m >>= k) (xs ++ ys) b := by
  intro w rest hw
  rw [List.append_assoc] at hw
  rcases hm w _ hw with ⟨w₁, hok, htake⟩ | ⟨bs, w₁, herr, htake, hlt⟩
  · have hrest : bytes w₁ = ys ++ rest := by
      rw [htake.bytes] at hw
      exact List.append_cancel_left hw
    rcases hk w₁ rest hrest with ⟨w₂, hok', htake'⟩ | ⟨cs, w₂, herr', htake', hlt'⟩
    · exact Or.inl ⟨w₂, (bind_ok hok).trans hok', htake.trans htake'⟩
    · refine Or.inr ⟨xs ++ cs, w₂, (bind_ok hok).trans herr', htake.trans htake', ?_⟩
      rw [List.length_append, List.length_append]
      omega
  · refine Or.inr ⟨bs, w₁, bind_error herr, htake, ?_⟩
    rw [List.length_append]
    omega

theorem reads_read (xs : Bytes) : Reads (read xs.length) xs xs := by
  intro w rest hw
  rcases readLoop_spec xs.length [] (Nat.zero_le _) w with ⟨bs, w', hok, htake, hn⟩ |
    ⟨bs, w', herr, htake, hn⟩ | ⟨bs, herr, htake, hn⟩
  · rw [List.length_nil, Nat.zero_add] at hn
    -- as many bytes, at the same place of the script
    have hsame : bs = xs := by
      rw [htake.bytes] at hw
      exact (List.append_inj hw hn).1
    subst hsame
    exact Or.inl ⟨w', hok, htake⟩
  · rw [List.length_nil, Nat.zero_add] at hn
    exact Or.inr ⟨bs, w', herr, htake, hn⟩
  · -- the script ends too early for that
    rw [htake.bytes] at hw
    have hlen := congrArg List.length hw
    have hnil : (bytes []).length = 0 := rfl
    rw [List.length_append, List.length_append, hnil] at hlen
    rw [List.length_nil] at hn
    omega

theorem seven_bits_small : ∀ n < 128, UInt8.ofNat n &&& 0x7F = UInt8.ofNat n := by
  decide +kernel

theorem reads_number {k n : Nat} (h : n < 256 ^ k) :
    Reads (do return fromBytes (← read k)) (toBytes k n) n := by
  have hread := reads_read (toBytes k n)
  rw [NetPulse.Lib.length_toBytes] at hread
  rw [← List.append_nil (toBytes k n)]
  apply Reads.bind hread
  rw [NetPulse.Lib.fromBytes_toBytes h]
  exact Reads.pure n

/-- The three forms of the length are read back. -/
theorem reads_frameLength {n : Nat} (h : n < 2 ^ 64) :
    ∃ b1 ext, lengthBytes n = b1 :: ext ∧ Reads (frameLength (b1 &&& 0x7F)) ext n := by
  unfold lengthBytes
  split_ifs with h₁ h₂
  · -- the length stands in the second byte of the header, and is neither 126 nor 127
    refine ⟨_, [], rfl, ?_⟩
    rw [seven_bits_small n (by omega)]
    have hnat : (UInt8.ofNat n).toNat = n := by
      rw [UInt8.toNat_ofNat']
      omega
    have hne : ∀ k : UInt8, 125 < k.toNat → UInt8.ofNat n ≠ k := by
      rintro k hk rfl
      omega
    unfold frameLength
    rw [if_neg (hne 126 (by decide)), if_neg (hne 127 (by decide)), hnat]
    exact Reads.pure n
  · exact ⟨126, toBytes 2 n, rfl, reads_number (by omega)⟩
  · exact ⟨127, toBytes 8 n, rfl, reads_number (by omega)⟩

theorem reads_framePayload (xs : Bytes) : Reads (framePayload xs.length) xs xs := by
  unfold framePayload
  split_ifs with h
  · exact reads_read xs
  · have hnil : xs = [] := List.length_eq_zero_iff.mp (not_not.mp h)
    subst hnil
    exact Reads.pure []

/-- **At the start of a frame, `recv_frame` reads this frame**, unless a silence stops it. -/
theorem reads_recvFrame (f : Frame) : Reads recvFrame f.bytes f.seen := by
  obtain ⟨b1, ext, hlen, hreads⟩ := reads_frameLength f.fits
  have hbytes : f.bytes = [f.b0, b1] ++ (ext ++ (f.payload ++ [])) := by
    rw [List.append_nil]
    show f.b0 :: lengthBytes f.payload.length ++ f.payload = _
    rw [hlen]
    rfl
  rw [hbytes]
  unfold recvFrame
  apply Reads.bind (reads_read [f.b0, b1])
  apply Reads.bind hreads
  apply Reads.bind (reads_framePayload f.payload)
  exact Reads.pure f.seen

/-! ## §7 The receive loop -/

/-- What `_recv_loop` does with a frame: an exception ends the loop. `onPack` says which one the
payload of a binary frame leads to in `_on_pack`, if any. -/
def handle (onPack : Bytes → Option Exn) (r : Received) : Option Exn :=
  if r.2.1 = 0x9 then none        -- ping -> pong
  else if r.2.1 = 0x8 then some (.mesh "WS: закрыто сервером")
  else if r.2.1 = 0xA then none   -- pong
  else if r.2.1 ≠ 0x2 ∨ r.1 = 0 then none  -- not binary, or a fragment
  else onPack r.2.2

theorem two_le_minimal (r : Received) : 2 ≤ minimal r := by
  have hne : 1 ≤ (lengthBytes r.2.2.length).length := by
    unfold lengthBytes
    split_ifs <;> exact Nat.le_add_left 1 _
  unfold minimal
  omega

theorem weight_of_ok {w w' : Wire} {r : Received} (h : recvFrame w = .ok r w') :
    weight w' < weight w := by
  rcases costs_recvFrame w with ⟨r', bs, w₁, hok, htake, hcost⟩ | ⟨bs, w₁, herr, _⟩ | ⟨bs, herr, _⟩
  · rw [h] at hok
    cases hok
    have htwo := two_le_minimal r
    have hweight := htake.weight
    omega
  · rw [h] at herr
    cases herr
  · rw [h] at herr
    cases herr

theorem weight_of_timeout {w w' : Wire} (h : recvFrame w = .error .timeout w') :
    weight w' < weight w := by
  rcases costs_recvFrame w with ⟨r', bs, w₁, hok, _⟩ | ⟨bs, w₁, herr, htake⟩ | ⟨bs, herr, _⟩
  · rw [h] at hok
    cases hok
  · rw [h] at herr
    cases herr
    have hweight : weight w = bs.length + (1 + weight w') := htake.weight
    omega
  · rw [h] at herr
    cases herr

/-- `_recv_loop`: the frames it gets, and the exception that ends it. -/
def recvLoop (onPack : Bytes → Option Exn) (w : Wire) : List Received × Exn :=
  match _h : recvFrame w with
  | .ok r w' =>
      match handle onPack r with
      | some e => ([r], e)
      | none => (r :: (recvLoop onPack w').1, (recvLoop onPack w').2)
  | .error .timeout w' => recvLoop onPack w'
  | .error e _ => ([], e)
termination_by weight w
decreasing_by
  · exact weight_of_ok _h
  · exact weight_of_timeout _h

variable {onPack : Bytes → Option Exn}

/-- A frame is kept, and the loop goes on unless its handling raises. -/
theorem recvLoop_ok {w w' : Wire} {r : Received} (h : recvFrame w = .ok r w') :
    recvLoop onPack w =
      (handle onPack r).elim (r :: (recvLoop onPack w').1, (recvLoop onPack w').2)
        fun e => ([r], e) := by
  rw [recvLoop]
  split
  · rename_i r' w₁ h'
    rw [h] at h'
    cases h'
    cases handle onPack r with
    | none => rfl
    | some e => rfl
  · rename_i w₁ h'
    rw [h] at h'
    cases h'
  · rename_i e' w₁ _ h'
    rw [h] at h'
    cases h'

theorem recvLoop_ends {w w' : Wire} {r : Received} {e : Exn} (h : recvFrame w = .ok r w')
    (he : handle onPack r = some e) : recvLoop onPack w = ([r], e) := by
  rw [recvLoop_ok h, he]
  rfl

theorem recvLoop_goes_on {w w' : Wire} {r : Received} (h : recvFrame w = .ok r w')
    (he : handle onPack r = none) : (recvLoop onPack w).1 = r :: (recvLoop onPack w').1 := by
  rw [recvLoop_ok h, he]
  rfl

theorem recvLoop_timeout {w w' : Wire} (h : recvFrame w = .error .timeout w') :
    recvLoop onPack w = recvLoop onPack w' := by
  rw [recvLoop]
  split
  · rename_i r' w₁ h'
    rw [h] at h'
    cases h'
  · rename_i w₁ h'
    rw [h] at h'
    cases h'
    rfl
  · rename_i e' w₁ hne h'
    rw [h] at h'
    cases h'
    exact absurd rfl hne

theorem recvLoop_closed {w : Wire} (h : recvFrame w = .error closed []) :
    recvLoop onPack w = ([], closed) := by
  rw [recvLoop]
  split
  · rename_i r' w₁ h'
    rw [h] at h'
    cases h'
  · rename_i w₁ h'
    rw [h] at h'
    cases h'
  · rename_i e' w₁ _ h'
    rw [h] at h'
    cases h'
    rfl

/-! ## §8 What is delivered -/

/-- After how many bytes a frame begins or the last one ends. -/
def boundaries : List Frame → List Nat
  | [] => [0]
  | f :: rest => 0 :: (boundaries rest).map (· + f.bytes.length)

theorem zero_mem_boundaries (sent : List Frame) : 0 ∈ boundaries sent := by
  cases sent with
  | nil => exact List.mem_singleton_self 0
  | cons f rest => exact List.mem_cons_self

theorem mem_boundaries_cons {f : Frame} {rest : List Frame} {n : Nat} :
    n ∈ boundaries (f :: rest) ↔ n = 0 ∨ ∃ m ∈ boundaries rest, m + f.bytes.length = n := by
  show n ∈ 0 :: (boundaries rest).map (· + f.bytes.length) ↔ _
  rw [List.mem_cons, List.mem_map]

theorem silences_le {w : Wire} {n : Nat} (h : n ∈ silences w) : n ≤ (bytes w).length := by
  induction w generalizing n with
  | nil => cases h
  | cons a w ih =>
      cases a with
      | silence =>
          rcases List.mem_cons.mp h with rfl | h
          · exact Nat.zero_le _
          · exact ih h
      | segment b bs =>
          obtain ⟨m, hm, rfl⟩ := List.mem_map.mp h
          have hle := ih hm
          show m + (bs.length + 1) ≤ (b :: bs ++ bytes w).length
          rw [List.length_append, List.length_cons]
          omega

/-- **The bytes pay for what is delivered**, whatever the script. -/
theorem sum_minimal_le (w : Wire) :
    ((recvLoop onPack w).1.map minimal).sum ≤ (bytes w).length := by
  induction hk : weight w using Nat.strongRecOn generalizing w with
  | ind k ih =>
      subst hk
      rcases costs_recvFrame w with ⟨r, bs, w', hok, htake, hcost⟩ | ⟨bs, w', herr, htake⟩ |
        ⟨bs, herr, htake⟩
      · -- a frame is paid for by the bytes it was read from
        have hlen := congrArg List.length htake.bytes
        rw [List.length_append] at hlen
        cases he : handle onPack r with
        | some e =>
            rw [recvLoop_ends hok he]
            show minimal r + 0 ≤ _
            omega
        | none =>
            have hrest := ih _ (weight_of_ok hok) w' rfl
            rw [recvLoop_goes_on hok he, List.map_cons, List.sum_cons]
            omega
      · -- the bytes before a timeout pay for nothing
        have hlen := congrArg List.length htake.bytes
        rw [List.length_append] at hlen
        have hrest := ih _ (weight_of_timeout herr) w' rfl
        rw [recvLoop_timeout herr]
        exact Nat.le_trans hrest (by rw [hlen]; exact Nat.le_add_left _ _)
      · rw [recvLoop_closed herr]
        exact Nat.zero_le _

theorem sum_minimal_seen (sent : List Frame) :
    ((sent.map Frame.seen).map minimal).sum = ((sent.map Frame.bytes).flatten).length := by
  induction sent with
  | nil => rfl
  | cons f rest ih =>
      simp only [List.map_cons, List.sum_cons, List.flatten_cons, List.length_append] at ih ⊢
      rw [ih, length_bytes]

/-- With a byte lost, not all frames are delivered. -/
theorem delivered_ne {sent : List Frame} {w : Wire}
    (h : (bytes w).length < ((sent.map Frame.bytes).flatten).length) :
    (recvLoop onPack w).1 ≠ sent.map Frame.seen := by
  intro heq
  have hle : ((recvLoop onPack w).1.map minimal).sum ≤ (bytes w).length := sum_minimal_le w
  rw [heq, sum_minimal_seen] at hle
  omega

/-- With nothing sent, nothing is delivered. -/
theorem delivered_nil {w : Wire} (h : bytes w = []) : (recvLoop onPack w).1 = [] := by
  have hle : ((recvLoop onPack w).1.map minimal).sum ≤ (bytes w).length := sum_minimal_le w
  rw [h] at hle
  cases hout : (recvLoop onPack w).1 with
  | nil => rfl
  | cons r rest =>
      rw [hout, List.map_cons, List.sum_cons] at hle
      have htwo := two_le_minimal r
      have hnil : ([] : Bytes).length = 0 := rfl
      omega

theorem forall_dropLast_cons {P : Frame → Prop} {f : Frame} {rest : List Frame} :
    (∀ g ∈ (f :: rest).dropLast, P g) ↔ (rest ≠ [] → P f) ∧ ∀ g ∈ rest.dropLast, P g := by
  cases rest with
  | nil => simp
  | cons g rest => simp

theorem length_bytes_pos (f : Frame) : 0 < f.bytes.length := by
  have htwo := two_le_minimal f.seen
  rw [length_bytes]
  omega

/-- Behind a whole frame, the silences strike between frames as before. -/
theorem silences_behind_frame {f : Frame} {rest : List Frame} {w w' : Wire}
    (h : Takes w f.bytes w') : (∀ n ∈ silences w, n ∈ boundaries (f :: rest)) ↔
      ∀ n ∈ silences w', n ∈ boundaries rest := by
  have hpos := length_bytes_pos f
  rw [h.silences]
  constructor
  · intro hall n hn
    rcases mem_boundaries_cons.mp (hall _ (List.mem_map_of_mem hn)) with hzero | ⟨m, hm, hsame⟩
    · omega
    · have hmn : m = n := by omega
      rwa [hmn] at hm
  · intro hall n hn
    obtain ⟨m, hm, rfl⟩ := List.mem_map.mp hn
    exact mem_boundaries_cons.mpr (Or.inr ⟨m, hall m hm, rfl⟩)

/-- A silence inside of a frame is no boundary. -/
theorem not_mem_boundaries {f : Frame} {rest : List Frame} {n : Nat} (hpos : 0 < n)
    (hlt : n < f.bytes.length) : n ∉ boundaries (f :: rest) := by
  intro hn
  rcases mem_boundaries_cons.mp hn with hzero | ⟨m, _, hm⟩ <;> omega

/-- **What the loop delivers is what was sent** exactly when every timeout strikes between two
frames, and no frame but the last ends the loop. -/
theorem delivered_iff (onPack : Bytes → Option Exn) (sent : List Frame) (w : Wire)
    (h : bytes w = (sent.map Frame.bytes).flatten) :
    (recvLoop onPack w).1 = sent.map Frame.seen ↔
      (∀ f ∈ sent.dropLast, handle onPack f.seen = none) ∧
        ∀ n ∈ silences w, n ∈ boundaries sent := by
  induction hk : weight w using Nat.strongRecOn generalizing w sent with
  | ind k ih =>
      subst hk
      cases sent with
      | nil =>
          refine ⟨fun _ => ⟨fun f hf => (by cases hf), fun n hn => ?_⟩, fun _ => delivered_nil h⟩
          have hle := silences_le hn
          rw [h] at hle
          have hzero : n = 0 := Nat.le_zero.mp hle
          rw [hzero]
          exact zero_mem_boundaries []
      | cons f rest =>
          have hwhole := h
          rw [List.map_cons, List.flatten_cons] at h
          rcases reads_recvFrame f w _ h with ⟨w', hok, htake⟩ | ⟨bs, w', herr, htake, hlt⟩
          · -- the frame is read
            have hbytes : bytes w' = (rest.map Frame.bytes).flatten := by
              rw [htake.bytes] at h
              exact List.append_cancel_left h
            rw [forall_dropLast_cons, silences_behind_frame htake, List.map_cons, and_assoc]
            have hrest := ih _ (weight_of_ok hok) rest w' hbytes rfl
            cases he : handle onPack f.seen with
            | none =>
                rw [recvLoop_goes_on hok he, ← hrest, List.cons.injEq]
                simp
            | some e =>
                rw [recvLoop_ends hok he, ← hrest]
                cases rest with
                | nil => simp [delivered_nil hbytes]
                | cons g rest => simp
          · -- a silence strikes before the frame is complete
            have hsil : silences w = (0 :: silences w').map (· + bs.length) := htake.silences
            rw [recvLoop_timeout herr]
            cases bs with
            | nil =>
                -- nothing was taken: the loop is at the same frame as before
                have hsame : bytes w' = bytes w := htake.bytes.symm
                have hrest := ih _ (weight_of_timeout herr) (f :: rest) w' (hsame.trans hwhole) rfl
                have hzero := zero_mem_boundaries (f :: rest)
                rw [hrest, hsil]
                simp [hzero]
            | cons b bs =>
                -- the bytes that were taken are gone, and they were needed
                have hlost : (bytes w').length < (((f :: rest).map Frame.bytes).flatten).length := by
                  rw [← hwhole, htake.bytes]
                  show (bytes w').length < (b :: bs ++ bytes w').length
                  rw [List.length_append, List.length_cons]
                  omega
                have hmem : (b :: bs).length ∈ silences w := by
                  rw [hsil, List.map_cons, Nat.zero_add]
                  exact List.mem_cons_self
                exact iff_of_false (delivered_ne hlost) fun hall =>
                  not_mem_boundaries (Nat.succ_pos _) hlt (hall.2 _ hmem)

/-- A frame of three bytes. -/
def three : Frame := ⟨0x82, [0x07], by decide⟩

/-- Two frames, in pieces and with a timeout between them. -/
theorem delivered_in_pieces :
    (recvLoop (fun _ => none) [.segment 0x82 [], .segment 0x01 [0x07], .silence,
      .segment 0x82 [0x01, 0x07]]).1 = [three.seen, three.seen] := by
  refine (delivered_iff (fun _ => none) [three, three] _ (by decide)).mpr ⟨?_, ?_⟩
  · intro f hf
    have hthree : f = three := List.mem_singleton.mp hf
    rw [hthree]
    decide
  · decide

/-- A timeout behind the header of a frame: the header is lost, and its payload is taken for a
frame that nobody sent. -/
theorem timeout_inside_frame_loses :
    let sent : List Frame := [⟨0x82, [0x82, 0x00], by decide⟩]
    let w : Wire := [.segment 0x82 [0x02], .silence, .segment 0x82 [0x00]]
    bytes w = (sent.map Frame.bytes).flatten ∧
      (recvLoop (fun _ => none) w).1 = [(0x80, 0x02, [])] ∧
      (recvLoop (fun _ => none) w).1 ≠ sent.map Frame.seen := by
  refine ⟨by decide, ?_, ?_⟩ <;> decide +kernel

end NetPulse.Bridge
