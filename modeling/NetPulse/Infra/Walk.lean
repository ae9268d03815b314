import NetPulse.Infra.Response

/-
# NetPulse.Infra.Walk — GETNEXT and the walk (`l2map.py`)

`snmp_getnext` writes one request, and reads what comes back under a `try`. `snmp_walk` asks for what
comes behind a base, behind the answer to that, and so on, as long as the answers begin with the text
of the base.

Here are the functions, and what they do with a message: which requests are written as they should be
(`packet_short`, `packet_long`), and what is read from an answer with one variable (`readGetnext_reply`).
-/

namespace NetPulse.Infra.Walk

open NetPulse.Lib (Bytes Text fromBytes)

/-! ## §1 `snmp_getnext` -/

/-- The packet; `none` is a `ValueError`. -/
def packet (community oid : String) (reqId : Nat) : Option Bytes := do
  let varbind ← tlv 0x30 ((← oidEnc oid) ++ (← tlv 0x05 []))
  let pdu ← tlv 0xA1
    ((← intEnc reqId) ++ (← intEnc 0) ++ (← intEnc 0) ++ (← tlv 0x30 varbind))
  tlv 0x30 ((← intEnc 1) ++ (← octet community) ++ pdu)

abbrev Pairs := List (String × SnmpValue)

/-- The loop over the list of variables. -/
def pairs (vblist : Bytes) (q : Nat) (out : Pairs) : Except PyError Pairs :=
  if q < vblist.length then
    match _h : tlvParse vblist q with
    | none => .error .indexError
    | some (tag1, c1, q') =>
        if tag1 ≠ 0x30 then .ok out
        else do
          let (_, oidC, q2) ← tlvAt c1 0
          let (vtag, vraw, _) ← tlvAt c1 q2
          let oid ← oidDec oidC
          pairs vblist q' (out ++ [(oid, valConvert vtag vraw)])
  else .ok out
termination_by vblist.length - q
decreasing_by
  have hlt := lt_of_tlvParse _h
  omega

/-- What stands under the `try`: the last identifier, and all pairs. -/
def readGetnext (data : Bytes) : Except PyError (Option String × Pairs) := do
  let (_, outer, _) ← tlvAt data 0
  let (_, _, pos) ← tlvAt outer 0
  let (_, _, pos) ← tlvAt outer pos
  let (_, pduC, _) ← tlvAt outer pos
  let (_, _, p) ← tlvAt pduC 0
  let (_, err, p) ← tlvAt pduC p
  let (_, _, p) ← tlvAt pduC p
  let (vtag, vblist, _) ← tlvAt pduC p
  if vtag ≠ 0x30 ∨ fromBytes err ≠ 0 then return (none, [])
  let out ← pairs vblist 0 []
  return (out.getLast?.map Prod.fst, out)

/-- `snmp_getnext`, of a network that brings an answer to a datagram or none. -/
def snmp_getnext (send : Bytes → Option Bytes) (community oid : String) (reqId : Nat) :
    Except PyError (Option String × Pairs) :=
  match packet community oid reqId with
  | none => .error .valueError
  | some datagram =>
      match send datagram with
      | none => .ok (none, [])
      | some data =>
          match readGetnext data with
          | .ok answer => .ok answer
          | .error _ => .ok (none, [])

/-! ## §2 `snmp_walk` -/

/-- `s.startswith(start)` -/
def startswith (s start : String) : Bool := start.toList.isPrefixOf s.toList

/-- The loop over the pairs, and whether it has come to the limit. -/
def collect (base : String) (limit : Nat) : Pairs → Pairs → Pairs × Bool
  | [], result => (result, false)
  | (oid, val) :: rest, result =>
      if ¬ startswith oid (base ++ ".") then collect base limit rest result
      else if limit ≤ (result ++ [(oid, val)]).length then (result ++ [(oid, val)], true)
      else collect base limit rest (result ++ [(oid, val)])

/-- The loop, with so many turns left. -/
def walkLoop (getnext : Nat → String → Except PyError (Option String × Pairs)) (base : String)
    (limit : Nat) : Nat → String → Pairs → Except PyError Pairs
  | 0, _, result => .ok result
  | left + 1, current, result =>
      if current = "" then .ok result
      else do
        let (last, found) ← getnext (limit - (left + 1)) current
        match last with
        | none => return result
        | some last =>
            if last = "" ∨ ¬ startswith last base then return result
            else
              let (result, full) := collect base limit found result
              if full then return result else walkLoop getnext base limit left last result

/-- `snmp_walk`: in each turn the network and the clock are what they are then. -/
def snmp_walk (send : Nat → Bytes → Option Bytes) (community base : String) (limit : Nat)
    (reqIds : Nat → Nat) : Except PyError Pairs :=
  walkLoop (fun turn oid => snmp_getnext (send turn) community oid (reqIds turn)) base limit limit
    base []

/-! ## §3 Messages -/

/-- A message with one variable; `kind` is the tag of the PDU. -/
def message (kind : UInt8) (community : Bytes) (reqId : Nat) (oid : Bytes) (tag : UInt8)
    (raw : Bytes) : Ber :=
  .cons 0x30
    [.prim 0x02 (intBytes 1), .prim 0x04 community,
      .cons kind
        [.prim 0x02 (intBytes reqId), .prim 0x02 (intBytes 0), .prim 0x02 (intBytes 0),
          .cons 0x30 [.cons 0x30 [.prim 0x06 oid, .prim tag raw]]]]

/-- A GETNEXT request for one identifier. -/
def request (community : Bytes) (reqId : Nat) (oid : Bytes) : Ber :=
  message 0xA1 community reqId oid 0x05 []

/-- A response. -/
def reply (community : Bytes) (reqId : Nat) (oid : Bytes) (tag : UInt8) (raw : Bytes) : Ber :=
  message 0xA2 community reqId oid tag raw

theorem packet_eq (community oid : String) (reqId : Nat) :
    packet community oid reqId =
      (oidBytes oid).bind fun content => (request community.toUTF8.toList reqId content).encode := by
  unfold packet oidEnc intEnc octet request message
  cases oidBytes oid with
  | none => rfl
  | some content =>
      simp only [Ber.encode, Ber.encodeAll, Option.bind_eq_bind, Option.bind_some, Option.pure_def]
      cases tlv 0x06 content <;> cases tlv 0x05 [] <;> cases tlv 0x02 (intBytes reqId) <;>
        cases tlv 0x02 (intBytes 0) <;> cases tlv 0x02 (intBytes 1) <;>
        cases tlv 0x04 community.toUTF8.toList <;>
        simp [Option.bind_assoc]

/-- A short request is a message, from the first byte to the last. -/
theorem lies_of_short {b : Ber} (h : b.size < 0x80 + 2) :
    ∃ d, b.encode = some d ∧ b.Lies d 0 d.length := by
  obtain ⟨d, hd⟩ := encode_of_size b h
  have hlies := (lies_encode b hd h [] []).2
  rw [List.nil_append, List.append_nil, List.length_nil, Nat.zero_add] at hlies
  exact ⟨d, hd, hlies⟩

/-- The bytes of a long request are no message at all. -/
theorem not_lies_of_long {tag : UInt8} {parts : List Ber} {d : Bytes}
    (hd : (Ber.cons tag parts).encode = some d) (h : ¬ (Ber.cons tag parts).size < 0x80 + 2) (b : Ber) :
    ¬ b.Lies d 0 d.length := by
  rw [encode_cons] at hd
  obtain ⟨content, hparts, ht⟩ := Option.bind_eq_some_iff.mp hd
  have hlong : 0x80 ≤ content.length := by
    have hle := sizes_le_encodeAll parts hparts
    rw [Ber.size] at h
    omega
  have hread (r : UInt8 × Bytes × Nat) (hr : tlvParse d 0 = some r) : r.2.2 ≠ d.length :=
    tlvParse_long hlong ht [] (by rw [List.append_nil]; exact hr)
  cases b with
  | prim tag content =>
      rw [Ber.Lies]
      exact fun hr => hread _ hr rfl
  | cons tag parts =>
      rw [Ber.Lies]
      rintro ⟨content, hr, -⟩
      exact hread _ hr rfl

/-! ## §4 Messages that can be written -/

theorem tlv_total (tag : UInt8) {content : Bytes} (h : content.length < 2 ^ 63) :
    ∃ t, tlv tag content = some t ∧ t.length ≤ content.length + 12 := by
  by_cases hshort : content.length < 0x80
  · refine ⟨_, tlv_short tag hshort, ?_⟩
    rw [List.length_cons, List.length_cons]
    omega
  · obtain ⟨k, hk, hpow⟩ := length_lenLoop (by omega : 0 < content.length) []
    have hten : k < 9 := by
      by_contra hge
      have hle : 128 ^ 9 ≤ 128 ^ k := Nat.pow_le_pow_right (by decide) (by omega)
      omega
    rw [List.length_nil, Nat.add_zero] at hk
    have hfits : 0x80 ||| (lenLoop content.length []).length < 256 := by
      rw [hk]
      exact Nat.or_lt_two_pow (n := 8) (by decide) (by omega)
    unfold tlv len
    rw [if_neg hshort]
    dsimp only
    rw [byte, if_pos hfits]
    refine ⟨_, rfl, ?_⟩
    simp only [List.length_cons, List.length_append, hk]
    omega

mutual

/-- The bytes of a message, with a dozen for the header of each TLV. -/
def weight : Ber → Nat
  | .prim _ content => content.length + 12
  | .cons _ parts => weights parts + 12

def weights : List Ber → Nat
  | [] => 0
  | b :: rest => weight b + weights rest

end

mutual

theorem encode_total : ∀ (b : Ber), weight b < 2 ^ 63 → ∃ t, b.encode = some t ∧ t.length ≤ weight b
  | .prim tag content, h => by
      rw [weight] at h ⊢
      rw [encode_prim]
      exact tlv_total tag (by omega)
  | .cons tag parts, h => by
      rw [weight] at h ⊢
      obtain ⟨content, hparts, hle⟩ := encodeAll_total parts (by omega)
      obtain ⟨t, ht, hlen⟩ := tlv_total tag (show content.length < 2 ^ 63 by omega)
      rw [encode_cons, hparts]
      exact ⟨t, ht, by omega⟩

theorem encodeAll_total : ∀ (bs : List Ber), weights bs < 2 ^ 63 →
    ∃ t, Ber.encodeAll bs = some t ∧ t.length ≤ weights bs
  | [], _ => ⟨[], encodeAll_nil, Nat.zero_le _⟩
  | b :: rest, h => by
      rw [weights] at h ⊢
      obtain ⟨hd, hhd, hlen⟩ := encode_total b (by omega)
      obtain ⟨tl, htl, hlen'⟩ := encodeAll_total rest (by omega)
      refine ⟨hd ++ tl, ?_, ?_⟩
      · rw [Ber.encodeAll, hhd, htl]
        rfl
      · rw [List.length_append]
        omega

end

theorem length_intLoop_le (v : Nat) (out : Bytes) : (intLoop v out).length ≤ v + 1 + out.length := by
  induction v using Nat.strongRecOn generalizing out with
  | ind v ih =>
      rw [intLoop]
      split
      · rw [List.length_cons]
        omega
      · rename_i hmore
        rw [Nat.shiftRight_eq_div_pow] at hmore ⊢
        have hlt : v / 2 ^ 8 < v := Nat.div_lt_self (by omega) (by decide)
        have hle := ih (v / 2 ^ 8) hlt (UInt8.ofNat (v &&& 0xFF) :: out)
        rw [List.length_cons] at hle
        omega

theorem length_intBytes_le (v : Nat) : (intBytes v).length ≤ v + 2 := by
  have hle := length_intLoop_le v []
  rw [List.length_nil] at hle
  unfold intBytes
  dsimp only
  split
  · rename_i b bs hout
    rw [hout, List.length_cons] at hle
    split
    · rw [List.length_cons, hout, List.length_cons]
      omega
    · rw [hout, List.length_cons]
      omega
  · omega

/-- No request is too long to be written. -/
theorem encode_request {community oid : Bytes} {reqId : Nat} (hcommunity : community.length < 2 ^ 62)
    (hoid : oid.length < 2 ^ 61) (hreqId : reqId < 2 ^ 31) :
    ∃ d, (request community reqId oid).encode = some d := by
  have hone := length_intBytes_le 1
  have hzero := length_intBytes_le 0
  have hid := length_intBytes_le reqId
  have hweight : weight (request community reqId oid) < 2 ^ 63 := by
    unfold request message
    simp only [weight, weights, List.length_nil]
    omega
  obtain ⟨d, hd, -⟩ := encode_total _ hweight
  exact ⟨d, hd⟩

/-! ## §5 What is read -/

theorem tlvAt_eq {buf content : Bytes} {pos fin : Nat} {tag : UInt8}
    (h : tlvParse buf pos = some (tag, content, fin)) : tlvAt buf pos = .ok (tag, content, fin) := by
  rw [tlvAt, h]
  rfl

/-- A list with one variable. -/
theorem pairs_one {vblist c1 oid raw : Bytes} {tag : UInt8} {q2 : Nat}
    (hlist : tlvParse vblist 0 = some (0x30, c1, vblist.length))
    (hoid : tlvParse c1 0 = some (0x06, oid, q2)) (hval : tlvParse c1 q2 = some (tag, raw, c1.length)) :
    pairs vblist 0 [] = (oidDec oid).map fun o => [(o, valConvert tag raw)] := by
  have hlt := lt_of_tlvParse hlist
  rw [pairs, if_pos hlt]
  split
  · rename_i hnone
    rw [hlist] at hnone
    cases hnone
  · rename_i hsome
    rw [hlist] at hsome
    cases hsome
    rw [if_neg (not_not.mpr rfl), tlvAt_eq hoid]
    show (tlvAt c1 q2 >>= _) = _
    rw [tlvAt_eq hval]
    show (oidDec oid >>= fun o => pairs vblist vblist.length ([] ++ [(o, valConvert tag raw)])) = _
    cases oidDec oid with
    | error e => rfl
    | ok o =>
        show pairs vblist vblist.length _ = .ok _
        rw [pairs, if_neg (Nat.lt_irrefl _)]
        rfl

/-- **What is read from a response** is its variable, if the identifier can be written. -/
theorem readGetnext_reply {community oid raw data : Bytes} {reqId : Nat} {tag : UInt8}
    (h : (reply community reqId oid tag raw).Lies data 0 data.length) :
    readGetnext data = (oidDec oid).map fun o => (some o, [(o, valConvert tag raw)]) := by
  unfold reply message at h
  simp only [Ber.Lies, Ber.AllLie] at h
  obtain ⟨outer, houter, m1, hversion, m2, hcommunity, m3, ⟨pdu, hpdu, p1, hid, p2, hstatus, p3,
    hindex, p4, ⟨vblist, hvblist, v1, ⟨c1, hc1, q2, hoid, q3, hval, rfl⟩, rfl⟩, rfl⟩, rfl⟩ := h
  have hzero : fromBytes (intBytes 0) = 0 := valueFrom_intBytes 0
  unfold readGetnext
  rw [tlvAt_eq houter]
  show (tlvAt outer 0 >>= _) = _
  rw [tlvAt_eq hversion]
  show (tlvAt outer m1 >>= _) = _
  rw [tlvAt_eq hcommunity]
  show (tlvAt outer m2 >>= _) = _
  rw [tlvAt_eq hpdu]
  show (tlvAt pdu 0 >>= _) = _
  rw [tlvAt_eq hid]
  show (tlvAt pdu p1 >>= _) = _
  rw [tlvAt_eq hstatus]
  show (tlvAt pdu p2 >>= _) = _
  rw [tlvAt_eq hindex]
  show (tlvAt pdu p3 >>= _) = _
  rw [tlvAt_eq hvblist]
  show (if (0x30 : UInt8) ≠ 0x30 ∨ fromBytes (intBytes 0) ≠ 0 then _ else _) = _
  rw [hzero, if_neg (by decide), pairs_one hc1 hoid hval]
  cases oidDec oid <;> rfl

end NetPulse.Infra.Walk
