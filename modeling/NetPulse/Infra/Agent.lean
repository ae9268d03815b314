import NetPulse.Infra.Oids
import NetPulse.Infra.Walk
import NetPulse.Lib.PrefixOrder

/-
# NetPulse.Infra.Agent — the other side of a walk

A `Mib` is a finite ordered list of instances. An `Agent` answers GETNEXT from it: with the first
instance behind the identifier that is asked for, or, if there is none, with that identifier and
endOfMibView. In which of the forms of a length it writes its answer is its own affair. It drops what
is not such a request.

`Agent.spelled` is one such agent. The rest is what `snmp_getnext` returns in each case.
-/

namespace NetPulse.Infra.Walk

open NetPulse.Lib (Bytes Text fromBytes toBytes length_toBytes fromBytes_toBytes)
open NetPulse.Lib.PrefixOrder

/-! ## §1 The MIB -/

structure Instance where
  oid : Oid
  tag : UInt8
  raw : Bytes
  memory : raw.length < 2 ^ 62

namespace Instance

/-- The pair that stands for it in a walk. -/
def row (n : Instance) : String × SnmpValue := (n.oid.text, valConvert n.tag n.raw)

end Instance

structure Mib where
  instances : List Instance
  sorted : instances.Pairwise fun a b => a.oid.parts < b.oid.parts

namespace Mib

/-- What comes behind an identifier. -/
def behind (mib : Mib) (x : Oid) : List Instance :=
  mib.instances.filter fun n => x.parts < n.oid.parts

/-- The instances of a subtree, that of its root included. -/
def subtree (mib : Mib) (base : Oid) : List Instance :=
  mib.instances.filter fun n => base.parts.isPrefixOf n.oid.parts

/-- The answer to a GETNEXT for `x`. -/
def answer (mib : Mib) (community : Bytes) (reqId : Nat) (x : Oid) : Ber :=
  match mib.behind x with
  | [] => reply community reqId x.content 0x82 []
  | n :: _ => reply community reqId n.oid.content n.tag n.raw

theorem behind_of_cons {mib : Mib} {x : Oid} {n : Instance} {rest : List Instance}
    (h : mib.behind x = n :: rest) : mib.behind n.oid = rest :=
  filter_lt mib.sorted h

end Mib

/-! ## §2 The agent -/

/-- The bytes are, from the first to the last, a GETNEXT for `x`. -/
def Asks (community : Bytes) (d : Bytes) (x : Oid) (reqId : Nat) : Prop :=
  reqId < 2 ^ 31 ∧ (request community reqId x.content).Lies d 0 d.length

/-- What an agent does with each datagram, turn by turn. -/
structure Agent (mib : Mib) (community : Bytes) where
  receives : Nat → Bytes → Option Bytes
  answers : ∀ turn {d x reqId}, Asks community d x reqId → ∃ data, receives turn d = some data ∧
    (mib.answer community reqId x).Lies data 0 data.length
  drops : ∀ turn {d}, (∀ x reqId, ¬ Asks community d x reqId) → receives turn d = none

/-- The community, which the program has in memory. -/
structure Community where
  text : String
  memory : text.toUTF8.toList.length < 2 ^ 62

def Community.bytes (c : Community) : Bytes := c.text.toUTF8.toList

/-- A request asks for one thing. -/
theorem Asks.unique {community d : Bytes} {x x' : Oid} {reqId reqId' : Nat}
    (h : Asks community d x reqId) (h' : Asks community d x' reqId') :
    x.content = x'.content ∧ reqId = reqId' := by
  obtain ⟨-, h⟩ := h
  obtain ⟨-, h'⟩ := h'
  unfold request message at h h'
  simp only [Ber.Lies, Ber.AllLie] at h h'
  obtain ⟨outer, houter, m1, hversion, m2, hcommunity, m3, ⟨pdu, hpdu, p1, hid, p2, hstatus, p3,
    hindex, p4, ⟨vblist, hvblist, v1, ⟨c1, hc1, q2, hoid, -⟩, -⟩, -⟩, -⟩ := h
  obtain ⟨outer', houter', m1', hversion', m2', hcommunity', m3', ⟨pdu', hpdu', p1', hid', p2',
    hstatus', p3', hindex', p4', ⟨vblist', hvblist', v1', ⟨c1', hc1', q2', hoid', -⟩, -⟩, -⟩, -⟩ := h'
  rw [houter] at houter'; cases houter'
  rw [hversion] at hversion'; cases hversion'
  rw [hcommunity] at hcommunity'; cases hcommunity'
  rw [hpdu] at hpdu'; cases hpdu'
  have hids : intBytes reqId = intBytes reqId' ∧ p1 = p1' := by
    rw [hid] at hid'
    simp only [Option.some.injEq, Prod.mk.injEq, true_and] at hid'
    exact hid'
  obtain ⟨hbytes, rfl⟩ := hids
  rw [hstatus] at hstatus'; cases hstatus'
  rw [hindex] at hindex'; cases hindex'
  rw [hvblist] at hvblist'; cases hvblist'
  rw [hc1] at hc1'; cases hc1'
  rw [hoid] at hoid'
  simp only [Option.some.injEq, Prod.mk.injEq, true_and] at hoid'
  refine ⟨hoid'.1, ?_⟩
  have hvalue := congrArg (valueFrom 256 0) hbytes
  rwa [valueFrom_intBytes, valueFrom_intBytes] at hvalue

theorem Mib.behind_of_content (mib : Mib) {x x' : Oid} (h : x.content = x'.content) :
    mib.behind x = mib.behind x' := by
  unfold behind
  rw [parts_of_content h]

theorem Mib.answer_of_content (mib : Mib) (community : Bytes) (reqId : Nat) {x x' : Oid}
    (h : x.content = x'.content) : mib.answer community reqId x = mib.answer community reqId x' := by
  unfold answer
  rw [mib.behind_of_content h, h]

/-! ## §3 One agent -/

/-- A TLV with its length in eight bytes. -/
def long (tag : UInt8) (content : Bytes) : Bytes :=
  tag :: 0x88 :: (toBytes 8 content.length ++ content)

mutual

/-- A message in which each length has eight bytes. -/
def spell : Ber → Bytes
  | .prim tag content => long tag content
  | .cons tag parts => long tag (spellAll parts)

def spellAll : List Ber → Bytes
  | [] => []
  | b :: rest => spell b ++ spellAll rest

end

theorem length_long (tag : UInt8) (content : Bytes) : (long tag content).length = content.length + 10 := by
  unfold long
  rw [List.length_cons, List.length_cons, List.length_append, length_toBytes]
  omega

theorem tlvParse_long_form (pre post : Bytes) (tag : UInt8) {content : Bytes}
    (h : content.length < 256 ^ 8) :
    tlvParse (pre ++ long tag content ++ post) pre.length =
      some (tag, content, pre.length + (long tag content).length) := by
  have hbit : (0x88 : UInt8) &&& 0x80 ≠ 0 := by decide
  have hcount : ((0x88 : UInt8) &&& 0x7F).toNat = 8 := by decide
  let buf := pre ++ tag :: 0x88 :: (toBytes 8 content.length ++ (content ++ post))
  have hbuf : pre ++ long tag content ++ post = buf := by
    unfold long buf
    simp only [List.append_assoc, List.cons_append]
  have hdigits : slice buf (pre.length + 2) (pre.length + 2 + 8) = toBytes 8 content.length := by
    have hslice := slice_append (pre ++ [tag, 0x88]) (toBytes 8 content.length) (content ++ post)
    simpa only [List.append_assoc, List.cons_append, List.nil_append, List.length_append,
      List.length_cons, List.length_nil, length_toBytes] using hslice
  have hcontent : slice buf (pre.length + 10) (pre.length + 10 + content.length) = content := by
    have hslice := slice_append (pre ++ tag :: 0x88 :: toBytes 8 content.length) content post
    simpa only [List.append_assoc, List.cons_append, List.length_append, List.length_cons,
      length_toBytes] using hslice
  rw [hbuf, length_long, tlvParse, List.getElem?_append_right (Nat.le_refl _),
    List.getElem?_append_right (Nat.le_add_right _ _), Nat.sub_self, Nat.add_sub_cancel_left]
  simp only [List.getElem?_cons_zero, List.getElem?_cons_succ, Option.bind_eq_bind,
    Option.bind_some, if_pos hbit, hcount, Option.pure_def]
  rw [hdigits, fromBytes_toBytes h, hcontent, Nat.add_assoc, Nat.add_comm 10]

mutual

/-- A message lies where it is spelled, whatever stands around it. -/
theorem lies_spell : ∀ (b : Ber), weight b < 2 ^ 64 → ∀ pre post : Bytes,
    (spell b).length ≤ weight b ∧
      b.Lies (pre ++ spell b ++ post) pre.length (pre.length + (spell b).length)
  | .prim tag content, h, pre, post => by
      rw [weight] at h ⊢
      rw [spell, Ber.Lies]
      exact ⟨by rw [length_long]; omega, tlvParse_long_form pre post tag (by omega)⟩
  | .cons tag parts, h, pre, post => by
      rw [weight] at h ⊢
      obtain ⟨hlen, hlie⟩ := allLie_spellAll parts (by omega) [] []
      rw [List.nil_append, List.append_nil, List.length_nil, Nat.zero_add] at hlie
      rw [spell, Ber.Lies]
      exact ⟨by rw [length_long]; omega, _, tlvParse_long_form pre post tag (by omega), hlie⟩

theorem allLie_spellAll : ∀ (bs : List Ber), weights bs < 2 ^ 64 → ∀ pre post : Bytes,
    (spellAll bs).length ≤ weights bs ∧
      Ber.AllLie (pre ++ spellAll bs ++ post) bs pre.length (pre.length + (spellAll bs).length)
  | [], _, pre, post => by
      rw [spellAll, Ber.AllLie]
      exact ⟨Nat.zero_le _, rfl⟩
  | b :: rest, h, pre, post => by
      rw [weights] at h ⊢
      obtain ⟨hlen, hlies⟩ := lies_spell b (by omega) pre (spellAll rest ++ post)
      obtain ⟨hlen', hlies'⟩ := allLie_spellAll rest (by omega) (pre ++ spell b) post
      rw [spellAll, Ber.AllLie]
      refine ⟨by rw [List.length_append]; omega, pre.length + (spell b).length, ?_, ?_⟩
      · simpa only [List.append_assoc] using hlies
      · rw [List.length_append] at hlies'
        rw [List.length_append, ← Nat.add_assoc, ← List.append_assoc]
        exact hlies'

end

/-- Every answer can be spelled. -/
theorem Mib.lies_answer (mib : Mib) {community : Bytes} (hcommunity : community.length < 2 ^ 62)
    {reqId : Nat} (hreqId : reqId < 2 ^ 31) (x : Oid) :
    (mib.answer community reqId x).Lies (spell (mib.answer community reqId x)) 0
      (spell (mib.answer community reqId x)).length := by
  have hone := length_intBytes_le 1
  have hzero := length_intBytes_le 0
  have hid := length_intBytes_le reqId
  have hweight : weight (mib.answer community reqId x) < 2 ^ 64 := by
    unfold answer
    split
    · have hx := length_content_lt x
      unfold reply message
      simp only [weight, weights, List.length_nil]
      omega
    · rename_i n _ _
      have hn := length_content_lt n.oid
      have hraw := n.memory
      unfold reply message
      simp only [weight, weights]
      omega
  have hlies := (lies_spell _ hweight [] []).2
  rwa [List.nil_append, List.append_nil, List.length_nil, Nat.zero_add] at hlies

open Classical in
/-- **There is an agent** for each MIB. -/
noncomputable def Agent.spelled (mib : Mib) (community : Community) :
    Agent mib community.bytes where
  receives _ d :=
    if h : ∃ q : Oid × Nat, Asks community.bytes d q.1 q.2 then
      some (spell (mib.answer community.bytes h.choose.2 h.choose.1))
    else none
  answers _ {d x reqId} hasks := by
    have h : ∃ q : Oid × Nat, Asks community.bytes d q.1 q.2 := ⟨(x, reqId), hasks⟩
    obtain ⟨hcontent, hid⟩ := hasks.unique h.choose_spec
    rw [dif_pos h, mib.answer_of_content community.bytes reqId hcontent, hid]
    exact ⟨_, rfl, mib.lies_answer community.memory h.choose_spec.1 _⟩
  drops _ {d} hnone := dif_neg fun ⟨q, hq⟩ => hnone q.1 q.2 hq

/-! ## §4 What `snmp_getnext` returns -/

/-- Every length in the request is below 128. -/
def Short (community : Community) (reqId : Nat) (x : Oid) : Prop :=
  (request community.bytes reqId x.content).size < 0x80 + 2

instance (community : Community) (reqId : Nat) (x : Oid) : Decidable (Short community reqId x) :=
  inferInstanceAs (Decidable (_ < _))

/-- What is left of an answer whatever is in it. -/
def returned (data : Bytes) : Except PyError (Option String × Pairs) :=
  match readGetnext data with
  | .ok answer => .ok answer
  | .error _ => .ok (none, [])

theorem returned_plain {community raw data : Bytes} {reqId : Nat} {tag : UInt8} {o : Oid}
    (ho : o.Plain) (h : (reply community reqId o.content tag raw).Lies data 0 data.length) :
    returned data = .ok (some o.text, [(o.text, valConvert tag raw)]) := by
  unfold returned
  rw [readGetnext_reply h, oidDec_plain ho]
  rfl

/-- The identifier of an answer is read as it is, or as a foreign one, or not at all. -/
theorem returned_oid {community raw data : Bytes} {reqId : Nat} {tag : UInt8} {o : Oid}
    (h : (reply community reqId o.content tag raw).Lies data 0 data.length) :
    ∃ last found, returned data = .ok (last, found) ∧
      ∀ t, last = some t → o.Plain ∧ t = o.text ∨ ¬ o.Plain ∧ Foreign t := by
  by_cases ho : o.Plain
  · refine ⟨_, _, returned_plain ho h, fun t ht => .inl ⟨ho, ?_⟩⟩
    exact (Option.some.inj ht).symm
  · unfold returned
    rw [readGetnext_reply h]
    cases hdec : oidDec o.content with
    | error e => exact ⟨none, [], rfl, fun t ht => nomatch ht⟩
    | ok u =>
        refine ⟨some u, _, rfl, fun t ht => .inr ⟨ho, ?_⟩⟩
        rw [← Option.some.inj ht]
        exact oidDec_joint ho hdec

section Turns

variable {mib : Mib} {community : Community} (agent : Agent mib community.bytes) (turn : Nat)
  {reqId : Nat} (hid : reqId < 2 ^ 31)

include hid

/-- An identifier that can be written makes a datagram. -/
theorem packet_of_oidBytes {t : String} {content : Bytes} (h : oidBytes t = some content)
    (hlen : content.length < 2 ^ 61) :
    ∃ d, (request community.bytes reqId content).encode = some d ∧
      snmp_getnext (agent.receives turn) community.text t reqId =
        match agent.receives turn d with
        | none => .ok (none, [])
        | some data => returned data := by
  obtain ⟨d, hd⟩ := encode_request community.memory hlen hid
  refine ⟨d, hd, ?_⟩
  have hpacket : packet community.text t reqId = some d := by
    rw [packet_eq, h, Option.bind_some]
    exact hd
  unfold snmp_getnext
  rw [hpacket]
  rfl

theorem getnext_long {x : Oid} (hx : x.Plain) (h : ¬ Short community reqId x) :
    snmp_getnext (agent.receives turn) community.text x.text reqId = .ok (none, []) := by
  obtain ⟨d, hd, hget⟩ := packet_of_oidBytes agent turn hid (oidBytes_plain hx) (length_content_lt x)
  have hnone : agent.receives turn d = none :=
    agent.drops turn fun y rid hasks => not_lies_of_long hd h _ hasks.2
  rw [hget, hnone]

theorem getnext_short {x : Oid} (hx : x.Plain) (h : Short community reqId x) :
    ∃ data, (mib.answer community.bytes reqId x).Lies data 0 data.length ∧
      snmp_getnext (agent.receives turn) community.text x.text reqId = returned data := by
  obtain ⟨d, hd, hget⟩ := packet_of_oidBytes agent turn hid (oidBytes_plain hx) (length_content_lt x)
  obtain ⟨d', hd', hlies⟩ := lies_of_short h
  obtain rfl : d' = d := Option.some.inj (hd'.symm.trans hd)
  obtain ⟨data, hreceives, hanswer⟩ := agent.answers turn ⟨hid, hlies⟩
  rw [hreceives] at hget
  exact ⟨data, hanswer, hget⟩

/-- **The next instance**, if its identifier is plain. -/
theorem getnext_next {x : Oid} {n : Instance} {rest : List Instance} (hx : x.Plain)
    (h : Short community reqId x) (hnext : mib.behind x = n :: rest) (hn : n.oid.Plain) :
    snmp_getnext (agent.receives turn) community.text x.text reqId =
      .ok (some n.oid.text, [n.row]) := by
  obtain ⟨data, hlies, hget⟩ := getnext_short agent turn hid hx h
  rw [Mib.answer, hnext] at hlies
  exact hget.trans (returned_plain hn hlies)

theorem getnext_joint {x : Oid} {n : Instance} {rest : List Instance} (hx : x.Plain)
    (h : Short community reqId x) (hnext : mib.behind x = n :: rest) (hn : ¬ n.oid.Plain) :
    ∃ last found, snmp_getnext (agent.receives turn) community.text x.text reqId =
      .ok (last, found) ∧ ∀ t, last = some t → Foreign t := by
  obtain ⟨data, hlies, hget⟩ := getnext_short agent turn hid hx h
  rw [Mib.answer, hnext] at hlies
  obtain ⟨last, found, hreturned, hlast⟩ := returned_oid hlies
  refine ⟨last, found, hget.trans hreturned, fun t ht => ?_⟩
  exact ((hlast t ht).resolve_left fun hplain => hn hplain.1).2

/-- **The end of the MIB** is a pair like any other. -/
theorem getnext_end {x : Oid} (hx : x.Plain) (h : Short community reqId x)
    (hnext : mib.behind x = []) :
    snmp_getnext (agent.receives turn) community.text x.text reqId =
      .ok (some x.text, [(x.text, .str [])]) := by
  obtain ⟨data, hlies, hget⟩ := getnext_short agent turn hid hx h
  rw [Mib.answer, hnext] at hlies
  exact hget.trans (returned_plain hx hlies)

/-- What is asked for a base that is not plain has no answer that begins with it. -/
theorem getnext_of_joint {x : Oid} (hx : ¬ x.Plain) (hbyte : x.second < 176) :
    ∃ last found, snmp_getnext (agent.receives turn) community.text x.text reqId =
      .ok (last, found) ∧ ∀ t, last = some t → ¬ x.text.toList <+: t.toList := by
  have hfirst := Oid.first_of_not_plain hx
  have hbytes : oidBytes x.text =
      some (UInt8.ofNat (40 * x.first + x.second) :: x.rest.flatMap Oid.part) := by
    rw [oidBytes_text, byte, if_pos (by omega)]
    rfl
  have hlen : (UInt8.ofNat (40 * x.first + x.second) :: x.rest.flatMap Oid.part).length < 2 ^ 61 := by
    have hrest := length_rest_lt x
    rw [List.length_cons]
    omega
  obtain ⟨d, hd, hget⟩ := packet_of_oidBytes agent turn hid hbytes hlen
  by_cases hasks : ∃ q : Oid × Nat, Asks community.bytes d q.1 q.2
  · obtain ⟨⟨y, rid⟩, hasks⟩ := hasks
    obtain ⟨data, hreceives, hlies⟩ := agent.answers turn hasks
    have hoid : ∃ (o : Oid) (tag : UInt8) (raw : Bytes),
        mib.answer community.bytes rid y = reply community.bytes rid o.content tag raw := by
      unfold Mib.answer
      split
      · exact ⟨_, _, _, rfl⟩
      · exact ⟨_, _, _, rfl⟩
    obtain ⟨o, tag, raw, hanswer⟩ := hoid
    rw [hanswer] at hlies
    obtain ⟨last, found, hreturned, hlast⟩ := returned_oid hlies
    rw [hreceives] at hget
    refine ⟨last, found, hget.trans hreturned, fun t ht => ?_⟩
    rcases hlast t ht with ⟨ho, rfl⟩ | ⟨-, hforeign⟩
    · exact Oid.not_prefix_of_plain hx ho
    · exact x.not_prefix_of_foreign hforeign
  · have hnone : agent.receives turn d = none :=
      agent.drops turn fun y rid h => hasks ⟨(y, rid), h⟩
    rw [hnone] at hget
    exact ⟨none, [], hget, fun t ht => absurd ht.symm (Option.some_ne_none t)⟩

end Turns

end NetPulse.Infra.Walk
