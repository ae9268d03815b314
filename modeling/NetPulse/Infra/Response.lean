import NetPulse.Infra.Values
import NetPulse.Lib.Dict
import NetPulse.Lib.Except

/-
# NetPulse.Infra.Response — the answer to an SNMP request (`infra.py`)

`parse_snmp_response` reads an answer TLV by TLV. A header that is cut off raises `IndexError`, a
number with too many digits raises `ValueError`; `_tlv_parse` does nothing about either, for the whole
body stands under `except Exception`, which is to log and to answer `None`. The handler logs `ip`, the
name of a parameter of `snmp_get`. `parse_snmp_response` has no such name and neither has the module,
so the handler itself raises `NameError`.

So the answer is read exactly when nothing in it has to be handled (`parseSnmpResponse_returns_iff`).
`Readable` says of the bytes what that asks for: the two bytes of every header the parser comes to,
and numbers that can be written. It speaks about positions; `ComesTo` is the walk over the list of
variables, and the induction of `varbinds_returns_iff` is on what is left of that list.
-/

namespace NetPulse.Infra

open NetPulse.Lib (Bytes Text Dict fromBytes)

/-! ## §1 The parser -/

/-- `_tlv_parse`, with the exception of a position behind the end. -/
def tlvAt (buf : Bytes) (pos : Nat) : Except PyError (UInt8 × Bytes × Nat) :=
  (tlvParse buf pos).elim (.error .indexError) .ok

/-- The dict `OIDS`. -/
def oidNames : List (String × String) :=
  OIDS.zip
    ["sysDescr", "sysObjectID", "sysUpTime", "sysContact", "sysName", "sysLocation", "ifNumber"]

/-- The `out` of the parser. -/
abbrev Response := Dict String SnmpValue

/-- `out[OIDS[oid]] = …` for an identifier that is asked for. -/
def record (out : Response) (oid : String) (value : SnmpValue) : Response :=
  match Dict.lookup oid oidNames with
  | some name => out.set name value
  | none => out

theorem lt_of_tlvParse {buf content : Bytes} {pos fin : Nat} {tag : UInt8}
    (h : tlvParse buf pos = some (tag, content, fin)) : pos < fin := by
  unfold tlvParse at h
  simp only [Option.bind_eq_bind, Option.bind_eq_some_iff, Option.pure_def] at h
  obtain ⟨_, _, ln, _, h⟩ := h
  split at h
  · cases h
    omega
  · cases h
    omega

/-- The loop over the list of variables. -/
def varbinds (vblist : Bytes) (q : Nat) (out : Response) : Except PyError Response :=
  if q < vblist.length then
    match _h : tlvParse vblist q with
    | none => .error .indexError
    | some (tag1, c1, q') =>
        if tag1 ≠ 0x30 then .ok out
        else do
          let (_, oidC, q2) ← tlvAt c1 0
          let (vtag, vraw, _) ← tlvAt c1 q2
          let oid ← oidDec oidC
          varbinds vblist q' (record out oid (valConvert vtag vraw))
  else .ok out
termination_by vblist.length - q
decreasing_by
  have hlt := lt_of_tlvParse _h
  omega

/-- `out["_error"] = …` -/
def withStatus (errv : Nat) (out : Response) : Except PyError Response :=
  if errv ≠ 0 then
    (pyStr errv).map fun s => out.set "_error" (.str (Text.lit ("SNMP errstatus " ++ s)))
  else .ok out

/-- What stands under the `try`. -/
def readResponse (data : Bytes) : Except PyError (Option Response) := do
  let (_, outer, _) ← tlvAt data 0
  let (_, _, pos) ← tlvAt outer 0
  let (_, _, pos) ← tlvAt outer pos
  let (ptag, pduC, _) ← tlvAt outer pos
  if ptag ≠ 0xA2 then return none
  let (_, _, p) ← tlvAt pduC 0
  let (_, err, p) ← tlvAt pduC p
  let errv := fromBytes err
  let (_, _, p) ← tlvAt pduC p
  let (vtag, vblist, _) ← tlvAt pduC p
  if vtag ≠ 0x30 then return none
  let out ← varbinds vblist 0 Dict.empty
  let out ← withStatus errv out
  return if out.items = [] then none else some out

/-- `parse_snmp_response`. The handler asks for a global `ip` that does not exist, before it logs
anything. -/
def parseSnmpResponse (data : Bytes) : Except PyError (Option Response) :=
  match readResponse data with
  | .ok r => .ok r
  | .error _ => .error .nameError

/-! ## §2 What can be read -/

/-- The TLV at a position, for a position that has one. -/
def tlvD (buf : Bytes) (pos : Nat) : UInt8 × Bytes × Nat := (tlvParse buf pos).getD (0, [], 0)

def tagAt (buf : Bytes) (pos : Nat) : UInt8 := (tlvD buf pos).1

def contentAt (buf : Bytes) (pos : Nat) : Bytes := (tlvD buf pos).2.1

def endAt (buf : Bytes) (pos : Nat) : Nat := (tlvD buf pos).2.2

/-- A tag and a length byte. -/
def Headed (buf : Bytes) (pos : Nat) : Prop := pos + 2 ≤ buf.length

/-- `str` writes the number. -/
def Printable (n : Nat) : Prop := (Nat.toDigits 10 n).length ≤ maxStrDigits

/-- From `q` the loop comes to `q'`, reading variables on the way. -/
inductive ComesTo (vblist : Bytes) : Nat → Nat → Prop
  | here (q : Nat) : ComesTo vblist q q
  | next {q q' : Nat} : q < vblist.length → tagAt vblist q = 0x30 →
      ComesTo vblist (endAt vblist q) q' → ComesTo vblist q q'

/-- A variable has a name and a value, and the arcs of the name can be written. -/
structure VarbindReadable (c1 : Bytes) : Prop where
  name : Headed c1 0
  value : Headed c1 (endAt c1 0)
  arcs : ∀ n ∈ arcs 0 (contentAt c1 0).tail, Printable n

/-- Wherever the loop comes to, there is a header, and a variable behind the right tag. -/
def ListReadable (vblist : Bytes) (q : Nat) : Prop :=
  ∀ q', ComesTo vblist q q' → q' < vblist.length →
    Headed vblist q' ∧ (tagAt vblist q' = 0x30 → VarbindReadable (contentAt vblist q'))

def errorStatusAt (pdu : Bytes) : Nat := endAt pdu 0

def errorIndexAt (pdu : Bytes) : Nat := endAt pdu (errorStatusAt pdu)

def varbindListAt (pdu : Bytes) : Nat := endAt pdu (errorIndexAt pdu)

/-- The four parts of a PDU have headers; if the last one is a list, its variables can be read and
the error status can be written. -/
structure PduReadable (pdu : Bytes) : Prop where
  requestId : Headed pdu 0
  errorStatus : Headed pdu (errorStatusAt pdu)
  errorIndex : Headed pdu (errorIndexAt pdu)
  varbindList : Headed pdu (varbindListAt pdu)
  varbinds : tagAt pdu (varbindListAt pdu) = 0x30 →
    ListReadable (contentAt pdu (varbindListAt pdu)) 0
  status : tagAt pdu (varbindListAt pdu) = 0x30 →
    Printable (fromBytes (contentAt pdu (errorStatusAt pdu)))

def communityAt (outer : Bytes) : Nat := endAt outer 0

def pduAt (outer : Bytes) : Nat := endAt outer (communityAt outer)

/-- The message and its three parts have headers, and a response PDU can be read. -/
structure Readable (data : Bytes) : Prop where
  message : Headed data 0
  version : Headed (contentAt data 0) 0
  community : Headed (contentAt data 0) (communityAt (contentAt data 0))
  pdu : Headed (contentAt data 0) (pduAt (contentAt data 0))
  response : tagAt (contentAt data 0) (pduAt (contentAt data 0)) = 0xA2 →
    PduReadable (contentAt (contentAt data 0) (pduAt (contentAt data 0)))

/-! ## §3 Steps -/

/-- The computation comes to a value. -/
def Returns {α : Type} (x : Except PyError α) : Prop := ∃ r, x = .ok r

theorem returns_ok {α : Type} (r : α) : Returns (.ok r) := ⟨r, rfl⟩

theorem not_returns_error {α : Type} (e : PyError) : ¬ Returns (.error e : Except PyError α) := by
  rintro ⟨r, h⟩
  cases h

theorem returns_bind {α β : Type} {x : Except PyError α} {f : α → Except PyError β} :
    Returns (x >>= f) ↔ ∃ a, x = .ok a ∧ Returns (f a) := by
  constructor
  · rintro ⟨r, h⟩
    obtain ⟨a, hx, hf⟩ := NetPulse.Lib.bind_eq_ok.mp h
    exact ⟨a, hx, r, hf⟩
  · rintro ⟨a, hx, r, hf⟩
    exact ⟨r, NetPulse.Lib.bind_eq_ok.mpr ⟨a, hx, hf⟩⟩

theorem tlvParse_of_headed {buf : Bytes} {pos : Nat} (h : Headed buf pos) :
    tlvParse buf pos = some (tagAt buf pos, contentAt buf pos, endAt buf pos) := by
  unfold Headed at h
  have hsome : ∃ r, tlvParse buf pos = some r := by
    unfold tlvParse
    rw [List.getElem?_eq_getElem (show pos < buf.length by omega),
      List.getElem?_eq_getElem (show pos + 1 < buf.length by omega)]
    simp only [Option.bind_eq_bind, Option.bind_some, Option.pure_def]
    split
    · exact ⟨_, rfl⟩
    · exact ⟨_, rfl⟩
  obtain ⟨r, hr⟩ := hsome
  unfold tagAt contentAt endAt tlvD
  rw [hr, Option.getD_some]

theorem headed_of_tlvParse {buf : Bytes} {pos : Nat} {r : UInt8 × Bytes × Nat}
    (h : tlvParse buf pos = some r) : Headed buf pos := by
  unfold tlvParse at h
  simp only [Option.bind_eq_bind, Option.bind_eq_some_iff] at h
  obtain ⟨tag, -, ln, hln, -⟩ := h
  have hlt : pos + 1 < buf.length := (List.getElem?_eq_some_iff.mp hln).1
  exact hlt

/-- **Reading a TLV** comes to a value exactly at a header, and the value is the TLV there. -/
theorem returns_tlvAt_bind {β : Type} {buf : Bytes} {pos : Nat}
    {f : UInt8 × Bytes × Nat → Except PyError β} :
    Returns (tlvAt buf pos >>= f) ↔
      Headed buf pos ∧ Returns (f (tagAt buf pos, contentAt buf pos, endAt buf pos)) := by
  rw [returns_bind]
  constructor
  · rintro ⟨r, hr, hf⟩
    have hparse : tlvParse buf pos = some r := NetPulse.Lib.elim_eq_ok.mp hr
    have hhead := headed_of_tlvParse hparse
    rw [tlvParse_of_headed hhead, Option.some.injEq] at hparse
    exact ⟨hhead, hparse ▸ hf⟩
  · rintro ⟨hhead, hf⟩
    exact ⟨_, NetPulse.Lib.elim_eq_ok.mpr (tlvParse_of_headed hhead), hf⟩

theorem returns_pyStr {n : Nat} : Returns (pyStr n) ↔ Printable n := by
  unfold pyStr Printable
  split
  · rename_i h
    exact iff_of_true (returns_ok _) h
  · rename_i h
    exact iff_of_false (not_returns_error _) h

theorem returns_mapM_pyStr {parts : List Nat} :
    Returns (parts.mapM pyStr) ↔ ∀ n ∈ parts, Printable n := by
  induction parts with
  | nil => exact iff_of_true (returns_ok []) (fun n hn => absurd hn List.not_mem_nil)
  | cons p parts ih =>
      rw [List.mapM_cons, returns_bind, List.forall_mem_cons, ← ih, ← returns_pyStr]
      constructor
      · rintro ⟨s, hs, h⟩
        obtain ⟨ss, hss, -⟩ := returns_bind.mp h
        exact ⟨⟨s, hs⟩, ss, hss⟩
      · rintro ⟨⟨s, hs⟩, ss, hss⟩
        exact ⟨s, hs, returns_bind.mpr ⟨ss, hss, returns_ok _⟩⟩

theorem printable_of_lt {n : Nat} (h : n < 256) : Printable n := by
  have hlen : (Nat.toDigits 10 n).length ≤ 3 :=
    (Nat.length_toDigits_le_iff (by decide) (by decide)).mpr (by omega)
  exact Nat.le_trans hlen (by decide)

theorem returns_oidDec {content : Bytes} :
    Returns (oidDec content) ↔ ∀ n ∈ arcs 0 content.tail, Printable n := by
  cases content with
  | nil => exact iff_of_true (returns_ok _) (fun n hn => absurd hn List.not_mem_nil)
  | cons b0 bs =>
      have hb : b0.toNat < 256 := b0.toNat_lt
      have hdiv : Printable (b0.toNat / 40) := printable_of_lt (by omega)
      have hmod : Printable (b0.toNat % 40) := printable_of_lt (by omega)
      have hparts := @returns_mapM_pyStr (b0.toNat / 40 :: b0.toNat % 40 :: arcs 0 bs)
      rw [List.forall_mem_cons, List.forall_mem_cons] at hparts
      show Returns ((b0.toNat / 40 :: b0.toNat % 40 :: arcs 0 bs).mapM pyStr >>=
        fun ss => .ok (".".intercalate ss)) ↔ _
      rw [returns_bind]
      constructor
      · rintro ⟨ss, hss, -⟩
        exact (hparts.mp ⟨ss, hss⟩).2.2
      · intro harcs
        obtain ⟨ss, hss⟩ := hparts.mpr ⟨hdiv, hmod, harcs⟩
        exact ⟨ss, hss, returns_ok _⟩

/-! ## §4 The list of variables -/

theorem varbinds_end {vblist : Bytes} {q : Nat} (h : ¬ q < vblist.length) (out : Response) :
    varbinds vblist q out = .ok out := by
  rw [varbinds, if_neg h]

theorem varbinds_unheaded {vblist : Bytes} {q : Nat} (hq : q < vblist.length)
    (h : ¬ Headed vblist q) (out : Response) : varbinds vblist q out = .error .indexError := by
  rw [varbinds, if_pos hq]
  split
  · rfl
  · rename_i hparse
    exact absurd (headed_of_tlvParse hparse) h

theorem varbinds_headed {vblist : Bytes} {q : Nat} (hq : q < vblist.length)
    (h : Headed vblist q) (out : Response) :
    varbinds vblist q out =
      if tagAt vblist q ≠ 0x30 then .ok out
      else (do
        let (_, oidC, q2) ← tlvAt (contentAt vblist q) 0
        let (vtag, vraw, _) ← tlvAt (contentAt vblist q) q2
        let oid ← oidDec oidC
        varbinds vblist (endAt vblist q) (record out oid (valConvert vtag vraw))) := by
  rw [varbinds, if_pos hq]
  split
  · rename_i hnone
    rw [tlvParse_of_headed h] at hnone
    cases hnone
  · rename_i hparse
    rw [tlvParse_of_headed h] at hparse
    cases hparse
    rfl

/-- One round of the loop, when what the rounds behind it ask for does not depend on `out`. -/
theorem returns_varbinds_step {vblist : Bytes} {q : Nat} {Rest : Prop} (hq : q < vblist.length)
    (hrest : ∀ out, Returns (varbinds vblist (endAt vblist q) out) ↔ Rest) (out : Response) :
    Returns (varbinds vblist q out) ↔
      Headed vblist q ∧
        (tagAt vblist q = 0x30 → VarbindReadable (contentAt vblist q) ∧ Rest) := by
  by_cases hhead : Headed vblist q
  · rw [varbinds_headed hq hhead out, and_iff_right hhead]
    by_cases htag : tagAt vblist q = 0x30
    · rw [if_neg (fun hne => hne htag), returns_tlvAt_bind, returns_tlvAt_bind, returns_bind]
      constructor
      · rintro ⟨hname, hvalue, oid, hoid, h⟩ -
        exact ⟨⟨hname, hvalue, returns_oidDec.mp ⟨oid, hoid⟩⟩, (hrest _).mp h⟩
      · intro h
        obtain ⟨⟨hname, hvalue, harcs⟩, hbehind⟩ := h htag
        obtain ⟨oid, hoid⟩ := returns_oidDec.mpr harcs
        exact ⟨hname, hvalue, oid, hoid, (hrest _).mpr hbehind⟩
    · rw [if_pos htag]
      exact iff_of_true (returns_ok out) (fun h => absurd h htag)
  · rw [varbinds_unheaded hq hhead out]
    exact iff_of_false (not_returns_error _) (fun h => hhead h.1)

theorem listReadable_end {vblist : Bytes} {q : Nat} (h : ¬ q < vblist.length) :
    ListReadable vblist q := by
  intro q' hcomes hq'
  cases hcomes with
  | here => exact absurd hq' h
  | next hq _ _ => exact absurd hq h

theorem listReadable_step {vblist : Bytes} {q : Nat} (hq : q < vblist.length) :
    ListReadable vblist q ↔
      Headed vblist q ∧
        (tagAt vblist q = 0x30 →
          VarbindReadable (contentAt vblist q) ∧ ListReadable vblist (endAt vblist q)) := by
  constructor
  · intro h
    obtain ⟨hhead, hvar⟩ := h q (.here q) hq
    refine ⟨hhead, fun htag => ⟨hvar htag, ?_⟩⟩
    intro q' hcomes hq'
    exact h q' (.next hq htag hcomes) hq'
  · rintro ⟨hhead, hvar⟩ q' hcomes hq'
    cases hcomes with
    | here => exact ⟨hhead, fun htag => (hvar htag).1⟩
    | next _ htag hcomes => exact (hvar htag).2 q' hcomes hq'

theorem lt_endAt {buf : Bytes} {pos : Nat} (h : Headed buf pos) : pos < endAt buf pos :=
  lt_of_tlvParse (tlvParse_of_headed h)

/-- **The list of variables** is read exactly when every variable the loop comes to can be. -/
theorem varbinds_returns_iff (vblist : Bytes) (q : Nat) (out : Response) :
    Returns (varbinds vblist q out) ↔ ListReadable vblist q := by
  induction hleft : vblist.length - q using Nat.strongRecOn generalizing q out with
  | ind left ih =>
      by_cases hq : q < vblist.length
      · by_cases hhead : Headed vblist q
        · have hlt := lt_endAt hhead
          have hrest (out : Response) : Returns (varbinds vblist (endAt vblist q) out) ↔
              ListReadable vblist (endAt vblist q) :=
            ih (vblist.length - endAt vblist q) (by omega) (endAt vblist q) out rfl
          rw [returns_varbinds_step hq hrest out, listReadable_step hq]
        · rw [varbinds_unheaded hq hhead out, listReadable_step hq]
          exact iff_of_false (not_returns_error _) (fun h => hhead h.1)
      · rw [varbinds_end hq out]
        exact iff_of_true (returns_ok out) (listReadable_end hq)

/-! ## §5 The message -/

theorem returns_withStatus {errv : Nat} {out : Response} :
    Returns (withStatus errv out) ↔ Printable errv := by
  rw [← returns_pyStr]
  unfold withStatus
  by_cases hz : errv = 0
  · subst hz
    exact iff_of_true (returns_ok out) (returns_pyStr.mpr (printable_of_lt (by decide)))
  · rw [if_pos hz]
    cases pyStr errv with
    | error e => exact iff_of_false (not_returns_error e) (not_returns_error e)
    | ok s => exact iff_of_true (returns_ok _) (returns_ok s)

theorem returns_ite {α : Type} {c : Prop} [Decidable c] {r : α} {x : Except PyError α} :
    Returns (if ¬ c then .ok r else x) ↔ (c → Returns x) := by
  by_cases h : c
  · rw [if_neg (not_not_intro h)]
    exact ⟨fun hx _ => hx, fun hx => hx h⟩
  · rw [if_pos h]
    exact iff_of_true (returns_ok r) (fun hc => absurd hc h)

/-- What stands under the `try`, behind the headers of the message. -/
theorem returns_pdu (pduC : Bytes) :
    Returns (do
      let (_, _, p) ← tlvAt pduC 0
      let (_, err, p) ← tlvAt pduC p
      let (_, _, p) ← tlvAt pduC p
      let (vtag, vblist, _) ← tlvAt pduC p
      if vtag ≠ 0x30 then pure (none : Option Response)
      else do
        let out ← varbinds vblist 0 Dict.empty
        let out ← withStatus (fromBytes err) out
        pure (if out.items = [] then none else some out)) ↔ PduReadable pduC := by
  rw [returns_tlvAt_bind, returns_tlvAt_bind, returns_tlvAt_bind, returns_tlvAt_bind]
  have hlist (vblist : Bytes) (errv : Nat) :
      Returns (varbinds vblist 0 Dict.empty >>= fun out => withStatus errv out >>= fun out =>
        pure (if out.items = [] then none else some out)) ↔
        ListReadable vblist 0 ∧ Printable errv := by
    rw [returns_bind, ← varbinds_returns_iff vblist 0 Dict.empty]
    constructor
    · rintro ⟨out, hout, h⟩
      obtain ⟨out', hstatus, -⟩ := returns_bind.mp h
      exact ⟨⟨out, hout⟩, returns_withStatus.mp ⟨out', hstatus⟩⟩
    · rintro ⟨⟨out, hout⟩, hprint⟩
      obtain ⟨out', hstatus⟩ := returns_withStatus.mpr hprint
      exact ⟨out, hout, returns_bind.mpr ⟨out', hstatus, returns_ok _⟩⟩
  constructor
  · rintro ⟨h1, h2, h3, h4, h⟩
    have hvars := fun htag => (hlist _ _).mp (returns_ite.mp h htag)
    exact ⟨h1, h2, h3, h4, fun htag => (hvars htag).1, fun htag => (hvars htag).2⟩
  · rintro ⟨h1, h2, h3, h4, hvars, hstatus⟩
    refine ⟨h1, h2, h3, h4, returns_ite.mpr fun htag => (hlist _ _).mpr ?_⟩
    exact ⟨hvars htag, hstatus htag⟩

/-- **What stands under the `try`** comes to an answer exactly on a message that can be read. -/
theorem readResponse_returns_iff (data : Bytes) : Returns (readResponse data) ↔ Readable data := by
  unfold readResponse
  rw [returns_tlvAt_bind, returns_tlvAt_bind, returns_tlvAt_bind, returns_tlvAt_bind]
  constructor
  · rintro ⟨h1, h2, h3, h4, h⟩
    exact ⟨h1, h2, h3, h4, fun htag => (returns_pdu _).mp (returns_ite.mp h htag)⟩
  · rintro ⟨h1, h2, h3, h4, hpdu⟩
    exact ⟨h1, h2, h3, h4, returns_ite.mpr fun htag => (returns_pdu _).mpr (hpdu htag)⟩

/-- **The parser answers exactly what it can read.** On a message that can be read, and on no other,
`parse_snmp_response` comes to `None` or a dict; on any other it raises `NameError`. -/
theorem parseSnmpResponse_returns_iff (data : Bytes) :
    (∃ r, parseSnmpResponse data = .ok r) ↔ Readable data := by
  rw [← readResponse_returns_iff]
  unfold parseSnmpResponse Returns
  cases readResponse data with
  | error e => exact iff_of_false (not_returns_error _) (not_returns_error e)
  | ok r => exact iff_of_true (returns_ok r) (returns_ok r)

/-- **An empty datagram** raises: the first header is missing, and the handler fails. -/
theorem parseSnmpResponse_empty :
    parseSnmpResponse [] = .error .nameError ∧
      ¬ ∀ data, ∃ r, parseSnmpResponse data = .ok r := by
  have hempty : parseSnmpResponse [] = .error .nameError := rfl
  refine ⟨hempty, ?_⟩
  intro h
  obtain ⟨r, hr⟩ := h []
  rw [hempty] at hr
  cases hr

end NetPulse.Infra
