import NetPulse.Lib.Json
import NetPulse.Lib.Machine
import NetPulse.Mesh.NeighborTable

/-
# NetPulse.Mesh.GossipValues — gossip as it arrives

`NeighborTable` reads gossip lists whose entries have the right types. What arrives is a list of
arbitrary values, and `merge_gossip` meets them in two ways: a node that is new goes through the
constructor of `NeighborInfo`, which checks each field, and the entry of a node that is in the table
gets its fields assigned one by one, unchecked. Whatever raises ends the whole merge.

The table below stores values, as the code does; on entries with the right types it is the table of
`NeighborTable` (`encode_mergeGossip`). `gossip_stays_well_formed` says what the entries of received
lists must be like for no merge to raise and for everything emitted to be acceptable elsewhere.
-/

namespace NetPulse.Mesh

open NetPulse.Lib

/-! ## §1 Values -/

/-- An `int`, a finite `float`, or an infinity or NaN. -/
inductive PyNum where
  | int (n : Int)
  | float (q : ℚ)
  | special

instance : Json.Truth PyNum where
  isTrue
    | .int n => n ≠ 0
    | .float q => q ≠ 0
    | .special => true

abbrev Value := Json PyNum

/-- The conversions of texts that are not in the repository: `int(s)` on a text, and what an integer
field of a pydantic model takes. -/
class Conversions where
  intOfText : String → Option Int
  asInt : Value → Option Int
  asInt_int : ∀ n, asInt (.num (.int n)) = some n

export Conversions (intOfText asInt asInt_int)

inductive PyExn where
  | attributeError
  | typeError
  | valueError
  | validationError

/-- `int(x)`, truncating; `none` when it raises. -/
def pyInt [Conversions] : Value → Option Int
  | .bool b => some (if b then 1 else 0)
  | .num (.int n) => some n
  | .num (.float q) => some (if 0 ≤ q then q.floor else -(-q).floor)
  | .str s => intOfText s
  | _ => none

def isText : Value → Bool
  | .str _ => true
  | _ => false

def isTextList : Value → Bool
  | .list items => items.all isText
  | _ => false

/-- The value can be the key of a dict. -/
def hashable : Value → Bool
  | .list _ | .obj _ => false
  | _ => true

def canonValue [Canon] : Value → Value
  | .str s => .str (canon s)
  | v => v

/-- The value is this text. -/
def isThe (s : String) : Value → Bool
  | .str s' => s' = s
  | _ => false

/-- `entry.get(key)` -/
def getValue (entry : Json.Entries PyNum) (key : String) : Value :=
  (Dict.lookup key entry).getD .null

/-- `a or b` -/
def orElse (a b : Value) : Value := if a.truthy then a else b

/-! ## §2 The stored entries -/

/-- The fields that gossip assigns. -/
structure Meta where
  host : Value
  port : Value
  version : Value
  services : Value
  role : Value

/-- The defaults of a new entry. -/
def Meta.default : Meta where
  host := .str ""
  port := .num (.int 9000)
  version := .str PROTOCOL_VERSION
  services := .list []
  role := .str ROLE_NODE

/-- `entry.get(key, default)` for each field. -/
def Meta.ofEntry (entry : Json.Entries PyNum) (default : Meta) : Meta where
  host := (Dict.lookup "host" entry).getD default.host
  port := (Dict.lookup "port" entry).getD default.port
  version := (Dict.lookup "version" entry).getD default.version
  services := (Dict.lookup "services" entry).getD default.services
  role := (Dict.lookup "role" entry).getD default.role

/-- The check of the model `NeighborInfo`: texts must be texts, a port is converted. -/
def Meta.validate [Conversions] (m : Meta) : Option Meta :=
  if isText m.host && isText m.version && isTextList m.services && isText m.role then
    (asInt m.port).map fun n => { m with port := .num (.int n) }
  else none

/-- A `NeighborInfo` whose fields have been assigned from anywhere. -/
structure RawInfo where
  nodeId : String
  status : NeighborStatus
  via : Option String
  hops : Int
  lastTs : Time
  sessionId : Option String
  fields : Meta

def statusText : NeighborStatus → String
  | .connected => "connected"
  | .known => "known"
  | .unreachable => "unreachable"

def optText : Option String → Value
  | some s => .str s
  | none => .null

/-- `model_dump`, which checks nothing either. -/
def RawInfo.modelDump (i : RawInfo) : Value :=
  .obj
    [("node_id", .str i.nodeId), ("host", i.fields.host), ("port", i.fields.port),
      ("status", .str (statusText i.status)), ("via", optText i.via), ("hops", .num (.int i.hops)),
      ("last_ts", .num (.float i.lastTs)), ("session_id", optText i.sessionId),
      ("version", i.fields.version), ("services", i.fields.services), ("role", i.fields.role)]

section Tables

variable [Canon] [Conversions]

structure RawTable where
  ownNodeId : String
  table : Dict String RawInfo

namespace RawTable

def init (ownNodeId : String) : RawTable := ⟨canon ownNodeId, Dict.empty⟩

def put (t : RawTable) (key : String) (i : RawInfo) : RawTable :=
  { t with table := t.table.set key i }

/-! ## §3 `merge_gossip` -/

/-- `self._table.get(key)`, for a key that can be one. -/
def entryOf (t : RawTable) : Value → Option RawInfo
  | .str s => t.table.get s
  | _ => none

/-- The two-hop guard. -/
def viaPointsBack (t : RawTable) (via : Value) : Bool :=
  match t.entryOf (canonValue (orElse via (.str ""))) with
  | some viaInfo => canon? viaInfo.via = some (canon t.ownNodeId)
  | none => false

/-- `_canon(entry.get('via')) == _canon(existing.via)` -/
def sameVia (via : Value) (existing : Option String) : Bool :=
  match via, existing with
  | .str s, some s' => canon s = canon s'
  | .null, none => true
  | _, _ => false

/-- The assignments of an update, to an entry that is not connected. -/
def updated (now : Time) (fromNode : String) (entry : Json.Entries PyNum) (incomingHops : Int)
    (existing : RawInfo) : RawInfo :=
  let refreshed := { existing with fields := Meta.ofEntry entry existing.fields, lastTs := now }
  if incomingHops < existing.hops then
    { refreshed with
      via := some fromNode
      hops := incomingHops
      status := if existing.status = .unreachable then .known else existing.status }
  else if incomingHops = existing.hops ∧ !sameVia (getValue entry "via") existing.via then
    if existing.status = .unreachable then
      { refreshed with via := some fromNode, hops := incomingHops, status := .known }
    else refreshed
  else
    { refreshed with
      status :=
        if existing.status = .unreachable ∧ incomingHops ≤ existing.hops + 2 then .known
        else existing.status }

/-- The entry of a new node, checked. -/
def learned (now : Time) (fromNode nodeId : String) (entry : Json.Entries PyNum)
    (incomingHops : Int) : Option RawInfo :=
  (Meta.ofEntry entry Meta.default).validate.map fun fields =>
    { nodeId, status := .known, via := some fromNode, hops := incomingHops, lastTs := now
      sessionId := none, fields }

/-- The end of a round, for an id that is neither empty nor the own one. -/
def mergeNode (now : Time) (fromNode : String) (t : RawTable) (nodeId : Value)
    (entry : Json.Entries PyNum) (incomingHops : Int) : Except PyExn RawTable :=
  match nodeId with
  | .str s =>
      match t.table.get s with
      | none =>
          match learned now fromNode s entry incomingHops with
          | some info => .ok (t.put s info)
          | none => .error .validationError
      | some existing =>
          if existing.status = .connected then .ok t
          else .ok (t.put s (updated now fromNode entry incomingHops existing))
  | .list _ | .obj _ => .error .typeError
  | _ => .error .validationError

/-- One round of the loop of `merge_gossip`. -/
def mergeEntry (now : Time) (fromNode : String) (t : RawTable) : Value → Except PyExn RawTable
  | .obj entry =>
      let nodeId := canonValue (getValue entry "node_id")
      let via := getValue entry "via"
      if !nodeId.truthy || isThe (canon t.ownNodeId) nodeId then .ok t
      else if isThe (canon t.ownNodeId) (canonValue via) then .ok t
      else if !hashable (orElse via (.str "")) then .error .typeError
      else if t.viaPointsBack via then .ok t
      else
        match pyInt (orElse (getValue entry "hops") (.num (.int 1))) with
        | some hops => mergeNode now fromNode t nodeId entry (hops + 1)
        | none => .error .valueError
  | _ => .error .attributeError

/-- The loop: an exception leaves the rest of the list unread. -/
def mergeAll (now : Time) (fromNode : String) (t : RawTable) : List Value → RawTable × Option PyExn
  | [] => (t, none)
  | e :: rest =>
      match mergeEntry now fromNode t e with
      | .ok t' => mergeAll now fromNode t' rest
      | .error x => (t, some x)

def mergeGossip (t : RawTable) (now : Time) (neighbors : List Value) (fromNode : String) :
    RawTable × Option PyExn :=
  mergeAll now (canon fromNode) t neighbors

/-- `to_gossip` -/
def toGossip (t : RawTable) : List Value :=
  (t.table.values.filter fun n => n.status ≠ .unreachable ∧ n.nodeId ≠ t.ownNodeId).map
    RawInfo.modelDump

/-! ## §4 The other operations -/

/-- `register_connected`: the constructor checks, and may raise. -/
def registerConnected (t : RawTable) (now : Time) (nodeId : String) (sessionId : String)
    (fields : Meta) : Except PyExn RawTable :=
  match { fields with services := orElse fields.services (.list []) }.validate with
  | some fields =>
      .ok (t.put (canon nodeId)
        { nodeId := canon nodeId, status := .connected, via := none, hops := 1, lastTs := now
          sessionId := some sessionId, fields })
  | none => .error .validationError

def registerKnown (t : RawTable) (now : Time) (nodeId via : String) (fields : Meta) :
    Except PyExn RawTable :=
  if (t.table.get (canon nodeId)).any fun existing => existing.status = .connected then .ok t
  else
    match { fields with services := orElse fields.services (.list []) }.validate with
    | some fields =>
        .ok (t.put (canon nodeId)
          { nodeId := canon nodeId, status := .known, via := some (canon via), hops := 2
            lastTs := now, sessionId := none, fields })
    | none => .error .validationError

/-- Change the entry of `nodeId` in place, when there is one. -/
def modify (t : RawTable) (nodeId : String) (f : RawInfo → RawInfo) : RawTable :=
  match t.table.get (canon nodeId) with
  | some info => t.put (canon nodeId) (f info)
  | none => t

def touch (t : RawTable) (now : Time) (nodeId : String) : RawTable :=
  t.modify nodeId fun info => { info with lastTs := now }

def markUnreachable (t : RawTable) (nodeId : String) : RawTable :=
  t.modify nodeId fun info => { info with status := .unreachable }

def updateServices (t : RawTable) (nodeId : String) (services : Value) : RawTable :=
  t.modify nodeId fun info => { info with fields := { info.fields with services } }

def aged (now ttlKnown : Time) (i : RawInfo) : RawInfo :=
  if i.status = .known ∧ now - i.lastTs > ttlKnown then { i with status := .unreachable } else i

def cascadeOne (d : Dict String RawInfo) (nid : String) : Dict String RawInfo :=
  match d.get nid with
  | none => d
  | some info =>
      match (info.via.filter (· ≠ "")).bind d.get with
      | none => d
      | some viaInfo =>
          if info.status = .known ∧ viaInfo.status = .unreachable then
            d.set nid { info with status := .unreachable }
          else d

def sweep (t : RawTable) (now : Time) (ttlKnown ttlUnreach : Time) : RawTable :=
  let kept := t.table.filter fun _ i =>
    ¬ (i.status = .unreachable ∧ now - i.lastTs > ttlUnreach)
  let marked := kept.mapValues fun _ i => aged now ttlKnown i
  { t with table := marked.keys.foldl cascadeOne marked }

end RawTable

/-! ## §5 Acceptable entries -/

def Meta.valid (m : Meta) : Bool := m.validate.isSome

/-- The entry has a text for its id, a via that can be looked up, a number of hops, and every field
that it has would pass the model. -/
def acceptable : Value → Bool
  | .obj entry =>
      isText (getValue entry "node_id") && hashable (orElse (getValue entry "via") (.str "")) &&
        (pyInt (orElse (getValue entry "hops") (.num (.int 1)))).isSome &&
        (Meta.ofEntry entry Meta.default).valid
  | _ => false

/-- The direct connection that the entry would not touch. -/
def RawTable.isConnected (t : RawTable) (nodeId : Value) : Bool :=
  match t.entryOf nodeId with
  | some existing => existing.status = .connected
  | none => false

/-- One of the guards skips the entry. -/
def RawTable.skips (t : RawTable) : Value → Bool
  | .obj entry =>
      let nodeId := canonValue (getValue entry "node_id")
      let via := getValue entry "via"
      !nodeId.truthy || isThe (canon t.ownNodeId) nodeId ||
        isThe (canon t.ownNodeId) (canonValue via) || hashable (orElse via (.str "")) &&
          (t.viaPointsBack via ||
            (pyInt (orElse (getValue entry "hops") (.num (.int 1)))).isSome && t.isConnected nodeId)
  | _ => false

/-- Each entry, when its turn comes, is skipped or acceptable. -/
def RawTable.Good (now : Time) (fromNode : String) (t : RawTable) : List Value → Prop
  | [] => True
  | e :: rest => (t.skips e ∨ acceptable e) ∧
      ∀ t', RawTable.mergeEntry now fromNode t e = .ok t' → Good now fromNode t' rest

/-- The fields of every entry would pass the model. -/
def RawTable.WellTyped (t : RawTable) : Prop := ∀ k i, t.table.get k = some i → i.fields.valid

/-- Any node's `merge_gossip` gets past the entry, whatever its table. -/
def Accepted (e : Value) : Prop :=
  ∀ (t : RawTable) (now : Time) (fromNode : String),
    ∃ t', RawTable.mergeEntry now fromNode t e = .ok t' ∧ (t.WellTyped → t'.WellTyped)

/-! ## §6 One round -/

omit [Canon] in
theorem valid_validate {m m' : Meta} (h : m.validate = some m') : m'.valid := by
  unfold Meta.validate at h
  split_ifs at h with htexts
  obtain ⟨n, _, rfl⟩ := Option.map_eq_some_iff.mp h
  unfold Meta.valid Meta.validate
  rw [if_pos htexts, asInt_int]
  rfl

omit [Canon] in
theorem valid_iff {m : Meta} : m.valid ↔ (isText m.host ∧ isText m.version ∧
    isTextList m.services ∧ isText m.role) ∧ (asInt m.port).isSome := by
  unfold Meta.valid Meta.validate
  split_ifs with htexts
  · simp only [Bool.and_eq_true] at htexts
    rw [Option.isSome_map]
    exact ⟨fun h => ⟨⟨htexts.1.1.1, htexts.1.1.2, htexts.1.2, htexts.2⟩, h⟩, fun h => h.2⟩
  · simp only [Bool.and_eq_true] at htexts
    exact ⟨fun h => (by cases h), fun h => absurd ⟨⟨⟨h.1.1, h.1.2.1⟩, h.1.2.2.1⟩, h.1.2.2.2⟩ htexts⟩

omit [Canon] [Conversions] in
/-- A field that is present comes from the entry, and any other stays. -/
theorem present_or_kept {P : Value → Prop} {entry : Json.Entries PyNum} {key : String} {d d' : Value}
    (h : P ((Dict.lookup key entry).getD d)) (hd' : P d') :
    P ((Dict.lookup key entry).getD d') := by
  cases hlook : Dict.lookup key entry with
  | none => exact hd'
  | some v =>
      rw [hlook] at h
      exact h

omit [Canon] in
theorem valid_ofEntry {entry : Json.Entries PyNum} {m : Meta}
    (h : (Meta.ofEntry entry Meta.default).valid) (hm : m.valid) : (Meta.ofEntry entry m).valid := by
  rw [valid_iff] at h hm ⊢
  obtain ⟨⟨hhost, hversion, hservices, hrole⟩, hport⟩ := h
  obtain ⟨⟨mhost, mversion, mservices, mrole⟩, mport⟩ := hm
  refine ⟨⟨?_, ?_, ?_, ?_⟩, ?_⟩
  · exact present_or_kept (P := fun v => isText v = true) hhost mhost
  · exact present_or_kept (P := fun v => isText v = true) hversion mversion
  · exact present_or_kept (P := fun v => isTextList v = true) hservices mservices
  · exact present_or_kept (P := fun v => isText v = true) hrole mrole
  · exact present_or_kept (P := fun v => (asInt v).isSome = true) hport mport

omit [Conversions] in
theorem fields_updated (now : Time) (fromNode : String) (entry : Json.Entries PyNum) (hops : Int)
    (i : RawInfo) :
    (RawTable.updated now fromNode entry hops i).fields = Meta.ofEntry entry i.fields := by
  unfold RawTable.updated
  split_ifs <;> rfl

namespace RawTable

omit [Canon] in
theorem wellTyped_put {t : RawTable} (h : t.WellTyped) {k : String} {i : RawInfo}
    (hi : i.fields.valid) : (t.put k i).WellTyped := by
  exact Dict.forall_get_set (P := fun _ (i : RawInfo) => i.fields.valid = true) h hi

/-- **A skipped entry changes nothing**, whatever else is in it. -/
theorem mergeEntry_of_skips {now : Time} {fromNode : String} {t : RawTable} {e : Value}
    (h : t.skips e) : mergeEntry now fromNode t e = .ok t := by
  cases e with
  | obj entry =>
      simp only [skips, Bool.or_eq_true, Bool.and_eq_true] at h
      simp only [mergeEntry]
      split_ifs with hid hvia hhash hback
      · rfl
      · rfl
      · -- a via without a hash would raise, so the entry was skipped before
        simp only [Bool.or_eq_true] at hid
        rcases h with (h | h) | h
        · exact absurd h hid
        · exact absurd h hvia
        · rw [h.1] at hhash
          cases hhash
      · rfl
      · -- the last guard: a direct connection, once the hops are a number
        simp only [Bool.or_eq_true] at hid
        rcases h with (h | h) | h
        · exact absurd h hid
        · exact absurd h hvia
        · obtain ⟨hhops, hconn⟩ := h.2.resolve_left hback
          obtain ⟨hops, hhops⟩ := Option.isSome_iff_exists.mp hhops
          rw [hhops]
          unfold isConnected at hconn
          cases hnode : canonValue (getValue entry "node_id") with
          | str s =>
              rw [hnode, entryOf] at hconn
              simp only [mergeNode]
              cases hget : t.table.get s with
              | none =>
                  rw [hget] at hconn
                  cases hconn
              | some existing =>
                  rw [hget] at hconn
                  simp only [decide_eq_true_eq] at hconn
                  simp only [hconn, if_true]
          | _ =>
              rw [hnode] at hconn
              cases hconn
  | _ => cases h

/-- **An acceptable entry is merged**, and what it leaves is well typed. -/
theorem mergeEntry_of_acceptable {e : Value} (h : acceptable e) : Accepted e := by
  intro t now fromNode
  cases e with
  | obj entry =>
      simp only [acceptable, Bool.and_eq_true] at h
      obtain ⟨⟨⟨hid, hhash⟩, hhops⟩, hmeta⟩ := h
      obtain ⟨hops, hhops⟩ := Option.isSome_iff_exists.mp hhops
      simp only [mergeEntry, hhash, hhops]
      split_ifs
      · exact ⟨t, rfl, id⟩
      · exact ⟨t, rfl, id⟩
      · rename_i hf
        cases hf
      · exact ⟨t, rfl, id⟩
      · cases hnode : getValue entry "node_id" with
        | str s =>
            simp only [canonValue, mergeNode]
            cases hget : t.table.get (canon s) with
            | none =>
                -- a new node: the constructor checks the fields
                obtain ⟨fields, hfields⟩ := Option.isSome_iff_exists.mp hmeta
                simp only [learned, hfields, Option.map_some]
                exact ⟨_, rfl, fun hw => wellTyped_put hw (valid_validate hfields)⟩
            | some existing =>
                dsimp only
                split_ifs
                · exact ⟨t, rfl, id⟩
                · -- a known node: its fields are overwritten without a check
                  refine ⟨_, rfl, fun hw => wellTyped_put hw ?_⟩
                  rw [fields_updated]
                  exact valid_ofEntry hmeta (hw _ _ hget)
        | _ =>
            rw [hnode] at hid
            cases hid
  | _ => cases h

/-! ## §7 A whole list -/

/-- **A good list is merged to its end**, and the entries that are not acceptable might as well not
have been in it. -/
theorem mergeAll_of_good {now : Time} {fromNode : String} {es : List Value} {t : RawTable}
    (h : t.Good now fromNode es) :
    (mergeAll now fromNode t es).2 = none ∧
      (t.WellTyped → (mergeAll now fromNode t es).1.WellTyped) ∧
      mergeAll now fromNode t (es.filter acceptable) = mergeAll now fromNode t es := by
  induction es generalizing t with
  | nil => exact ⟨rfl, id, rfl⟩
  | cons e rest ih =>
      obtain ⟨hfirst, hrest⟩ := h
      by_cases hacc : acceptable e
      · obtain ⟨t', ht', hkeep⟩ := mergeEntry_of_acceptable hacc t now fromNode
        obtain ⟨hnone, hwell, hsame⟩ := ih (hrest t' ht')
        simp only [List.filter_cons_of_pos hacc, mergeAll, ht']
        exact ⟨hnone, fun hw => hwell (hkeep hw), hsame⟩
      · -- what is not acceptable is skipped, and the table is still `t`
        have hskip : mergeEntry now fromNode t e = .ok t :=
          mergeEntry_of_skips (hfirst.resolve_right hacc)
        obtain ⟨hnone, hwell, hsame⟩ := ih (hrest t hskip)
        simp only [List.filter_cons_of_neg hacc, mergeAll, hskip]
        exact ⟨hnone, hwell, hsame⟩

/-! ## §8 The other operations keep the types -/

omit [Canon] in
theorem acceptable_modelDump {i : RawInfo} (h : i.fields.valid) :
    acceptable i.modelDump := by
  have hfields : Meta.ofEntry
      [("node_id", .str i.nodeId), ("host", i.fields.host), ("port", i.fields.port),
        ("status", .str (statusText i.status)), ("via", optText i.via), ("hops", .num (.int i.hops)),
        ("last_ts", .num (.float i.lastTs)), ("session_id", optText i.sessionId),
        ("version", i.fields.version), ("services", i.fields.services), ("role", i.fields.role)]
      Meta.default = i.fields := by
    simp [Meta.ofEntry, Dict.lookup]
  have hvia : hashable (orElse (optText i.via) (.str "")) := by
    cases i.via with
    | none => rfl
    | some v =>
        unfold orElse
        split_ifs <;> rfl
  have hhops : (pyInt (orElse (.num (.int i.hops)) (.num (.int 1)))).isSome := by
    unfold orElse
    split_ifs <;> rfl
  simp only [RawInfo.modelDump, acceptable, hfields, h]
  simp [getValue, Dict.lookup, isText, hvia, hhops]

/-- What a well typed table emits, every table accepts. -/
theorem accepted_toGossip {t : RawTable} (h : t.WellTyped) : ∀ e ∈ t.toGossip, Accepted e := by
  intro e he
  obtain ⟨i, hi, rfl⟩ := List.mem_map.mp he
  obtain ⟨k, hk⟩ := (Dict.mem_values_iff t.table).mp (List.mem_filter.mp hi).1
  exact mergeEntry_of_acceptable (acceptable_modelDump (h k i hk))

theorem wellTyped_modify {t : RawTable} (h : t.WellTyped) {nodeId : String}
    {f : RawInfo → RawInfo}
    (hf : ∀ i, t.table.get (canon nodeId) = some i → i.fields.valid → (f i).fields.valid) :
    (t.modify nodeId f).WellTyped := by
  unfold modify
  cases hget : t.table.get (canon nodeId) with
  | none => exact h
  | some i => exact wellTyped_put h (hf i hget (h _ i hget))

theorem wellTyped_registerConnected {t t' : RawTable} (h : t.WellTyped) {now : Time}
    {nodeId sessionId : String} {fields : Meta}
    (hreg : t.registerConnected now nodeId sessionId fields = .ok t') : t'.WellTyped := by
  unfold registerConnected at hreg
  split at hreg
  · rename_i checked hchecked
    cases hreg
    exact wellTyped_put h (valid_validate hchecked)
  · cases hreg

theorem wellTyped_registerKnown {t t' : RawTable} (h : t.WellTyped) {now : Time}
    {nodeId via : String} {fields : Meta}
    (hreg : t.registerKnown now nodeId via fields = .ok t') : t'.WellTyped := by
  unfold registerKnown at hreg
  split_ifs at hreg
  · cases hreg
    exact h
  · split at hreg
    · rename_i checked hchecked
      cases hreg
      exact wellTyped_put h (valid_validate hchecked)
    · cases hreg

omit [Canon] in
theorem wellTyped_cascadeOne {t : RawTable} {d : Dict String RawInfo} (nid : String)
    (h : ({ t with table := d } : RawTable).WellTyped) :
    ({ t with table := cascadeOne d nid } : RawTable).WellTyped := by
  unfold cascadeOne
  split
  · exact h
  · rename_i info hinfo
    split
    · exact h
    · split_ifs
      · exact wellTyped_put h (show info.fields.valid from h nid info hinfo)
      · exact h

omit [Canon] in
theorem wellTyped_sweep {t : RawTable} (h : t.WellTyped) (now ttlKnown ttlUnreach : Time) :
    (t.sweep now ttlKnown ttlUnreach).WellTyped := by
  have hmarked : ∀ k i, ((t.table.filter fun _ i =>
      ¬ (i.status = .unreachable ∧ now - i.lastTs > ttlUnreach)).mapValues
        fun _ i => aged now ttlKnown i).get k = some i → i.fields.valid := by
    intro k i hi
    rw [Dict.get_mapValues] at hi
    obtain ⟨j, hj, rfl⟩ := Option.map_eq_some_iff.mp hi
    have hvalid : j.fields.valid = true := Dict.forall_get_filter h _ k j hj
    unfold aged
    split_ifs <;> exact hvalid
  have hfold : ∀ (keys : List String) (d : Dict String RawInfo),
      ({ t with table := d } : RawTable).WellTyped →
        ({ t with table := keys.foldl cascadeOne d } : RawTable).WellTyped := by
    intro keys
    induction keys with
    | nil => intro d hd; exact hd
    | cons nid rest ih => intro d hd; exact ih _ (wellTyped_cascadeOne nid hd)
  exact hfold _ _ hmarked

end RawTable

/-! ## §9 Gossip with types -/

def encodeInfo (i : NeighborInfo) : RawInfo where
  nodeId := i.nodeId
  status := i.status
  via := i.via
  hops := i.hops
  lastTs := i.lastTs
  sessionId := i.sessionId
  fields :=
    { host := .str i.host, port := .num (.int i.port), version := .str i.version
      services := .list (i.services.map .str), role := .str i.role }

def encodeTable (t : NeighborTable) : RawTable :=
  ⟨t.ownNodeId, t.table.mapValues fun _ => encodeInfo⟩

/-- A key that may be absent. -/
def field (key : String) : Option Value → Json.Entries PyNum
  | some v => [(key, v)]
  | none => []

def encodeEntry (e : GossipEntry) : Json.Entries PyNum :=
  field "node_id" (e.nodeId.map .str) ++ (field "host" (e.host.map .str) ++
    (field "port" (e.port.map fun n => .num (.int n)) ++ (field "via" (e.via.map .str) ++
      (field "hops" (e.hops.map fun n => .num (.int n)) ++
        (field "version" (e.version.map .str) ++
          (field "services" (e.services.map fun l => .list (l.map .str)) ++
            (field "role" (e.role.map .str) ++ [])))))))

omit [Canon] [Conversions] in
theorem lookup_field (k key : String) (v : Option Value) (rest : Json.Entries PyNum) :
    Dict.lookup k (field key v ++ rest) =
      if key = k then v.or (Dict.lookup k rest) else Dict.lookup k rest := by
  cases v with
  | none => simp [field]
  | some v =>
      simp only [field, List.singleton_append, Dict.lookup]
      rfl

omit [Canon] [Conversions] in
theorem fields_encode (now : Time) (e : GossipEntry) (i : NeighborInfo) :
    Meta.ofEntry (encodeEntry e) (encodeInfo i).fields =
      (encodeInfo (NeighborTable.refreshed now e i)).fields := by
  simp only [Meta.ofEntry, encodeEntry, lookup_field, encodeInfo, NeighborTable.refreshed]
  cases e.host <;> cases e.port <;> cases e.version <;> cases e.services <;> cases e.role <;> rfl

omit [Canon] [Conversions] in
theorem nodeId_encode (e : GossipEntry) :
    getValue (encodeEntry e) "node_id" = optText e.nodeId := by
  simp only [getValue, encodeEntry, lookup_field]
  cases e.nodeId <;> rfl

omit [Canon] [Conversions] in
theorem via_encode (e : GossipEntry) : getValue (encodeEntry e) "via" = optText e.via := by
  simp only [getValue, encodeEntry, lookup_field]
  cases e.via <;> rfl

omit [Canon] in
theorem hops_encode (e : GossipEntry) :
    ∃ n, pyInt (orElse (getValue (encodeEntry e) "hops") (.num (.int 1))) = some n ∧
      n + 1 = e.incomingHops := by
  have hlook : getValue (encodeEntry e) "hops" =
      (e.hops.map fun n => Json.num (PyNum.int n)).getD .null := by
    simp only [getValue, encodeEntry, lookup_field]
    cases e.hops <;> rfl
  rw [hlook]
  unfold GossipEntry.incomingHops
  cases e.hops with
  | none => exact ⟨1, rfl, rfl⟩
  | some n =>
      by_cases hn : n = 0
      · subst hn
        exact ⟨1, rfl, rfl⟩
      · refine ⟨n, ?_, ?_⟩
        · simp [orElse, Json.truthy, Json.Truth.isTrue, hn, pyInt]
        · simp only [if_neg hn]

omit [Conversions] in
theorem sameVia_iff (via existing : Option String) :
    RawTable.sameVia (optText via) existing = true ↔ canon? via = canon? existing := by
  cases via <;> cases existing <;> simp [RawTable.sameVia, optText]

omit [Conversions] in
theorem updated_encode (now : Time) (fromNode : String) (e : GossipEntry) (i : NeighborInfo) :
    RawTable.updated now fromNode (encodeEntry e) e.incomingHops (encodeInfo i) =
      encodeInfo (NeighborTable.updated now fromNode e i) := by
  have hfields := fields_encode now e i
  have hsame : (!RawTable.sameVia (getValue (encodeEntry e) "via") (encodeInfo i).via) = true ↔
      canon? e.via ≠ canon? i.via := by
    rw [via_encode, Bool.not_eq_true', ← Bool.not_eq_true, sameVia_iff]
    rfl
  have hhops : (encodeInfo i).hops = i.hops := rfl
  have hstatus : (encodeInfo i).status = i.status := rfl
  unfold RawTable.updated NeighborTable.updated
  simp only [hsame, hfields, hhops, hstatus]
  split_ifs <;> rfl

omit [Canon] in
theorem learned_encode (now : Time) (fromNode nodeId : String) (e : GossipEntry) :
    RawTable.learned now fromNode nodeId (encodeEntry e) e.incomingHops =
      some (encodeInfo (NeighborTable.learned now fromNode nodeId e)) := by
  -- the defaults are those of an entry without any of the keys
  have hmeta : Meta.ofEntry (encodeEntry e) Meta.default =
      (encodeInfo (NeighborTable.learned now fromNode nodeId e)).fields :=
    fields_encode now e
      { nodeId, host := "", port := 9000, status := .known, via := none, hops := 1, lastTs := now
        sessionId := none, version := PROTOCOL_VERSION, services := [], role := ROLE_NODE }
  have hvalid (i : NeighborInfo) : (encodeInfo i).fields.validate = some (encodeInfo i).fields := by
    have hservices : isTextList (.list (i.services.map .str)) := by
      simp [isTextList, isText]
    simp only [Meta.validate, encodeInfo, hservices, isText, asInt_int]
    rfl
  unfold RawTable.learned
  rw [hmeta, hvalid]
  rfl


omit [Conversions] in
theorem entryOf_encode (t : NeighborTable) (s : String) :
    (encodeTable t).entryOf (.str s) = (t.table.get s).map encodeInfo :=
  Dict.get_mapValues _ t.table s

omit [Canon] [Conversions] in
theorem orElse_optText (s : Option String) :
    orElse (optText s) (.str "") = .str (s.getD "") := by
  cases s with
  | none => rfl
  | some v =>
      by_cases hv : v = ""
      · subst hv
        rfl
      · simp [orElse, optText, Json.truthy, hv]

omit [Conversions] in
theorem put_encode (t : NeighborTable) (k : String) (i : NeighborInfo) :
    (encodeTable t).put k (encodeInfo i) = encodeTable (t.put k i) := by
  simp only [encodeTable, RawTable.put, NeighborTable.put, Dict.mapValues_set]

/-- **On entries with the right types** the merge of values is the merge of `NeighborTable`. -/
theorem encode_mergeEntry (now : Time) (fromNode : String) (t : NeighborTable) (e : GossipEntry) :
    RawTable.mergeEntry now fromNode (encodeTable t) (.obj (encodeEntry e)) =
      .ok (encodeTable (NeighborTable.mergeEntry now fromNode t e)) := by
  obtain ⟨n, hn, hsucc⟩ := hops_encode e
  have hback : (encodeTable t).viaPointsBack (optText e.via) = t.viaPointsBack e := by
    unfold RawTable.viaPointsBack NeighborTable.viaPointsBack
    simp only [orElse_optText, canonValue, entryOf_encode]
    cases t.table.get (canon (e.via.getD "")) <;> rfl
  have hvia : isThe (canon t.ownNodeId) (canonValue (optText e.via)) = true ↔
      canon? e.via = some (canon t.ownNodeId) := by
    cases e.via <;> simp [isThe, canonValue, optText]
  have hhash : hashable (orElse (optText e.via) (.str "")) := by
    rw [orElse_optText]
    rfl
  have hown : (encodeTable t).ownNodeId = t.ownNodeId := rfl
  simp only [RawTable.mergeEntry, nodeId_encode, via_encode, hn, hsucc, hhash, hback, hown, hvia,
    Bool.not_true, Bool.false_eq_true, if_false]
  unfold NeighborTable.mergeEntry NeighborTable.acceptedId
  cases hid : e.nodeId with
  | none => rfl
  | some raw =>
      have hskip : (!(canonValue (optText (some raw))).truthy ||
          isThe (canon t.ownNodeId) (canonValue (optText (some raw)))) = true ↔
          canon raw = "" ∨ canon raw = canon t.ownNodeId := by
        simp [canonValue, optText, Json.truthy, isThe]
      simp only [hskip, canon?_some]
      split_ifs
      · rfl
      · rfl
      · rfl
      · simp only [canonValue, optText, RawTable.mergeNode]
        have hget : (encodeTable t).table.get (canon raw) =
            (t.table.get (canon raw)).map encodeInfo := Dict.get_mapValues _ t.table _
        rw [hget]
        cases t.table.get (canon raw) with
        | none =>
            simp only [Option.map_none, learned_encode, put_encode]
        | some existing =>
            have hstatus : (encodeInfo existing).status = existing.status := rfl
            simp only [Option.map_some, hstatus]
            split_ifs
            · rfl
            · rw [updated_encode, put_encode]

/-- And so is the merge of a list. -/
theorem encode_mergeGossip (t : NeighborTable) (now : Time) (es : List GossipEntry)
    (fromNode : String) :
    (encodeTable t).mergeGossip now (es.map fun e => .obj (encodeEntry e)) fromNode =
      (encodeTable (t.mergeGossip now es fromNode), none) := by
  unfold RawTable.mergeGossip NeighborTable.mergeGossip
  induction es generalizing t with
  | nil => rfl
  | cons e rest ih =>
      simp only [List.map_cons, RawTable.mergeAll, encode_mergeEntry, List.foldl_cons]
      exact ih _

/-! ## §10 Runs -/

/-- The operations on a table. -/
inductive RawEvent where
  | registerConnected (now : Time) (nodeId sessionId : String) (fields : Meta)
  | registerKnown (now : Time) (nodeId via : String) (fields : Meta)
  | touch (now : Time) (nodeId : String)
  | markUnreachable (nodeId : String)
  | updateServices (nodeId : String) (services : Value)
  | mergeGossip (now : Time) (neighbors : List Value) (fromNode : String)
  | sweep (now ttlKnown ttlUnreach : Time)

/-- A registration that raises leaves the table alone. -/
def settled (t : RawTable) : Except PyExn RawTable → RawTable
  | .ok t' => t'
  | .error _ => t

def rawMachine : Machine RawTable RawEvent where
  step t
    | .registerConnected now nodeId sessionId fields =>
        some (settled t (t.registerConnected now nodeId sessionId fields))
    | .registerKnown now nodeId via fields =>
        some (settled t (t.registerKnown now nodeId via fields))
    | .touch now nodeId => some (t.touch now nodeId)
    | .markUnreachable nodeId => some (t.markUnreachable nodeId)
    | .updateServices nodeId services => some (t.updateServices nodeId services)
    | .mergeGossip now neighbors fromNode => some (t.mergeGossip now neighbors fromNode).1
    | .sweep now ttlKnown ttlUnreach => some (t.sweep now ttlKnown ttlUnreach)

/-- The values that come without a check of their own are as their types say. -/
def wellFed (t : RawTable) : RawEvent → Prop
  | .updateServices nodeId services => isTextList services ∨ t.table.get (canon nodeId) = none
  | .mergeGossip now neighbors fromNode => t.Good now (canon fromNode) neighbors
  | _ => True

/-- The merge ends without an exception, with the table that the acceptable entries alone lead to. -/
def mergesAlike (t : RawTable) : RawEvent → RawTable → Prop
  | .mergeGossip now neighbors fromNode, t' =>
      t.mergeGossip now neighbors fromNode = (t', none) ∧
        t.mergeGossip now (neighbors.filter acceptable) fromNode = (t', none)
  | _, _ => True

omit [Canon] in
theorem wellTyped_settled {t : RawTable} {r : Except PyExn RawTable} (h : t.WellTyped)
    (hr : ∀ t', r = .ok t' → t'.WellTyped) : (settled t r).WellTyped := by
  cases r with
  | ok t' => exact hr t' rfl
  | error x => exact h

theorem wellTyped_step {t t' : RawTable} {e : RawEvent} (h : t.WellTyped) (hfed : wellFed t e)
    (hs : rawMachine.step t e = some t') : t'.WellTyped := by
  cases e with
  | registerConnected now nodeId sessionId fields =>
      cases hs
      exact wellTyped_settled h fun u hu => RawTable.wellTyped_registerConnected h hu
  | registerKnown now nodeId via fields =>
      cases hs
      exact wellTyped_settled h fun u hu => RawTable.wellTyped_registerKnown h hu
  | touch now nodeId =>
      cases hs
      exact RawTable.wellTyped_modify h fun i _ hi => hi
  | markUnreachable nodeId =>
      cases hs
      exact RawTable.wellTyped_modify h fun i _ hi => hi
  | updateServices nodeId services =>
      cases hs
      apply RawTable.wellTyped_modify h
      intro i hi hvalid
      rcases hfed with htexts | hnone
      · rw [valid_iff] at hvalid ⊢
        exact ⟨⟨hvalid.1.1, hvalid.1.2.1, htexts, hvalid.1.2.2.2⟩, hvalid.2⟩
      · rw [hnone] at hi
        cases hi
  | mergeGossip now neighbors fromNode =>
      cases hs
      exact (RawTable.mergeAll_of_good hfed).2.1 h
  | sweep now ttlKnown ttlUnreach =>
      cases hs
      exact RawTable.wellTyped_sweep h now ttlKnown ttlUnreach

theorem mergesAlike_step {t t' : RawTable} {e : RawEvent} (hfed : wellFed t e)
    (hs : rawMachine.step t e = some t') : mergesAlike t e t' := by
  cases e with
  | mergeGossip now neighbors fromNode =>
      cases hs
      obtain ⟨hnone, _, hsame⟩ := RawTable.mergeAll_of_good hfed
      have hpair : t.mergeGossip now neighbors fromNode =
          ((t.mergeGossip now neighbors fromNode).1, none) := Prod.ext rfl hnone
      exact ⟨hpair, (show _ = _ from hsame).trans hpair⟩
  | _ => trivial

/-- **Gossip stays well formed** in every run in which each received entry, when its turn comes, is
acceptable or skipped, and announced services are lists of texts: no merge raises, the entries that
are not acceptable make no difference, and what is emitted every other table accepts. -/
theorem gossip_stays_well_formed {own : String} {es : List RawEvent}
    (hg : rawMachine.Guarded wellFed (RawTable.init own) es) :
    rawMachine.Always (fun t => ∀ e ∈ t.toGossip, Accepted e) (RawTable.init own) es ∧
      rawMachine.Each mergesAlike (RawTable.init own) es := by
  have hinit : (RawTable.init own).WellTyped := by
    intro k i hi
    cases hi
  have hstep : ∀ (t : RawTable) (e : RawEvent) (t' : RawTable), t.WellTyped → wellFed t e →
      rawMachine.step t e = some t' → t'.WellTyped := fun t e t' => wellTyped_step
  exact ⟨Machine.always_of_guarded (fun t => RawTable.accepted_toGossip) hstep hinit hg,
    Machine.each_of_guarded (fun t e t' _ => mergesAlike_step) hstep hinit hg⟩

end Tables

section Concrete

attribute [local instance] asciiCanon

/-- The conversions on the texts and numbers of the runs below. -/
@[reducible] def plainConversions : Conversions where
  intOfText s := s.toInt?
  asInt v :=
    match v with
    | .num (.int n) => some n
    | .bool b => some (if b then 1 else 0)
    | .str s => s.toInt?
    | _ => none
  asInt_int _ := rfl

attribute [local instance] plainConversions

def entryFor (nodeId : String) (more : Json.Entries PyNum) : Value :=
  .obj (("node_id", .str nodeId) :: more)

/-- An entry without a host, and junk where nobody looks. -/
theorem gossip_stays_well_formed_run :
    rawMachine.Always (fun t => ∀ e ∈ t.toGossip, Accepted e) (RawTable.init "a")
        [.mergeGossip 0 [entryFor "b" [], entryFor "A" [("host", .null)]] "c",
          .updateServices "b" (.list [.str "files"])] ∧
      rawMachine.Each mergesAlike (RawTable.init "a")
        [.mergeGossip 0 [entryFor "b" [], entryFor "A" [("host", .null)]] "c",
          .updateServices "b" (.list [.str "files"])] := by
  apply gossip_stays_well_formed
  refine ⟨⟨Or.inr (by decide), fun t' ht' => ⟨Or.inl ?_, fun _ _ => trivial⟩⟩, fun t' _ =>
    ⟨Or.inl (by decide), fun _ _ => trivial⟩⟩
  cases ht'
  decide

/-- **A null in a field, and a list item that is no object.** The null is refused for a node that
is new and stored for a node that is known; from then on the table emits it, and the next table
raises. The item ends the merge before the entry behind it. -/
theorem null_is_stored_and_emitted :
    (∃ t, rawMachine.run (RawTable.init "a")
        [.mergeGossip 0 [entryFor "b" []] "c",
          .mergeGossip 1 [entryFor "b" [("host", .null)]] "c"] = some t ∧
        ∃ e ∈ t.toGossip, ¬ Accepted e) ∧
      ((RawTable.init "a").mergeGossip 0 [.str "b", entryFor "b" []] "c").2 ≠ none ∧
      ((RawTable.init "a").mergeGossip 0 [.str "b", entryFor "b" []] "c").1.table.get "b" = none ∧
      (((RawTable.init "a").mergeGossip 0 [entryFor "b" []] "c").1.table.get "b").isSome := by
  refine ⟨⟨_, rfl, _, List.mem_singleton.mpr rfl, ?_⟩, ?_, ?_, ?_⟩
  · intro h
    obtain ⟨t', ht', _⟩ := h (RawTable.init "d") 2 "a"
    cases ht'
  · intro h
    cases h
  · rfl
  · rfl

end Concrete

end NetPulse.Mesh
