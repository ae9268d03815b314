import NetPulse.Infra.Values
import NetPulse.Lib.Dict
import NetPulse.Lib.Except

/-
# NetPulse.Infra.PortMap — the ports of a switch and its neighbours (`l2map.py`)

`port_map` joins three tables that a walk has brought, `lldp_neighbors` three others. The index of a
row is the end of its identifier. `mac_iso` is written for the text of an address, and both functions
give it the list of the parts, so that the keys are the first characters of the list as Python writes
it. The port ids are kept under their whole identifiers and looked up by the end of another one.

`tables_joined_iff`: what both functions make of the tables is right exactly when there is no address
in the forwarding table, and no port id for a neighbour.
-/

namespace NetPulse.Infra.L2Map

open NetPulse.Lib NetPulse.Lib.Text

/-! ## §1 Rows -/

/-- A row of a walk: the identifier as text, and the value. -/
abbrev Row := List Char × SnmpValue

def OID_FDB_PORT : List Char := "1.3.6.1.2.1.17.4.3.1.2".toList

def OID_PORT_IFINDEX : List Char := "1.3.6.1.2.1.17.1.4.1.2".toList

def OID_IFNAME : List Char := "1.3.6.1.2.1.31.1.1.1.1".toList

def OID_IFDESCR : List Char := "1.3.6.1.2.1.2.2.1.2".toList

def OID_LLDP_CHASSIS : List Char := "1.0.8802.1.1.2.1.4.1.1.5".toList

def OID_LLDP_PORTID : List Char := "1.0.8802.1.1.2.1.4.1.1.6".toList

def OID_LLDP_SYSNAME : List Char := "1.0.8802.1.1.2.1.4.1.1.9".toList

/-- `oid.split(".")` -/
def parts (oid : List Char) : List (List Char) := oid.splitOn '.'

/-- `l[-n:]` -/
def lastN {α : Type} (n : Nat) (l : List α) : List α := l.drop (l.length - n)

/-- `str(l)`, for a list of texts without quotes in them. -/
def listText (l : List (List Char)) : List Char :=
  '[' :: (", ".toList.intercalate (l.map fun p => '\'' :: p ++ ['\'']) ++ [']'])

/-- Two characters at a time. -/
def pairs : List Char → List (List Char)
  | a :: b :: rest => [a, b] :: pairs rest
  | [a] => [[a]]
  | [] => []

/-- `mac_iso`, of `str(raw)`. -/
def mac_iso (raw : List Char) : Option (List Char) :=
  let raw := (raw.filter fun c => c ≠ ':' ∧ c ≠ '-').take 12
  if raw.length = 12 then some ([':'].intercalate (pairs (raw.map Char.toLower))) else none

/-- `str(val)` -/
def strVal : SnmpValue → Except PyError Text
  | .str s => .ok s
  | .int n => (pyStr n).map lit

/-! ## §2 `port_map` -/

section PortMap

-- `int(s)` of a text
variable (textInt : Text → Option Int)

/-- `int(val)` -/
def intVal : SnmpValue → Option Int
  | .int n => some n
  | .str s => textInt s

structure Entry where
  mac : List Char
  port : Int
  if_index : Option Int
  if_name : Text

def addPort (ports : Dict (List Char) Int) (row : Row) : Dict (List Char) Int :=
  match mac_iso (listText (lastN 6 (parts row.1))), intVal textInt row.2 with
  | some mac, some port => ports.set mac port
  | _, _ => ports

/-- The last part of an identifier as a number. -/
def lastIndex (oid : List Char) : Option Int := (parts oid).getLast?.bind pyInt

def addPortIf (port_if : Dict Int Int) (row : Row) : Dict Int Int :=
  match lastIndex row.1, intVal textInt row.2 with
  | some idx, some if_index => port_if.set idx if_index
  | _, _ => port_if

/-- A name that is there and not empty stays. -/
def addName (ifnames : Dict Int Text) (row : Row) : Except PyError (Dict Int Text) :=
  match lastIndex row.1 with
  | none => .ok ifnames
  | some idx =>
      if (ifnames.get idx).getD [] ≠ [] then .ok ifnames
      else (strVal row.2).map fun s => ifnames.set idx (s.take 32)

/-- `f"port {port}"` -/
def portText (port : Int) : Except PyError Text :=
  (pyStr port.natAbs).map fun s => lit "port " ++ (if port < 0 then lit "-" else []) ++ lit s

def entry (port_if : Dict Int Int) (ifnames : Dict Int Text) (mac : List Char) (port : Int) :
    Except PyError Entry :=
  let if_index := port_if.get port
  let if_name := (if_index.bind ifnames.get).getD []
  if if_name ≠ [] then .ok ⟨mac, port, if_index, if_name⟩
  else (portText port).map fun if_name => ⟨mac, port, if_index, if_name⟩

/-- The last loop of `port_map`. -/
def entries (port_if : Dict Int Int) (ifnames : Dict Int Text) (ports : List (List Char × Int))
    (out : Dict (List Char) Entry) : Except PyError (Dict (List Char) Entry) :=
  ports.foldlM (fun out p => (entry port_if ifnames p.1 p.2).map fun e => out.set p.1 e) out

/-- `port_map`, of what the walks over the four columns return. -/
def port_map (fdb pi names descrs : List Row) : Except PyError (Dict (List Char) Entry) :=
  if fdb.isEmpty then .ok Dict.empty
  else do
    let ports := fdb.foldl (addPort textInt) Dict.empty
    let port_if := pi.foldl (addPortIf textInt) Dict.empty
    let ifnames ← (names ++ descrs).foldlM addName Dict.empty
    entries port_if ifnames ports.items Dict.empty

end PortMap

/-! ## §3 `lldp_neighbors` -/

/-- `s.replace(old, "", 1)` -/
def removeFirst (old : List Char) : List Char → List Char
  | [] => []
  | c :: rest =>
      if old.isPrefixOf (c :: rest) then (c :: rest).drop old.length
      else c :: removeFirst old rest

structure Neighbor where
  remote_mac : List Char
  remote_port : Option SnmpValue
  remote_sysname : SnmpValue
  remote_if : List Char

/-- `dict(rows)` -/
def dictOf (rows : List Row) : Dict (List Char) SnmpValue :=
  rows.foldl (fun d row => d.set row.1 row.2) Dict.empty

/-- `s.strip(".")` -/
def stripDots (s : List Char) : List Char := (s.dropWhile (· = '.')).rdropWhile (· = '.')

def neighbor (portids sysnames : Dict (List Char) SnmpValue) (row : Row) : Option Neighbor :=
  let oid_head := removeFirst OID_LLDP_CHASSIS row.1
  let parts := parts (stripDots oid_head)
  if parts.length < 3 then none
  else (mac_iso (listText (lastN 6 parts))).map fun mac =>
    ⟨mac, portids.get oid_head, (sysnames.get oid_head).getD (.str []), oid_head⟩

/-- `lldp_neighbors`, of what the walks over the three columns return. -/
def lldp_neighbors (rows portids sysnames : List Row) : List Neighbor :=
  rows.filterMap (neighbor (dictOf portids) (dictOf sysnames))

/-! ## §4 The tables of a switch -/

/-- The identifier of an instance: a column and an index. -/
def instanceOid (column : List Char) (index : List Nat) : List Char :=
  column ++ '.' :: ['.'].intercalate (index.map (Nat.toDigits 10))

structure Mac where
  a : UInt8
  b : UInt8
  c : UInt8
  d : UInt8
  e : UInt8
  f : UInt8
  deriving DecidableEq

def Mac.octets (m : Mac) : List UInt8 := [m.a, m.b, m.c, m.d, m.e, m.f]

def Mac.arcs (m : Mac) : List Nat := m.octets.map UInt8.toNat

/-- The six octets in hexadecimal, with colons. -/
def Mac.hex (m : Mac) : List Char :=
  [':'].intercalate (m.octets.map fun b =>
    [Nat.digitChar (b.toNat / 16), Nat.digitChar (b.toNat % 16)])

/-- What the bridge and the interfaces of a switch have. -/
structure Switch where
  /-- The forwarding table: the port of each address. -/
  fdb : Dict Mac Nat
  /-- The interface of each port. -/
  portIf : Dict Nat Nat
  names : Dict Nat Text
  descrs : Dict Nat Text

/-- The index of `lldpRemTable`. -/
structure LldpIndex where
  timeMark : Nat
  localPort : Nat
  index : Nat
  deriving DecidableEq

def LldpIndex.arcs (i : LldpIndex) : List Nat := [i.timeMark, i.localPort, i.index]

structure Lldp where
  chassis : Dict LldpIndex SnmpValue
  portids : Dict LldpIndex SnmpValue
  sysnames : Dict LldpIndex SnmpValue

/-- A column as a walk returns it. -/
def column {I V : Type} (oid : List Char) (arcs : I → List Nat) (value : V → SnmpValue)
    (table : Dict I V) : List Row :=
  table.items.map fun e => (instanceOid oid (arcs e.1), value e.2)

def Switch.portMap (textInt : Text → Option Int) (s : Switch) :
    Except PyError (Dict (List Char) Entry) :=
  port_map textInt (column OID_FDB_PORT Mac.arcs .int s.fdb)
    (column OID_PORT_IFINDEX (fun p => [p]) .int s.portIf)
    (column OID_IFNAME (fun i => [i]) .str s.names)
    (column OID_IFDESCR (fun i => [i]) .str s.descrs)

def Lldp.neighbors (t : Lldp) : List Neighbor :=
  lldp_neighbors (column OID_LLDP_CHASSIS LldpIndex.arcs id t.chassis)
    (column OID_LLDP_PORTID LldpIndex.arcs id t.portids)
    (column OID_LLDP_SYSNAME LldpIndex.arcs id t.sysnames)

/-! ## §5 What is promised -/

/-- The name that the tables give a port: that of its interface, its description, or its number. -/
def Switch.nameOf (s : Switch) (port : Nat) : Text :=
  let named (table : Dict Nat Text) := ((s.portIf.get port).bind table.get).filter (· ≠ [])
  match (named s.names).or (named s.descrs) with
  | some name => name.take 32
  | none => lit "port " ++ lit (String.ofList (Nat.toDigits 10 port))

/-- The entry that the tables give for an address at a port. -/
def Switch.entryOf (s : Switch) (m : Mac) (port : Nat) : Entry :=
  ⟨m.hex, port, (s.portIf.get port).map fun (i : Nat) => (i : Int), s.nameOf port⟩

/-- One entry for each address, under its text, and no other. -/
def PortsRight (textInt : Text → Option Int) (s : Switch) : Prop :=
  ∃ out, s.portMap textInt = .ok out ∧
    (∀ m port, s.fdb.get m = some port → out.get m.hex = some (s.entryOf m port)) ∧
    ∀ key e, out.get key = some e → ∃ m port, s.fdb.get m = some port ∧ key = m.hex

/-- Each neighbour has the port id that the table has for it. -/
def NeighboursRight (t : Lldp) : Prop :=
  List.Forall₂ (fun row n => n.remote_port = t.portids.get row.1) t.chassis.items t.neighbors

/-- No address, and no port id for a neighbour. -/
def NothingToJoin (s : Switch) (t : Lldp) : Prop :=
  s.fdb.items = [] ∧ ∀ i ∈ t.chassis.keys, t.portids.get i = none

/-! ## §6 The keys of `port_map` -/

theorem head_intercalate (sep : List Char) (c : Char) (cs : List Char) (l : List (List Char)) :
    (sep.intercalate ((c :: cs) :: l)).head? = some c := by
  cases l with
  | nil => rw [List.intercalate_singleton, List.head?_cons]
  | cons d l => rw [List.intercalate_cons_cons, List.append_assoc, List.cons_append, List.head?_cons]

/-- The key of a list begins as the list does. -/
theorem head_mac_iso {l : List (List Char)} {mac : List Char} (h : mac_iso (listText l) = some mac) :
    mac.head? = some '[' := by
  unfold mac_iso listText at h
  rw [List.filter_cons_of_pos (by decide), List.take_succ_cons] at h
  dsimp only at h
  split_ifs at h with hlen
  cases h
  rw [List.length_cons] at hlen
  generalize List.take 11 _ = rest at hlen ⊢
  cases rest with
  | nil => cases hlen
  | cons b rest => exact head_intercalate [':'] '[' [b.toLower] _

/-- An address in hexadecimal does not. -/
theorem head_hex (m : Mac) : m.hex.head? ≠ some '[' := by
  have hdigit : ∀ n < 16, Nat.digitChar n ≠ '[' := by decide
  have hlt : m.a.toNat / 16 < 16 := by
    have := m.a.toNat_lt
    omega
  unfold Mac.hex Mac.octets
  rw [List.map_cons, head_intercalate]
  exact fun h => hdigit _ hlt (Option.some.inj h)

section Keys

variable {textInt : Text → Option Int}

theorem head_addPort {ports : Dict (List Char) Int} (row : Row)
    (h : ∀ k ∈ ports.keys, k.head? = some '[') :
    ∀ k ∈ (addPort textInt ports row).keys, k.head? = some '[' := by
  unfold addPort
  split
  · rename_i mac port hmac hport
    intro k hk
    rcases Dict.mem_keys_assign.mp hk with rfl | hk
    · exact head_mac_iso hmac
    · exact h k hk
  · exact h

theorem head_ports (fdb : List Row) :
    ∀ k ∈ (fdb.foldl (addPort textInt) Dict.empty).keys, k.head? = some '[' := by
  induction fdb using List.reverseRecOn with
  | nil => exact fun k hk => absurd hk List.not_mem_nil
  | append_singleton fdb row ih =>
      rw [List.foldl_append, List.foldl_cons, List.foldl_nil]
      exact head_addPort row ih

/-- The last loop has no keys but those of the ports. -/
theorem keys_entries {port_if : Dict Int Int} {ifnames : Dict Int Text}
    {ports : List (List Char × Int)} {out out' : Dict (List Char) Entry}
    (h : entries port_if ifnames ports out = .ok out') :
    ∀ k ∈ out'.keys, k ∈ out.keys ∨ k ∈ ports.map Prod.fst := by
  induction ports generalizing out with
  | nil =>
      cases h
      exact fun k hk => .inl hk
  | cons p ports ih =>
      obtain ⟨next, hnext, hrest⟩ := NetPulse.Lib.bind_eq_ok.mp h
      obtain ⟨e, -, rfl⟩ := NetPulse.Lib.map_eq_ok.mp hnext
      intro k hk
      rcases ih hrest k hk with hk | hk
      · rcases Dict.mem_keys_assign.mp hk with rfl | hk
        · exact .inr List.mem_cons_self
        · exact .inl hk
      · exact .inr (List.mem_cons_of_mem _ hk)

/-- **Every key of `port_map`** begins with a bracket. -/
theorem head_port_map {fdb pi names descrs : List Row} {out : Dict (List Char) Entry}
    (h : port_map textInt fdb pi names descrs = .ok out) : ∀ k ∈ out.keys, k.head? = some '[' := by
  unfold port_map at h
  split_ifs at h
  · cases h
    exact fun k hk => absurd hk List.not_mem_nil
  · obtain ⟨ifnames, -, hentries⟩ := NetPulse.Lib.bind_eq_ok.mp h
    intro k hk
    rcases keys_entries hentries k hk with hk | hk
    · exact absurd hk List.not_mem_nil
    · exact head_ports fdb k hk

theorem column_isEmpty {I V : Type} {oid : List Char} {arcs : I → List Nat} {value : V → SnmpValue}
    {table : Dict I V} : (column oid arcs value table).isEmpty = true ↔ table.items = [] := by
  rw [column, List.isEmpty_iff, List.map_eq_nil_iff]

/-- **The ports are right** exactly if there is no address at all. -/
theorem portsRight_iff (s : Switch) : PortsRight textInt s ↔ s.fdb.items = [] := by
  constructor
  · rintro ⟨out, hout, hentries, -⟩
    by_contra hne
    obtain ⟨⟨m, port⟩, rest, hitems⟩ := List.exists_cons_of_ne_nil hne
    have hget := hentries m port (s.fdb.mem_items_iff.mp (hitems ▸ List.mem_cons_self))
    have hkey : m.hex ∈ out.keys := List.mem_map_of_mem (f := Prod.fst) (out.mem_items_iff.mpr hget)
    exact head_hex m (head_port_map hout _ hkey)
  · intro hempty
    refine ⟨Dict.empty, ?_, ?_, ?_⟩
    · unfold Switch.portMap port_map
      exact if_pos (column_isEmpty.mpr hempty)
    · intro m port hget
      have hmem := s.fdb.mem_items_iff.mpr hget
      rw [hempty] at hmem
      cases hmem
    · intro key e hget
      cases hget

end Keys

/-! ## §7 The neighbours -/

theorem mem_keys_dictOf {rows : List Row} {k : List Char} (h : k ∈ (dictOf rows).keys) :
    k ∈ rows.map Prod.fst := by
  induction rows using List.reverseRecOn with
  | nil => cases h
  | append_singleton rows row ih =>
      rw [dictOf, List.foldl_append, List.foldl_cons, List.foldl_nil] at h
      rw [List.map_append, List.mem_append]
      rcases Dict.mem_keys_assign.mp h with rfl | h
      · exact .inr List.mem_cons_self
      · exact .inl (ih h)

/-- A port id is never kept under the end of an identifier. -/
theorem get_portids (portids : Dict LldpIndex SnmpValue) (tail : List Char) :
    (dictOf (column OID_LLDP_PORTID LldpIndex.arcs id portids)).get ('.' :: tail) = none := by
  by_contra hne
  obtain ⟨v, hv⟩ := Option.ne_none_iff_exists'.mp hne
  have hkey := mem_keys_dictOf (List.mem_map_of_mem (f := Prod.fst) ((Dict.mem_items_iff _).mpr hv))
  rw [column, List.map_map] at hkey
  obtain ⟨e, -, he⟩ := List.mem_map.mp hkey
  -- identifiers begin with a digit
  have hhead := congrArg List.head? he
  cases hhead

theorem removeFirst_instanceOid (i : LldpIndex) :
    removeFirst OID_LLDP_CHASSIS (instanceOid OID_LLDP_CHASSIS i.arcs) =
      '.' :: ['.'].intercalate (i.arcs.map (Nat.toDigits 10)) := by
  have hcons : OID_LLDP_CHASSIS = '1' :: OID_LLDP_CHASSIS.tail := by decide
  have hpre : OID_LLDP_CHASSIS.isPrefixOf (instanceOid OID_LLDP_CHASSIS i.arcs) = true :=
    List.isPrefixOf_iff_prefix.mpr (List.prefix_append _ _)
  have hdrop : (instanceOid OID_LLDP_CHASSIS i.arcs).drop OID_LLDP_CHASSIS.length =
      '.' :: ['.'].intercalate (i.arcs.map (Nat.toDigits 10)) := List.drop_left
  have hoid : instanceOid OID_LLDP_CHASSIS i.arcs =
      '1' :: (OID_LLDP_CHASSIS.tail ++ '.' :: ['.'].intercalate (i.arcs.map (Nat.toDigits 10))) := by
    rw [instanceOid, hcons]
    rfl
  rw [hoid] at hpre hdrop ⊢
  rw [removeFirst, if_pos hpre, hdrop]

theorem ne_dot {n : Nat} {c : Char} (h : c ∈ Nat.toDigits 10 n) : c ≠ '.' := by
  rintro rfl
  exact absurd (isDigit_of_mem h) (by decide)

theorem stripDots_cons {c d : Char} {mid : List Char} (hc : c ≠ '.') (hd : d ≠ '.') :
    stripDots ('.' :: c :: (mid ++ [d])) = c :: (mid ++ [d]) := by
  unfold stripDots
  have hkeep : ¬ decide (c = '.') = true := by rwa [decide_eq_true_iff]
  have hlast : ¬ decide (d = '.') = true := by rwa [decide_eq_true_iff]
  rw [List.dropWhile_cons_of_pos (by decide), List.dropWhile_cons, if_neg hkeep, ← List.cons_append,
    List.rdropWhile_concat_neg (fun c : Char => decide (c = '.')) (c :: mid) d hlast]

/-- Numbers with dots between them begin and end with a digit. -/
theorem stripDots_index (i : LldpIndex) :
    stripDots ('.' :: ['.'].intercalate (i.arcs.map (Nat.toDigits 10))) =
      ['.'].intercalate (i.arcs.map (Nat.toDigits 10)) := by
  obtain ⟨c, x, hx⟩ := List.exists_cons_of_ne_nil (Nat.toDigits_ne_nil (n := i.timeMark) (b := 10))
  obtain ⟨z, d, hz⟩ : ∃ z d, Nat.toDigits 10 i.index = z ++ [d] :=
    ⟨_, _, (List.dropLast_append_getLast Nat.toDigits_ne_nil).symm⟩
  have htext : ['.'].intercalate (i.arcs.map (Nat.toDigits 10)) =
      c :: ((x ++ '.' :: (Nat.toDigits 10 i.localPort ++ '.' :: z)) ++ [d]) := by
    unfold LldpIndex.arcs
    rw [List.map_cons, List.map_cons, List.map_singleton, List.intercalate_cons_cons,
      List.intercalate_cons_cons, List.intercalate_singleton, hx, hz]
    simp only [List.append_assoc, List.cons_append, List.nil_append]
  rw [htext]
  apply stripDots_cons
  · exact ne_dot (hx ▸ List.mem_cons_self)
  · exact ne_dot (hz ▸ List.mem_append_right _ List.mem_cons_self)

/-- The parts that are left are the digits of the index. -/
theorem parts_index (i : LldpIndex) :
    parts (stripDots ('.' :: ['.'].intercalate (i.arcs.map (Nat.toDigits 10)))) =
      i.arcs.map (Nat.toDigits 10) := by
  rw [stripDots_index, parts, List.splitOn_intercalate '.']
  · intro l hl hdot
    obtain ⟨n, -, rfl⟩ := List.mem_map.mp hl
    exact ne_dot hdot rfl
  · exact List.cons_ne_nil _ _

/-- A list of three parts has a text that is long enough: brackets, quotes and commas do. -/
theorem mac_iso_three (x y z : List Char) : ∃ mac, mac_iso (listText [x, y, z]) = some mac := by
  have hlen : 12 ≤ ((listText [x, y, z]).filter fun c => c ≠ ':' ∧ c ≠ '-').length := by
    unfold listText
    rw [List.map_cons, List.map_cons, List.map_singleton, List.intercalate_cons_cons,
      List.intercalate_cons_cons, List.intercalate_singleton]
    simp
    omega
  unfold mac_iso
  exact ⟨_, if_pos (by rw [List.length_take]; omega)⟩

theorem neighbor_column (portids : Dict LldpIndex SnmpValue) (sysnames : Dict (List Char) SnmpValue)
    (i : LldpIndex) (v : SnmpValue) :
    ∃ n, neighbor (dictOf (column OID_LLDP_PORTID LldpIndex.arcs id portids)) sysnames
        (instanceOid OID_LLDP_CHASSIS i.arcs, id v) = some n ∧ n.remote_port = none := by
  obtain ⟨mac, hmac⟩ := mac_iso_three (Nat.toDigits 10 i.timeMark) (Nat.toDigits 10 i.localPort)
    (Nat.toDigits 10 i.index)
  unfold neighbor
  dsimp only
  have hthree : ¬ (i.arcs.map (Nat.toDigits 10)).length < 3 := Nat.lt_irrefl 3
  rw [removeFirst_instanceOid, parts_index, if_neg hthree]
  have hlast : lastN 6 (i.arcs.map (Nat.toDigits 10)) =
      [Nat.toDigits 10 i.timeMark, Nat.toDigits 10 i.localPort, Nat.toDigits 10 i.index] := rfl
  rw [hlast, hmac]
  exact ⟨_, rfl, get_portids portids _⟩

/-- Every row is a neighbour, and none has a port id. -/
theorem neighbors_column {portids : Dict LldpIndex SnmpValue} {sysnames : Dict (List Char) SnmpValue}
    (items : List (LldpIndex × SnmpValue)) :
    List.Forall₂ (fun row n => n.remote_port = portids.get row.1) items
        ((items.map fun e => (instanceOid OID_LLDP_CHASSIS e.1.arcs, id e.2)).filterMap
          (neighbor (dictOf (column OID_LLDP_PORTID LldpIndex.arcs id portids)) sysnames)) ↔
      ∀ i ∈ items.map Prod.fst, portids.get i = none := by
  induction items with
  | nil => exact iff_of_true .nil fun i hi => absurd hi List.not_mem_nil
  | cons e items ih =>
      obtain ⟨i, v⟩ := e
      obtain ⟨n, hn, hport⟩ := neighbor_column portids sysnames i v
      rw [List.map_cons]
      rw [List.filterMap_cons_some hn, List.forall₂_cons, ih, hport, List.map_cons,
        List.forall_mem_cons]
      exact and_congr_left fun _ => eq_comm

/-- **The neighbours are right** exactly if none of them has a port id. -/
theorem neighboursRight_iff (t : Lldp) :
    NeighboursRight t ↔ ∀ i ∈ t.chassis.keys, t.portids.get i = none := neighbors_column _

/-- **When the tables are joined.** What `port_map` and `lldp_neighbors` make of the tables is right
exactly if there is no address in the forwarding table, and no port id for a neighbour. -/
theorem tables_joined_iff (textInt : Text → Option Int) (s : Switch) (t : Lldp) :
    PortsRight textInt s ∧ NeighboursRight t ↔ NothingToJoin s t :=
  and_congr (portsRight_iff s) (neighboursRight_iff t)

/-! ## §8 Two addresses, and a neighbour -/

/-- Two addresses that begin alike, at two ports. -/
def twoMacs : Switch where
  fdb := ⟨[(⟨0, 17, 34, 51, 68, 85⟩, 1), (⟨0, 17, 170, 187, 204, 221⟩, 2)], by decide⟩
  portIf := Dict.empty
  names := Dict.empty
  descrs := Dict.empty

/-- A neighbour with its port id. -/
def oneNeighbor : Lldp where
  chassis := ⟨[(⟨0, 3, 1⟩, .str (lit "switch"))], List.nodup_singleton _⟩
  portids := ⟨[(⟨0, 3, 1⟩, .str (lit "Gi0/7"))], List.nodup_singleton _⟩
  sysnames := Dict.empty

/-- **Two addresses become one entry**, whose key is the beginning of a list, and the port id of the
neighbour is not found. -/
theorem addresses_collide :
    ((twoMacs.portMap fun _ => none).toOption.map fun out => out.keys.map String.ofList) =
        some ["[':0':, :'1:7':, "] ∧
      oneNeighbor.neighbors.map (·.remote_port) = [none] ∧
      ¬ ∀ textInt s t, PortsRight textInt s ∧ NeighboursRight t := by
  refine ⟨by decide +kernel, by decide +kernel, fun h => ?_⟩
  have hempty := (portsRight_iff twoMacs).mp (h (fun _ => none) twoMacs oneNeighbor).1
  cases hempty

end NetPulse.Infra.L2Map
