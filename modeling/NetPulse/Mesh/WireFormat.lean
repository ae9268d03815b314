import NetPulse.Mesh.Protocol

/-
# NetPulse.Mesh.WireFormat — one frame is one packed dict (`networking/protocol.py`)

`encode_pack` packs the fields of a `MsgPack`, `decode_pack` unpacks them with the options it was
given, among them the default `strict_map_key`: a key of a map must be text or bytes. The packer asks
nothing of the keys.

The bytes of a single item are a parameter, `Format`, with the one law that what was written is read
back; arrays and maps are a head that counts the items and then the items.

`decode_encode_iff`: what `encode_pack` accepts is decoded to itself, with lists for tuples, exactly
when all keys of all maps of the data are text or bytes.
-/

namespace NetPulse.Mesh.Wire

/-! ## §1 Values -/

/-- What msgpack packs. -/
inductive Val where
  | none
  | bool (b : Bool)
  | int (n : Int)
  /-- A double, by its bits. -/
  | float (bits : UInt64)
  | str (s : String)
  | bytes (b : List UInt8)
  | list (items : List Val)
  | tuple (items : List Val)
  | dict (entries : List (Val × Val))

/-- `type(key) in (str, bytes)` -/
def Val.isKey : Val → Bool
  | .str _ | .bytes _ => true
  | _ => false

mutual

/-- Lists for tuples. -/
def untuple : Val → Val
  | .list items => .list (untupleItems items)
  | .tuple items => .list (untupleItems items)
  | .dict entries => .dict (untupleEntries entries)
  | .none => .none
  | .bool b => .bool b
  | .int n => .int n
  | .float bits => .float bits
  | .str s => .str s
  | .bytes b => .bytes b

def untupleItems : List Val → List Val
  | [] => []
  | v :: rest => untuple v :: untupleItems rest

def untupleEntries : List (Val × Val) → List (Val × Val)
  | [] => []
  | (k, v) :: rest => (untuple k, untuple v) :: untupleEntries rest

end

mutual

/-- Every key of every map in it is text or bytes. -/
def keysOk : Val → Bool
  | .list items => keysOkItems items
  | .tuple items => keysOkItems items
  | .dict entries => keysOkEntries entries
  | .none => true
  | .bool _ => true
  | .int _ => true
  | .float _ => true
  | .str _ => true
  | .bytes _ => true

def keysOkItems : List Val → Bool
  | [] => true
  | v :: rest => keysOk v && keysOkItems rest

def keysOkEntries : List (Val × Val) → Bool
  | [] => true
  | (k, v) :: rest => (k.isKey && keysOk v) && keysOkEntries rest

end

/-! ## §2 `packb` and `unpackb` -/

/-- One item of the format: a value without parts, or the head of an array or a map. -/
inductive Item where
  | nil
  | bool (b : Bool)
  | int (n : Int)
  | float (bits : UInt64)
  | str (s : String)
  | bin (b : List UInt8)
  | array (length : Nat)
  | map (length : Nat)

/-- The format of single items, and how deep the packer and the unpacker go. -/
structure Format (Byte : Type) where
  /-- `none` when the item is out of the range of the format. -/
  write : Item → Option (List Byte)
  /-- The first item, and the bytes after it. -/
  read : List Byte → Option (Item × List Byte)
  read_write : ∀ {item : Item} {bs : List Byte}, write item = some bs → ∀ rest,
    read (bs ++ rest) = some (item, rest)
  packDepth : Nat
  unpackDepth : Nat
  depth_le : packDepth ≤ unpackDepth

variable {Byte : Type}

section Pack

variable (f : Format Byte)

mutual

/-- `_pack(obj, nest_limit)`; `none` when it raises. -/
def pack (nest : Nat) : Val → Option (List Byte)
  | .none => if nest = 0 then none else f.write .nil
  | .bool b => if nest = 0 then none else f.write (.bool b)
  | .int n => if nest = 0 then none else f.write (.int n)
  | .float bits => if nest = 0 then none else f.write (.float bits)
  | .str s => if nest = 0 then none else f.write (.str s)
  | .bytes b => if nest = 0 then none else f.write (.bin b)
  | .list items => if nest = 0 then none else
      (f.write (.array items.length)).bind fun head =>
        (packItems (nest - 1) items).map fun body => head ++ body
  | .tuple items => if nest = 0 then none else
      (f.write (.array items.length)).bind fun head =>
        (packItems (nest - 1) items).map fun body => head ++ body
  | .dict entries => if nest = 0 then none else
      (f.write (.map entries.length)).bind fun head =>
        (packEntries (nest - 1) entries).map fun body => head ++ body

def packItems (nest : Nat) : List Val → Option (List Byte)
  | [] => some []
  | v :: rest => (pack nest v).bind fun one => (packItems nest rest).map fun more => one ++ more

def packEntries (nest : Nat) : List (Val × Val) → Option (List Byte)
  | [] => some []
  | (k, v) :: rest => (pack nest k).bind fun key => (pack nest v).bind fun value =>
      (packEntries nest rest).map fun more => key ++ (value ++ more)

end

/-- `packb(obj, use_bin_type=True)` -/
def packb (v : Val) : Option (List Byte) := pack f f.packDepth v

end Pack

/-- As many as the head says, one after the other. -/
def readMany {A : Type} (one : List Byte → Option (A × List Byte)) :
    Nat → List Byte → Option (List A × List Byte)
  | 0, bs => some ([], bs)
  | n + 1, bs => (one bs).bind fun a => (readMany one n a.2).map fun more => (a.1 :: more.1, more.2)

/-- A key, which `strict_map_key` looks at, and its value. -/
def readEntry (one : List Byte → Option (Val × List Byte)) (bs : List Byte) :
    Option ((Val × Val) × List Byte) :=
  (one bs).bind fun k =>
    if k.1.isKey then (one k.2).map fun v => ((k.1, v.1), v.2) else none

section Unpack

variable (f : Format Byte)

/-- The unpacker, with `raw=False`; `none` when it raises. -/
def unpack : Nat → List Byte → Option (Val × List Byte)
  | 0, _ => none
  | depth + 1, bs =>
      match f.read bs with
      | none => none
      | some (.nil, rest) => some (.none, rest)
      | some (.bool b, rest) => some (.bool b, rest)
      | some (.int n, rest) => some (.int n, rest)
      | some (.float bits, rest) => some (.float bits, rest)
      | some (.str s, rest) => some (.str s, rest)
      | some (.bin b, rest) => some (.bytes b, rest)
      | some (.array length, rest) =>
          (readMany (unpack depth) length rest).map fun r => (.list r.1, r.2)
      | some (.map length, rest) =>
          (readMany (readEntry (unpack depth)) length rest).map fun r => (.dict r.1, r.2)

/-- `unpackb(raw, raw=False)`; extra bytes raise. -/
def unpackb (raw : List Byte) : Option Val :=
  match unpack f f.unpackDepth raw with
  | some (v, []) => some v
  | _ => none

/-! ## §3 What the unpacker makes of packed values -/

variable {f}

theorem pack_ne_zero {nest : Nat} {v : Val} {bs : List Byte} (h : pack f nest v = some bs) :
    ∃ n, nest = n + 1 := by
  cases nest with
  | succ n => exact ⟨n, rfl⟩
  | zero => cases v <;> rw [pack, if_pos rfl] at h <;> cases h

theorem le_succ_cases {n depth : Nat} (h : n + 1 ≤ depth) : ∃ d, depth = d + 1 ∧ n ≤ d :=
  ⟨depth - 1, by omega, by omega⟩

/-- A value without parts. -/
theorem unpack_leaf {nest depth : Nat} {item : Item} {v : Val} {bs : List Byte}
    (h : (if nest = 0 then none else f.write item) = some bs) (hdepth : nest ≤ depth)
    (hread : ∀ d rest, f.read (bs ++ rest) = some (item, rest) →
      unpack f (d + 1) (bs ++ rest) = some (v, rest)) (rest : List Byte) :
    unpack f depth (bs ++ rest) = some (v, rest) := by
  split at h
  · cases h
  · obtain ⟨d, rfl, -⟩ := le_succ_cases (n := nest - 1) (by omega : nest - 1 + 1 ≤ depth)
    exact hread d rest (f.read_write h rest)

/-- A list or a tuple: the unpacker does not know which it was. -/
theorem unpack_array {nest depth : Nat} {items : List Val} {bs : List Byte}
    (h : (if nest = 0 then none else (f.write (.array items.length)).bind fun head =>
      (packItems f (nest - 1) items).map fun body => head ++ body) = some bs) (hdepth : nest ≤ depth)
    (hitems : ∀ {n d : Nat} {body : List Byte}, packItems f n items = some body → n ≤ d → ∀ rest,
      readMany (unpack f d) items.length (body ++ rest)
        = if keysOkItems items then some (untupleItems items, rest) else none) (rest : List Byte) :
    unpack f depth (bs ++ rest)
      = if keysOkItems items then some (.list (untupleItems items), rest) else none := by
  split at h
  · cases h
  · obtain ⟨d, rfl, hd⟩ := le_succ_cases (n := nest - 1) (by omega : nest - 1 + 1 ≤ depth)
    obtain ⟨head, hhead, hparts⟩ := Option.bind_eq_some_iff.mp h
    obtain ⟨body, hbody, rfl⟩ := Option.map_eq_some_iff.mp hparts
    rw [List.append_assoc, unpack, f.read_write hhead]
    show (readMany (unpack f d) items.length (body ++ rest)).map _ = _
    rw [hitems hbody hd rest]
    split <;> rfl

mutual

/-- **A packed value**, with whatever comes after it. -/
theorem unpack_pack : ∀ (v : Val) {nest depth : Nat} {bs : List Byte}, pack f nest v = some bs →
    nest ≤ depth → ∀ rest, unpack f depth (bs ++ rest)
      = if keysOk v then some (untuple v, rest) else none
  | .none, _, _, _, h, hdepth, rest => by
      rw [pack] at h
      rw [keysOk, if_pos rfl, untuple]
      exact unpack_leaf h hdepth (fun d rest hread => by rw [unpack, hread]) rest
  | .bool b, _, _, _, h, hdepth, rest => by
      rw [pack] at h
      rw [keysOk, if_pos rfl, untuple]
      exact unpack_leaf h hdepth (fun d rest hread => by rw [unpack, hread]) rest
  | .int n, _, _, _, h, hdepth, rest => by
      rw [pack] at h
      rw [keysOk, if_pos rfl, untuple]
      exact unpack_leaf h hdepth (fun d rest hread => by rw [unpack, hread]) rest
  | .float bits, _, _, _, h, hdepth, rest => by
      rw [pack] at h
      rw [keysOk, if_pos rfl, untuple]
      exact unpack_leaf h hdepth (fun d rest hread => by rw [unpack, hread]) rest
  | .str s, _, _, _, h, hdepth, rest => by
      rw [pack] at h
      rw [keysOk, if_pos rfl, untuple]
      exact unpack_leaf h hdepth (fun d rest hread => by rw [unpack, hread]) rest
  | .bytes b, _, _, _, h, hdepth, rest => by
      rw [pack] at h
      rw [keysOk, if_pos rfl, untuple]
      exact unpack_leaf h hdepth (fun d rest hread => by rw [unpack, hread]) rest
  | .list items, _, _, _, h, hdepth, rest => by
      rw [pack] at h
      rw [keysOk, untuple]
      exact unpack_array h hdepth (fun hbody hd => readMany_packItems items hbody hd) rest
  | .tuple items, _, _, _, h, hdepth, rest => by
      rw [pack] at h
      rw [keysOk, untuple]
      exact unpack_array h hdepth (fun hbody hd => readMany_packItems items hbody hd) rest
  | .dict entries, nest, depth, bs, h, hdepth, rest => by
      obtain ⟨n, rfl⟩ := pack_ne_zero h
      obtain ⟨d, rfl, hd⟩ := le_succ_cases hdepth
      rw [pack, if_neg (Nat.succ_ne_zero n), Nat.add_sub_cancel] at h
      obtain ⟨head, hhead, hparts⟩ := Option.bind_eq_some_iff.mp h
      obtain ⟨body, hbody, rfl⟩ := Option.map_eq_some_iff.mp hparts
      rw [List.append_assoc, unpack, f.read_write hhead, keysOk, untuple]
      show (readMany (readEntry (unpack f d)) entries.length (body ++ rest)).map _ = _
      rw [readMany_packEntries entries hbody hd rest]
      split <;> rfl

theorem readMany_packItems : ∀ (items : List Val) {nest depth : Nat} {bs : List Byte},
    packItems f nest items = some bs → nest ≤ depth → ∀ rest,
    readMany (unpack f depth) items.length (bs ++ rest)
      = if keysOkItems items then some (untupleItems items, rest) else none
  | [], _, _, _, h, _, rest => by
      rw [packItems] at h
      obtain rfl := Option.some.inj h
      rw [keysOkItems, if_pos rfl, untupleItems]
      rfl
  | v :: more, nest, depth, bs, h, hdepth, rest => by
      rw [packItems] at h
      obtain ⟨one, hone, hmore⟩ := Option.bind_eq_some_iff.mp h
      obtain ⟨others, hothers, rfl⟩ := Option.map_eq_some_iff.mp hmore
      rw [List.length_cons, readMany, List.append_assoc, unpack_pack v hone hdepth, keysOkItems,
        untupleItems]
      cases keysOk v with
      | false => rfl
      | true =>
          show (readMany (unpack f depth) more.length (others ++ rest)).map _ = _
          rw [readMany_packItems more hothers hdepth rest, Bool.true_and]
          split <;> rfl

theorem readMany_packEntries : ∀ (entries : List (Val × Val)) {nest depth : Nat} {bs : List Byte},
    packEntries f nest entries = some bs → nest ≤ depth → ∀ rest,
    readMany (readEntry (unpack f depth)) entries.length (bs ++ rest)
      = if keysOkEntries entries then some (untupleEntries entries, rest) else none
  | [], _, _, _, h, _, rest => by
      rw [packEntries] at h
      obtain rfl := Option.some.inj h
      rw [keysOkEntries, if_pos rfl, untupleEntries]
      rfl
  | (k, v) :: more, nest, depth, bs, h, hdepth, rest => by
      rw [packEntries] at h
      obtain ⟨key, hkey, h⟩ := Option.bind_eq_some_iff.mp h
      obtain ⟨value, hvalue, h⟩ := Option.bind_eq_some_iff.mp h
      obtain ⟨others, hothers, rfl⟩ := Option.map_eq_some_iff.mp h
      rw [List.length_cons, readMany, readEntry, List.append_assoc, unpack_pack k hkey hdepth,
        keysOkEntries, untupleEntries]
      by_cases hk : k.isKey = true
      · -- Text and bytes have no parts.
        have hkey : keysOk k = true ∧ (untuple k).isKey = true := by
          cases k <;> first | exact ⟨by rw [keysOk], by rw [untuple]; rfl⟩ | cases hk
        rw [if_pos hkey.1, hk]
        show ((if (untuple k).isKey = true then _ else none : Option _).bind _) = _
        rw [if_pos hkey.2, List.append_assoc, unpack_pack v hvalue hdepth]
        cases keysOk v with
        | false => rfl
        | true =>
            show (readMany (readEntry (unpack f depth)) more.length (others ++ rest)).map _ = _
            rw [readMany_packEntries more hothers hdepth rest, Bool.true_and, Bool.true_and]
            split <;> rfl
      · -- Not a key: the unpacker raises here, or has raised in the middle of it.
        have hnokey : (untuple k).isKey = false := by
          cases k <;> first | rw [untuple]; rfl | exact absurd rfl hk
        rw [Bool.eq_false_iff.mpr hk]
        cases keysOk k with
        | false => rfl
        | true =>
            show ((if (untuple k).isKey = true then _ else none : Option _).bind _) = _
            rw [hnokey]
            rfl

end

/-- **`unpackb` after `packb`.** -/
theorem unpackb_packb {v : Val} {bs : List Byte} (h : packb f v = some bs) :
    unpackb f bs = if keysOk v then some (untuple v) else none := by
  have hread := unpack_pack v h f.depth_le []
  rw [List.append_nil] at hread
  rw [unpackb, hread]
  cases keysOk v <;> rfl

end Unpack

/-! ## §4 Packs -/

/-- The values of `PackType`. -/
def typeValue : PackType → String
  | .request => "request"
  | .response => "response"
  | .forwarded => "forwarded"
  | .streamOpen => "stream_open"
  | .streamReady => "stream_ready"
  | .streamChunk => "stream_chunk"
  | .streamAck => "stream_ack"
  | .streamEof => "stream_eof"
  | .error => "error"
  | .ping => "ping"
  | .pong => "pong"
  | .hello => "hello"
  | .helloAck => "hello_ack"
  | .helloReject => "hello_reject"
  | .gossip => "gossip"
  | .announce => "announce"
  | .certSync => "cert_sync"

def allTypes : List PackType :=
  [.request, .response, .forwarded, .streamOpen, .streamReady, .streamChunk, .streamAck, .streamEof,
    .error, .ping, .pong, .hello, .helloAck, .helloReject, .gossip, .announce, .certSync]

/-- `_KNOWN_TYPES` -/
def KNOWN_TYPES : List String := allTypes.map typeValue

/-- `MsgPack`, with data of any shape. -/
structure Pack where
  type : PackType
  source : String
  dst : Option String
  service : Option String
  method : Option String
  data : Val
  label : String
  error : Option String
  path : List String
  ttl : Int

def optStr : Option String → Val
  | some s => .str s
  | none => .none

/-- The entries of `model_dump()`. -/
def Pack.dump (p : Pack) : List (Val × Val) :=
  [(.str "type", .str (typeValue p.type)), (.str "source", .str p.source), (.str "dst", optStr p.dst),
    (.str "service", optStr p.service), (.str "method", optStr p.method), (.str "data", p.data),
    (.str "label", .str p.label), (.str "error", optStr p.error),
    (.str "path", .list (p.path.map Val.str)), (.str "ttl", .int p.ttl)]

/-- `MsgPack(**d)`, which takes its own dump back; `none` when it raises. -/
class Validator where
  validate : List (Val × Val) → Option Pack
  validate_dump : ∀ p, validate p.dump = some p

/-- Why a frame is not decoded. -/
inductive DecodeError where
  /-- Any exception but the next: the receive path closes the connection. -/
  | malformed
  | unknownPackType

def Val.isStr (s : String) : Val → Bool
  | .str t => s = t
  | _ => false

/-- `d.get(key)`; a later entry has replaced an earlier one. -/
def getKey (key : String) (entries : List (Val × Val)) : Option Val :=
  ((entries.filter fun e => e.1.isStr key).getLast?).map Prod.snd

/-- The pack with lists for the tuples of its data. -/
def Pack.untupled (p : Pack) : Pack := { p with data := untuple p.data }

theorem untuple_optStr (s : Option String) : untuple (optStr s) = optStr s := by
  cases s <;> rw [optStr, untuple]

theorem keysOk_optStr (s : Option String) : keysOk (optStr s) = true := by
  cases s <;> rw [optStr, keysOk]

theorem untupleItems_map_str (path : List String) :
    untupleItems (path.map Val.str) = path.map Val.str := by
  induction path with
  | nil => rw [List.map_nil, untupleItems]
  | cons s rest ih => rw [List.map_cons, untupleItems, untuple, ih]

theorem keysOkItems_map_str (path : List String) : keysOkItems (path.map Val.str) = true := by
  induction path with
  | nil => rw [List.map_nil, keysOkItems]
  | cons s rest ih => rw [List.map_cons, keysOkItems, keysOk, ih, Bool.and_self]

theorem untuple_dump (p : Pack) : untuple (.dict p.dump) = .dict p.untupled.dump := by
  simp only [Pack.dump, Pack.untupled, untuple, untupleEntries, untuple_optStr, untupleItems_map_str]

/-- Only the data may have a key that is not text. -/
theorem keysOk_dump (p : Pack) : keysOk (.dict p.dump) = keysOk p.data := by
  simp only [Pack.dump, keysOk, keysOkEntries, keysOk_optStr, keysOkItems_map_str, Val.isKey,
    Bool.and_true, Bool.true_and]

theorem typeValue_known (t : PackType) : typeValue t ∈ KNOWN_TYPES := by
  cases t <;> decide +kernel

theorem getKey_type_dump (p : Pack) : getKey "type" p.dump = some (.str (typeValue p.type)) := by
  have hdump : ∃ rest, p.dump = (.str "type", .str (typeValue p.type)) :: rest ∧
      rest.filter (fun e => e.1.isStr "type") = [] := ⟨_, rfl, rfl⟩
  obtain ⟨rest, hrest, hnone⟩ := hdump
  rw [getKey, hrest, List.filter_cons_of_pos rfl, hnone]
  rfl

section Codec

variable (f : Format Byte) [Validator]

def encode_pack (p : Pack) : Option (List Byte) := packb f (.dict p.dump)

/-- A type that is no text is not known either, and one that cannot be hashed raises. -/
def checkType : Option Val → Except DecodeError Unit
  | some (.str t) => if t ∈ KNOWN_TYPES then .ok () else .error .unknownPackType
  | some (.list _) | some (.dict _) => .error .malformed
  | _ => .error .unknownPackType

/-- `MsgPack(**d)`, whose exceptions are those of a bad frame. -/
def construct (d : List (Val × Val)) : Except DecodeError Pack :=
  match Validator.validate d with
  | some p => .ok p
  | none => .error .malformed

def decode_pack (raw : List Byte) : Except DecodeError Pack :=
  match unpackb f raw with
  | some (.dict d) => (checkType (getKey "type" d)).bind fun _ => construct d
  | _ => .error .malformed

variable {f}

/-- A decoded frame of `encode_pack`. -/
theorem decode_encode {p : Pack} {raw : List Byte} (h : encode_pack f p = some raw) :
    decode_pack f raw = if keysOk p.data then .ok p.untupled else .error .malformed := by
  rw [decode_pack, unpackb_packb h, keysOk_dump, untuple_dump]
  cases keysOk p.data with
  | false => rfl
  | true =>
      show (checkType (getKey "type" p.untupled.dump)).bind (fun _ => construct p.untupled.dump)
        = Except.ok p.untupled
      rw [getKey_type_dump, checkType, if_pos (typeValue_known _), construct,
        Validator.validate_dump]
      rfl

/-- **Exactly** the packs whose data have text and bytes for keys come back. -/
theorem decode_encode_iff (p : Pack) (raw : List Byte) (h : encode_pack f p = some raw) :
    decode_pack f raw = .ok p.untupled ↔ keysOk p.data = true := by
  rw [decode_encode h]
  cases keysOk p.data with
  | false => exact iff_of_false (fun h => by cases h) Bool.false_ne_true
  | true => exact iff_of_true rfl rfl

end Codec

/-! ## §5 Short frames -/

/-- The items of the format whose head is one byte, with ASCII text. -/
def writeShort : Item → Option (List UInt8)
  | .nil => some [0xc0]
  | .bool b => some [if b then 0xc3 else 0xc2]
  | .int n => if 0 ≤ n ∧ n < 128 then some [UInt8.ofNat n.toNat] else none
  | .str s =>
      if s.toList.length < 32 ∧ s.toList.all (fun c => c.toNat < 128) then
        some (UInt8.ofNat (160 + s.toList.length) :: s.toList.map fun c => UInt8.ofNat c.toNat)
      else none
  | .array n => if n < 16 then some [UInt8.ofNat (144 + n)] else none
  | .map n => if n < 16 then some [UInt8.ofNat (128 + n)] else none
  | .float _ | .bin _ => none

def readShort : List UInt8 → Option (Item × List UInt8)
  | [] => none
  | b :: rest =>
      if b.toNat < 128 then some (.int b.toNat, rest)
      else if b.toNat < 144 then some (.map (b.toNat - 128), rest)
      else if b.toNat < 160 then some (.array (b.toNat - 144), rest)
      else if b.toNat < 192 then
        some (.str (String.ofList ((rest.take (b.toNat - 160)).map fun c => Char.ofNat c.toNat)),
          rest.drop (b.toNat - 160))
      else if b.toNat = 192 then some (.nil, rest)
      else if b.toNat = 194 then some (.bool false, rest)
      else if b.toNat = 195 then some (.bool true, rest)
      else none

theorem readShort_writeShort {item : Item} {bs : List UInt8} (h : writeShort item = some bs)
    (rest : List UInt8) : readShort (bs ++ rest) = some (item, rest) := by
  have hbyte : ∀ n, n < 256 → (UInt8.ofNat n).toNat = n := fun n hn => by
    rw [UInt8.toNat_ofNat']
    exact Nat.mod_eq_of_lt hn
  cases item with
  | nil => cases h; rfl
  | bool b => cases b <;> cases h <;> rfl
  | int n =>
      rw [writeShort] at h
      split at h
      · rename_i hn
        obtain rfl := Option.some.inj h
        rw [List.singleton_append, readShort, hbyte _ (by omega), if_pos (by omega),
          Int.toNat_of_nonneg hn.1]
      · cases h
  | str s =>
      rw [writeShort] at h
      split at h
      · rename_i hs
        obtain rfl := Option.some.inj h
        have hlength : (s.toList.map fun c => UInt8.ofNat c.toNat).length = s.toList.length :=
          List.length_map _
        have hchars : (s.toList.map fun c => UInt8.ofNat c.toNat).map (fun b => Char.ofNat b.toNat)
            = s.toList := by
          rw [List.map_map]
          refine (List.map_congr_left fun c hc => ?_).trans (List.map_id _)
          have hascii := of_decide_eq_true (List.all_eq_true.mp hs.2 c hc)
          show Char.ofNat (UInt8.ofNat c.toNat).toNat = c
          rw [hbyte _ (by omega), Char.ofNat_toNat]
        rw [List.cons_append, readShort, hbyte _ (by omega), if_neg (by omega), if_neg (by omega),
          if_neg (by omega), if_pos (by omega), Nat.add_sub_cancel_left, ← hlength,
          List.take_left, List.drop_left, hchars, String.ofList_toList]
      · cases h
  | array n =>
      rw [writeShort] at h
      split at h
      · obtain rfl := Option.some.inj h
        rw [List.singleton_append, readShort, hbyte _ (by omega), if_neg (by omega),
          if_neg (by omega), if_pos (by omega), Nat.add_sub_cancel_left]
      · cases h
  | map n =>
      rw [writeShort] at h
      split at h
      · obtain rfl := Option.some.inj h
        rw [List.singleton_append, readShort, hbyte _ (by omega), if_neg (by omega),
          if_pos (by omega), Nat.add_sub_cancel_left]
      · cases h
  | float => cases h
  | bin => cases h

def short : Format UInt8 := ⟨writeShort, readShort, readShort_writeShort, 512, 1024, by decide⟩

def readOpt : Option Val → Option (Option String)
  | some (.str s) => some (some s)
  | some .none | none => some none
  | _ => none

def readStr : Option Val → Option String
  | some (.str s) => some s
  | _ => none

def readType : Option Val → Option PackType
  | some (.str s) => allTypes.find? fun t => typeValue t = s
  | _ => none

def readPath : Option Val → Option (List String)
  | some (.list items) => items.mapM fun v => readStr (some v)
  | _ => none

def readInt : Option Val → Option Int
  | some (.int n) => some n
  | _ => none

/-- Each field, of a value that has its type already. -/
def readPack (d : List (Val × Val)) : Option Pack := do
  let type ← readType (getKey "type" d)
  let source ← readStr (getKey "source" d)
  let dst ← readOpt (getKey "dst" d)
  let service ← readOpt (getKey "service" d)
  let method ← readOpt (getKey "method" d)
  let label ← readStr (getKey "label" d)
  let error ← readOpt (getKey "error" d)
  let path ← readPath (getKey "path" d)
  let ttl ← readInt (getKey "ttl" d)
  some ⟨type, source, dst, service, method, (getKey "data" d).getD .none, label, error, path, ttl⟩

theorem readOpt_optStr (s : Option String) : readOpt (some (optStr s)) = some s := by
  cases s <;> rfl

theorem readPath_map (path : List String) : readPath (some (.list (path.map Val.str))) = some path := by
  show (path.map Val.str).mapM (fun v => readStr (some v)) = some path
  induction path with
  | nil => rfl
  | cons s rest ih =>
      rw [List.map_cons, List.mapM_cons, ih]
      rfl

theorem readPack_dump (p : Pack) : readPack p.dump = some p := by
  have htype : readType (getKey "type" p.dump) = some p.type := by
    rw [getKey_type_dump]
    cases p.type <;> rfl
  rw [readPack, htype, show getKey "source" p.dump = some (.str p.source) from rfl,
    show getKey "dst" p.dump = some (optStr p.dst) from rfl,
    show getKey "service" p.dump = some (optStr p.service) from rfl,
    show getKey "method" p.dump = some (optStr p.method) from rfl,
    show getKey "label" p.dump = some (.str p.label) from rfl,
    show getKey "error" p.dump = some (optStr p.error) from rfl,
    show getKey "path" p.dump = some (.list (p.path.map Val.str)) from rfl,
    show getKey "ttl" p.dump = some (.int p.ttl) from rfl,
    readOpt_optStr, readOpt_optStr, readOpt_optStr, readOpt_optStr, readPath_map]
  rfl

@[reducible] def plainValidator : Validator := ⟨readPack, readPack_dump⟩

attribute [local instance] plainValidator

/-- A request with the given data. -/
def sample (data : Val) : Pack := ⟨.request, "a", none, none, none, data, "l", none, [], 16⟩

/-- A tuple comes back as a list. -/
theorem tuple_comes_back : ∃ raw, encode_pack short (sample (.dict [(.str "k", .tuple [.int 1, .none])]))
      = some raw ∧
    (decode_pack short raw = .ok (sample (.dict [(.str "k", .tuple [.int 1, .none])])).untupled ↔
      keysOk (sample (.dict [(.str "k", .tuple [.int 1, .none])])).data = true) :=
  ⟨_, rfl, decode_encode_iff _ _ rfl⟩

/-- A map with the key 1 is packed, and the frame is refused. -/
theorem intKey_refused : ∃ raw, encode_pack short (sample (.dict [(.int 1, .str "a")])) = some raw ∧
    decode_pack short raw ≠ .ok (sample (.dict [(.int 1, .str "a")])).untupled := by
  refine ⟨_, rfl, fun h => ?_⟩
  rw [decode_encode (p := sample (.dict [(.int 1, .str "a")])) rfl] at h
  cases h

end NetPulse.Mesh.Wire
