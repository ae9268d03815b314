import NetPulse.Lib.FirstMatch
import NetPulse.Server.Gate

/-
# NetPulse.Ops.Wake — waking a machine by its MAC address (`wol.py`)

The MAC of a host is that of its row in `lan_devices`, or else is looked for in what `arp -a` prints,
and then noted and used. `_arp_lookup` searches the whole text for the address, white space and a MAC,
wherever that begins and ends.

`exact_iff` says for which texts what is found is an entry of the address, and an entry is found if
there is one: each other place that matches comes after an entry, and an entry that has its address
in brackets is not the only one.
-/

namespace NetPulse.Ops.Wake

open NetPulse.Lib
open NetPulse.Gate (blank stripBlank)

/-! ## §1 `_arp_lookup` -/

/-- `[0-9a-fA-F]` -/
def hexDigit (c : Char) : Bool :=
  decide ('0' ≤ c ∧ c ≤ '9') || decide ('a' ≤ c ∧ c ≤ 'f') || decide ('A' ≤ c ∧ c ≤ 'F')

/-- `(?:[:-][0-9a-fA-F]{2}){n}` -/
def octets : Nat → List Char → Bool
  | 0, [] => true
  | n + 1, separator :: a :: b :: rest =>
      (separator == ':' || separator == '-') && hexDigit a && hexDigit b && octets n rest
  | _, _ => false

/-- `[0-9a-fA-F]{2}(?:[:-][0-9a-fA-F]{2}){5}` -/
def isMac : List Char → Bool
  | a :: b :: rest => hexDigit a && hexDigit b && octets 5 rest
  | _ => false

/-- `re.escape(ip) + r"\s+(...)"`, at a place: the MAC. -/
def matchAt (ip place : List Char) : Option (List Char) :=
  if ip.isPrefixOf place then
    let rest := place.drop ip.length
    let mac := (rest.dropWhile blank).take 17
    if rest.takeWhile blank ≠ [] ∧ isMac mac then some mac else none
  else none

/-- `m.group(1).lower().replace("-", ":")` -/
def normal (mac : List Char) : String :=
  String.ofList (mac.map fun c => if c = '-' then ':' else c.toLower)

/-- `re.search`: where it matches, and the MAC. -/
def search (ip text : String) : Option (List Char × List Char) :=
  firstMatch (matchAt ip.toList) text.toList

/-- `_arp_lookup(ip)`, for what `arp -a` prints, if it can be run. -/
def _arp_lookup (arp : Option String) (ip : String) : Option String :=
  arp.bind fun text => (search ip text).map fun found => normal found.2

/-! ## §2 `wake` -/

/-- A row of `lan_devices`. -/
structure Device where
  mac : Option String
  ip : Option String
  hostname : Option String
  alias_ : Option String
  vendor : Option String
  first_seen : Option String
  last_seen : Option String
  deriving DecidableEq

/-- What happens to the statements and to the packet, the text of `arp -a` and the time. -/
structure Env where
  selects : Bool
  looks : Bool
  writes : Bool
  sends : Bool
  arp : Option String
  now : String

inductive Reply where
  /-- "нужен host" -/
  | noHost
  /-- "Это этот ПК — он уже включён" -/
  | self
  | unknown (error : String)
  | failed
  | ok (mac host : String)

structure Woken where
  reply : Reply
  devices : List Device
  /-- Whom the packet was sent to. -/
  sent : Option String

/-- The hexadecimal digits of the packet; `none` for a MAC that is none. -/
def build_packet (mac : String) : Option (List Char) :=
  let clean := (stripBlank (String.ofList
    (mac.toList.filter fun c => c ≠ ':' && c ≠ '-'))).toList.map Char.toLower
  if clean.length = 12 ∧ clean.all hexDigit then
    some ((List.replicate 12 'F') ++ (List.replicate 16 clean).flatten)
  else none

/-- `SELECT mac FROM lan_devices WHERE ip = ? OR hostname = ? OR alias = ? LIMIT 1`, and no MAC if
it is NULL or empty. -/
def known (devices : List Device) (key : String) : Option String :=
  ((devices.find? fun d =>
    decide (d.ip = some key ∨ d.hostname = some key ∨ d.alias_ = some key)).bind
      Device.mac).filter fun mac => decide (mac ≠ "")

/-- What is noted of a MAC that was found. -/
def remember (env : Env) (devices : List Device) (key mac : String) : List Device :=
  let exists_ := devices.any fun d => decide (d.mac = some mac)
  if env.looks && exists_ then
    if env.writes then
      devices.map fun d => if d.mac = some mac then { d with ip := some key } else d
    else devices
  else if env.writes && !exists_ then
    devices ++ [⟨some mac, some key, some "-", none, some "WOL", some env.now, some env.now⟩]
  else devices

/-- `send_wol(mac)` and the reply. -/
def send (env : Env) (devices : List Device) (key mac : String) : Woken :=
  if (build_packet mac).isSome && env.sends then ⟨.ok mac key, devices, some mac⟩
  else ⟨.failed, devices, none⟩

section

-- `_is_self`
variable (isSelf : String → Bool)

/-- `wake(host)` -/
def wake (env : Env) (devices : List Device) (host : String) : Woken :=
  let key := stripBlank host
  if key = "" then ⟨.noHost, devices, none⟩
  else if isSelf key then ⟨.self, devices, none⟩
  else
    match (if env.selects then known devices key else none) with
    | some mac => send env devices key mac
    | none =>
        match _arp_lookup env.arp key with
        | some mac => send env (remember env devices key mac) key mac
        | none =>
            ⟨.unknown ("MAC для " ++ key ++
              " не найден — выполните сканирование локальной сети"), devices, none⟩

end

/-! ## §3 Entries -/

/-- A line whose first field is the address and whose second is the MAC: `place` is the text from the
address on. -/
def Entry (text ip : String) (place mac : List Char) : Prop :=
  ∃ before gap after, text.toList = before ++ place ∧ place = ip.toList ++ gap ++ mac ++ after ∧
    (∀ c ∈ before.rtakeWhile fun c => decide (c ≠ '\n'), blank c = true) ∧
    gap ≠ [] ∧ (∀ c ∈ gap, blank c = true ∧ c ≠ '\n') ∧
    isMac mac = true ∧ ∀ c ∈ after.head?, blank c = true

/-- `name (ip) at mac`, as on other systems. -/
def Bracketed (text ip : String) (mac : List Char) : Prop :=
  isMac mac = true ∧ ∃ before after,
    text.toList = before ++ '(' :: ip.toList ++ [')', ' ', 'a', 't', ' '] ++ mac ++ after

/-- The MAC, as it is returned, is that of an entry. -/
def Listed (text ip mac : String) : Prop :=
  ∃ place m, Entry text ip place m ∧ normal m = mac

/-- What is found is an entry of the address, one is found if there is one, and so `wake` sends to no
other host and notes none. -/
structure Exact (text ip : String) : Prop where
  exact : ∀ place mac, search ip text = some (place, mac) → Entry text ip place mac
  found : ((∃ place mac, Entry text ip place mac) ∨ ∃ mac, Bracketed text ip mac) →
    search ip text ≠ none
  sent : ∀ isSelf env devices host mac, stripBlank host = ip → env.arp = some text →
    (wake isSelf env devices host).sent = some mac →
      known devices ip = some mac ∨ Listed text ip mac
  noted : ∀ isSelf env devices host, stripBlank host = ip → env.arp = some text →
    ∀ d ∈ (wake isSelf env devices host).devices,
      d ∈ devices ∨ ∃ mac, d.mac = some mac ∧ Listed text ip mac

/-- A place that matches: the address, white space and a MAC, and anything before and after. -/
def Place (ip : String) (place mac : List Char) : Prop :=
  ∃ gap after, place = ip.toList ++ gap ++ mac ++ after ∧ gap ≠ [] ∧
    (∀ c ∈ gap, blank c = true) ∧ isMac mac = true

/-- The condition: a place that matches and is no entry comes after an entry, and where the address
is in brackets there is another entry. -/
structure Clear (text ip : String) : Prop where
  first : ∀ place mac, place <:+ text.toList → Place ip place mac →
    Entry text ip place mac ∨
      ∃ earlier m, Entry text ip earlier m ∧ place.length < earlier.length
  plain : (∃ mac, Bracketed text ip mac) → ∃ place mac, Entry text ip place mac

/-! ## §4 Places that match -/

variable {text ip : String} {place mac : List Char}

theorem blank_of_hexDigit {c : Char} (h : hexDigit c = true) : blank c = false := by
  have hrange : 48 ≤ c.toNat ∧ c.toNat ≤ 57 ∨ 97 ≤ c.toNat ∧ c.toNat ≤ 102 ∨
      65 ≤ c.toNat ∧ c.toNat ≤ 70 := by
    rw [hexDigit] at h
    simpa [Char.le_def, UInt32.le_iff_toNat_le, or_assoc] using h
  rw [blank, Text.whitespace]
  simp
  omega

theorem length_octets {n : Nat} {l : List Char} (h : octets n l = true) : l.length = 3 * n := by
  induction n generalizing l with
  | zero =>
      rcases l with _ | _
      · rfl
      · simp [octets] at h
  | succ n ih =>
      rcases l with _ | ⟨_, _ | ⟨_, _ | ⟨_, rest⟩⟩⟩
      · simp [octets] at h
      · simp [octets] at h
      · simp [octets] at h
      · rw [octets, Bool.and_eq_true] at h
        rw [List.length_cons, List.length_cons, List.length_cons, ih h.2]
        omega

/-- A MAC has 17 characters and begins with no blank. -/
theorem of_isMac (h : isMac mac = true) :
    mac.length = 17 ∧ ∃ a rest, mac = a :: rest ∧ blank a = false := by
  rcases mac with _ | ⟨a, _ | ⟨b, rest⟩⟩
  · simp [isMac] at h
  · simp [isMac] at h
  · rw [isMac, Bool.and_eq_true, Bool.and_eq_true] at h
    refine ⟨?_, a, b :: rest, rfl, blank_of_hexDigit h.1.1⟩
    rw [List.length_cons, List.length_cons, length_octets h.2]

/-- **The pattern matches at the places** where the address, white space and a MAC follow. -/
theorem matchAt_eq_some_iff : matchAt ip.toList place = some mac ↔ Place ip place mac := by
  constructor
  · intro h
    rw [matchAt] at h
    split_ifs at h with hprefix
    dsimp only at h
    split_ifs at h with hmac
    obtain ⟨rest, rfl⟩ := List.isPrefixOf_iff_prefix.mp hprefix
    rw [List.drop_left] at hmac h
    obtain rfl := Option.some.inj h
    refine ⟨rest.takeWhile blank, (rest.dropWhile blank).drop 17, ?_, hmac.1,
      fun c hc => List.mem_takeWhile_imp hc, hmac.2⟩
    rw [List.append_assoc, List.append_assoc, List.take_append_drop,
      List.takeWhile_append_dropWhile]
  · rintro ⟨gap, after, rfl, hgap, hblank, hmac⟩
    obtain ⟨hlength, a, rest, rfl, ha⟩ := of_isMac hmac
    have hassoc : ip.toList ++ gap ++ (a :: rest) ++ after =
        ip.toList ++ (gap ++ ((a :: rest) ++ after)) := by
      simp
    -- the MAC begins with no blank, so that the white space ends where it should
    have hgapIs : (gap ++ ((a :: rest) ++ after)).takeWhile blank = gap := by
      rw [List.takeWhile_append_of_pos hblank]
      simp [ha]
    have hmacIs : ((gap ++ ((a :: rest) ++ after)).dropWhile blank).take 17 = a :: rest := by
      rw [List.dropWhile_append_of_pos hblank, List.cons_append,
        List.dropWhile_cons_of_neg (by simp [ha]), ← List.cons_append, ← hlength, List.take_left]
    rw [hassoc, matchAt, if_pos (List.isPrefixOf_iff_prefix.mpr (List.prefix_append _ _))]
    simp only [List.drop_left, hgapIs, hmacIs]
    exact if_pos ⟨hgap, hmac⟩

theorem place_of_entry (h : Entry text ip place mac) :
    place <:+ text.toList ∧ Place ip place mac := by
  obtain ⟨before, gap, after, htext, hplace, -, hgap, hblank, hmac, -⟩ := h
  exact ⟨⟨before, htext.symm⟩, gap, after, hplace, hgap, fun c hc => (hblank c hc).1, hmac⟩

/-- At one place there is one MAC. -/
theorem Place.unique {m : List Char} (h : Place ip place mac) (h' : Place ip place m) : mac = m :=
  Option.some.inj ((matchAt_eq_some_iff.mpr h).symm.trans (matchAt_eq_some_iff.mpr h'))

theorem of_search (h : search ip text = some (place, mac)) :
    place <:+ text.toList ∧ Place ip place mac ∧
      ∀ other m, other <:+ text.toList → Place ip other m → other.length ≤ place.length := by
  obtain ⟨hplace, hmatch, hfirst⟩ := FirstMatch.of_eq_some h
  refine ⟨hplace, matchAt_eq_some_iff.mp hmatch, fun other m hother hm => ?_⟩
  refine hfirst other hother ?_
  rw [matchAt_eq_some_iff.mpr hm]
  exact Option.some_ne_none m

theorem search_ne_none (hplace : place <:+ text.toList) (h : Place ip place mac) :
    search ip text ≠ none := by
  intro hnone
  have hno := FirstMatch.eq_none_iff.mp hnone place hplace
  rw [matchAt_eq_some_iff.mpr h] at hno
  cases hno

/-! ## §5 `wake` -/

theorem mem_remember {env : Env} {devices : List Device} {key m : String} {d : Device}
    (h : d ∈ remember env devices key m) : d ∈ devices ∨ d.mac = some m := by
  rw [remember] at h
  split_ifs at h
  · obtain ⟨d', hd', rfl⟩ := List.mem_map.mp h
    by_cases hmac : d'.mac = some m
    · rw [if_pos hmac]
      exact .inr hmac
    · rw [if_neg hmac]
      exact .inl hd'
  · exact .inl h
  · rcases List.mem_append.mp h with h | h
    · exact .inl h
    · rw [List.mem_singleton.mp h]
      exact .inr rfl
  · exact .inl h

theorem send_devices (env : Env) (devices : List Device) (key m : String) :
    (send env devices key m).devices = devices := by
  rw [send]
  split_ifs
  · rfl
  · rfl

theorem of_sent {env : Env} {devices : List Device} {key m m' : String}
    (h : (send env devices key m).sent = some m') : m = m' := by
  rw [send] at h
  split_ifs at h
  exact Option.some.inj h

/-- **`wake` sends to the MAC of a row or to the one that was found**, and notes only that. -/
theorem wake_cases (isSelf : String → Bool) (env : Env) (devices : List Device) (host : String) :
    (∀ m, (wake isSelf env devices host).sent = some m →
        known devices (stripBlank host) = some m ∨
          _arp_lookup env.arp (stripBlank host) = some m) ∧
      ∀ d ∈ (wake isSelf env devices host).devices,
        d ∈ devices ∨ ∃ m, d.mac = some m ∧ _arp_lookup env.arp (stripBlank host) = some m := by
  rw [wake]
  by_cases hkey : stripBlank host = ""
  · rw [if_pos hkey]
    exact ⟨nofun, fun d hd => .inl hd⟩
  rw [if_neg hkey]
  by_cases hself : isSelf (stripBlank host) = true
  · rw [if_pos hself]
    exact ⟨nofun, fun d hd => .inl hd⟩
  rw [if_neg hself]
  -- a row of the table is asked before the system
  rcases hrow : (if env.selects then known devices (stripBlank host) else none) with _ | m
  · rcases hfound : _arp_lookup env.arp (stripBlank host) with _ | m
    · exact ⟨nofun, fun d hd => .inl hd⟩
    · refine ⟨fun m' hm' => .inr (congrArg some (of_sent hm')), fun d hd => ?_⟩
      rw [send_devices] at hd
      exact (mem_remember hd).imp_right fun hmac => ⟨m, hmac, rfl⟩
  · have hknown : known devices (stripBlank host) = some m := by
      split_ifs at hrow
      exact hrow
    refine ⟨fun m' hm' => .inl (hknown.trans (congrArg some (of_sent hm'))), fun d hd => .inl ?_⟩
    rwa [send_devices] at hd

/-! ## §6 When it is right -/

/-- **What is found is an entry of the address**, and one is found if there is one, exactly when no
other place that matches comes before the entries and no entry in brackets is the only one. -/
theorem exact_iff (text ip : String) : Exact text ip ↔ Clear text ip := by
  constructor
  · intro h
    refine ⟨fun place mac hplace hmatch => ?_, fun hbracketed => ?_⟩
    · obtain ⟨⟨first, m⟩, hfound⟩ :=
        Option.ne_none_iff_exists'.mp (search_ne_none hplace hmatch)
      obtain ⟨hfirst, hfirstmatch, hlongest⟩ := of_search hfound
      -- the first place that matches is an entry; this one is the same or behind it
      have hentry := h.exact first m hfound
      rcases (hlongest place mac hplace hmatch).lt_or_eq with hlt | heq
      · exact .inr ⟨first, m, hentry, hlt⟩
      · obtain rfl : place = first :=
          (List.suffix_of_suffix_length_le hplace hfirst heq.le).eq_of_length heq
        rw [hmatch.unique hfirstmatch]
        exact .inl hentry
    · obtain ⟨⟨place, mac⟩, hfound⟩ := Option.ne_none_iff_exists'.mp (h.found (.inr hbracketed))
      exact ⟨place, mac, h.exact place mac hfound⟩
  · intro h
    have hexact : ∀ place mac, search ip text = some (place, mac) → Entry text ip place mac := by
      intro place mac hfound
      obtain ⟨hplace, hmatch, hlongest⟩ := of_search hfound
      refine (h.first place mac hplace hmatch).resolve_right ?_
      rintro ⟨earlier, m, hentry, hlt⟩
      exact (hlongest earlier m (place_of_entry hentry).1 (place_of_entry hentry).2).not_gt hlt
    have hlisted : ∀ arp m, arp = some text → _arp_lookup arp ip = some m → Listed text ip m := by
      rintro arp m rfl hlookup
      obtain ⟨⟨place, mac⟩, hfound, hm⟩ := Option.map_eq_some_iff.mp hlookup
      exact ⟨place, mac, hexact place mac hfound, hm⟩
    refine ⟨hexact, ?_, ?_, ?_⟩
    · rintro (⟨place, mac, hentry⟩ | hbracketed)
      · exact search_ne_none (place_of_entry hentry).1 (place_of_entry hentry).2
      · obtain ⟨place, mac, hentry⟩ := h.plain hbracketed
        exact search_ne_none (place_of_entry hentry).1 (place_of_entry hentry).2
    · rintro isSelf env devices host m rfl harp hsent
      exact ((wake_cases isSelf env devices host).1 m hsent).imp_right (hlisted env.arp m harp)
    · rintro isSelf env devices host rfl harp d hd
      refine ((wake_cases isSelf env devices host).2 d hd).imp_right ?_
      rintro ⟨m, hmac, hlookup⟩
      exact ⟨m, hmac, hlisted env.arp m harp hlookup⟩

/-! ## §7 A longer address -/

/-- 110.0.0.1 comes before 10.0.0.1. -/
def longerFirst : String :=
  "  110.0.0.1  aa-aa-aa-aa-aa-aa  dynamic\n  10.0.0.1   bb-bb-bb-bb-bb-bb  dynamic\n"

/-- What is left of the text after the first digit. -/
def fromSecondDigit : List Char := longerFirst.toList.drop 3

/-- **The MAC of another host** is found for 10.0.0.1. -/
theorem other_host :
    _arp_lookup (some longerFirst) "10.0.0.1" = some "aa:aa:aa:aa:aa:aa" ∧
      ¬Exact longerFirst "10.0.0.1" := by
  refine ⟨by decide +kernel, fun h => ?_⟩
  have hfound : search "10.0.0.1" longerFirst =
      some (fromSecondDigit, "aa-aa-aa-aa-aa-aa".toList) := by decide +kernel
  obtain ⟨before, gap, after, htext, -, hline, -⟩ := h.exact _ _ hfound
  have hsplit : longerFirst.toList = "  1".toList ++ fromSecondDigit := by decide +kernel
  obtain rfl : before = "  1".toList := List.append_cancel_right (htext.symm.trans hsplit)
  have hdigit := hline '1' (by decide +kernel)
  exact absurd hdigit (by decide +kernel)

end NetPulse.Ops.Wake
