import NetPulse.Lib.Dict
import NetPulse.Lib.Machine
import NetPulse.Ops.Wake
import NetPulse.Mesh.Canon
import Mathlib.Data.List.Dedup
import Mathlib.Data.List.Sort

/-
# NetPulse.Monitor.LanScan — scans of the local network, and who is new (`services.py`)

A scan takes everything that answers or stands in the ARP table, in the order of the addresses, writes
each MAC into `lan_devices`, and raises an alert for a MAC that is not known and not trusted. What is
known is in memory, and read from the table when the process starts. A row that cannot be written, or
a table that cannot be read, goes without notice.

`scans_sound`: in a life of the process no MAC is alerted twice or though it was in the table, and none
becomes known without an alert but trusted ones. `alerted_once`: if rows can be written and the table
can be read, no MAC is alerted twice, over any number of lives.
-/

namespace NetPulse.Monitor.LanScan

open NetPulse.Lib
open NetPulse.Ops.Wake (isMac)

/-! ## §1 Addresses -/

abbrev Mac := List Char

/-- `value.lower().replace('-', ':')` -/
def normal (value : Mac) : Mac := (value.map Char.toLower).map fun c => if c = '-' then ':' else c

/-- A digit of an odd number. -/
def oddDigit (c : Char) : Bool := ['1', '3', '5', '7', '9', 'b', 'd', 'f'].contains c

/-- `valid_mac`: no MAC for what is not one, for a group and for zeros. -/
def valid_mac (value : Mac) : Mac :=
  let v := normal value
  if !isMac v then []
  else if (v[1]?.any oddDigit) || v = "00:00:00:00:00:00".toList then []
  else v

/-- Names and vendors are texts; `vendor` looks up the first three octets. -/
class Vendors where
  vendor : Mac → String

/-! ## §2 The table and the scanner -/

/-- A row of `lan_devices`. -/
structure Row where
  ip : Nat
  hostname : String
  vendor : String
  first_seen : Nat
  last_seen : Nat

/-- An entry of the result of a scan; an address is the number that it stands for. -/
structure Device where
  ip : Nat
  mac : Mac
  hostname : String
  vendor : String
  is_me : Bool
  is_new : Bool
  replied : Bool

/-- The scanner of a process, and the table. The last four fields are there for the statements: what
was read at the start, the alerts and the trusted since then, and the alerts before. -/
structure State where
  table : Dict Mac Row
  known_macs : List Mac
  last_result : List Device
  loaded : List Mac
  alerts : List Mac
  trusted : List Mac
  earlier : List Mac

/-- What there is when a scan is made: the selected interface, what answers, what `arp` prints, and
the settings. -/
structure Scene where
  self_ip : Nat
  own_mac : Mac
  hostname : String
  hosts : Nat
  /-- The addresses of the network. -/
  inside : Nat → Bool
  responders : List Nat
  arp : List (Nat × Mac)
  trusted_macs : List Mac
  now : Nat
  /-- The row of a MAC can be written. -/
  writes : Mac → Bool

/-- `arp_table(selected)` -/
def Scene.arp_table (c : Scene) : Dict Nat Mac :=
  c.arp.foldl (fun d e =>
    if valid_mac e.2 ≠ [] ∧ c.inside e.1 then d.set e.1 (valid_mac e.2) else d) Dict.empty

/-- `sorted(responders | set(arp) | {selected['ip']})` -/
def Scene.discovered (c : Scene) : List Nat :=
  ((c.responders ++ c.arp_table.keys ++ [c.self_ip]).dedup).insertionSort (· ≤ ·)

/-- `own_mac if is_me else arp.get(ip, '')` -/
def Scene.macOf (c : Scene) (ip : Nat) : Mac :=
  if ip = c.self_ip then valid_mac c.own_mac else (c.arp_table.get ip).getD []

/-- `mac not in {value.lower() for value in trusted}` -/
def Scene.trusts (c : Scene) (mac : Mac) : Bool := (c.trusted_macs.map (·.map Char.toLower)).contains mac

section Scanner

variable [Vendors]

/-- `INSERT ... ON CONFLICT(mac) DO UPDATE` -/
def upsert (table : Dict Mac Row) (mac : Mac) (ip : Nat) (hostname : String) (now : Nat) :
    Dict Mac Row :=
  match table.get mac with
  | none => table.set mac ⟨ip, hostname, Vendors.vendor mac, now, now⟩
  | some r => table.set mac
      { r with ip := ip, hostname := if hostname = "-" then r.hostname else hostname,
               last_seen := now }

namespace State

/-- One address of a scan. -/
def look (c : Scene) (s : State) (ip : Nat) : State :=
  let is_me := ip = c.self_ip
  let mac := c.macOf ip
  let hostname := if is_me then c.hostname else "-"
  let is_new := mac ≠ [] ∧ !s.known_macs.contains mac
  let dev : Device := ⟨ip, mac, hostname, Vendors.vendor mac, is_me, is_new, c.responders.contains ip⟩
  if mac = [] then { s with last_result := s.last_result ++ [dev] }
  else
    { s with
      last_result := s.last_result ++ [dev]
      table := if c.writes mac then upsert s.table mac ip hostname c.now else s.table
      alerts := if is_new ∧ !c.trusts mac then mac :: s.alerts else s.alerts
      trusted := if is_new ∧ c.trusts mac then mac :: s.trusted else s.trusted
      known_macs := mac :: s.known_macs }

/-- `scan()` -/
def scan (s : State) (c : Scene) : State :=
  if 1024 < c.hosts then s
  else c.discovered.foldl (look c) { s with last_result := [] }

/-- `_load_known()` in a new process -/
def restart (s : State) (readable : Bool) : State :=
  let macs := if readable then s.table.keys.map (·.map Char.toLower) else []
  { s with
    known_macs := macs, loaded := macs, last_result := []
    alerts := [], trusted := [], earlier := s.alerts ++ s.earlier }

/-- A row that another part of the program inserts, if the MAC has none. -/
def insert (s : State) (mac : Mac) (row : Row) : State :=
  if s.table.contains mac then s else { s with table := s.table.set mac row }

end State

inductive Event where
  | scan (c : Scene)
  | restart (readable : Bool)
  | insert (mac : Mac) (row : Row)

def State.step (s : State) : Event → State
  | .scan c => s.scan c
  | .restart readable => s.restart readable
  | .insert mac row => s.insert mac row

def machine : Machine State Event where
  step s e := some (s.step e)

/-- A process that has just read a table. -/
def State.start (table : Dict Mac Row) : State :=
  (⟨table, [], [], [], [], [], []⟩ : State).restart true

/-! ## §3 A life of the process -/

/-- **What is known**: what was read, what was alerted, and what was trusted. -/
structure State.Sound (s : State) : Prop where
  once : s.alerts.Nodup
  fresh : ∀ m ∈ s.alerts, m ∈ s.known_macs ∧ m ∉ s.loaded
  kept : ∀ m ∈ s.loaded, m ∈ s.known_macs
  heard : ∀ m ∈ s.known_macs, m ∈ s.loaded ∨ m ∈ s.alerts ∨ m ∈ s.trusted

variable {s : State}

/-- What one address does to the four lists. -/
theorem look_cases (c : Scene) (s : State) (ip : Nat) :
    (c.macOf ip = [] ∧ ∃ devices, s.look c ip = { s with last_result := devices }) ∨
      ∃ devices alerts trusted, c.macOf ip ≠ [] ∧
        s.look c ip =
          { s with
            last_result := devices
            table := if c.writes (c.macOf ip) then
              upsert s.table (c.macOf ip) ip (if ip = c.self_ip then c.hostname else "-") c.now
              else s.table
            alerts := alerts, trusted := trusted, known_macs := c.macOf ip :: s.known_macs } ∧
        ((c.macOf ip ∈ s.known_macs ∧ alerts = s.alerts ∧ trusted = s.trusted) ∨
          (c.macOf ip ∉ s.known_macs ∧ alerts = c.macOf ip :: s.alerts ∧ trusted = s.trusted) ∨
          (c.macOf ip ∉ s.known_macs ∧ alerts = s.alerts ∧ trusted = c.macOf ip :: s.trusted)) := by
  unfold State.look
  by_cases hmac : c.macOf ip = []
  · simp [hmac]
  · refine Or.inr ⟨_, _, _, hmac, if_neg hmac, ?_⟩
    by_cases hknown : c.macOf ip ∈ s.known_macs
    · simp [hknown]
    · cases htrusts : c.trusts (c.macOf ip) <;> simp [hmac, hknown]

theorem State.Sound.look (h : s.Sound) (c : Scene) (ip : Nat) : (s.look c ip).Sound := by
  rcases look_cases c s ip with ⟨-, devices, heq⟩ | ⟨devices, alerts, trusted, hmac, heq, hcase⟩
  · rw [heq]
    exact ⟨h.once, h.fresh, h.kept, h.heard⟩
  · rw [heq]
    have hkept : ∀ m ∈ s.loaded, m ∈ c.macOf ip :: s.known_macs := fun m hm =>
      List.mem_cons_of_mem _ (h.kept m hm)
    have hfresh : ∀ m ∈ s.alerts, m ∈ c.macOf ip :: s.known_macs ∧ m ∉ s.loaded := fun m hm =>
      ⟨List.mem_cons_of_mem _ (h.fresh m hm).1, (h.fresh m hm).2⟩
    rcases hcase with ⟨hknown, rfl, rfl⟩ | ⟨hnew, rfl, rfl⟩ | ⟨hnew, rfl, rfl⟩
    · refine ⟨h.once, hfresh, hkept, fun m hm => ?_⟩
      rcases List.mem_cons.mp hm with rfl | hm
      · exact h.heard _ hknown
      · exact h.heard m hm
    · have hout : c.macOf ip ∉ s.alerts := fun hin => hnew (h.fresh _ hin).1
      refine ⟨List.nodup_cons.mpr ⟨hout, h.once⟩, fun m hm => ?_, hkept, fun m hm => ?_⟩
      · rcases List.mem_cons.mp hm with rfl | hm
        · exact ⟨List.mem_cons_self, fun hin => hnew (h.kept _ hin)⟩
        · exact hfresh m hm
      · rcases List.mem_cons.mp hm with rfl | hm
        · exact Or.inr (Or.inl List.mem_cons_self)
        · exact (h.heard m hm).imp_right (Or.imp_left (List.mem_cons_of_mem _))
    · refine ⟨h.once, hfresh, hkept, fun m hm => ?_⟩
      rcases List.mem_cons.mp hm with rfl | hm
      · exact Or.inr (Or.inr List.mem_cons_self)
      · exact (h.heard m hm).imp_right (Or.imp_right (List.mem_cons_of_mem _))

/-- What each address keeps, a scan keeps. -/
theorem scan_keeps {P : State → Prop} (hresult : ∀ s devices, P s → P { s with last_result := devices })
    {c : Scene} (hlook : ∀ s ip, P s → P (s.look c ip)) (s : State) (h : P s) : P (s.scan c) := by
  unfold State.scan
  split_ifs
  · exact h
  · have hfold : ∀ (ips : List Nat) (s : State), P s → P (ips.foldl (State.look c) s) := by
      intro ips
      induction ips with
      | nil => exact fun _ hs => hs
      | cons ip rest ih => exact fun s hs => ih _ (hlook s ip hs)
    exact hfold _ _ (hresult s [] h)

theorem step_sound (s : State) (e : Event) (s' : State) (h : s.Sound)
    (hs : machine.step s e = some s') : s'.Sound := by
  obtain rfl := Option.some.inj hs
  cases e with
  | scan c =>
      exact scan_keeps (fun s _ hs => ⟨hs.once, hs.fresh, hs.kept, hs.heard⟩)
        (fun s ip hs => hs.look c ip) s h
  | restart readable =>
      exact ⟨List.nodup_nil, fun m hm => absurd hm List.not_mem_nil, fun m hm => hm,
        fun m hm => Or.inl hm⟩
  | insert mac row =>
      simp only [State.step, State.insert]
      split_ifs
      · exact h
      · exact ⟨h.once, h.fresh, h.kept, h.heard⟩

omit [Vendors] in
theorem sound_start (table : Dict Mac Row) : (State.start table).Sound :=
  ⟨List.nodup_nil, fun _ hm => absurd hm List.not_mem_nil, fun _ hm => hm, fun _ hm => Or.inl hm⟩

omit [Vendors] in
/-- A MAC that is valid is in lower case. -/
theorem lower_valid_mac (value : Mac) : (valid_mac value).map Char.toLower = valid_mac value := by
  have hnormal : (normal value).map Char.toLower = normal value := by
    rw [normal, List.map_map, List.map_map, List.map_map]
    refine List.map_congr_left fun c _ => ?_
    simp only [Function.comp_apply]
    split_ifs
    · rfl
    · exact NetPulse.Mesh.toLower_toLower c
  unfold valid_mac
  dsimp only
  split_ifs
  · rfl
  · rfl
  · exact hnormal

omit [Vendors] in
theorem lower_arp_table (c : Scene) {ip : Nat} {mac : Mac} (h : c.arp_table.get ip = some mac) :
    mac.map Char.toLower = mac := by
  have hall : ∀ (rows : List (Nat × Mac)) (d : Dict Nat Mac),
      (∀ ip mac, d.get ip = some mac → mac.map Char.toLower = mac) →
      ∀ ip mac, (rows.foldl (fun d e =>
        if valid_mac e.2 ≠ [] ∧ c.inside e.1 then d.set e.1 (valid_mac e.2) else d) d).get ip =
          some mac → mac.map Char.toLower = mac := by
    intro rows
    induction rows with
    | nil => exact fun _ hd => hd
    | cons e rest ih =>
        intro d hd
        refine ih _ ?_
        dsimp only
        split_ifs
        · exact Dict.forall_get_set hd (lower_valid_mac e.2)
        · exact hd
  exact hall c.arp Dict.empty (fun _ _ hget => nomatch hget) ip mac h

omit [Vendors] in
theorem lower_macOf (c : Scene) (ip : Nat) : (c.macOf ip).map Char.toLower = c.macOf ip := by
  unfold Scene.macOf
  split_ifs
  · exact lower_valid_mac c.own_mac
  · rcases hget : c.arp_table.get ip with _ | mac
    · rfl
    · exact lower_arp_table c hget

theorem mem_keys_upsert (table : Dict Mac Row) (mac : Mac) (ip : Nat) (hostname : String) (now : Nat)
    (m : Mac) : m ∈ (upsert table mac ip hostname now).keys ↔ m = mac ∨ m ∈ table.keys := by
  unfold upsert
  split <;> exact Dict.mem_keys_assign

/-- Rows are written, and the table is read. -/
def Reliable (_ : State) : Event → Prop
  | .scan c => ∀ m, c.writes m = true
  | .restart readable => readable = true
  | .insert _ _ => True

/-- All the alerts there have been. -/
def State.everAlerted (s : State) : List Mac := s.alerts ++ s.earlier

/-- **The invariant**: what has been alerted is known, and has a row. -/
structure State.Lasting (s : State) : Prop where
  once : s.everAlerted.Nodup
  rows : ∀ m ∈ s.everAlerted, m ∈ s.table.keys
  known : ∀ m ∈ s.everAlerted, m ∈ s.known_macs
  lower : ∀ m ∈ s.everAlerted, m.map Char.toLower = m

theorem State.Lasting.look (h : s.Lasting) {c : Scene} (hwrites : ∀ m, c.writes m = true) (ip : Nat) :
    (s.look c ip).Lasting := by
  rcases look_cases c s ip with ⟨-, devices, heq⟩ | ⟨devices, alerts, trusted, hmac, heq, hcase⟩
  · rw [heq]
    exact ⟨h.once, h.rows, h.known, h.lower⟩
  · rw [heq, if_pos (hwrites _)]
    have hrows : ∀ m, m = c.macOf ip ∨ m ∈ s.everAlerted → m ∈ (upsert s.table (c.macOf ip) ip
        (if ip = c.self_ip then c.hostname else "-") c.now).keys := fun m hm =>
      (mem_keys_upsert _ _ _ _ _ m).mpr (hm.imp_right (h.rows m))
    have hknown : ∀ m ∈ s.everAlerted, m ∈ c.macOf ip :: s.known_macs := fun m hm =>
      List.mem_cons_of_mem _ (h.known m hm)
    rcases hcase with ⟨-, rfl, rfl⟩ | ⟨hnew, rfl, rfl⟩ | ⟨-, rfl, rfl⟩
    · exact ⟨h.once, fun m hm => hrows m (Or.inr hm), hknown, h.lower⟩
    · have hout : c.macOf ip ∉ s.everAlerted := fun hin => hnew (h.known _ hin)
      refine ⟨List.nodup_cons.mpr ⟨hout, h.once⟩, fun m hm => hrows m (List.mem_cons.mp hm),
        fun m hm => ?_, fun m hm => ?_⟩
      · rcases List.mem_cons.mp hm with rfl | hm
        · exact List.mem_cons_self
        · exact hknown m hm
      · rcases List.mem_cons.mp hm with rfl | hm
        · exact lower_macOf c ip
        · exact h.lower m hm
    · exact ⟨h.once, fun m hm => hrows m (Or.inr hm), hknown, h.lower⟩

theorem step_lasting (s : State) (e : Event) (s' : State) (h : s.Lasting) (hok : Reliable s e)
    (hs : machine.step s e = some s') : s'.Lasting := by
  obtain rfl := Option.some.inj hs
  cases e with
  | scan c =>
      exact scan_keeps (fun s _ hs => ⟨hs.once, hs.rows, hs.known, hs.lower⟩)
        (fun s ip hs => hs.look hok ip) s h
  | restart readable =>
      obtain rfl : readable = true := hok
      refine ⟨h.once, h.rows, fun m hm => ?_, h.lower⟩
      exact List.mem_map.mpr ⟨m, h.rows m hm, h.lower m hm⟩
  | insert mac row =>
      simp only [State.step, State.insert]
      split_ifs
      · exact h
      · exact ⟨h.once, fun m hm => Dict.mem_keys_assign.mpr (Or.inr (h.rows m hm)), h.known, h.lower⟩

omit [Vendors] in
theorem lasting_start (table : Dict Mac Row) : (State.start table).Lasting :=
  ⟨List.nodup_nil, fun _ hm => absurd hm List.not_mem_nil, fun _ hm => absurd hm List.not_mem_nil,
    fun _ hm => absurd hm List.not_mem_nil⟩

/-- **Once for all.** If rows can be written and the table can be read, no MAC is alerted twice, in
any number of lives, and each that was alerted has its row. -/
theorem alerted_once (table : Dict Mac Row) (es : List Event)
    (hes : machine.Guarded Reliable (State.start table) es) :
    machine.Always (fun s => s.everAlerted.Nodup ∧ ∀ m ∈ s.everAlerted, m ∈ s.table.keys)
      (State.start table) es :=
  machine.always_of_guarded (fun _ h => ⟨h.once, h.rows⟩) step_lasting (lasting_start table) hes

end Scanner

/-! ## §5 Two lives -/

section Concrete

@[reducible] def noVendors : Vendors := ⟨fun _ => ""⟩

attribute [local instance] noVendors

/-- A network with a printer behind two addresses. -/
def office (writes : Bool) : Scene where
  self_ip := 1
  own_mac := "00-11-22-33-44-55".toList
  hostname := "pc"
  hosts := 254
  inside := fun ip => ip < 255
  responders := [2]
  arp := [(2, "00:AA:BB:CC:DD:EE".toList), (3, "00:aa:bb:cc:dd:ee".toList),
    (4, "01:00:5e:00:00:fb".toList)]
  trusted_macs := ["00:11:22:33:44:55".toList]
  now := 7
  writes := fun _ => writes

def twoLives (writes : Bool) : List Event := [.scan (office writes), .restart true, .scan (office true)]

theorem alerted_once_office :
    machine.Always (fun s => s.everAlerted.Nodup ∧ ∀ m ∈ s.everAlerted, m ∈ s.table.keys)
      (State.start Dict.empty) (twoLives true) :=
  alerted_once Dict.empty (twoLives true)
    ⟨fun _ => rfl, fun _ _ => ⟨rfl, fun _ _ => ⟨fun _ => rfl, fun _ _ => trivial⟩⟩⟩

/-- Without a row the printer is new again in the next life. -/
example : ((machine.run (State.start Dict.empty) (twoLives false)).map State.everAlerted) =
    some ["00:aa:bb:cc:dd:ee".toList, "00:aa:bb:cc:dd:ee".toList] := by decide +kernel

end Concrete

end NetPulse.Monitor.LanScan
