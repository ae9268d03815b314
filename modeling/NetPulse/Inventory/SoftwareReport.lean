import NetPulse.Lib.Transaction
import NetPulse.Server.Gate

/-
# NetPulse.Inventory.SoftwareReport — reports of installed programs (`softwareinv.py`)

A machine sends the list of its programs. The host is found or added in statements of their own
(`upsert_host`); then one transaction deletes the rows of the host and inserts those of the report.

`report_atomic`: whatever fails, and wherever, the rows of the host are those of the report, in its
order, or all rows are as they were; and the rows of other hosts are never touched.
-/

namespace NetPulse.Inventory.SoftwareReport

open NetPulse.Lib NetPulse.Lib.Json NetPulse.Lib.Prog NetPulse.Lib.Transaction
open NetPulse.Gate (PyStr text stripBlank)

/-! ## §1 The tables -/

/-- A row of `hosts`; `V` is what the column `ram_gb` holds. -/
structure Host (V : Type) where
  id : Nat
  name : String
  ip : Option String
  os : Option String
  cpu : Option String
  ram_gb : Option V
  online : Bool
  first_seen : Option String
  last_seen : Option String
  updated_at : Option String

/-- A row of `sw_inventory`; the rows are listed by their `id`. -/
structure Software where
  host_id : Nat
  name : String
  version : Option String
  publisher : Option String
  seen : Option String
  deriving DecidableEq

structure Tables (V : Type) where
  hosts : List (Host V)
  /-- The next `id` of `hosts`. -/
  next_host : Nat
  software : List Software

/-- The clock at each place where it is read. -/
structure Clock where
  upsert : String
  update : String
  seen : Nat → String
  online : String

variable {Num V : Type} [Truth Num] [PyStr Num]

/-! ## §2 The report -/

/-- `str(value or "")` -/
def textOr (value : Option (Json Num)) : String := (value.filter truthy).elim "" text

/-- `s[:n]` -/
def cut (n : Nat) (s : String) : String := String.ofList (s.toList.take n)

/-- A program of the report; none if it is no object or has no name. -/
def entryOf : Json Num → Option (String × String × String)
  | .obj s =>
      let name := cut 160 (stripBlank (textOr (Dict.lookup "name" s)))
      if name = "" then none
      else some (name, cut 60 (textOr (Dict.lookup "version" s)),
        cut 120 (textOr (Dict.lookup "publisher" s)))
  | _ => none

/-- `rows` -/
def entries (software : List (Json Num)) : List (String × String × String) :=
  (software.take 500).filterMap entryOf

/-- The values of the `INSERT`s. -/
def values (clock : Clock) (software : List (Json Num)) : List (String × String × String × String) :=
  (entries software).mapIdx fun i e => (e.1, e.2.1, e.2.2, clock.seen i)

/-! ## §3 `upsert_host` -/

/-- The `UPDATE` of a host that is found. -/
def refreshHost (clock : Clock) (id : Nat) (ip os : String) (t : Tables V) : Tables V :=
  { t with hosts := t.hosts.map fun h =>
      if h.id = id then
        { h with last_seen := some clock.upsert
                 updated_at := some clock.upsert
                 ip := if ip ≠ "" then some ip else h.ip
                 os := if os ≠ "" then some os else h.os }
      else h }

/-- The `INSERT` of a new host, whose name is unique. -/
def insertHost (clock : Clock) (name ip os : String) (t : Tables V) : Option (Nat × Tables V) :=
  if (t.hosts.any fun h => decide (h.name = name)) then none
  else some (t.next_host,
    { t with
      hosts := t.hosts ++ [{ id := t.next_host, name := name, ip := some ip, os := some os
                             cpu := none, ram_gb := none, online := false
                             first_seen := some clock.upsert, last_seen := some clock.upsert
                             updated_at := some clock.upsert }]
      next_host := t.next_host + 1 })

/-- `SELECT id FROM hosts WHERE name = ?` -/
def findHost (name : String) (t : Tables V) : Option (Host V) :=
  t.hosts.find? fun h => decide (h.name = name)

/-- `upsert_host(name, ip, os_info)` -/
def upsert_host (clock : Clock) (name ip os : String) :
    Prog Unit (Conn (Tables V)) (Option Nat) :=
  if stripBlank name = "" then pure none
  else fetch (findHost (stripBlank name)) >>= fun row =>
    match row with
    | some (some h) =>
        execute (fun t => some ((), refreshHost clock h.id ip os t)) >>= fun _ => pure (some h.id)
    | _ =>
        attempt (withConnection (statement (insertHost clock (stripBlank name) ip os) >>=
          fun id => commit >>= fun _ => pure id))

/-! ## §4 `receive_report` -/

-- What `ram_gb` is bound to: `none` if it cannot be, `some none` for NULL.
variable (bind_ram : Option (Json Num) → Option (Option V))

/-- The `UPDATE` of the host; with no host, of none. -/
def updateHost (clock : Clock) (hid : Option Nat) (cpu : String) (ram : Option V) (t : Tables V) :
    Tables V :=
  { t with hosts := t.hosts.map fun h =>
      if some h.id = hid then
        { h with cpu := if cpu = "" then h.cpu else some cpu
                 ram_gb := ram.or h.ram_gb
                 updated_at := some clock.update }
      else h }

/-- `DELETE FROM sw_inventory WHERE host_id = ?` -/
def deleteSoftware (hid : Option Nat) (t : Tables V) : Tables V :=
  { t with software := t.software.filter fun row => decide (some row.host_id ≠ hid) }

/-- `INSERT INTO sw_inventory`; `host_id` is `NOT NULL`. -/
def insertSoftware (hid : Option Nat) (e : String × String × String × String) (t : Tables V) :
    Option (Tables V) :=
  hid.map fun id =>
    { t with software := t.software ++ [⟨id, e.1, some e.2.1, some e.2.2.1, some e.2.2.2⟩] }

/-- `mark_online(hid, True)` -/
def markOnline (clock : Clock) (hid : Option Nat) (t : Tables V) : Tables V :=
  { t with hosts := t.hosts.map fun h =>
      if some h.id = hid then { h with online := true, updated_at := some clock.online } else h }

/-- The statements of the transaction. -/
def replace (clock : Clock) (data : Entries Num) (hid : Option Nat) (software : List (Json Num)) :
    Prog Unit (Conn (Tables V)) Unit :=
  statement (fun t => (bind_ram (Dict.lookup "ram_gb" data)).map fun ram =>
      ((), updateHost clock hid (textOr (Dict.lookup "cpu" data)) ram t)) >>= fun _ =>
    statement (fun t => some ((), deleteSoftware hid t)) >>= fun _ =>
      executemany (insertSoftware hid) (values clock software)

inductive Reply where
  /-- 400 -/
  | refused (error : String)
  /-- 500 -/
  | failed (error : String)
  | ok (host : String) (packages : Nat)

/-- The end of `receive_report`. -/
def finish (clock : Clock) (hid : Option Nat) (hostname : String) (packages : Nat) :
    Option Unit → Prog Unit (Conn (Tables V)) Reply
  | none => pure (.failed "ошибка записи")
  | some _ =>
      execute (fun t => some ((), markOnline clock hid t)) >>= fun _ => pure (.ok hostname packages)

/-- What is written for a report that is taken. -/
def store (clock : Clock) (data : Entries Num) (hostname : String) (software : List (Json Num)) :
    Prog Unit (Conn (Tables V)) Reply :=
  upsert_host clock hostname (cut 45 (textOr (Dict.lookup "ip" data)))
      (cut 120 (textOr (Dict.lookup "os" data))) >>= fun hid =>
    attempt (withConnection (replace bind_ram clock data hid software >>= fun u =>
      commit >>= fun _ => pure u)) >>=
        finish clock hid hostname (entries software).length

/-- The report, the first 64 characters of the name, and the list; or what is wrong. -/
def check : Json Num → Except String (Entries Num × String × List (Json Num))
  | .obj data =>
      let hostname := stripBlank (textOr (Dict.lookup "hostname" data))
      match Dict.lookup "software" data with
      | some (.list software) =>
          if hostname = "" then .error "нужны hostname и список software"
          else .ok (data, cut 64 hostname, software)
      | _ => .error "нужны hostname и список software"
  | _ => .error "нужен JSON-объект"

/-- `receive_report(data)` -/
def receive_report (clock : Clock) (data : Json Num) : Prog Unit (Conn (Tables V)) Reply :=
  match check data with
  | .error e => pure (.refused e)
  | .ok (data, hostname, software) => store bind_ram clock data hostname software

/-! ## §5 What it leaves -/

/-- The rows of a report. -/
def rowsOf (clock : Clock) (id : Nat) (software : List (Json Num)) : List Software :=
  (values clock software).map fun e => ⟨id, e.1, some e.2.1, some e.2.2.1, some e.2.2.2⟩

/-- The rows of a host. -/
def softwareOf (id : Nat) (t : Tables V) : List Software :=
  t.software.filter fun row => decide (row.host_id = id)

/-- The rows of the host of this name are those of the report, behind all others, and the rows of
any other host are as they were. -/
def Replaced (clock : Clock) (hostname : String) (software : List (Json Num))
    (before after : Tables V) : Prop :=
  ∃ host ∈ after.hosts, host.name = stripBlank hostname ∧
    after.software =
      before.software.filter (fun row => decide (row.host_id ≠ host.id)) ++
        rowsOf clock host.id software ∧
    ∀ other, other ≠ host.id → softwareOf other after = softwareOf other before

variable {bind_ram} {clock : Clock} {s t : Tables V} {hid : Option Nat} {id : Nat}
  {software : List (Json Num)} {hostname ip os : String} {data : Entries Num}

omit [Truth Num] [PyStr Num] in
/-- A new host has the name. -/
theorem of_insertHost {name : String} (h : insertHost clock name ip os s = some (id, t)) :
    t.software = s.software ∧ ∃ host ∈ t.hosts, host.id = id ∧ host.name = name := by
  rw [insertHost] at h
  split_ifs at h
  obtain ⟨rfl, rfl⟩ : s.next_host = id ∧ _ = t := by simpa using h
  refine ⟨rfl, ?_⟩
  simp

omit [Truth Num] [PyStr Num] in
/-- An `UPDATE` that sets neither keeps id and name. -/
theorem host_of_map {f : Host V → Host V} (hf : ∀ h, (f h).id = h.id ∧ (f h).name = h.name)
    {hosts : List (Host V)} {name : String} (h : ∃ host ∈ hosts, host.id = id ∧ host.name = name) :
    ∃ host ∈ hosts.map f, host.id = id ∧ host.name = name := by
  obtain ⟨host, hmem, hid, hname⟩ := h
  exact ⟨f host, List.mem_map_of_mem hmem, (hf host).1.trans hid, (hf host).2.trans hname⟩

/-- The host of this name has the id, and no programs have changed since. -/
def Upserted (s : Tables V) (name : String) (id : Nat) (c : Conn (Tables V)) : Prop :=
  ∃ t : Tables V, t.software = s.software ∧ (∃ host ∈ t.hosts, host.id = id ∧ host.name = name) ∧
    Is t t False c

omit [Truth Num] [PyStr Num] in
theorem insert_spec (clock : Clock) (name ip os : String) (p : Prop)
    {E : Unit → Conn (Tables V) → Prop} :
    Triple (Is s s p) (attempt (withConnection (statement (insertHost clock name ip os) >>=
        fun id => commit >>= fun _ => pure id)))
      (fun o c => o.elim (Is s s True c) fun id => Upserted s name id c) E := by
  refine (transaction_spec statement_spec).after fun o c ho => ?_
  rcases o with _ | id
  · exact ho
  · obtain ⟨t, ht, hc⟩ := ho
    obtain ⟨hsoftware, hhost⟩ := of_insertHost ht
    exact ⟨t, hsoftware, hhost, hc.forget⟩

omit [Truth Num] [PyStr Num] in
theorem refresh_spec {name : String} {host : Host V} (hmem : host ∈ s.hosts)
    (hname : host.name = name) {E : Unit → Conn (Tables V) → Prop} :
    Triple (Is s s False) (execute fun t => some ((), refreshHost clock host.id ip os t))
      (fun _ => Upserted s name host.id) E := by
  have hhost : ∃ h ∈ s.hosts, h.id = host.id ∧ h.name = name := ⟨host, hmem, rfl, hname⟩
  refine execute_spec.after fun o c ho => ?_
  rcases o with _ | _
  · exact ⟨s, rfl, hhost, ho.forget⟩
  · obtain ⟨t, ht, hc⟩ := ho
    obtain rfl : refreshHost clock host.id ip os s = t := congrArg Prod.snd (Option.some.inj ht)
    refine ⟨refreshHost clock host.id ip os s, rfl, host_of_map (fun h => ?_) hhost, hc.forget⟩
    split_ifs <;> exact ⟨rfl, rfl⟩

omit [Truth Num] [PyStr Num] in
/-- The host of an `upsert_host`; there is none only if a step has failed. -/
theorem upsert_spec (hname : stripBlank hostname ≠ "") {E : Unit → Conn (Tables V) → Prop} :
    Triple (Is s s False) (upsert_host clock hostname ip os)
      (fun o c => o.elim (Is s s True c) fun id => Upserted s (stripBlank hostname) id c) E := by
  rw [upsert_host, if_neg hname]
  refine Triple.bind fetch_spec fun row => ?_
  rcases row with _ | _ | host
  · -- the host could not be looked for
    exact insert_spec clock (stripBlank hostname) ip os True
  · exact (insert_spec clock (stripBlank hostname) ip os False).before fun c hc => hc.2
  · refine Triple.of_fact fun hfind => ?_
    have hhost : host.name = stripBlank hostname := by simpa using List.find?_some hfind
    exact Triple.bind (refresh_spec (List.mem_of_find?_eq_some hfind) hhost)
      fun _ => Triple.pure fun c hc => hc

/-! ## §6 The transaction -/

omit [Truth Num] [PyStr Num] in
theorem afterAll_insert (id : Nat) (l : List (String × String × String × String)) (t : Tables V) :
    afterAll (insertSoftware (some id)) l t =
      some { t with software := t.software ++
        (l.map fun e => ⟨id, e.1, some e.2.1, some e.2.2.1, some e.2.2.2⟩) } := by
  induction l generalizing t with
  | nil => simp [afterAll]
  | cons e rest ih => simp [afterAll, insertSoftware, ih]

omit [Truth Num] [PyStr Num] in
/-- Without a host, a report is empty or its first row cannot be inserted. -/
theorem afterAll_insert_none {l : List (String × String × String × String)}
    (h : afterAll (insertSoftware none) l s = some t) : t = s := by
  rcases l with _ | ⟨e, rest⟩
  · exact (Option.some.inj h).symm
  · simp [afterAll, insertSoftware] at h

/-- What the statements of the transaction make of the tables. -/
theorem replace_spec {p : Prop} :
    Triple (Is s s p) (replace bind_ram clock data hid software)
      (fun _ c => ∃ t, (∃ ram, afterAll (insertSoftware hid) (values clock software)
        (deleteSoftware hid (updateHost clock hid (textOr (Dict.lookup "cpu" data)) ram s)) =
          some t) ∧ Is s t p c) fun _ => Broken s := by
  refine Triple.bind statement_spec fun _ => ?_
  refine Triple.of_exists fun t => Triple.of_fact fun ht => ?_
  obtain ⟨ram, -, heq⟩ := Option.map_eq_some_iff.mp ht
  obtain rfl : updateHost clock hid (textOr (Dict.lookup "cpu" data)) ram s = t :=
    congrArg Prod.snd heq
  refine Triple.bind statement_spec fun _ => ?_
  refine Triple.of_exists fun t => Triple.of_fact fun ht => ?_
  obtain rfl := congrArg Prod.snd (Option.some.inj ht)
  refine executemany_spec.after ?_
  rintro _ c ⟨t, ht, hc⟩
  exact ⟨t, ⟨ram, ht⟩, hc⟩

/-- What a report leaves: its rows are stored, or a step has failed and no row has changed. -/
def Stored (clock : Clock) (hostname : String) (software : List (Json Num)) (s : Tables V)
    (c : Conn (Tables V)) : Prop :=
  c.working = c.stored ∧
    (Replaced clock hostname software s c.stored ∨ c.stored.software = s.software ∧ c.failed = true)

/-- What is put behind the rows of other hosts does not touch them. -/
theorem softwareOf_other {other : Nat} (hother : other ≠ id)
    (h : t.software = s.software.filter (fun row => decide (row.host_id ≠ id)) ++
      rowsOf clock id software) : softwareOf other t = softwareOf other s := by
  rw [softwareOf, softwareOf, h, List.filter_append, List.filter_filter]
  have hrows : (rowsOf clock id software).filter
      (fun row => decide (row.host_id = other)) = [] := by
    refine List.filter_eq_nil_iff.mpr fun row hrow => ?_
    obtain ⟨e, -, rfl⟩ := List.mem_map.mp hrow
    simpa using hother.symm
  rw [hrows, List.append_nil]
  refine List.filter_congr fun row _ => ?_
  by_cases hrow : row.host_id = other
  · simp [hrow, hother]
  · simp [hrow]

/-- The whole transaction replaces the rows of the host. -/
theorem replaced_of_afterAll {ram : Option V} {cpu : String} (hsoftware : t.software = s.software)
    (hhost : ∃ host ∈ t.hosts, host.id = id ∧ host.name = stripBlank hostname) {t' : Tables V}
    (h : afterAll (insertSoftware (some id)) (values clock software)
      (deleteSoftware (some id) (updateHost clock (some id) cpu ram t)) = some t') :
    Replaced clock hostname software s t' := by
  rw [afterAll_insert] at h
  obtain rfl := Option.some.inj h
  obtain ⟨host, hmem, rfl, hname⟩ := host_of_map
    (f := fun h => if some h.id = some id then
      { h with cpu := if cpu = "" then h.cpu else some cpu
               ram_gb := ram.or h.ram_gb
               updated_at := some clock.update }
      else h) (fun h => by split_ifs <;> exact ⟨rfl, rfl⟩) hhost
  have hrows : (t.software.filter fun row => decide (some row.host_id ≠ some host.id)) ++
      rowsOf clock host.id software =
        s.software.filter (fun row => decide (row.host_id ≠ host.id)) ++
          rowsOf clock host.id software := by
    rw [hsoftware]
    simp
  exact ⟨host, hmem, hname, hrows, fun other hother => softwareOf_other hother hrows⟩

/-- A host that is marked online keeps its id, its name and its programs. -/
theorem markOnline_spec {E : Unit → Conn (Tables V) → Prop} :
    Triple (Stored clock hostname software s) (execute fun t => some ((), markOnline clock hid t))
      (fun _ => Stored clock hostname software s) E := by
  rintro c ⟨hworking, hstored⟩
  refine execute_spec.after ?_ c (⟨rfl, hworking, id⟩ : Is c.stored c.stored (c.failed = true) c)
  intro o c' ho
  rcases o with _ | _
  · refine ⟨ho.working.trans ho.stored.symm, hstored.imp ?_ ?_⟩
    · rw [ho.stored]
      exact id
    · rintro ⟨hsame, -⟩
      exact ⟨ho.stored ▸ hsame, ho.failed trivial⟩
  · obtain ⟨t, ht, hc⟩ := ho
    obtain rfl : markOnline clock hid c.stored = t := congrArg Prod.snd (Option.some.inj ht)
    refine ⟨hc.working.trans hc.stored.symm, hstored.imp ?_ ?_⟩
    · rintro ⟨host, hmem, hname, hrows⟩
      rw [hc.stored]
      obtain ⟨host', hmem', hid', hname'⟩ := host_of_map
        (f := fun h : Host V => if some h.id = hid then
          { h with online := true, updated_at := some clock.online } else h)
        (fun h => by split_ifs <;> exact ⟨rfl, rfl⟩) ⟨host, hmem, rfl, hname⟩
      exact ⟨host', hmem', hname', hid' ▸ hrows⟩
    · rintro ⟨hsame, hfailed⟩
      exact ⟨hc.stored ▸ hsame, hc.failed hfailed⟩

/-- `store`, for a name that is not empty. -/
theorem store_spec (hname : stripBlank hostname ≠ "") :
    Triple (Is s s False) (store bind_ram clock data hostname software)
      (fun _ => Stored clock hostname software s) fun _ _ => False := by
  refine Triple.bind (upsert_spec hname) fun hid => ?_
  have hanswer : ∀ stored, Triple (Stored clock hostname software s)
      (finish clock hid hostname (entries software).length stored)
      (fun _ => Stored clock hostname software s) fun _ _ => False := by
    rintro (_ | _)
    · exact Triple.pure fun c hc => hc
    · exact Triple.bind markOnline_spec fun _ => Triple.pure fun c hc => hc
  rcases hid with _ | id
  · -- no host, and a step that has failed
    refine Triple.bind ((transaction_spec replace_spec).after ?_) hanswer
    rintro (_ | _) c ho
    · exact ⟨ho.working.trans ho.stored.symm, .inr ⟨ho.stored ▸ rfl, ho.failed trivial⟩⟩
    · obtain ⟨t, ⟨ram, ht⟩, hc⟩ := ho
      obtain rfl := afterAll_insert_none ht
      refine ⟨hc.working.trans hc.stored.symm, .inr ⟨?_, hc.failed trivial⟩⟩
      rw [hc.stored]
      exact List.filter_eq_self.mpr fun row _ => by simp
  · refine Triple.of_exists fun t => ?_
    refine Triple.of_fact fun hsoftware => Triple.of_fact fun hhost => ?_
    refine Triple.bind ((transaction_spec replace_spec).after ?_) hanswer
    rintro (_ | _) c ho
    · refine ⟨ho.working.trans ho.stored.symm, .inr ⟨?_, ho.failed trivial⟩⟩
      rw [ho.stored, hsoftware]
    · obtain ⟨t', ⟨ram, ht'⟩, hc⟩ := ho
      refine ⟨hc.working.trans hc.stored.symm, .inl ?_⟩
      rw [hc.stored]
      exact replaced_of_afterAll hsoftware hhost ht'

/-! ## §7 Any report -/

omit [Truth Num] [PyStr Num] in
/-- What is stripped is empty only if all is blank. -/
theorem stripBlank_ne {x : String} {a : Char} (ha : a ∈ x.toList)
    (hblank : NetPulse.Gate.blank a = false) : stripBlank x ≠ "" := by
  rw [stripBlank, ne_eq, String.ofList_eq_empty_iff, List.rdropWhile_eq_nil_iff]
  intro hall
  have hdrop : x.toList.dropWhile NetPulse.Gate.blank ≠ [] := by
    intro hnil
    rw [List.dropWhile_eq_nil_iff.mp hnil a ha] at hblank
    cases hblank
  have hhead := hall _ (List.head_mem hdrop)
  rw [List.head_dropWhile_not NetPulse.Gate.blank hdrop] at hhead
  cases hhead

omit [Truth Num] [PyStr Num] in
/-- A stripped text begins with no blank, and so does what is cut of it. -/
theorem stripBlank_cut_ne {x : String} (h : stripBlank x ≠ "") :
    stripBlank (cut 64 (stripBlank x)) ≠ "" := by
  have hne : (x.toList.dropWhile NetPulse.Gate.blank).rdropWhile NetPulse.Gate.blank ≠ [] := by
    rwa [stripBlank, ne_eq, String.ofList_eq_empty_iff] at h
  obtain ⟨a, rest, hcons⟩ := List.exists_cons_of_ne_nil hne
  have ha : NetPulse.Gate.blank a = false := by
    obtain ⟨more, hmore⟩ := List.rdropWhile_prefix NetPulse.Gate.blank
      (l := x.toList.dropWhile NetPulse.Gate.blank)
    rw [hcons] at hmore
    have hdrop : x.toList.dropWhile NetPulse.Gate.blank ≠ [] := by
      rw [← hmore]
      exact List.cons_ne_nil a _
    have hhead := List.head_dropWhile_not NetPulse.Gate.blank hdrop
    simpa [← hmore] using hhead
  refine stripBlank_ne (a := a) ?_ ha
  rw [cut, String.toList_ofList, stripBlank, String.toList_ofList, hcons]
  exact List.mem_cons_self

theorem name_of_check {report : Json Num} (h : check report = .ok (data, hostname, software)) :
    stripBlank hostname ≠ "" := by
  unfold check at h
  dsimp only at h
  split at h
  · split at h
    · split_ifs at h with hname
      obtain ⟨-, rfl, -⟩ : _ ∧ _ = hostname ∧ _ := by simpa using h
      exact stripBlank_cut_ne hname
    · cases h
  · cases h

/-- **A report is stored as a whole or not at all**: whichever steps fail, the rows of the host are
those of the report, or no row has changed, and then the report was refused or a step has failed. -/
theorem report_atomic (bind_ram : Option (Json Num) → Option (Option V)) (clock : Clock)
    (report : Json Num) (before : Tables V) (fails : Nat → Bool) :
    let after := final (receive_report bind_ram clock report ⟨before, before, fails, false⟩)
    (∃ data hostname software, check report = .ok (data, hostname, software) ∧
        Replaced clock hostname software before after.stored) ∨
      after.stored.software = before.software ∧
        ((∃ e, check report = .error e) ∨ after.failed = true) := by
  intro after
  rcases hcheck : check report with e | ⟨data, hostname, software⟩
  · have hafter : after = ⟨before, before, fails, false⟩ := by
      show final (receive_report bind_ram clock report _) = _
      rw [receive_report, hcheck]
      rfl
    rw [hafter]
    exact .inr ⟨rfl, .inl ⟨e, rfl⟩⟩
  · -- the rule for the transaction says what is left, whichever step fails
    have hspec : Post (fun _ => Stored clock hostname software before) (fun _ _ => False)
        (store bind_ram clock data hostname software ⟨before, before, fails, false⟩) :=
      store_spec (name_of_check hcheck) _ ⟨rfl, rfl, False.elim⟩
    have hafter : after = final (store bind_ram clock data hostname software
        ⟨before, before, fails, false⟩) := by
      show final (receive_report bind_ram clock report _) = _
      rw [receive_report, hcheck]
    rw [hafter]
    rcases hrun : store bind_ram clock data hostname software ⟨before, before, fails, false⟩ with
      ⟨reply, c⟩ | ⟨e, c⟩
    · rw [hrun] at hspec
      refine hspec.2.imp (fun hreplaced => ⟨data, hostname, software, rfl, hreplaced⟩) ?_
      exact fun hsame => ⟨hsame.1, .inr hsame.2⟩
    · rw [hrun] at hspec
      exact hspec.elim

section Concrete

attribute [local instance] NetPulse.Gate.intPyStr

/-- PC-1 had program A, and reports B and C. -/
def atPc1 : Tables Int where
  hosts := [⟨1, "PC-1", none, none, none, none, false, none, none, none⟩]
  next_host := 2
  software := [⟨1, "A", none, none, none⟩]

def twoPrograms : Json Int :=
  .obj [("hostname", .str "PC-1"),
    ("software", .list [.obj [("name", .str "B")], .null, .obj [("name", .str "C")]])]

def noon : Clock := ⟨"12:00", "12:00", fun _ => "12:00", "12:00"⟩

/-- The names afterwards, when the steps of this list fail. -/
def namesAfter (failing : List Nat) : List String :=
  (final (receive_report (fun _ => some none) noon twoPrograms
    ⟨atPc1, atPc1, fun i => decide (i ∈ failing), false⟩)).stored.software.map Software.name

example : namesAfter [] = ["B", "C"] := by decide +kernel

-- the second row, and the last commit
example : namesAfter [9] = ["A"] ∧ namesAfter [10] = ["A"] := by decide +kernel

end Concrete

end NetPulse.Inventory.SoftwareReport
