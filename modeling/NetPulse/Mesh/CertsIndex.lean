import NetPulse.Lib.Loops
import NetPulse.Mesh.NeighborTable

/-
# NetPulse.Mesh.CertsIndex — who has which certificate (`internal_modules/certs_index.py`)

Every node sends digests of its certificates, and the index keeps, for each thumbprint, the nodes that
have it. A digest is everything a node has: `merge_cert_sync` first takes the node off every entry and
puts it back where the digest has it. `update_local` does the same for the own certificates, the other
way round: it sets the flag of what it is given and clears it everywhere else.

The index is read through `availableOn` and `installedLocally`. Each round of a loop adds at most one
pair to them (`mem_availableOn_mergeCert`), so a digest adds its pairs and no others, and over any
history of calls the index is what the last digest of each node says (`certsIndex_exact`).
-/

namespace NetPulse.Mesh

open NetPulse.Lib

/-! ## §1 The index -/

/-- A dict of texts: one item of a digest, or one certificate of the local list. -/
abbrev CertInfo := Dict String String

/-- `d.get(key, default)` -/
def CertInfo.getD (d : CertInfo) (key default : String) : String := (d.get key).getD default

/-- `a or b` on texts. -/
def orText (a b : String) : String := if a ≠ "" then a else b

structure CertEntry where
  thumbprint : String
  subjectCn : String
  validTo : String
  availableOn : List String
  installedLocally : Bool
  lastUpdated : Time
  syncVersion : Int

namespace CertEntry

/-- `if node in e.available_on: e.available_on.remove(node)` -/
def removeHolder (e : CertEntry) (node : String) : CertEntry :=
  if node ∈ e.availableOn then { e with availableOn := e.availableOn.erase node } else e

/-- `if node not in e.available_on: e.available_on.append(node)` -/
def addHolder (e : CertEntry) (node : String) : CertEntry :=
  if node ∉ e.availableOn then { e with availableOn := e.availableOn ++ [node] } else e

end CertEntry

structure CertsIndex where
  ownNodeId : String
  entries : Dict String CertEntry
  syncVersion : Int

/-- What `update_local` is given: the list of certificates, or a dict of them. An item that is no
dict is `none`. -/
inductive Certs where
  | list (certs : List (Option CertInfo))
  | dict (certs : Dict String (Option CertInfo))

/-- `certs if isinstance(certs, list) else certs.values()` -/
def Certs.items : Certs → List (Option CertInfo)
  | .list certs => certs
  | .dict certs => certs.values

namespace CertsIndex

/-- `CertsIndex(own_node_id)` -/
def init (ownNodeId : String) : CertsIndex := ⟨ownNodeId, Dict.empty, 0⟩

/-- The entry of a digest's item: a new one, or the old one with newer metadata. -/
def announced (syncVersion : Int) (now : Time) (tp : String) (d : CertInfo) :
    Option CertEntry → CertEntry
  | none =>
      { thumbprint := tp
        subjectCn := d.getD "subject_cn" "?"
        validTo := d.getD "valid_to" ""
        availableOn := []
        installedLocally := false
        lastUpdated := now
        syncVersion := syncVersion }
  | some entry =>
      let entry :=
        if syncVersion > entry.syncVersion then
          { entry with
            subjectCn := d.getD "subject_cn" entry.subjectCn
            validTo := d.getD "valid_to" entry.validTo
            syncVersion := syncVersion }
        else entry
      { entry with lastUpdated := now }

/-- One round of the loop of `merge_cert_sync`. -/
def mergeCert (fromNode : String) (syncVersion : Int) (now : Time) (entries : Dict String CertEntry)
    (d : CertInfo) : Dict String CertEntry :=
  let tp := d.getD "thumbprint" ""
  if tp = "" then entries
  else entries.set tp ((announced syncVersion now tp d (entries.get tp)).addHolder fromNode)

def mergeCertSync (fromNode : String) (certsDigest : List CertInfo) (syncVersion : Int) (now : Time)
    (ix : CertsIndex) : CertsIndex :=
  let entries := ix.entries.mapValues fun _ entry => entry.removeHolder fromNode
  { ix with
    entries := certsDigest.foldl (mergeCert fromNode syncVersion now) entries
    syncVersion := max ix.syncVersion syncVersion }

/-- The thumbprint of an item of the local list. -/
def thumbprintOf (c : CertInfo) : String := orText (c.getD "Thumbprint" "") (c.getD "thumbprint" "")

/-- The entry of an item of the local list. -/
def found (now : Time) (tp : String) (c : CertInfo) : Option CertEntry → CertEntry
  | none =>
      { thumbprint := tp
        subjectCn := orText (c.getD "Subject_CN" "") (c.getD "subject_cn" "?")
        validTo := orText (orText (orText (c.getD "ValidTo" "") (c.getD "valid_to" ""))
          (c.getD "Not valid after" "")) (c.getD "Действителен до" "")
        availableOn := []
        installedLocally := true
        lastUpdated := now
        syncVersion := 0 }
  | some entry => { entry with installedLocally := true, lastUpdated := now }

/-- One round of the loop of `update_local`: the entries and `local_thumbprints`. -/
def updateCert (now : Time) :
    Dict String CertEntry × List String → Option CertInfo → Dict String CertEntry × List String
  | (entries, thumbprints), none => (entries, thumbprints)
  | (entries, thumbprints), some c =>
      let tp := thumbprintOf c
      if tp = "" then (entries, thumbprints)
      else (entries.set tp (found now tp c (entries.get tp)), tp :: thumbprints)

def updateLocal (certs : Certs) (now : Time) (ix : CertsIndex) : CertsIndex :=
  let (entries, thumbprints) := certs.items.foldl (updateCert now) (ix.entries, [])
  { ix with
    entries := entries.mapValues fun tp entry =>
      if entry.installedLocally ∧ tp ∉ thumbprints then { entry with installedLocally := false }
      else entry
    syncVersion := ix.syncVersion + 1 }

/-! ## §2 Histories -/

inductive Call where
  | mergeCertSync (fromNode : String) (certsDigest : List CertInfo) (syncVersion : Int) (now : Time)
  | updateLocal (certs : Certs) (now : Time)

def step (ix : CertsIndex) : Call → CertsIndex
  | .mergeCertSync fromNode certsDigest syncVersion now =>
      ix.mergeCertSync fromNode certsDigest syncVersion now
  | .updateLocal certs now => ix.updateLocal certs now

def run (ix : CertsIndex) (calls : List Call) : CertsIndex := calls.foldl step ix

/-- The most recent digest of a node. -/
def lastDigest (node : String) (calls : List Call) : Option (List CertInfo) :=
  calls.foldl (fun last call =>
    match call with
    | .mergeCertSync fromNode certsDigest _ _ => if fromNode = node then some certsDigest else last
    | .updateLocal _ _ => last) none

/-- The most recent local list. -/
def lastLocal (calls : List Call) : Option Certs :=
  calls.foldl (fun last call =>
    match call with
    | .mergeCertSync _ _ _ _ => last
    | .updateLocal certs _ => some certs) none

/-- The digest contains the thumbprint. -/
def InDigest (certsDigest : List CertInfo) (tp : String) : Prop :=
  tp ≠ "" ∧ ∃ d ∈ certsDigest, d.getD "thumbprint" "" = tp

/-- The local list contains the thumbprint. -/
def InLocal (certs : Certs) (tp : String) : Prop :=
  tp ≠ "" ∧ ∃ c, some c ∈ certs.items ∧ thumbprintOf c = tp

/-- `available_on` of a thumbprint; nothing where there is no entry. -/
def holders (entries : Dict String CertEntry) (tp : String) : List String :=
  ((entries.get tp).map CertEntry.availableOn).getD []

/-- `installed_locally` of a thumbprint. -/
def installed (entries : Dict String CertEntry) (tp : String) : Bool :=
  ((entries.get tp).map CertEntry.installedLocally).getD false

def availableOn (ix : CertsIndex) (tp : String) : List String := holders ix.entries tp

def installedLocally (ix : CertsIndex) (tp : String) : Bool := installed ix.entries tp

/-! ## §3 One entry -/

theorem mem_addHolder {e : CertEntry} {node node' : String} :
    node ∈ (e.addHolder node').availableOn ↔ node ∈ e.availableOn ∨ node = node' := by
  unfold CertEntry.addHolder
  split
  · rw [List.mem_append, List.mem_singleton]
  · rename_i hin
    rw [not_not] at hin
    constructor
    · exact Or.inl
    · rintro (h | rfl)
      · exact h
      · exact hin

theorem nodup_addHolder {e : CertEntry} (h : e.availableOn.Nodup) (node : String) :
    (e.addHolder node).availableOn.Nodup := by
  unfold CertEntry.addHolder
  split
  · rename_i hnew
    exact List.nodup_append.mpr ⟨h, List.nodup_singleton node, by
      intro a ha b hb heq
      exact hnew (List.mem_singleton.mp hb ▸ heq ▸ ha)⟩
  · exact h

theorem installedLocally_addHolder (e : CertEntry) (node : String) :
    (e.addHolder node).installedLocally = e.installedLocally := by
  unfold CertEntry.addHolder
  split
  · rfl
  · rfl

theorem availableOn_removeHolder (e : CertEntry) (node : String) :
    (e.removeHolder node).availableOn = e.availableOn.erase node := by
  unfold CertEntry.removeHolder
  split
  · rfl
  · rename_i hnot
    exact (List.erase_of_not_mem hnot).symm

theorem installedLocally_removeHolder (e : CertEntry) (node : String) :
    (e.removeHolder node).installedLocally = e.installedLocally := by
  unfold CertEntry.removeHolder
  split
  · rfl
  · rfl

/-- A digest's item does not say who has the certificate; whoever sends it does. -/
theorem availableOn_announced (syncVersion : Int) (now : Time) (tp : String) (d : CertInfo)
    (old : Option CertEntry) :
    (announced syncVersion now tp d old).availableOn =
      (old.map CertEntry.availableOn).getD [] := by
  cases old with
  | none => rfl
  | some e =>
      by_cases hnewer : syncVersion > e.syncVersion
      · simp only [announced, if_pos hnewer, Option.map_some, Option.getD_some]
      · simp only [announced, if_neg hnewer, Option.map_some, Option.getD_some]

theorem installedLocally_announced (syncVersion : Int) (now : Time) (tp : String) (d : CertInfo)
    (old : Option CertEntry) :
    (announced syncVersion now tp d old).installedLocally =
      (old.map CertEntry.installedLocally).getD false := by
  cases old with
  | none => rfl
  | some e =>
      by_cases hnewer : syncVersion > e.syncVersion
      · simp only [announced, if_pos hnewer, Option.map_some, Option.getD_some]
      · simp only [announced, if_neg hnewer, Option.map_some, Option.getD_some]

theorem availableOn_found (now : Time) (tp : String) (c : CertInfo) (old : Option CertEntry) :
    (found now tp c old).availableOn = (old.map CertEntry.availableOn).getD [] := by
  cases old with
  | none => rfl
  | some e => rfl

theorem installedLocally_found (now : Time) (tp : String) (c : CertInfo)
    (old : Option CertEntry) : (found now tp c old).installedLocally = true := by
  cases old with
  | none => rfl
  | some e => rfl

/-! ## §4 The index after a round -/

section Updates

variable {entries : Dict String CertEntry} {tp tp' : String}

theorem holders_set {e : CertEntry} :
    holders (entries.set tp' e) tp = if tp = tp' then e.availableOn else holders entries tp := by
  unfold holders
  rw [Dict.get_set]
  split
  · rfl
  · rfl

theorem installed_set {e : CertEntry} :
    installed (entries.set tp' e) tp =
      if tp = tp' then e.installedLocally else installed entries tp := by
  unfold installed
  rw [Dict.get_set]
  split
  · rfl
  · rfl

theorem holders_removeHolder (node : String) :
    holders (entries.mapValues fun _ entry => entry.removeHolder node) tp =
      (holders entries tp).erase node := by
  unfold holders
  rw [Dict.get_mapValues]
  cases entries.get tp with
  | none => rfl
  | some e => exact availableOn_removeHolder e node

theorem installed_removeHolder (node : String) :
    installed (entries.mapValues fun _ entry => entry.removeHolder node) tp =
      installed entries tp := by
  unfold installed
  rw [Dict.get_mapValues]
  cases entries.get tp with
  | none => rfl
  | some e => exact installedLocally_removeHolder e node

variable {fromNode node : String} {syncVersion : Int} {now : Time} {d : CertInfo}

/-- **One item of a digest** adds its sender under its thumbprint, and nothing else. -/
theorem mem_holders_mergeCert :
    node ∈ holders (mergeCert fromNode syncVersion now entries d) tp ↔
      node ∈ holders entries tp ∨
        node = fromNode ∧ tp ≠ "" ∧ d.getD "thumbprint" "" = tp := by
  unfold mergeCert
  by_cases hempty : d.getD "thumbprint" "" = ""
  · rw [if_pos hempty, or_iff_left]
    rintro ⟨-, hne, heq⟩
    exact hne (heq ▸ hempty)
  · rw [if_neg hempty, holders_set]
    by_cases htp : tp = d.getD "thumbprint" ""
    · rw [if_pos htp, mem_addHolder, availableOn_announced, htp]
      have hitem : d.getD "thumbprint" "" ≠ "" ∧ d.getD "thumbprint" "" = d.getD "thumbprint" "" :=
        ⟨hempty, rfl⟩
      rw [and_iff_left hitem]
      exact Iff.rfl
    · rw [if_neg htp, or_iff_left]
      rintro ⟨-, -, heq⟩
      exact htp heq.symm

theorem nodup_holders_mergeCert (h : (holders entries tp).Nodup) :
    (holders (mergeCert fromNode syncVersion now entries d) tp).Nodup := by
  unfold mergeCert
  by_cases hempty : d.getD "thumbprint" "" = ""
  · rw [if_pos hempty]
    exact h
  · rw [if_neg hempty, holders_set]
    split
    · rename_i htp
      apply nodup_addHolder
      rw [availableOn_announced, ← htp]
      exact h
    · exact h

theorem installed_mergeCert :
    installed (mergeCert fromNode syncVersion now entries d) tp = installed entries tp := by
  unfold mergeCert
  by_cases hempty : d.getD "thumbprint" "" = ""
  · rw [if_pos hempty]
  · rw [if_neg hempty, installed_set]
    split
    · rename_i htp
      rw [installedLocally_addHolder, installedLocally_announced, ← htp]
      rfl
    · rfl

/-! The loop of `update_local` touches nobody's holders, and sets the flag of what it is given. -/

variable {state : Dict String CertEntry × List String}

/-- The item has the thumbprint. -/
def ItemHas (item : Option CertInfo) (tp : String) : Prop :=
  tp ≠ "" ∧ ∃ c, item = some c ∧ thumbprintOf c = tp

/-- A round does nothing, or it sets the flag under the one thumbprint of its item. -/
theorem updateCert_cases (now : Time) (state : Dict String CertEntry × List String)
    (item : Option CertInfo) :
    (updateCert now state item = state ∧ ∀ tp, ¬ ItemHas item tp) ∨
      ∃ tp' e, updateCert now state item = (state.1.set tp' e, tp' :: state.2) ∧
        e.availableOn = holders state.1 tp' ∧ e.installedLocally = true ∧
        ∀ tp, ItemHas item tp ↔ tp = tp' := by
  cases item with
  | none =>
      refine Or.inl ⟨rfl, ?_⟩
      rintro tp ⟨-, c, hc, -⟩
      cases hc
  | some c =>
      by_cases hempty : thumbprintOf c = ""
      · refine Or.inl ⟨?_, ?_⟩
        · simp only [updateCert, if_pos hempty]
        · rintro tp ⟨hne, c', hc, heq⟩
          cases hc
          exact hne (heq ▸ hempty)
      · refine Or.inr ⟨thumbprintOf c, found now (thumbprintOf c) c (state.1.get (thumbprintOf c)),
          ?_, availableOn_found _ _ _ _, installedLocally_found _ _ _ _, ?_⟩
        · simp only [updateCert, if_neg hempty]
        · intro tp
          constructor
          · rintro ⟨-, c', hc, heq⟩
            cases hc
            exact heq.symm
          · rintro rfl
            exact ⟨hempty, c, rfl, rfl⟩

theorem holders_updateCert (item : Option CertInfo) :
    holders (updateCert now state item).1 tp = holders state.1 tp := by
  rcases updateCert_cases now state item with ⟨h, -⟩ | ⟨tp', e, h, havail, -, -⟩
  · rw [h]
  · rw [h, holders_set]
    split
    · rename_i htp
      rw [havail, htp]
    · rfl

theorem installed_updateCert (item : Option CertInfo) :
    installed (updateCert now state item).1 tp = true ↔
      installed state.1 tp = true ∨ ItemHas item tp := by
  rcases updateCert_cases now state item with ⟨h, hnone⟩ | ⟨tp', e, h, -, hflag, hitem⟩
  · rw [h, or_iff_left (hnone tp)]
  · rw [h, installed_set, hitem]
    by_cases htp : tp = tp'
    · rw [if_pos htp]
      exact iff_of_true hflag (Or.inr htp)
    · rw [if_neg htp, or_iff_left htp]

theorem mem_thumbprints_updateCert (item : Option CertInfo) :
    tp ∈ (updateCert now state item).2 ↔ tp ∈ state.2 ∨ ItemHas item tp := by
  rcases updateCert_cases now state item with ⟨h, hnone⟩ | ⟨tp', e, h, -, -, hitem⟩
  · rw [h, or_iff_left (hnone tp)]
  · rw [h, List.mem_cons, hitem, or_comm]

/-- The flags that are cleared at the end of `update_local`. -/
theorem installed_clear (thumbprints : List String) :
    installed (entries.mapValues fun tp entry =>
      if entry.installedLocally ∧ tp ∉ thumbprints then { entry with installedLocally := false }
      else entry) tp = true ↔ installed entries tp = true ∧ tp ∈ thumbprints := by
  unfold installed
  rw [Dict.get_mapValues]
  cases entries.get tp with
  | none => exact iff_of_false Bool.false_ne_true (fun h => Bool.false_ne_true h.1)
  | some e =>
      simp only [Option.map_some, Option.getD_some]
      split
      · rename_i hclear
        exact iff_of_false Bool.false_ne_true (fun h => hclear.2 h.2)
      · rename_i hkeep
        constructor
        · intro hflag
          exact ⟨hflag, not_not.mp fun hnot => hkeep ⟨hflag, hnot⟩⟩
        · exact And.left

theorem holders_clear (thumbprints : List String) :
    holders (entries.mapValues fun tp entry =>
      if entry.installedLocally ∧ tp ∉ thumbprints then { entry with installedLocally := false }
      else entry) tp = holders entries tp := by
  unfold holders
  rw [Dict.get_mapValues]
  cases entries.get tp with
  | none => rfl
  | some e =>
      simp only [Option.map_some, Option.getD_some]
      split
      · rfl
      · rfl

end Updates

/-! ## §5 Calls -/

section Calls

variable {ix : CertsIndex} {tp node fromNode : String} {ds : List CertInfo} {syncVersion : Int}
  {now : Time} {certs : Certs}

theorem nodup_mergeCertSync (h : (ix.availableOn tp).Nodup) :
    ((ix.mergeCertSync fromNode ds syncVersion now).availableOn tp).Nodup := by
  have hstart : (holders (ix.entries.mapValues fun _ entry => entry.removeHolder fromNode)
      tp).Nodup := by
    rw [holders_removeHolder]
    exact h.erase fromNode
  exact List.foldlRecOn (motive := fun entries => (holders entries tp).Nodup) ds
    (mergeCert fromNode syncVersion now) hstart fun _ hb _ _ => nodup_holders_mergeCert hb

/-- **A digest replaces** what its sender has, and nobody else's. -/
theorem mem_availableOn_mergeCertSync (h : (ix.availableOn tp).Nodup) :
    node ∈ (ix.mergeCertSync fromNode ds syncVersion now).availableOn tp ↔
      if fromNode = node then InDigest ds tp else node ∈ ix.availableOn tp := by
  have hloop : node ∈ (ix.mergeCertSync fromNode ds syncVersion now).availableOn tp ↔
      node ∈ holders (ix.entries.mapValues fun _ entry => entry.removeHolder fromNode) tp ∨
        ∃ d ∈ ds, node = fromNode ∧ tp ≠ "" ∧ d.getD "thumbprint" "" = tp :=
    foldl_adds (P := fun entries => node ∈ holders entries tp)
      (fun _ d => mem_holders_mergeCert (d := d)) ds _
  rw [hloop, holders_removeHolder]
  by_cases hnode : fromNode = node
  · -- the sender's own pairs: taken off first, then put back from the digest
    subst hnode
    rw [if_pos rfl]
    constructor
    · rintro (hin | ⟨d, hd, -, hne, htp⟩)
      · exact absurd hin h.not_mem_erase
      · exact ⟨hne, d, hd, htp⟩
    · rintro ⟨hne, d, hd, htp⟩
      exact Or.inr ⟨d, hd, rfl, hne, htp⟩
  · rw [if_neg hnode, List.mem_erase_of_ne (Ne.symm hnode), or_iff_left]
    · exact Iff.rfl
    · rintro ⟨d, -, heq, -⟩
      exact hnode heq.symm

theorem installedLocally_mergeCertSync :
    (ix.mergeCertSync fromNode ds syncVersion now).installedLocally tp =
      ix.installedLocally tp := by
  have hloop : (ix.mergeCertSync fromNode ds syncVersion now).installedLocally tp =
      installed (ix.entries.mapValues fun _ entry => entry.removeHolder fromNode) tp :=
    foldl_reads (g := fun entries => installed entries tp)
      (fun _ d => installed_mergeCert (d := d)) ds _
  rw [hloop, installed_removeHolder]
  rfl

theorem availableOn_updateLocal : (ix.updateLocal certs now).availableOn tp = ix.availableOn tp := by
  have hloop : holders (certs.items.foldl (updateCert now) (ix.entries, [])).1 tp =
      holders ix.entries tp :=
    foldl_reads (g := fun state : Dict String CertEntry × List String => holders state.1 tp)
      (fun _ item => holders_updateCert item) certs.items _
  show holders (Dict.mapValues _ (certs.items.foldl (updateCert now) (ix.entries, [])).1) tp = _
  rw [holders_clear, hloop]
  rfl

/-- **A local list replaces** the flags. -/
theorem installedLocally_updateLocal :
    (ix.updateLocal certs now).installedLocally tp = true ↔ InLocal certs tp := by
  have hflags : installed (certs.items.foldl (updateCert now) (ix.entries, [])).1 tp = true ↔
      installed ix.entries tp = true ∨ ∃ item ∈ certs.items, ItemHas item tp :=
    foldl_adds
      (P := fun state : Dict String CertEntry × List String => installed state.1 tp = true)
      (fun _ item => installed_updateCert item) certs.items _
  have hlisted : tp ∈ (certs.items.foldl (updateCert now) (ix.entries, [])).2 ↔
      tp ∈ ([] : List String) ∨ ∃ item ∈ certs.items, ItemHas item tp :=
    foldl_adds (P := fun state : Dict String CertEntry × List String => tp ∈ state.2)
      (fun _ item => mem_thumbprints_updateCert item) certs.items _
  rw [or_iff_right List.not_mem_nil] at hlisted
  have hitems : (∃ item ∈ certs.items, ItemHas item tp) ↔ InLocal certs tp := by
    constructor
    · rintro ⟨_, hmem, hne, c, rfl, htp⟩
      exact ⟨hne, c, hmem, htp⟩
    · rintro ⟨hne, c, hmem, htp⟩
      exact ⟨some c, hmem, hne, c, rfl, htp⟩
  show installed (Dict.mapValues _ (certs.items.foldl (updateCert now) (ix.entries, [])).1) tp =
    true ↔ _
  rw [installed_clear, hflags, hlisted, hitems]
  exact and_iff_right_of_imp Or.inr

theorem le_syncVersion_step (ix : CertsIndex) (call : Call) :
    ix.syncVersion ≤ (ix.step call).syncVersion := by
  cases call with
  | mergeCertSync fromNode certsDigest syncVersion now => exact le_max_left _ _
  | updateLocal certs now => exact Int.le_of_lt (Int.lt_succ ix.syncVersion)

end Calls

/-! ## §6 Runs -/

/-- What the index of a history is to say. -/
structure Exact (ix : CertsIndex) (calls : List Call) : Prop where
  available : ∀ node tp, node ∈ ix.availableOn tp ↔
    ∃ certsDigest, lastDigest node calls = some certsDigest ∧ InDigest certsDigest tp
  once : ∀ tp, (ix.availableOn tp).Nodup
  installed : ∀ tp, ix.installedLocally tp = true ↔
    ∃ certs, lastLocal calls = some certs ∧ InLocal certs tp

theorem run_append (ix : CertsIndex) (earlier later : List Call) :
    run ix (earlier ++ later) = run (run ix earlier) later := List.foldl_append

theorem exact_nil (ownNodeId : String) : Exact (init ownNodeId) [] where
  available node tp := by
    refine iff_of_false List.not_mem_nil ?_
    rintro ⟨_, h, -⟩
    cases h
  once tp := List.nodup_nil
  installed tp := by
    refine iff_of_false Bool.false_ne_true ?_
    rintro ⟨_, h, -⟩
    cases h

theorem Exact.step {ix : CertsIndex} {calls : List Call} (h : Exact ix calls) (call : Call) :
    Exact (ix.step call) (calls ++ [call]) := by
  cases call with
  | mergeCertSync fromNode certsDigest syncVersion now =>
      have hlast (node : String) :
          lastDigest node (calls ++ [.mergeCertSync fromNode certsDigest syncVersion now]) =
            if fromNode = node then some certsDigest else lastDigest node calls := by
        unfold lastDigest
        rw [List.foldl_append]
        rfl
      have hlocal : lastLocal (calls ++ [.mergeCertSync fromNode certsDigest syncVersion now]) =
          lastLocal calls := by
        unfold lastLocal
        rw [List.foldl_append]
        rfl
      refine ⟨fun node tp => ?_, fun tp => nodup_mergeCertSync (h.once tp), fun tp => ?_⟩
      · rw [hlast]
        show node ∈ (ix.mergeCertSync fromNode certsDigest syncVersion now).availableOn tp ↔ _
        rw [mem_availableOn_mergeCertSync (h.once tp)]
        by_cases hnode : fromNode = node
        · simp only [if_pos hnode, Option.some.injEq, exists_eq_left']
        · rw [if_neg hnode, if_neg hnode]
          exact h.available node tp
      · rw [hlocal]
        show (ix.mergeCertSync fromNode certsDigest syncVersion now).installedLocally tp = true ↔ _
        rw [installedLocally_mergeCertSync]
        exact h.installed tp
  | updateLocal certs now =>
      have hlast (node : String) :
          lastDigest node (calls ++ [.updateLocal certs now]) = lastDigest node calls := by
        unfold lastDigest
        rw [List.foldl_append]
        rfl
      have hlocal : lastLocal (calls ++ [.updateLocal certs now]) = some certs := by
        unfold lastLocal
        rw [List.foldl_append]
        rfl
      refine ⟨fun node tp => ?_, fun tp => ?_, fun tp => ?_⟩
      · rw [hlast]
        show node ∈ (ix.updateLocal certs now).availableOn tp ↔ _
        rw [availableOn_updateLocal]
        exact h.available node tp
      · show ((ix.updateLocal certs now).availableOn tp).Nodup
        rw [availableOn_updateLocal]
        exact h.once tp
      · rw [hlocal]
        show (ix.updateLocal certs now).installedLocally tp = true ↔ _
        rw [installedLocally_updateLocal]
        simp only [Option.some.injEq, exists_eq_left']

theorem exact_run (ownNodeId : String) (calls : List Call) :
    Exact (run (init ownNodeId) calls) calls := by
  induction calls using List.reverseRecOn with
  | nil => exact exact_nil ownNodeId
  | append_singleton calls call ih =>
      rw [run_append]
      exact ih.step call

theorem le_syncVersion_run (ix : CertsIndex) (calls : List Call) :
    ix.syncVersion ≤ (run ix calls).syncVersion := by
  induction calls generalizing ix with
  | nil => exact le_refl _
  | cons call calls ih => exact le_trans (le_syncVersion_step ix call) (ih (ix.step call))

/-- **The index is what the last calls say**, after any history: a node is listed under a thumbprint
exactly when its last digest has the thumbprint, nobody is listed twice, the flag is what the last
local list says, and the version has not gone back since any earlier moment. -/
theorem certsIndex_exact (ownNodeId : String) (calls : List Call) :
    Exact (run (init ownNodeId) calls) calls ∧
      ∀ earlier later, calls = earlier ++ later →
        (run (init ownNodeId) earlier).syncVersion ≤ (run (init ownNodeId) calls).syncVersion := by
  refine ⟨exact_run ownNodeId calls, ?_⟩
  rintro earlier later rfl
  rw [run_append]
  exact le_syncVersion_run _ later

end CertsIndex

end NetPulse.Mesh
