import NetPulse.Mesh.NeighborInvariant

/-
# NetPulse.Mesh.GossipFrame — what a merge leaves alone (`networking/neighbor_table.py`)

`merge_gossip` walks a list in which one node may stand several times, in different spellings, and
each round sees what the rounds before have written. `EntryFrame` is what may become of one entry,
`MergeFrame` what may become of the table; both compose, so that the frame of a list is that of its
rounds.
-/

namespace NetPulse.Mesh

open NetPulse.Lib NeighborTable

/-! ## §1 One entry -/

/-- What gossip from `sender` may make of an entry. -/
structure EntryFrame (sender : String) (i i' : NeighborInfo) : Prop where
  connected : i.status = .connected → i'.status = .connected ∧ i'.via = i.via ∧ i'.hops = i.hops
  hops : i'.hops ≤ i.hops
  via : i'.via ≠ i.via → i'.via = some sender ∧
    (i'.hops < i.hops ∨ i'.hops = i.hops ∧ i.status = .unreachable)
  /-- Gossip gives no entry up. -/
  unreachable : i'.status = .unreachable → i.status = .unreachable

namespace EntryFrame

variable {sender : String} {i i' i'' : NeighborInfo}

theorem refl (sender : String) (i : NeighborInfo) : EntryFrame sender i i where
  connected h := ⟨h, rfl, rfl⟩
  hops := le_refl _
  via h := absurd rfl h
  unreachable h := h

theorem trans (h : EntryFrame sender i i') (h' : EntryFrame sender i' i'') :
    EntryFrame sender i i'' where
  connected hi := by
    obtain ⟨hs, hv, hh⟩ := h.connected hi
    obtain ⟨hs', hv', hh'⟩ := h'.connected hs
    exact ⟨hs', hv'.trans hv, hh'.trans hh⟩
  hops := le_trans h'.hops h.hops
  via hne := by
    by_cases hlast : i''.via = i'.via
    · -- the via is from the first part, and the second may shorten the way
      obtain ⟨hsender, hcase⟩ := h.via (hlast ▸ hne)
      refine ⟨hlast.trans hsender, ?_⟩
      rcases hcase with hlt | ⟨heq, hlost⟩
      · exact Or.inl (lt_of_le_of_lt h'.hops hlt)
      · exact (lt_or_eq_of_le (heq ▸ h'.hops)).imp id fun heq' => ⟨heq', hlost⟩
    · obtain ⟨hsender, hcase⟩ := h'.via hlast
      refine ⟨hsender, ?_⟩
      rcases hcase with hlt | ⟨heq, hlost⟩
      · exact Or.inl (lt_of_lt_of_le hlt h.hops)
      · rw [heq]
        exact (lt_or_eq_of_le h.hops).imp id fun heq' => ⟨heq', h.unreachable hlost⟩
  unreachable hi := h.unreachable (h'.unreachable hi)

/-- Only the metadata changes, and an unreachable entry may come back. -/
theorem of_same_route (hvia : i'.via = i.via) (hhops : i'.hops = i.hops)
    (hconnected : i.status = .connected → i'.status = .connected)
    (hlost : i'.status = .unreachable → i.status = .unreachable) : EntryFrame sender i i' where
  connected hi := ⟨hconnected hi, hvia, hhops⟩
  hops := le_of_eq hhops
  via hne := absurd hvia hne
  unreachable := hlost

/-- The three branches of an update: a shorter way, a failover, and new metadata. -/
theorem updated [Canon] (now : Time) (sender : String) (e : GossipEntry)
    (hi : i.status ≠ .connected) : EntryFrame sender i (updated now sender e i) := by
  have hrevived : ∀ {c : Prop} [Decidable c],
      (if c then NeighborStatus.known else i.status) = .unreachable → i.status = .unreachable := by
    intro c _ hstatus
    split at hstatus
    · cases hstatus
    · exact hstatus
  unfold NeighborTable.updated
  split
  · rename_i hshorter
    exact
      { connected := fun hc => absurd hc hi
        hops := le_of_lt hshorter
        via := fun _ => ⟨rfl, Or.inl hshorter⟩
        unreachable := hrevived }
  · split
    · rename_i hequal
      split
      · rename_i hlost
        exact
          { connected := fun hc => absurd hc hi
            hops := le_of_eq hequal.1
            via := fun _ => ⟨rfl, Or.inr ⟨hequal.1, hlost⟩⟩
            unreachable := fun _ => hlost }
      · exact of_same_route rfl rfl (fun hc => absurd hc hi) id
    · exact of_same_route rfl rfl (fun hc => absurd hc hi) hrevived

end EntryFrame

/-! ## §2 The table -/

variable [Canon]

/-- What a merge of gossip from `sender` may make of a table. -/
structure MergeFrame (sender : String) (t t' : NeighborTable) : Prop where
  /-- No entry is removed, and each one is within the frame of an entry. -/
  entries : ∀ key i, t.table.get key = some i →
    ∃ i', t'.table.get key = some i' ∧ EntryFrame sender i i'
  owner : t'.ownNodeId = t.ownNodeId
  /-- Under the own id, in any spelling, there is what was there: nothing is inserted. -/
  own : ∀ key, canon key = t.ownNodeId → t'.table.get key = t.table.get key
  canonical : (∀ key, t.table.get key ≠ none → canon key = key) →
    ∀ key, t'.table.get key ≠ none → canon key = key

namespace MergeFrame

variable {sender : String} {t t' t'' : NeighborTable}

theorem refl (sender : String) (t : NeighborTable) : MergeFrame sender t t where
  entries _ i hi := ⟨i, hi, .refl sender i⟩
  owner := rfl
  own _ _ := rfl
  canonical h := h

theorem trans (h : MergeFrame sender t t') (h' : MergeFrame sender t' t'') :
    MergeFrame sender t t'' where
  entries key i hi := by
    obtain ⟨i', hi', hframe⟩ := h.entries key i hi
    obtain ⟨i'', hi'', hframe'⟩ := h'.entries key i' hi'
    exact ⟨i'', hi'', hframe.trans hframe'⟩
  owner := h'.owner.trans h.owner
  own key hkey := (h'.own key (hkey.trans h.owner.symm)).trans (h.own key hkey)
  canonical ht := h'.canonical (h.canonical ht)

/-- One assignment, under a canonical key that is not the own id. -/
theorem put {key : String} {i' : NeighborInfo} (hkey : canon key = key) (hown : key ≠ t.ownNodeId)
    (hi : ∀ i, t.table.get key = some i → EntryFrame sender i i') :
    MergeFrame sender t (t.put key i') where
  entries key' i hget := by
    rw [get_put]
    split
    · rename_i heq
      exact ⟨i', rfl, hi i (heq ▸ hget)⟩
    · exact ⟨i, hget, .refl sender i⟩
  owner := rfl
  own key' hcanon := by
    rw [get_put, if_neg]
    rintro rfl
    exact hown (hkey.symm.trans hcanon)
  canonical ht key' hget := by
    rw [get_put] at hget
    split at hget
    · rename_i heq
      rw [heq]
      exact hkey
    · exact ht key' hget

/-- One round of the loop. -/
theorem mergeEntry (now : Time) (sender : String) (t : NeighborTable) (e : GossipEntry) :
    MergeFrame sender t (mergeEntry now sender t e) := by
  have hid : ∀ {nodeId}, t.acceptedId e = some nodeId →
      canon nodeId = nodeId ∧ nodeId ≠ t.ownNodeId := by
    intro nodeId haccepted
    obtain ⟨hcanon, -, hown⟩ := acceptedId_some haccepted
    obtain ⟨raw, -, rfl⟩ := Option.map_eq_some_iff.mp hcanon
    exact ⟨canon_canon raw, hown⟩
  rcases mergeEntry_cases now sender t e with heq | ⟨nodeId, haccepted, hnone, heq⟩ |
    ⟨nodeId, i, haccepted, hget, hstatus, heq⟩ <;> rw [heq]
  · exact .refl sender t
  · obtain ⟨hcanon, hown⟩ := hid haccepted
    refine .put hcanon hown fun i hget => ?_
    exact absurd (hget.symm.trans hnone) (Option.some_ne_none i)
  · obtain ⟨hcanon, hown⟩ := hid haccepted
    refine .put hcanon hown fun i' hget' => ?_
    rw [Option.some.inj (hget'.symm.trans hget)]
    exact .updated now sender e hstatus

end MergeFrame

/-- **The frame of `merge_gossip`**, whatever the table, the sender and the entries. -/
theorem mergeGossip_frame (t : NeighborTable) (now : Time) (neighbors : List GossipEntry)
    (fromNode : String) :
    MergeFrame (canon fromNode) t (t.mergeGossip now neighbors fromNode) := by
  unfold mergeGossip
  induction neighbors generalizing t with
  | nil => exact .refl _ t
  | cons e rest ih => exact (MergeFrame.mergeEntry now _ t e).trans (ih _)

end NetPulse.Mesh
