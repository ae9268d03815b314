import NetPulse.Monitor.ProcessMonitor
import Mathlib.Data.Finset.Insert

/-
# NetPulse.Monitor.PortScan — when a scan of ports is told, and what is told again

`window_sec` is in the text of the event, but no port ever leaves the set of its address before the
event does: ports that come one in an hour make up the number in the end. And `_raise_ids`, which
puts the events in at the left, looks for the same event among the ten on the right, the oldest of
those that are kept.

Statements are about runs of the machine of `ProcessMonitor`. An event takes the ports that it
reports: the number is counted from the last event of the address.
-/

namespace NetPulse.Monitor.PortScan

open NetPulse.Lib NetPulse.Monitor.ProcessMonitor

/-! ## §1 The ports of an address -/

/-- The ports of the address, of the new connections since its last event at a time that fits. -/
def portsSince (ip : String) (fits : Time → Bool) : List Noted → Finset Int
  | [] => ∅
  | .seen time ip' port :: log =>
      if ip' = ip ∧ fits time = true then insert port (portsSince ip fits log)
      else portsSince ip fits log
  -- the event has taken the ports that were there
  | .scan ip' :: log => if ip' = ip then ∅ else portsSince ip fits log

/-- The ports of the last `window`. -/
def recentPorts (window now : Time) (ip : String) : List Noted → Finset Int :=
  portsSince ip fun time => decide (now - time ≤ window)

/-- The ports of whatever time. -/
abbrev allPorts (ip : String) : List Noted → Finset Int := portsSince ip fun _ => true

theorem recentPorts_subset (window now : Time) (ip : String) (log : List Noted) :
    recentPorts window now ip log ⊆ allPorts ip log := by
  unfold recentPorts allPorts
  induction log with
  | nil => exact Finset.Subset.refl ∅
  | cons n log ih =>
      cases n with
      | seen time ip' port =>
          by_cases hip : ip' = ip
          · by_cases hfits : now - time ≤ window
            · simpa [portsSince, hip, hfits] using Finset.insert_subset_insert port ih
            · simpa [portsSince, hip, hfits] using ih.trans (Finset.subset_insert port _)
          · simpa [portsSince, hip] using ih
      | scan ip' =>
          by_cases hip : ip' = ip
          · simp [portsSince, hip]
          · simpa [portsSince, hip] using ih

section Runs

variable (cfg : Settings)

/-! ## §2 The set of an address holds every port since the last event -/

def Inv (s : State) : Prop := ∀ ip, s.scan_window ip = allPorts ip s.log

variable {cfg} {s : State} {e : Event}

theorem start_inv : Inv State.start := fun _ => rfl

theorem scan_inv {now : Time} {c : Conn} (h : Inv s) : Inv (s.scan cfg now c) := by
  intro ip
  by_cases hfull : cfg.scan_threshold ≤ (insert c.port (s.scan_window c.ip)).card
  · simp only [State.scan, hfull, if_true, State.setWindow, State.note, State.raise_ids]
    by_cases hip : ip = c.ip
    · simp [hip, portsSince]
    · simp [hip, portsSince, Ne.symm hip, h ip]
  · simp only [State.scan, hfull, if_false, State.setWindow, State.note]
    by_cases hip : ip = c.ip
    · simp [hip, portsSince, h c.ip]
    · simp [hip, portsSince, Ne.symm hip, h ip]

/-- The second part leaves the sets and what has been seen. -/
theorem suspect_windows (cfg : Settings) (s : State) (now : Time) (c : Conn) :
    (s.suspect cfg now c).scan_window = s.scan_window ∧ (s.suspect cfg now c).log = s.log := by
  unfold State.suspect
  split
  · split
    · exact ⟨rfl, rfl⟩
    · exact ⟨rfl, rfl⟩
  · exact ⟨rfl, rfl⟩

theorem step_inv (h : Inv s) : Inv (s.step cfg e) := by
  cases e with
  | look now c =>
      have hmarked : Inv { s with seen_now := c.key :: s.seen_now } := h
      by_cases hc : s.counts cfg c = true
      · simpa [State.step, State.look, hc] using scan_inv hmarked
      · simpa [State.step, State.look, hc] using hmarked
  | suspect now c =>
      intro ip
      have hsame := suspect_windows cfg s now c
      simp only [State.step, hsame.1, hsame.2]
      exact h ip
  | finish now => exact h

/-! ## §3 What is promised, and when it is kept -/

variable (cfg)

/-- An event `PORT_SCAN` is due: the ports in the window, with the new one, reach the threshold. -/
def Due (s : State) : Event → Prop
  | .look now c =>
      s.counts cfg c = true ∧
        cfg.scan_threshold ≤
          (recentPorts cfg.window now c.ip (.seen now c.ip c.port :: s.log)).card
  | _ => False

/-- The step has raised an event `PORT_SCAN`. -/
def ScanRaised (s s' : State) : Prop := ∃ v : IdsEvent, v.type = "PORT_SCAN" ∧ s'.raised = v :: s.raised

/-- The same event is among the ten latest. -/
def Repeats (s : State) (v : IdsEvent) : Prop :=
  (s.ids_events.take 10).any (sameEvent v.type v.message) = true

/-- A scan is told exactly when it is due, and what is among the ten latest is not pushed again. -/
def Meets (s : State) (e : Event) (s' : State) : Prop :=
  (ScanRaised s s' ↔ Due cfg s e) ∧
    ∀ v, s'.raised = v :: s.raised → Repeats s v → s'.pushed = s.pushed

/-- No port older than the window helps to reach the threshold. -/
def InWindow (s : State) : Event → Prop
  | .look now c =>
      s.counts cfg c = true →
        cfg.scan_threshold ≤ (insert c.port (s.scan_window c.ip)).card →
          cfg.scan_threshold ≤
            (recentPorts cfg.window now c.ip (.seen now c.ip c.port :: s.log)).card
  | _ => True

/-- What is due, and among the ten latest, is among the ten oldest too. -/
def Remembered (s : State) (e : Event) : Prop :=
  ∀ v ∈ s.announces cfg e, Repeats s v → s.known v = true

def Within (s : State) (e : Event) : Prop := InWindow cfg s e ∧ Remembered cfg s e

instance (s : State) (e : Event) : Decidable (InWindow cfg s e) := by
  unfold InWindow
  split <;> infer_instance

instance (s : State) (v : IdsEvent) : Decidable (Repeats s v) :=
  inferInstanceAs (Decidable (_ = true))

instance (s : State) (e : Event) : Decidable (Within cfg s e) :=
  inferInstanceAs (Decidable (_ ∧ ∀ v ∈ s.announces cfg e, _ → _))

variable {cfg}

/-! ## §4 Step by step -/

/-- The code tells a scan when the set is full. -/
theorem scanRaised_look_iff {now : Time} {c : Conn} :
    ScanRaised s (s.step cfg (.look now c)) ↔
      s.counts cfg c = true ∧ cfg.scan_threshold ≤ (insert c.port (s.scan_window c.ip)).card := by
  constructor
  · rintro ⟨v, -, hv⟩
    have hdue := step_raised_iff.mp hv
    simp only [State.announces, Option.ite_none_right_eq_some] at hdue
    exact hdue.1
  · intro h
    refine ⟨⟨now, "PORT_SCAN", scanMessage cfg c.ip (insert c.port (s.scan_window c.ip)).card⟩, rfl, ?_⟩
    refine step_raised_iff.mpr ?_
    simp only [State.announces]
    exact if_pos h

/-- The other steps tell none. -/
theorem not_scanRaised_suspect {now : Time} {c : Conn} :
    ¬ ScanRaised s (s.step cfg (.suspect now c)) := by
  rintro ⟨v, htype, hv⟩
  have hdue := step_raised_iff.mp hv
  simp only [State.announces, Option.ite_none_right_eq_some, Option.some.injEq] at hdue
  rw [← hdue.2] at htype
  have hother : "SUSPICIOUS_CONN" ≠ "PORT_SCAN" := by decide
  exact hother htype

theorem not_scanRaised_finish {now : Time} : ¬ ScanRaised s (s.step cfg (.finish now)) := by
  rintro ⟨v, -, hv⟩
  exact absurd (step_raised_iff.mp hv) (by simp [State.announces])

/-- **A scan is told when it is due, exactly where no old port makes up the number.** -/
theorem scanRaised_iff_due (h : Inv s) :
    (ScanRaised s (s.step cfg e) ↔ Due cfg s e) ↔ InWindow cfg s e := by
  cases e with
  | look now c =>
      -- the ports in the window are in the set, so that no scan is missed
      have hfull : cfg.scan_threshold ≤
          (recentPorts cfg.window now c.ip (.seen now c.ip c.port :: s.log)).card →
          cfg.scan_threshold ≤ (insert c.port (s.scan_window c.ip)).card := by
        intro hrecent
        have hsub := recentPorts_subset cfg.window now c.ip (.seen now c.ip c.port :: s.log)
        have hset : allPorts c.ip (.seen now c.ip c.port :: s.log) =
            insert c.port (s.scan_window c.ip) := by
          simp [portsSince, h c.ip]
        rw [hset] at hsub
        exact hrecent.trans (Finset.card_le_card hsub)
      rw [scanRaised_look_iff]
      constructor
      · intro hiff hc hnum
        exact (hiff.mp ⟨hc, hnum⟩).2
      · intro hin
        exact ⟨fun hraised => ⟨hraised.1, hin hraised.1 hraised.2⟩, fun hdue => ⟨hdue.1, hfull hdue.2⟩⟩
  | suspect now c => exact ⟨fun _ => trivial, fun _ => iff_of_false not_scanRaised_suspect id⟩
  | finish now => exact ⟨fun _ => trivial, fun _ => iff_of_false not_scanRaised_finish id⟩

/-- **What is among the ten latest is not pushed again, exactly where it is found.** -/
theorem notRepeated_iff :
    (∀ v, (s.step cfg e).raised = v :: s.raised → Repeats s v → (s.step cfg e).pushed = s.pushed) ↔
      Remembered cfg s e := by
  refine forall_congr' fun v => ?_
  rw [step_raised_iff]
  refine forall_congr' fun hdue => forall_congr' fun _ => ?_
  -- the code looks among the ten oldest
  rw [(step_loud hdue).2.2]
  by_cases hknown : s.known v = true
  · simp [hknown]
  · simp [hknown]

theorem meets_iff (h : Inv s) : Meets cfg s e (s.step cfg e) ↔ Within cfg s e :=
  and_congr (scanRaised_iff_due h) notRepeated_iff

/-! ## §5 Runs -/

/-- From any state in which the sets hold the ports that have been seen. -/
theorem each_meets_iff (h : Inv s) (events : List Event) :
    (machine cfg).Each (Meets cfg) s events ↔ (machine cfg).Guarded (Within cfg) s events := by
  obtain ⟨t, hrun⟩ := exists_run cfg s events
  refine Machine.each_iff_guarded (fun s e s' (h : Inv s) hs => ?_) (fun s e s' h hs => ?_) h hrun
  · rw [← Option.some.inj hs]
    exact step_inv h
  · rw [← Option.some.inj hs]
    exact meets_iff h

end Runs

/-- With this threshold each new connection is told. -/
def eager : Settings := { Settings.shipped with scan_threshold := 1 }

/-- A connection of the host `ip` to one of its ports. -/
def connection (ip : String) (port : Int) : Conn := ⟨1, "app", ip, port, "ESTABLISHED"⟩

/-- Fifteen ports of one host, one in ten minutes. -/
def slowScan : List Event :=
  (List.range 15).flatMap fun i =>
    sampleEvents (600000 * (i + 1)) [connection "10.0.0.7" (i + 1)]

/-- Ten hosts, then one of which there are two events, with nothing between them. -/
def elevenHosts : List Event :=
  sampleEvents 600000 <|
    (List.range 10).map (fun i => connection ("10.0.0." ++ (i + 1).repr) 80) ++
      [connection "10.0.1.1" 80, connection "10.0.1.1" 81]

end NetPulse.Monitor.PortScan
