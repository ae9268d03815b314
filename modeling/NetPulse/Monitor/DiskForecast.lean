import Mathlib.Data.List.Dedup
import Mathlib.Data.String.Basic
import NetPulse.Monitor.Sla

/-
# NetPulse.Monitor.DiskForecast — when disks will be full (`watchdog.py`)

`disk_forecast` lists the disks that have a sample in the window, and for each divides what has been
lost of its free space by the time that took. The last sample is the one that was stored last, and
its time the latest of the window. The first sample comes from a query of its own that does not
mention the window.

Nothing is divided by zero. `windowed_iff`: the rates are those of the window exactly when no listed
disk has an older sample, and the sample that was stored last is as good as the latest.
-/

namespace NetPulse.Monitor.DiskForecast

/-! ## §1 The tables -/

/-- A row of `disk_history`; the rows are listed by their `id`. -/
structure Sample where
  timestamp : String
  host_id : Nat
  drive : String
  free_gb : Option Rat
  deriving DecidableEq

/-- The ids and names of `hosts`, both unique. -/
structure Hosts where
  rows : List (Nat × String)
  ids : (rows.map Prod.fst).Nodup
  names : (rows.map Prod.snd).Nodup

/-- `JOIN hosts h ON h.id = dh.host_id` -/
def Hosts.nameOf (hosts : Hosts) (id : Nat) : Option String :=
  (hosts.rows.find? fun row => decide (row.1 = id)).map Prod.snd

/-- `SELECT id FROM hosts WHERE name = ?` -/
def Hosts.idOf (hosts : Hosts) (name : String) : Option Nat :=
  (hosts.rows.find? fun row => decide (row.2 = name)).map Prod.fst

/-- A disk that is listed. -/
structure Disk where
  host_id : Nat
  host : String
  drive : String
  deriving DecidableEq

/-- `WHERE dh.timestamp > ?` -/
def inWindow (since : String) (history : List Sample) : List Sample :=
  history.filter fun x => decide (since < x.timestamp)

/-- `WHERE host_id = ? AND drive = ?`; no host is the host NULL. -/
def samplesOf (host_id : Option Nat) (drive : String) (history : List Sample) : List Sample :=
  history.filter fun x => decide (some x.host_id = host_id ∧ x.drive = drive)

/-- `ORDER BY timestamp` -/
def byTime (samples : List Sample) : List Sample :=
  samples.mergeSort fun x y => decide (x.timestamp ≤ y.timestamp)

/-- `GROUP BY dh.host_id, dh.drive` -/
def disks (hosts : Hosts) (since : String) (history : List Sample) : List Disk :=
  ((inWindow since history).filterMap fun x =>
    (hosts.nameOf x.host_id).map fun name => ⟨x.host_id, name, x.drive⟩).dedup.mergeSort
      fun d e => decide (d.host_id < e.host_id ∨ d.host_id = e.host_id ∧ d.drive ≤ e.drive)

/-! ## §2 `disk_forecast` -/

/-- What a rate is computed from. -/
structure Basis where
  first_free : Rat
  t0 : String
  last_free : Rat
  t1 : String
  deriving DecidableEq

/-- The two queries for a disk; `none` when there is no pair of samples. -/
def basis (hosts : Hosts) (since : String) (history : List Sample) (d : Disk) : Option Basis :=
  match byTime (samplesOf (hosts.idOf d.host) d.drive history) with
  | first :: _ :: _ =>
      ((samplesOf (some d.host_id) d.drive (inWindow since history)).map Sample.timestamp).max?.map
        fun t1 =>
          { first_free := first.free_gb.getD 0
            t0 := first.timestamp
            last_free :=
              ((samplesOf (some d.host_id) d.drive history).getLast?.bind Sample.free_gb).getD 0
            t1 := t1 }
  | _ => none

/-- An entry of what is returned. -/
structure Forecast where
  host : String
  drive : String
  free_gb : Rat
  rate_gb_day : Rat
  days_left : Int

/-- `a / b`; `none` when that raises. -/
def divide (a b : Rat) : Option Rat := if b = 0 then none else some (a / b)

/-- `int(q)` -/
def truncate (q : Rat) : Int := if 0 ≤ q then ⌊q⌋ else ⌈q⌉

section

-- `(datetime.fromisoformat(t1) - datetime.fromisoformat(t0)).total_seconds()`, and `none` when that
-- raises; and `datetime('now','localtime', '-N days')`.
variable (elapsed : String → String → Option Rat) (daysAgo : Int → String)

/-- The entry of a disk, none if it is skipped; `none` for a division by zero. -/
def Basis.forecast (b : Basis) (horizon_days : Int) (d : Disk) : Option (Option Forecast) :=
  match elapsed b.t1 b.t0 with
  | none => some none
  | some seconds =>
      let span_days := max (1 / 2) (seconds / 86400)
      if span_days < 3 / 4 then some none
      else (divide (b.last_free - b.first_free) span_days).bind fun slope =>
        if -1 / 50 ≤ slope then some none
        else (divide b.last_free (-slope)).map fun q =>
          let days_left := truncate q
          if horizon_days < days_left then none
          else some ⟨d.host, d.drive, roundAt 1 b.last_free, roundAt 2 slope, days_left⟩

/-- The entries of the disks, by the days that are left. -/
def forecasts (basisOf : Disk → Option Basis) (horizon_days : Int) (listed : List Disk) :
    Option (List Forecast) :=
  (listed.mapM fun d => (basisOf d).elim (some none) fun b => b.forecast elapsed horizon_days d).map
    fun entries : List (Option Forecast) =>
      (entries.filterMap id).mergeSort fun f g => decide (f.days_left ≤ g.days_left)

/-- The beginning of the window. -/
def windowStart (window_days : Int) : String := daysAgo (max 7 window_days)

/-- `disk_forecast(window_days, horizon_days)`; `none` when it raises. -/
def disk_forecast (hosts : Hosts) (window_days horizon_days : Int) (history : List Sample) :
    Option (List Forecast) :=
  forecasts elapsed (basis hosts (windowStart daysAgo window_days) history) horizon_days
    (disks hosts (windowStart daysAgo window_days) history)

end

/-! ## §3 The window -/

/-- The first and the last sample of the window by their times; `none` if there are not two. -/
def windowBasis (since : String) (history : List Sample) (d : Disk) : Option Basis :=
  match byTime (samplesOf (some d.host_id) d.drive (inWindow since history)) with
  | first :: second :: rest =>
      let last := (second :: rest).getLast (List.cons_ne_nil second rest)
      some ⟨first.free_gb.getD 0, first.timestamp, last.free_gb.getD 0, last.timestamp⟩
  | _ => none

/-- For every disk that is listed, the rate is that of the first and the last sample of the window,
and without the older samples the same is returned. -/
structure Windowed (elapsed : String → String → Option Rat) (daysAgo : Int → String)
    (hosts : Hosts) (window_days horizon_days : Int) (history : List Sample) : Prop where
  basis : ∀ d ∈ disks hosts (windowStart daysAgo window_days) history,
    basis hosts (windowStart daysAgo window_days) history d =
      windowBasis (windowStart daysAgo window_days) history d
  same : disk_forecast elapsed daysAgo hosts window_days horizon_days history =
    disk_forecast elapsed daysAgo hosts window_days horizon_days
      (inWindow (windowStart daysAgo window_days) history)

/-- The condition: of a listed disk no sample is older than the window, and the free space of the
sample that was stored last is that of the latest. -/
def Recent (hosts : Hosts) (since : String) (history : List Sample) : Prop :=
  ∀ d ∈ disks hosts since history,
    (∀ x ∈ samplesOf (some d.host_id) d.drive history, since < x.timestamp) ∧
      ((samplesOf (some d.host_id) d.drive history).getLast?.bind Sample.free_gb).getD 0 =
        ((byTime (samplesOf (some d.host_id) d.drive history)).getLast?.bind
          Sample.free_gb).getD 0

/-! ## §4 No division by zero -/

variable {elapsed : String → String → Option Rat} {hosts : Hosts} {since : String}
  {history samples : List Sample} {d : Disk}

theorem divide_of_ne {a b : Rat} (h : b ≠ 0) : divide a b = some (a / b) := if_neg h

theorem isSome_forecast (elapsed : String → String → Option Rat) (b : Basis) (horizon_days : Int) (d : Disk) :
    (b.forecast elapsed horizon_days d).isSome = true := by
  unfold Basis.forecast
  rcases elapsed b.t1 b.t0 with _ | seconds
  · rfl
  · have hspan : max (1 / 2) (seconds / 86400) ≠ 0 := by
      have hhalf := le_max_left (1 / 2) (seconds / 86400)
      intro h
      rw [h] at hhalf
      norm_num at hhalf
    dsimp only
    split_ifs
    · rfl
    · rw [divide_of_ne hspan, Option.bind_some]
      split_ifs with hslope
      · rfl
      · have hne : -((b.last_free - b.first_free) / max (1 / 2) (seconds / 86400)) ≠ 0 := by
          intro h
          rw [neg_eq_zero] at h
          rw [h] at hslope
          norm_num at hslope
        rw [divide_of_ne hne]
        rfl

/-- **Nothing is divided by zero**, whatever the samples. -/
theorem forecasts_ne_none (basisOf : Disk → Option Basis) (horizon_days : Int) (listed : List Disk) :
    forecasts elapsed basisOf horizon_days listed ≠ none := by
  rw [forecasts, Option.map_eq_none_iff.ne]
  induction listed with
  | nil => simp
  | cons d rest ih =>
      obtain ⟨entries, hentries⟩ := Option.ne_none_iff_exists'.mp ih
      rcases hbasis : basisOf d with _ | b
      · simp [hbasis, hentries]
      · obtain ⟨entry, hentry⟩ := Option.isSome_iff_exists.mp
          (isSome_forecast elapsed b horizon_days d)
        simp [hbasis, hentries, hentry]

/-! ## §5 Samples of a disk -/

theorem idOf_nameOf {id : Nat} {name : String} (h : hosts.nameOf id = some name) :
    hosts.idOf name = some id := by
  obtain ⟨⟨id', name'⟩, hfind, rfl⟩ := Option.map_eq_some_iff.mp h
  have hmem := List.mem_of_find?_eq_some hfind
  obtain rfl : id' = id := by simpa using List.find?_some hfind
  rcases hother : hosts.rows.find? fun row => decide (row.2 = name') with _ | ⟨id'', name''⟩
  · simpa using List.find?_eq_none.mp hother _ hmem
  · obtain rfl : name'' = name' := by simpa using List.find?_some hother
    have heq := List.inj_on_of_nodup_map hosts.names (List.mem_of_find?_eq_some hother) hmem rfl
    rw [Hosts.idOf, hother, heq]
    rfl

/-- A disk that is listed has a sample in the window, and its host is found by its name. -/
theorem of_mem_disks (h : d ∈ disks hosts since history) :
    hosts.idOf d.host = some d.host_id ∧
      samplesOf (some d.host_id) d.drive (inWindow since history) ≠ [] := by
  rw [disks, List.mem_mergeSort, List.mem_dedup, List.mem_filterMap] at h
  obtain ⟨x, hx, hd⟩ := h
  obtain ⟨name, hname, rfl⟩ := Option.map_eq_some_iff.mp hd
  refine ⟨idOf_nameOf hname, List.ne_nil_of_mem (List.mem_filter.mpr ⟨hx, ?_⟩)⟩
  exact decide_eq_true ⟨rfl, rfl⟩

theorem samplesOf_inWindow (id : Option Nat) (drive : String) :
    samplesOf id drive (inWindow since history) = inWindow since (samplesOf id drive history) :=
  List.filter_comm _ _ _

theorem inWindow_eq_self (h : ∀ x ∈ samples, since < x.timestamp) :
    inWindow since samples = samples :=
  List.filter_eq_self.mpr fun x hx => decide_eq_true (h x hx)

theorem disks_inWindow : disks hosts since (inWindow since history) = disks hosts since history := by
  have htwice : inWindow since (inWindow since history) = inWindow since history :=
    inWindow_eq_self fun x hx => of_decide_eq_true (List.mem_filter.mp hx).2
  rw [disks, htwice, disks]

theorem mem_byTime {x : Sample} : x ∈ byTime samples ↔ x ∈ samples := List.mem_mergeSort

theorem pairwise_byTime (samples : List Sample) :
    (byTime samples).Pairwise fun x y => x.timestamp ≤ y.timestamp := by
  refine (List.pairwise_mergeSort ?_ ?_ samples).imp fun h => of_decide_eq_true h
  · intro a b c hab hbc
    exact decide_eq_true ((of_decide_eq_true hab).trans (of_decide_eq_true hbc))
  · intro a b
    simpa using le_total a.timestamp b.timestamp

/-- The latest sample has the latest time. -/
theorem max_timestamp {last : Sample} (h : (byTime samples).getLast? = some last) :
    (samples.map Sample.timestamp).max? = some last.timestamp := by
  refine List.max?_eq_some_iff.mpr ⟨?_, fun t ht => ?_⟩
  · exact List.mem_map.mpr ⟨last, mem_byTime.mp (List.mem_of_getLast? h), rfl⟩
  · obtain ⟨x, hx, rfl⟩ := List.mem_map.mp ht
    obtain ⟨earlier, hearlier⟩ := List.getLast?_eq_some_iff.mp h
    have hsorted := pairwise_byTime samples
    have hx' : x ∈ byTime samples := mem_byTime.mpr hx
    rw [hearlier] at hsorted hx'
    rcases List.mem_append.mp hx' with hx' | hx'
    · exact (List.pairwise_append.mp hsorted).2.2 x hx' last (List.mem_singleton_self last)
    · rw [List.mem_singleton.mp hx']

/-! ## §6 The rate of a disk -/

/-- With all samples in the window, only the last sample may be another. -/
theorem basis_eq_iff_of_inWindow (hid : hosts.idOf d.host = some d.host_id)
    (hall : ∀ x ∈ samplesOf (some d.host_id) d.drive history, since < x.timestamp) :
    basis hosts since history d = windowBasis since history d ↔
      ((samplesOf (some d.host_id) d.drive history).getLast?.bind Sample.free_gb).getD 0 =
        ((byTime (samplesOf (some d.host_id) d.drive history)).getLast?.bind
          Sample.free_gb).getD 0 := by
  rw [basis, windowBasis, hid, samplesOf_inWindow, inWindow_eq_self hall]
  generalize samplesOf (some d.host_id) d.drive history = samples
  rcases hsorted : byTime samples with _ | ⟨first, _ | ⟨second, rest⟩⟩
  · obtain rfl : samples = [] := by
      refine List.eq_nil_iff_forall_not_mem.mpr fun x hx => ?_
      rw [← mem_byTime, hsorted] at hx
      exact List.not_mem_nil hx
    simp
  · -- one sample, which is the latest and the last
    have hlength : samples.length = 1 := by
      have hsame : (byTime samples).length = samples.length := List.length_mergeSort samples
      rw [← hsame, hsorted]
      rfl
    obtain ⟨x, rfl⟩ := List.length_eq_one_iff.mp hlength
    obtain rfl : x = first := by simpa [byTime] using hsorted
    simp
  · have hlast : (first :: second :: rest).getLast? =
        some ((second :: rest).getLast (List.cons_ne_nil second rest)) := by
      rw [List.getLast?_cons_cons, List.getLast?_eq_some_getLast]
    rw [hlast, max_timestamp (hsorted ▸ hlast)]
    simp

/-- The first sample of a window is in the window. -/
theorem lt_of_windowBasis {b : Basis} (h : windowBasis since history d = some b) : since < b.t0 := by
  rw [windowBasis] at h
  rcases hsorted : byTime (samplesOf (some d.host_id) d.drive (inWindow since history)) with
    _ | ⟨first, _ | ⟨second, rest⟩⟩
  · simp [hsorted] at h
  · simp [hsorted] at h
  · rw [hsorted] at h
    have hfirst : first ∈ samplesOf (some d.host_id) d.drive (inWindow since history) :=
      mem_byTime.mp (hsorted ▸ List.mem_cons_self)
    rw [← Option.some.inj h]
    rw [samplesOf_inWindow] at hfirst
    exact of_decide_eq_true (List.mem_filter.mp hfirst).2

/-- An older sample comes first, and is not of the window. -/
theorem basis_ne_of_older (hid : hosts.idOf d.host = some d.host_id)
    (hsome : samplesOf (some d.host_id) d.drive (inWindow since history) ≠ []) {x : Sample}
    (hx : x ∈ samplesOf (some d.host_id) d.drive history) (hold : ¬since < x.timestamp) :
    basis hosts since history d ≠ windowBasis since history d := by
  intro heq
  obtain ⟨y, hy⟩ := List.exists_mem_of_ne_nil _ hsome
  obtain ⟨t1, ht1⟩ : ∃ t1, ((samplesOf (some d.host_id) d.drive (inWindow since history)).map
      Sample.timestamp).max? = some t1 := by
    refine Option.ne_none_iff_exists'.mp fun hnone => ?_
    exact hsome (List.map_eq_nil_iff.mp (List.max?_eq_none_iff.mp hnone))
  -- with the sample of the window there are two, so that there is a rate
  rw [samplesOf_inWindow] at hy
  obtain ⟨hy, hyoung⟩ := List.mem_filter.mp hy
  have hne : x ≠ y := by
    rintro rfl
    exact hold (of_decide_eq_true hyoung)
  rw [← mem_byTime] at hx hy
  have hsortedby := pairwise_byTime (samplesOf (some d.host_id) d.drive history)
  rcases hsorted : byTime (samplesOf (some d.host_id) d.drive history) with
    _ | ⟨first, _ | ⟨second, rest⟩⟩
  · rw [hsorted] at hx
    exact List.not_mem_nil hx
  · rw [hsorted] at hx hy
    exact hne ((List.mem_singleton.mp hx).trans (List.mem_singleton.mp hy).symm)
  · have hbasis : ∃ b, basis hosts since history d = some b ∧ b.t0 = first.timestamp := by
      rw [basis, hid, hsorted, ht1]
      exact ⟨_, rfl, rfl⟩
    obtain ⟨b, hb, ht0⟩ := hbasis
    -- the rate would begin in the window, but its first sample is no later than the old one
    have hlt := lt_of_windowBasis (heq ▸ hb)
    rw [ht0] at hlt
    rw [hsorted] at hx hsortedby
    rcases List.mem_cons.mp hx with rfl | hx
    · exact hold hlt
    · exact hold (hlt.trans_le ((List.pairwise_cons.mp hsortedby).1 x hx))

/-- **The rate of a listed disk is that of the window** exactly when no sample is older and the last
is as good as the latest. -/
theorem basis_eq_iff (h : d ∈ disks hosts since history) :
    basis hosts since history d = windowBasis since history d ↔
      (∀ x ∈ samplesOf (some d.host_id) d.drive history, since < x.timestamp) ∧
        ((samplesOf (some d.host_id) d.drive history).getLast?.bind Sample.free_gb).getD 0 =
          ((byTime (samplesOf (some d.host_id) d.drive history)).getLast?.bind
            Sample.free_gb).getD 0 := by
  obtain ⟨hid, hsome⟩ := of_mem_disks h
  by_cases hall : ∀ x ∈ samplesOf (some d.host_id) d.drive history, since < x.timestamp
  · rw [basis_eq_iff_of_inWindow hid hall, and_iff_right hall]
  · refine iff_of_false ?_ fun hboth => hall hboth.1
    obtain ⟨x, hx, hold⟩ : ∃ x ∈ samplesOf (some d.host_id) d.drive history,
        ¬since < x.timestamp := by
      simpa using hall
    exact basis_ne_of_older hid hsome hx hold

/-! ## §7 All disks -/

theorem forecasts_congr {f g : Disk → Option Basis} {horizon_days : Int} {listed : List Disk}
    (h : ∀ d ∈ listed, f d = g d) :
    forecasts elapsed f horizon_days listed = forecasts elapsed g horizon_days listed := by
  rw [forecasts, forecasts]
  congr 1
  induction listed with
  | nil => rfl
  | cons d rest ih =>
      rw [List.mapM_cons, List.mapM_cons, h d List.mem_cons_self,
        ih fun e he => h e (List.mem_cons_of_mem d he)]

/-- Without older samples of a disk, its queries give the same for the samples of the window. -/
theorem basis_inWindow (hid : hosts.idOf d.host = some d.host_id)
    (hall : ∀ x ∈ samplesOf (some d.host_id) d.drive history, since < x.timestamp) :
    basis hosts since history d = basis hosts since (inWindow since history) d := by
  have hself := inWindow_eq_self hall
  simp only [basis, hid, samplesOf_inWindow, hself]

/-- **Nothing is divided by zero**, and the rates are those of the window, with or without the older
samples, exactly when the listed disks have none, and the last sample is as good as the latest. -/
theorem windowed_iff (elapsed : String → String → Option Rat) (daysAgo : Int → String)
    (hosts : Hosts) (window_days horizon_days : Int) (history : List Sample) :
    disk_forecast elapsed daysAgo hosts window_days horizon_days history ≠ none ∧
      (Windowed elapsed daysAgo hosts window_days horizon_days history ↔
        Recent hosts (windowStart daysAgo window_days) history) := by
  refine ⟨forecasts_ne_none _ _ _, fun h d hd => ?_, fun h => ⟨fun d hd => ?_, ?_⟩⟩
  · exact (basis_eq_iff hd).mp (h.basis d hd)
  · exact (basis_eq_iff hd).mpr (h d hd)
  · rw [disk_forecast, disk_forecast, disks_inWindow]
    exact forecasts_congr fun d hd => basis_inWindow (of_mem_disks hd).1 (h d hd).1

/-! ## §8 An old sample -/

def onePc : Hosts := ⟨[(1, "PC-1")], by decide, by decide⟩

/-- In January there were 100 GB, in May there are 30. -/
def staticDisk : List Sample :=
  [⟨"2026-01-01", 1, "C:", some 100⟩, ⟨"2026-05-10", 1, "C:", some 30⟩,
    ⟨"2026-05-20", 1, "C:", some 30⟩]

/-- The days of the year of these times. -/
def dayOf (t : String) : Rat :=
  if t = "2026-01-01" then 0 else if t = "2026-05-10" then 129 else 139

def secondsBetween (t1 t0 : String) : Option Rat := some ((dayOf t1 - dayOf t0) * 86400)

def may (_ : Int) : String := "2026-05-01"

def driveC : Disk := ⟨1, "PC-1", "C:"⟩

theorem disks_static : disks onePc "2026-05-01" staticDisk = [driveC] := by
  have hdedup : ((inWindow "2026-05-01" staticDisk).filterMap fun x =>
      (onePc.nameOf x.host_id).map fun name => (⟨x.host_id, name, x.drive⟩ : Disk)).dedup =
        [driveC] := by
    decide +kernel
  rw [disks, hdedup, List.mergeSort_singleton]

theorem basis_static : basis onePc "2026-05-01" staticDisk driveC =
    some ⟨100, "2026-01-01", 30, "2026-05-20"⟩ := by
  have hsamples : samplesOf (onePc.idOf driveC.host) driveC.drive staticDisk = staticDisk := by
    decide +kernel
  have hsorted : byTime staticDisk = staticDisk :=
    List.mergeSort_of_pairwise (by decide +kernel)
  rw [basis, hsamples, hsorted]
  decide +kernel

/-- **A disk that loses nothing** in the window is forecast to be full in 59 days. -/
theorem static_forecast :
    (disk_forecast secondsBetween may onePc 21 90 staticDisk).map
        (fun l => l.map Forecast.days_left) = some [59] ∧
      windowBasis "2026-05-01" staticDisk driveC =
        some ⟨30, "2026-05-10", 30, "2026-05-20"⟩ ∧
      ¬Windowed secondsBetween may onePc 21 90 staticDisk := by
  have hwindow : windowBasis "2026-05-01" staticDisk driveC =
      some ⟨30, "2026-05-10", 30, "2026-05-20"⟩ := by
    have hsorted : byTime (samplesOf (some driveC.host_id) driveC.drive
        (inWindow "2026-05-01" staticDisk)) = staticDisk.tail := by
      have hsamples : samplesOf (some driveC.host_id) driveC.drive
        (inWindow "2026-05-01" staticDisk) = staticDisk.tail := by decide +kernel
      rw [hsamples]
      exact List.mergeSort_of_pairwise (by decide +kernel)
    rw [windowBasis, hsorted]
    rfl
  refine ⟨?_, hwindow, fun h => ?_⟩
  · show (forecasts secondsBetween (basis onePc "2026-05-01" staticDisk) 90
      (disks onePc "2026-05-01" staticDisk)).map _ = _
    have hforecast : (Basis.forecast secondsBetween ⟨100, "2026-01-01", 30, "2026-05-20"⟩ 90
        driveC).map (Option.map Forecast.days_left) = some (some 59) := by decide +kernel
    obtain ⟨entry, hentry, hdays⟩ := Option.map_eq_some_iff.mp hforecast
    obtain ⟨f, rfl, hleft⟩ := Option.map_eq_some_iff.mp hdays
    rw [disks_static, forecasts]
    simp [basis_static, hentry, hleft]
  · have hsame := h.basis driveC (by
      show driveC ∈ disks onePc "2026-05-01" staticDisk
      rw [disks_static]
      exact List.mem_singleton_self driveC)
    have hdiffer := basis_static.symm.trans (hsame.trans hwindow)
    exact absurd hdiffer (by decide +kernel)

end NetPulse.Monitor.DiskForecast
