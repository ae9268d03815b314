import NetPulse.Infra.Agent

/-
# NetPulse.Infra.WalkRuns — whole walks

A walk asks an agent for what comes behind a base, and goes on from each answer. Below the base the
answers are its instances, in order (`loop_inside`); behind the last of them it may go on through the
rest of the MIB, and keeps nothing (`loop_outside`).

What ends a subtree in the middle of a MIB is an identifier that is not of it. At the end of the MIB
there is none: the agent returns the identifier it was asked for, with endOfMibView for a value, and
`snmp_walk` takes the pair for an instance, in every turn that is left.
-/

namespace NetPulse.Infra.Walk

open NetPulse.Lib (Bytes Text)
open NetPulse.Lib.PrefixOrder

/-! ## §1 A turn of the loop -/

section Turn

variable {getnext : Nat → String → Except PyError (Option String × Pairs)} {base current : String}
  {limit left : Nat} {result : Pairs} (hcurrent : current ≠ "")

include hcurrent

theorem walkLoop_stop {last : Option String} {found : Pairs}
    (h : getnext (limit - (left + 1)) current = .ok (last, found))
    (hlast : ∀ t, last = some t → ¬ base.toList <+: t.toList) :
    walkLoop getnext base limit (left + 1) current result = .ok result := by
  rw [walkLoop, if_neg hcurrent, h]
  cases last with
  | none => rfl
  | some t =>
      have hstart : ¬ startswith t base := fun hs =>
        hlast t rfl (List.isPrefixOf_iff_prefix.mp hs)
      exact if_pos (.inr hstart)

theorem walkLoop_go {last : String} {found : Pairs}
    (h : getnext (limit - (left + 1)) current = .ok (some last, found))
    (hlast : last ≠ "") (hstart : base.toList <+: last.toList) :
    walkLoop getnext base limit (left + 1) current result =
      if (collect base limit found result).2 then .ok (collect base limit found result).1
      else walkLoop getnext base limit left last (collect base limit found result).1 := by
  have hstart' : startswith last base := List.isPrefixOf_iff_prefix.mpr hstart
  rw [walkLoop, if_neg hcurrent, h]
  exact if_neg (not_or.mpr ⟨hlast, not_not.mpr hstart'⟩)

/-- An answer that begins with the base, and is not behind its dot. -/
theorem walkLoop_skip {last : String} {val : SnmpValue}
    (h : getnext (limit - (left + 1)) current = .ok (some last, [(last, val)]))
    (hlast : last ≠ "") (hstart : base.toList <+: last.toList)
    (hdot : ¬ base.toList ++ ['.'] <+: last.toList) :
    walkLoop getnext base limit (left + 1) current result =
      walkLoop getnext base limit left last result := by
  have hdot' : ¬ startswith last (base ++ ".") := by
    rw [startswith, List.isPrefixOf_iff_prefix, String.toList_append]
    exact hdot
  have hcollect : collect base limit [(last, val)] result = (result, false) := by
    rw [collect, if_pos hdot', collect]
  rw [walkLoop_go hcurrent h hlast hstart, hcollect]
  exact if_neg Bool.false_ne_true

theorem walkLoop_take {last : String} {val : SnmpValue}
    (h : getnext (limit - (left + 1)) current = .ok (some last, [(last, val)]))
    (hlast : last ≠ "") (hdot : base.toList ++ ['.'] <+: last.toList) :
    walkLoop getnext base limit (left + 1) current result =
      if limit ≤ result.length + 1 then .ok (result ++ [(last, val)])
      else walkLoop getnext base limit left last (result ++ [(last, val)]) := by
  have hdot' : startswith last (base ++ ".") := by
    rw [startswith, List.isPrefixOf_iff_prefix, String.toList_append]
    exact hdot
  have hcollect : collect base limit [(last, val)] result =
      (result ++ [(last, val)], decide (limit ≤ result.length + 1)) := by
    rw [collect, if_neg (not_not.mpr hdot'), collect, List.length_append, List.length_singleton]
    by_cases hfull : limit ≤ result.length + 1
    · rw [if_pos hfull, decide_eq_true hfull]
    · rw [if_neg hfull, decide_eq_false hfull]
  rw [walkLoop_go hcurrent h hlast ((List.prefix_append _ _).trans hdot), hcollect]
  simp only [decide_eq_true_iff]

end Turn

/-- What the loop adds is behind the dot. -/
theorem collect_adds (base : String) (limit : Nat) (found result : Pairs) :
    ∃ more, (collect base limit found result).1 = result ++ more ∧
      ∀ r ∈ more, startswith r.1 (base ++ ".") := by
  induction found generalizing result with
  | nil => exact ⟨[], (List.append_nil result).symm, fun r hr => nomatch hr⟩
  | cons pair found ih =>
      obtain ⟨oid, val⟩ := pair
      rw [collect]
      by_cases hdot : startswith oid (base ++ ".")
      · rw [if_neg (not_not.mpr hdot)]
        split
        · refine ⟨[(oid, val)], rfl, fun r hr => ?_⟩
          rw [List.mem_singleton.mp hr]
          exact hdot
        · obtain ⟨more, hmore, hall⟩ := ih (result ++ [(oid, val)])
          refine ⟨(oid, val) :: more, by rw [hmore, List.append_assoc]; rfl, fun r hr => ?_⟩
          rcases List.mem_cons.mp hr with rfl | hr
          · exact hdot
          · exact hall r hr
      · rw [if_pos hdot]
        exact ih result

theorem walkLoop_adds {getnext : Nat → String → Except PyError (Option String × Pairs)}
    {base : String} {limit left : Nat} {current : String} {result out : Pairs}
    (hrun : walkLoop getnext base limit left current result = .ok out) :
    ∃ more, out = result ++ more ∧ ∀ r ∈ more, startswith r.1 (base ++ ".") := by
  have hsame (result : Pairs) (h : Except.ok result = (.ok out : Except PyError Pairs)) :
      ∃ more, out = result ++ more ∧ ∀ r ∈ more, startswith r.1 (base ++ ".") := by
    cases h
    exact ⟨[], (List.append_nil _).symm, fun r hr => nomatch hr⟩
  induction left generalizing current result with
  | zero => exact hsame result hrun
  | succ left ih =>
      rw [walkLoop] at hrun
      split at hrun
      · exact hsame result hrun
      · obtain ⟨⟨last, found⟩, -, hrun⟩ := NetPulse.Lib.bind_eq_ok.mp hrun
        cases last with
        | none => exact hsame result hrun
        | some last =>
            dsimp only at hrun
            split at hrun
            · exact hsame result hrun
            · obtain ⟨more, hmore, hall⟩ := collect_adds base limit found result
              split at hrun
              · cases hrun
                exact ⟨more, hmore, hall⟩
              · obtain ⟨more', rfl, hall'⟩ := ih hrun
                refine ⟨more ++ more', by rw [hmore, List.append_assoc], fun r hr => ?_⟩
                exact (List.mem_append.mp hr).elim (hall r) (hall' r)

/-! ## §2 Below a base -/

/-- `int(time.time()) & 0x7FFFFFFF` -/
def reqIds (clock : Nat → Nat) (turn : Nat) : Nat := clock turn &&& 0x7FFFFFFF

theorem reqIds_lt (clock : Nat → Nat) (turn : Nat) : reqIds clock turn < 2 ^ 31 :=
  Nat.lt_of_le_of_lt Nat.and_le_right (by decide)

/-- The identifier goes on behind the base. -/
def Below (base x : Oid) : Prop := base.parts <+: x.parts ∧ base.parts ≠ x.parts

theorem dot_iff (base x : Oid) : base.text.toList ++ ['.'] <+: x.text.toList ↔ Below base x :=
  dot_prefix_iff base.parts_ne_nil x.parts_ne_nil

theorem plain_congr {base x : Oid} (h : base.parts <+: x.parts) : base.Plain ↔ x.Plain := by
  obtain ⟨rest, hrest⟩ := h
  unfold Oid.parts at hrest
  rw [List.cons_append, List.cons_append, List.cons.injEq, List.cons.injEq] at hrest
  rw [Oid.Plain, Oid.Plain, hrest.2.1]

namespace Mib

/-- What of the subtree comes behind an identifier. -/
def inside (mib : Mib) (base x : Oid) : List Instance :=
  (mib.behind x).filter fun n => base.parts.isPrefixOf n.oid.parts

variable {mib : Mib} {base x : Oid} {n : Instance} {rest : List Instance}

theorem lt_of_mem_behind (h : n ∈ mib.behind x) : x.parts < n.oid.parts :=
  of_decide_eq_true (List.mem_filter.mp h).2

theorem mem_inside : n ∈ mib.inside base x ↔ n ∈ mib.behind x ∧ base.parts <+: n.oid.parts := by
  rw [inside, List.mem_filter, List.isPrefixOf_iff_prefix]

theorem inside_nil (h : mib.behind x = []) : mib.inside base x = [] := by
  rw [inside, h, List.filter_nil]

theorem inside_cons (h : mib.behind x = n :: rest) (hn : base.parts <+: n.oid.parts) :
    mib.inside base x = n :: mib.inside base n.oid := by
  rw [inside, inside, behind_of_cons h, h]
  exact List.filter_cons_of_pos (List.isPrefixOf_iff_prefix.mpr hn)

/-- Behind what is not of the subtree nothing is. -/
theorem inside_of_not (hx : base.parts <+: x.parts) (h : mib.behind x = n :: rest)
    (hn : ¬ base.parts <+: n.oid.parts) : mib.inside base x = [] := by
  have hxn : x.parts < n.oid.parts := lt_of_mem_behind (h ▸ List.mem_cons_self)
  have hbn : ¬ n.oid.parts < base.parts := by
    by_cases hbx : base.parts = x.parts
    · rw [hbx]
      exact lt_asymm hxn
    · have hlt : base.parts < x.parts := lt_of_prefix hx hbx
      exact lt_asymm (hlt.trans hxn)
  rw [List.eq_nil_iff_forall_not_mem]
  intro z hz
  obtain ⟨hmem, hbz⟩ := mem_inside.mp hz
  rcases List.mem_cons.mp (h ▸ hmem) with rfl | hrest
  · exact hn hbz
  · have hnz : n.oid.parts < z.oid.parts := by
      rw [← behind_of_cons h] at hrest
      exact lt_of_mem_behind hrest
    exact hn (prefix_of_between hbn (lt_asymm hnz) hbz)

end Mib

/-! ## §3 Runs of the loop -/

section Runs

variable {mib : Mib} {community : Community} (agent : Agent mib community.bytes)
  (clock : Nat → Nat) (base : Oid) (limit : Nat)

/-- The loop of `snmp_walk` with this agent. -/
def loop : Nat → String → Pairs → Except PyError Pairs :=
  walkLoop (fun turn oid =>
    snmp_getnext (agent.receives turn) community.text oid (reqIds clock turn)) base.text limit

/-- A turn whose answer is not below the base. -/
theorem loop_leave {x : Oid} {n : Instance} {rest : List Instance} {left : Nat} {result : Pairs}
    (hx : x.Plain) (hshort : Short community (reqIds clock (limit - (left + 1))) x)
    (hnext : mib.behind x = n :: rest) (hbelow : ¬ Below base n.oid)
    (hrest : n.oid.Plain → loop agent clock base limit left n.oid.text result = .ok result) :
    loop agent clock base limit (left + 1) x.text result = .ok result := by
  have hid := reqIds_lt clock (limit - (left + 1))
  by_cases hn : n.oid.Plain
  · have hget := getnext_next agent (limit - (left + 1)) hid hx hshort hnext hn
    by_cases hstart : base.text.toList <+: n.oid.text.toList
    · refine (walkLoop_skip x.text_ne hget n.oid.text_ne hstart ?_).trans (hrest hn)
      exact fun hdot => hbelow ((dot_iff base n.oid).mp hdot)
    · refine walkLoop_stop x.text_ne hget fun t ht => ?_
      rw [← Option.some.inj ht]
      exact hstart
  · obtain ⟨last, found, hget, hforeign⟩ :=
      getnext_joint agent (limit - (left + 1)) hid hx hshort hnext hn
    exact walkLoop_stop x.text_ne hget fun t ht => base.not_prefix_of_foreign (hforeign t ht)

/-- **Outside of the subtree** nothing is kept. -/
theorem loop_outside {x : Oid} (hx : x.Plain) (hself : ¬ Below base x)
    (hnone : ∀ n ∈ mib.behind x, ¬ Below base n.oid) (left : Nat) (result : Pairs) :
    loop agent clock base limit left x.text result = .ok result := by
  induction left generalizing x with
  | zero => rfl
  | succ left ih =>
      have hid := reqIds_lt clock (limit - (left + 1))
      by_cases hshort : Short community (reqIds clock (limit - (left + 1))) x
      · cases hnext : mib.behind x with
        | nil =>
            have hget := getnext_end agent (limit - (left + 1)) hid hx hshort hnext
            by_cases hstart : base.text.toList <+: x.text.toList
            · refine (walkLoop_skip x.text_ne hget x.text_ne hstart ?_).trans (ih hx hself hnone)
              exact fun hdot => hself ((dot_iff base x).mp hdot)
            · refine walkLoop_stop x.text_ne hget fun t ht => ?_
              rw [← Option.some.inj ht]
              exact hstart
        | cons n rest =>
            have hbelow := hnone n (hnext ▸ List.mem_cons_self)
            refine loop_leave agent clock base limit hx hshort hnext hbelow fun hn => ?_
            apply ih hn hbelow
            rw [Mib.behind_of_cons hnext]
            exact fun m hm => hnone m (hnext ▸ List.mem_cons_of_mem n hm)
      · have hget := getnext_long agent (limit - (left + 1)) hid hx hshort
        exact walkLoop_stop x.text_ne hget fun t ht => nomatch ht

/-- What a walk needs from a turn on: requests that are short while something of the subtree is to
come, and when nothing is, no answer of the agent that begins with the base. -/
def Clear (mib : Mib) (community : Community) : Nat → Nat → Oid → List Instance → Prop
  | _, 0, _, _ => True
  | turn, _ + 1, x, [] =>
      x.parts = base.parts ∨ mib.behind x ≠ [] ∨ ¬ Short community (reqIds clock turn) x
  | turn, left + 1, x, n :: rest =>
      Short community (reqIds clock turn) x ∧ Clear mib community (turn + 1) left n.oid rest

/-- **In the subtree** the walk takes instance by instance, exactly if it is clear. -/
theorem loop_inside {x : Oid} (hx : x.Plain) (hb : base.parts <+: x.parts) {left : Nat}
    {result : Pairs} (hlen : result.length + left = limit) :
    loop agent clock base limit left x.text result =
        .ok (result ++ ((mib.inside base x).map Instance.row).take left) ↔
      Clear clock base mib community (limit - left) left x (mib.inside base x) := by
  induction left generalizing x result with
  | zero =>
      rw [List.take_zero, List.append_nil, Clear]
      exact iff_of_true rfl trivial
  | succ left ih =>
      have hid := reqIds_lt clock (limit - (left + 1))
      by_cases hshort : Short community (reqIds clock (limit - (left + 1))) x
      swap
      · have hget := getnext_long agent (limit - (left + 1)) hid hx hshort
        have hstop : loop agent clock base limit (left + 1) x.text result = .ok result :=
          walkLoop_stop x.text_ne hget fun t ht => nomatch ht
        rw [hstop]
        cases hin : mib.inside base x with
        | nil =>
            rw [List.map_nil, List.take_nil, List.append_nil, Clear]
            exact iff_of_true rfl (.inr (.inr hshort))
        | cons n rest =>
            rw [Clear]
            refine iff_of_false (fun h => ?_) fun h => hshort h.1
            have hnil := List.append_right_eq_self.mp (Except.ok.inj h).symm
            cases hnil
      cases hnext : mib.behind x with
      | nil =>
          have hget := getnext_end agent (limit - (left + 1)) hid hx hshort hnext
          rw [Mib.inside_nil hnext, List.map_nil, List.take_nil, List.append_nil, Clear]
          by_cases hself : base.parts = x.parts
          · have hbelow : ¬ Below base x := fun h => h.2 hself
            have hout := loop_outside agent clock base limit hx hbelow
              (fun n hn => absurd hn (hnext ▸ List.not_mem_nil)) (left + 1) result
            exact iff_of_true hout (.inl hself.symm)
          · -- endOfMibView: one pair more than there are instances
            have htake : loop agent clock base limit (left + 1) x.text result =
                if limit ≤ result.length + 1 then .ok (result ++ [(x.text, .str [])])
                else loop agent clock base limit left x.text (result ++ [(x.text, .str [])]) :=
              walkLoop_take x.text_ne hget x.text_ne ((dot_iff base x).mpr ⟨hb, hself⟩)
            refine iff_of_false (fun h => ?_) fun h => ?_
            · have hmore : ∃ more, result = (result ++ [(x.text, .str [])]) ++ more := by
                rw [htake] at h
                split at h
                · exact ⟨[], by rw [List.append_nil]; exact (Except.ok.inj h).symm⟩
                · obtain ⟨more, hout, -⟩ := walkLoop_adds h
                  exact ⟨more, hout⟩
              obtain ⟨more, hmore⟩ := hmore
              have hlen := congrArg List.length hmore
              rw [List.length_append, List.length_append, List.length_singleton] at hlen
              omega
            · rcases h with h | h | h
              · exact hself h.symm
              · exact h hnext
              · exact h hshort
      | cons n rest =>
          by_cases hbn : base.parts <+: n.oid.parts
          · have hn : n.oid.Plain := (plain_congr hbn).mp ((plain_congr hb).mpr hx)
            have hbelow : Below base n.oid := by
              refine ⟨hbn, fun heq => ?_⟩
              have hlt : x.parts < n.oid.parts := Mib.lt_of_mem_behind (hnext ▸ List.mem_cons_self)
              rw [← heq] at hlt
              by_cases hself : base.parts = x.parts
              · exact lt_irrefl _ (hself ▸ hlt)
              · have hlt' : base.parts < x.parts := lt_of_prefix hb hself
                exact lt_asymm hlt hlt'
            have hget := getnext_next agent (limit - (left + 1)) hid hx hshort hnext hn
            have htake : loop agent clock base limit (left + 1) x.text result =
                if limit ≤ result.length + 1 then .ok (result ++ [n.row])
                else loop agent clock base limit left n.oid.text (result ++ [n.row]) :=
              walkLoop_take x.text_ne hget n.oid.text_ne ((dot_iff base n.oid).mpr hbelow)
            rw [htake, Mib.inside_cons hnext hbn, List.map_cons, List.take_succ_cons, Clear]
            cases left with
            | zero =>
                rw [if_pos (by omega), List.take_zero, Clear]
                exact iff_of_true rfl ⟨hshort, trivial⟩
            | succ left =>
                have hlen' : (result ++ [n.row]).length + (left + 1) = limit := by
                  rw [List.length_append, List.length_singleton]
                  omega
                have hturn : limit - (left + 1 + 1) + 1 = limit - (left + 1) := by omega
                rw [if_neg (by omega), hturn, List.append_cons result n.row (List.take _ _),
                  ih hn hbn hlen']
                exact (and_iff_right hshort).symm
          · have hin := Mib.inside_of_not hb hnext hbn
            rw [hin, List.map_nil, List.take_nil, List.append_nil, Clear]
            refine iff_of_true ?_ (.inr (.inl (hnext ▸ List.cons_ne_nil n rest)))
            have hnone : ∀ m ∈ mib.behind x, ¬ Below base m.oid := fun m hm hbelow =>
              List.not_mem_nil (hin ▸ Mib.mem_inside.mpr ⟨hm, hbelow.1⟩)
            have hbelow := hnone n (hnext ▸ List.mem_cons_self)
            refine loop_leave agent clock base limit hx hshort hnext hbelow fun hn => ?_
            apply loop_outside agent clock base limit hn hbelow
            rw [Mib.behind_of_cons hnext]
            exact fun m hm => hnone m (hnext ▸ List.mem_cons_of_mem n hm)

end Runs

/-! ## §4 Walks -/

/-- `snmp_walk` with an agent. -/
def walk {mib : Mib} {community : Community} (agent : Agent mib community.bytes)
    (clock : Nat → Nat) (base : Oid) (limit : Nat) : Except PyError Pairs :=
  snmp_walk agent.receives community.text base.text limit (reqIds clock)

/-- The first `limit` instances of the subtree, in order and each once. -/
def rows (mib : Mib) (base : Oid) (limit : Nat) : Pairs :=
  ((mib.subtree base).map Instance.row).take limit

/-- The identifiers that have to be asked for: the base, and each instance of the subtree. -/
def asked (mib : Mib) (base : Oid) : List Oid := base :: (mib.subtree base).map Instance.oid

/-- What it takes for a walk to return its subtree. -/
structure Met (mib : Mib) (community : Community) (clock : Nat → Nat) (base : Oid) (limit : Nat) :
    Prop where
  /-- The base is not itself an instance. -/
  absent : ∀ n ∈ mib.instances, n.oid.parts ≠ base.parts
  /-- Its first two arcs are read back from their byte, or there is nothing below it and a byte. -/
  root : base.Plain ∨ mib.subtree base = [] ∧ base.second < 176
  /-- The requests up to the last instance, or to the limit, are short. -/
  short : ∀ i x, (asked mib base)[i]? = some x → i < limit → i < (mib.subtree base).length →
    Short community (reqIds clock i) x
  /-- The last instance of the MIB is not asked for what comes behind it. -/
  last : ∀ n, (mib.subtree base).getLast? = some n → (mib.subtree base).length < limit →
    mib.behind n.oid = [] → ¬ Short community (reqIds clock (mib.subtree base).length) n.oid

/-- The last thing asked for is the last instance, or the base. -/
theorem getLast?_asked (mib : Mib) (base : Oid) :
    (asked mib base).getLast? = some (((mib.subtree base).getLast?.map Instance.oid).getD base) := by
  rw [asked, List.getLast?_cons, List.getLast?_map]

/-- The conditions, turn by turn. -/
theorem clear_iff {mib : Mib} {community : Community} {clock : Nat → Nat} {base : Oid}
    {turn left : Nat} {x : Oid} {l : List Instance} :
    Clear clock base mib community turn left x l ↔
      (∀ i y, (x :: l.map Instance.oid)[i]? = some y → i < left → i < l.length →
        Short community (reqIds clock (turn + i)) y) ∧
      (l.length < left → ∀ y, (x :: l.map Instance.oid).getLast? = some y →
        y.parts = base.parts ∨ mib.behind y ≠ [] ∨
          ¬ Short community (reqIds clock (turn + l.length)) y) := by
  induction l generalizing turn left x with
  | nil =>
      cases left with
      | zero => exact iff_of_true trivial ⟨fun i y _ hi => absurd hi (Nat.not_lt_zero i),
          fun hlt => absurd hlt (Nat.lt_irrefl 0)⟩
      | succ left =>
          rw [Clear]
          constructor
          · intro h
            refine ⟨fun i y _ _ hi => absurd hi (Nat.not_lt_zero i), fun _ y hy => ?_⟩
            cases hy
            exact h
          · exact fun h => h.2 (Nat.succ_pos left) x rfl
  | cons n rest ih =>
      cases left with
      | zero => exact iff_of_true trivial ⟨fun i y _ hi => absurd hi (Nat.not_lt_zero i),
          fun hlt => absurd hlt (Nat.not_lt_zero _)⟩
      | succ left =>
          have hturn (i : Nat) : turn + 1 + i = turn + (i + 1) := by omega
          rw [Clear, ih, List.map_cons, List.length_cons, List.getLast?_cons_cons, hturn]
          constructor
          · rintro ⟨hx, hshort, hlast⟩
            refine ⟨fun i y hy hi hi' => ?_, fun hlt => hlast (by omega)⟩
            cases i with
            | zero =>
                cases hy
                exact hx
            | succ i =>
                rw [← hturn]
                exact hshort i y hy (by omega) (by omega)
          · rintro ⟨hshort, hlast⟩
            refine ⟨hshort 0 x rfl (by omega) (by omega), fun i y hy hi hi' => ?_,
              fun hlt => hlast (by omega)⟩
            rw [hturn]
            exact hshort (i + 1) y hy (by omega) (by omega)

namespace Mib

variable {mib : Mib} {base : Oid}

theorem mem_subtree {n : Instance} :
    n ∈ mib.subtree base ↔ n ∈ mib.instances ∧ base.parts <+: n.oid.parts := by
  rw [subtree, List.mem_filter, List.isPrefixOf_iff_prefix]

/-- If the base is no instance, its subtree is all behind it. -/
theorem inside_base (h : ∀ n ∈ mib.instances, n.oid.parts ≠ base.parts) :
    mib.inside base base = mib.subtree base := by
  rw [inside, behind, subtree, List.filter_filter]
  apply List.filter_congr
  intro n hn
  by_cases hpre : base.parts <+: n.oid.parts
  · have hlt : base.parts < n.oid.parts := lt_of_prefix hpre (h n hn).symm
    rw [decide_eq_true hlt, Bool.and_true]
  · rw [← List.isPrefixOf_iff_prefix, Bool.not_eq_true] at hpre
    rw [hpre, Bool.false_and]

/-- If it is one, it is the first. -/
theorem head_subtree {n : Instance} (hn : n ∈ mib.instances) (heq : n.oid.parts = base.parts) :
    ∃ m rest, mib.subtree base = m :: rest ∧ m.oid.parts = base.parts := by
  have hmem : n ∈ mib.subtree base := mem_subtree.mpr ⟨hn, heq ▸ List.prefix_refl _⟩
  obtain ⟨m, rest, hcons⟩ := List.exists_cons_of_ne_nil (List.ne_nil_of_mem hmem)
  refine ⟨m, rest, hcons, ?_⟩
  have hpair : (mib.subtree base).Pairwise fun a b => a.oid.parts < b.oid.parts :=
    mib.sorted.filter _
  rw [hcons, List.pairwise_cons] at hpair
  have hm : base.parts <+: m.oid.parts := (mem_subtree.mp (hcons ▸ List.mem_cons_self)).2
  by_contra hne
  have hlt : base.parts < m.oid.parts := lt_of_prefix hm (Ne.symm hne)
  rcases List.mem_cons.mp (hcons ▸ hmem) with rfl | hrest
  · exact hne heq
  · exact lt_asymm hlt (heq ▸ hpair.1 n hrest)

end Mib

section Whole

variable {mib : Mib} {community : Community} (agent : Agent mib community.bytes)
  (clock : Nat → Nat) {base : Oid} {limit : Nat}

/-- A base whose first two arcs are not read back. -/
theorem walk_joint (hlimit : limit ≠ 0) (h : ¬ base.Plain) :
    walk agent clock base limit = if base.second < 176 then .ok [] else .error .valueError := by
  obtain ⟨left, rfl⟩ := Nat.exists_eq_succ_of_ne_zero hlimit
  have hid := reqIds_lt clock (left + 1 - (left + 1))
  split
  · rename_i hbyte
    obtain ⟨last, found, hget, hlast⟩ :=
      getnext_of_joint agent (left + 1 - (left + 1)) hid h hbyte
    show loop agent clock base (left + 1) (left + 1) base.text [] = _
    exact walkLoop_stop base.text_ne hget hlast
  · rename_i hbyte
    have hfirst := Oid.first_of_not_plain h
    have hpacket (reqId : Nat) : packet community.text base.text reqId = none := by
      rw [packet_eq, oidBytes_text, byte, if_neg (by omega)]
      rfl
    unfold walk snmp_walk
    rw [walkLoop, if_neg base.text_ne, snmp_getnext, hpacket]
    rfl

/-- A base that is an instance is never found. -/
theorem walk_of_instance (hlimit : limit ≠ 0) {n : Instance} (hn : n ∈ mib.instances)
    (heq : n.oid.parts = base.parts) : walk agent clock base limit ≠ .ok (rows mib base limit) := by
  intro h
  obtain ⟨left, rfl⟩ := Nat.exists_eq_succ_of_ne_zero hlimit
  obtain ⟨m, rest, hcons, hm⟩ := Mib.head_subtree hn heq
  obtain ⟨more, hmore, hdot⟩ := walkLoop_adds h
  rw [List.nil_append, rows, hcons, List.map_cons, List.take_succ_cons] at hmore
  have hstart := hdot m.row (hmore ▸ List.mem_cons_self)
  rw [startswith, List.isPrefixOf_iff_prefix, String.toList_append] at hstart
  exact ((dot_iff base m.oid).mp hstart).2 hm.symm

theorem rows_eq_nil (hlimit : limit ≠ 0) : rows mib base limit = [] ↔ mib.subtree base = [] := by
  rw [rows, List.take_eq_nil_iff, List.map_eq_nil_iff, or_iff_right hlimit]

/-- **When a walk is right**: it returns the instances of the subtree, each once and in order, up to
the limit, exactly if these are met. -/
theorem walk_right_iff :
    walk agent clock base limit = .ok (rows mib base limit) ↔
      limit = 0 ∨ Met mib community clock base limit := by
  by_cases hlimit : limit = 0
  · subst hlimit
    exact iff_of_true rfl (.inl rfl)
  rw [or_iff_right hlimit]
  by_cases habsent : ∀ n ∈ mib.instances, n.oid.parts ≠ base.parts
  swap
  · refine iff_of_false ?_ fun h => habsent h.absent
    push Not at habsent
    obtain ⟨n, hn, heq⟩ := habsent
    exact walk_of_instance agent clock hlimit hn heq
  by_cases hbase : base.Plain
  · have hinside := loop_inside agent clock base limit hbase (List.prefix_refl _)
      (show ([] : Pairs).length + limit = limit from Nat.zero_add _)
    rw [List.nil_append, Mib.inside_base habsent, Nat.sub_self, clear_iff] at hinside
    refine hinside.trans ?_
    constructor
    · rintro ⟨hshort, hlast⟩
      refine ⟨habsent, .inl hbase, fun i x hx hi hi' => ?_, fun n hn hlt hend hlong => ?_⟩
      · have h := hshort i x hx hi hi'
        rwa [Nat.zero_add] at h
      · have hlast' : (asked mib base).getLast? = some n.oid := by
          rw [getLast?_asked, hn]
          rfl
        rcases hlast hlt n.oid hlast' with heq | hmore | hshort'
        · exact habsent n (Mib.mem_subtree.mp (List.mem_of_getLast? hn)).1 heq
        · exact hmore hend
        · rw [Nat.zero_add] at hshort'
          exact hshort' hlong
    · rintro ⟨-, -, hshort, hlast⟩
      refine ⟨fun i x hx hi hi' => ?_, fun hlt y hy => ?_⟩
      · rw [Nat.zero_add]
        exact hshort i x hx hi hi'
      · have hy' : (asked mib base).getLast? = some y := hy
        rw [getLast?_asked, Option.some.injEq] at hy'
        rw [Nat.zero_add]
        cases hn : (mib.subtree base).getLast? with
        | none =>
            rw [hn] at hy'
            exact .inl (congrArg Oid.parts hy'.symm)
        | some n =>
            rw [hn] at hy'
            obtain rfl : n.oid = y := hy'
            exact .inr (or_iff_not_imp_left.mpr fun hend => hlast n hn hlt (not_not.mp hend))
  · rw [walk_joint agent clock hlimit hbase]
    constructor
    · intro h
      split at h
      · rename_i hbyte
        have hnil := (rows_eq_nil hlimit).mp (Except.ok.inj h).symm
        refine ⟨habsent, .inr ⟨hnil, hbyte⟩, fun i x _ _ hi => ?_, fun n hn => ?_⟩
        · rw [hnil] at hi
          exact absurd hi (Nat.not_lt_zero i)
        · rw [hnil] at hn
          cases hn
      · cases h
    · intro h
      obtain ⟨hnil, hbyte⟩ := h.root.resolve_left hbase
      rw [if_pos hbyte, (rows_eq_nil hlimit).mpr hnil]

end Whole

/-! ## §5 The end of the MIB -/

/-- `1.3.6.1.2.1.1.5`, the name of the system. -/
def sysName : Oid where
  first := 1
  second := 3
  rest := [6, 1, 2, 1, 1, 5]
  root := by decide
  small := by decide
  word := by decide
  short := by decide

/-- Its one instance. -/
def switchName : Instance where
  oid := { sysName with
    rest := [6, 1, 2, 1, 1, 5, 0]
    word := by decide
    short := by decide }
  tag := 0x04
  raw := [0x73, 0x77]
  memory := by decide

/-- A switch that knows its name only. -/
def switch : Mib where
  instances := [switchName]
  sorted := List.pairwise_singleton _ _

def publicCommunity : Community where
  text := "public"
  memory := by decide +kernel

/-- The name comes once, and then without a value until the limit. -/
theorem walk_repeats :
    (∃ agent : Agent switch publicCommunity.bytes,
      walk agent (fun _ => 1700000000) sysName 3 =
        .ok [switchName.row, (switchName.oid.text, .str []), (switchName.oid.text, .str [])]) ∧
      rows switch sysName 3 = [switchName.row] ∧
      ¬ ∀ agent : Agent switch publicCommunity.bytes,
        walk agent (fun _ => 1700000000) sysName 3 = .ok (rows switch sysName 3) := by
  have hid := reqIds_lt fun _ => 1700000000
  have hshort : ∀ x ∈ [sysName, switchName.oid],
      Short publicCommunity (1700000000 &&& 0x7FFFFFFF) x := by decide +kernel
  obtain ⟨hbase, hname, -⟩ := by simpa only [List.forall_mem_cons] using hshort
  have hbelow : Below sysName switchName.oid := by
    unfold Below
    decide
  have hdot := (dot_iff sysName switchName.oid).mpr hbelow
  have hrows : rows switch sysName 3 = [switchName.row] := rfl
  have hwalk (agent : Agent switch publicCommunity.bytes) :
      walk agent (fun _ => 1700000000) sysName 3 =
        .ok [switchName.row, (switchName.oid.text, .str []), (switchName.oid.text, .str [])] := by
    have hfirst := getnext_next agent 0 (hid 0) (show sysName.Plain by decide) hbase
      (show switch.behind sysName = [switchName] from rfl) (by decide)
    have hend (turn : Nat) := getnext_end agent turn (hid 0) (show switchName.oid.Plain by decide)
      hname (show switch.behind switchName.oid = [] from rfl)
    let turns := loop agent (fun _ => 1700000000) sysName 3
    calc turns 3 sysName.text []
        = turns 2 switchName.oid.text [switchName.row] :=
          (walkLoop_take sysName.text_ne hfirst switchName.oid.text_ne hdot).trans
            (if_neg (by decide))
      _ = turns 1 switchName.oid.text [switchName.row, (switchName.oid.text, .str [])] :=
          (walkLoop_take switchName.oid.text_ne (hend 1) switchName.oid.text_ne hdot).trans
            (if_neg (by decide))
      _ = .ok [switchName.row, (switchName.oid.text, .str []), (switchName.oid.text, .str [])] :=
          (walkLoop_take switchName.oid.text_ne (hend 2) switchName.oid.text_ne hdot).trans
            (if_pos (by decide))
  refine ⟨⟨Agent.spelled switch publicCommunity, hwalk _⟩, hrows, fun h => ?_⟩
  have hright := h (Agent.spelled switch publicCommunity)
  rw [hwalk, hrows] at hright
  have hlen := congrArg List.length (Except.ok.inj hright)
  cases hlen

end NetPulse.Infra.Walk
