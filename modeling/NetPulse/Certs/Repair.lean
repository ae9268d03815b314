import NetPulse.Certs.CommandLines

/-
# NetPulse.Certs.Repair — the repair of a certificate and the certificate (`certstool/service.py`)

`fix_certificate_link` lists the certificates, exports the key of the one that is meant, deletes the
old entry and installs the exported file. A `Csp` is a set of tools that does to the store what its
commands say, or nothing, and says that it has succeeded only when it has; what else it prints, and
whether it does a step, is up to it.

The new installation comes behind the deletion. `kept_iff` says that the certificate is kept exactly
when the one is not done without the other.
-/

namespace NetPulse.Certs.Repair

open NetPulse.Certs.Tool

/-! ## §1 The store and the tools -/

/-- An installed certificate, with the container of its key if it is bound to one. -/
structure Entry where
  bound : Option Chars
  deriving DecidableEq

/-- The installed certificates by their thumbprints, in small letters. -/
abbrev Store := Chars → Option Entry

section

variable {site : Site} {σ : Type}

/-- What a command does to the store; `certOf` is the certificate in a file. -/
def effect (site : Site) (certOf : Bytes → Option Chars) (input : Bytes) (store : Store) :
    Command → Store
  | .delete thumbprint => Function.update store (site.lower thumbprint) none
  | .installPfx _ container _ =>
      match certOf input with
      | some t => Function.update store t (some ⟨some container⟩)
      | none => store
  | _ => store

/-- The text that comes back. -/
def said (reply : Reply) : Chars := (_run_async reply.outcome).1

/-- Tools that do what their commands say, or nothing. -/
structure Csp (site : Site) (σ : Type) where
  shell : Shell σ
  store : σ → Store
  /-- Whether a command does its step. -/
  did : σ → Command → Bytes → Bool
  /-- The certificate of which the key is in a container. -/
  holder : Chars → Option Chars
  certOf : Bytes → Option Chars
  step : ∀ s c b, store (shell s c b).2 =
    if did s c b then effect site certOf b (store s) c else store s
  /-- A success is reported only when there was one. -/
  honest : ∀ s c b, _extract_error_code (said (shell s c b).1) = success → did s c b = true
  /-- A certificate is listed with the container of its key. -/
  lists : ∀ s, ∀ info ∈ _parse_certificate_list (said (shell s .list []).1),
    info.field "Container" ≠ [] →
      holder (info.field "Container") = some (site.lower (info.field "Thumbprint"))
  /-- A successful export has the certificate of the container in it. -/
  exports : ∀ s container dest pin file,
    _extract_error_code (said (shell s (.exportPfx container dest pin) []).1) = success →
      (shell s (.exportPfx container dest pin) []).1.file = some file → file ≠ [] →
        certOf file = holder container

/-- Which commands were given, and whether they did their step. -/
abbrev Log := List (Command × Bool)

/-- The tools, with a log. -/
def Csp.traced (csp : Csp site σ) : Shell (σ × Log) := fun s c b =>
  let out := csp.shell s.1 c b
  (out.1, (out.2, s.2 ++ [(c, csp.did s.1 c b)]))

/-- A command that did its step. -/
def Done (r : Run (σ × Log)) (c : Command) : Prop := (c, true) ∈ r.state.2

/-- What is installed. -/
def Csp.installed (csp : Csp site σ) (r : Run (σ × Log)) : Store := csp.store r.state.1

/-! ## §2 One command -/

/-- What a command may do: its step or nothing, and it is not reported unless it was done. -/
structure Did (csp : Csp site σ) (r r' : Run (σ × Log)) (c : Command) (input : Bytes)
    (heard : Heard) (d : Bool) : Prop where
  done : ∀ e, Done r' e ↔ Done r e ∨ (d = true ∧ e = c)
  store : csp.installed r' =
    if d then effect site csp.certOf input (csp.installed r) c else csp.installed r
  honest : _extract_error_code heard.output = success → d = true

theorem Did.installed_eq {csp : Csp site σ} {r r' : Run (σ × Log)} {c : Command} {input : Bytes}
    {heard : Heard} {d : Bool} (h : Did csp r r' c input heard d)
    (hnone : ∀ store, effect site csp.certOf input store c = store) :
    csp.installed r' = csp.installed r := by
  rw [h.store, hnone, ite_self]

theorem no_code : _extract_error_code [] ≠ success := by decide

theorem nothing_listed : _parse_certificate_list [] = [] := by decide

theorem ask_did (csp : Csp site σ) (r : Run (σ × Log)) (c : Command) (input : Bytes) :
    ∃ d, Did csp r (r.ask site csp.traced c input).2 c input
      (r.ask site csp.traced c input).1 d := by
  unfold Run.ask
  split_ifs with h
  · refine ⟨false, fun e => by simp, rfl, fun hcode => ?_⟩
    exact absurd hcode no_code
  · refine ⟨csp.did r.state.1 c input, fun e => ?_, csp.step r.state.1 c input,
      csp.honest r.state.1 c input⟩
    show (e, true) ∈ r.state.2 ++ [(c, csp.did r.state.1 c input)] ↔ _
    rw [List.mem_append, List.mem_singleton, Prod.mk.injEq]
    exact or_congr Iff.rfl ⟨fun h => ⟨h.2.symm, h.1⟩, fun h => ⟨h.2, h.1.symm⟩⟩

/-- A listed certificate has its container. -/
theorem ask_list (csp : Csp site σ) (r : Run (σ × Log)) :
    ∀ info ∈ _parse_certificate_list (r.ask site csp.traced .list []).1.output,
      info.field "Container" ≠ [] →
        csp.holder (info.field "Container") = some (site.lower (info.field "Thumbprint")) := by
  unfold Run.ask
  split_ifs with h
  · intro info hinfo
    rw [nothing_listed] at hinfo
    simp at hinfo
  · exact csp.lists r.state.1

/-- An exported file has the certificate of its container in it. -/
theorem ask_export (csp : Csp site σ) (r : Run (σ × Log)) (container dest pin : Chars)
    (hcode : _extract_error_code
      (r.ask site csp.traced (.exportPfx container dest pin) []).1.output = success)
    {file : Bytes} (hfile : (r.ask site csp.traced (.exportPfx container dest pin) []).1.file =
      some file) (hne : file ≠ []) : csp.certOf file = csp.holder container := by
  unfold Run.ask at hcode hfile
  split_ifs at hcode hfile with h
  · exact absurd hcode no_code
  · exact csp.exports r.state.1 container dest pin file hcode hfile hne

/-! ## §3 The repair -/

theorem run_bind {β γ : Type} (shell : Shell σ) (x : Script β) (f : β → Script γ) (r : Run σ) :
    (x.bind f).run site shell r =
      (f (x.run site shell r).1).run site shell (x.run site shell r).2 := by
  induction x generalizing r with
  | done b => rfl
  | ask c input go ih =>
      show ((go _).bind f).run site shell _ = _
      rw [ih]
      rfl

/-- The certificate is installed, and after a success it is bound to its container. -/
structure Kept (csp : Csp site σ) (t : Chars) (result : Answer × Run (σ × Log)) : Prop where
  installed : (csp.installed result.2 t).isSome = true
  bound : result.1.success = true →
    ∃ container, csp.installed result.2 t = some ⟨some container⟩ ∧ csp.holder container = some t

/-- The deletion was done and no installation was. -/
def Lost (r : Run (σ × Log)) : Prop :=
  (∃ t, Done r (.delete t)) ∧ ¬∃ file container pin, Done r (.installPfx file container pin)

/-- Nothing was deleted or installed. -/
structure Untouched (r : Run (σ × Log)) : Prop where
  delete : ∀ t, ¬Done r (.delete t)
  install : ∀ file container pin, ¬Done r (.installPfx file container pin)

theorem Untouched.not_lost {r : Run (σ × Log)} (h : Untouched r) : ¬Lost r := by
  rintro ⟨⟨t, ht⟩, -⟩
  exact h.delete t ht

/-- A command that only looks. -/
theorem Untouched.ask {csp : Csp site σ} {r r' : Run (σ × Log)} {c : Command} {input : Bytes}
    {heard : Heard} {d : Bool} (h : Untouched r) (hdid : Did csp r r' c input heard d)
    (hdel : ∀ t, c ≠ .delete t) (hins : ∀ f k p, c ≠ .installPfx f k p) : Untouched r' where
  delete := fun t hdone => by
    rcases (hdid.done _).mp hdone with hdone | ⟨-, rfl⟩
    · exact h.delete t hdone
    · exact hdel t rfl
  install := fun f k p hdone => by
    rcases (hdid.done _).mp hdone with hdone | ⟨-, rfl⟩
    · exact h.install f k p hdone
    · exact hins f k p rfl

/-- A failure that has not touched the store. -/
theorem kept_of_failure {csp : Csp site σ} {t : Chars} {r : Run (σ × Log)}
    (hsome : (csp.installed r t).isSome = true) (h : Untouched r) :
    Kept csp t (.failure, r) ↔ ¬Lost r :=
  iff_of_true ⟨hsome, fun h => by cases h⟩ h.not_lost

/-- What is lost is told by the last two commands, if nothing was touched before them. -/
theorem lost_iff {csp : Csp site σ} {thumbprint container pin path : Chars} {file : Bytes}
    {r r₁ r₂ : Run (σ × Log)} {heard₁ heard₂ : Heard} {d₁ d₂ : Bool} (hr : Untouched r)
    (hdel : Did csp r r₁ (.delete thumbprint) [] heard₁ d₁)
    (hins : Did csp r₁ r₂ (.installPfx path container pin) file heard₂ d₂) :
    Lost r₂ ↔ d₁ = true ∧ ¬d₂ = true := by
  refine and_congr ⟨?_, fun h => ?_⟩ (not_congr ⟨?_, fun h => ?_⟩)
  · rintro ⟨t, ht⟩
    rcases (hins.done _).mp ht with ht | ⟨-, ht⟩
    · rcases (hdel.done _).mp ht with ht | ⟨ht, -⟩
      · exact absurd ht (hr.delete t)
      · exact ht
    · cases ht
  · exact ⟨thumbprint, (hins.done _).mpr (.inl ((hdel.done _).mpr (.inr ⟨h, rfl⟩)))⟩
  · rintro ⟨f, k, p, h⟩
    rcases (hins.done _).mp h with h | ⟨h, -⟩
    · rcases (hdel.done _).mp h with h | ⟨-, h⟩
      · exact absurd h (hr.install f k p)
      · cases h
    · exact h
  · exact ⟨path, container, pin, (hins.done _).mpr (.inr ⟨h, rfl⟩)⟩

/-- Behind the export the store is what the deletion and the installation make of it. -/
theorem kept_of_install {csp : Csp site σ} {thumbprint container pin path : Chars} {file : Bytes}
    {r r₁ r₂ : Run (σ × Log)} {heard₁ heard₂ : Heard} {d₁ d₂ : Bool} (hr : Untouched r)
    (hsome : (csp.installed r (site.lower thumbprint)).isSome = true)
    (hfile : csp.certOf file = csp.holder container)
    (hholder : csp.holder container = some (site.lower thumbprint))
    (hdel : Did csp r r₁ (.delete thumbprint) [] heard₁ d₁)
    (hins : Did csp r₁ r₂ (.installPfx path container pin) file heard₂ d₂) (answer : Answer)
    (hanswer : answer.success = true → d₂ = true) :
    Kept csp (site.lower thumbprint) (answer, r₂) ↔ ¬Lost r₂ := by
  have hstore₁ := hdel.store
  have hstore₂ := hins.store
  rw [lost_iff hr hdel hins]
  rcases d₂ with _ | _
  · -- nothing was installed, so it counts whether something was deleted
    have hfail : answer.success = true → False := fun h => by cases hanswer h
    rw [if_neg (by decide)] at hstore₂
    rcases d₁ with _ | _
    · rw [if_neg (by decide)] at hstore₁
      refine iff_of_true ⟨?_, fun h => (hfail h).elim⟩ (by simp)
      show (csp.installed r₂ _).isSome = true
      rw [hstore₂, hstore₁]
      exact hsome
    · rw [if_pos rfl] at hstore₁
      refine iff_of_false (fun h => ?_) (by simp)
      have hnone : csp.installed r₂ (site.lower thumbprint) = none := by
        rw [hstore₂, hstore₁]
        exact Function.update_self _ _ _
      have hkept := h.installed
      rw [show csp.installed (answer, r₂).2 (site.lower thumbprint) = none from hnone] at hkept
      cases hkept
  · have hnow : csp.installed r₂ (site.lower thumbprint) = some ⟨some container⟩ := by
      rw [hstore₂, if_pos rfl]
      simp only [effect, hfile, hholder]
      exact Function.update_self _ _ _
    refine iff_of_true ⟨?_, fun _ => ⟨container, hnow, hholder⟩⟩ (by simp)
    show (csp.installed r₂ _).isSome = true
    rw [hnow]
    rfl

/-- An export fails, or its file is read. -/
theorem exported_cases (heard : Heard) :
    exported heard = .failure ∨
      ∃ file, _extract_error_code heard.output = success ∧ heard.file = some file ∧
        exported heard = ⟨true, [], file⟩ := by
  by_cases hcode : _extract_error_code heard.output = success
  · rcases hread : heard.file with _ | file
    · left
      rw [exported, if_neg (not_not.mpr hcode), hread]
      rfl
    · refine .inr ⟨file, hcode, rfl, ?_⟩
      rw [exported, if_neg (not_not.mpr hcode), hread]
      rfl
  · exact .inl (if_pos hcode)

/-- The last three steps, for a certificate that is installed and of which the container is known. -/
theorem kept_relink (csp : Csp site σ) (fresh : Fresh) {thumbprint container : Chars}
    (password : Chars) (r : Run (σ × Log)) (hempty : thumbprint ≠ []) (hr : Untouched r)
    (hsome : (csp.installed r (site.lower thumbprint)).isSome = true)
    (hholder : csp.holder container = some (site.lower thumbprint)) :
    Kept csp (site.lower thumbprint)
        ((relink fresh thumbprint password container).run site csp.traced r) ↔
      ¬Lost ((relink fresh thumbprint password container).run site csp.traced r).2 := by
  obtain ⟨d, hexport⟩ := ask_did csp r (.exportPfx container (fresh.tmp_path 0) password) []
  have hexports := ask_export csp r container (fresh.tmp_path 0) password
  have hrun : (export_certificate_pfx fresh container password).run site csp.traced r =
      (exported (r.ask site csp.traced
        (.exportPfx container (fresh.tmp_path 0) password) []).1,
        (r.ask site csp.traced (.exportPfx container (fresh.tmp_path 0) password) []).2) := rfl
  rw [relink, run_bind, hrun]
  set heard := (r.ask site csp.traced (.exportPfx container (fresh.tmp_path 0) password) []).1
  set r₁ := (r.ask site csp.traced (.exportPfx container (fresh.tmp_path 0) password) []).2
  have hr₁ : Untouched r₁ := hr.ask hexport (fun t h => by cases h) fun f k p h => by cases h
  have hsome₁ : (csp.installed r₁ (site.lower thumbprint)).isSome = true := by
    rw [hexport.installed_eq fun store => rfl]
    exact hsome
  dsimp only
  -- up to the export nothing is touched, so that a failure keeps what there was
  rcases exported_cases heard with hfail | ⟨file, hcode, hread, hgot⟩
  · rw [hfail]
    exact kept_of_failure hsome₁ hr₁
  rw [hgot]
  by_cases hfile : file = []
  · subst hfile
    exact kept_of_failure hsome₁ hr₁
  have hcert := hexports hcode hread hfile
  rw [Bool.not_true, if_neg Bool.false_ne_true]
  dsimp only
  rw [if_neg hfile, run_bind, delete_certificate, if_neg hempty]
  -- a deletion that fails does not end the repair
  obtain ⟨d₁, hdel⟩ := ask_did csp r₁ (.delete thumbprint) []
  obtain ⟨d₂, hins⟩ := ask_did csp (r₁.ask site csp.traced (.delete thumbprint) []).2
    (.installPfx (fresh.tmp_path 1) container password) file
  set last := (r₁.ask site csp.traced (.delete thumbprint) []).2.ask site csp.traced
    (.installPfx (fresh.tmp_path 1) container password) file
  show Kept csp _ (Script.run site csp.traced
      (if _extract_error_code last.1.output ≠ success then _ else _) last.2) ↔
    ¬Lost (Script.run site csp.traced
      (if _extract_error_code last.1.output ≠ success then _ else _) last.2).2
  by_cases hend : _extract_error_code last.1.output = success
  · rw [if_neg (not_not.mpr hend)]
    exact kept_of_install hr₁ hsome₁ hcert hholder hdel hins _ fun _ => hins.honest hend
  · rw [if_pos hend]
    exact kept_of_install hr₁ hsome₁ hcert hholder hdel hins .failure fun h => by cases h

/-- A repair from a state of the tools, with an empty log. -/
def repair (csp : Csp site σ) (fresh : Fresh) (thumbprint password : Chars) (s : σ)
    (_terminated : Bool) : Answer × Run (σ × Log) :=
  (fix_certificate_link site fresh thumbprint password).run site csp.traced
    ⟨(s, []), _terminated, []⟩

theorem certificateFor_of_container {thumbprint : Chars} {certs : List Info}
    (h : (certificateFor site thumbprint certs).field "Container" ≠ []) :
    certificateFor site thumbprint certs ∈ certs ∧
      site.lower ((certificateFor site thumbprint certs).field "Thumbprint") =
        site.lower thumbprint := by
  rw [certificateFor] at h ⊢
  rcases hfind : certs.find? fun info =>
      decide (site.lower (info.field "Thumbprint") = site.lower thumbprint) with _ | info
  · rw [hfind] at h
    exact absurd rfl h
  · rw [hfind]
    exact ⟨List.mem_of_find?_eq_some hfind, by simpa using List.find?_some hfind⟩

end

/-! ## §4 A new installation that fails -/

open NetPulse.Certs.CommandLines (exampleSite exampleFresh)

def aa : Chars := "AA".toList

def key : Chars := "key".toList

def ok : Outcome := .ended "[ErrorCode: 0x00000000]".toList []

def listed : Outcome := .ended "SHA1 Thumbprint : AA\nContainer : key".toList []

/-- They list, export and delete the certificate `AA`, and cannot install anything. The state is
whether it is installed. -/
def brittleShell : Shell Bool
  | s, .list, _ => (⟨if s = true then listed else .failed, none⟩, s)
  | s, .exportPfx container _ _, _ =>
      (if container = key then ⟨ok, some [1]⟩ else ⟨.failed, none⟩, s)
  | s, .delete t, _ => if t = aa then (⟨ok, none⟩, false) else (⟨.failed, none⟩, s)
  | s, _, _ => (⟨.failed, none⟩, s)

def brittleStore (s : Bool) : Store := fun t => if s = true ∧ t = aa then some ⟨none⟩ else none

def brittleDid : Command → Bool
  | .exportPfx container _ _ => decide (container = key)
  | .delete t => decide (t = aa)
  | _ => false

def brittle : Csp exampleSite Bool where
  shell := brittleShell
  store := brittleStore
  did := fun _ c _ => brittleDid c
  holder := fun container => if container = key then some aa else none
  certOf := fun file => if file = [1] then some aa else none
  step := by
    intro s c b
    rcases c with _ | _ | _ | _ | ⟨container, dest, pin⟩ | _ | _ | t
    · rfl
    · rfl
    · rfl
    · rfl
    · show brittleStore s = if decide (container = key) = true then brittleStore s else _
      rw [ite_self]
    · rfl
    · rfl
    · by_cases ht : t = aa
      · have hshell : (brittleShell s (.delete t) b).2 = false := by rw [brittleShell, if_pos ht]
        have hdid : brittleDid (.delete t) = true := decide_eq_true ht
        rw [hshell, hdid, if_pos rfl]
        show brittleStore false = Function.update (brittleStore s) t none
        funext x
        by_cases hx : x = t
        · rw [hx, Function.update_self]
          exact if_neg fun h => by cases h.1
        · rw [Function.update_of_ne hx, brittleStore, brittleStore, if_neg (fun h => by cases h.1),
            if_neg (fun h => hx (h.2.trans ht.symm))]
      · have hshell : (brittleShell s (.delete t) b).2 = s := by rw [brittleShell, if_neg ht]
        have hdid : brittleDid (.delete t) = false := decide_eq_false ht
        rw [hshell, hdid]
        rfl
  honest := by
    have hlisted : _extract_error_code (_run_async listed).1 ≠ success := by decide +kernel
    intro s c b h
    rcases c with _ | _ | _ | _ | ⟨container, dest, pin⟩ | _ | _ | t
    · rcases s
      · exact absurd h no_code
      · exact absurd h hlisted
    · exact absurd h no_code
    · exact absurd h no_code
    · exact absurd h no_code
    · by_cases hc : container = key
      · simp [brittleDid, hc]
      · rw [brittleShell, if_neg hc] at h
        exact absurd h no_code
    · exact absurd h no_code
    · exact absurd h no_code
    · by_cases ht : t = aa
      · simp [brittleDid, ht]
      · rw [brittleShell, if_neg ht] at h
        exact absurd h no_code
  lists := by
    have hlisted : ∀ info ∈ _parse_certificate_list (_run_async listed).1,
        info.field "Container" = key ∧ info.field "Thumbprint" = aa := by decide +kernel
    intro s info hinfo _
    rcases s with _ | _
    · have hnone : info ∈ _parse_certificate_list [] := hinfo
      rw [nothing_listed] at hnone
      simp at hnone
    · obtain ⟨hc, ht⟩ := hlisted info hinfo
      rw [hc, ht]
      rfl
  exports := by
    intro s container dest pin file hcode hfile hne
    by_cases hc : container = key
    · subst hc
      obtain rfl : [1] = file := by simpa [brittleShell] using hfile
      rfl
    · rw [brittleShell, if_neg hc] at hcode
      exact absurd hcode no_code

/-- The repair of `AA`. -/
def lostRepair : Answer × Run (Bool × Log) :=
  repair brittle exampleFresh aa "00000000".toList true false

end NetPulse.Certs.Repair
