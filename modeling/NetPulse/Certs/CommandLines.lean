import NetPulse.Certs.Tool

/-
# NetPulse.Certs.CommandLines — what the shell makes of the commands (`certstool/service.py`)

Container names, thumbprints and paths stand between quotes in a command, a password without any,
and nothing looks at them before. `as_meant_iff` says for which values the shell reads the template
that was meant, each value as one argument; `1&calc` is a password that starts a program.
-/

namespace NetPulse.Certs.CommandLines

open NetPulse.Certs.Tool
open NetPulse.Lib.CommandLine (Arg Tagged Names parse environment lineOf valued mark)

/-! ## §1 The templates -/

/-- A word of a template. -/
def fixed (s : String) : Arg := .bare (lit s)

/-- The arguments of a template, the program being the first. -/
def args (site : Site) : Tool.Command → List Arg
  | .list => [.quoted site.certmgr, fixed "-list"]
  | .installPfx file container pin =>
      [.quoted site.certmgr, fixed "-install", fixed "-store", fixed "uMy", fixed "-file",
        .quoted file, fixed "-pfx", fixed "-container", .quoted container, fixed "-silent",
        fixed "-keep_exportable", fixed "-pin", .bare pin]
  | .installCer file container =>
      [.quoted site.certmgr, fixed "-install", fixed "-store", fixed "uMy", fixed "-file",
        .quoted file, fixed "-certificate", fixed "-container", .quoted container, fixed "-silent",
        fixed "-inst_to_cont"]
  | .passwd container pin =>
      [.quoted site.csptest, fixed "-passwd", fixed "-container", .quoted container,
        fixed "-change", .bare pin]
  | .exportPfx container dest pin =>
      [.quoted site.certmgr, fixed "-export", fixed "-container", .quoted container, fixed "-dest",
        .quoted dest, fixed "-pfx", fixed "-keep_exportable", fixed "-pin", .bare pin]
  | .exportCer container dest =>
      [.quoted site.certmgr, fixed "-export", fixed "-container", .quoted container, fixed "-dest",
        .quoted dest]
  | .exportCerBy thumbprint dest =>
      [.quoted site.certmgr, fixed "-export", fixed "-thumbprint", .quoted thumbprint,
        fixed "-dest", .quoted dest]
  | .delete thumbprint =>
      [.quoted site.certmgr, fixed "-delete", fixed "-thumbprint", .quoted thumbprint]

/-- Those of them that are no words of the template. -/
def values (site : Site) : Tool.Command → List Arg
  | .list => [.quoted site.certmgr]
  | .installPfx file container pin =>
      [.quoted site.certmgr, .quoted file, .quoted container, .bare pin]
  | .installCer file container => [.quoted site.certmgr, .quoted file, .quoted container]
  | .passwd container pin => [.quoted site.csptest, .quoted container, .bare pin]
  | .exportPfx container dest pin =>
      [.quoted site.certmgr, .quoted container, .quoted dest, .bare pin]
  | .exportCer container dest => [.quoted site.certmgr, .quoted container, .quoted dest]
  | .exportCerBy thumbprint dest => [.quoted site.certmgr, .quoted thumbprint, .quoted dest]
  | .delete thumbprint => [.quoted site.certmgr, .quoted thumbprint]

def lead : Chars := lit "chcp 1251 "

/-- The line of a command, each character with where it comes from. -/
def tagged (site : Site) (c : Tool.Command) : List Tagged := lineOf lead (args site c)

/-- **The commands are their templates.** -/
theorem tagged_full_command (site : Site) (c : Tool.Command) :
    (tagged site c).map Tagged.char = c.full_command site := by
  have hq : ∀ s : Chars, (Arg.written (.quoted s)).map Tagged.char = q s := by
    intro s
    simp [Arg.written, valued, mark, q, Function.comp_def]
  have hbare : ∀ s : Chars, (Arg.written (.bare s)).map Tagged.char = s := by
    intro s
    simp [Arg.written, valued, Function.comp_def]
  have hargs : ∀ l : List Arg, (Lib.CommandLine.written l).map Tagged.char =
      l.flatMap fun a => ' ' :: (Arg.written a).map Tagged.char := by
    intro l
    simp [Lib.CommandLine.written, List.map_flatMap, mark]
  have hhead : (tagged site c).map Tagged.char =
      lit "chcp 1251 &&" ++ (args site c).flatMap fun a => ' ' :: a.written.map Tagged.char := by
    rw [tagged, lineOf, List.map_append, List.map_cons, List.map_cons, hargs]
    rfl
  -- the words of a template, with the blanks between them
  have h₁ : lit "chcp 1251 && " = lit "chcp 1251 &&" ++ [' '] := by decide +kernel
  have h₂ : lit " -list" = ' ' :: lit "-list" := by decide +kernel
  have h₃ : lit " -install -store uMy -file " = ' ' :: (lit "-install" ++ ' ' ::
      (lit "-store" ++ ' ' :: (lit "uMy" ++ ' ' :: (lit "-file" ++ [' '])))) := by decide +kernel
  have h₄ : lit " -pfx -container " = ' ' :: (lit "-pfx" ++ ' ' :: (lit "-container" ++ [' '])) := by
    decide +kernel
  have h₅ : lit " -silent -keep_exportable -pin " = ' ' :: (lit "-silent" ++ ' ' ::
      (lit "-keep_exportable" ++ ' ' :: (lit "-pin" ++ [' ']))) := by decide +kernel
  have h₆ : lit " -certificate -container " =
      ' ' :: (lit "-certificate" ++ ' ' :: (lit "-container" ++ [' '])) := by decide +kernel
  have h₇ : lit " -silent -inst_to_cont" = ' ' :: (lit "-silent" ++ ' ' :: lit "-inst_to_cont") := by
    decide +kernel
  have h₈ : lit " -passwd -container " =
      ' ' :: (lit "-passwd" ++ ' ' :: (lit "-container" ++ [' '])) := by decide +kernel
  have h₉ : lit " -change " = ' ' :: (lit "-change" ++ [' ']) := by decide +kernel
  have h₁₀ : lit " -export -container " =
      ' ' :: (lit "-export" ++ ' ' :: (lit "-container" ++ [' '])) := by decide +kernel
  have h₁₁ : lit " -dest " = ' ' :: (lit "-dest" ++ [' ']) := by decide +kernel
  have h₁₂ : lit " -pfx -keep_exportable -pin " = ' ' :: (lit "-pfx" ++ ' ' ::
      (lit "-keep_exportable" ++ ' ' :: (lit "-pin" ++ [' ']))) := by decide +kernel
  have h₁₃ : lit " -export -thumbprint " =
      ' ' :: (lit "-export" ++ ' ' :: (lit "-thumbprint" ++ [' '])) := by decide +kernel
  have h₁₄ : lit " -delete -thumbprint " =
      ' ' :: (lit "-delete" ++ ' ' :: (lit "-thumbprint" ++ [' '])) := by decide +kernel
  rw [hhead, Command.full_command]
  rcases c with _ | _ | _ | _ | _ | _ | _ | _ <;>
    simp only [args, Command.text, fixed, List.flatMap_cons, List.flatMap_nil, hq, hbare, h₁, h₂, h₃,
      h₄, h₅, h₆, h₇, h₈, h₉, h₁₀, h₁₁, h₁₂, h₁₃, h₁₄, List.append_assoc, List.cons_append,
      List.nil_append, List.append_nil]

/-- A word of a template is always clean. -/
theorem clean_args_iff (site : Site) (c : Tool.Command) :
    (∀ a ∈ args site c, a.Clean) ↔ ∀ a ∈ values site c, a.Clean := by
  have hfixed : ∀ s ∈ ["-list", "-install", "-store", "uMy", "-file", "-pfx", "-container",
      "-silent", "-keep_exportable", "-pin", "-certificate", "-inst_to_cont", "-passwd", "-change",
      "-export", "-dest", "-thumbprint", "-delete"], (fixed s).Clean := by
    decide
  simp only [List.forall_mem_cons, List.not_mem_nil, false_implies, forall_const] at hfixed
  rcases c with _ | _ | _ | _ | _ | _ | _ | _ <;> simp [args, values, hfixed]

/-! ## §2 What the shell reads -/

/-- Two commands: the code page, and the template with each value as one argument. -/
def meant (site : Site) (c : Tool.Command) : List (Lib.CommandLine.Command Tagged) :=
  [⟨[], ["chcp".toList.map mark, "1251".toList.map mark]⟩,
    ⟨['&', '&'], (args site c).map fun a => valued a.text⟩]

/-- The shell reads what was meant, of the text and of where its characters come from. -/
structure AsMeant (vars : Chars → Option Chars) (site : Site) (c : Tool.Command) : Prop where
  origin : parse Tagged.char (environment vars) (tagged site c) = meant site c
  text : parse id vars (c.full_command site) = (meant site c).map (.erase Tagged.char)

/-- Nothing in the line names a variable. Between quotes there is no quote, no end of a line and at
the end no backslash; without quotes there is something, and no blank or sign of the shell in it. -/
def Harmless (vars : Chars → Option Chars) (site : Site) (c : Tool.Command) : Prop :=
  ¬Names vars (c.full_command site) ∧ ∀ a ∈ values site c, a.Clean

/-- **One command is read as it was meant** exactly when its values are harmless. -/
theorem asMeant_iff (vars : Chars → Option Chars) (site : Site) (c : Tool.Command) :
    AsMeant vars site c ↔ Harmless vars site c := by
  have hall : lead.all (fun a => !Lib.CommandLine.special a) = true := by decide
  have hlead : ∀ a ∈ lead, Lib.CommandLine.special a = false := by simpa using hall
  have hne : args site c ≠ [] := by
    rcases c with _ | _ | _ | _ | _ | _ | _ | _ <;> simp [args]
  have hwords : Lib.CommandLine.words Tagged.char none [] .outside (lead.map mark) =
      ["chcp".toList.map mark, "1251".toList.map mark] := by decide
  have hiff := Lib.CommandLine.parse_lineOf_iff vars hlead (by decide) hne
  have horigin : parse Tagged.char (environment vars) (tagged site c) = meant site c ↔
      Harmless vars site c := by
    rw [Harmless, ← clean_args_iff, ← tagged_full_command, tagged, meant, ← hwords]
    exact hiff
  constructor
  · intro h
    exact horigin.mp h.origin
  · intro h
    have ho := horigin.mpr h
    refine ⟨ho, ?_⟩
    have hvars : vars = fun n => (environment vars n).map (List.map Tagged.char) := by
      funext n
      rcases hn : vars n with _ | value <;> simp [environment, hn, mark, Function.comp_def]
    have hmap := Lib.CommandLine.parse_map Tagged.char (environment vars) (tagged site c)
    rw [← hvars, tagged_full_command, ho] at hmap
    exact hmap

/-! ## §3 Every call -/

/-- A call of a method that builds commands, with what its caller sends. -/
inductive Call where
  | list_certificates
  | find_certificate_by_subject (subject_pattern : Chars)
  | deploy_certificate (pfx_path cer_path pin : Chars)
  | export_certificate_pfx (container_name password : Chars)
  | export_certificate_cer (container_name thumbprint : Chars)
  | export_certificate_by_subject (subject_pattern password : Chars)
  | delete_certificate (thumbprint : Chars)
  | install_pfx_from_base64 (pfx : Option Bytes) (password container_name : Chars)
  | batch_install_pfx_from_bytes (pfx_list : List (Option Bytes)) (current_pwd new_pwd : Chars)
  | install_from_node (remote : Remote) (installed : Bool)
      (thumbprint source_node new_password : Chars)
  | fix_certificate_link (thumbprint password : Chars)

section

variable {σ : Type} (site : Site) (fresh : Fresh) (shell : Shell σ)

/-- The run of a script, without its answer. -/
def after {β : Type} (s : Script β) (r : Run σ) : Run σ := (s.run site shell r).2

/-- The run of a call. -/
def Call.run (r : Run σ) : Call → Run σ
  | .list_certificates => after site shell Tool.list_certificates r
  | .find_certificate_by_subject p => after site shell (Tool.find_certificate_by_subject site p) r
  | .deploy_certificate pfx cer pin =>
      after site shell (Tool.deploy_certificate site fresh pfx cer pin) r
  | .export_certificate_pfx c p => after site shell (Tool.export_certificate_pfx fresh c p) r
  | .export_certificate_cer c t => after site shell (Tool.export_certificate_cer fresh c t) r
  | .export_certificate_by_subject s p =>
      after site shell (Tool.export_certificate_by_subject site fresh s p) r
  | .delete_certificate t => after site shell (Tool.delete_certificate t) r
  | .install_pfx_from_base64 b p c => after site shell (Tool.install_pfx_from_base64 fresh b p c) r
  | .batch_install_pfx_from_bytes l p n =>
      after site shell (Tool.batch_install_pfx_from_bytes fresh l p n) r
  | .install_from_node remote i t n p =>
      after site shell (Tool.install_from_node fresh remote i t n p) r
  | .fix_certificate_link t p => after site shell (Tool.fix_certificate_link site fresh t p) r

/-- What a call gives to the shell. -/
def Call.given (call : Call) (state : σ) (_terminated : Bool) : List Tool.Command :=
  (call.run site fresh shell ⟨state, _terminated, []⟩).given

/-- **Every command of every call** is read as it was meant exactly when all that the call puts into
its commands is harmless. -/
theorem given_asMeant_iff (vars : Chars → Option Chars) (call : Call) (state : σ)
    (_terminated : Bool) :
    (∀ c ∈ call.given site fresh shell state _terminated, AsMeant vars site c) ↔
      ∀ c ∈ call.given site fresh shell state _terminated, Harmless vars site c :=
  forall₂_congr fun c _ => asMeant_iff vars site c

end

/-! ## §4 A password that starts a program -/

def exampleSite : Site where
  certmgr := "C:\\certmgr.exe".toList
  csptest := "C:\\csptest.exe".toList
  exists_ := fun _ => true
  lower := id

def exampleFresh : Fresh where
  tmp_path := fun _ => "C:\\a.pfx".toList
  auto_container := fun _ => "p2p".toList
  one_time_password := "0123456789abcdef".toList

/-- A shell that always fails. -/
def deadShell : Shell Unit := fun _ _ _ => (⟨.failed, none⟩, ())

/-- The password `1&calc` of an export. -/
def calcCall : Call := .export_certificate_pfx "key".toList "1&calc".toList

/-- **Behind the pin comes a second command**, and `1` alone is the pin. -/
theorem pin_starts_a_command :
    calcCall.given exampleSite exampleFresh deadShell () false =
        [.exportPfx "key".toList "C:\\a.pfx".toList "1&calc".toList] ∧
      parse id (fun _ => none) (Command.full_command exampleSite
          (.exportPfx "key".toList "C:\\a.pfx".toList "1&calc".toList)) =
        [⟨[], ["chcp".toList, "1251".toList]⟩,
          ⟨['&', '&'], ["C:\\certmgr.exe".toList, "-export".toList, "-container".toList,
            "key".toList, "-dest".toList, "C:\\a.pfx".toList, "-pfx".toList,
            "-keep_exportable".toList, "-pin".toList, "1".toList]⟩,
          ⟨['&'], ["calc".toList]⟩] ∧
      ¬∀ c ∈ calcCall.given exampleSite exampleFresh deadShell () false,
        AsMeant (fun _ => none) exampleSite c := by
  have hgiven : calcCall.given exampleSite exampleFresh deadShell () false =
      [.exportPfx "key".toList "C:\\a.pfx".toList "1&calc".toList] := by decide +kernel
  refine ⟨hgiven, by decide +kernel, fun h => ?_⟩
  have hmeant := h _ (by rw [hgiven]; exact List.mem_singleton_self _)
  have hclean := ((asMeant_iff _ _ _).mp hmeant).2 (.bare "1&calc".toList) (by simp [values])
  exact absurd hclean (by decide)

end NetPulse.Certs.CommandLines
