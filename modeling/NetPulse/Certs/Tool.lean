import NetPulse.Lib.CommandArgs
import NetPulse.Lib.Dict
import NetPulse.Lib.Text

/-
# NetPulse.Certs.Tool — certificates by way of `certmgr.exe` (`certstool/service.py`)

Everything is done by commands that `_run_async` gives to the shell, and every result is found by
looking through what they print. A method is a `Script`: it asks for a command and goes on with the
answer. `run` answers with a tool that has a state of its own.

What `b64encode` made of a file is the content of the file here, since `b64decode` gives it back.
Digests, the history of installations and the logging are left out.
-/

namespace NetPulse.Certs.Tool

open NetPulse.Lib
open NetPulse.Lib.CommandLine (Arg)

abbrev Chars := List Char

/-- The content of a file. -/
abbrev Bytes := List UInt8

/-! ## §1 Texts -/

def isSpace (c : Char) : Bool := Text.whitespace c.toNat

/-- `s.strip()` -/
def strip (s : Chars) : Chars := ((s.dropWhile isSpace).reverse.dropWhile isSpace).reverse

/-- `w in s` -/
def occurs (w s : Chars) : Bool := s.tails.any fun rest => w.isPrefixOf rest

/-- `s.split(w, 1)` when `w` is in `s`: what is before it and what is behind. -/
def splitOnce (w : Chars) : Chars → Option (Chars × Chars)
  | [] => none
  | c :: rest =>
      if w.isPrefixOf (c :: rest) then some ([], (c :: rest).drop w.length)
      else (splitOnce w rest).map fun cut => (c :: cut.1, cut.2)

/-- `s.split(w)`; the next `skip` characters belong to a separator. -/
def splitFrom (w : Chars) : Nat → Chars → List Chars
  | _, [] => [[]]
  | skip + 1, _ :: rest => splitFrom w skip rest
  | 0, c :: rest =>
      if w.isPrefixOf (c :: rest) then [] :: splitFrom w (w.length - 1) rest
      else
        match splitFrom w 0 rest with
        | first :: more => (c :: first) :: more
        | [] => [[c]]

def split (w s : Chars) : List Chars := splitFrom w 0 s

/-- `re.sub(r'  +', ' ', s)` -/
def oneBlank : Chars → Chars
  | ' ' :: ' ' :: rest => oneBlank (' ' :: rest)
  | c :: rest => c :: oneBlank rest
  | [] => []

/-- `s.replace(c, '')` for some characters. -/
def without (cs : Chars) (s : Chars) : Chars := s.filter fun c => !cs.contains c

/-! ## §2 What the tools print -/

def success : Chars := "0x00000000".toList

/-- `_CSP_MISSING_MARKERS` -/
def _CSP_MISSING_MARKERS : List Chars :=
  ["Не удалось получить контекст".toList, "Тип поставщика не определен".toList]

def cspMissing (s : Chars) : Bool := _CSP_MISSING_MARKERS.any fun m => occurs m s

/-- The code in one line. -/
def codeIn (line : Chars) : Option Chars :=
  if occurs "ErrorCode".toList line || occurs "КодОшибки".toList line ||
      occurs "[0x".toList line then
    let parts := split [':'] line
    let code := strip (without [']'] (strip (parts.getLastD [])))
    if 2 ≤ parts.length ∧ "0x".toList.isPrefixOf code then some code else none
  else none

def _extract_error_code (output : Chars) : Chars :=
  ((split ['\n'] output).findSome? codeIn).getD []

/-- The container in one line. -/
def containerIn (line : Chars) : Option Chars :=
  if occurs "Container".toList line || occurs "Контейнер".toList line then
    (splitOnce [':'] line).bind fun cut =>
      let c := strip (without ['[', ']', '"'] (strip cut.2))
      if c = [] then none else some c
  else none

def _extract_container (output : Chars) : Chars :=
  ((split ['\n'] output).findSome? containerIn).getD []

/-- A certificate as it is listed: the fields by name. -/
abbrev Info := List (Chars × Chars)

/-- `info.get(key, '')` -/
def Info.field (info : Info) (key : String) : Chars := (Dict.lookup key.toList info).getD []

/-- The part of `_FIELD_NAME_MAP` that names a field which is used. -/
def _FIELD_NAME_MAP : List (Chars × Chars) :=
  [("Издатель".toList, "Issuer".toList), ("Субъект".toList, "Subject".toList),
    ("SHA1 отпечаток".toList, "SHA1 Thumbprint".toList),
    ("Контейнер".toList, "Container".toList)]

/-- One line of a block. -/
def readField (info : Info) (line : Chars) : Info :=
  match splitOnce " : ".toList (oneBlank (strip line)) with
  | none => info
  | some (key, value) =>
      let key := strip key
      Dict.assign ((Dict.lookup key _FIELD_NAME_MAP).getD key) (strip value) info

/-- A root certificate has no subject. -/
def fillSubject (info : Info) : Info :=
  match Dict.lookup "Subject".toList info, Dict.lookup "Issuer".toList info with
  | none, some issuer => Dict.assign "Subject".toList issuer info
  | _, _ => info

/-- The first name that is there stands in for `Thumbprint`, unless it is there itself. -/
def fillThumbprint (info : Info) : Info :=
  let names := ["SHA1 Thumbprint", "SHA1 Hash", "SHA1", "Hash", "Отпечаток"].map String.toList
  match Dict.lookup "Thumbprint".toList info, names.findSome? fun n => Dict.lookup n info with
  | none, some hash => Dict.assign "Thumbprint".toList hash info
  | _, _ => info

/-- The container without the name of its carrier. -/
def fillContainer (info : Info) : Info :=
  let container := info.field "Container"
  match [("REGISTRY\\\\").toList, ("HDIMAGE\\\\").toList].find? fun carrier =>
      carrier.isPrefixOf container with
  | some carrier => Dict.assign "Container".toList (container.drop carrier.length) info
  | none => info

def _parse_certificate_list (output : Chars) : List Info :=
  ((split "-------".toList output).filter fun block => occurs " : ".toList block).filterMap
    fun block =>
      let info := fillContainer (fillThumbprint (fillSubject
        ((split ['\n'] block).foldl readField [])))
      if info = [] then none else some info

/-! ## §3 Commands -/

/-- A command with what it is about. -/
inductive Command where
  | list
  | installPfx (file container pin : Chars)
  | installCer (file container : Chars)
  | passwd (container pin : Chars)
  | exportPfx (container dest pin : Chars)
  | exportCer (container dest : Chars)
  | exportCerBy (thumbprint dest : Chars)
  | delete (thumbprint : Chars)
  deriving DecidableEq

/-- The paths of the two programs, and what the machine does with a name. -/
structure Site where
  certmgr : Chars
  csptest : Chars
  /-- `Path(path).exists()` -/
  exists_ : Chars → Bool
  /-- `str.lower` -/
  lower : Chars → Chars

/-- A part of a command that is always the same. -/
def lit (s : String) : Chars := s.toList

/-- Between quotes, as the commands are written. -/
def q (s : Chars) : Chars := '"' :: (s ++ ['"'])

/-- The text of a command. -/
def Command.text (site : Site) : Command → Chars
  | .list => q site.certmgr ++ lit " -list"
  | .installPfx file container pin =>
      q site.certmgr ++ lit " -install -store uMy -file " ++ q file ++
        lit " -pfx -container " ++ q container ++ lit " -silent -keep_exportable -pin " ++ pin
  | .installCer file container =>
      q site.certmgr ++ lit " -install -store uMy -file " ++ q file ++
        lit " -certificate -container " ++ q container ++ lit " -silent -inst_to_cont"
  | .passwd container pin =>
      q site.csptest ++ lit " -passwd -container " ++ q container ++ lit " -change " ++ pin
  | .exportPfx container dest pin =>
      q site.certmgr ++ lit " -export -container " ++ q container ++ lit " -dest " ++ q dest ++
        lit " -pfx -keep_exportable -pin " ++ pin
  | .exportCer container dest =>
      q site.certmgr ++ lit " -export -container " ++ q container ++ lit " -dest " ++ q dest
  | .exportCerBy thumbprint dest =>
      q site.certmgr ++ lit " -export -thumbprint " ++ q thumbprint ++ lit " -dest " ++ q dest
  | .delete thumbprint => q site.certmgr ++ lit " -delete -thumbprint " ++ q thumbprint

/-- `f'chcp 1251 && {command}'` -/
def Command.full_command (site : Site) (c : Command) : Chars :=
  lit "chcp 1251 && " ++ c.text site

/-- A text with a NUL cannot be given to a program: that is an exception. -/
def Command.startable (site : Site) (c : Command) : Bool := !(c.full_command site).contains '\x00'

/-! ## §4 Scripts -/

/-- How the shell ended. -/
inductive Outcome where
  /-- It could not be started or read. -/
  | failed
  | ended (stdout stderr : Chars)

/-- What a command leaves behind: its outcome, and the file that it was to write. -/
structure Reply where
  outcome : Outcome
  /-- `none` if there is no file, or none that can be read. -/
  file : Option Bytes

/-- `_run_async` behind the shell: what it returns, and whether it ends the service. -/
def _run_async : Outcome → Chars × Bool
  | .failed => ([], false)
  | .ended out err =>
      if strip err = [] then if cspMissing out then ([], true) else (out, false)
      else if cspMissing err then ([], true)
      else
        let out := out ++ '\n' :: err
        if cspMissing out then ([], true) else (out, false)

/-- What a script is told: the text that `_run_async` returned, and the file. -/
structure Heard where
  output : Chars
  file : Option Bytes

/-- A method. It asks for a command, with the content of the file that it has written for it. -/
inductive Script (β : Type) where
  | done (answer : β)
  | ask (command : Command) (input : Bytes) (go : Heard → Script β)

variable {β γ : Type}

def Script.bind : Script β → (β → Script γ) → Script γ
  | .done b, f => f b
  | .ask c input go, f => .ask c input fun heard => (go heard).bind f

/-- The state of a run: of the tools, whether the service has ended, and what the shell was given. -/
structure Run (σ : Type) where
  state : σ
  _terminated : Bool
  given : List Command

/-- The shell, with the state of what it starts. -/
abbrev Shell (σ : Type) := σ → Command → Bytes → Reply × σ

variable {σ : Type}

/-- `_run_async`. A temporary file that nobody writes is empty. -/
def Run.ask (site : Site) (shell : Shell σ) (r : Run σ) (c : Command) (input : Bytes) :
    Heard × Run σ :=
  if r._terminated || !c.startable site then (⟨[], some []⟩, r)
  else
    let reply := shell r.state c input
    let result := _run_async reply.1.outcome
    (⟨result.1, reply.1.file⟩, ⟨reply.2, result.2, r.given ++ [c]⟩)

def Script.run (site : Site) (shell : Shell σ) : Script β → Run σ → β × Run σ
  | .done b, r => (b, r)
  | .ask c input go, r =>
      let heard := r.ask site shell c input
      (go heard.1).run site shell heard.2

/-! ## §5 The methods -/

/-- The part of an answer that is used: `success`, `container` and the exported file. -/
structure Answer where
  success : Bool
  container : Chars
  file : Bytes

def Answer.failure : Answer := ⟨false, [], []⟩

/-- Names that are new: of temporary files, of containers, and a password. -/
structure Fresh where
  tmp_path : Nat → Chars
  auto_container : Nat → Chars
  one_time_password : Chars

def list_certificates : Script (List Info) :=
  .ask .list [] fun heard =>
    .done (if strip heard.output = [] then [] else _parse_certificate_list heard.output)

def find_certificate_by_subject (site : Site) (subject_pattern : Chars) : Script Info :=
  list_certificates.bind fun certs =>
    .done ((certs.find? fun info =>
      (Dict.lookup "Subject".toList info).any fun subject =>
        occurs (site.lower subject_pattern) (site.lower subject)).getD [])

def deploy_certificate (site : Site) (fresh : Fresh) (pfx_path cer_path pin : Chars) :
    Script Answer :=
  if !site.exists_ pfx_path || !site.exists_ cer_path then .done .failure
  else
    .ask (.installPfx pfx_path (fresh.auto_container 0) pin) [] fun heard =>
      let pfx_error := _extract_error_code heard.output
      let found := _extract_container heard.output
      let container :=
        if found = [] ∧ pfx_error = success then fresh.auto_container 0 else found
      if pfx_error ≠ success then .done ⟨false, container, []⟩
      else
        .ask (.installCer cer_path container) [] fun heard =>
          if _extract_error_code heard.output ≠ success then .done ⟨false, container, []⟩
          else
            .ask (.passwd container pin) [] fun heard =>
              .done ⟨decide (_extract_error_code heard.output = success), container, []⟩

/-- The end of both exports. -/
def exported (heard : Heard) : Answer :=
  if _extract_error_code heard.output ≠ success then .failure
  else heard.file.elim .failure fun file => ⟨true, [], file⟩

def export_certificate_pfx (fresh : Fresh) (container_name password : Chars) : Script Answer :=
  .ask (.exportPfx container_name (fresh.tmp_path 0) password) [] fun heard =>
    .done (exported heard)

def export_certificate_cer (fresh : Fresh) (container_name thumbprint : Chars) : Script Answer :=
  if container_name = [] ∧ thumbprint = [] then .done .failure
  else
    let command :=
      if container_name ≠ [] then .exportCer container_name (fresh.tmp_path 1)
      else .exportCerBy thumbprint (fresh.tmp_path 1)
    .ask command [] fun heard => .done (exported heard)

def export_certificate_by_subject (site : Site) (fresh : Fresh) (subject_pattern password : Chars) :
    Script (Answer × Answer) :=
  (find_certificate_by_subject site subject_pattern).bind fun cert =>
    if cert = [] then .done (.failure, .failure)
    else
      let container := cert.field "Container"
      let pfx :=
        if container ≠ [] then export_certificate_pfx fresh container password
        else .done .failure
      pfx.bind fun pfx_result =>
        (export_certificate_cer fresh container (cert.field "Thumbprint")).bind fun cer_result =>
          .done (pfx_result, cer_result)

def delete_certificate (thumbprint : Chars) : Script Answer :=
  if thumbprint = [] then .done .failure
  else
    .ask (.delete thumbprint) [] fun heard =>
      .done ⟨decide (_extract_error_code heard.output = success), [], []⟩

/-- `pfx` is what `b64decode` makes of the data; `none` is an exception. -/
def install_pfx_from_base64 (fresh : Fresh) (pfx : Option Bytes)
    (password container_name : Chars) : Script Answer :=
  match pfx with
  | none => .done .failure
  | some pfx =>
      let container_name :=
        if container_name = [] then fresh.auto_container 0 else container_name
      .ask (.installPfx (fresh.tmp_path 0) container_name password) pfx fun heard =>
        let error := _extract_error_code heard.output
        let found := _extract_container heard.output
        let container := if found = [] ∧ error = success then container_name else found
        if error = success then .done ⟨true, container, []⟩ else .done .failure

/-- `idx` counts the items before; `new_pwd` is `new_password or current_password`. -/
def batchFrom (fresh : Fresh) (current_pwd new_pwd : Chars) :
    Nat → List (Option Bytes) → Script (List Answer)
  | _, [] => .done []
  | idx, none :: rest =>
      (batchFrom fresh current_pwd new_pwd (idx + 1) rest).bind fun results =>
        .done (.failure :: results)
  | idx, some pfx :: rest =>
      let auto_container := fresh.auto_container idx
      .ask (.installPfx (fresh.tmp_path idx) auto_container current_pwd) pfx fun heard =>
        let error := _extract_error_code heard.output
        let found := _extract_container heard.output
        let container := if found = [] ∧ error = success then auto_container else found
        let more (result : Answer) : Script (List Answer) :=
          (batchFrom fresh current_pwd new_pwd (idx + 1) rest).bind fun results =>
            .done (result :: results)
        if error ≠ success then more .failure
        else if new_pwd ≠ current_pwd ∧ container ≠ [] then
          .ask (.passwd container new_pwd) [] fun _ => more ⟨true, container, []⟩
        else more ⟨true, container, []⟩

def batch_install_pfx_from_bytes (fresh : Fresh) (pfx_list : List (Option Bytes))
    (current_pwd new_password : Chars) : Script (List Answer) :=
  batchFrom fresh current_pwd (if new_password = [] then current_pwd else new_password) 0 pfx_list

/-- What the other node answers to `install_from_node`. -/
structure Remote where
  /-- `get_certificate_info`; `none` is an exception. -/
  cert_info : Option Info
  /-- `success` of `export_certificate_pfx`; `none` is an exception. -/
  exported : Option Bool
  /-- `pfx_base64 == ''` -/
  empty : Bool
  /-- What `b64decode` makes of it. -/
  pfx : Option Bytes

/-- `installed` is `entry.installed_locally` of the index. -/
def install_from_node (fresh : Fresh) (remote : Remote) (installed : Bool)
    (thumbprint source_node new_password : Chars) : Script Answer :=
  let new_password := if new_password = [] then "00000000".toList else new_password
  if thumbprint = [] ∨ source_node = [] ∨ installed = true then .done .failure
  else if (remote.cert_info.getD []).field "Container" = [] then .done .failure
  else if remote.exported ≠ some true ∨ remote.empty = true then .done .failure
  else
    (install_pfx_from_base64 fresh remote.pfx fresh.one_time_password []).bind fun result =>
      if !result.success then .done .failure
      else
        let rest : Script Answer :=
          list_certificates.bind fun _ => .done ⟨true, result.container, []⟩
        if new_password ≠ fresh.one_time_password ∧ result.container ≠ [] then
          .ask (.passwd result.container new_password) [] fun _ => rest
        else rest

/-- Steps 2 to 4 of the repair, when the container is known. -/
def relink (fresh : Fresh) (thumbprint password container : Chars) : Script Answer :=
  (export_certificate_pfx fresh container password).bind fun export_result =>
    if !export_result.success then .done .failure
    else if export_result.file = [] then .done .failure
    else
      -- the new installation is tried whether or not the old entry could be removed
      (delete_certificate thumbprint).bind fun _ =>
        .ask (.installPfx (fresh.tmp_path 1) container password) export_result.file fun heard =>
          let found := _extract_container heard.output
          let result_container := if found = [] then container else found
          if _extract_error_code heard.output ≠ success then .done .failure
          else .done ⟨true, result_container, []⟩

/-- The listed certificate with a thumbprint. One that is not listed has no fields. -/
def certificateFor (site : Site) (thumbprint : Chars) (certs : List Info) : Info :=
  (certs.find? fun info =>
    decide (site.lower (info.field "Thumbprint") = site.lower thumbprint)).getD []

def fix_certificate_link (site : Site) (fresh : Fresh) (thumbprint password : Chars) :
    Script Answer :=
  if thumbprint = [] then .done .failure
  else
    list_certificates.bind fun certs =>
      let container := (certificateFor site thumbprint certs).field "Container"
      if container = [] then .done .failure else relink fresh thumbprint password container

end NetPulse.Certs.Tool
