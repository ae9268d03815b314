import Mathlib.Data.List.Perm.Subperm
import NetPulse.Lib.Machine
import NetPulse.Lib.UniqueRows
import NetPulse.Server.Gate

/-
# NetPulse.Inventory.CveCache — known vulnerabilities of products (`cve.py`)

`check_products` asks the service for each product, and takes what it has noted in `sw_cve` for a
day instead. What is noted is deleted and inserted again by statements of which each is committed for
itself, and of which each can fail without a word (`execute`).

`complete_of_refreshed`: as long as every refresh has deleted what was there, has then inserted all
or nothing, and was about at most twenty identifiers that are texts, whatever is answered from the
table is the complete answer to an earlier question. `half_answer` is a refresh whose second insert
fails: for a day, the product has one of its two vulnerabilities.

Left out: the waiting between requests, and how the request is made.
-/

namespace NetPulse.Inventory.CveCache

open NetPulse.Lib NetPulse.Lib.Json
open NetPulse.Gate (stripBlank)

/-! ## §1 The table -/

/-- A row of `sw_cve`; the rows are listed by their `id`. -/
structure Row where
  product : String
  version : String
  cve : Option String
  severity : Option String
  summary : Option String
  checked_at : String
  deriving DecidableEq

/-- `UNIQUE(product, version, cve)` -/
def Row.key (row : Row) : Option (String × String × String) :=
  row.cve.map fun id => (row.product, row.version, id)

/-- `product = ? AND version = ?` -/
def Row.isOf (product version : String) (row : Row) : Bool :=
  decide (row.product = product ∧ row.version = version)

/-- `WHERE product = ? AND version = ? AND checked_at > ? ORDER BY id DESC LIMIT 20` -/
def cachedRows (table : List Row) (product version cutoff : String) : List Row :=
  ((table.filter (Row.isOf product version)).filter
    fun row => decide (cutoff < row.checked_at)).reverse.take 20

section

variable {Num : Type} [Truth Num]

/-! ## §2 The answer of the service -/

/-- An entry of the answer. -/
structure Result (Num : Type) where
  cve : Json Num
  severity : Json Num
  summary : Json Num

/-- What a `for` goes through; `none` when it raises. -/
def iterate : Json Num → Option (List (Json Num))
  | .list items => some items
  | .obj entries => some (entries.map fun e => .str e.1)
  | .str s => some (s.toList.map fun c => .str (String.singleton c))
  | _ => none

/-- `cve.get("metrics", {}).get("cvssMetricV31", [{}])[0].get("cvssData", {}).get("baseSeverity")`;
`none` when that raises. -/
def baseSeverity (cve : Entries Num) : Option (Json Num) :=
  match (Dict.lookup "metrics" cve).getD (.obj []) with
  | .obj metrics =>
      match (Dict.lookup "cvssMetricV31" metrics).getD (.list [.obj []]) with
      | .list (.obj first :: _) =>
          match (Dict.lookup "cvssData" first).getD (.obj []) with
          | .obj data => Dict.lookup "baseSeverity" data
          | _ => none
      | _ => none
  | _ => none

/-- The first description in English; `none` when one before it is no object. -/
def description : List (Json Num) → Option (Json Num)
  | [] => some (.str "")
  | .obj d :: rest =>
      match Dict.lookup "lang" d with
      | some (.str "en") => some ((Dict.lookup "value" d).getD (.str ""))
      | _ => description rest
  | _ :: _ => none

/-- `desc[:300]`; `none` when that raises. -/
def cut : Json Num → Option (Json Num)
  | .str s => some (.str (String.ofList (s.toList.take 300)))
  | .list items => some (.list (items.take 300))
  | _ => none

def resultOf : Json Num → Option (Result Num)
  | .obj item =>
      match (Dict.lookup "cve" item).getD (.obj []) with
      | .obj cve =>
          (iterate ((Dict.lookup "descriptions" cve).getD (.list []))).bind fun each =>
            (description each).bind fun desc => (cut desc).map fun summary =>
              { cve := (Dict.lookup "id" cve).getD (.str "")
                severity := ((baseSeverity cve).filter truthy).getD (.str "?")
                summary := summary }
      | _ => none
  | _ => none

/-- `_query`, for the body of the reply; `none` when it raises. -/
def _query : Json Num → Option (List (Result Num))
  | .obj data =>
      (iterate ((Dict.lookup "vulnerabilities" data).getD (.list []))).bind fun items =>
        items.mapM resultOf
  | _ => none

/-! ## §3 `check_products` -/

/-- What happens to the statements and to the request for one product. -/
structure Env (Num : Type) where
  /-- The cache can be read. -/
  selects : Bool
  /-- The body of the reply, if one came and could be read. -/
  reply : Option (Json Num)
  /-- The `DELETE` is committed. -/
  deletes : Bool
  /-- Which of the `INSERT`s are committed. -/
  inserts : Nat → Bool

/-- An entry of what is returned. -/
structure Found (Num : Type) where
  product : String
  version : String
  cve : Json Num
  severity : Json Num
  summary : Json Num
  checked_at : Option String

def Row.found (row : Row) : Found Num where
  product := row.product
  version := row.version
  cve := row.cve.elim .null .str
  severity := row.severity.elim .null .str
  summary := row.summary.elim .null .str
  checked_at := some row.checked_at

def Result.found (product version : String) (r : Result Num) : Found Num where
  product := product
  version := version
  cve := r.cve
  severity := r.severity
  summary := r.summary
  checked_at := none

/-- The identifiers that the service gave for a product. -/
structure Answer (Num : Type) where
  product : String
  version : String
  cves : List (Json Num)

/-- The table, and for the record all answers of the service. -/
structure State (Num : Type) where
  table : List Row
  last_error : String
  answers : List (Answer Num)

def UNCHECKED : String :=
  "Часть продуктов не проверена; отсутствие результата не означает отсутствие уязвимостей"

-- A number as the column has it: `none` if it cannot be bound, `some none` for NULL.
variable (sqlText : Num → Option (Option String))

/-- A value as a column of texts has it. -/
def column : Json Num → Option (Option String)
  | .null => some none
  | .bool b => some (some (if b then "1" else "0"))
  | .num n => sqlText n
  | .str s => some (some s)
  | .list _ => none
  | .obj _ => none

/-- The rows to insert, `none` for one with a value that cannot be bound; that there is nothing to
note is a row without identifier. -/
def rowsOf (product version now : String) (results : List (Result Num)) : List (Option Row) :=
  if results.isEmpty then [some ⟨product, version, none, none, none, now⟩]
  else results.map fun r =>
    (column sqlText r.cve).bind fun cve => (column sqlText r.severity).bind fun severity =>
      (column sqlText r.summary).map fun summary => ⟨product, version, cve, severity, summary, now⟩

/-- The rows whose `INSERT` is committed. -/
def committed (inserts : Nat → Bool) : List (Option Row) → List Row
  | [] => []
  | some row :: rest =>
      if inserts 0 then row :: committed (fun i => inserts (i + 1)) rest
      else committed (fun i => inserts (i + 1)) rest
  | none :: rest => committed (fun i => inserts (i + 1)) rest

/-- `DELETE`, then `INSERT OR IGNORE` for each row. -/
def refresh (table : List Row) (product version now : String) (env : Env Num)
    (results : List (Result Num)) : List Row :=
  (committed env.inserts (rowsOf sqlText product version now results)).foldl
    (insertOrIgnore Row.key)
    (if env.deletes then table.filter fun row => !row.isOf product version else table)

/-- The state after a refresh. -/
def refreshed (s : State Num) (product version now : String) (env : Env Num)
    (results : List (Result Num)) : State Num :=
  { s with
    table := refresh sqlText s.table product version now env results
    answers := ⟨product, version, results.map Result.cve⟩ :: s.answers }

/-- What the cache has for a product. -/
def cached (table : List Row) (product version cutoff : String) (env : Env Num) : List Row :=
  if env.selects then cachedRows table product version cutoff else []

/-- `if c["cve"]` -/
def Row.isCve (row : Row) : Bool := row.cve.any fun id => decide (id ≠ "")

/-- One turn of the loop. -/
def lookup (now cutoff product version : String) (env : Env Num) (s : State Num) :
    State Num × List (Found Num) :=
  let name := stripBlank product
  let ver := stripBlank version
  if name = "" then (s, [])
  else
    let rows := cached s.table name ver cutoff env
    if rows ≠ [] then (s, (rows.filter Row.isCve).map Row.found)
    else
      match env.reply.bind _query with
      | none => ({ s with last_error := UNCHECKED }, [])
      | some results =>
          (refreshed sqlText s name ver now env results, results.map (Result.found name ver))

/-- `check_products(products)` -/
def check_products (now cutoff : String) (products : List (String × String × Env Num))
    (s : State Num) : State Num × List (Found Num) :=
  products.foldl
    (fun acc p =>
      let next := lookup sqlText now cutoff p.1 p.2.1 p.2.2 acc.1
      (next.1, acc.2 ++ next.2))
    ({ s with last_error := "" }, [])

/-! ## §4 Runs -/

/-- A call begins, or takes its next product. -/
inductive Event (Num : Type) where
  | begin
  | lookup (now cutoff product version : String) (env : Env Num)

def machine : Machine (State Num) (Event Num) where
  step s
    | .begin => some { s with last_error := "" }
    | .lookup now cutoff product version env =>
        some (lookup sqlText now cutoff product version env s).1

def init : State Num := ⟨[], "", []⟩

/-- A call is the run of its turns. -/
theorem run_check_products (now cutoff : String) (products : List (String × String × Env Num))
    (s : State Num) :
    (machine sqlText).run s
        (.begin :: products.map fun p => .lookup now cutoff p.1 p.2.1 p.2.2) =
      some (check_products sqlText now cutoff products s).1 := by
  have hturns : ∀ (found : List (Found Num)) (s : State Num),
      (machine sqlText).run s (products.map fun p => .lookup now cutoff p.1 p.2.1 p.2.2) =
        some (products.foldl (fun acc p =>
          ((lookup sqlText now cutoff p.1 p.2.1 p.2.2 acc.1).1,
            acc.2 ++ (lookup sqlText now cutoff p.1 p.2.1 p.2.2 acc.1).2)) (s, found)).1 := by
    induction products with
    | nil => exact fun _ _ => rfl
    | cons p rest ih =>
        intro found s
        rw [List.map_cons, List.foldl_cons]
        exact (Machine.run_cons_eq_some _).mpr ⟨_, rfl, ih _ _⟩
  exact hturns [] _

/-- Whatever would be answered from the table is the complete answer to an earlier question. -/
def Consistent (s : State Num) : Prop :=
  ∀ now cutoff product version env, stripBlank product ≠ "" →
    cached s.table (stripBlank product) (stripBlank version) cutoff env ≠ [] →
    ∃ a ∈ s.answers, a.product = stripBlank product ∧ a.version = stripBlank version ∧
      ∀ value, value ∈ (lookup sqlText now cutoff product version env s).2.map Found.cve ↔
        value ∈ a.cves

/-- The service was asked and gave no answer. -/
def Failed (s : State Num) : Event Num → Prop
  | .begin => False
  | .lookup _ cutoff product version env =>
      stripBlank product ≠ "" ∧
        cached s.table (stripBlank product) (stripBlank version) cutoff env = [] ∧
        env.reply.bind _query = none

/-- A failure is noted until the next call begins, and changes nothing else. -/
structure FailureNoted (s : State Num) (e : Event Num) (s' : State Num) : Prop where
  failed : Failed s e → s'.table = s.table ∧ s'.answers = s.answers ∧ s'.last_error = UNCHECKED
  stays : e ≠ .begin → s.last_error = UNCHECKED → s'.last_error = UNCHECKED

/-- Nothing was inserted; or what was there is gone, every identifier of the answer was inserted, and
they are at most twenty texts. -/
def Whole (table : List Row) (product version now : String) (env : Env Num)
    (results : List (Result Num)) : Prop :=
  let rows := committed env.inserts (rowsOf sqlText product version now results)
  rows = [] ∨
    (env.deletes = true ∨ table.filter (Row.isOf product version) = []) ∧
      (∀ r ∈ results, ∃ row ∈ rows, row.cve.elim .null .str = r.cve) ∧
      ∃ ids : List String, ids.length ≤ 20 ∧ "" ∉ ids ∧ ∀ r ∈ results, ∃ id ∈ ids, r.cve = .str id

/-- The condition of a step. -/
def Refreshed (s : State Num) : Event Num → Prop
  | .begin => True
  | .lookup now cutoff product version env =>
      stripBlank product ≠ "" →
        cached s.table (stripBlank product) (stripBlank version) cutoff env = [] →
        ∀ results, env.reply.bind _query = some results →
          Whole sqlText s.table (stripBlank product) (stripBlank version) now env results

/-! ## §5 What a refresh leaves -/

/-- The identifiers that are told of some rows. -/
def reported (rows : List Row) : List (Json Num) :=
  (rows.filter Row.isCve).map fun row => row.cve.elim .null .str

variable {sqlText} {s s' : State Num} {rows : List Row} {value : Json Num}
  {now cutoff product version : String} {env : Env Num} {results : List (Result Num)}

omit [Truth Num] in
theorem mem_reported :
    value ∈ reported rows ↔ ∃ row ∈ rows, ∃ id, row.cve = some id ∧ id ≠ "" ∧ value = .str id := by
  rw [reported, List.mem_map]
  constructor
  · rintro ⟨row, hrow, rfl⟩
    obtain ⟨hrow, hcve⟩ := List.mem_filter.mp hrow
    rcases hid : row.cve with _ | id
    · simp [Row.isCve, hid] at hcve
    · rw [Row.isCve, hid] at hcve
      exact ⟨row, hrow, id, hid, of_decide_eq_true hcve, rfl⟩
  · rintro ⟨row, hrow, id, hid, hne, rfl⟩
    refine ⟨row, List.mem_filter.mpr ⟨hrow, ?_⟩, by rw [hid]; rfl⟩
    rw [Row.isCve, hid]
    exact decide_eq_true hne

theorem lookup_cached (hname : stripBlank product ≠ "")
    (h : cached s.table (stripBlank product) (stripBlank version) cutoff env ≠ []) :
    (lookup sqlText now cutoff product version env s).2.map Found.cve =
      reported (cached s.table (stripBlank product) (stripBlank version) cutoff env) := by
  simp [lookup, hname, h, reported, Row.found, Function.comp_def]

/-- The rows of a product: all from one refresh, complete, and no more than are read. -/
def KeptRows (answers : List (Answer Num)) (product version : String) (rows : List Row) : Prop :=
  rows = [] ∨ rows.length ≤ 20 ∧ (∃ time, ∀ row ∈ rows, row.checked_at = time) ∧
    ∃ a ∈ answers, a.product = product ∧ a.version = version ∧
      ∀ value, value ∈ reported rows ↔ value ∈ a.cves

def Kept (s : State Num) : Prop :=
  ∀ product version,
    KeptRows s.answers product version (s.table.filter (Row.isOf product version))

/-- Then the cache has all of the rows or none. -/
theorem cachedRows_of_kept {table : List Row} {time : String}
    (hcount : (table.filter (Row.isOf product version)).length ≤ 20)
    (htime : ∀ row ∈ table.filter (Row.isOf product version), row.checked_at = time) :
    cachedRows table product version cutoff = [] ∨
      cachedRows table product version cutoff =
        (table.filter (Row.isOf product version)).reverse := by
  rw [cachedRows]
  by_cases hcutoff : cutoff < time
  · right
    rw [List.filter_eq_self.mpr fun row hrow => ?_, List.take_of_length_le (by simpa using hcount)]
    rw [htime row hrow]
    exact decide_eq_true hcutoff
  · left
    rw [List.filter_eq_nil_iff.mpr fun row hrow => ?_]
    · rfl
    · rw [htime row hrow]
      simpa using hcutoff

theorem consistent_of_kept (h : Kept s) : Consistent sqlText s := by
  intro now cutoff product version env hname hcached
  rw [lookup_cached hname hcached]
  have hselects : cached s.table (stripBlank product) (stripBlank version) cutoff env =
      cachedRows s.table (stripBlank product) (stripBlank version) cutoff := by
    rw [cached] at hcached ⊢
    split_ifs at hcached ⊢
    · rfl
    · exact absurd rfl hcached
  rw [hselects] at hcached ⊢
  rcases h (stripBlank product) (stripBlank version) with hnone | ⟨hcount, ⟨time, htime⟩, a, ha⟩
  · refine absurd ?_ hcached
    rw [cachedRows, hnone]
    rfl
  · obtain ⟨hmem, hproduct, hversion, hcves⟩ := ha
    refine ⟨a, hmem, hproduct, hversion, fun value => ?_⟩
    rcases cachedRows_of_kept hcount htime with hempty | hall
    · exact absurd hempty hcached
    · rw [hall, ← hcves value, mem_reported, mem_reported]
      simp

/-! ## §6 A step -/

theorem mem_committed {inserts : Nat → Bool} {stored : List (Option Row)} {row : Row}
    (h : row ∈ committed inserts stored) : some row ∈ stored := by
  induction stored generalizing inserts with
  | nil => exact absurd h List.not_mem_nil
  | cons first rest ih =>
      rcases first with _ | first
      · exact List.mem_cons_of_mem _ (ih h)
      · rw [committed] at h
        split_ifs at h
        · rcases List.mem_cons.mp h with rfl | h
          · exact List.mem_cons_self
          · exact List.mem_cons_of_mem _ (ih h)
        · exact List.mem_cons_of_mem _ (ih h)

omit [Truth Num] in
/-- The rows to insert are rows of the product with the time of the call. -/
theorem of_mem_rowsOf {row : Row} (h : some row ∈ rowsOf sqlText product version now results) :
    row.product = product ∧ row.version = version ∧ row.checked_at = now ∧
      (results = [] ∧ row.cve = none ∨ ∃ r ∈ results, column sqlText r.cve = some row.cve) := by
  rw [rowsOf] at h
  split_ifs at h with hempty
  · obtain rfl : row = _ := by simpa using h
    exact ⟨rfl, rfl, rfl, .inl ⟨List.isEmpty_iff.mp hempty, rfl⟩⟩
  · obtain ⟨r, hr, hrow⟩ := List.mem_map.mp h
    obtain ⟨cve, hcve, hrow⟩ := Option.bind_eq_some_iff.mp hrow
    obtain ⟨severity, -, hrow⟩ := Option.bind_eq_some_iff.mp hrow
    obtain ⟨summary, -, rfl⟩ := Option.map_eq_some_iff.mp hrow
    exact ⟨rfl, rfl, rfl, .inr ⟨r, hr, hcve⟩⟩

omit [Truth Num] in
theorem of_mem_committed {row : Row}
    (h : row ∈ committed env.inserts (rowsOf sqlText product version now results)) :
    row.isOf product version = true ∧ row.checked_at = now ∧
      (results = [] ∧ row.cve = none ∨ ∃ r ∈ results, column sqlText r.cve = some row.cve) := by
  obtain ⟨hproduct, hversion, htime, hcve⟩ := of_mem_rowsOf (mem_committed h)
  exact ⟨decide_eq_true ⟨hproduct, hversion⟩, htime, hcve⟩

/-- Two rows with one key are of one product. -/
theorem isOf_of_key (product version : String) (r t : Row) (hkey : (Row.key t).isSome)
    (h : Row.key r = Row.key t) : r.isOf product version = t.isOf product version := by
  obtain ⟨k, hk⟩ := Option.isSome_iff_exists.mp hkey
  rw [hk] at h
  obtain ⟨id, -, hr⟩ := Option.map_eq_some_iff.mp h
  obtain ⟨id', -, ht⟩ := Option.map_eq_some_iff.mp hk
  obtain ⟨hproduct, hversion, -⟩ : r.product = t.product ∧ r.version = t.version ∧ id = id' := by
    simpa using hr.trans ht.symm
  rw [Row.isOf, Row.isOf, hproduct, hversion]

omit [Truth Num] in
/-- **The rows of other products** are as they were. -/
theorem filter_refresh_of_ne {table : List Row} {product' version' : String}
    (hne : ¬(product' = product ∧ version' = version)) :
    (refresh sqlText table product version now env results).filter (Row.isOf product' version') =
      table.filter (Row.isOf product' version') := by
  have hother : ∀ row : Row, row.isOf product' version' = true →
      row.isOf product version = false := by
    intro row hrow
    obtain ⟨rfl, rfl⟩ := of_decide_eq_true hrow
    exact decide_eq_false hne
  rw [refresh, UniqueRows.filter_foldl_of_none fun row hrow => ?_]
  · split_ifs
    · rw [List.filter_filter]
      refine List.filter_congr fun row _ => ?_
      by_cases hrow : row.isOf product' version' = true
      · simp [hrow, hother row hrow]
      · simp [hrow]
    · rfl
  · by_contra hisOf
    have hmine := hother row (by simpa using hisOf)
    rw [(of_mem_committed hrow).1] at hmine
    cases hmine

omit [Truth Num] in
/-- **The rows of the product** are what was inserted, if what was there is gone. -/
theorem filter_refresh {table : List Row}
    (hgone : env.deletes = true ∨ table.filter (Row.isOf product version) = []) :
    (refresh sqlText table product version now env results).filter (Row.isOf product version) =
      (committed env.inserts (rowsOf sqlText product version now results)).foldl
        (insertOrIgnore Row.key) [] := by
  rw [refresh, UniqueRows.filter_foldl (fun row hrow => (of_mem_committed hrow).1)
    (isOf_of_key product version)]
  congr 1
  rcases hgone with hdeletes | hnone
  · rw [if_pos hdeletes, List.filter_filter]
    simp
  · split_ifs
    · rw [List.filter_filter]
      simp
    · exact hnone

omit [Truth Num] in
/-- Each inserted row of identifiers that are texts has one of them. -/
theorem cve_of_mem_committed {row : Row} {ids : List String}
    (hids : ∀ r ∈ results, ∃ id ∈ ids, r.cve = .str id) (hsome : results ≠ [])
    (h : row ∈ committed env.inserts (rowsOf sqlText product version now results)) :
    ∃ id ∈ ids, row.cve = some id ∧ ∃ r ∈ results, r.cve = .str id := by
  rcases (of_mem_committed h).2.2 with ⟨hempty, -⟩ | ⟨r, hr, hcolumn⟩
  · exact absurd hempty hsome
  · obtain ⟨id, hid, hcve⟩ := hids r hr
    rw [hcve] at hcolumn
    exact ⟨id, hid, (Option.some.inj hcolumn).symm, r, hr, hcve⟩

theorem key_of_isOf {row : Row} {id : String} (h : row.isOf product version = true)
    (hcve : row.cve = some id) : row.key = some (product, version, id) := by
  obtain ⟨hproduct, hversion⟩ := of_decide_eq_true h
  rw [Row.key, hcve, hproduct, hversion]
  rfl

omit [Truth Num] in
/-- The identifier of an inserted row is in the table: if the row was ignored, it is that of another
with its key. -/
theorem stored_of_committed {row : Row} {id : String}
    (h : row ∈ committed env.inserts (rowsOf sqlText product version now results))
    (hcve : row.cve = some id) :
    ∃ stored ∈ (committed env.inserts (rowsOf sqlText product version now results)).foldl
      (insertOrIgnore Row.key) [], stored.cve = some id := by
  have hkey : (product, version, id) ∈ ((committed env.inserts
      (rowsOf sqlText product version now results)).foldl (insertOrIgnore Row.key) []).filterMap
        Row.key :=
    UniqueRows.mem_keys_foldl.mpr
      (.inr (List.mem_filterMap.mpr ⟨row, h, key_of_isOf (of_mem_committed h).1 hcve⟩))
  obtain ⟨stored, hstored, hstoredkey⟩ := List.mem_filterMap.mp hkey
  obtain ⟨id', hid, heq⟩ := Option.map_eq_some_iff.mp hstoredkey
  obtain rfl : id' = id := congrArg (fun k : String × String × String => k.2.2) heq
  exact ⟨stored, hstored, hid⟩

omit [Truth Num] in
/-- **What is inserted for an answer that is not empty** is one row for each of its identifiers. -/
theorem inserted_of_whole {ids : List String} (hids : ids.length ≤ 20) (hempty : "" ∉ ids)
    (htexts : ∀ r ∈ results, ∃ id ∈ ids, r.cve = .str id) (hsome : results ≠ [])
    (hall : ∀ r ∈ results, ∃ row ∈ committed env.inserts
      (rowsOf sqlText product version now results), row.cve.elim .null .str = r.cve) :
    let rows := (committed env.inserts (rowsOf sqlText product version now results)).foldl
      (insertOrIgnore Row.key) []
    rows.length ≤ 20 ∧ (∀ row ∈ rows, row.checked_at = now) ∧
      ∀ value, value ∈ reported rows ↔ value ∈ results.map Result.cve := by
  intro rows
  have hwritten : ∀ row ∈ rows, row ∈ committed env.inserts
      (rowsOf sqlText product version now results) := fun row hrow =>
    (UniqueRows.mem_of_mem_foldl hrow).resolve_left List.not_mem_nil
  have hid : ∀ row ∈ rows, ∃ id ∈ ids, row.cve = some id ∧ ∃ r ∈ results, r.cve = .str id :=
    fun row hrow => cve_of_mem_committed htexts hsome (hwritten row hrow)
  refine ⟨?_, fun row hrow => (of_mem_committed (hwritten row hrow)).2.1, fun value => ?_⟩
  · -- the rows have different keys, and these are among the identifiers
    have hkeys : ∀ row ∈ rows, ∃ k ∈ ids.map fun id => (product, version, id),
        row.key = some k := by
      intro row hrow
      obtain ⟨id, hmem, hcve, -⟩ := hid row hrow
      exact ⟨_, List.mem_map_of_mem hmem,
        key_of_isOf (of_mem_committed (hwritten row hrow)).1 hcve⟩
    have hnodup : (rows.filterMap Row.key).Nodup := UniqueRows.nodup_foldl List.nodup_nil
    have hle := UniqueRows.length_le_of_keys hnodup hkeys
    rw [List.length_map] at hle
    exact hle.trans hids
  · rw [mem_reported, List.mem_map]
    constructor
    · rintro ⟨row, hrow, id, hcve, -, rfl⟩
      obtain ⟨id', -, hcve', r, hr, hrcve⟩ := hid row hrow
      obtain rfl : id = id' := Option.some.inj (hcve.symm.trans hcve')
      exact ⟨r, hr, hrcve⟩
    · rintro ⟨r, hr, rfl⟩
      obtain ⟨id, hmem, hrcve⟩ := htexts r hr
      obtain ⟨row, hrow, hrowcve⟩ := hall r hr
      obtain ⟨id', -, hcve, -⟩ := cve_of_mem_committed htexts hsome hrow
      rw [hcve, hrcve] at hrowcve
      obtain rfl : id' = id := by simpa using hrowcve
      obtain ⟨stored, hstored, hstoredcve⟩ := stored_of_committed hrow hcve
      exact ⟨stored, hstored, id', hstoredcve, fun h => hempty (h ▸ hmem), hrcve⟩

omit [Truth Num] in
/-- **What is inserted for an empty answer** is a row that says so. -/
theorem inserted_of_empty :
    let rows := (committed env.inserts (rowsOf sqlText product version now [])).foldl
      (insertOrIgnore Row.key) []
    rows.length ≤ 20 ∧ (∀ row ∈ rows, row.checked_at = now) ∧
      ∀ value : Json Num, value ∈ reported rows ↔ value ∈ ([] : List (Json Num)) := by
  intro rows
  have hrows : rows = [] ∨ rows = [⟨product, version, none, none, none, now⟩] := by
    by_cases hinsert : env.inserts 0 = true
    · exact .inr (by simp [rows, rowsOf, committed, hinsert, insertOrIgnore, Row.key])
    · exact .inl (by simp [rows, rowsOf, committed, hinsert])
  rcases hrows with hrows | hrows
  · rw [hrows]
    simp [reported]
  · rw [hrows]
    simp [reported, Row.isCve]

omit [Truth Num] in
theorem KeptRows.cons {answers : List (Answer Num)} (h : KeptRows answers product version rows)
    (a : Answer Num) : KeptRows (a :: answers) product version rows := by
  refine h.imp_right ?_
  rintro ⟨hcount, htime, b, hb, hcves⟩
  exact ⟨hcount, htime, b, List.mem_cons_of_mem a hb, hcves⟩

omit [Truth Num] in
/-- A whole refresh keeps the rows of every product as they should be. -/
theorem kept_refreshed (h : Kept s)
    (hwhole : Whole sqlText s.table product version now env results) :
    Kept (refreshed sqlText s product version now env results) := by
  intro product' version'
  show KeptRows (_ :: s.answers) product' version' ((refresh sqlText s.table product version now env
    results).filter (Row.isOf product' version'))
  by_cases hpair : product' = product ∧ version' = version
  · obtain ⟨rfl, rfl⟩ := hpair
    rcases hwhole with hnone | ⟨hgone, hall, ids, hids, hempty, htexts⟩
    · -- nothing was inserted
      by_cases hdeletes : env.deletes = true
      · rw [filter_refresh (.inl hdeletes), hnone]
        exact .inl rfl
      · rw [refresh, hnone, if_neg hdeletes]
        exact (h product' version').cons _
    · rw [filter_refresh hgone]
      by_cases hsome : results = []
      · subst hsome
        obtain ⟨hcount, htime, hcves⟩ := inserted_of_empty
        exact .inr ⟨hcount, ⟨now, htime⟩, _, List.mem_cons_self, rfl, rfl, hcves⟩
      · obtain ⟨hcount, htime, hcves⟩ := inserted_of_whole hids hempty htexts hsome hall
        exact .inr ⟨hcount, ⟨now, htime⟩, _, List.mem_cons_self, rfl, rfl, hcves⟩
  · rw [filter_refresh_of_ne hpair]
    exact (h product' version').cons _

/-- What a turn can do. -/
theorem lookup_cases (sqlText : Num → Option (Option String))
    (now cutoff product version : String) (env : Env Num) (s : State Num) :
    (¬Failed s (.lookup now cutoff product version env) ∧
        (lookup sqlText now cutoff product version env s).1 = s) ∨
      (Failed s (.lookup now cutoff product version env) ∧
        (lookup sqlText now cutoff product version env s).1 = { s with last_error := UNCHECKED }) ∨
      ∃ results, stripBlank product ≠ "" ∧
        cached s.table (stripBlank product) (stripBlank version) cutoff env = [] ∧
        env.reply.bind _query = some results ∧
        (lookup sqlText now cutoff product version env s).1 =
          refreshed sqlText s (stripBlank product) (stripBlank version) now env results := by
  by_cases hname : stripBlank product = ""
  · exact .inl ⟨fun h => h.1 hname, by simp [lookup, hname]⟩
  by_cases hcached : cached s.table (stripBlank product) (stripBlank version) cutoff env = []
  · rcases hreply : env.reply.bind _query with _ | results
    · exact .inr (.inl ⟨⟨hname, hcached, hreply⟩, by simp [lookup, hname, hcached, hreply]⟩)
    · refine .inr (.inr ⟨results, hname, hcached, rfl, ?_⟩)
      simp [lookup, hname, hcached, hreply]
  · exact .inl ⟨fun h => hcached h.2.1, by simp [lookup, hname, hcached]⟩

/-- **A step keeps the rows** if its refresh is whole. -/
theorem kept_step (s : State Num) (e : Event Num) (s' : State Num) (h : Kept s)
    (hok : Refreshed sqlText s e) (hstep : (machine sqlText).step s e = some s') : Kept s' := by
  rcases e with _ | ⟨now, cutoff, product, version, env⟩
  · obtain rfl := Option.some.inj hstep
    exact h
  · obtain rfl := Option.some.inj hstep
    rcases lookup_cases sqlText now cutoff product version env s with
      ⟨-, hsame⟩ | ⟨-, herror⟩ | ⟨results, hname, hcached, hreply, hnew⟩
    · rw [hsame]
      exact h
    · rw [herror]
      exact h
    · rw [hnew]
      exact kept_refreshed h (hok hname hcached results hreply)

/-- **A failure changes nothing** but the note of it. -/
theorem failureNoted_step (s : State Num) (e : Event Num) (s' : State Num)
    (hstep : (machine sqlText).step s e = some s') : FailureNoted s e s' := by
  rcases e with _ | ⟨now, cutoff, product, version, env⟩
  · exact ⟨False.elim, fun h => absurd rfl h⟩
  · obtain rfl := Option.some.inj hstep
    rcases lookup_cases sqlText now cutoff product version env s with
      ⟨hno, hsame⟩ | ⟨-, herror⟩ | ⟨results, -, -, hreply, hnew⟩
    · rw [hsame]
      exact ⟨fun h => absurd h hno, fun _ h => h⟩
    · rw [herror]
      exact ⟨fun _ => ⟨rfl, rfl, rfl⟩, fun _ _ => rfl⟩
    · rw [hnew]
      refine ⟨fun h => ?_, fun _ h => h⟩
      rw [h.2.2] at hreply
      cases hreply

/-! ## §7 Whole runs -/

omit [Truth Num] in
theorem kept_init : Kept (init : State Num) := fun _ _ => .inl rfl

/-- **Whatever is answered from the table is complete**, in every state of a run whose refreshes are
whole; and in every run, a failure is not noted in the table. -/
theorem complete_of_refreshed (sqlText : Num → Option (Option String)) (es : List (Event Num))
    (hes : (machine sqlText).Guarded (Refreshed sqlText) init es) :
    (machine sqlText).Always (Consistent sqlText) init es ∧
      (machine sqlText).Each FailureNoted init es :=
  ⟨Machine.always_of_guarded (fun _ => consistent_of_kept) kept_step kept_init hes,
    (machine sqlText).guarded_of_forall failureNoted_step init es⟩

end

/-! ## §8 Half an answer -/

section Concrete

/-- An entry of the reply. -/
def vulnerability (id : String) : Json Int := .obj [("cve", .obj [("id", .str id)])]

def twoCves : Json Int :=
  .obj [("vulnerabilities", .list [vulnerability "CVE-1", vulnerability "CVE-2"])]

/-- All goes well, but for the second of the inserts. -/
def secondFails : Env Int := ⟨true, some twoCves, true, fun i => decide (i ≠ 1)⟩

def allGoesWell : Env Int := ⟨true, some twoCves, true, fun _ => true⟩

/-- Numbers are not written. -/
def noNumbers (_ : Int) : Option (Option String) := none

/-- The time, and a day before it. -/
def turn (env : Env Int) : Event Int := .lookup "2026-05-02" "2026-05-01" "App" "1" env

theorem stripBlank_app : stripBlank "App" = "App" := by decide +kernel

theorem stripBlank_one : stripBlank "1" = "1" := by decide +kernel

def halfState : State Int :=
  ⟨[⟨"App", "1", some "CVE-1", some "?", some "", "2026-05-02"⟩], "",
    [⟨"App", "1", [.str "CVE-1", .str "CVE-2"]⟩]⟩

/-- **One of two vulnerabilities** is what is answered afterwards, although the service named both. -/
theorem half_answer :
    (machine noNumbers).run init [.begin, turn secondFails] = some halfState ∧
      ¬Consistent noNumbers halfState := by
  have hlookup : (lookup noNumbers "2026-05-02" "2026-05-01" "App" "1" secondFails init).1 =
      halfState := by
    simp only [lookup, stripBlank_app, stripBlank_one]
    rfl
  refine ⟨?_, fun h => ?_⟩
  · show some (lookup noNumbers "2026-05-02" "2026-05-01" "App" "1" secondFails init).1 = _
    rw [hlookup]
  · obtain ⟨a, ha, -, -, hcves⟩ := h "2026-05-02" "2026-05-01" "App" "1" allGoesWell
      (by decide +kernel) (by decide +kernel)
    obtain rfl : a = _ := List.mem_singleton.mp ha
    have hcached : cached halfState.table (stripBlank "App") (stripBlank "1") "2026-05-01"
        allGoesWell = halfState.table := by decide +kernel
    have hboth := (hcves (.str "CVE-2")).mpr (by simp)
    rw [lookup_cached (by decide +kernel) (by rw [hcached]; decide), hcached, mem_reported]
      at hboth
    simp [halfState] at hboth

theorem query_twoCves : _query twoCves =
    some [⟨.str "CVE-1", .str "?", .str ""⟩, ⟨.str "CVE-2", .str "?", .str ""⟩] := by
  rfl

theorem complete_of_allGoesWell :
    (machine noNumbers).Always (Consistent noNumbers) init [.begin, turn allGoesWell] ∧
      (machine noNumbers).Each FailureNoted init [.begin, turn allGoesWell] := by
  refine complete_of_refreshed noNumbers [.begin, turn allGoesWell]
    ⟨trivial, fun s hs => ⟨fun _ _ results hresults => ?_, fun _ _ => trivial⟩⟩
  obtain rfl : _ = results := Option.some.inj (query_twoCves.symm.trans hresults)
  rw [stripBlank_app, stripBlank_one]
  refine .inr ⟨.inl rfl, ?_, ["CVE-1", "CVE-2"], by decide, by decide, ?_⟩
  · simp [committed, rowsOf, allGoesWell, column]
  · simp

end Concrete

end NetPulse.Inventory.CveCache
