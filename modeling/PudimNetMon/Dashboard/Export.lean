import Mathlib.Algebra.Order.Field.Rat
import Mathlib.Data.List.Infix
import Mathlib.Data.List.Sort
import PudimNetMon.Dashboard.Charts
import PudimNetMon.Lib.Csv
import PudimNetMon.Lib.JsText

/-!
# The exported table (`MetricsTable.tsx`, `csv.ts`)

The table shows metrics that match a search text, sorted, at most 500 of them, and exports what it shows. What depends
on the browser is a parameter: lower case, the comparison of texts, the texts of times and numbers. A time out of the
range of `Date` has no text, and the export throws.

- `export_reads_back`: when it does not throw, who takes only line feeds for line ends reads the header and the rows that
  were shown; who takes carriage returns for them, too, does so exactly when none is in a cell without quotes.
-/

namespace PudimNetMon.Dashboard

/-- What a cell has to be quoted for. -/
def isSpecial (c : Char) : Bool := c == '"' || c == ',' || c == '\n'

def escapeCell (s : List Char) : List Char :=
  if s.any isSpecial then '"' :: (Csv.double s ++ ['"']) else s

/-- The text that `downloadCsv` puts into the file. -/
def downloadCsv (headers : List (List Char)) (rows : List (List (List Char))) : List Char :=
  '\ufeff' :: ['\n'].intercalate
    ([','].intercalate (headers.map escapeCell) :: rows.map fun row => [','].intercalate (row.map escapeCell))

inductive SortKey
  | timeMs
  | agentId
  | checkType
  | target
  | value
  | success
  deriving DecidableEq, Repr

/-- What the user has chosen. -/
structure TableView where
  search : String
  sortKey : SortKey
  asc : Bool

/-- What the browser does. -/
structure Browser where
  toLowerCase : List Char → List Char
  localeCompare : String → String → Int
  /-- None where `toISOString` throws a `RangeError`. -/
  toISOString : ℚ → Option (List Char)
  numberText : Double → List Char

def kMaxRows : Nat := 500

section

variable (browser : Browser) (view : TableView)

/-- `search.trim().toLowerCase()` -/
def TableView.query : List Char := browser.toLowerCase (Js.trim view.search.toList)

def TableView.matching (m : MetricPoint) : Bool :=
  [m.agentId, m.target, m.checkType].any fun v => decide (view.query browser <:+: browser.toLowerCase v.toList)

def TableView.filtered (metrics : List MetricPoint) : List MetricPoint :=
  if view.query browser ≠ [] then metrics.filter (view.matching browser) else metrics

/-- What `sort` makes of a comparison: NaN counts as zero. -/
def comparison (d : Double) : ℚ := if d.isNaN || d.mag == 0 then 0 else if d.neg then -1 else 1

/-- The comparison that `sort` is given. -/
def TableView.order (a b : MetricPoint) : ℚ :=
  (match view.sortKey with
    | .value => comparison (a.value.sub b.value)
    | .success => (if a.success then 1 else 0) - (if b.success then 1 else 0)
    | .timeMs => a.timeMs - b.timeMs
    | .agentId => browser.localeCompare a.agentId b.agentId
    | .checkType => browser.localeCompare a.checkType b.checkType
    | .target => browser.localeCompare a.target b.target) * if view.asc then 1 else -1

/-- With a NaN among the values the order is the browser's own; the export depends on none. -/
def TableView.rows (metrics : List MetricPoint) : List MetricPoint :=
  ((view.filtered browser metrics).mergeSort fun a b => decide (view.order browser a b ≤ 0)).take kMaxRows

end

def csvHeader : List (List Char) :=
  ["time", "agent_id", "check_type", "target", "success", "value"].map String.toList

/-- The cells of a metric whose time has a text. -/
def cellsOf (browser : Browser) (time : List Char) (m : MetricPoint) : List (List Char) :=
  [time, m.agentId.toList, m.checkType.toList, m.target.toList, (if m.success then "ok" else "fail").toList,
    browser.numberText m.value]

def csvRow (browser : Browser) (m : MetricPoint) : Option (List (List Char)) :=
  (browser.toISOString m.timeMs).map fun time => cellsOf browser time m

/-- What the export button saves, or that it throws. -/
def exportCsv (browser : Browser) (rows : List MetricPoint) : Option (List Char) :=
  (rows.mapM (csvRow browser)).map (downloadCsv csvHeader)

/-- A spreadsheet drops the byte order mark; `cr` says whether it takes carriage returns for line ends. -/
def openCsv (cr : Bool) (file : List Char) : List (List (List Char)) :=
  Csv.read cr (if file.head? = some '\ufeff' then file.tail else file)

theorem escapeCell_eq : escapeCell = Csv.cellText fun cell => cell.any isSpecial := rfl

theorem careful_special : Csv.Careful fun cell => cell.any isSpecial := by
  intro cell hcell c hc
  have hplain : isSpecial c = false := by
    rw [List.any_eq_false] at hcell
    exact Bool.eq_false_iff.2 (hcell c hc)
  simpa [isSpecial, and_assoc] using hplain

/-- A spreadsheet opens what is saved with the cells that were written. -/
theorem openCsv_downloadCsv (cr : Bool) (headers : List (List Char)) (rows : List (List (List Char))) :
    openCsv cr (downloadCsv headers rows) =
      Csv.read cr (Csv.write (fun cell => cell.any isSpecial) (headers :: rows)) := by
  rw [openCsv, downloadCsv, List.head?_cons, if_pos rfl, List.tail_cons, escapeCell_eq]
  rfl

/-- No cell of some rows holds a carriage return without a character that it is quoted for. -/
def NoStrayReturn (rows : List (List (List Char))) : Prop :=
  ∀ row ∈ rows, ∀ cell ∈ row, '\r' ∈ cell → ∃ c ∈ cell, isSpecial c = true

theorem sealed_iff (rows : List (List (List Char))) :
    Csv.Sealed (fun cell => cell.any isSpecial) (csvHeader :: rows) ↔ NoStrayReturn rows := by
  have hheader : ∀ cell ∈ csvHeader, '\r' ∉ cell := by decide
  unfold Csv.Sealed NoStrayReturn
  rw [List.forall_mem_cons]
  constructor
  · rintro ⟨-, h⟩ row hrow cell hcell hmem
    by_contra hnone
    refine h row hrow cell hcell ?_ hmem
    rw [List.any_eq_false]
    exact fun c hc hspecial => hnone ⟨c, hc, hspecial⟩
  · intro h
    refine ⟨fun cell hcell _ => hheader cell hcell, fun row hrow cell hcell hbare hmem => ?_⟩
    obtain ⟨c, hc, hspecial⟩ := h row hrow cell hcell hmem
    rw [List.any_eq_false] at hbare
    exact hbare c hc hspecial

/-- A row has no cells exactly when its time has no text. -/
theorem csvRow_eq_none {browser : Browser} {m : MetricPoint} :
    csvRow browser m = none ↔ browser.toISOString m.timeMs = none := Option.map_eq_none_iff

theorem mapM_eq_some {α β : Type} {f : α → Option β} {xs : List α} {ys : List β} :
    xs.mapM f = some ys ↔ xs.map f = ys.map some := by
  induction xs generalizing ys with
  | nil => cases ys <;> simp
  | cons x xs ih =>
    rw [List.mapM_cons]
    cases hx : f x with
    | none => cases ys <;> simp [hx]
    | some y =>
      cases hxs : xs.mapM f with
      | none =>
        cases ys with
        | nil => simp
        | cons y' ys =>
          have hnone : xs.map f ≠ ys.map some := fun h => by simpa [hxs] using ih.2 h
          simp [hx, hnone]
      | some zs =>
        have hrest := ih.1 hxs
        cases ys with
        | nil => simp
        | cons y' ys =>
          have hinj : Function.Injective (List.map (some : β → Option β)) :=
            List.map_injective_iff.2 (Option.some_injective β)
          simp [hx, hrest, hinj.eq_iff]

theorem mapM_eq_none {α β : Type} {f : α → Option β} {xs : List α} : xs.mapM f = none ↔ ∃ x ∈ xs, f x = none := by
  induction xs with
  | nil => simp
  | cons x xs ih =>
    rw [List.mapM_cons, List.exists_mem_cons_iff, ← ih]
    cases f x with
    | none => simp
    | some y => cases xs.mapM f <;> simp

/-- What a saved file says of the rows that it was made of. -/
structure Readable (browser : Browser) (rows : List MetricPoint) (file : List Char) (table : List (List (List Char))) :
    Prop where
  /-- One line for each row, in its order. -/
  lines : rows.map (csvRow browser) = table.map some
  feeds : openCsv false file = csvHeader :: table
  returns : openCsv true file = csvHeader :: table ↔ NoStrayReturn table

structure ReadsBack (browser : Browser) (view : TableView) (metrics : List MetricPoint) : Prop where
  /-- What is shown: all that matches, or 500 of it. -/
  shown : ∃ rest, (view.rows browser metrics ++ rest).Perm (view.filtered browser metrics)
  count : (view.rows browser metrics).length = min kMaxRows (view.filtered browser metrics).length
  throws : exportCsv browser (view.rows browser metrics) = none ↔
    ∃ m ∈ view.rows browser metrics, browser.toISOString m.timeMs = none
  saves : ∀ file, exportCsv browser (view.rows browser metrics) = some file →
    ∃ table, Readable browser (view.rows browser metrics) file table

theorem readable_download {browser : Browser} {rows : List MetricPoint} {table : List (List (List Char))}
    (h : rows.map (csvRow browser) = table.map some) : Readable browser rows (downloadCsv csvHeader table) table := by
  have hlong : ∀ row ∈ csvHeader :: table, 2 ≤ row.length := by
    rw [List.forall_mem_cons]
    refine ⟨by decide, fun row hrow => ?_⟩
    have hmem : some row ∈ rows.map (csvRow browser) := h ▸ List.mem_map_of_mem hrow
    obtain ⟨m, -, hm⟩ := List.mem_map.1 hmem
    obtain ⟨time, -, rfl⟩ := Option.map_eq_some_iff.1 hm
    simp [cellsOf]
  refine ⟨h, ?_, ?_⟩
  · rw [openCsv_downloadCsv]
    exact Csv.read_write careful_special hlong (by simp)
  · rw [openCsv_downloadCsv, Csv.read_write_iff careful_special hlong, sealed_iff]

/-- **Main.** For all metrics, whatever the user has chosen. -/
theorem export_reads_back (browser : Browser) (view : TableView) (metrics : List MetricPoint) :
    ReadsBack browser view metrics := by
  constructor
  · refine ⟨((view.filtered browser metrics).mergeSort fun a b => decide (view.order browser a b ≤ 0)).drop kMaxRows,
      ?_⟩
    rw [TableView.rows, List.take_append_drop]
    apply List.mergeSort_perm
  · rw [TableView.rows, List.length_take, List.length_mergeSort]
  · rw [exportCsv, Option.map_eq_none_iff, mapM_eq_none]
    simp only [csvRow_eq_none]
  · intro file hfile
    obtain ⟨table, htable, rfl⟩ := Option.map_eq_some_iff.1 hfile
    exact ⟨table, readable_download (mapM_eq_some.1 htable)⟩

end PudimNetMon.Dashboard
