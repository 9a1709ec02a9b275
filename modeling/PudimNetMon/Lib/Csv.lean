import Mathlib.Data.List.Basic

/-!
# Comma-separated values

Rows of cells as a text, and a reader of such texts. A writer quotes some cells, at least those with a quote, a comma or
a line feed in them. Readers differ in whether a carriage return ends a record, alone or in front of a line feed.

- `read_write`: what such a reader makes of the text, when no carriage return stands in a cell without quotes;
- `read_write_iff`: for the readers that heed carriage returns this is needed, too.
-/

namespace PudimNetMon.Csv

/-- Where a reader is. -/
inductive Mode
  /-- In front of a field. -/
  | start
  | bare
  | quoted
  /-- Behind a quote in a quoted field. -/
  | closed
  /-- Behind a carriage return that has ended a record. -/
  | returned
  deriving DecidableEq, Repr

structure Reader where
  mode : Mode := .start
  field : List Char := []
  record : List (List Char) := []
  records : List (List (List Char)) := []
  deriving DecidableEq, Repr

namespace Reader

def endField (r : Reader) : Reader := { r with mode := .start, field := [], record := r.record ++ [r.field] }

def endRecord (r : Reader) (mode : Mode) : Reader := { mode, records := r.records ++ [r.record ++ [r.field]] }

/-- A character outside quotes. -/
def outside (cr : Bool) (r : Reader) (c : Char) : Reader :=
  if c = ',' then r.endField
  else if c = '\n' then r.endRecord .start
  else if cr = true ∧ c = '\r' then r.endRecord .returned
  else { r with mode := .bare, field := r.field ++ [c] }

def step (cr : Bool) (r : Reader) (c : Char) : Reader :=
  match r.mode with
  | .quoted => if c = '"' then { r with mode := .closed } else { r with field := r.field ++ [c] }
  | .closed => if c = '"' then { r with mode := .quoted, field := r.field ++ [c] } else r.outside cr c
  | .start => if c = '"' then { r with mode := .quoted } else r.outside cr c
  | .returned =>
    if c = '\n' then { r with mode := .start } else if c = '"' then { r with mode := .quoted } else r.outside cr c
  | .bare => r.outside cr c

def run (cr : Bool) (r : Reader) (text : List Char) : Reader := text.foldl (step cr) r

/-- The last record needs no line end. -/
def finish (r : Reader) : List (List (List Char)) :=
  if (r.mode = .start ∨ r.mode = .returned) ∧ r.record = [] ∧ r.field = [] then r.records
  else r.records ++ [r.record ++ [r.field]]

theorem run_append (cr : Bool) (r : Reader) (s t : List Char) : r.run cr (s ++ t) = (r.run cr s).run cr t :=
  List.foldl_append

theorem run_cons (cr : Bool) (r : Reader) (c : Char) (s : List Char) : r.run cr (c :: s) = (r.step cr c).run cr s := rfl

end Reader

/-- The rows of a text; `cr` says whether a carriage return ends a record. -/
def read (cr : Bool) (text : List Char) : List (List (List Char)) := (({ } : Reader).run cr text).finish

def double (cell : List Char) : List Char := cell.flatMap fun c => if c = '"' then ['"', '"'] else [c]

section

variable (quotes : List Char → Bool)

def cellText (cell : List Char) : List Char := if quotes cell then '"' :: (double cell ++ ['"']) else cell

def lineText (row : List (List Char)) : List Char := [','].intercalate (row.map (cellText quotes))

def write (rows : List (List (List Char))) : List Char := ['\n'].intercalate (rows.map (lineText quotes))

/-- The writer quotes all cells that it has to. -/
def Careful : Prop := ∀ cell, quotes cell = false → ∀ c ∈ cell, c ≠ '"' ∧ c ≠ ',' ∧ c ≠ '\n'

end

variable {quotes : List Char → Bool} {cr : Bool} {r : Reader}

theorem lineText_cons (cell next : List Char) (row : List (List Char)) :
    lineText quotes (cell :: next :: row) = cellText quotes cell ++ ',' :: lineText quotes (next :: row) := by
  simp [lineText, List.intercalate_cons_cons]

theorem write_cons (row next : List (List Char)) (rows : List (List (List Char))) :
    write quotes (row :: next :: rows) = lineText quotes row ++ '\n' :: write quotes (next :: rows) := by
  simp [write, List.intercalate_cons_cons]

namespace Reader

/-- The inside of a quoted cell. -/
theorem run_double (cell : List Char) (h : r.mode = .quoted) :
    r.run cr (double cell) = { r with field := r.field ++ cell } := by
  induction cell generalizing r with
  | nil => simp [double, run]
  | cons c cell ih =>
    have hcons : double (c :: cell) = (if c = '"' then ['"', '"'] else [c]) ++ double cell := rfl
    rw [hcons, run_append]
    have hstep : r.run cr (if c = '"' then ['"', '"'] else [c]) = { r with field := r.field ++ [c] } := by
      by_cases hc : c = '"'
      · simp [run, step, h, hc]
      · simp [run, step, h, hc]
    have hrest := @ih { r with field := r.field ++ [c] } h
    rw [hstep, hrest]
    simp

/-- A cell in quotes is read whole, with all that stands in it. -/
theorem run_quoted (cell : List Char) (h : r.mode = .start ∨ r.mode = .returned) :
    r.run cr ('"' :: (double cell ++ ['"'])) = { r with mode := .closed, field := r.field ++ cell } := by
  have hopen : r.step cr '"' = { r with mode := .quoted } := by
    rcases h with h | h <;> simp [step, h]
  rw [run_cons, hopen, run_append, run_double cell rfl]
  simp [run, step]

/-- A cell without quotes is read whole when nothing in it means anything to the reader. -/
theorem run_bare {cell : List Char} (h : r.mode = .start ∨ r.mode = .bare)
    (hplain : ∀ c ∈ cell, c ≠ '"' ∧ c ≠ ',' ∧ c ≠ '\n') (hcr : cr = true → '\r' ∉ cell) :
    r.run cr cell = { r with mode := if cell = [] then r.mode else .bare, field := r.field ++ cell } := by
  induction cell generalizing r with
  | nil => simp [run]
  | cons c cell ih =>
    rw [List.forall_mem_cons] at hplain
    obtain ⟨⟨hquote, hcomma, hfeed⟩, hplain⟩ := hplain
    have hreturn : ¬(cr = true ∧ c = '\r') := fun hc => hcr hc.1 (hc.2 ▸ List.mem_cons_self)
    have hstep : r.step cr c = { r with mode := .bare, field := r.field ++ [c] } := by
      rcases h with h | h <;> simp [step, h, hquote, outside, hcomma, hfeed, hreturn]
    rw [run_cons, hstep, ih (.inr rfl) hplain fun hc hmem => hcr hc (List.mem_cons_of_mem _ hmem)]
    simp

/-- The reader is behind a cell, the last one of these. -/
structure Behind (r : Reader) (cells : List (List Char)) (records : List (List (List Char))) : Prop where
  cells : r.record ++ [r.field] = cells
  records : r.records = records
  mode : r.mode = .start ∨ r.mode = .bare ∨ r.mode = .closed

theorem Behind.comma {cells : List (List Char)} {records : List (List (List Char))} (h : Behind r cells records) :
    r.step cr ',' = { record := cells, records } := by
  have hstep : r.step cr ',' = r.endField := by
    rcases h.mode with hm | hm | hm <;> simp [step, hm, outside]
  rw [hstep, endField, h.cells, h.records]

theorem Behind.feed {cells : List (List Char)} {records : List (List (List Char))} (h : Behind r cells records) :
    r.step cr '\n' = { records := records ++ [cells] } := by
  have hstep : r.step cr '\n' = r.endRecord .start := by
    rcases h.mode with hm | hm | hm <;> simp [step, hm, outside]
  rw [hstep, endRecord, h.cells, h.records]

theorem Behind.finish {cells : List (List Char)} {records : List (List (List Char))} (h : Behind r cells records)
    (hcells : 2 ≤ cells.length) : r.finish = records ++ [cells] := by
  have hrecord : r.record ≠ [] := by
    intro hnil
    have hlength := congrArg List.length h.cells
    rw [hnil, List.nil_append, List.length_singleton] at hlength
    omega
  rw [Reader.finish, if_neg fun hnone => hrecord hnone.2.1, h.cells, h.records]

end Reader

/-- No carriage return stands in a cell without quotes. -/
def Sealed (quotes : List Char → Bool) (rows : List (List (List Char))) : Prop :=
  ∀ row ∈ rows, ∀ cell ∈ row, quotes cell = false → '\r' ∉ cell

/-- Any cell, at the beginning of a field. -/
theorem run_cell (hq : Careful quotes) {cell : List Char} (hcr : cr = true → quotes cell = false → '\r' ∉ cell)
    (record : List (List Char)) (records : List (List (List Char))) :
    (Reader.run cr { record, records } (cellText quotes cell)).Behind (record ++ [cell]) records := by
  unfold cellText
  split
  · rw [Reader.run_quoted cell (.inl rfl)]
    exact ⟨by simp, rfl, .inr (.inr rfl)⟩
  · rename_i hbare
    have hbare := Bool.eq_false_iff.2 hbare
    rw [Reader.run_bare (.inl rfl) (hq cell hbare) fun hc => hcr hc hbare]
    refine ⟨by simp, rfl, ?_⟩
    dsimp only
    split
    · exact .inl rfl
    · exact .inr (.inl rfl)

theorem run_line (hq : Careful quotes) {row : List (List Char)} (hne : row ≠ [])
    (hcr : cr = true → ∀ cell ∈ row, quotes cell = false → '\r' ∉ cell) (record : List (List Char))
    (records : List (List (List Char))) :
    (Reader.run cr { record, records } (lineText quotes row)).Behind (record ++ row) records := by
  induction row generalizing record with
  | nil => exact absurd rfl hne
  | cons cell row ih =>
    have hcell := run_cell hq (fun hc => hcr hc cell List.mem_cons_self) record records
    cases row with
    | nil => simpa [lineText] using hcell
    | cons next row =>
      rw [lineText_cons, Reader.run_append, Reader.run_cons, hcell.comma]
      have hrest := ih (List.cons_ne_nil _ _) (fun hc c hmem => hcr hc c (List.mem_cons_of_mem _ hmem))
        (record ++ [cell])
      simpa using hrest

/-- The rows in front of the last one end at their line feeds, the last one at the end of the text. -/
theorem run_write (hq : Careful quotes) {rows : List (List (List Char))} (hrows : ∀ row ∈ rows, 2 ≤ row.length)
    (hcr : cr = true → Sealed quotes rows) (hne : rows ≠ []) (records : List (List (List Char))) :
    (Reader.run cr { records } (write quotes rows)).finish = records ++ rows := by
  induction rows generalizing records with
  | nil => exact absurd rfl hne
  | cons row rows ih =>
    have hlength := hrows row List.mem_cons_self
    have hrow : row ≠ [] := List.ne_nil_of_length_pos (by omega)
    have hline := run_line hq hrow (fun hc => hcr hc row List.mem_cons_self) [] records
    cases rows with
    | nil =>
      have hfinish := hline.finish (by simpa using hlength)
      simpa [write] using hfinish
    | cons next rows =>
      rw [write_cons, Reader.run_append, Reader.run_cons, hline.feed,
        ih (fun row' hmem => hrows row' (List.mem_cons_of_mem _ hmem))
          (fun hc row' hmem => hcr hc row' (List.mem_cons_of_mem _ hmem)) (List.cons_ne_nil _ _)]
      simp

/-- **Round trip.** -/
theorem read_write (hq : Careful quotes) {rows : List (List (List Char))} (hrows : ∀ row ∈ rows, 2 ≤ row.length)
    (hcr : cr = true → Sealed quotes rows) : read cr (write quotes rows) = rows := by
  cases rows with
  | nil => simp [write, read, Reader.run, Reader.finish]
  | cons row rows =>
    have hrun := run_write hq hrows hcr (List.cons_ne_nil _ _) []
    simpa [read] using hrun

/-! ## Carriage returns -/

/-- The carriage returns in what was read so far. -/
def Reader.returns (r : Reader) : Nat :=
  r.field.count '\r' + r.record.flatten.count '\r' + r.records.flatten.flatten.count '\r'

theorem Reader.returns_finish (r : Reader) : r.finish.flatten.flatten.count '\r' = r.returns := by
  unfold Reader.finish
  split
  · rename_i hnone
    simp [Reader.returns, hnone.2.1, hnone.2.2]
  · simp [Reader.returns]
    omega

/-- Outside quotes none is read. -/
theorem Reader.returns_outside (r : Reader) (c : Char) :
    (r.outside true c).returns = r.returns ∧ (r.outside true c).mode ≠ .quoted := by
  unfold Reader.outside
  split
  · simp [Reader.endField, Reader.returns]
    omega
  split
  · simp [Reader.endRecord, Reader.returns]
    omega
  split
  · simp [Reader.endRecord, Reader.returns]
    omega
  · rename_i hc
    have hne : c ≠ '\r' := fun heq => hc ⟨rfl, heq⟩
    simp [Reader.returns, hne]

theorem Reader.returns_step {c : Char} (h : r.mode ≠ .quoted) (hc : c ≠ '"') :
    (r.step true c).returns = r.returns ∧ (r.step true c).mode ≠ .quoted := by
  have houtside := r.returns_outside c
  cases hm : r.mode with
  | quoted => exact absurd hm h
  | start | bare | closed => simpa [Reader.step, hm, hc] using houtside
  | returned =>
    simp only [Reader.step, hm, hc, if_false]
    split
    · exact ⟨rfl, by simp⟩
    · exact houtside

theorem Reader.returns_bare {cell : List Char} (h : r.mode ≠ .quoted) (hplain : '"' ∉ cell) :
    (r.run true cell).returns = r.returns ∧ (r.run true cell).mode ≠ .quoted := by
  induction cell generalizing r with
  | nil => exact ⟨rfl, h⟩
  | cons c cell ih =>
    rw [List.mem_cons, not_or] at hplain
    have hstep := r.returns_step h (Ne.symm hplain.1)
    have hrest := ih hstep.2 hplain.2
    rw [Reader.run_cons]
    exact ⟨hrest.1.trans hstep.1, hrest.2⟩

theorem Reader.returns_separator (h : r.mode ≠ .quoted) {c : Char} (hc : c = ',' ∨ c = '\n') :
    (r.step true c).returns = r.returns ∧ (r.step true c).mode = .start := by
  have hquote : c ≠ '"' := by rcases hc with rfl | rfl <;> decide
  have hstart : (r.step true c).mode = .start := by
    cases hm : r.mode with
    | quoted => exact absurd hm h
    | start | bare | closed | returned =>
      rcases hc with rfl | rfl <;> simp [Reader.step, hm, Reader.outside, Reader.endField, Reader.endRecord]
  exact ⟨(r.returns_step h hquote).1, hstart⟩

/-- The carriage returns in the quoted ones of some cells. -/
def quotedReturns (quotes : List Char → Bool) (cells : List (List Char)) : Nat :=
  (cells.filter quotes).flatten.count '\r'

theorem quotedReturns_cons (cell : List Char) (cells : List (List Char)) : quotedReturns quotes (cell :: cells) =
    (if quotes cell then cell.count '\r' else 0) + quotedReturns quotes cells := by
  cases hcell : quotes cell <;> simp [quotedReturns, hcell]

theorem quotedReturns_append (cells cells' : List (List Char)) : quotedReturns quotes (cells ++ cells') =
    quotedReturns quotes cells + quotedReturns quotes cells' := by
  simp [quotedReturns]

theorem returns_cell (hq : Careful quotes) (h : r.mode = .start) (cell : List Char) :
    (r.run true (cellText quotes cell)).returns = r.returns + (if quotes cell then cell.count '\r' else 0) ∧
      (r.run true (cellText quotes cell)).mode ≠ .quoted := by
  cases hcell : quotes cell with
  | true =>
    rw [cellText, if_pos hcell, Reader.run_quoted cell (.inl h)]
    refine ⟨?_, by simp⟩
    simp only [Reader.returns, List.count_append, if_true]
    omega
  | false =>
    rw [cellText, if_neg (by simp [hcell])]
    have hbare := @Reader.returns_bare r cell (by simp [h]) fun hmem => (hq cell hcell _ hmem).1 rfl
    exact ⟨by simp [hbare.1], hbare.2⟩

theorem returns_line (hq : Careful quotes) (h : r.mode = .start) (row : List (List Char)) :
    (r.run true (lineText quotes row)).returns = r.returns + quotedReturns quotes row ∧
      (r.run true (lineText quotes row)).mode ≠ .quoted := by
  induction row generalizing r with
  | nil => simp [lineText, Reader.run, quotedReturns, h]
  | cons cell row ih =>
    have hcell := returns_cell hq h cell
    cases row with
    | nil =>
      rw [quotedReturns_cons]
      simpa [lineText, quotedReturns] using hcell
    | cons next row =>
      have hcomma := Reader.returns_separator hcell.2 (.inl rfl)
      have hrest := ih hcomma.2
      rw [lineText_cons, Reader.run_append, Reader.run_cons, quotedReturns_cons]
      refine ⟨?_, hrest.2⟩
      rw [hrest.1, hcomma.1, hcell.1]
      omega

/-- The reader keeps the carriage returns of the quoted cells, and no others. -/
theorem returns_write (hq : Careful quotes) (h : r.mode = .start) (rows : List (List (List Char))) :
    (r.run true (write quotes rows)).returns = r.returns + quotedReturns quotes rows.flatten := by
  induction rows generalizing r with
  | nil => simp [write, Reader.run, quotedReturns]
  | cons row rows ih =>
    have hline := returns_line hq h row
    cases rows with
    | nil => simpa [write] using hline.1
    | cons next rows =>
      have hfeed := Reader.returns_separator hline.2 (.inr rfl)
      have hrest := ih hfeed.2
      have hsplit : quotedReturns quotes (row :: next :: rows).flatten =
          quotedReturns quotes row + quotedReturns quotes (next :: rows).flatten := by
        rw [List.flatten_cons, quotedReturns_append]
      rw [write_cons, Reader.run_append, Reader.run_cons]
      omega

theorem count_flatten (quotes : List Char → Bool) (cells : List (List Char)) : cells.flatten.count '\r' =
    quotedReturns quotes cells + quotedReturns (fun cell => !quotes cell) cells := by
  induction cells with
  | nil => simp [quotedReturns]
  | cons cell cells ih =>
    rw [List.flatten_cons, List.count_append, quotedReturns_cons, quotedReturns_cons, ih]
    cases quotes cell
    · simp
      omega
    · simp
      omega

/-- A reader that heeds carriage returns reads those in quoted cells only. -/
theorem read_write_iff (hq : Careful quotes) {rows : List (List (List Char))} (hrows : ∀ row ∈ rows, 2 ≤ row.length) :
    read true (write quotes rows) = rows ↔ Sealed quotes rows := by
  constructor
  · intro hread row hrow cell hcell hbare hmem
    have hcount := returns_write (r := { }) hq rfl rows
    rw [← Reader.returns_finish, show (Reader.run true { } (write quotes rows)).finish = rows from hread,
      count_flatten quotes] at hcount
    have hnone : quotedReturns (fun cell => !quotes cell) rows.flatten = 0 := by
      simp only [Reader.returns, List.count_nil, List.flatten_nil] at hcount
      omega
    refine List.count_eq_zero.1 hnone (List.mem_flatten.2 ⟨cell, List.mem_filter.2 ⟨?_, ?_⟩, hmem⟩)
    · exact List.mem_flatten.2 ⟨row, hrow, hcell⟩
    · simp [hbare]
  · exact fun hsealed => read_write hq hrows fun _ => hsealed

end PudimNetMon.Csv
