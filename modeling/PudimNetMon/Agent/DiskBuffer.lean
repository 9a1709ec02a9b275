import Mathlib.Data.UInt

/-!
# `DiskBuffer` (`disk_buffer.cpp`)

A SQLite table of payloads in the order of its `AUTOINCREMENT` key, with cached row and byte counts and a byte cap.
What SQLite answers is an argument of each operation: a statement may fail to be prepared, a `SELECT` may end after
any number of rows, an `INSERT` or a `DELETE` may fail. A prepared statement is kept and not prepared again. A row
carries the item it was pushed for, or none when an earlier process pushed it.

- `Spares`: `Trim` finds no row of this process, since a `Push` succeeds only within the cap.
-/

namespace PudimNetMon.Agent

/-- The bytes of a `std::string`. -/
abbrev Blob := List UInt8

/-- A row of `pending`. -/
structure Row (ι : Type) where
  payload : Blob
  origin : Option ι
  deriving DecidableEq

structure DiskBuffer (ι : Type) where
  /-- `db` is not null. -/
  db : Bool := false
  insertStmt : Bool := false
  peekStmt : Bool := false
  deleteStmt : Bool := false
  countStmt : Bool := false
  rows : UInt64 := 0
  bytes : UInt64 := 0
  maxBytes : UInt64
  /-- The table, ordered by `seq`. -/
  pending : List (Row ι) := []
  /-- The rows `Trim` has deleted. -/
  trimmed : List (Row ι) := []

structure OpenAnswers where
  opened : Bool
  schema : Bool
  prepare : Bool
  row : Bool

/-- `select` is the number of rows the `SELECT` delivers before it fails, if it has as many. -/
structure TrimAnswers where
  prepareSelect : Bool
  select : Nat
  prepareDelete : Bool
  delete : Bool

structure PushAnswers where
  trim : TrimAnswers
  prepare : Bool
  insert : Bool

structure PeekAnswers where
  prepare : Bool
  select : Nat

structure PopAnswers where
  preparePeek : Bool
  select : Nat
  prepareDelete : Bool
  delete : Bool

structure SizeAnswers where
  prepare : Bool
  row : Bool

namespace DiskBuffer

variable {ι : Type}

/-- `Prepare`: a statement that exists is not prepared again. -/
def prepare (stmt answer : Bool) : Bool := stmt || answer

/-- The size of a payload. -/
def blobSize (b : Blob) : UInt64 := .ofNat b.length

/-- The rows within `LIMIT ?`, bound as an `int`; a negative limit is none. -/
def limit (count : UInt64) (rows : List (Row ι)) : List (Row ι) :=
  let n := count.toInt64.toInt32.toInt
  if n < 0 then rows else rows.take n.toNat

/-- `Open` on a file that holds `table`. -/
def «open» (maxBytes : UInt64) (table : List (Row ι)) (a : OpenAnswers) : Bool × DiskBuffer ι :=
  if !a.opened then (false, { maxBytes, pending := table })
  else
    let d : DiskBuffer ι := { db := true, maxBytes, pending := table }
    if !a.schema then (false, d)
    else if a.prepare && a.row then
      (true, { d with rows := .ofNat table.length, bytes := (table.map fun r => blobSize r.payload).sum })
    else (true, d)

def available (d : DiskBuffer ι) : Bool := d.db

/-- The loop of `Trim` over the delivered rows: the bytes left, and how many rows go. -/
def trimLoop (maxBytes : UInt64) : List (Row ι) → UInt64 → UInt64 → UInt64 × UInt64
  | [], kept, toRemove => (kept, toRemove)
  | r :: rs, kept, toRemove =>
    if kept > maxBytes then trimLoop maxBytes rs (kept - blobSize r.payload) (toRemove + 1) else (kept, toRemove)

def trim (d : DiskBuffer ι) (a : TrimAnswers) : UInt64 × DiskBuffer ι :=
  if !d.available || d.bytes ≤ d.maxBytes then (0, d)
  else if !a.prepareSelect then (0, d)
  else
    let (kept, toRemove) := trimLoop d.maxBytes (d.pending.take a.select) d.bytes 0
    if toRemove = 0 then (0, d)
    else
      let toRemove := if toRemove > d.rows then d.rows else toRemove
      if !prepare d.deleteStmt a.prepareDelete then (0, d)
      else
        let d := { d with deleteStmt := true }
        if !a.delete then (0, d)
        else
          let gone := limit toRemove d.pending
          (toRemove, { d with pending := d.pending.drop gone.length, trimmed := d.trimmed ++ gone,
                              rows := if d.rows > toRemove then d.rows - toRemove else 0, bytes := kept })

def push (d : DiskBuffer ι) (a : PushAnswers) (payload : Blob) (origin : Option ι) : Bool × DiskBuffer ι :=
  if !d.available then (false, d)
  else
    let d := (d.trim a.trim).2
    if d.bytes + blobSize payload > d.maxBytes then (false, d)
    else if !prepare d.insertStmt a.prepare then (false, d)
    else
      let d := { d with insertStmt := true }
      if a.insert then
        (true, { d with pending := d.pending ++ [⟨payload, origin⟩], rows := d.rows + 1,
                        bytes := d.bytes + blobSize payload })
      else (false, d)

/-- `Peek`; the rows stand for their payloads. -/
def peek (d : DiskBuffer ι) (a : PeekAnswers) (count : UInt64) : List (Row ι) × DiskBuffer ι :=
  if !d.available || count = 0 then ([], d)
  else if !prepare d.peekStmt a.prepare then ([], d)
  else ((limit count d.pending).take a.select, { d with peekStmt := true })

def pop (d : DiskBuffer ι) (a : PopAnswers) (count : UInt64) : DiskBuffer ι :=
  if !d.available || count = 0 then d
  else if !prepare d.peekStmt a.preparePeek then d
  else
    let d := { d with peekStmt := true }
    let removed := (((limit count d.pending).take a.select).map fun r => blobSize r.payload).sum
    if !prepare d.deleteStmt a.prepareDelete then d
    else
      let d := { d with deleteStmt := true }
      if a.delete then
        { d with pending := d.pending.drop (limit count d.pending).length,
                 rows := if d.rows > count then d.rows - count else 0,
                 bytes := if d.bytes > removed then d.bytes - removed else 0 }
      else d

def size (d : DiskBuffer ι) (a : SizeAnswers) : UInt64 × DiskBuffer ι :=
  if !d.available then (0, d)
  else if !prepare d.countStmt a.prepare then (0, d)
  else (if a.row then .ofNat d.pending.length else 0, { d with countStmt := true })

/-- The items on disk. -/
def origins (d : DiskBuffer ι) : List ι := d.pending.filterMap (·.origin)

/-! ## What each operation does to the table -/

variable {d : DiskBuffer ι}

@[simp] theorem limit_one (rows : List (Row ι)) : limit 1 rows = rows.take 1 := rfl

theorem limit_subset (count : UInt64) (rows : List (Row ι)) : limit count rows ⊆ rows := by
  unfold limit
  dsimp only
  split
  · exact List.Subset.refl _
  · exact List.take_subset _ _

/-- `Trim` keeps the table, or is above the cap. -/
theorem trim_cases (d : DiskBuffer ι) (a : TrimAnswers) :
    (d.trim a).2 = { d with deleteStmt := (d.trim a).2.deleteStmt } ∨
      (d.maxBytes < d.bytes ∧ ∃ count rows kept, (d.trim a).2 =
        { d with deleteStmt := true, pending := d.pending.drop (limit count d.pending).length,
                 trimmed := d.trimmed ++ limit count d.pending, rows := rows, bytes := kept }) := by
  unfold trim
  split
  · exact .inl rfl
  rename_i hcap
  simp only [Bool.or_eq_true, decide_eq_true_eq, not_or, UInt64.not_le] at hcap
  split
  · exact .inl rfl
  dsimp only
  split
  · exact .inl rfl
  split
  · exact .inl rfl
  split
  · exact .inl rfl
  exact .inr ⟨hcap.2, _, _, _, rfl⟩

theorem drop_min_one (l : List (Row ι)) : l.drop (min 1 l.length) = l.tail := by
  cases l with
  | nil => rfl
  | cons r rest => rw [List.length_cons, Nat.min_eq_left (Nat.le_add_left 1 _)]; rfl

/-- `Pop` never adds bytes. -/
theorem pop_bytes_le (bytes removed : UInt64) : (if bytes > removed then bytes - removed else 0) ≤ bytes := by
  split
  · rename_i h
    exact UInt64.sub_le (UInt64.le_of_lt h)
  · exact UInt64.zero_le

/-- `Pop(1)` behind a `Peek` deletes the oldest row, unless its `DELETE` fails. -/
theorem pop_one (d : DiskBuffer ι) (a : PopAnswers) (hdb : d.available) (hpeek : d.peekStmt) :
    let t := d.pop a 1
    t.maxBytes = d.maxBytes ∧ t.trimmed = d.trimmed ∧ t.bytes ≤ d.bytes ∧
      t.pending = if prepare d.deleteStmt a.prepareDelete && a.delete then d.pending.tail else d.pending := by
  have hpeek' : prepare d.peekStmt a.preparePeek = true := by simp [prepare, hpeek]
  by_cases hp : prepare d.deleteStmt a.prepareDelete = true
  · by_cases hd : a.delete = true
    · simp [pop, hdb, hpeek', hp, hd, drop_min_one, pop_bytes_le]
    · simp [pop, hdb, hpeek', hp, hd]
  · simp [pop, hdb, hpeek', hp]

/-- `Peek(1)` finds the oldest row or nothing, and changes nothing but its statement. -/
theorem peek_one (d : DiskBuffer ι) (a : PeekAnswers) :
    ((d.peek a 1).1 = [] ∧ (d.peek a 1).2 = { d with peekStmt := (d.peek a 1).2.peekStmt }) ∨
      ∃ r rest, d.pending = r :: rest ∧ (d.peek a 1).1 = [r] ∧ d.available ∧
        (d.peek a 1).2 = { d with peekStmt := true } := by
  unfold peek
  split
  · exact .inl ⟨rfl, rfl⟩
  rename_i hdb
  split
  · exact .inl ⟨rfl, rfl⟩
  simp only [Bool.or_eq_true, Bool.not_eq_true', decide_eq_true_eq, not_or, Bool.not_eq_false] at hdb
  rw [limit_one]
  cases hp : d.pending with
  | nil => exact .inl ⟨by simp, rfl⟩
  | cons r rest =>
    cases a.select with
    | zero => exact .inl ⟨by simp, rfl⟩
    | succ n => exact .inr ⟨r, rest, rfl, by simp, hdb.1, rfl⟩

/-- `Size` changes nothing but its statement. -/
theorem size_same (d : DiskBuffer ι) (a : SizeAnswers) :
    (d.size a).2 = { d with countStmt := (d.size a).2.countStmt } := by
  unfold size
  split
  · rfl
  split <;> rfl

/-! ## `Trim` spares the rows of this process -/

/-- Above the cap there are only rows of an earlier process, and `Trim` has deleted no others. -/
structure Spares (d : DiskBuffer ι) : Prop where
  room : d.maxBytes < d.bytes → ∀ r ∈ d.pending, r.origin = none
  trimmed : ∀ r ∈ d.trimmed, r.origin = none

theorem origins_eq_nil {rows : List (Row ι)} (h : ∀ r ∈ rows, r.origin = none) : rows.filterMap (·.origin) = [] :=
  List.filterMap_eq_nil_iff.2 h

/-- `Open` finds rows of earlier processes. -/
theorem spares_open (maxBytes : UInt64) {table : List (Row ι)} (a : OpenAnswers) (h : ∀ r ∈ table, r.origin = none) :
    Spares («open» maxBytes table a).2 ∧ («open» maxBytes table a).2.origins = [] := by
  unfold «open»
  split
  · exact ⟨⟨fun _ => h, nofun⟩, origins_eq_nil h⟩
  dsimp only
  split
  · exact ⟨⟨fun _ => h, nofun⟩, origins_eq_nil h⟩
  split
  · exact ⟨⟨fun _ => h, nofun⟩, origins_eq_nil h⟩
  · exact ⟨⟨fun _ => h, nofun⟩, origins_eq_nil h⟩

theorem Spares.trim (h : Spares d) (a : TrimAnswers) :
    Spares (d.trim a).2 ∧ (d.trim a).2.origins = d.origins ∧ (d.trim a).2.pending ⊆ d.pending := by
  rcases d.trim_cases a with ht | ⟨hcap, count, rows, kept, ht⟩
  · rw [ht]
    exact ⟨⟨h.room, h.trimmed⟩, rfl, List.Subset.refl _⟩
  · have hnone := h.room hcap
    have hdrop := List.drop_subset (limit count d.pending).length d.pending
    rw [ht]
    refine ⟨⟨fun _ r hr => hnone r (hdrop hr), fun r hr => ?_⟩, ?_, hdrop⟩
    · rcases List.mem_append.1 hr with hr | hr
      · exact h.trimmed r hr
      · exact hnone r (limit_subset _ _ hr)
    · exact (origins_eq_nil fun r hr => hnone r (hdrop hr)).trans (origins_eq_nil hnone).symm

/-- A `Push` appends its row, within the cap, or leaves the rows of this process alone. -/
theorem Spares.push (h : Spares d) (a : PushAnswers) (payload : Blob) (origin : Option ι) :
    Spares (d.push a payload origin).2 ∧
      (d.push a payload origin).2.origins =
        d.origins ++ (if (d.push a payload origin).1 then origin.toList else []) ∧
      (d.push a payload origin).2.pending ⊆ d.pending ++ [⟨payload, origin⟩] := by
  obtain ⟨ht, horigins, hsub⟩ := h.trim a.trim
  have hkeep := List.Subset.trans hsub (List.subset_append_left d.pending [⟨payload, origin⟩])
  unfold DiskBuffer.push
  split
  · exact ⟨h, by simp, List.subset_append_left _ _⟩
  dsimp only
  split
  · exact ⟨ht, by simpa using horigins, hkeep⟩
  rename_i hroom
  split
  · exact ⟨ht, by simpa using horigins, hkeep⟩
  split
  · refine ⟨⟨fun hcap => absurd hcap hroom, ht.trimmed⟩, ?_, ?_⟩
    · rw [← horigins]
      cases origin <;> simp [origins]
    · exact List.append_subset.2 ⟨hkeep, List.subset_append_right _ _⟩
  · refine ⟨⟨ht.room, ht.trimmed⟩, ?_, hkeep⟩
    rw [← horigins]
    simp [origins]

theorem Spares.pop_one (h : Spares d) (a : PopAnswers) (hdb : d.available) (hpeek : d.peekStmt) :
    Spares (d.pop a 1) := by
  obtain ⟨hmax, htrimmed, hbytes, hpending⟩ := d.pop_one a hdb hpeek
  refine ⟨fun hcap r hr => h.room ?_ r ?_, by rw [htrimmed]; exact h.trimmed⟩
  · rw [hmax] at hcap
    exact UInt64.lt_of_lt_of_le hcap hbytes
  · rw [hpending] at hr
    split at hr
    · exact List.mem_of_mem_tail hr
    · exact hr

end DiskBuffer

end PudimNetMon.Agent
