import PudimNetMon.Agent.DiskBuffer
import PudimNetMon.Lib.BoundedFifo
import PudimNetMon.Lib.Run

/-!
# The disk buffer as a bounded queue (`disk_buffer.cpp`)

When every SQLite statement succeeds, `DiskBuffer` is a `BoundedFifo` of payloads by their size. The counters are
`uint64_t` and the limits of the statements are bound as `int`.

- `trimLoop_spec`: the loop of `Trim` finds the shortest prefix and what is left of the bytes;
- `diskBuffer_refines`: over every sequence of operations the counters are the table's and each operation is the
  queue's.
-/

namespace PudimNetMon.Agent.DiskBuffer

open BoundedFifo

variable {ι : Type}

/-- The size of a row's payload. -/
def payloadSize (r : Row ι) : Nat := r.payload.length

inductive DiskOp
  /-- `Open` by a new instance with its own cap. -/
  | «open» (maxBytes : UInt64)
  | push (payload : Blob)
  | peek (count : UInt64)
  | pop (count : UInt64)
  | trim

def openOk (maxBytes : UInt64) (table : List (Row ι)) : Bool × DiskBuffer ι :=
  «open» maxBytes table ⟨true, true, true, true⟩

/-- Every statement succeeds, and a `SELECT` delivers all of its rows. -/
def trimOk (d : DiskBuffer ι) : UInt64 × DiskBuffer ι := d.trim ⟨true, d.pending.length, true, true⟩

def pushOk (d : DiskBuffer ι) (payload : Blob) : Bool × DiskBuffer ι :=
  d.push ⟨⟨true, d.pending.length, true, true⟩, true, true⟩ payload none

def peekOk (d : DiskBuffer ι) (count : UInt64) : List (Row ι) × DiskBuffer ι := d.peek ⟨true, d.pending.length⟩ count

def popOk (d : DiskBuffer ι) (count : UInt64) : DiskBuffer ι := d.pop ⟨true, d.pending.length, true, true⟩ count

def step (d : DiskBuffer ι) : DiskOp → Option (DiskBuffer ι)
  | .open maxBytes => some (openOk maxBytes d.pending).2
  | .push payload => some (d.pushOk payload).2
  | .peek count => some (d.peekOk count).2
  | .pop count => some (d.popOk count)
  | .trim => some d.trimOk.2

def kIntMax : Nat := 2 ^ 31 - 1

/-- The cap, the payload or the limit of an operation is of ordinary size. -/
def DiskOp.InRange : DiskOp → Prop
  | .open maxBytes => maxBytes.toNat < 2 ^ 63
  | .push payload => payload.length < 2 ^ 31
  | .peek count | .pop count => count.toNat ≤ kIntMax
  | .trim => True

/-- The cached counts are the table's. -/
def CountersExact (d : DiskBuffer ι) : Prop :=
  d.rows.toNat = d.pending.length ∧ d.bytes.toNat = total payloadSize d.pending

/-- The subtractions of the loop of `Trim` do not underflow. -/
def TrimExact (maxBytes : UInt64) : List (Row ι) → UInt64 → Prop
  | [], _ => True
  | r :: rs, kept => kept > maxBytes → blobSize r.payload ≤ kept ∧ TrimExact maxBytes rs (kept - blobSize r.payload)

/-- No counter subtraction underflows, and none is clamped in its place. -/
def SubtractionsExact (d : DiskBuffer ι) : DiskOp → Prop
  | .push _ | .trim =>
    TrimExact d.maxBytes d.pending d.bytes ∧ (trimLoop d.maxBytes d.pending d.bytes 0).2 ≤ d.rows
  | .pop count => ((d.pending.take count.toNat).map fun r => blobSize r.payload).sum ≤ d.bytes
  | .open _ | .peek _ => True

/-- An operation is the queue's. -/
def RefinesFifo (d : DiskBuffer ι) : DiskOp → Prop
  | .open maxBytes =>
    (openOk maxBytes d.pending).1 = true ∧ (openOk maxBytes d.pending).2.pending = d.pending ∧
      (openOk maxBytes d.pending).2.maxBytes = maxBytes
  | .push payload =>
    ((d.pushOk payload).1, (d.pushOk payload).2.pending) =
      BoundedFifo.push payloadSize d.maxBytes.toNat ⟨payload, none⟩ d.pending
  | .peek count => (d.peekOk count).1 = d.pending.take count.toNat ∧ (d.peekOk count).2.pending = d.pending
  | .pop count => (d.popOk count).pending = d.pending.drop count.toNat
  | .trim =>
    ∃ n, d.trimOk.1.toNat = n ∧ d.trimOk.2.pending = d.pending.drop n ∧
      total payloadSize (d.pending.drop n) ≤ d.maxBytes.toNat ∧
      ∀ k < n, d.maxBytes.toNat < total payloadSize (d.pending.drop k)

/-- What every operation keeps. -/
structure Exact (d : DiskBuffer ι) : Prop where
  db : d.db = true
  counters : CountersExact d
  cap : d.maxBytes.toNat < 2 ^ 63
  sizes : ∀ r ∈ d.pending, r.payload.length < 2 ^ 31

/-! ## Numbers -/

theorem limit_eq {count : UInt64} (h : count.toNat ≤ kIntMax) (rows : List (Row ι)) :
    limit count rows = rows.take count.toNat := by
  unfold kIntMax at h
  have h64 : count.toInt64.toInt = (count.toNat : Int) := by
    rw [Int64.toInt, UInt64.toBitVec_toInt64, BitVec.toInt_eq_toNat_of_lt]
    · rfl
    · show 2 * count.toNat < _
      omega
  have h32 : count.toInt64.toInt32.toInt = (count.toNat : Int) := by
    rw [Int64.toInt_toInt32, h64]
    exact Int.bmod_eq_of_le (by omega) (by omega)
  unfold limit
  rw [h32]
  dsimp only
  rw [if_neg (by omega), Int.toNat_natCast]

theorem toNat_blobSize {b : Blob} (h : b.length < 2 ^ 31) : (blobSize b).toNat = b.length :=
  UInt64.toNat_ofNat_of_lt' (Nat.lt_trans h (by decide))

/-- Sizes add up without an overflow. -/
theorem toNat_sum_sizes {rows : List (Row ι)} (h : ∀ r ∈ rows, r.payload.length < 2 ^ 31)
    (htotal : total payloadSize rows < 2 ^ 64) :
    ((rows.map fun r => blobSize r.payload).sum).toNat = total payloadSize rows := by
  induction rows with
  | nil => rfl
  | cons r rows ih =>
    rw [total_cons] at htotal ⊢
    rw [List.map_cons, List.sum_cons, UInt64.toNat_add, toNat_blobSize (h r List.mem_cons_self),
      ih (fun r' hr' => h r' (List.mem_cons_of_mem _ hr')) (by omega)]
    exact Nat.mod_eq_of_lt htotal

theorem total_lt {rows : List (Row ι)} (h : ∀ r ∈ rows, r.payload.length < 2 ^ 31) (hrows : rows.length ≤ kIntMax) :
    total payloadSize rows < 2 ^ 63 := by
  have hle : total payloadSize rows ≤ rows.length * 2 ^ 31 := total_le fun r hr => Nat.le_of_lt (h r hr)
  unfold kIntMax at hrows
  omega

/-! ## Trim -/

/-- **The loop of `Trim`.** -/
theorem trimLoop_spec (maxBytes : UInt64) {rows : List (Row ι)} (h : ∀ r ∈ rows, r.payload.length < 2 ^ 31)
    {kept toRemove : UInt64} (hkept : kept.toNat = total payloadSize rows)
    (hcount : toRemove.toNat + rows.length < 2 ^ 64) :
    (trimLoop maxBytes rows kept toRemove).2.toNat = toRemove.toNat + excess payloadSize maxBytes.toNat rows ∧
      (trimLoop maxBytes rows kept toRemove).1.toNat = total payloadSize (within payloadSize maxBytes.toNat rows) ∧
      TrimExact maxBytes rows kept := by
  induction rows generalizing kept toRemove with
  | nil => exact ⟨rfl, hkept, trivial⟩
  | cons r rows ih =>
    have hsize := toNat_blobSize (h r List.mem_cons_self)
    have hsum : kept.toNat = r.payload.length + total payloadSize rows := by rw [hkept, total_cons, payloadSize]
    unfold trimLoop
    by_cases hcap : kept > maxBytes
    · have hover : ¬total payloadSize (r :: rows) ≤ maxBytes.toNat := by
        rw [← hkept]
        exact Nat.not_le.2 (UInt64.lt_iff_toNat_lt.1 hcap)
      have hle : blobSize r.payload ≤ kept := by
        rw [UInt64.le_iff_toNat_le, hsize]
        omega
      have hsub : (kept - blobSize r.payload).toNat = total payloadSize rows := by
        rw [UInt64.toNat_sub_of_le _ _ hle, hsize]
        omega
      have hnext : (toRemove + 1).toNat = toRemove.toNat + 1 := by
        rw [List.length_cons] at hcount
        rw [UInt64.toNat_add]
        exact Nat.mod_eq_of_lt (by show toRemove.toNat + 1 < 2 ^ 64; omega)
      obtain ⟨hremove, hleft, hexact⟩ := ih (fun r' hr' => h r' (List.mem_cons_of_mem _ hr')) hsub
        (show (toRemove + 1).toNat + rows.length < 2 ^ 64 by rw [List.length_cons] at hcount; omega)
      rw [if_pos hcap]
      refine ⟨?_, ?_, fun _ => ⟨hle, hexact⟩⟩
      · rw [hremove, excess, if_neg hover]
        omega
      · rw [hleft, within, within, excess, if_neg hover]
        rfl
    · have hfits : total payloadSize (r :: rows) ≤ maxBytes.toNat := by
        rw [← hkept]
        exact Nat.not_lt.1 fun hlt => hcap (UInt64.lt_iff_toNat_lt.2 hlt)
      rw [if_neg hcap, within, excess_eq_zero hfits]
      exact ⟨rfl, hkept, fun hover => absurd hover hcap⟩

/-- Less the removed rows, which are not more than there are. -/
theorem toNat_sub_clamped (rows count : UInt64) :
    (if rows > count then rows - count else 0).toNat = rows.toNat - count.toNat := by
  split
  · rename_i hlt
    exact UInt64.toNat_sub_of_le _ _ (UInt64.le_of_lt hlt)
  · rename_i hle
    rw [gt_iff_lt, UInt64.lt_iff_toNat_lt] at hle
    rw [UInt64.toNat_zero]
    omega

variable {d : DiskBuffer ι}

/-- The loop over the whole table. -/
theorem Exact.loop (h : Exact d) (hrows : d.pending.length ≤ kIntMax) :
    (trimLoop d.maxBytes d.pending d.bytes 0).2.toNat = excess payloadSize d.maxBytes.toNat d.pending ∧
      (trimLoop d.maxBytes d.pending d.bytes 0).1.toNat =
        total payloadSize (within payloadSize d.maxBytes.toNat d.pending) ∧
      SubtractionsExact d .trim := by
  have hcount : (0 : UInt64).toNat + d.pending.length < 2 ^ 64 := by
    unfold kIntMax at hrows
    rw [UInt64.toNat_zero]
    omega
  obtain ⟨hremove, hleft, hexact⟩ := trimLoop_spec d.maxBytes h.sizes h.counters.2 hcount
  rw [UInt64.toNat_zero, Nat.zero_add] at hremove
  refine ⟨hremove, hleft, hexact, ?_⟩
  rw [UInt64.le_iff_toNat_le, hremove, h.counters.1]
  exact excess_le_length

/-- **Trim.** -/
theorem Exact.trimmed (h : Exact d) (hrows : d.pending.length ≤ kIntMax) :
    d.trimOk.1.toNat = excess payloadSize d.maxBytes.toNat d.pending ∧
      d.trimOk.2.pending = within payloadSize d.maxBytes.toNat d.pending ∧
      d.trimOk.2.maxBytes = d.maxBytes ∧ Exact d.trimOk.2 := by
  obtain ⟨hremove, hleft, -, hle⟩ := h.loop hrows
  have htotal := h.counters.2
  unfold trimOk trim
  by_cases hcap : d.bytes ≤ d.maxBytes
  · have hfits : total payloadSize d.pending ≤ d.maxBytes.toNat := by
      rw [← htotal]
      exact UInt64.le_iff_toNat_le.1 hcap
    rw [if_pos (by simp [hcap]), within, excess_eq_zero hfits]
    exact ⟨rfl, rfl, rfl, h⟩
  rw [if_neg (by simp [available, h.db, hcap])]
  have hover : d.maxBytes.toNat < total payloadSize d.pending := by
    rw [← htotal]
    exact UInt64.lt_iff_toNat_lt.1 (UInt64.not_le.1 hcap)
  have hpos : (trimLoop d.maxBytes d.pending d.bytes 0).2 ≠ 0 := by
    intro hzero
    have hwithin : total payloadSize (within payloadSize d.maxBytes.toNat d.pending) ≤ d.maxBytes.toNat :=
      total_within_le
    rw [hzero, UInt64.toNat_zero] at hremove
    rw [within, ← hremove, List.drop_zero] at hwithin
    omega
  have hlength : excess payloadSize d.maxBytes.toNat d.pending ≤ d.pending.length := excess_le_length
  have hlimit : limit (trimLoop d.maxBytes d.pending d.bytes 0).2 d.pending =
      d.pending.take (excess payloadSize d.maxBytes.toNat d.pending) := by
    rw [limit_eq (by rw [hremove]; omega), hremove]
  simp only [List.take_length, Bool.not_true, Bool.false_eq_true, if_false, if_neg hpos, if_neg (UInt64.not_lt.2 hle),
    prepare, Bool.or_true, hlimit, List.length_take, Nat.min_eq_left hlength]
  refine ⟨hremove, rfl, trivial, h.db, ⟨?_, hleft⟩, h.cap, fun r hr => h.sizes r (List.mem_of_mem_drop hr)⟩
  show (if d.rows > _ then d.rows - _ else 0 : UInt64).toNat = (List.drop _ d.pending).length
  rw [toNat_sub_clamped, hremove, h.counters.1, List.length_drop]

/-! ## The other operations -/

theorem Exact.available (h : Exact d) : d.available = true := h.db

/-- `Push` behind its `Trim`. -/
theorem pushOk_eq (hdb : d.db = true) (payload : Blob) :
    d.pushOk payload =
      if d.trimOk.2.bytes + blobSize payload > d.trimOk.2.maxBytes then (false, d.trimOk.2)
      else (true, { d.trimOk.2 with insertStmt := true, pending := d.trimOk.2.pending ++ [⟨payload, none⟩],
                                    rows := d.trimOk.2.rows + 1, bytes := d.trimOk.2.bytes + blobSize payload }) := by
  have havailable : d.available = true := hdb
  simp only [pushOk, push, havailable, Bool.not_true, Bool.false_eq_true, if_false, prepare, Bool.or_true, if_true]
  rfl

/-- **Push.** -/
theorem Exact.pushed (h : Exact d) (hrows : d.pending.length ≤ kIntMax) {payload : Blob}
    (hpayload : payload.length < 2 ^ 31) :
    RefinesFifo d (.push payload) ∧ Exact (d.pushOk payload).2 := by
  obtain ⟨-, hpending, hmax, ht⟩ := h.trimmed hrows
  have hcap := h.cap
  have hsize := toNat_blobSize hpayload
  have hwithin : total payloadSize (within payloadSize d.maxBytes.toNat d.pending) ≤ d.maxBytes.toNat :=
    total_within_le
  have hsum : (d.trimOk.2.bytes + blobSize payload).toNat =
      total payloadSize (within payloadSize d.maxBytes.toNat d.pending) + payload.length := by
    rw [UInt64.toNat_add, ht.counters.2, hsize, hpending]
    exact Nat.mod_eq_of_lt (by omega)
  have hcond : d.trimOk.2.bytes + blobSize payload > d.trimOk.2.maxBytes ↔
      ¬total payloadSize (within payloadSize d.maxBytes.toNat d.pending) + payload.length ≤ d.maxBytes.toNat := by
    rw [gt_iff_lt, UInt64.lt_iff_toNat_lt, hsum, hmax, Nat.not_le]
  show ((d.pushOk payload).1, (d.pushOk payload).2.pending) =
    BoundedFifo.push payloadSize d.maxBytes.toNat ⟨payload, none⟩ d.pending ∧ _
  by_cases hfits : total payloadSize (within payloadSize d.maxBytes.toNat d.pending) + payload.length ≤ d.maxBytes.toNat
  · have hfifo : BoundedFifo.push payloadSize d.maxBytes.toNat ⟨payload, none⟩ d.pending =
        (true, within payloadSize d.maxBytes.toNat d.pending ++ [⟨payload, none⟩]) := push_of_fits hfits
    have hlength : (within payloadSize d.maxBytes.toNat d.pending).length ≤ d.pending.length := length_within_le
    have hnext : (d.trimOk.2.rows + 1).toNat = (within payloadSize d.maxBytes.toNat d.pending).length + 1 := by
      unfold kIntMax at hrows
      rw [UInt64.toNat_add, ht.counters.1, hpending]
      exact Nat.mod_eq_of_lt (by show _ + 1 < 2 ^ 64; omega)
    rw [pushOk_eq h.db, if_neg (fun hover => hcond.1 hover hfits), hfifo, hpending]
    refine ⟨rfl, ht.db, ⟨?_, ?_⟩, ht.cap, fun r hr => ?_⟩
    · show (d.trimOk.2.rows + 1).toNat = _
      rw [hnext, List.length_append]
      rfl
    · show (d.trimOk.2.bytes + blobSize payload).toNat = _
      rw [hsum, total_append, total_cons, total_nil]
      rfl
    · rcases List.mem_append.1 hr with hr | hr
      · exact ht.sizes r (hpending ▸ hr)
      · rw [List.mem_singleton.1 hr]
        exact hpayload
  · have hfifo : BoundedFifo.push payloadSize d.maxBytes.toNat ⟨payload, none⟩ d.pending =
        (false, within payloadSize d.maxBytes.toNat d.pending) := push_of_full hfits
    rw [pushOk_eq h.db, if_pos (hcond.2 hfits), hfifo, hpending]
    exact ⟨rfl, ht⟩

/-- **Peek.** -/
theorem Exact.peeked (h : Exact d) {count : UInt64} (hcount : count.toNat ≤ kIntMax) :
    RefinesFifo d (.peek count) ∧ Exact (d.peekOk count).2 := by
  by_cases hzero : count = 0
  · subst hzero
    have hpeek : d.peekOk 0 = ([], d) := if_pos (by simp)
    show ((d.peekOk 0).1 = d.pending.take 0 ∧ (d.peekOk 0).2.pending = d.pending) ∧ _
    rw [hpeek]
    exact ⟨⟨rfl, rfl⟩, h⟩
  · have hpeek : d.peekOk count = (d.pending.take count.toNat, { d with peekStmt := true }) := by
      unfold peekOk peek
      rw [if_neg (by simp [h.available, hzero]), if_neg (by simp [prepare]), limit_eq hcount]
      rw [List.take_of_length_le (List.length_take_le' _ _)]
    show ((d.peekOk count).1 = d.pending.take count.toNat ∧ (d.peekOk count).2.pending = d.pending) ∧ _
    rw [hpeek]
    exact ⟨⟨rfl, rfl⟩, h.db, h.counters, h.cap, h.sizes⟩

/-- **Pop.** -/
theorem Exact.popped (h : Exact d) (hrows : d.pending.length ≤ kIntMax) {count : UInt64}
    (hcount : count.toNat ≤ kIntMax) :
    RefinesFifo d (.pop count) ∧ SubtractionsExact d (.pop count) ∧ Exact (d.popOk count) := by
  have hlt := total_lt h.sizes hrows
  have hsplit : total payloadSize (d.pending.take count.toNat) + total payloadSize (d.pending.drop count.toNat) =
      total payloadSize d.pending := total_take_add_drop count.toNat d.pending
  have hremoved : ((d.pending.take count.toNat).map fun r => blobSize r.payload).sum.toNat =
      total payloadSize (d.pending.take count.toNat) :=
    toNat_sum_sizes (fun r hr => h.sizes r (List.mem_of_mem_take hr)) (by omega)
  have hle : ((d.pending.take count.toNat).map fun r => blobSize r.payload).sum ≤ d.bytes := by
    rw [UInt64.le_iff_toNat_le, hremoved, h.counters.2]
    omega
  show (d.popOk count).pending = d.pending.drop count.toNat ∧ _
  by_cases hzero : count = 0
  · subst hzero
    have hpop : d.popOk 0 = d := if_pos (by simp)
    rw [hpop]
    exact ⟨rfl, hle, h⟩
  · have hpop : d.popOk count =
        { d with peekStmt := true, deleteStmt := true, pending := d.pending.drop count.toNat,
                 rows := if d.rows > count then d.rows - count else 0,
                 bytes := if d.bytes > ((d.pending.take count.toNat).map fun r => blobSize r.payload).sum
                   then d.bytes - ((d.pending.take count.toNat).map fun r => blobSize r.payload).sum else 0 } := by
      unfold popOk pop
      simp [h.available, hzero, prepare, limit_eq hcount, List.take_of_length_le (List.length_take_le' _ _)]
    rw [hpop]
    refine ⟨rfl, hle, h.db, ⟨?_, ?_⟩, h.cap, fun r hr => h.sizes r (List.mem_of_mem_drop hr)⟩
    · show (if d.rows > count then d.rows - count else 0 : UInt64).toNat = (d.pending.drop count.toNat).length
      rw [toNat_sub_clamped, h.counters.1, List.length_drop]
    · show (if d.bytes > _ then d.bytes - _ else 0 : UInt64).toNat = total payloadSize (d.pending.drop count.toNat)
      rw [toNat_sub_clamped, hremoved, h.counters.2]
      omega

/-- **Open**, by a new instance. -/
theorem exact_open {maxBytes : UInt64} {table : List (Row ι)} (hcap : maxBytes.toNat < 2 ^ 63)
    (hsizes : ∀ r ∈ table, r.payload.length < 2 ^ 31) (hrows : table.length ≤ kIntMax) :
    Exact (openOk maxBytes table).2 := by
  have hlt := total_lt hsizes hrows
  have hcount : (UInt64.ofNat table.length).toNat = table.length := by
    unfold kIntMax at hrows
    exact UInt64.toNat_ofNat_of_lt' (by show _ < 2 ^ 64; omega)
  exact ⟨rfl, ⟨hcount, toNat_sum_sizes hsizes (by omega)⟩, hcap, hsizes⟩

theorem Exact.removes (h : Exact d) (hrows : d.pending.length ≤ kIntMax) : RefinesFifo d .trim := by
  obtain ⟨hremove, hpending, -, -⟩ := h.trimmed hrows
  exact ⟨_, hremove, hpending, total_within_le, fun k hk => lt_total_drop hk⟩

/-- **One operation.** -/
theorem Exact.next {op : DiskOp} (h : Exact d) (hrows : d.pending.length ≤ kIntMax) (hop : op.InRange)
    {d' : DiskBuffer ι} (hs : step d op = some d') : RefinesFifo d op ∧ SubtractionsExact d op ∧ Exact d' := by
  cases op with
  | «open» maxBytes =>
    cases hs
    exact ⟨⟨rfl, rfl, rfl⟩, trivial, exact_open hop h.sizes hrows⟩
  | push payload =>
    cases hs
    obtain ⟨hrefines, hnext⟩ := h.pushed hrows hop
    exact ⟨hrefines, (h.loop hrows).2.2, hnext⟩
  | peek count =>
    cases hs
    obtain ⟨hrefines, hnext⟩ := h.peeked hop
    exact ⟨hrefines, trivial, hnext⟩
  | pop count =>
    cases hs
    exact h.popped hrows hop
  | trim =>
    cases hs
    exact ⟨h.removes hrows, (h.loop hrows).2.2, (h.trimmed hrows).2.2.2⟩

/-- **A bounded queue.** While the caps, payloads, limits and row counts are of ordinary size, the cached counters are
the table's in every state, no subtraction underflows or is clamped, and each operation is the queue's. -/
theorem diskBuffer_refines (maxBytes : UInt64) (table : List (Row ι)) (ops : List DiskOp)
    (hcap : maxBytes.toNat < 2 ^ 63) (hsizes : ∀ r ∈ table, r.payload.length < 2 ^ 31) (hops : ∀ op ∈ ops, op.InRange)
    (hrows : Always step (fun d => d.pending.length ≤ kIntMax) (openOk maxBytes table).2 ops) :
    Always step CountersExact (openOk maxBytes table).2 ops ∧
      Guarded step (fun d op => RefinesFifo d op ∧ SubtractionsExact d op) (openOk maxBytes table).2 ops := by
  have hguard := hrows.guarded.and (guarded_of_forall hops)
  have hi : Exact (openOk maxBytes table).2 := exact_open hcap hsizes hrows.head
  have hnext : ∀ (d : DiskBuffer ι) op d', Exact d → d.pending.length ≤ kIntMax ∧ op.InRange →
      step d op = some d' → Exact d' := fun d op d' h hg hs => (h.next hg.1 hg.2 hs).2.2
  refine ⟨always_of_guarded hnext (fun d h => h.counters) hi hguard,
    guarded_of_guarded hnext (fun d op d' h hg hs => ?_) hi hguard⟩
  obtain ⟨hrefines, hsubtractions, -⟩ := h.next hg.1 hg.2 hs
  exact ⟨hrefines, hsubtractions⟩

/-- Three pushes of 3 bytes, and a restart with a cap of 5 bytes: the next push finds one of the three rows left. -/
theorem diskBuffer_refines_restart :
    let start : DiskBuffer Unit := (openOk 100 []).2
    let ops : List DiskOp :=
      [.push [1, 2, 3], .push [4, 5, 6], .push [7, 8, 9], .open 5, .push [10, 11], .peek 2, .pop 1, .trim]
    Always step CountersExact start ops ∧
      Guarded step (fun d op => RefinesFifo d op ∧ SubtractionsExact d op) start ops := by
  refine diskBuffer_refines 100 [] _ (by decide) nofun ?_ (by decide)
  simp [DiskOp.InRange, kIntMax]

end PudimNetMon.Agent.DiskBuffer
