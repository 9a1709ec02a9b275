import PudimNetMon.Agent.Backoff

/-!
# A batch the collector never accepts (`main.cpp`)

The send loop and the loop over the disk buffer start at the oldest batch and end at the first one that is refused. With
one batch refused each time, and all others accepted, what is in front of it in its queue goes through, and what is
behind it stays.

- `advances_step`: how far one iteration gets in both queues;
- `refused_batch_blocks`: how far a run gets.
-/

namespace PudimNetMon.Agent

/-- The batches in front of the refused one. -/
def front (b : MetricsBatch) (buffer : List Tracked) : List Tracked := buffer.takeWhile (·.batch ≠ b)

/-- The rows in front of the refused batch; a row that cannot be parsed is deleted unsent. -/
def frontRows (parse : Blob → Option MetricsBatch) (b : MetricsBatch) (rows : List (Row Tracked)) :
    List (Row Tracked) :=
  rows.takeWhile (fun r => parse r.payload ≠ some b)

/-- The attempts between two states: the collector refuses the one batch and accepts all others. -/
def Obeys (b : MetricsBatch) (s s' : LoopState) : Prop :=
  ∃ l, s'.sends = s.sends ++ l ∧ ∀ a ∈ l, a.ok = decide (a.content ≠ b)

/-- The statements of a round succeed. -/
structure DrainAnswers.Sound (a : DrainAnswers) : Prop where
  size : a.size.prepare = true ∧ a.size.row = true
  peek : a.peek.prepare = true ∧ 0 < a.peek.select
  pop : a.pop.prepareDelete = true ∧ a.pop.delete = true

structure DiskReady (d : DiskBuffer Tracked) : Prop where
  db : d.db = true
  count : d.pending.length < 2 ^ 64

/-- An iteration that sends if there is something to send, and in which nothing overflows. -/
structure SendTurn (cfg : AgentConfig) (s : LoopState) (e : Iteration) : Prop where
  room : (s.buffer.length + e.fresh.length : Int) ≤ cfg.maxBufferSize
  attends : s.buffer ++ e.fresh ≠ [] → ({ s with buffer := s.buffer ++ e.fresh } : LoopState).shouldSend e = true
  sound : ∀ sent i, ((e.sends sent).drains i).Sound

/-- A successful attempt to send one of the batches, or what one of the rows is parsed to. -/
def Acked (parse : Blob → Option MetricsBatch) (batches : List Tracked) (rows : List (Row Tracked))
    (a : Attempt Tracked MetricsBatch) : Prop :=
  (∃ t ∈ batches, a = ⟨some t, t.batch, true⟩) ∨
    ∃ r ∈ rows, ∃ pb, parse r.payload = some pb ∧ a = ⟨r.origin, pb, true⟩

/-- The first `k` batches, with the fresh ones behind the buffer, and the first `j` rows are gone, and they are what is
acknowledged in the attempts `l`; none of them is the refused one. -/
structure Advances (parse : Blob → Option MetricsBatch) (b : MetricsBatch) (fresh : List Tracked) (k j : Nat)
    (l : List (Attempt Tracked MetricsBatch)) (s s' : LoopState) : Prop where
  db : s'.disk.db = true
  log : s'.sends = s.sends ++ l
  buffer : s'.buffer = (s.buffer ++ fresh).drop k
  inFront : k ≤ (front b (s.buffer ++ fresh)).length
  pending : s'.disk.pending = s.disk.pending.drop j
  rowsInFront : j ≤ (frontRows parse b s.disk.pending).length
  acked : ∀ a, a.ok = true → (a ∈ l ↔ Acked parse ((s.buffer ++ fresh).take k) (s.disk.pending.take j) a)

variable {serialize : MetricsBatch → Option Blob} {parse : Blob → Option MetricsBatch} {cfg : AgentConfig}
  {b : MetricsBatch}

open LoopState

/-! ## Fronts -/

section

variable {α : Type} {p : α → Bool}

theorem takeWhile_drop {l : List α} {k : Nat} (h : k ≤ (l.takeWhile p).length) :
    (l.drop k).takeWhile p = (l.takeWhile p).drop k := by
  induction l generalizing k with
  | nil => simp
  | cons x xs ih =>
    cases k with
    | zero => rfl
    | succ k =>
      by_cases hx : p x = true
      · rw [List.takeWhile_cons_of_pos hx] at h ⊢
        exact ih (Nat.le_of_succ_le_succ h)
      · rw [List.takeWhile_cons_of_neg hx] at h
        cases h

theorem takeWhile_append_length (l l' : List α) :
    (l.takeWhile p).length ≤ ((l ++ l').takeWhile p).length := by
  induction l with
  | nil => exact Nat.zero_le _
  | cons x xs ih =>
    by_cases hx : p x = true
    · rw [List.cons_append, List.takeWhile_cons_of_pos hx, List.takeWhile_cons_of_pos hx]
      exact Nat.succ_le_succ ih
    · rw [List.takeWhile_cons_of_neg hx]
      exact Nat.zero_le _

/-- A list in which the front ends has the same front in a longer one. -/
theorem takeWhile_append_of_stop {l l' : List α} (h : l.dropWhile p ≠ []) : (l ++ l').takeWhile p = l.takeWhile p := by
  induction l with
  | nil => exact absurd rfl h
  | cons x xs ih =>
    by_cases hx : p x = true
    · rw [List.dropWhile_cons_of_pos hx] at h
      rw [List.cons_append, List.takeWhile_cons_of_pos hx, List.takeWhile_cons_of_pos hx, ih h]
    · rw [List.cons_append, List.takeWhile_cons_of_neg hx, List.takeWhile_cons_of_neg hx]

theorem length_takeWhile_le (l : List α) : (l.takeWhile p).length ≤ l.length := by
  exact (List.takeWhile_prefix p).length_le

end

/-! ## The log -/

theorem obeys_split {s t u : LoopState} (hst : s.sends <+: t.sends) (htu : t.sends <+: u.sends) (h : Obeys b s u) :
    Obeys b s t ∧ Obeys b t u := by
  obtain ⟨l, hl⟩ := hst
  obtain ⟨l', hl'⟩ := htu
  obtain ⟨m, hm, hok⟩ := h
  have hsplit : m = l ++ l' := by
    rw [← hl', ← hl, List.append_assoc] at hm
    exact (List.append_cancel_left hm).symm
  rw [hsplit, List.forall_mem_append] at hok
  exact ⟨⟨l, hl.symm, hok.1⟩, ⟨l', hl'.symm, hok.2⟩⟩

theorem ok_of_obeys {s t : LoopState} {item : Option Tracked} {content : MetricsBatch} {ok : Bool}
    (ht : t.sends = s.sends ++ [⟨item, content, ok⟩]) (h : Obeys b s t) : ok = decide (content ≠ b) := by
  obtain ⟨l, hl, hok⟩ := h
  rw [ht] at hl
  rw [← List.append_cancel_left hl, List.forall_mem_singleton] at hok
  exact hok

/-! ## How steps add up -/

theorem acked_nil {a : Attempt Tracked MetricsBatch} : ¬Acked parse [] [] a := by
  rintro (⟨_, h, -⟩ | ⟨_, h, -⟩)
  · cases h
  · cases h

theorem acked_append {batches batches' : List Tracked} {rows rows' : List (Row Tracked)}
    {a : Attempt Tracked MetricsBatch} :
    Acked parse (batches ++ batches') (rows ++ rows') a ↔
      Acked parse batches rows a ∨ Acked parse batches' rows' a := by
  simp only [Acked, List.mem_append, or_and_right, exists_or]
  exact or_or_or_comm

/-- Nothing leaves the queues. -/
theorem Advances.stay {s t : LoopState} {l : List (Attempt Tracked MetricsBatch)} (hdb : t.disk.db = true)
    (hlog : t.sends = s.sends ++ l) (hbuffer : t.buffer = s.buffer) (hpending : t.disk.pending = s.disk.pending)
    (hrefused : ∀ a ∈ l, a.ok = false) : Advances parse b [] 0 0 l s t where
  db := hdb
  log := hlog
  buffer := hbuffer.trans (List.append_nil _).symm
  inFront := Nat.zero_le _
  pending := hpending
  rowsInFront := Nat.zero_le _
  acked := by
    intro a hok
    refine iff_of_false (fun ha => ?_) acked_nil
    rw [hrefused a ha] at hok
    cases hok

theorem Advances.refl {s : LoopState} (h : s.disk.db = true) : Advances parse b [] 0 0 [] s s :=
  .stay h (List.append_nil _).symm rfl rfl nofun

theorem Advances.trans {fresh fresh' : List Tracked} {k k' j j' : Nat} {l l' : List (Attempt Tracked MetricsBatch)}
    {s t u : LoopState} (h : Advances parse b fresh k j l s t) (h' : Advances parse b fresh' k' j' l' t u) :
    Advances parse b (fresh ++ fresh') (k + k') (j + j') (l ++ l') s u := by
  have hk : k ≤ (s.buffer ++ fresh).length := h.inFront.trans (length_takeWhile_le _)
  have hlist : t.buffer ++ fresh' = (s.buffer ++ (fresh ++ fresh')).drop k := by
    rw [h.buffer, ← List.append_assoc, List.drop_append_of_le_length hk]
  have hfront : k ≤ (front b (s.buffer ++ (fresh ++ fresh'))).length := by
    rw [← List.append_assoc]
    exact h.inFront.trans (takeWhile_append_length _ _)
  have htake : (s.buffer ++ (fresh ++ fresh')).take k = (s.buffer ++ fresh).take k := by
    rw [← List.append_assoc, List.take_append_of_le_length hk]
  refine ⟨h'.db, ?_, ?_, ?_, ?_, ?_, ?_⟩
  · rw [h'.log, h.log, List.append_assoc]
  · rw [h'.buffer, hlist, List.drop_drop]
  · have hrest := h'.inFront
    rw [hlist, front, takeWhile_drop hfront, List.length_drop] at hrest
    have hle : k ≤ ((s.buffer ++ (fresh ++ fresh')).takeWhile (·.batch ≠ b)).length := hfront
    show k + k' ≤ ((s.buffer ++ (fresh ++ fresh')).takeWhile (·.batch ≠ b)).length
    omega
  · rw [h'.pending, h.pending, List.drop_drop]
  · have hrest := h'.rowsInFront
    rw [h.pending, frontRows, takeWhile_drop h.rowsInFront, List.length_drop] at hrest
    have hle := h.rowsInFront
    unfold frontRows at hle ⊢
    omega
  · intro a hok
    rw [List.take_add, List.take_add, htake, ← hlist, ← h.pending, acked_append, List.mem_append, h.acked a hok,
      h'.acked a hok]

theorem Advances.congr {fresh : List Tracked} {k k' j j' : Nat} {l : List (Attempt Tracked MetricsBatch)}
    {s t : LoopState} (h : Advances parse b fresh k j l s t) (hk : k = k') (hj : j = j') :
    Advances parse b fresh k' j' l s t := by
  rw [← hk, ← hj]
  exact h

theorem Advances.front_eq {fresh : List Tracked} {k j : Nat} {l : List (Attempt Tracked MetricsBatch)}
    {s t : LoopState} (h : Advances parse b fresh k j l s t) :
    front b t.buffer = (front b (s.buffer ++ fresh)).drop k := by
  rw [h.buffer]
  exact takeWhile_drop h.inFront

theorem Advances.frontRows_length {fresh : List Tracked} {k j : Nat} {l : List (Attempt Tracked MetricsBatch)}
    {s t : LoopState} (h : Advances parse b fresh k j l s t) :
    (frontRows parse b t.disk.pending).length = (frontRows parse b s.disk.pending).length - j := by
  rw [h.pending, frontRows, takeWhile_drop h.rowsInFront, List.length_drop]
  rfl

/-- A row in front of the refused batch leaves the disk. -/
theorem Advances.row {s t : LoopState} {l : List (Attempt Tracked MetricsBatch)} {r : Row Tracked}
    {rows : List (Row Tracked)} (hdb : t.disk.db = true) (hlog : t.sends = s.sends ++ l) (hbuffer : t.buffer = s.buffer)
    (hrows : s.disk.pending = r :: rows) (hpending : t.disk.pending = rows) (hne : parse r.payload ≠ some b)
    (hacked : ∀ a, a.ok = true → (a ∈ l ↔ ∃ pb, parse r.payload = some pb ∧ a = ⟨r.origin, pb, true⟩)) :
    Advances parse b [] 0 1 l s t where
  db := hdb
  log := hlog
  buffer := hbuffer.trans (List.append_nil _).symm
  inFront := Nat.zero_le _
  pending := by rw [hrows, hpending]; rfl
  rowsInFront := by
    rw [hrows, frontRows, List.takeWhile_cons_of_pos (by simpa using hne)]
    exact Nat.succ_le_succ (Nat.zero_le _)
  acked := by
    intro a hok
    rw [hacked a hok, hrows]
    simp [Acked]

/-! ## The loop over the disk buffer -/

/-- A round on an empty table. -/
theorem size_of_empty {d : DiskBuffer Tracked} (h : d.pending = []) (a : SizeAnswers) : (d.size a).1 = 0 := by
  unfold DiskBuffer.size
  split
  · rfl
  split
  · rfl
  · rw [h]
    split <;> rfl

/-- The disk behind `Size` and `Peek` of a round. -/
def peeked (d : DiskBuffer Tracked) (a : DrainAnswers) : DiskBuffer Tracked := ((d.size a.size).2.peek a.peek 1).2

/-- A round on a table with a row. -/
theorem round_of_cons {d : DiskBuffer Tracked} (hd : DiskReady d) {r : Row Tracked} {rows : List (Row Tracked)}
    (h : d.pending = r :: rows) {a : DrainAnswers} (ha : a.Sound) :
    (d.size a.size).1 ≠ 0 ∧ ((d.size a.size).2.peek a.peek 1).1 = [r] ∧
      peeked d a = { d with countStmt := true, peekStmt := true } := by
  have hsize : d.size a.size = (.ofNat d.pending.length, { d with countStmt := true }) := by
    simp [DiskBuffer.size, DiskBuffer.available, DiskBuffer.prepare, hd.db, ha.size.1, ha.size.2]
  have hpeek : ({ d with countStmt := true } : DiskBuffer Tracked).peek a.peek 1 =
      ([r], { d with countStmt := true, peekStmt := true }) := by
    obtain ⟨m, hm⟩ : ∃ m, a.peek.select = m + 1 := ⟨a.peek.select - 1, by have := ha.peek.2; omega⟩
    simp [DiskBuffer.peek, DiskBuffer.available, DiskBuffer.prepare, hd.db, ha.peek.1, h, hm]
  unfold peeked
  rw [hsize, hpeek]
  refine ⟨?_, rfl, rfl⟩
  intro hzero
  have hcount := congrArg UInt64.toNat hzero
  have hlt := hd.count
  rw [UInt64.toNat_ofNat_of_lt' hlt, h] at hcount
  cases hcount

theorem popped_of_cons {d : DiskBuffer Tracked} (hd : DiskReady d) {r : Row Tracked} {rows : List (Row Tracked)}
    (h : d.pending = r :: rows) {a : DrainAnswers} (ha : a.Sound) :
    DiskReady ((peeked d a).pop a.pop 1) ∧ ((peeked d a).pop a.pop 1).pending = rows := by
  have hlt := hd.count
  rw [h, List.length_cons] at hlt
  rw [(round_of_cons hd h ha).2.2]
  have hpop : (({ d with countStmt := true, peekStmt := true } : DiskBuffer Tracked).pop a.pop 1).db = true ∧
      (({ d with countStmt := true, peekStmt := true } : DiskBuffer Tracked).pop a.pop 1).pending = rows := by
    simp [DiskBuffer.pop, DiskBuffer.available, DiskBuffer.prepare, hd.db, ha.pop.1, ha.pop.2, h]
  exact ⟨⟨hpop.1, by rw [hpop.2]; omega⟩, hpop.2⟩

/-- One round of the loop, on a table with a row. -/
theorem drainDisk_round {a : Nat → DrainAnswers} {n i : Nat} {s : LoopState} (hs : DiskReady s.disk) {r : Row Tracked}
    {rows : List (Row Tracked)} (hrows : s.disk.pending = r :: rows) (ha : (a i).Sound) :
    s.drainDisk parse a (n + 1) i =
      match parse r.payload with
      | some pb =>
        if (a i).send then
          drainDisk parse a n (i + 1)
            ((({ s with disk := peeked s.disk (a i) } : LoopState).logSend r.origin pb true).popDisk (a i).pop)
        else ({ s with disk := peeked s.disk (a i) } : LoopState).logSend r.origin pb false
      | none =>
        drainDisk parse a n (i + 1) (({ s with disk := peeked s.disk (a i) } : LoopState).popDisk (a i).pop) := by
  obtain ⟨hsize, hblobs, -⟩ := round_of_cons hs hrows ha
  conv_lhs => unfold LoopState.drainDisk
  dsimp only
  rw [if_neg hsize, hblobs]
  dsimp only
  cases parse r.payload with
  | none => rfl
  | some pb =>
    dsimp only
    cases (a i).send with
    | true => rfl
    | false => rfl

/-- What is in front of the refused batch on disk goes through, as far as the rounds last. -/
theorem advances_drainDisk (a : Nat → DrainAnswers) (ha : ∀ i, (a i).Sound) (n i : Nat) {s : LoopState}
    (hs : DiskReady s.disk) (h : Obeys b s (s.drainDisk parse a n i)) :
    ∃ l, Advances parse b [] 0 (min n (frontRows parse b s.disk.pending).length) l s (s.drainDisk parse a n i) := by
  induction n generalizing i s with
  | zero =>
    rw [Nat.zero_min]
    exact ⟨[], .refl hs.db⟩
  | succ n ih =>
    cases hrows : s.disk.pending with
    | nil =>
      refine ⟨[], ?_⟩
      unfold LoopState.drainDisk
      dsimp only
      rw [if_pos (size_of_empty hrows _)]
      refine .stay ?_ (List.append_nil _).symm rfl ?_ (List.forall_mem_nil _)
      · rw [DiskBuffer.size_same]
        exact hs.db
      · rw [DiskBuffer.size_same]
    | cons r rows =>
      obtain ⟨hpopped, hpending⟩ := popped_of_cons hs hrows (ha i)
      have hpeeked := (round_of_cons hs hrows (ha i)).2.2
      rw [drainDisk_round hs hrows (ha i)] at h ⊢
      -- one row is gone, and the other rounds have the rest
      have hpass {t : LoopState} {l : List (Attempt Tracked MetricsBatch)}
          (ht : t.disk = (peeked s.disk (a i)).pop (a i).pop 1)
          (hrow : Advances parse b [] 0 1 l s t) (hne : parse r.payload ≠ some b)
          (hobeys : Obeys b t (t.drainDisk parse a n (i + 1))) :
          ∃ l, Advances parse b [] 0 (min (n + 1) (frontRows parse b (r :: rows)).length) l s
            (t.drainDisk parse a n (i + 1)) := by
        obtain ⟨l', hrest⟩ := ih (i + 1) (by rw [ht]; exact hpopped) hobeys
        rw [ht, hpending] at hrest
        have hcount : min (n + 1) (frontRows parse b (r :: rows)).length =
            1 + min n (frontRows parse b rows).length := by
          rw [frontRows, List.takeWhile_cons_of_pos (by simpa using hne), List.length_cons, frontRows]
          omega
        rw [hcount]
        exact ⟨l ++ l', hrow.trans hrest⟩
      cases hparse : parse r.payload with
      | none =>
        rw [hparse] at h
        have hne : parse r.payload ≠ some b := hparse ▸ (Option.some_ne_none b).symm
        refine hpass (l := []) rfl ?_ hne h
        exact .row hpopped.db (List.append_nil _).symm rfl hrows hpending hne
          (fun _ _ => by simp [hparse])
      | some pb =>
        rw [hparse] at h
        dsimp only at h ⊢
        by_cases hsend : (a i).send = true
        · rw [if_pos hsend] at h ⊢
          obtain ⟨hfirst, hrest⟩ := obeys_split (List.prefix_append s.sends [⟨r.origin, pb, true⟩])
            (drainDisk_sends a n (i + 1) _) h
          have hpb : pb ≠ b := by
            have hok := ok_of_obeys rfl hfirst
            simpa using hok.symm
          have hne : parse r.payload ≠ some b := by
            rw [hparse]
            exact fun heq => hpb (Option.some.inj heq)
          refine hpass (l := [⟨r.origin, pb, true⟩]) rfl ?_ hne hrest
          exact .row hpopped.db rfl rfl hrows hpending hne fun _ _ => by simp [hparse]
        · rw [if_neg hsend] at h ⊢
          have hpb : pb = b := by
            have hok := ok_of_obeys rfl h
            simpa using hok.symm
          have hfront : frontRows parse b (r :: rows) = [] := by
            rw [frontRows, List.takeWhile_cons_of_neg (by simp [hparse, hpb])]
          rw [hfront]
          refine ⟨[⟨r.origin, pb, false⟩], .stay ?_ rfl rfl ?_ (by simp)⟩
          · show (peeked s.disk (a i)).db = true
            rw [hpeeked]
            exact hs.db
          · show (peeked s.disk (a i)).pending = _
            rw [hpeeked]

/-! ## The send loop -/

/-- The disk stays ready. -/
theorem Advances.ready {fresh : List Tracked} {k j : Nat} {l : List (Attempt Tracked MetricsBatch)} {s t : LoopState}
    (h : Advances parse b fresh k j l s t) (hs : DiskReady s.disk) : DiskReady t.disk := by
  refine ⟨h.db, ?_⟩
  have hlt := hs.count
  rw [h.pending, List.length_drop]
  omega

/-- The oldest batch of the buffer is acknowledged. -/
theorem Advances.send {s t : LoopState} {x : Tracked} {rest : List Tracked} (hdb : t.disk.db = true)
    (hlog : t.sends = s.sends ++ [⟨some x, x.batch, true⟩]) (hbuffer : s.buffer = x :: rest) (hrest : t.buffer = rest)
    (hpending : t.disk.pending = s.disk.pending) (hne : x.batch ≠ b) :
    Advances parse b [] 1 0 [⟨some x, x.batch, true⟩] s t where
  db := hdb
  log := hlog
  buffer := by rw [hbuffer, hrest, List.append_nil]; rfl
  inFront := by
    rw [hbuffer, List.append_nil, front, List.takeWhile_cons_of_pos (by simpa using hne)]
    exact Nat.succ_le_succ (Nat.zero_le _)
  pending := hpending
  rowsInFront := Nat.zero_le _
  acked := by
    intro a _
    rw [hbuffer]
    simp [Acked]

/-- As many batches go through as there are rounds, or are in front of the refused one, with ten rows for each. -/
theorem advances_sendLoop (a : Nat → SendAnswers) (ha : ∀ sent i, ((a sent).drains i).Sound) (n sent : Nat)
    {s : LoopState} (hs : DiskReady s.disk) (h : Obeys b s (s.sendLoop parse a n sent)) :
    ∃ l, Advances parse b [] (min n (front b s.buffer).length)
      (min (10 * min n (front b s.buffer).length) (frontRows parse b s.disk.pending).length) l s
      (s.sendLoop parse a n sent) := by
  induction n generalizing sent s with
  | zero =>
    rw [Nat.zero_min, Nat.mul_zero, Nat.zero_min]
    exact ⟨[], .refl hs.db⟩
  | succ n ih =>
    unfold LoopState.sendLoop at h ⊢
    cases hbuffer : s.buffer with
    | nil => exact ⟨[], .refl hs.db⟩
    | cons x rest =>
      rw [hbuffer] at h
      dsimp only at h ⊢
      by_cases hsend : (a sent).send = true
      · rw [if_pos hsend] at h ⊢
        rw [hsend] at h ⊢
        have hlog (u : LoopState) (hu : u.sends = s.sends ++ [⟨some x, x.batch, true⟩]) :
            s.sends <+: (u.drainDisk parse (a sent).drains 10 0).sends := by
          refine List.IsPrefix.trans ?_ (drainDisk_sends _ _ _ u)
          rw [hu]
          exact List.prefix_append _ _
        obtain ⟨hdrained, hlater⟩ := obeys_split (hlog _ rfl) (sendLoop_sends a n (sent + 1) _) h
        obtain ⟨hfirst, hrows⟩ := obeys_split (List.prefix_append s.sends [⟨some x, x.batch, true⟩])
          (drainDisk_sends (a sent).drains 10 0 _) hdrained
        have hx : x.batch ≠ b := by
          have hok := ok_of_obeys rfl hfirst
          simpa using hok.symm
        have hsent : Advances parse b [] 1 0 _ s
            { s.logSend (some x) x.batch true with buffer := rest, backpressure := (a sent).backpressure } :=
          .send hs.db rfl hbuffer rfl rfl hx
        obtain ⟨l, hdrain⟩ := advances_drainDisk _ (ha sent) 10 0 (hsent.ready hs) hrows
        have hboth := hsent.trans hdrain
        obtain ⟨l', hrest⟩ := ih (sent + 1) (hboth.ready hs) hlater
        have hbuffer' := hboth.buffer
        rw [hbuffer, List.append_nil, List.append_nil, Nat.add_zero, List.drop_one, List.tail_cons] at hbuffer'
        have hfront : (front b (x :: rest)).length = (front b rest).length + 1 := by
          rw [front, List.takeWhile_cons_of_pos (by simpa using hx)]
          rfl
        have hfrontRows := hboth.frontRows_length
        have hall := hboth.trans hrest
        rw [hbuffer'] at hall
        exact ⟨_, hall.congr (by omega) (by dsimp only [LoopState.logSend] at hfrontRows ⊢; omega)⟩
      · rw [if_neg hsend] at h ⊢
        rw [eq_false_of_ne_true hsend] at h ⊢
        have hx : x.batch = b := by
          have hok := ok_of_obeys rfl h
          simpa using hok.symm
        have hfront : front b (x :: rest) = [] := by
          rw [front, List.takeWhile_cons_of_neg (by simpa using hx)]
        rw [hfront]
        exact ⟨[⟨some x, x.batch, false⟩], .stay hs.db rfl rfl rfl (by simp)⟩

/-! ## Iterations -/

/-- Fresh batches that fit go behind the others. -/
theorem takeFresh_fits (hmax : cfg.maxBufferSize < 2 ^ 31) (pushes : Nat → PushAnswers) {fresh : List Tracked}
    {s : LoopState} (hroom : (s.buffer.length + fresh.length : Int) ≤ cfg.maxBufferSize) :
    s.takeFresh serialize cfg pushes fresh =
      { s with buffer := s.buffer ++ fresh, drained := s.drained ++ fresh } := by
  induction fresh generalizing s with
  | nil => simp [LoopState.takeFresh]
  | cons x fresh ih =>
    rw [List.length_cons] at hroom
    have hfits : ¬asInt (s.buffer ++ [x]).length > cfg.maxBufferSize := by
      rw [asInt_of_lt (by rw [List.length_append, List.length_singleton]; omega)]
      rw [List.length_append, List.length_singleton]
      omega
    have hroom' : makeRoom serialize cfg pushes (s.buffer ++ [x]) { s with drained := s.drained ++ [x] } =
        { s with buffer := s.buffer ++ [x], drained := s.drained ++ [x] } := by
      cases hbuffer : s.buffer ++ [x] with
      | nil => simp at hbuffer
      | cons y ys =>
        rw [hbuffer] at hfits
        rw [LoopState.makeRoom, if_neg hfits]
    unfold LoopState.takeFresh
    rw [hroom', ih (by simp only [List.length_append, List.length_singleton]; omega)]
    simp

/-- The fresh batches may be counted to the buffer. -/
theorem Advances.fresh {fresh drained : List Tracked} {k j : Nat} {l : List (Attempt Tracked MetricsBatch)}
    {s t : LoopState}
    (h : Advances parse b [] k j l { s with buffer := s.buffer ++ fresh, drained := drained } t) :
    Advances parse b fresh k j l s t := by
  have hlist : s.buffer ++ fresh ++ [] = s.buffer ++ fresh := List.append_nil _
  have hbuffer := h.buffer
  have hfront := h.inFront
  have hacked := h.acked
  rw [hlist] at hbuffer hfront hacked
  exact ⟨h.db, h.log, hbuffer, hfront, h.pending, h.rowsInFront, hacked⟩

theorem Advances.adjust {fresh : List Tracked} {k j : Nat} {l : List (Attempt Tracked MetricsBatch)}
    {s t : LoopState} (h : Advances parse b fresh k j l s t) :
    Advances parse b fresh k j l s (t.adjustInterval cfg) := by
  have hsame : (t.adjustInterval cfg).disk = t.disk ∧ (t.adjustInterval cfg).buffer = t.buffer ∧
      (t.adjustInterval cfg).sends = t.sends := by
    unfold adjustInterval
    split
    · exact ⟨rfl, rfl, rfl⟩
    · exact ⟨rfl, rfl, rfl⟩
  obtain ⟨hdisk, hbuffer, hsends⟩ := hsame
  refine ⟨?_, ?_, ?_, h.inFront, ?_, h.rowsInFront, h.acked⟩
  · rw [hdisk, h.db]
  · rw [hsends, h.log]
  · rw [hbuffer, h.buffer]
  · rw [hdisk, h.pending]

/-- **One iteration.** Each queue loses what is in front of the refused batch, as far as the iteration gets, and it gets
on by one batch at least. -/
theorem advances_step (hmax : cfg.maxBufferSize < 2 ^ 31) {s : LoopState} {e : Iteration} (hs : DiskReady s.disk)
    (hturn : SendTurn cfg s e) (h : Obeys b s (s.iterate serialize parse cfg e)) :
    ∃ k l, Advances parse b e.fresh k (min (10 * k) (frontRows parse b s.disk.pending).length) l s
        (s.iterate serialize parse cfg e) ∧
      min 1 (front b (s.buffer ++ e.fresh)).length ≤ k := by
  unfold iterate at h ⊢
  rw [takeFresh_fits hmax e.pushes hturn.room] at h ⊢
  dsimp only at h ⊢
  split
  · rename_i hsend
    rw [if_pos hsend] at h
    have hobeys : Obeys b ({ s with buffer := s.buffer ++ e.fresh, drained := s.drained ++ e.fresh } : LoopState)
        (sendLoop parse e.sends (if (s.buffer ++ e.fresh).length > 1 then kMaxBatchesPerCycle else 1) 0
          { s with buffer := s.buffer ++ e.fresh, drained := s.drained ++ e.fresh }) := by
      obtain ⟨l, hl, hok⟩ := h
      rw [sends_adjustInterval] at hl
      exact ⟨l, hl, hok⟩
    obtain ⟨l, hadvances⟩ := advances_sendLoop
      (s := { s with buffer := s.buffer ++ e.fresh, drained := s.drained ++ e.fresh }) e.sends hturn.sound _ 0 hs hobeys
    refine ⟨_, l, hadvances.fresh.adjust, ?_⟩
    have hrounds : 1 ≤ if (s.buffer ++ e.fresh).length > 1 then kMaxBatchesPerCycle else 1 := by
      split
      · decide
      · exact Nat.le_refl 1
    dsimp only
    omega
  · rename_i hidle
    have hempty : s.buffer ++ e.fresh = [] := by
      by_contra hne
      exact hidle (hturn.attends hne)
    refine ⟨0, [], ?_, ?_⟩
    · rw [Nat.mul_zero, Nat.zero_min]
      exact Advances.adjust (.fresh (.refl hs.db))
    · rw [hempty]
      exact Nat.le_refl 0

/-! ## Runs -/

theorem iterate_of_step {s t : LoopState} {e : Iteration} (h : s.step serialize parse cfg e = some t) :
    t = s.iterate serialize parse cfg e := by
  unfold LoopState.step at h
  split at h
  · cases h
    rfl
  · cases h

theorem run_log {s t : LoopState} {es : List Iteration}
    (h : runEvents (LoopState.step serialize parse cfg) s es = some t) : s.sends <+: t.sends := by
  induction es generalizing s with
  | nil =>
    cases h
    exact List.prefix_rfl
  | cons e es ih =>
    obtain ⟨u, hu, hrest⟩ := Option.bind_eq_some_iff.1 h
    refine List.IsPrefix.trans ?_ (ih hrest)
    rw [iterate_of_step hu]
    exact iterate_sends s e

/-- Each iteration of a run gets on by one batch at least, and by ten rows for it. -/
theorem advances_run (hmax : cfg.maxBufferSize < 2 ^ 31) (es : List Iteration) {s t : LoopState}
    (hs : DiskReady s.disk) (hrun : runEvents (LoopState.step serialize parse cfg) s es = some t)
    (hturns : Guarded (LoopState.step serialize parse cfg) (SendTurn cfg) s es) (hobeys : Obeys b s t) :
    ∃ k j l, Advances parse b (es.flatMap (·.fresh)) k j l s t ∧ min es.length (front b s.buffer).length ≤ k ∧
      min (10 * min es.length (front b s.buffer).length) (frontRows parse b s.disk.pending).length ≤ j := by
  induction es generalizing s with
  | nil =>
    cases hrun
    refine ⟨0, 0, [], .refl hs.db, ?_, ?_⟩
    · rw [List.length_nil, Nat.zero_min]
    · rw [List.length_nil, Nat.zero_min, Nat.mul_zero, Nat.zero_min]
  | cons e es ih =>
    obtain ⟨u, hu, hrest⟩ := Option.bind_eq_some_iff.1 hrun
    obtain ⟨hturn, hturns'⟩ := hturns u hu
    have hlog : s.sends <+: u.sends := by
      rw [iterate_of_step hu]
      exact iterate_sends s e
    obtain ⟨hfirst, hlater⟩ := obeys_split hlog (run_log hrest) hobeys
    rw [iterate_of_step hu] at hfirst
    obtain ⟨k, l, hstep, hone⟩ := advances_step hmax hs hturn hfirst
    rw [← iterate_of_step hu] at hstep
    obtain ⟨k', j', l', hrun', hk, hj⟩ := ih (hstep.ready hs) hrest hturns' hlater
    have hfront : (front b s.buffer).length ≤ (front b (s.buffer ++ e.fresh)).length := takeWhile_append_length _ _
    have hfront' := congrArg List.length hstep.front_eq
    have hrows := hstep.frontRows_length
    rw [List.length_drop] at hfront'
    rw [List.flatMap_cons, List.length_cons]
    exact ⟨_, _, _, hstep.trans hrun', by omega, by omega⟩

theorem mem_take_of_prefix {α : Type} {l l' : List α} {k : Nat} (h : l' <+: l) (hk : l'.length ≤ k) {x : α}
    (hx : x ∈ l') : x ∈ l.take k := by
  rw [List.prefix_iff_eq_take.1 h] at hx
  exact List.take_subset_take_left l hk hx

/-- The refused batch stays in the buffer, with what is behind it. -/
theorem Advances.buffer_stays {fresh : List Tracked} {k j : Nat} {l : List (Attempt Tracked MetricsBatch)}
    {s t : LoopState} (h : Advances parse b fresh k j l s t) (hk : (front b s.buffer).length ≤ k) :
    s.buffer.dropWhile (·.batch ≠ b) <+: t.buffer := by
  have hsplit : front b s.buffer ++ s.buffer.dropWhile (·.batch ≠ b) = s.buffer := List.takeWhile_append_dropWhile
  by_cases hback : s.buffer.dropWhile (·.batch ≠ b) = []
  · rw [hback]
    exact List.nil_prefix
  · have hfront : front b (s.buffer ++ fresh) = front b s.buffer := takeWhile_append_of_stop hback
    have hk' := h.inFront
    rw [hfront] at hk'
    have hdrop : (s.buffer ++ fresh).drop k = s.buffer.dropWhile (·.batch ≠ b) ++ fresh := by
      calc (s.buffer ++ fresh).drop k
          = (front b s.buffer ++ (s.buffer.dropWhile (·.batch ≠ b) ++ fresh)).drop (front b s.buffer).length := by
            rw [← List.append_assoc, hsplit, Nat.le_antisymm hk' hk]
        _ = s.buffer.dropWhile (·.batch ≠ b) ++ fresh := List.drop_left
    rw [h.buffer, hdrop]
    exact List.prefix_append _ _

/-- The refused batch stays on disk, with what is behind it. -/
theorem Advances.rows_stay {fresh : List Tracked} {k j : Nat} {l : List (Attempt Tracked MetricsBatch)}
    {s t : LoopState} (h : Advances parse b fresh k j l s t) :
    s.disk.pending.dropWhile (fun r => parse r.payload ≠ some b) <:+ t.disk.pending := by
  have hsplit : frontRows parse b s.disk.pending ++ s.disk.pending.dropWhile (fun r => parse r.payload ≠ some b) =
    s.disk.pending := List.takeWhile_append_dropWhile
  have hdrop : s.disk.pending.drop j = (frontRows parse b s.disk.pending).drop j ++
      s.disk.pending.dropWhile (fun r => parse r.payload ≠ some b) := by
    rw [← List.drop_append_of_le_length h.rowsInFront, hsplit]
  rw [h.pending, hdrop]
  exact List.suffix_append _ _

/-- **A batch that is always refused.** Within as many iterations as there are batches in front of it in the buffer,
these are acknowledged, with ten rows for each of those in front of it on disk; the batch and what is behind it in its
queue stay. -/
theorem refused_batch_blocks (cfg : Config.AgentConfig) {es : List Iteration} {s t : LoopState}
    (hs : DiskReady s.disk) (hrun : runEvents (LoopState.step serialize parse (loopConfig cfg)) s es = some t)
    (hturns : Guarded (LoopState.step serialize parse (loopConfig cfg)) (SendTurn (loopConfig cfg)) s es)
    (hobeys : Obeys b s t) (hlength : (front b s.buffer).length ≤ es.length) :
    (∀ x ∈ front b s.buffer, ⟨some x, x.batch, true⟩ ∈ t.sends.drop s.sends.length) ∧
      (∀ r ∈ (frontRows parse b s.disk.pending).take (10 * (front b s.buffer).length), ∀ pb,
        parse r.payload = some pb → ⟨r.origin, pb, true⟩ ∈ t.sends.drop s.sends.length) ∧
      s.buffer.dropWhile (·.batch ≠ b) <+: t.buffer ∧
      s.disk.pending.dropWhile (fun r => parse r.payload ≠ some b) <:+ t.disk.pending := by
  have hmax : (loopConfig cfg).maxBufferSize < 2 ^ 31 := cfg.maxBufferSize.toInt_lt
  obtain ⟨k, j, l, hadvances, hk, hj⟩ := advances_run hmax es hs hrun hturns hobeys
  rw [Nat.min_eq_right hlength] at hk hj
  have hnew : t.sends.drop s.sends.length = l := by rw [hadvances.log, List.drop_left]
  rw [hnew]
  refine ⟨fun x hx => ?_, fun r hr pb hpb => ?_, hadvances.buffer_stays hk, hadvances.rows_stay⟩
  · refine (hadvances.acked _ rfl).2 (.inl ⟨x, ?_, rfl⟩)
    exact mem_take_of_prefix ((List.takeWhile_prefix _).trans (List.prefix_append _ _)) hk hx
  · refine (hadvances.acked _ rfl).2 (.inr ⟨r, ?_, pb, hpb, rfl⟩)
    refine mem_take_of_prefix ((List.take_prefix _ _).trans (List.takeWhile_prefix _)) ?_ hr
    rw [List.length_take]
    exact hj

/-- An iteration on what is buffered, in which every send is refused. -/
def refusedTurn : Iteration where
  fresh := []
  pushes := (refusedBatch 0).pushes
  elapsed := true
  sends := fun _ => { send := false, backpressure := false, drains := fun _ => ⟨⟨true, true⟩, ⟨true, 1⟩, false,
    ⟨true, 1, true, true⟩⟩ }

theorem iterate_refusedTurn {x : Tracked} {rest : List Tracked} {s : LoopState} (hbuffer : s.buffer = x :: rest) :
    s.iterate serialize parse cfg refusedTurn = (s.logSend (some x) x.batch false).adjustInterval cfg := by
  have hsend (n : Nat) : s.sendLoop parse refusedTurn.sends (n + 1) 0 = s.logSend (some x) x.batch false := by
    unfold LoopState.sendLoop
    rw [hbuffer]
    rfl
  have hshould : s.shouldSend refusedTurn = true := by simp [LoopState.shouldSend, hbuffer, refusedTurn]
  have htake : s.takeFresh serialize cfg refusedTurn.pushes refusedTurn.fresh = s := rfl
  unfold iterate
  rw [htake]
  dsimp only
  rw [if_pos hshould]
  split
  · exact congrArg _ (hsend 7)
  · exact congrArg _ (hsend 0)

theorem step_refusedTurn {x : Tracked} {rest : List Tracked} {s : LoopState} (hbuffer : s.buffer = x :: rest)
    (hdrained : s.drained = []) : ∃ t, s.step serialize parse cfg refusedTurn = some t ∧ t.buffer = s.buffer ∧
      t.drained = [] ∧ t.sends = s.sends ++ [⟨some x, x.batch, false⟩] := by
  refine ⟨s.iterate serialize parse cfg refusedTurn, ?_, ?_, ?_, ?_⟩
  · unfold LoopState.step
    rw [if_pos]
    rw [hdrained]
    exact ⟨Nat.zero_le _, List.nodup_nil⟩
  · rw [iterate_refusedTurn hbuffer, adjustInterval_buffer]
    rfl
  · rw [iterate_drained, hdrained]
    rfl
  · rw [iterate_refusedTurn hbuffer, sends_adjustInterval]
    rfl

theorem sendTurn_refusedTurn {s : LoopState} (hroom : (s.buffer.length : Int) ≤ cfg.maxBufferSize) :
    SendTurn cfg s refusedTurn := by
  refine ⟨by simpa [refusedTurn] using hroom, fun hne => ?_, fun _ _ => ⟨⟨rfl, rfl⟩, ⟨rfl, Nat.one_pos⟩, ⟨rfl, rfl⟩⟩⟩
  have hne' : s.buffer ≠ [] := by simpa [refusedTurn] using hne
  simp [LoopState.shouldSend, hne', refusedTurn]

/-- Behind a batch that is refused, another one is not even attempted, however long the loop goes on. -/
theorem head_blocks :
    let cfg : AgentConfig := ⟨200, 5000⟩
    let refused : Tracked := ⟨0, { agentId := "refused" }⟩
    let other : Tracked := ⟨1, { agentId := "other" }⟩
    let s : LoopState :=
      { disk := { db := true, maxBytes := 0 }, buffer := [refused, other], currentIntervalMs := 5000 }
    ∀ n, ∃ t,
      runEvents (LoopState.step (fun _ => none) (fun _ => none) cfg) s (List.replicate n refusedTurn) = some t ∧
      Guarded (LoopState.step (fun _ => none) (fun _ => none) cfg) (SendTurn cfg) s (List.replicate n refusedTurn) ∧
      Obeys refused.batch s t ∧ ∀ a ∈ t.sends, a.item ≠ some other := by
  intro cfg refused other s n
  have hrun (n : Nat) (s : LoopState) (hbuffer : s.buffer = [refused, other]) (hdrained : s.drained = []) :
      ∃ t, runEvents (LoopState.step (fun _ => none) (fun _ => none) cfg) s (List.replicate n refusedTurn) = some t ∧
        Guarded (LoopState.step (fun _ => none) (fun _ => none) cfg) (SendTurn cfg) s (List.replicate n refusedTurn) ∧
        t.sends = s.sends ++ List.replicate n ⟨some refused, refused.batch, false⟩ := by
    induction n generalizing s with
    | zero => exact ⟨s, rfl, trivial, (List.append_nil _).symm⟩
    | succ n ih =>
      obtain ⟨u, hu, hbuffer', hdrained', hsends⟩ := step_refusedTurn hbuffer hdrained
      obtain ⟨t, ht, hturns, hsends'⟩ := ih u (hbuffer'.trans hbuffer) hdrained'
      refine ⟨t, ?_, ?_, ?_⟩
      · rw [List.replicate_succ, runEvents, hu]
        exact ht
      · refine .cons hu (sendTurn_refusedTurn ?_) hturns
        rw [hbuffer]
        decide
      · rw [hsends', hsends, List.append_assoc, List.replicate_succ]
        rfl
  obtain ⟨t, ht, hturns, hsends⟩ := hrun n s rfl rfl
  refine ⟨t, ht, hturns, ⟨_, hsends, ?_⟩, ?_⟩
  · intro a ha
    rw [List.eq_of_mem_replicate ha]
    decide
  · intro a ha
    rw [hsends] at ha
    have heq := List.eq_of_mem_replicate (show a ∈ List.replicate n _ from ha)
    rw [heq]
    decide

/-- A batch in front of the refused one is acknowledged, and so is the row on disk. -/
theorem refused_batch_blocks_one :
    let env : Config.Env :=
      { defaultConfigPath := "/etc/pudim-agent.conf", defaultDiskBufferPath := "/var/lib/pudim/buffer.db",
        files := fun _ => none, getoptLong := fun _ => [] }
    let refused : Tracked := ⟨0, { agentId := "refused" }⟩
    let other : Tracked := ⟨1, { agentId := "other" }⟩
    let stored : MetricsBatch := { agentId := "stored" }
    let parse : Blob → Option MetricsBatch := fun blob => if blob = [1] then some stored else none
    let e : Iteration := { refusedTurn with
      sends := fun sent => { refusedTurn.sends sent with
        send := sent = 0, drains := fun i => { (refusedTurn.sends sent).drains i with send := true } } }
    let s : LoopState :=
      { disk := { db := true, maxBytes := 0, pending := [⟨[1], none⟩] }
        buffer := [other, refused]
        currentIntervalMs := 5000 }
    ∃ cfg, Config.loadAgentConfig env [] = .ok cfg ∧
      ∃ t, runEvents (LoopState.step (fun _ => none) parse (loopConfig cfg)) s [e] = some t ∧
        ⟨some other, other.batch, true⟩ ∈ t.sends ∧ ⟨none, stored, true⟩ ∈ t.sends ∧ [refused] <+: t.buffer := by
  intro env refused other stored parse e s
  obtain ⟨cfg, hload, hcfg⟩ : ∃ cfg, Config.loadAgentConfig env [] = .ok cfg ∧ loopConfig cfg = ⟨200, 5000⟩ :=
    ⟨_, rfl, rfl⟩
  have hrun : runEvents (LoopState.step (fun _ => none) parse (loopConfig cfg)) s [e] =
      some (s.iterate (fun _ => none) parse (loopConfig cfg) e) := by
    rw [hcfg]
    rfl
  have hturn : SendTurn (loopConfig cfg) s e := by
    rw [hcfg]
    exact ⟨by decide, fun _ => by decide, fun _ _ => ⟨⟨rfl, rfl⟩, ⟨rfl, Nat.one_pos⟩, ⟨rfl, rfl⟩⟩⟩
  have hobeys : Obeys refused.batch s (s.iterate (fun _ => none) parse (loopConfig cfg) e) := by
    rw [hcfg]
    exact ⟨[⟨some other, other.batch, true⟩, ⟨none, stored, true⟩, ⟨some refused, refused.batch, false⟩], rfl,
      by decide⟩
  obtain ⟨hbatches, hrows, hstays, -⟩ :=
    refused_batch_blocks cfg ⟨rfl, by decide⟩ hrun (fun _ _ => ⟨hturn, trivial⟩) hobeys (by decide)
  exact ⟨cfg, hload, _, hrun, hbatches other (by decide), hrows ⟨[1], none⟩ (by decide) stored rfl, hstays⟩

end PudimNetMon.Agent
