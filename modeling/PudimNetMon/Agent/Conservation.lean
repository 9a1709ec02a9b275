import PudimNetMon.Agent.MainLoop

/-!
# No batch is lost in the main loop

The places of a batch are the in-memory buffer, the disk buffer, the collector and the drop counter. Every move of the
loop is one of the account's: a batch is issued to the buffer, passed on from it, or moves among the other places; only
a failed `DELETE` leaves one in two of them.

- `mainLoop_conserves`: at the end of every iteration each drained batch is buffered, on disk, acknowledged or counted,
  and as long as no `DELETE` fails it is in one of these places and not sent again after it was acknowledged.
-/

namespace PudimNetMon.Agent

section

variable (serialize : MetricsBatch → Option Blob) (parse : Blob → Option MetricsBatch) (cfg : AgentConfig)

namespace LoopState

/-- The batches that have left the buffer: on disk, acknowledged and counted as dropped. -/
def passed (s : LoopState) : List Tracked := s.disk.origins ++ delivered s.sends ++ s.dropped

/-- The batch is in exactly one place, once. -/
def HeldOnce (s : LoopState) (t : Tracked) : Prop :=
  s.buffer.count t + s.disk.origins.count t + (delivered s.sends).count t + s.dropped.count t = 1

end LoopState

/-! ## What the loop keeps -/

/-- No batch leaves every place; `exact` says that no `DELETE` has failed so far. -/
structure Inv (exact : Prop) (s : LoopState) : Prop where
  distinct : s.drained.Nodup
  accounts : Accounts exact s.drained s.buffer s.passed
  spares : s.disk.Spares
  stored : ∀ r ∈ s.disk.pending, ∀ t, r.origin = some t → serialize t.batch = some r.payload
  sent : ∀ a ∈ s.sends, ∀ t, a.item = some t → a.content = t.batch
  never : exact → NeverAgain s.sends
  counted : s.dropped.length = s.bufferDrops
  defined : s.undefined = false

/-- The `DELETE` of a `Pop` goes through. -/
def PopAnswers.Deletes (a : PopAnswers) : Prop := a.prepareDelete = true ∧ a.delete = true

/-- No `DELETE` behind an accepted batch fails. -/
def Iteration.Deletes (e : Iteration) : Prop := ∀ i j, ((e.sends i).drains j).pop.Deletes

variable {serialize parse cfg} {exact : Prop} {s : LoopState} {t : Tracked} {rest : List Tracked}

open LoopState

theorem count_passed (s : LoopState) (t : Tracked) : s.passed.count t =
    s.disk.origins.count t + (delivered s.sends).count t + s.dropped.count t := by
  simp only [passed, List.count_append]

/-- What has no part in it. -/
theorem Inv.aside (h : Inv serialize exact s) (total : Nat) (interval : Int) (backpressure : Bool) :
    Inv serialize exact
      { s with diskDrainedTotal := total, currentIntervalMs := interval, backpressure := backpressure } :=
  ⟨h.distinct, h.accounts, h.spares, h.stored, h.sent, h.never, h.counted, h.defined⟩

/-- A batch is taken into the buffer. -/
theorem Inv.take (h : Inv serialize exact s) (hd : (s.drained ++ [t]).Nodup) :
    Inv serialize exact { s with buffer := s.buffer ++ [t], drained := s.drained ++ [t] } where
  distinct := hd
  accounts := h.accounts.issue fun hmem => List.disjoint_of_nodup_append hd hmem List.mem_cons_self
  spares := h.spares
  stored := h.stored
  sent := h.sent
  never := h.never
  counted := h.counted
  defined := h.defined

/-- The oldest batch is dropped, and counted. -/
theorem Inv.drop (h : Inv serialize exact { s with buffer := t :: rest }) :
    Inv serialize exact { s.drop t with buffer := rest } where
  distinct := h.distinct
  accounts := h.accounts.pass fun j => by
    simp only [count_passed, LoopState.drop, List.count_append]
    omega
  spares := h.spares
  stored := h.stored
  sent := h.sent
  never := h.never
  counted := by have := h.counted; simpa [LoopState.drop] using this
  defined := h.defined

/-- The disk buffer has the same batches of this process. -/
theorem Inv.disk (h : Inv serialize exact s) {d : DiskBuffer Tracked} (hd : d.Spares)
    (horigins : d.origins = s.disk.origins)
    (hstored : ∀ r ∈ d.pending, ∀ t, r.origin = some t → serialize t.batch = some r.payload) :
    Inv serialize exact { s with disk := d } where
  distinct := h.distinct
  accounts := h.accounts.move fun j => by simp only [count_passed, horigins]
  spares := hd
  stored := hstored
  sent := h.sent
  never := h.never
  counted := h.counted
  defined := h.defined

/-- The oldest batch goes to disk or is dropped. -/
theorem Inv.spill (h : Inv serialize exact { s with buffer := t :: rest }) (a : PushAnswers) :
    Inv serialize exact { s.spill serialize a t with buffer := rest } := by
  unfold LoopState.spill
  split
  · split
    · rename_i blob hblob
      obtain ⟨hspares, horigins, hsub⟩ := h.spares.push a blob (some t)
      have hstored : ∀ r ∈ (s.disk.push a blob (some t)).2.pending, ∀ u, r.origin = some u →
          serialize u.batch = some r.payload := by
        intro r hr u hu
        rcases List.mem_append.1 (hsub hr) with hr | hr
        · exact h.stored r hr u hu
        · rw [List.mem_singleton.1 hr] at hu ⊢
          cases hu
          exact hblob
      dsimp only at hspares horigins ⊢
      cases hok : (s.disk.push a blob (some t)).1
      · -- a failed `Push` has not touched the batches on disk
        rw [hok] at horigins
        refine Inv.drop (s := { s with disk := _ }) (h.disk hspares ?_ hstored)
        simpa using horigins
      · rw [hok] at horigins
        refine ⟨h.distinct, h.accounts.pass fun j => ?_, hspares, hstored, h.sent, h.never, h.counted, h.defined⟩
        simp only [count_passed, horigins, if_true, Option.toList_some, List.count_append]
        omega
    · exact h.drop
  · exact h.drop

/-- The trimming loop. -/
theorem Inv.makeRoom (hmax : 0 ≤ cfg.maxBufferSize) (pushes : Nat → PushAnswers) {buffer : List Tracked}
    {s : LoopState} (h : Inv serialize exact { s with buffer := buffer }) :
    Inv serialize exact (s.makeRoom serialize cfg pushes buffer) := by
  induction buffer generalizing s with
  | nil =>
    have hdefined : (s.undefined || decide (asInt 0 > cfg.maxBufferSize)) = false := by
      have : ¬asInt 0 > cfg.maxBufferSize := by simpa [asInt] using hmax
      simpa [this] using h.defined
    exact ⟨h.distinct, h.accounts, h.spares, h.stored, h.sent, h.never, h.counted, hdefined⟩
  | cons t rest ih =>
    unfold LoopState.makeRoom
    split
    · exact ih (h.spill (pushes t.id))
    · exact h

/-- The fresh batches are taken. -/
theorem Inv.takeFresh (hmax : 0 ≤ cfg.maxBufferSize) (pushes : Nat → PushAnswers) {fresh : List Tracked}
    {s : LoopState} (h : Inv serialize exact s) (hd : (s.drained ++ fresh).Nodup) :
    Inv serialize exact (s.takeFresh serialize cfg pushes fresh) := by
  induction fresh generalizing s with
  | nil => exact h
  | cons t ts ih =>
    rw [List.append_cons] at hd
    unfold LoopState.takeFresh
    apply ih (Inv.makeRoom hmax pushes (h.take (List.Nodup.of_append_left hd)))
    rwa [makeRoom_drained]

/-- A batch in the buffer or on disk was not acknowledged. -/
theorem Inv.not_delivered (h : Inv serialize exact s) (he : exact) (ht : t ∈ s.buffer ∨ t ∈ s.disk.origins) :
    t ∉ delivered s.sends := by
  intro hmem
  have hsent := List.count_pos_iff.2 hmem
  have hbalance := h.accounts.balanced he t
  have hone := List.nodup_iff_count_le_one.1 h.distinct t
  rw [count_passed] at hbalance
  rcases ht with ht | ht
  · have := List.count_pos_iff.2 ht
    omega
  · have := List.count_pos_iff.2 ht
    omega

/-- An attempt to send a batch from the buffer or from disk; `buffer` and `disk` are what is left of them. -/
theorem Inv.attempt (h : Inv serialize exact s) {item : Option Tracked} {content : MetricsBatch} {ok : Bool}
    {buffer : List Tracked} {disk : DiskBuffer Tracked}
    (hitem : ∀ t, item = some t → (t ∈ s.buffer ∨ t ∈ s.disk.origins) ∧ content = t.batch)
    (hspares : disk.Spares) (hsub : disk.pending ⊆ s.disk.pending)
    (haccounts : Accounts exact s.drained buffer
      (disk.origins ++ delivered (s.sends ++ [⟨item, content, ok⟩]) ++ s.dropped)) :
    Inv serialize exact { s.logSend item content ok with buffer := buffer, disk := disk } where
  distinct := h.distinct
  accounts := haccounts
  spares := hspares
  stored r hr := h.stored r (hsub hr)
  sent a ha t ht := by
    rcases List.mem_append.1 ha with ha | ha
    · exact h.sent a ha t ht
    · rw [List.mem_singleton.1 ha] at ht ⊢
      exact (hitem t ht).2
  never he := (h.never he).append fun t ht => h.not_delivered he (hitem t ht).1
  counted := h.counted
  defined := h.defined

/-- A refused batch stays where it is. -/
theorem Inv.refused (h : Inv serialize exact s) {item : Option Tracked} {content : MetricsBatch}
    (hitem : ∀ t, item = some t → (t ∈ s.buffer ∨ t ∈ s.disk.origins) ∧ content = t.batch) :
    Inv serialize exact (s.logSend item content false) := by
  refine h.attempt hitem h.spares (List.Subset.refl _) (h.accounts.move fun j => ?_)
  simp [passed, delivered_append]

/-- An accepted batch leaves the buffer. -/
theorem Inv.accepted (h : Inv serialize exact s) (hbuffer : s.buffer = t :: rest) :
    Inv serialize exact { s.logSend (some t) t.batch true with buffer := rest } := by
  have haccounts := h.accounts
  rw [hbuffer] at haccounts
  refine h.attempt (fun u hu => ?_) h.spares (List.Subset.refl _) (haccounts.pass fun j => ?_)
  · cases hu
    exact ⟨.inl (by rw [hbuffer]; exact List.mem_cons_self), rfl⟩
  · simp only [count_passed, LoopState.logSend, delivered_append, if_true, Option.toList_some, List.count_append]
    omega

/-- Behind an accepted batch from disk its row goes, unless the `DELETE` fails. -/
theorem Inv.acceptedFromDisk (h : Inv serialize exact s) {r : Row Tracked} {rows : List (Row Tracked)}
    (hp : s.disk.pending = r :: rows) (hdb : s.disk.available) (hpeek : s.disk.peekStmt) {pb : MetricsBatch}
    (hpb : ∀ t, r.origin = some t → pb = t.batch) (a : PopAnswers) (hdel : exact → a.Deletes) :
    Inv serialize exact ((s.logSend r.origin pb true).popDisk a) := by
  obtain ⟨-, -, -, hpending⟩ := s.disk.pop_one a hdb hpeek
  have hmem : ∀ t, r.origin = some t → t ∈ s.disk.origins := by
    intro t ht
    refine List.mem_filterMap.2 ⟨r, ?_, ht⟩
    rw [hp]
    exact List.mem_cons_self
  have hnext : (s.disk.pop a 1).pending ⊆ s.disk.pending := by
    rw [hpending]
    split
    · exact fun _ => List.mem_of_mem_tail
    · exact List.Subset.refl _
  refine (h.attempt (fun t ht => ⟨.inr (hmem t ht), hpb t ht⟩) (h.spares.pop_one a hdb hpeek) hnext ?_).aside _
    s.currentIntervalMs s.backpressure
  cases hgone : DiskBuffer.prepare s.disk.deleteStmt a.prepareDelete && a.delete
  · -- the row stays, and its batch is in two places
    have hkept : (s.disk.pop a 1).origins = s.disk.origins := by
      rw [DiskBuffer.origins, hpending, hgone]
      rfl
    have hpassed : ∀ t, r.origin = some t → t ∈ s.passed := fun t ht =>
      List.mem_append_left _ (List.mem_append_left _ (hmem t ht))
    refine h.accounts.copy (fun he => ?_) hpassed fun j => ?_
    · obtain ⟨hprepare, hdelete⟩ := hdel he
      simp [DiskBuffer.prepare, hprepare, hdelete] at hgone
    · simp only [count_passed, hkept, delivered_append, if_true, List.count_append]
      omega
  · have hleft : (s.disk.pop a 1).origins = rows.filterMap (·.origin) := by
      rw [DiskBuffer.origins, hpending, hgone, hp]
      rfl
    have horigins : ∀ j, s.disk.origins.count j = r.origin.toList.count j + (rows.filterMap (·.origin)).count j := by
      intro j
      rw [DiskBuffer.origins, hp]
      cases ho : r.origin <;> simp [ho, List.count_cons, Nat.add_comm]
    refine h.accounts.move fun j => ?_
    simp only [count_passed, hleft, horigins, delivered_append, if_true, List.count_append]
    omega

/-- A row that does not parse is none of this process; it goes, or stays. -/
theorem Inv.unread (h : Inv serialize exact s) {r : Row Tracked} {rows : List (Row Tracked)}
    (hp : s.disk.pending = r :: rows) (hdb : s.disk.available) (hpeek : s.disk.peekStmt) (hr : r.origin = none)
    (a : PopAnswers) : Inv serialize exact (s.popDisk a) := by
  obtain ⟨-, -, -, hpending⟩ := s.disk.pop_one a hdb hpeek
  refine Inv.aside (h.disk (h.spares.pop_one a hdb hpeek) ?_ fun r' hr' => h.stored r' ?_) _ s.currentIntervalMs
    s.backpressure
  · rw [DiskBuffer.origins, hpending, DiskBuffer.origins, hp]
    split
    · rw [List.filterMap_cons, hr]
      rfl
    · rfl
  · rw [hpending] at hr'
    split at hr'
    · exact List.mem_of_mem_tail hr'
    · exact hr'

section

variable (hparse : ∀ b blob, serialize b = some blob → parse blob = some b)

include hparse

/-- The loop over the disk buffer. -/
theorem Inv.drainDisk {a : Nat → DrainAnswers} (hdel : exact → ∀ j, (a j).pop.Deletes) (n i : Nat) {s : LoopState}
    (h : Inv serialize exact s) : Inv serialize exact (s.drainDisk parse a n i) := by
  induction n generalizing i s with
  | zero => exact h
  | succ n ih =>
    unfold LoopState.drainDisk
    dsimp only
    have hsize := s.disk.size_same (a i).size
    generalize s.disk.size (a i).size = sized at hsize ⊢
    obtain ⟨size, d⟩ := sized
    dsimp only at hsize ⊢
    have hd : Inv serialize exact { s with disk := d } := by
      rw [hsize]
      exact h.disk ⟨h.spares.room, h.spares.trimmed⟩ rfl h.stored
    split
    · exact hd
    rcases d.peek_one (a i).peek with ⟨hnone, hpeek⟩ | ⟨r, rows, hp, hsome, hdb, hpeek⟩
    · rw [hnone, hpeek]
      exact hd.disk ⟨hd.spares.room, hd.spares.trimmed⟩ rfl hd.stored
    · rw [hsome, hpeek]
      have hread := hd.disk (d := { d with peekStmt := true }) ⟨hd.spares.room, hd.spares.trimmed⟩ rfl hd.stored
      have hr : r ∈ d.pending := by rw [hp]; exact List.mem_cons_self
      dsimp only
      split
      · rename_i pb hpb
        have hcontent : ∀ t, r.origin = some t → pb = t.batch := by
          intro t ht
          have := hparse _ _ (hd.stored r hr t ht)
          rw [hpb] at this
          exact Option.some.inj this
        split
        · rename_i hsend
          rw [hsend]
          exact ih (i + 1)
            (hread.acceptedFromDisk hp hdb rfl hcontent (a i).pop fun he => hdel he i)
        · rename_i hsend
          rw [Bool.not_eq_true] at hsend
          rw [hsend]
          refine hread.refused fun t ht => ⟨.inr (List.mem_filterMap.2 ⟨r, hr, ht⟩), hcontent t ht⟩
      · rename_i hpb
        have hnone : r.origin = none := by
          cases ho : r.origin with
          | none => rfl
          | some t =>
            have := hparse _ _ (hd.stored r hr t ho)
            rw [hpb] at this
            cases this
        exact ih (i + 1) (hread.unread hp hdb rfl hnone (a i).pop)

/-- The send loop. -/
theorem Inv.sendLoop {a : Nat → SendAnswers} (hdel : exact → ∀ i j, ((a i).drains j).pop.Deletes) (n sent : Nat)
    {s : LoopState} (h : Inv serialize exact s) : Inv serialize exact (s.sendLoop parse a n sent) := by
  induction n generalizing sent s with
  | zero => exact h
  | succ n ih =>
    unfold LoopState.sendLoop
    split
    · exact h
    · rename_i t rest hbuffer
      dsimp only
      split
      · rename_i hsend
        rw [hsend]
        have haccepted := (h.accepted hbuffer).aside s.diskDrainedTotal s.currentIntervalMs (a sent).backpressure
        exact ih (sent + 1) (Inv.drainDisk hparse (fun he => hdel he sent) 10 0 haccepted)
      · rename_i hsend
        rw [Bool.not_eq_true] at hsend
        rw [hsend]
        refine h.refused fun u hu => ?_
        cases hu
        exact ⟨.inl (by rw [hbuffer]; exact List.mem_cons_self), rfl⟩

omit hparse in
theorem Inv.adjustInterval (h : Inv serialize exact s) : Inv serialize exact (s.adjustInterval cfg) := by
  unfold LoopState.adjustInterval
  split
  · exact h.aside _ _ _
  · exact h.aside _ _ _

/-- **Invariant.** Every iteration keeps it. -/
theorem Inv.iterate (hmax : 0 ≤ cfg.maxBufferSize) (h : Inv serialize exact s) {e : Iteration}
    (hfresh : (s.drained ++ e.fresh).Nodup) (hdel : exact → e.Deletes) :
    Inv serialize exact (s.iterate serialize parse cfg e) := by
  have htaken := Inv.takeFresh hmax e.pushes h hfresh
  unfold LoopState.iterate
  dsimp only
  split
  · exact (Inv.sendLoop hparse hdel _ 0 htaken).adjustInterval
  · exact htaken.adjustInterval

theorem inv_step (hmax : 0 ≤ cfg.maxBufferSize) {s s' : LoopState} {e : Iteration} (h : Inv serialize exact s)
    (hdel : exact → e.Deletes) (hs : step serialize parse cfg s e = some s') : Inv serialize exact s' := by
  unfold step at hs
  split at hs
  · rename_i hfresh
    cases hs
    exact h.iterate hparse hmax (List.Nodup.of_map _ hfresh.2) hdel
  · cases hs

omit hparse in
theorem inv_startLoop (exact : Prop) (maxBytes : UInt64) (table : List Blob) (a : OpenAnswers) :
    Inv serialize exact (startLoop cfg maxBytes table a) := by
  have hnone : ∀ r ∈ table.map fun b => (⟨b, none⟩ : Row Tracked), r.origin = none := by
    intro r hr
    obtain ⟨b, -, rfl⟩ := List.mem_map.1 hr
    rfl
  obtain ⟨hspares, horigins⟩ := DiskBuffer.spares_open maxBytes a hnone
  refine ⟨List.nodup_nil, ?_, hspares, fun r hr t ht => ?_, nofun, fun _ => List.Pairwise.nil, rfl, rfl⟩
  · refine Accounts.nil.move fun j => ?_
    rw [count_passed]
    simp [startLoop, horigins, delivered]
  · have hmem : t ∈ (startLoop cfg maxBytes table a).disk.origins := List.mem_filterMap.2 ⟨r, hr, ht⟩
    rw [startLoop, horigins] at hmem
    cases hmem

/-! ## Conservation -/

variable (serialize) in
/-- Every drained batch is buffered, on disk, acknowledged or counted in `buffer_drops`; `Trim` has deleted none. -/
structure Conserved (s : LoopState) : Prop where
  kept : ∀ t ∈ s.drained, t ∈ s.buffer ∨
    (∃ r ∈ s.disk.pending, r.origin = some t ∧ serialize t.batch = some r.payload) ∨
    (∃ a ∈ s.sends, a.ok ∧ a.item = some t ∧ a.content = t.batch) ∨ t ∈ s.dropped
  counted : s.dropped.length = s.bufferDrops
  spared : ∀ r ∈ s.disk.trimmed, r.origin = none
  defined : s.undefined = false

/-- Every drained batch is in one place, and none is sent again after it was acknowledged. -/
structure InOnePlace (s : LoopState) : Prop where
  once : ∀ t ∈ s.drained, s.HeldOnce t
  never : NeverAgain s.sends

omit hparse in
/-- A batch that has left the buffer is on disk, acknowledged or counted. -/
theorem Inv.mem_passed (h : Inv serialize exact s) : t ∈ s.passed ↔
    (∃ r ∈ s.disk.pending, r.origin = some t ∧ serialize t.batch = some r.payload) ∨
      (∃ a ∈ s.sends, a.ok ∧ a.item = some t ∧ a.content = t.batch) ∨ t ∈ s.dropped := by
  simp only [passed, List.mem_append, or_assoc]
  refine or_congr ?_ (or_congr ?_ Iff.rfl)
  · constructor
    · intro hd
      obtain ⟨r, hr, ho⟩ := List.mem_filterMap.1 hd
      exact ⟨r, hr, ho, h.stored r hr t ho⟩
    · rintro ⟨r, hr, ho, -⟩
      exact List.mem_filterMap.2 ⟨r, hr, ho⟩
  · constructor
    · intro ha
      obtain ⟨a, ha, hok, hitem⟩ := mem_delivered.1 ha
      exact ⟨a, ha, hok, hitem, h.sent a ha t hitem⟩
    · rintro ⟨a, ha, hok, hitem, -⟩
      exact mem_delivered.2 ⟨a, ha, hok, hitem⟩

omit hparse in
theorem Inv.conserved (h : Inv serialize exact s) : Conserved serialize s where
  kept _ ht := (h.accounts.mem_iff.1 ht).imp_right h.mem_passed.1
  counted := h.counted
  spared := h.spares.trimmed
  defined := h.defined

omit hparse in
theorem Inv.inOnePlace (h : Inv serialize exact s) (he : exact) : InOnePlace s where
  once t ht := by
    have hone := h.accounts.once he h.distinct ht
    rw [count_passed] at hone
    unfold HeldOnce
    omega
  never := h.never he

/-- **Main.** In every run of iterations, whatever is sent, refused or fails, no drained batch is lost; as long as no
`DELETE` fails, each is in one place and none is sent again after it was acknowledged. -/
theorem mainLoop_conserves (hmax : 0 ≤ cfg.maxBufferSize) (maxBytes : UInt64) (table : List Blob) (a : OpenAnswers)
    (run : List Iteration) :
    Always (step serialize parse cfg) (Conserved serialize) (startLoop cfg maxBytes table a) run ∧
      ((∀ e ∈ run, e.Deletes) → Always (step serialize parse cfg) InOnePlace (startLoop cfg maxBytes table a) run) := by
  constructor
  · exact always_of_inv (fun s e s' h hs => inv_step hparse hmax h False.elim hs) (fun s h => h.conserved)
      (inv_startLoop False maxBytes table a)
  · intro hdel
    exact always_of_guarded (fun s e s' h hg hs => inv_step hparse hmax h (fun _ => hg) hs)
      (fun s h => h.inOnePlace trivial) (inv_startLoop True maxBytes table a) (guarded_of_forall hdel)

end

end

/-! ## A spilled batch -/

/-- Batches without metrics and batches of one ping, in the wire format. -/
def wire : List (MetricsBatch × Blob) :=
  let ping : Metric := { checkType := .icmpPing, target := "1.1.1.1", success := true }
  let pingBytes : Blob := [0x1a, 13, 0x08, 5, 0x12, 7, 0x31, 0x2e, 0x31, 0x2e, 0x31, 0x2e, 0x31, 0x70, 1]
  [({ agentId := "a", timestampUnixMs := 1 }, [0x0a, 1, 0x61, 0x10, 1]),
   ({ agentId := "a", timestampUnixMs := 2 }, [0x0a, 1, 0x61, 0x10, 2]),
   ({ agentId := "a", timestampUnixMs := 1, metrics := [ping] }, [0x0a, 1, 0x61, 0x10, 1] ++ pingBytes),
   ({ agentId := "a", timestampUnixMs := 2, metrics := [ping] }, [0x0a, 1, 0x61, 0x10, 2] ++ pingBytes)]

def wireSerialize (b : MetricsBatch) : Option Blob := (wire.find? (·.1 = b)).map (·.2)

def wireParse (blob : Blob) : Option MetricsBatch := (wire.find? (·.2 = blob)).map (·.1)

theorem wireParse_wireSerialize (b : MetricsBatch) (blob : Blob) (h : wireSerialize b = some blob) :
    wireParse blob = some b := by
  obtain ⟨p, hp, rfl⟩ := Option.map_eq_some_iff.1 h
  have hmem := List.mem_of_find?_eq_some hp
  have hb : p.1 = b := by simpa using List.find?_some hp
  subst hb
  simp only [wire, List.mem_cons, List.not_mem_nil, or_false] at hmem
  rcases hmem with rfl | rfl | rfl | rfl <;> rfl

/-- Everything goes through. -/
def allWell : SendAnswers where
  send := true
  backpressure := false
  drains _ := { size := ⟨true, true⟩, peek := ⟨true, 1⟩, send := true, pop := ⟨true, 1, true, true⟩ }

/-- A buffer of one batch: the first of two fresh batches goes to disk, and both are acknowledged. -/
theorem mainLoop_conserves_spill :
    let cfg : AgentConfig := ⟨1, 5000⟩
    let start := startLoop cfg 1024 [] ⟨true, true, true, true⟩
    let run : List Iteration := [{
      fresh := [⟨0, { agentId := "a", timestampUnixMs := 1 }⟩, ⟨1, { agentId := "a", timestampUnixMs := 2 }⟩]
      pushes := fun _ => ⟨⟨true, 0, true, true⟩, true, true⟩
      elapsed := true
      sends := fun _ => allWell }]
    (runEvents (LoopState.step wireSerialize wireParse cfg) start run).map
          (fun s => (s.diskSpills, delivered s.sends)) =
        some (1, [⟨1, { agentId := "a", timestampUnixMs := 2 }⟩, ⟨0, { agentId := "a", timestampUnixMs := 1 }⟩]) ∧
      Always (LoopState.step wireSerialize wireParse cfg) (Conserved wireSerialize) start run ∧
      Always (LoopState.step wireSerialize wireParse cfg) InOnePlace start run := by
  intro cfg start run
  obtain ⟨hconserved, hplace⟩ :=
    mainLoop_conserves wireParse_wireSerialize (show 0 ≤ cfg.maxBufferSize by decide) 1024 []
      ⟨true, true, true, true⟩ run
  refine ⟨by decide, hconserved, hplace fun e he => ?_⟩
  rw [List.mem_singleton.1 he]
  exact fun _ _ => ⟨rfl, rfl⟩

end PudimNetMon.Agent
