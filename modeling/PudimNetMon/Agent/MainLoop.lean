import PudimNetMon.Agent.DiskBuffer
import PudimNetMon.Agent.ProbeRunner
import PudimNetMon.Lib.Custody
import PudimNetMon.Lib.Run

/-!
# The main loop of `RunAgent` (`main.cpp`)

An iteration takes fresh batches into the in-memory buffer, spills what is over `max_buffer_size` to the disk buffer,
sends from the front of the buffer and, behind each accepted batch, sends up to ten batches from disk. The outcomes of
all sends and SQLite statements are arguments of the iteration. The loop keeps three records of its own: the batches it
drained, its attempts to send and the batches it counted in `buffer_drops`.
-/

namespace PudimNetMon.Agent

structure AgentConfig where
  maxBufferSize : Int
  intervalMs : Int

structure LoopState where
  disk : DiskBuffer Tracked
  buffer : List Tracked := []
  bufferDrops : Nat := 0
  diskSpills : Nat := 0
  diskDrainedTotal : Nat := 0
  currentIntervalMs : Int
  backpressure : Bool := false
  /-- `front()` was called on an empty buffer. -/
  undefined : Bool := false
  drained : List Tracked := []
  sends : List (Attempt Tracked MetricsBatch) := []
  dropped : List Tracked := []

structure DrainAnswers where
  size : SizeAnswers
  peek : PeekAnswers
  send : Bool
  pop : PopAnswers

structure SendAnswers where
  send : Bool
  backpressure : Bool
  /-- For each round of the loop over the disk buffer. -/
  drains : Nat → DrainAnswers

/-- What an iteration meets. -/
structure Iteration where
  /-- The batches `Drain` takes. -/
  fresh : List Tracked
  /-- For the `Push` of the batch of this number. -/
  pushes : Nat → PushAnswers
  /-- The current interval has passed since the last attempt. -/
  elapsed : Bool
  /-- For each round of the send loop. -/
  sends : Nat → SendAnswers

/-- The conversion to `int`. -/
def asInt (n : Int) : Int := n.bmod (2 ^ 32)

def kMaxBatchesPerCycle : Nat := 8

section

variable (serialize : MetricsBatch → Option Blob) (parse : Blob → Option MetricsBatch) (cfg : AgentConfig)

namespace LoopState

def drop (s : LoopState) (t : Tracked) : LoopState :=
  { s with bufferDrops := s.bufferDrops + 1, dropped := s.dropped ++ [t] }

/-- The batch leaves the full buffer for the disk, or is dropped. -/
def spill (s : LoopState) (a : PushAnswers) (t : Tracked) : LoopState :=
  if s.disk.available then
    match serialize t.batch with
    | some blob =>
      let (ok, disk) := s.disk.push a blob (some t)
      if ok then { s with disk, diskSpills := s.diskSpills + 1 } else { s with disk }.drop t
    | none => s.drop t
  else s.drop t

/-- `while (buffer.size() > max_buffer_size)`, on the buffer given. -/
def makeRoom (pushes : Nat → PushAnswers) : List Tracked → LoopState → LoopState
  | [], s => { s with buffer := [], undefined := s.undefined || asInt 0 > cfg.maxBufferSize }
  | t :: rest, s =>
    if asInt (t :: rest).length > cfg.maxBufferSize then makeRoom pushes rest (s.spill serialize (pushes t.id) t)
    else { s with buffer := t :: rest }

/-- `for (auto &b : fresh)` -/
def takeFresh (pushes : Nat → PushAnswers) : List Tracked → LoopState → LoopState
  | [], s => s
  | t :: ts, s =>
    takeFresh pushes ts
      (makeRoom serialize cfg pushes (s.buffer ++ [t]) { s with drained := s.drained ++ [t] })

def shouldSend (s : LoopState) (e : Iteration) : Bool :=
  !s.buffer.isEmpty && (!e.fresh.isEmpty || s.buffer.length > 1 || e.elapsed)

/-- A call of `SendBatch` or `StreamMetrics`. -/
def logSend (s : LoopState) (item : Option Tracked) (content : MetricsBatch) (ok : Bool) : LoopState :=
  { s with sends := s.sends ++ [⟨item, content, ok⟩] }

/-- The oldest row is deleted, as far as SQLite goes along. -/
def popDisk (s : LoopState) (a : PopAnswers) : LoopState :=
  { s with disk := s.disk.pop a 1, diskDrainedTotal := s.diskDrainedTotal + 1 }

/-- `for (int i = 0; i < 10 && disk_buffer.Size() > 0; i++)`, with the number of rounds left and `i`. -/
def drainDisk (a : Nat → DrainAnswers) : Nat → Nat → LoopState → LoopState
  | 0, _, s => s
  | n + 1, i, s =>
    let (size, disk) := s.disk.size (a i).size
    let s := { s with disk }
    if size = 0 then s
    else
      let (blobs, disk) := s.disk.peek (a i).peek 1
      let s := { s with disk }
      match blobs with
      | [] => s
      | r :: _ =>
        match parse r.payload with
        | some pb =>
          let s := s.logSend r.origin pb (a i).send
          if (a i).send then drainDisk a n (i + 1) (s.popDisk (a i).pop) else s
        | none => drainDisk a n (i + 1) (s.popDisk (a i).pop)

/-- `for (sent = 0; sent < max_sends && !buffer.empty(); ++sent)`, with the number of rounds left and `sent`. -/
def sendLoop (a : Nat → SendAnswers) : Nat → Nat → LoopState → LoopState
  | 0, _, s => s
  | n + 1, sent, s =>
    match s.buffer with
    | [] => s
    | t :: rest =>
      let s := s.logSend (some t) t.batch (a sent).send
      if (a sent).send then
        sendLoop a n (sent + 1)
          (drainDisk parse (a sent).drains 10 0 { s with buffer := rest, backpressure := (a sent).backpressure })
      else s

/-- The interval doubles up to ten times its configured value while the collector signals overload. -/
def adjustInterval (s : LoopState) : LoopState :=
  if s.backpressure then
    { s with currentIntervalMs := min (asInt (s.currentIntervalMs * 2)) (asInt (cfg.intervalMs * 10)) }
  else { s with currentIntervalMs := cfg.intervalMs }

def iterate (s : LoopState) (e : Iteration) : LoopState :=
  let s := takeFresh serialize cfg e.pushes e.fresh s
  let maxSends := if s.buffer.length > 1 then kMaxBatchesPerCycle else 1
  let s := if s.shouldSend e then sendLoop parse e.sends maxSends 0 s else s
  s.adjustInterval cfg

/-- One iteration; `Drain` takes at most fifty batches and none twice. -/
def step (s : LoopState) (e : Iteration) : Option LoopState :=
  if e.fresh.length ≤ 50 ∧ ((s.drained ++ e.fresh).map (·.id)).Nodup then some (iterate serialize parse cfg s e)
  else none

end LoopState

/-- The loop behind `Open`, with the payloads earlier processes left on disk. -/
def startLoop (maxBytes : UInt64) (table : List Blob) (a : OpenAnswers) : LoopState :=
  { disk := (DiskBuffer.open maxBytes (table.map fun b => ⟨b, none⟩) a).2, currentIntervalMs := cfg.intervalMs }

/-! ## What the parts of an iteration leave alone -/

variable {serialize parse cfg}

open LoopState

section Frame

variable {β : Type} (f : LoopState → β)

/-- A spill changes the disk and the counters of spills and drops. -/
theorem spill_frame
    (hf : ∀ s disk diskSpills bufferDrops dropped,
      f { s with disk := disk, diskSpills := diskSpills, bufferDrops := bufferDrops, dropped := dropped } = f s)
    (s : LoopState) (a : PushAnswers) (t : Tracked) : f (s.spill serialize a t) = f s := by
  unfold LoopState.spill
  split
  · split
    · dsimp only
      split
      · exact hf s _ (s.diskSpills + 1) s.bufferDrops s.dropped
      · exact hf s _ s.diskSpills (s.bufferDrops + 1) (s.dropped ++ [t])
    · exact hf s s.disk s.diskSpills (s.bufferDrops + 1) (s.dropped ++ [t])
  · exact hf s s.disk s.diskSpills (s.bufferDrops + 1) (s.dropped ++ [t])

/-- Making room changes the buffer besides. -/
theorem makeRoom_frame (hspill : ∀ s a t, f (spill serialize s a t) = f s)
    (hf : ∀ s buffer undefined, f { s with buffer := buffer, undefined := undefined } = f s)
    (pushes : Nat → PushAnswers) (buffer : List Tracked) (s : LoopState) :
    f (s.makeRoom serialize cfg pushes buffer) = f s := by
  induction buffer generalizing s with
  | nil => exact hf s _ _
  | cons t rest ih =>
    unfold LoopState.makeRoom
    split
    · rw [ih, hspill]
    · exact hf s _ s.undefined

/-- Taking fresh batches changes the record of what is drained besides. -/
theorem takeFresh_frame (pushes : Nat → PushAnswers)
    (hroom : ∀ s buffer, f (makeRoom serialize cfg pushes buffer s) = f s)
    (hf : ∀ s drained, f { s with drained := drained } = f s) (fresh : List Tracked) (s : LoopState) :
    f (s.takeFresh serialize cfg pushes fresh) = f s := by
  induction fresh generalizing s with
  | nil => rfl
  | cons t ts ih =>
    unfold LoopState.takeFresh
    rw [ih, hroom, hf]

/-- Draining the disk changes it and the log. -/
theorem drainDisk_frame
    (hf : ∀ s disk sends diskDrainedTotal,
      f { s with disk := disk, sends := sends, diskDrainedTotal := diskDrainedTotal } = f s)
    (a : Nat → DrainAnswers) (n i : Nat) (s : LoopState) : f (s.drainDisk parse a n i) = f s := by
  induction n generalizing i s with
  | zero => rfl
  | succ n ih =>
    unfold LoopState.drainDisk
    dsimp only
    split
    · exact hf s _ s.sends s.diskDrainedTotal
    split
    · exact hf s _ s.sends s.diskDrainedTotal
    split
    · split
      · exact (ih _ _).trans (hf s _ _ _)
      · exact hf s _ _ s.diskDrainedTotal
    · exact (ih _ _).trans (hf s _ s.sends _)

end Frame

/-! ## What is drained -/

theorem makeRoom_drained (pushes : Nat → PushAnswers) (buffer : List Tracked) (s : LoopState) :
    (s.makeRoom serialize cfg pushes buffer).drained = s.drained :=
  makeRoom_frame (·.drained) (spill_frame (·.drained) fun _ _ _ _ _ => rfl) (fun _ _ _ => rfl) pushes buffer s

theorem takeFresh_drained (pushes : Nat → PushAnswers) (fresh : List Tracked) (s : LoopState) :
    (s.takeFresh serialize cfg pushes fresh).drained = s.drained ++ fresh := by
  induction fresh generalizing s with
  | nil => exact (List.append_nil _).symm
  | cons t ts ih =>
    unfold LoopState.takeFresh
    rw [ih, makeRoom_drained, List.append_assoc]
    rfl

theorem drainDisk_drained (a : Nat → DrainAnswers) (n i : Nat) (s : LoopState) :
    (s.drainDisk parse a n i).drained = s.drained :=
  drainDisk_frame (·.drained) (fun _ _ _ _ => rfl) a n i s

theorem sendLoop_drained (a : Nat → SendAnswers) (n sent : Nat) (s : LoopState) :
    (s.sendLoop parse a n sent).drained = s.drained := by
  induction n generalizing sent s with
  | zero => rfl
  | succ n ih =>
    unfold LoopState.sendLoop
    split
    · rfl
    dsimp only
    split
    · rw [ih, drainDisk_drained]
      rfl
    · rfl

/-! ## What is sent -/

theorem takeFresh_sends (pushes : Nat → PushAnswers) (fresh : List Tracked) (s : LoopState) :
    (s.takeFresh serialize cfg pushes fresh).sends = s.sends := by
  refine takeFresh_frame (·.sends) pushes (fun s buffer => ?_) (fun _ _ => rfl) fresh s
  exact makeRoom_frame (·.sends) (spill_frame (·.sends) fun _ _ _ _ _ => rfl) (fun _ _ _ => rfl) pushes buffer s

theorem sends_adjustInterval (s : LoopState) : (s.adjustInterval cfg).sends = s.sends := by
  unfold adjustInterval
  split <;> rfl

theorem drainDisk_sends (a : Nat → DrainAnswers) (n i : Nat) (s : LoopState) :
    s.sends <+: (s.drainDisk parse a n i).sends := by
  induction n generalizing i s with
  | zero => exact List.prefix_rfl
  | succ n ih =>
    unfold LoopState.drainDisk
    dsimp only
    split
    · exact List.prefix_rfl
    split
    · exact List.prefix_rfl
    split
    · split
      · refine List.IsPrefix.trans ?_ (ih (i + 1) _)
        exact List.prefix_append _ _
      · exact List.prefix_append _ _
    · refine List.IsPrefix.trans ?_ (ih (i + 1) _)
      exact List.prefix_rfl

theorem sendLoop_sends (a : Nat → SendAnswers) (n sent : Nat) (s : LoopState) :
    s.sends <+: (s.sendLoop parse a n sent).sends := by
  induction n generalizing sent s with
  | zero => exact List.prefix_rfl
  | succ n ih =>
    unfold LoopState.sendLoop
    split
    · exact List.prefix_rfl
    dsimp only
    split
    · refine List.IsPrefix.trans ?_ ((drainDisk_sends _ _ _ _).trans (ih (sent + 1) _))
      exact List.prefix_append _ _
    · exact List.prefix_append _ _

/-- No send is forgotten. -/
theorem iterate_sends (s : LoopState) (e : Iteration) : s.sends <+: (s.iterate serialize parse cfg e).sends := by
  unfold iterate
  dsimp only
  rw [sends_adjustInterval, ← takeFresh_sends e.pushes e.fresh s]
  split
  · exact sendLoop_sends _ _ _ _
  · exact List.prefix_rfl

/-! ## One iteration -/

/-- An iteration drains its fresh batches. -/
theorem iterate_drained (s : LoopState) (e : Iteration) :
    (s.iterate serialize parse cfg e).drained = s.drained ++ e.fresh := by
  have hadjust : ∀ s : LoopState, (s.adjustInterval cfg).drained = s.drained := by
    intro s
    unfold adjustInterval
    split <;> rfl
  unfold iterate
  dsimp only
  rw [hadjust]
  split
  · rw [sendLoop_drained, takeFresh_drained]
  · rw [takeFresh_drained]

end

end PudimNetMon.Agent
