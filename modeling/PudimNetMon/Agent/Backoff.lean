import Mathlib.Algebra.Order.Ring.Int
import Mathlib.Data.Nat.Cast.Order.Ring
import PudimNetMon.Agent.LoadConfig
import PudimNetMon.Agent.Trimming

/-!
# Backoff (`main.cpp`)

The main loop doubles its interval while the collector signals overload. The signal is read behind each send from the
buffer and kept until the next one; what the collector signals in a send from disk is not read.

- `sends_iterate`: the acknowledged sends of an iteration are the successful attempts of the main loop;
- `backoff_iff`: the runs in which the interval is the base doubled once for each signal since the last acknowledgement
  without one, up to ten times the base.
-/

namespace PudimNetMon.Agent

/-- An acknowledged send. -/
structure Ack where
  fromDisk : Bool
  /-- The collector signalled overload. -/
  overloaded : Bool
  deriving DecidableEq, Repr

/-- An iteration of the main loop, and what the collector signals in the sends from disk: by the round of the send loop
and the round of the loop over the disk buffer. -/
structure Turn where
  iteration : Iteration
  diskSignals : Nat → Nat → Bool

section

variable (serialize : MetricsBatch → Option Blob) (parse : Blob → Option MetricsBatch) (cfg : AgentConfig)

namespace LoopState

/-- The acknowledged sends of `drainDisk`. -/
def drainAcks (a : Nat → DrainAnswers) (signals : Nat → Bool) : Nat → Nat → LoopState → List Ack
  | 0, _, _ => []
  | n + 1, i, s =>
    let (size, disk) := s.disk.size (a i).size
    let s := { s with disk }
    if size = 0 then []
    else
      let (blobs, disk) := s.disk.peek (a i).peek 1
      let s := { s with disk }
      match blobs with
      | [] => []
      | r :: _ =>
        match parse r.payload with
        | some pb =>
          let s := s.logSend r.origin pb (a i).send
          if (a i).send then ⟨true, signals i⟩ :: drainAcks a signals n (i + 1) (s.popDisk (a i).pop) else []
        | none => drainAcks a signals n (i + 1) (s.popDisk (a i).pop)

/-- The acknowledged sends of `sendLoop`. -/
def sendAcks (a : Nat → SendAnswers) (signals : Nat → Nat → Bool) : Nat → Nat → LoopState → List Ack
  | 0, _, _ => []
  | n + 1, sent, s =>
    match s.buffer with
    | [] => []
    | t :: rest =>
      let s := s.logSend (some t) t.batch (a sent).send
      if (a sent).send then
        let s := { s with buffer := rest, backpressure := (a sent).backpressure }
        ⟨false, (a sent).backpressure⟩ :: (s.drainAcks parse (a sent).drains (signals sent) 10 0 ++
          sendAcks a signals n (sent + 1) (s.drainDisk parse (a sent).drains 10 0))
      else []

/-- The acknowledged sends of an iteration, in order. -/
def acks (s : LoopState) (e : Turn) : List Ack :=
  let s := takeFresh serialize cfg e.iteration.pushes e.iteration.fresh s
  let maxSends := if s.buffer.length > 1 then kMaxBatchesPerCycle else 1
  if s.shouldSend e.iteration then sendAcks parse e.iteration.sends e.diskSignals maxSends 0 s else []

end LoopState

/-- The signals since the last acknowledgement without one. -/
def streak (k : Nat) (acks : List Ack) : Nat := acks.foldl (fun k a => if a.overloaded then k + 1 else 0) k

/-- The signal of the last send from the buffer. -/
def lastSignal (signal : Bool) (acks : List Ack) : Bool :=
  acks.foldl (fun signal a => if a.fromDisk then signal else a.overloaded) signal

/-- A product that an `int` holds. -/
def Fits (n : Int) : Prop := -2 ^ 31 ≤ n ∧ n < 2 ^ 31

instance (n : Int) : Decidable (Fits n) := inferInstanceAs (Decidable (_ ∧ _))

/-- The main loop with the signals it should count, and whether one of its products has overflowed. -/
structure Backoff where
  loop : LoopState
  k : Nat := 0
  overflow : Bool := false

/-- The products of the backoff are taken while the signal is on. -/
def ProductsFit (s : LoopState) : Prop := Fits (s.currentIntervalMs * 2) ∧ Fits (cfg.intervalMs * 10)

instance (s : LoopState) : Decidable (ProductsFit cfg s) := inferInstanceAs (Decidable (_ ∧ _))

def Backoff.step (w : Backoff) (e : Turn) : Option Backoff :=
  (w.loop.step serialize parse cfg e.iteration).map fun loop =>
    let acks := w.loop.acks serialize parse cfg e
    { loop, k := streak w.k acks
      overflow := w.overflow || (lastSignal w.loop.backpressure acks && !ProductsFit cfg w.loop) }

/-- The interval is the base doubled `k` times, up to ten times the base, and was so in exact integers. -/
structure Law (w : Backoff) : Prop where
  exact : w.overflow = false
  interval : w.loop.currentIntervalMs = min (cfg.intervalMs * 2 ^ w.k) (10 * cfg.intervalMs)

/-- An iteration at whose end the signal is on doubles an interval that fits for exactly one new signal, or is at the
cap before and behind it; one at whose end the signal is off comes behind an acknowledgement without a signal. -/
def Paced (w : Backoff) (e : Turn) : Prop :=
  let k' := streak w.k (w.loop.acks serialize parse cfg e)
  if lastSignal w.loop.backpressure (w.loop.acks serialize parse cfg e) then
    ProductsFit cfg w.loop ∧ (cfg.intervalMs = 0 ∨ k' = w.k + 1 ∨ 3 ≤ w.k ∧ 4 ≤ k')
  else cfg.intervalMs = 0 ∨ k' = 0

end

variable {serialize : MetricsBatch → Option Blob} {parse : Blob → Option MetricsBatch} {cfg : AgentConfig}

open LoopState

/-! ## The acknowledged sends are those of the loop -/

/-- The attempts of a loop that succeeded. -/
def LoopState.accepted (s : LoopState) : Nat := (s.sends.filter (·.ok)).length

theorem accepted_logSend (s : LoopState) (item : Option Tracked) (content : MetricsBatch) (ok : Bool) :
    (s.logSend item content ok).accepted = s.accepted + if ok then 1 else 0 := by
  unfold LoopState.accepted LoopState.logSend
  rw [List.filter_append, List.length_append]
  cases ok with
  | false => rfl
  | true => rfl

theorem accepted_drainDisk (a : Nat → DrainAnswers) (signals : Nat → Bool) (n i : Nat) (s : LoopState) :
    (s.drainDisk parse a n i).accepted = s.accepted + (s.drainAcks parse a signals n i).length := by
  induction n generalizing i s with
  | zero => rfl
  | succ n ih =>
    unfold LoopState.drainDisk LoopState.drainAcks
    dsimp only
    by_cases hsize : (s.disk.size (a i).size).1 = 0
    · rw [if_pos hsize, if_pos hsize]
      rfl
    rw [if_neg hsize, if_neg hsize]
    cases ((s.disk.size (a i).size).2.peek (a i).peek 1).1 with
    | nil => rfl
    | cons r rows =>
      dsimp only
      cases parse r.payload with
      | none => exact ih _ _
      | some pb =>
        dsimp only
        by_cases hsend : (a i).send = true
        · rw [if_pos hsend, if_pos hsend, ih, List.length_cons]
          show (LoopState.logSend _ _ _ _).accepted + _ = _
          rw [accepted_logSend, if_pos hsend]
          exact Nat.add_right_comm _ _ _
        · rw [if_neg hsend, if_neg hsend, accepted_logSend, if_neg hsend]
          rfl

theorem accepted_sendLoop (a : Nat → SendAnswers) (signals : Nat → Nat → Bool) (n sent : Nat) (s : LoopState) :
    (s.sendLoop parse a n sent).accepted = s.accepted + (s.sendAcks parse a signals n sent).length := by
  induction n generalizing sent s with
  | zero => rfl
  | succ n ih =>
    unfold LoopState.sendLoop LoopState.sendAcks
    cases s.buffer with
    | nil => rfl
    | cons t rest =>
      dsimp only
      by_cases hsend : (a sent).send = true
      · rw [if_pos hsend, if_pos hsend, ih, accepted_drainDisk _ (signals sent), List.length_cons, List.length_append]
        show (LoopState.logSend _ _ _ _).accepted + _ + _ = _
        rw [accepted_logSend, if_pos hsend]
        omega
      · rw [if_neg hsend, if_neg hsend, accepted_logSend, if_neg hsend]
        rfl

/-! ## What is left alone in front of the sends -/

/-- The interval and the signal. -/
def LoopState.pace (s : LoopState) : Int × Bool := (s.currentIntervalMs, s.backpressure)

theorem takeFresh_pace (pushes : Nat → PushAnswers) (fresh : List Tracked) (s : LoopState) :
    (s.takeFresh serialize cfg pushes fresh).pace = s.pace := by
  refine takeFresh_frame (·.pace) pushes (fun s buffer => ?_) (fun _ _ => rfl) fresh s
  exact makeRoom_frame (·.pace) (spill_frame (·.pace) fun _ _ _ _ _ => rfl) (fun _ _ _ => rfl) pushes buffer s

theorem drainDisk_pace (a : Nat → DrainAnswers) (n i : Nat) (s : LoopState) :
    (s.drainDisk parse a n i).pace = s.pace :=
  drainDisk_frame (·.pace) (fun _ _ _ _ => rfl) a n i s

/-- An iteration logs as many successful attempts as it has acknowledged sends. -/
theorem sends_iterate (s : LoopState) (e : Turn) :
    (s.iterate serialize parse cfg e.iteration).accepted = s.accepted + (s.acks serialize parse cfg e).length := by
  have htake : (s.takeFresh serialize cfg e.iteration.pushes e.iteration.fresh).accepted = s.accepted := by
    unfold LoopState.accepted
    rw [takeFresh_sends]
  have hadjust (s : LoopState) : (s.adjustInterval cfg).accepted = s.accepted := by
    unfold LoopState.accepted
    rw [sends_adjustInterval]
  unfold iterate acks
  dsimp only
  rw [hadjust]
  split
  · rw [accepted_sendLoop _ e.diskSignals, htake]
  · rw [htake]
    rfl

/-! ## The signal behind the sends -/

theorem lastSignal_append (signal : Bool) (acks acks' : List Ack) :
    lastSignal signal (acks ++ acks') = lastSignal (lastSignal signal acks) acks' := List.foldl_append

/-- A send from disk does not change the signal. -/
theorem lastSignal_drainAcks (a : Nat → DrainAnswers) (signals : Nat → Bool) (n i : Nat) (s : LoopState)
    (signal : Bool) : lastSignal signal (s.drainAcks parse a signals n i) = signal := by
  induction n generalizing i s with
  | zero => rfl
  | succ n ih =>
    unfold LoopState.drainAcks
    dsimp only
    split
    · rfl
    split
    · rfl
    split
    · split
      · exact ih _ _
      · rfl
    · exact ih _ _

theorem sendLoop_pace (a : Nat → SendAnswers) (signals : Nat → Nat → Bool) (n sent : Nat) (s : LoopState) :
    (s.sendLoop parse a n sent).pace =
      (s.pace.1, lastSignal s.pace.2 (s.sendAcks parse a signals n sent)) := by
  induction n generalizing sent s with
  | zero => rfl
  | succ n ih =>
    unfold LoopState.sendLoop LoopState.sendAcks
    cases s.buffer with
    | nil => rfl
    | cons t rest =>
      dsimp only
      by_cases hsend : (a sent).send = true
      · rw [if_pos hsend, if_pos hsend, ih, drainDisk_pace]
        show _ = (s.pace.1, lastSignal (a sent).backpressure (_ ++ _))
        rw [lastSignal_append, lastSignal_drainAcks]
        rfl
      · rw [if_neg hsend, if_neg hsend]
        rfl

/-- What an iteration makes of the interval. -/
theorem interval_iterate (s : LoopState) (e : Turn) :
    (s.iterate serialize parse cfg e.iteration).currentIntervalMs =
        (if lastSignal s.backpressure (s.acks serialize parse cfg e) then
          min (asInt (s.currentIntervalMs * 2)) (asInt (cfg.intervalMs * 10))
        else cfg.intervalMs) ∧
      (s.iterate serialize parse cfg e.iteration).backpressure =
        lastSignal s.backpressure (s.acks serialize parse cfg e) := by
  have hadjust (t : LoopState) (signal : Bool) (ht : t.pace = (s.currentIntervalMs, signal)) :
      (t.adjustInterval cfg).currentIntervalMs =
          (if signal then min (asInt (s.currentIntervalMs * 2)) (asInt (cfg.intervalMs * 10)) else cfg.intervalMs) ∧
        (t.adjustInterval cfg).backpressure = signal := by
    obtain ⟨hinterval, hsignal⟩ := Prod.mk.inj ht
    unfold adjustInterval
    cases signal with
    | true =>
      rw [if_pos hsignal]
      exact ⟨by rw [← hinterval]; rfl, hsignal⟩
    | false =>
      rw [if_neg (by simp [hsignal])]
      exact ⟨rfl, hsignal⟩
  have htake : (s.takeFresh serialize cfg e.iteration.pushes e.iteration.fresh).pace = s.pace :=
    takeFresh_pace _ _ s
  unfold iterate acks
  dsimp only
  apply hadjust
  split
  · rw [sendLoop_pace _ e.diskSignals, htake]
    rfl
  · exact htake

/-! ## Doubling up to ten times the base -/

/-- Powers of two from sixteen on are above the cap. -/
theorem capped_eq_iff (m n : Nat) : min (2 ^ m) 10 = min (2 ^ n) 10 ↔ m = n ∨ 4 ≤ m ∧ 4 ≤ n := by
  have hcap {n : Nat} (h : 4 ≤ n) : min (2 ^ n) 10 = 10 := by
    have hpow : 2 ^ 4 ≤ 2 ^ n := Nat.pow_le_pow_right (by decide) h
    omega
  have hbelow {n : Nat} (h : n < 4) : 2 ^ n ≤ 8 := Nat.pow_le_pow_right (n := 2) (by decide) (Nat.le_of_lt_succ h)
  rcases Nat.lt_or_ge m 4 with hm | hm <;> rcases Nat.lt_or_ge n 4 with hn | hn
  · have hm' := hbelow hm
    have hn' := hbelow hn
    constructor
    · intro h
      exact .inl (Nat.pow_right_injective (Nat.le_refl 2) (show 2 ^ m = 2 ^ n by omega))
    · rintro (rfl | ⟨h, -⟩)
      · rfl
      · omega
  · have hm' := hbelow hm
    rw [hcap hn]
    omega
  · have hn' := hbelow hn
    rw [hcap hm]
    omega
  · rw [hcap hm, hcap hn]
    exact iff_of_true rfl (.inr ⟨hm, hn⟩)

theorem capped_mul {base : Int} (h : 0 ≤ base) (k : Nat) :
    min (base * 2 ^ k) (10 * base) = base * (min (2 ^ k) 10 : Nat) := by
  rw [Nat.cast_min, mul_min_of_nonneg _ _ h, mul_comm 10 base]
  push_cast
  rfl

/-- One doubling more is the same as what the law says, if the streak is one longer or both are at the cap. -/
theorem doubled_eq_iff {base : Int} (h : 0 ≤ base) (k k' : Nat) :
    min (min (base * 2 ^ k) (10 * base) * 2) (base * 10) = min (base * 2 ^ k') (10 * base) ↔
      base = 0 ∨ k' = k + 1 ∨ 3 ≤ k ∧ 4 ≤ k' := by
  have hdouble : min (min (base * 2 ^ k) (10 * base) * 2) (base * 10) = min (base * 2 ^ (k + 1)) (10 * base) := by
    rw [pow_succ, ← mul_assoc]
    omega
  rw [hdouble, capped_mul h, capped_mul h, mul_eq_mul_left_iff, Nat.cast_inj, capped_eq_iff]
  omega

theorem base_eq_iff {base : Int} (h : 0 ≤ base) (k' : Nat) :
    base = min (base * 2 ^ k') (10 * base) ↔ base = 0 ∨ k' = 0 := by
  have hone : base * ((min (2 ^ 0) 10 : Nat) : Int) = base := by simp
  rw [capped_mul h]
  calc base = base * ((min (2 ^ k') 10 : Nat) : Int)
      ↔ base * ((min (2 ^ 0) 10 : Nat) : Int) = base * ((min (2 ^ k') 10 : Nat) : Int) := by rw [hone]
    _ ↔ base = 0 ∨ k' = 0 := by
      rw [mul_eq_mul_left_iff, Nat.cast_inj, capped_eq_iff]
      omega

/-! ## Runs -/

theorem asInt_of_fits {n : Int} (h : Fits n) : asInt n = n := by
  unfold asInt
  exact Int.bmod_eq_of_le (by have := h.1; omega) (by have := h.2; omega)

/-- The law gives the range of the interval. -/
theorem Law.range {w : Backoff} (h : Law cfg w) (hbase : 0 ≤ cfg.intervalMs) :
    cfg.intervalMs ≤ w.loop.currentIntervalMs ∧ w.loop.currentIntervalMs ≤ 10 * cfg.intervalMs := by
  have hpow : cfg.intervalMs * 1 ≤ cfg.intervalMs * 2 ^ w.k := by
    apply Int.mul_le_mul_of_nonneg_left _ hbase
    exact_mod_cast Nat.one_le_two_pow
  rw [h.interval]
  omega

theorem step_backoff {w w' : Backoff} {e : Turn} (h : w.step serialize parse cfg e = some w') :
    w' = { loop := w.loop.iterate serialize parse cfg e.iteration
           k := streak w.k (w.loop.acks serialize parse cfg e)
           overflow := w.overflow ||
            (lastSignal w.loop.backpressure (w.loop.acks serialize parse cfg e) && !ProductsFit cfg w.loop) } := by
  obtain ⟨loop, hloop, rfl⟩ := Option.map_eq_some_iff.1 h
  unfold LoopState.step at hloop
  split at hloop
  · cases hloop
    rfl
  · cases hloop

/-- An iteration keeps the law exactly if it is paced. -/
theorem law_step (hbase : 0 ≤ cfg.intervalMs) {w w' : Backoff} {e : Turn} (hw : Law cfg w)
    (h : w.step serialize parse cfg e = some w') : Law cfg w' ↔ Paced serialize parse cfg w e := by
  have hinterval : (w.loop.iterate serialize parse cfg e.iteration).currentIntervalMs = _ :=
    (interval_iterate w.loop e).1
  rw [step_backoff h]
  unfold Paced
  dsimp only
  split
  · rename_i hsignal
    rw [if_pos hsignal] at hinterval
    constructor
    · rintro ⟨hexact, hlaw⟩
      have hfit : ProductsFit cfg w.loop := by simpa [hsignal, hw.exact] using hexact
      dsimp only at hlaw
      rw [hinterval, asInt_of_fits hfit.1, asInt_of_fits hfit.2, hw.interval, doubled_eq_iff hbase] at hlaw
      exact ⟨hfit, hlaw⟩
    · rintro ⟨hfit, hpace⟩
      refine ⟨by simp [hw.exact, hfit], ?_⟩
      dsimp only
      rw [hinterval, asInt_of_fits hfit.1, asInt_of_fits hfit.2, hw.interval, doubled_eq_iff hbase]
      exact hpace
  · rename_i hsignal
    rw [if_neg hsignal] at hinterval
    constructor
    · rintro ⟨-, hlaw⟩
      dsimp only at hlaw
      rw [hinterval] at hlaw
      exact (base_eq_iff hbase _).1 hlaw
    · intro hpace
      refine ⟨by simp [hw.exact, hsignal], ?_⟩
      dsimp only
      rw [hinterval]
      exact (base_eq_iff hbase _).2 hpace

/-- **Backoff.** The interval obeys the law along exactly those runs whose iterations are all paced, with a base that is
not negative. -/
theorem backoff_iff (serialize : MetricsBatch → Option Blob) (parse : Blob → Option MetricsBatch)
    (cfg : Config.AgentConfig) (maxBytes : UInt64) (table : List Blob) (a : OpenAnswers) (es : List Turn) :
    Always (Backoff.step serialize parse (loopConfig cfg)) (Law (loopConfig cfg))
        { loop := startLoop (loopConfig cfg) maxBytes table a } es ↔
      0 ≤ cfg.intervalMs.toInt ∧
        Guarded (Backoff.step serialize parse (loopConfig cfg)) (Paced serialize parse (loopConfig cfg))
          { loop := startLoop (loopConfig cfg) maxBytes table a } es := by
  have hstart : Law (loopConfig cfg) { loop := startLoop (loopConfig cfg) maxBytes table a } ↔
      0 ≤ (loopConfig cfg).intervalMs := by
    constructor
    · rintro ⟨-, hlaw⟩
      have hcurrent : (loopConfig cfg).intervalMs =
        min ((loopConfig cfg).intervalMs * 2 ^ 0) (10 * (loopConfig cfg).intervalMs) := hlaw
      omega
    · intro hbase
      exact ⟨rfl, (base_eq_iff hbase 0).2 (.inr rfl)⟩
  have hrun (hbase : 0 ≤ (loopConfig cfg).intervalMs) :
      Always (Backoff.step serialize parse (loopConfig cfg)) (Law (loopConfig cfg))
          { loop := startLoop (loopConfig cfg) maxBytes table a } es ↔
        Guarded (Backoff.step serialize parse (loopConfig cfg)) (Paced serialize parse (loopConfig cfg))
          { loop := startLoop (loopConfig cfg) maxBytes table a } es :=
    always_iff_guarded (fun _ _ _ (h : True) _ => h) (fun _ _ _ _ hs hstep => law_step hbase hs hstep) trivial
      (hstart.2 hbase)
  constructor
  · intro h
    have hbase := hstart.1 h.head
    exact ⟨hbase, (hrun hbase).1 h⟩
  · rintro ⟨hbase, h⟩
    exact (hrun hbase).2 h

/-- One send with a signal, and the next iteration, which sends nothing, doubles the interval once more. -/
theorem idle_turn_doubles :
    let env : Config.Env :=
      { defaultConfigPath := "/etc/pudim-agent.conf", defaultDiskBufferPath := "/var/lib/pudim/buffer.db",
        files := fun _ => none, getoptLong := fun _ => [] }
    let signalled : Turn :=
      { iteration := { refusedBatch 0 with
          sends := fun _ => { (refusedBatch 0).sends 0 with send := true, backpressure := true } }
        diskSignals := fun _ _ => false }
    let idle : Turn := { iteration := { refusedBatch 0 with fresh := [] }, diskSignals := fun _ _ => false }
    ∃ cfg, Config.loadAgentConfig env [] = .ok cfg ∧ cfg.intervalMs = 5000 ∧
      ∃ w, runEvents (Backoff.step (fun _ => none) (fun _ => none) (loopConfig cfg))
          { loop := startLoop (loopConfig cfg) 0 [] ⟨false, false, false, false⟩ } [signalled, idle] = some w ∧
        w.loop.acks (fun _ => none) (fun _ => none) (loopConfig cfg) idle = [] ∧
        w.k = 1 ∧ w.loop.currentIntervalMs = 20000 ∧ ¬Law (loopConfig cfg) w := by
  intro env signalled idle
  refine ⟨_, rfl, rfl, _, rfl, rfl, rfl, by decide, fun hlaw => ?_⟩
  exact absurd hlaw.interval (by decide)

end PudimNetMon.Agent
