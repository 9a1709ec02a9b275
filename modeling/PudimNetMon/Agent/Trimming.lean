import PudimNetMon.Agent.LoadConfig
import PudimNetMon.Agent.MainLoop

/-!
# The trimming loop (`main.cpp`)

`max-buffer-size` is any `int` from the file or the command line, and the main loop trims its buffer while the size,
converted to `int`, is above it.

- `makeRoom_defined_iff`: the runs of the loop are those of the model of the main loop;
- `trimming_iff`: the bounds with which every run trims its buffer without reaching into an empty one.
-/

namespace PudimNetMon.Agent

/-- What the main loop takes from the configuration. -/
def loopConfig (cfg : Config.AgentConfig) : AgentConfig := ⟨cfg.maxBufferSize.toInt, cfg.intervalMs.toInt⟩

/-- A run of the trimming loop to its end: each turn takes the front of a buffer that has one. -/
inductive Trims (maxBufferSize : Int) : List Tracked → List Tracked → Prop
  | stop {buffer : List Tracked} (h : ¬asInt buffer.length > maxBufferSize) : Trims maxBufferSize buffer buffer
  | pop {t : Tracked} {rest out : List Tracked} (h : asInt (t :: rest).length > maxBufferSize)
      (hrest : Trims maxBufferSize rest out) : Trims maxBufferSize (t :: rest) out

/-- The sizes that the loop compares. -/
def sizesTested (maxBufferSize : Int) : List Tracked → List Nat
  | [] => [0]
  | t :: rest =>
    (t :: rest).length :: if asInt (t :: rest).length > maxBufferSize then sizesTested maxBufferSize rest else []

/-- The loop ends without reaching into an empty buffer, and no size is changed by its conversion. -/
structure TrimsSafely (maxBufferSize : Int) (buffer : List Tracked) : Prop where
  ends : ∃ out, Trims maxBufferSize buffer out
  exact : ∀ n ∈ sizesTested maxBufferSize buffer, asInt n = n

section

variable (serialize : MetricsBatch → Option Blob) (parse : Blob → Option MetricsBatch) (cfg : AgentConfig)

/-- The trimming behind each fresh batch is safe. -/
def LoopState.TakesSafely (pushes : Nat → PushAnswers) : List Tracked → LoopState → Prop
  | [], _ => True
  | t :: ts, s =>
    TrimsSafely cfg.maxBufferSize (s.buffer ++ [t]) ∧
      TakesSafely pushes ts
        (makeRoom serialize cfg pushes (s.buffer ++ [t]) { s with drained := s.drained ++ [t] })

end

variable {serialize : MetricsBatch → Option Blob} {parse : Blob → Option MetricsBatch} {cfg : AgentConfig}

open LoopState

/-! ## Runs of the loop are those of `makeRoom` -/

theorem spill_undefined (s : LoopState) (a : PushAnswers) (t : Tracked) :
    (s.spill serialize a t).undefined = s.undefined := spill_frame (·.undefined) (fun _ _ _ _ _ => rfl) s a t

/-- A run of the loop is what `makeRoom` does. -/
theorem makeRoom_of_trims {pushes : Nat → PushAnswers} {buffer out : List Tracked}
    (h : Trims cfg.maxBufferSize buffer out) (s : LoopState) :
    (s.makeRoom serialize cfg pushes buffer).buffer = out ∧
      (s.makeRoom serialize cfg pushes buffer).undefined = s.undefined := by
  induction h generalizing s with
  | @stop buffer h =>
    cases buffer with
    | nil =>
      have hzero : ¬asInt 0 > cfg.maxBufferSize := h
      simp [LoopState.makeRoom, hzero]
    | cons t rest =>
      unfold LoopState.makeRoom
      rw [if_neg h]
      exact ⟨rfl, rfl⟩
  | pop h hrest ih =>
    unfold LoopState.makeRoom
    rw [if_pos h]
    obtain ⟨hbuffer, hundefined⟩ := ih (s.spill serialize _ _)
    exact ⟨hbuffer, by rw [hundefined, spill_undefined]⟩

/-- Without one it reaches into an empty buffer. -/
theorem makeRoom_undefined {pushes : Nat → PushAnswers} {buffer : List Tracked}
    (h : ¬∃ out, Trims cfg.maxBufferSize buffer out) (s : LoopState) :
    (s.makeRoom serialize cfg pushes buffer).undefined = true := by
  induction buffer generalizing s with
  | nil =>
    have hzero : asInt 0 > cfg.maxBufferSize := by
      by_contra hnot
      exact h ⟨[], .stop hnot⟩
    simp [LoopState.makeRoom, hzero]
  | cons t rest ih =>
    unfold LoopState.makeRoom
    split
    · rename_i hover
      exact ih (fun ⟨out, hout⟩ => h ⟨out, .pop hover hout⟩) _
    · rename_i hfits
      exact absurd ⟨_, .stop hfits⟩ h

/-- `makeRoom` looks at the front of an empty buffer unless the loop has a run. -/
theorem makeRoom_defined_iff (pushes : Nat → PushAnswers) (buffer : List Tracked) {s : LoopState}
    (hs : s.undefined = false) :
    (s.makeRoom serialize cfg pushes buffer).undefined = false ↔ ∃ out, Trims cfg.maxBufferSize buffer out := by
  constructor
  · intro h
    by_contra hnone
    rw [makeRoom_undefined hnone] at h
    cases h
  · rintro ⟨out, hout⟩
    rw [(makeRoom_of_trims hout s).2, hs]

/-! ## Bounds below the largest `int` -/

theorem asInt_of_lt {n : Nat} (h : n < 2 ^ 31) : asInt n = n := by
  unfold asInt
  exact Int.bmod_eq_of_le (by omega) (by omega)

/-- A buffer that is over the bound by one batch at most is trimmed safely. -/
theorem trimsSafely_of_le (h : 0 ≤ cfg.maxBufferSize) (hmax : cfg.maxBufferSize < 2 ^ 31 - 1) {buffer : List Tracked}
    (hlength : (buffer.length : Int) ≤ cfg.maxBufferSize + 1) : TrimsSafely cfg.maxBufferSize buffer := by
  have hexact : asInt buffer.length = buffer.length := asInt_of_lt (by omega)
  induction buffer with
  | nil =>
    refine ⟨⟨[], .stop (by rw [hexact]; simpa using h)⟩, ?_⟩
    rw [sizesTested, List.forall_mem_singleton]
    exact hexact
  | cons t rest ih =>
    rw [List.length_cons] at hlength
    obtain ⟨⟨out, hout⟩, hsizes⟩ := ih (by omega) (asInt_of_lt (by omega))
    constructor
    · by_cases hover : asInt (t :: rest).length > cfg.maxBufferSize
      · exact ⟨out, .pop hover hout⟩
      · exact ⟨_, .stop hover⟩
    · rw [sizesTested, List.forall_mem_cons]
      refine ⟨hexact, ?_⟩
      split
      · exact hsizes
      · exact nofun

theorem makeRoom_length (hmax : 0 ≤ cfg.maxBufferSize) (pushes : Nat → PushAnswers) {buffer : List Tracked}
    (hlength : buffer.length < 2 ^ 31) (s : LoopState) :
    ((s.makeRoom serialize cfg pushes buffer).buffer.length : Int) ≤ cfg.maxBufferSize := by
  induction buffer generalizing s with
  | nil => simpa [LoopState.makeRoom] using hmax
  | cons t rest ih =>
    unfold LoopState.makeRoom
    split
    · rw [List.length_cons] at hlength
      exact ih (by omega) _
    · rename_i hfits
      rw [asInt_of_lt hlength] at hfits
      exact Int.not_lt.1 hfits

theorem takesSafely (h : 0 ≤ cfg.maxBufferSize) (hmax : cfg.maxBufferSize < 2 ^ 31 - 1) (pushes : Nat → PushAnswers)
    (fresh : List Tracked) {s : LoopState} (hlength : (s.buffer.length : Int) ≤ cfg.maxBufferSize) :
    s.TakesSafely serialize cfg pushes fresh ∧
      ((s.takeFresh serialize cfg pushes fresh).buffer.length : Int) ≤ cfg.maxBufferSize := by
  induction fresh generalizing s with
  | nil => exact ⟨trivial, hlength⟩
  | cons t ts ih =>
    have happend : (s.buffer ++ [t]).length = s.buffer.length + 1 := by simp
    have hroom : ((makeRoom serialize cfg pushes (s.buffer ++ [t]) { s with drained := s.drained ++ [t] }).buffer.length
        : Int) ≤ cfg.maxBufferSize := makeRoom_length h pushes (by omega) _
    obtain ⟨hsafe, hshort⟩ := ih hroom
    exact ⟨⟨trimsSafely_of_le h hmax (by omega), hsafe⟩, hshort⟩

theorem drainDisk_buffer (a : Nat → DrainAnswers) (n i : Nat) (s : LoopState) :
    (s.drainDisk parse a n i).buffer = s.buffer :=
  drainDisk_frame (·.buffer) (fun _ _ _ _ => rfl) a n i s

theorem sendLoop_length (a : Nat → SendAnswers) (n sent : Nat) (s : LoopState) :
    (s.sendLoop parse a n sent).buffer.length ≤ s.buffer.length := by
  induction n generalizing sent s with
  | zero => exact Nat.le_refl _
  | succ n ih =>
    unfold LoopState.sendLoop
    split
    · exact Nat.le_refl _
    rename_i t rest hbuffer
    dsimp only
    split
    · refine Nat.le_trans (ih _ _) ?_
      rw [drainDisk_buffer, hbuffer]
      exact Nat.le_succ _
    · exact Nat.le_refl _

theorem adjustInterval_buffer (s : LoopState) : (s.adjustInterval cfg).buffer = s.buffer := by
  unfold adjustInterval
  split <;> rfl

/-- An iteration leaves no more in the buffer than its trimming does. -/
theorem iterate_length (s : LoopState) (e : Iteration) :
    (s.iterate serialize parse cfg e).buffer.length ≤ (s.takeFresh serialize cfg e.pushes e.fresh).buffer.length := by
  unfold iterate
  dsimp only
  rw [adjustInterval_buffer]
  split
  · exact sendLoop_length _ _ _ _
  · exact Nat.le_refl _

/-- The buffer never holds more than the bound. -/
theorem guarded_takesSafely (h : 0 ≤ cfg.maxBufferSize) (hmax : cfg.maxBufferSize < 2 ^ 31 - 1) {s : LoopState}
    (hlength : (s.buffer.length : Int) ≤ cfg.maxBufferSize) (es : List Iteration) :
    Guarded (LoopState.step serialize parse cfg) (fun s e => s.TakesSafely serialize cfg e.pushes e.fresh) s es := by
  refine guarded_of_inv (fun s e s' (hs : (s.buffer.length : Int) ≤ cfg.maxBufferSize) hstep => ?_)
    (fun s e hs => ?_) hlength
  case refine_2 => exact (takesSafely h hmax e.pushes e.fresh hs).1
  unfold LoopState.step at hstep
  split at hstep
  · cases hstep
    have hiterate : (s.iterate serialize parse cfg e).buffer.length ≤ _ := iterate_length s e
    have htake : ((s.takeFresh serialize cfg e.pushes e.fresh).buffer.length : Int) ≤ _ :=
      (takesSafely h hmax e.pushes e.fresh hs).2
    omega
  · cases hstep

/-! ## The other bounds -/

/-- A turn of the main loop with one fresh batch, whose sending fails. -/
def refusedBatch (n : Nat) : Iteration where
  fresh := [⟨n, {}⟩]
  pushes := fun _ => { trim := ⟨false, 0, false, false⟩, prepare := false, insert := false }
  elapsed := false
  sends := fun _ => { send := false, backpressure := false, drains := fun _ => ⟨⟨false, false⟩, ⟨false, 0⟩, false,
    ⟨false, 0, false, false⟩⟩ }

theorem takeFresh_room {n : Nat} {s : LoopState} (hmax : cfg.maxBufferSize = 2 ^ 31 - 1)
    (hlength : s.buffer.length = n) (hn : n < 2 ^ 31 - 1) (pushes : Nat → PushAnswers) (t : Tracked) :
    (s.takeFresh serialize cfg pushes [t]).buffer = s.buffer ++ [t] := by
  have happend : (s.buffer ++ [t]).length = n + 1 := by simp [hlength]
  have hfits : ¬asInt (s.buffer ++ [t]).length > cfg.maxBufferSize := by
    rw [happend, asInt_of_lt (by omega), hmax]
    omega
  exact (makeRoom_of_trims (.stop hfits) _).1

theorem drained_refusedBatch {n : Nat} {s : LoopState} (hids : s.drained.map (·.id) = List.range n) :
    (s.drained ++ (refusedBatch n).fresh).map (·.id) = List.range (n + 1) := by
  rw [List.map_append, hids, List.range_succ]
  rfl

theorem step_refusedBatch_eq {n : Nat} {s : LoopState} (hids : s.drained.map (·.id) = List.range n) :
    s.step serialize parse cfg (refusedBatch n) = some (s.iterate serialize parse cfg (refusedBatch n)) := by
  unfold LoopState.step
  rw [if_pos]
  refine ⟨Nat.succ_le_succ (Nat.zero_le _), ?_⟩
  rw [drained_refusedBatch hids]
  exact List.nodup_range

/-- A refused batch stays in a buffer with room. -/
theorem step_refusedBatch {n : Nat} {s : LoopState} (hmax : cfg.maxBufferSize = 2 ^ 31 - 1)
    (hlength : s.buffer.length = n) (hn : n < 2 ^ 31 - 1) (hids : s.drained.map (·.id) = List.range n) :
    ∃ s', s.step serialize parse cfg (refusedBatch n) = some s' ∧ s'.buffer.length = n + 1 ∧
      s'.drained.map (·.id) = List.range (n + 1) := by
  refine ⟨s.iterate serialize parse cfg (refusedBatch n), step_refusedBatch_eq hids, ?_, ?_⟩
  · have hroom : (s.takeFresh serialize cfg (refusedBatch n).pushes (refusedBatch n).fresh).buffer = _ :=
      takeFresh_room hmax hlength hn _ _
    have hsend (m : Nat) (s : LoopState) :
        (s.sendLoop parse (refusedBatch n).sends m 0).buffer = s.buffer := by
      cases m with
      | zero => rfl
      | succ m =>
        unfold LoopState.sendLoop
        split
        · rfl
        · rfl
    unfold iterate
    dsimp only
    rw [adjustInterval_buffer]
    split
    · rw [hsend, hroom]
      simp [hlength]
    · rw [hroom]
      simp [hlength]
  · rw [iterate_drained]
    exact drained_refusedBatch hids

/-- With the largest `int` as bound, batches that are refused fill the buffer. -/
theorem exists_run_full {s : LoopState} (hmax : cfg.maxBufferSize = 2 ^ 31 - 1) (hbuffer : s.buffer = [])
    (hdrained : s.drained = []) (n : Nat) (hn : n ≤ 2 ^ 31 - 1) :
    ∃ es t, runEvents (LoopState.step serialize parse cfg) s es = some t ∧ t.buffer.length = n ∧
      t.drained.map (·.id) = List.range n := by
  induction n with
  | zero => exact ⟨[], s, rfl, by rw [hbuffer]; rfl, by rw [hdrained]; rfl⟩
  | succ n ih =>
    obtain ⟨es, t, hrun, hlength, hids⟩ := ih (by omega)
    obtain ⟨t', hstep, hlength', hids'⟩ := step_refusedBatch hmax hlength (by omega) hids
    exact ⟨es ++ [refusedBatch n], t', by rw [runEvents_concat hrun, hstep], hlength', hids'⟩

/-- The conversion misjudges a buffer with as many batches as the largest `int` and one more. -/
theorem not_trimsSafely_full {buffer : List Tracked} (h : buffer.length = 2 ^ 31) (maxBufferSize : Int) :
    ¬TrimsSafely maxBufferSize buffer := by
  intro hsafe
  cases buffer with
  | nil => cases h
  | cons t rest =>
    have hexact := hsafe.exact (t :: rest).length List.mem_cons_self
    rw [h] at hexact
    revert hexact
    decide

/-- A negative bound is above no size. -/
theorem not_trimsSafely_negative {maxBufferSize : Int} (h : maxBufferSize < 0) (t : Tracked) :
    ¬TrimsSafely maxBufferSize [t] := by
  rintro ⟨⟨out, hout⟩, -⟩
  have hnil : ¬Trims maxBufferSize [] out := by
    intro hout
    cases hout with
    | stop hstop =>
      rw [asInt_of_lt (by decide)] at hstop
      exact hstop h
  cases hout with
  | stop hstop =>
    rw [asInt_of_lt (by simp)] at hstop
    simp at hstop
    omega
  | pop _ hrest => exact hnil hrest

/-- **The trimming loop.** In every run it ends without reaching into an empty buffer, and on sizes that the conversion
keeps, exactly if the bound is neither negative nor the largest `int`. -/
theorem trimming_iff (cfg : Config.AgentConfig) :
    (∀ serialize parse maxBytes table a es,
      Guarded (LoopState.step serialize parse (loopConfig cfg))
        (fun s e => s.TakesSafely serialize (loopConfig cfg) e.pushes e.fresh)
        (startLoop (loopConfig cfg) maxBytes table a) es) ↔
      0 ≤ cfg.maxBufferSize.toInt ∧ cfg.maxBufferSize.toInt < 2 ^ 31 - 1 := by
  constructor
  · intro h
    have hrun (es : List Iteration) := h (fun _ => none) (fun _ => none) 0 [] ⟨false, false, false, false⟩ es
    by_contra hbad
    rcases Int.lt_or_le cfg.maxBufferSize.toInt 0 with hnegative | hpos
    · -- the first fresh batch is taken out of the buffer, and then there is none
      obtain ⟨hsafe, -⟩ := ((hrun [refusedBatch 0]) _ (if_pos ⟨by decide, List.nodup_singleton 0⟩)).1
      exact not_trimsSafely_negative hnegative _ hsafe
    · have hmax : (loopConfig cfg).maxBufferSize = 2 ^ 31 - 1 := by
        have hlt := cfg.maxBufferSize.toInt_lt
        show cfg.maxBufferSize.toInt = 2 ^ 31 - 1
        omega
      obtain ⟨es, t, hfull, hlength, hids⟩ :=
        exists_run_full (s := startLoop (loopConfig cfg) 0 [] ⟨false, false, false, false⟩) hmax rfl rfl (2 ^ 31 - 1)
          (Nat.le_refl _)
      obtain ⟨hsafe, -⟩ := (hrun (es ++ [refusedBatch (2 ^ 31 - 1)])).last hfull (step_refusedBatch_eq hids)
      exact not_trimsSafely_full (by rw [List.length_append, hlength]; rfl) _ hsafe
  · rintro ⟨h, hmax⟩ serialize parse maxBytes table a es
    exact guarded_takesSafely h hmax (by simpa [startLoop, loopConfig] using h) es

/-- A bound of -1 is accepted, and the first batch is followed by a look at the front of an empty buffer. -/
theorem negative_bound_accepted :
    let env : Config.Env :=
      { defaultConfigPath := "/etc/pudim-agent.conf", defaultDiskBufferPath := "/var/lib/pudim/buffer.db",
        files := fun _ => none, getoptLong := fun _ => [.option .maxBufferSize "-1"] }
    ∃ cfg, Config.loadAgentConfig env ["--max-buffer-size", "-1"] = .ok cfg ∧ cfg.maxBufferSize = -1 ∧
      let s := startLoop (loopConfig cfg) 0 [] ⟨false, false, false, false⟩
      ¬s.TakesSafely (fun _ => none) (loopConfig cfg) (refusedBatch 0).pushes (refusedBatch 0).fresh ∧
      (s.iterate (fun _ => none) (fun _ => none) (loopConfig cfg) (refusedBatch 0)).undefined = true := by
  intro env
  refine ⟨_, rfl, rfl, ?_, ?_⟩
  · rintro ⟨hsafe, -⟩
    exact not_trimsSafely_negative (by decide) _ hsafe
  · rfl

end PudimNetMon.Agent
