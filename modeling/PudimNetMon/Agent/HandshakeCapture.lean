import Mathlib.Data.List.Infix
import PudimNetMon.Lib.DoubleArith

/-!
# The handshake capture (`pcap_probe.cpp`)

`ProbeTcpHandshake` with libpcap: it connects and reads captured packets until it has seen the SYN-ACK and the ACK of
its connection, or the time is up. Packets are read at fixed places of the captured bytes; a read outside of them is a
fault. Their times are doubles, from whole seconds and microseconds.

- `segment_eq_none_iff`: a packet makes a read leave the captured bytes exactly when fourteen of them were captured;
- `capture_measures`: the time between the first SYN and the first SYN-ACK, in what was seen up to the end, to five
  microseconds.
-/

namespace PudimNetMon.Agent.HandshakeCapture

/-! ## Packets -/

structure Segment where
  srcIp : List UInt8
  dstIp : List UInt8
  sport : UInt16
  dport : UInt16
  syn : Bool
  ack : Bool
  deriving DecidableEq

/-- A number of bytes from a place on, when they were captured. -/
def slice (data : List UInt8) (start n : Nat) : Option (List UInt8) :=
  if start + n ≤ data.length then some ((data.drop start).take n) else none

/-- `ntohs` of the two bytes at a place. -/
def port (data : List UInt8) (start : Nat) : Option UInt16 := do
  let high ← data[start]?
  let low ← data[start + 1]?
  return UInt16.ofNat (high.toNat * 256 + low.toNat)

/-- The addresses, the ports and the flags. -/
def fields (data : List UInt8) (ipHdrLen : Nat) : Option Segment := do
  let srcIp ← slice data (14 + 12) 4
  let dstIp ← slice data (14 + 16) 4
  let sport ← port data (14 + ipHdrLen)
  let dport ← port data (14 + ipHdrLen + 2)
  let flags : UInt8 ← data[14 + ipHdrLen + 13]?
  return { srcIp, dstIp, sport, dport, syn := flags &&& 0x02 ≠ 0, ack := flags &&& 0x10 ≠ 0 }

/-- What the loop makes of the captured bytes: nothing, or a segment; `none` when a read leaves them. -/
def segment (data : List UInt8) : Option (Option Segment) :=
  if data.length < 14 then some none
  else data[14]?.bind fun (version : UInt8) =>
    let ipHdrLen := (version &&& 0x0f).toNat * 4
    if version >>> 4 ≠ 4 ∨ data.length < 14 + ipHdrLen + 20 then some none
    else data[14 + 9]?.bind fun (protocol : UInt8) =>
      if protocol ≠ 6 then some none else (fields data ipHdrLen).map some

/-- The two ends of the probe's connection. -/
structure Connection where
  localIp : List UInt8
  localPort : UInt16
  targetIp : List UInt8
  port : UInt16

inductive Role
  | syn | synAck | ack
  deriving DecidableEq, Repr

/-- What a segment is for the connection. -/
def Connection.role (c : Connection) (s : Segment) : Option Role :=
  let outgoing := s.srcIp = c.localIp ∧ s.sport = c.localPort ∧ s.dstIp = c.targetIp ∧ s.dport = c.port
  let incoming := s.srcIp = c.targetIp ∧ s.sport = c.port ∧ s.dstIp = c.localIp ∧ s.dport = c.localPort
  if s.syn ∧ ¬s.ack ∧ outgoing then some .syn
  else if s.syn ∧ s.ack ∧ incoming then some .synAck
  else if ¬s.syn ∧ s.ack ∧ outgoing then some .ack
  else none

/-! ## The loop -/

/-- `struct timeval` of a packet. -/
structure Stamp where
  sec : Int
  usec : Int
  deriving DecidableEq, Repr

/-- The time in seconds. -/
def Stamp.ts (s : Stamp) : Double := (Double.ofRat s.sec).add ((Double.ofRat s.usec).div (Double.ofRat 1000000))

/-- What `pcap_next_ex` returns, while there is time. -/
inductive Next
  | error
  | timeout
  | packet (stamp : Stamp) (data : List UInt8)

/-- A time that is not recorded yet. -/
def unset : Double := Double.ofRat (-1)

/-- `t_syn`, `t_synack` and `t_ack`. -/
structure Times where
  syn : Double := unset
  synAck : Double := unset
  ack : Double := unset
  deriving DecidableEq, Repr

def Times.record (t : Times) (ts : Double) : Role → Times
  | .syn => { t with syn := if t.syn.lt .zero then ts else t.syn }
  | .synAck => { t with synAck := if t.synAck.lt .zero then ts else t.synAck }
  | .ack => { t with ack := if t.ack.lt .zero then ts else t.ack }

/-- The loop; the list ends with the deadline. -/
def loop (c : Connection) : Times → List Next → Option Times
  | t, [] | t, .error :: _ => some t
  | t, .timeout :: rest => loop c t rest
  | t, .packet stamp data :: rest =>
    match segment data with
    | none => none
    | some none => loop c t rest
    | some (some s) =>
      let t := match c.role s with
        | some r => t.record stamp.ts r
        | none => t
      if Double.zero.lt t.synAck ∧ Double.zero.lt t.ack then some t else loop c t rest

/-- The time between two, in milliseconds. -/
def between (t t' : Double) : Double := (t'.sub t).mul (Double.ofRat 1000)

structure Outcome where
  success : Bool
  detail : String := ""
  latencyMs : Option Double := none
  /-- The attribute `synack_ack_ms`. -/
  synAckAckMs : Option String := none
  deriving DecidableEq, Repr

def Times.outcome (t : Times) : Outcome :=
  if t.syn.lt .zero ∨ t.synAck.lt .zero then
    { success := false, detail := "handshake packets not captured (timeout)" }
  else
    { success := true, latencyMs := some (between t.syn t.synAck)
      synAckAckMs := if Double.zero.lt t.ack then some (between t.synAck t.ack).toFixed6 else none }

/-! ## What is seen -/

/-- The segments of the connection, with their times, up to an error. -/
def observed (c : Connection) : List Next → List (Role × Stamp)
  | [] | .error :: _ => []
  | .timeout :: rest => observed c rest
  | .packet stamp data :: rest =>
    (((segment data).join.bind c.role).map fun r => (r, stamp)).toList ++ observed c rest

/-- The time of the first segment of a kind. -/
def first (r : Role) (seen : List (Role × Stamp)) : Option Stamp := (seen.find? fun x => x.1 = r).map Prod.snd

/-- The answer and its acknowledgement are there. -/
def Done (seen : List (Role × Stamp)) : Prop := (first .synAck seen).isSome ∧ (first .ack seen).isSome

instance (seen : List (Role × Stamp)) : Decidable (Done seen) := inferInstanceAs (Decidable (_ ∧ _))

def Stamp.micros (s : Stamp) : Int := s.sec * 1000000 + s.usec

/-- A double is the time between two stamps, in milliseconds, to five microseconds. -/
def Spans (d : Double) (from_ to_ : Stamp) : Prop :=
  d.isFinite = true ∧ Near d.value ((to_.micros - from_.micros : Int) / 1000) (1 / 200)

/-- The outcome measures what was seen. -/
inductive Measures (seen : List (Role × Stamp)) : Outcome → Prop
  | missed : first .syn seen = none ∨ first .synAck seen = none →
    Measures seen { success := false, detail := "handshake packets not captured (timeout)" }
  | answered {syn synAck : Stamp} {latency : Double} : first .syn seen = some syn → first .synAck seen = some synAck →
    first .ack seen = none → Spans latency syn synAck → Measures seen { success := true, latencyMs := some latency }
  | whole {syn synAck ack : Stamp} {latency rest : Double} : first .syn seen = some syn →
    first .synAck seen = some synAck → first .ack seen = some ack → Spans latency syn synAck → Spans rest synAck ack →
    Measures seen { success := true, latencyMs := some latency, synAckAckMs := some rest.toFixed6 }

/-! ## Reads -/

theorem slice_isSome {data : List UInt8} {start n : Nat} (h : start + n ≤ data.length) :
    ∃ bytes, slice data start n = some bytes := ⟨_, if_pos h⟩

theorem port_isSome {data : List UInt8} {start : Nat} (h : start + 2 ≤ data.length) : ∃ p, port data start = some p := by
  have hhigh : start < data.length := by omega
  have hlow : start + 1 < data.length := by omega
  simp [port, List.getElem?_eq_getElem hhigh, List.getElem?_eq_getElem hlow]

theorem fields_isSome {data : List UInt8} {ipHdrLen : Nat} (h : 14 + ipHdrLen + 20 ≤ data.length) :
    ∃ seg, fields data ipHdrLen = some seg := by
  have hlast : 14 + ipHdrLen + 13 < data.length := by omega
  obtain ⟨srcIp, hsrc⟩ := @slice_isSome data (14 + 12) 4 (by omega)
  obtain ⟨dstIp, hdst⟩ := @slice_isSome data (14 + 16) 4 (by omega)
  obtain ⟨sport, hsport⟩ := @port_isSome data (14 + ipHdrLen) (by omega)
  obtain ⟨dport, hdport⟩ := @port_isSome data (14 + ipHdrLen + 2) (by omega)
  exact ⟨_, by simp only [fields, hsrc, hdst, hsport, hdport, List.getElem?_eq_getElem hlast]; rfl⟩

/-- **Bounds.** The check in front of the first read lets one byte too few pass. -/
theorem segment_eq_none_iff (data : List UInt8) : segment data = none ↔ data.length = 14 := by
  unfold segment
  by_cases hshort : data.length < 14
  · simp only [if_pos hshort, reduceCtorEq, false_iff]
    omega
  rw [if_neg hshort]
  by_cases hequal : data.length = 14
  · simp [hequal]
  have hfirst : 14 < data.length := by omega
  simp only [List.getElem?_eq_getElem hfirst, Option.bind_some, hequal, iff_false]
  split
  · simp
  · rename_i hlong
    rw [not_or, Nat.not_lt] at hlong
    have hprotocol : 14 + 9 < data.length := by omega
    obtain ⟨seg, hseg⟩ := fields_isSome hlong.2
    simp only [List.getElem?_eq_getElem hprotocol, Option.bind_some, hseg]
    split <;> simp

/-! ## Times -/

/-- A time after 1970 and before 2106. -/
structure Stamp.Valid (s : Stamp) : Prop where
  sec : 0 < s.sec ∧ s.sec < 2 ^ 32
  usec : 0 ≤ s.usec ∧ s.usec < 1000000

open Double

theorem close_stamp {s : Stamp} (h : s.Valid) : Close s.ts (s.micros / 1000000) (2 ^ 32) (1 / 2 ^ 20) := by
  obtain ⟨sec, hsec⟩ := Int.eq_ofNat_of_zero_le (Int.le_of_lt h.sec.1)
  obtain ⟨usec, husec⟩ := Int.eq_ofNat_of_zero_le h.usec.1
  have hlt := h.sec.2
  have hlt' := h.usec.2
  rw [hsec] at hlt
  rw [husec] at hlt'
  have hseconds : (sec : ℚ) ≤ 2 ^ 32 - 1 := by
    have hle : (sec : Int) ≤ 2 ^ 32 - 1 := Int.le_sub_one_of_lt hlt
    exact_mod_cast hle
  have hmicros : (usec : ℚ) ≤ 1000000 := by exact_mod_cast hlt'.le
  have hmillion := ofRat_ofNat 1000000 (by norm_num)
  have hfraction := (@close_natCast 1000000 usec (by omega) hmicros).div_exact hmillion (by norm_num) (by norm_num)
  have hwhole := (@close_natCast (2 ^ 32 - 1) sec (by omega) hseconds).add hfraction (by norm_num [slack])
  have hvalue : (s.micros : ℚ) / 1000000 = sec + usec / 1000000 := by
    rw [Stamp.micros, hsec, husec]
    push_cast
    ring
  have hts : s.ts = (ofRat sec).add ((ofRat usec).div (ofRat 1000000)) := by
    rw [Stamp.ts, hsec, husec, Int.cast_natCast, Int.cast_natCast]
  rw [hts, hvalue]
  refine ⟨hwhole.finite, hwhole.near.mono (by norm_num [slack]), hwhole.size.trans (by norm_num)⟩

/-- A captured time is above zero. -/
theorem ts_pos {s : Stamp} (h : s.Valid) : zero.lt s.ts = true ∧ s.ts.lt zero = false := by
  have hclose := close_stamp h
  have hone : (1 : ℚ) ≤ s.micros / 1000000 := by
    have hle : (1000000 : Int) ≤ s.micros := by
      have := h.sec.1
      have := h.usec.1
      unfold Stamp.micros
      omega
    rw [le_div_iff₀ (by norm_num)]
    exact_mod_cast (by omega : (1 * 1000000 : Int) ≤ s.micros)
  refine zero_lt_of_value hclose.finite ?_
  have hlow := (abs_le.1 hclose.near).1
  have hsmall : (1 : ℚ) / 2 ^ 20 < 1 := by norm_num
  linarith

theorem spans_between {s s' : Stamp} (h : s.Valid) (h' : s'.Valid) : Spans (between s.ts s'.ts) s s' := by
  have hmille := ofRat_ofNat 1000 (by norm_num)
  have hdiff := (close_stamp h').sub (close_stamp h) (by norm_num)
  have hms := (hdiff.mono (f := 1 / 2 ^ 18) (by norm_num [slack])).mul_exact hmille (by norm_num) (by norm_num)
  have hvalue : ((s'.micros - s.micros : Int) : ℚ) / 1000 = (s'.micros / 1000000 - s.micros / 1000000) * 1000 := by
    push_cast
    ring
  refine ⟨hms.finite, ?_⟩
  rw [hvalue]
  exact hms.near.mono (by norm_num [slack])

/-! ## What the loop has recorded -/

/-- The time of the first segment of a kind, as it is recorded. -/
def timeOf (seen : List (Role × Stamp)) (r : Role) : Double := ((first r seen).map Stamp.ts).getD unset

/-- The times of what was seen. -/
def timesOf (seen : List (Role × Stamp)) : Times := ⟨timeOf seen .syn, timeOf seen .synAck, timeOf seen .ack⟩

/-- Captured times are valid. -/
def Timed (es : List Next) : Prop := ∀ stamp data, .packet stamp data ∈ es → stamp.Valid

variable {c : Connection} {es : List Next} {seen : List (Role × Stamp)} {r : Role} {stamp : Stamp}

theorem first_snoc (seen : List (Role × Stamp)) (r r' : Role) (stamp : Stamp) :
    first r' (seen ++ [(r, stamp)]) = (first r' seen).or (if r = r' then some stamp else none) := by
  unfold first
  rw [List.find?_append]
  cases seen.find? fun x => x.1 = r' with
  | some x => simp
  | none => by_cases hr : r = r' <;> simp [hr]

theorem first_valid (hvalid : ∀ x ∈ seen, x.2.Valid) {s : Stamp} (h : first r seen = some s) : s.Valid := by
  obtain ⟨x, hx, rfl⟩ := Option.map_eq_some_iff.1 h
  exact hvalid x (List.mem_of_find?_eq_some hx)

theorem unset_neg : unset.lt zero = true ∧ zero.lt unset = false := by decide +kernel

theorem timeOf_none (h : first r seen = none) : timeOf seen r = unset := by
  rw [timeOf, h, Option.map_none, Option.getD_none]

theorem timeOf_some {s : Stamp} (h : first r seen = some s) : timeOf seen r = s.ts := by
  rw [timeOf, h, Option.map_some, Option.getD_some]

/-- A time is recorded when its kind was seen. -/
theorem timeOf_sign (hvalid : ∀ x ∈ seen, x.2.Valid) (r : Role) :
    (timeOf seen r).lt zero = (first r seen).isNone ∧ zero.lt (timeOf seen r) = (first r seen).isSome := by
  cases h : first r seen with
  | none =>
    rw [timeOf_none h, unset_neg.1, unset_neg.2]
    exact ⟨rfl, rfl⟩
  | some s =>
    obtain ⟨hpos, hneg⟩ := ts_pos (first_valid hvalid h)
    rw [timeOf_some h, hpos, hneg]
    exact ⟨rfl, rfl⟩

theorem record_timesOf (hvalid : ∀ x ∈ seen, x.2.Valid) (r : Role) (stamp : Stamp) :
    (timesOf seen).record stamp.ts r = timesOf (seen ++ [(r, stamp)]) := by
  have hother : ∀ r', r' ≠ r → timeOf (seen ++ [(r, stamp)]) r' = timeOf seen r' := fun r' hr => by
    rw [timeOf, first_snoc, if_neg (Ne.symm hr), Option.or_none, timeOf]
  have hown : timeOf (seen ++ [(r, stamp)]) r = if (timeOf seen r).lt zero then stamp.ts else timeOf seen r := by
    have hfirst : first r (seen ++ [(r, stamp)]) = (first r seen).or (some stamp) := by rw [first_snoc, if_pos rfl]
    rw [(timeOf_sign hvalid r).1]
    cases h : first r seen with
    | none =>
      rw [h, Option.none_or] at hfirst
      rw [timeOf_some hfirst, Option.isNone_none, if_pos rfl]
    | some s =>
      rw [h, Option.some_or] at hfirst
      rw [timeOf_some hfirst, Option.isNone_some, if_neg Bool.false_ne_true, timeOf_some h]
  unfold timesOf
  cases r with
  | syn =>
    rw [hown, hother .synAck (by decide), hother .ack (by decide)]
    rfl
  | synAck =>
    rw [hown, hother .syn (by decide), hother .ack (by decide)]
    rfl
  | ack =>
    rw [hown, hother .syn (by decide), hother .synAck (by decide)]
    rfl

theorem done_timesOf (hvalid : ∀ x ∈ seen, x.2.Valid) :
    (zero.lt (timesOf seen).synAck ∧ zero.lt (timesOf seen).ack) ↔ Done seen := by
  rw [timesOf, Done, (timeOf_sign hvalid .synAck).2, (timeOf_sign hvalid .ack).2]

/-- The outcome of the recorded times measures what was seen. -/
theorem measures_timesOf (hvalid : ∀ x ∈ seen, x.2.Valid) : Measures seen (timesOf seen).outcome := by
  have hsyn := (timeOf_sign hvalid .syn).1
  have hsynAck := (timeOf_sign hvalid .synAck).1
  have hack := (timeOf_sign hvalid .ack).2
  rw [Times.outcome, timesOf]
  dsimp only
  rw [hsyn, hsynAck, hack]
  cases h₁ : first .syn seen with
  | none =>
    rw [if_pos (.inl rfl)]
    exact .missed (.inl h₁)
  | some syn =>
    cases h₂ : first .synAck seen with
    | none =>
      rw [if_pos (.inr rfl)]
      exact .missed (.inr h₂)
    | some synAck =>
      have hlatency := spans_between (first_valid hvalid h₁) (first_valid hvalid h₂)
      rw [if_neg (by simp), timeOf_some h₁, timeOf_some h₂]
      cases h₃ : first .ack seen with
      | none =>
        rw [Option.isSome_none, if_neg Bool.false_ne_true]
        exact .answered h₁ h₂ h₃ hlatency
      | some ack =>
        have hrest := spans_between (first_valid hvalid h₂) (first_valid hvalid h₃)
        rw [Option.isSome_some, if_pos rfl, timeOf_some h₃]
        exact .whole h₁ h₂ h₃ hlatency hrest

/-! ## The loop -/

theorem Timed.tail {e : Next} (h : Timed (e :: es)) : Timed es := fun stamp data hmem =>
  h stamp data (List.mem_cons_of_mem _ hmem)

/-- How a part of a loop ends: it has seen `front`, `rest` is left, and nothing before would have ended it. -/
structure Ends (c : Connection) (es : List Next) (seen front rest : List (Role × Stamp)) (t : Times) : Prop where
  observed : observed c es = front ++ rest
  times : t = timesOf (seen ++ front)
  done : rest = [] ∨ Done (seen ++ front)
  least : ∀ p, p <+: front → p ≠ front → ¬Done (seen ++ p)

theorem Ends.nothing (hes : HandshakeCapture.observed c es = []) : Ends c es seen [] [] (timesOf seen) :=
  ⟨by simp [hes], by simp, .inl rfl, fun p hp hne => absurd (List.prefix_nil.1 hp) hne⟩

/-- A segment of the connection in front. -/
theorem Ends.cons {e : Next} {front rest : List (Role × Stamp)} {t : Times}
    (he : HandshakeCapture.observed c (e :: es) = (r, stamp) :: HandshakeCapture.observed c es) (hdone : ¬Done seen)
    (h : Ends c es (seen ++ [(r, stamp)]) front rest t) : Ends c (e :: es) seen ((r, stamp) :: front) rest t := by
  refine ⟨by rw [he, h.observed, List.cons_append], ?_, ?_, fun p hp hne => ?_⟩
  · simpa using h.times
  · simpa using h.done
  · cases p with
    | nil => simpa using hdone
    | cons x p =>
      obtain ⟨rfl, hp'⟩ := List.cons_prefix_cons.1 hp
      simpa using h.least p hp' fun heq => hne (heq ▸ rfl)

/-- A segment of the connection that ends the loop. -/
theorem Ends.last {e : Next}
    (he : HandshakeCapture.observed c (e :: es) = (r, stamp) :: HandshakeCapture.observed c es) (hdone : ¬Done seen)
    (hend : Done (seen ++ [(r, stamp)])) : Ends c (e :: es) seen [(r, stamp)] (HandshakeCapture.observed c es)
      (timesOf (seen ++ [(r, stamp)])) := by
  refine ⟨he, rfl, .inr hend, fun p hp hne => ?_⟩
  cases p with
  | nil => simpa using hdone
  | cons x p =>
    obtain ⟨rfl, hp'⟩ := List.cons_prefix_cons.1 hp
    exact absurd (List.prefix_nil.1 hp' ▸ rfl) hne

/-- What the loop does from what was seen so far on: it reads outside of a packet, or it ends. -/
structure Runs (c : Connection) (es : List Next) (seen : List (Role × Stamp)) : Prop where
  outside : loop c (timesOf seen) es = none → ∃ stamp data, .packet stamp data ∈ es ∧ data.length = 14
  ends : ∀ t, loop c (timesOf seen) es = some t → ∃ front rest, Ends c es seen front rest t

/-- Nothing of the connection in front. -/
theorem Runs.skip {e : Next} (h : Runs c es seen)
    (hloop : loop c (timesOf seen) (e :: es) = loop c (timesOf seen) es)
    (hobserved : observed c (e :: es) = observed c es) : Runs c (e :: es) seen := by
  constructor
  · rw [hloop]
    intro hnone
    obtain ⟨stamp, data, hmem, hlength⟩ := h.outside hnone
    exact ⟨stamp, data, List.mem_cons_of_mem _ hmem, hlength⟩
  · rw [hloop]
    intro t ht
    obtain ⟨front, rest, hends⟩ := h.ends t ht
    exact ⟨front, rest, hobserved.trans hends.observed, hends.times, hends.done, hends.least⟩

theorem valid_snoc (hvalid : ∀ x ∈ seen, x.2.Valid) (hstamp : stamp.Valid) (r : Role) :
    ∀ x ∈ seen ++ [(r, stamp)], x.2.Valid := by
  intro x hx
  rcases List.mem_append.1 hx with hx | hx
  · exact hvalid x hx
  · rwa [List.mem_singleton.1 hx]

/-- A segment of the connection in front: the loop goes on behind it, unless the answer and the ACK are there. -/
theorem Runs.segment {data : List UInt8} (hvalid : ∀ x ∈ seen, x.2.Valid) (hstamp : stamp.Valid) {s : Segment}
    (hsegment : segment data = some (some s)) (hrole : c.role s = some r) (hdone : ¬Done seen)
    (hrest : ¬Done (seen ++ [(r, stamp)]) → Runs c es (seen ++ [(r, stamp)])) :
    Runs c (.packet stamp data :: es) seen := by
  have hobserved : observed c (.packet stamp data :: es) = (r, stamp) :: observed c es := by
    simp [observed, hsegment, hrole]
  have hloop : loop c (timesOf seen) (.packet stamp data :: es) =
      if Done (seen ++ [(r, stamp)]) then some (timesOf (seen ++ [(r, stamp)]))
      else loop c (timesOf (seen ++ [(r, stamp)])) es := by
    simp only [loop, hsegment, hrole, record_timesOf hvalid, done_timesOf (valid_snoc hvalid hstamp r)]
  by_cases hend : Done (seen ++ [(r, stamp)])
  · rw [if_pos hend] at hloop
    refine ⟨fun h => ?_, fun t ht => ?_⟩
    · rw [hloop] at h
      cases h
    · rw [hloop] at ht
      cases ht
      exact ⟨_, _, .last hobserved hdone hend⟩
  · rw [if_neg hend] at hloop
    have hruns := hrest hend
    refine ⟨fun h => ?_, fun t ht => ?_⟩
    · obtain ⟨stamp', data', hmem, hlength⟩ := hruns.outside (hloop ▸ h)
      exact ⟨stamp', data', List.mem_cons_of_mem _ hmem, hlength⟩
    · obtain ⟨front, rest, hends⟩ := hruns.ends t (hloop ▸ ht)
      exact ⟨(r, stamp) :: front, rest, hends.cons hobserved hdone⟩

/-- The loop from what was seen so far, which does not end it yet. -/
theorem loop_spec (htimes : Timed es) (hvalid : ∀ x ∈ seen, x.2.Valid) (hdone : ¬Done seen) : Runs c es seen := by
  induction es generalizing seen with
  | nil => exact ⟨nofun, fun t ht => ⟨[], [], by cases ht; exact .nothing rfl⟩⟩
  | cons e es ih =>
    have hskip := ih htimes.tail hvalid hdone
    cases e with
    | error => exact ⟨nofun, fun t ht => ⟨[], [], by cases ht; exact .nothing rfl⟩⟩
    | timeout => exact hskip.skip rfl rfl
    | packet stamp data =>
      cases hsegment : segment data with
      | none =>
        refine ⟨fun _ => ⟨stamp, data, List.mem_cons_self, (segment_eq_none_iff data).1 hsegment⟩, fun t ht => ?_⟩
        simp [loop, hsegment] at ht
      | some found =>
        cases found with
        | none => exact hskip.skip (by simp [loop, hsegment]) (by simp [observed, hsegment])
        | some s =>
          cases hrole : c.role s with
          | none =>
            refine hskip.skip ?_ (by simp [observed, hsegment, hrole])
            simp only [loop, hsegment, hrole]
            exact if_neg fun h => hdone ((done_timesOf hvalid).1 h)
          | some r =>
            have hstamp : stamp.Valid := htimes stamp data List.mem_cons_self
            exact .segment hvalid hstamp hsegment hrole hdone (ih htimes.tail (valid_snoc hvalid hstamp r))

theorem observed_valid (htimes : Timed es) : ∀ x ∈ observed c es, x.2.Valid := by
  induction es with
  | nil => exact nofun
  | cons e es ih =>
    cases e with
    | error => exact nofun
    | timeout => exact ih htimes.tail
    | packet stamp data =>
      intro x hx
      rcases List.mem_append.1 hx with hx | hx
      · obtain ⟨r, -, rfl⟩ := Option.map_eq_some_iff.1 (Option.mem_toList.1 hx)
        exact htimes stamp data List.mem_cons_self
      · exact ih htimes.tail x hx

/-- **Main.** Whatever is captured: a read leaves the captured bytes only at a packet of fourteen of them. Otherwise the
loop sees the segments of the connection up to the first place with both a SYN-ACK and an ACK, or all of them, and
measures the time between the first SYN and the first SYN-ACK among these, and from there to the first ACK. -/
theorem capture_measures (c : Connection) (htimes : Timed es) :
    (loop c { } es = none → ∃ stamp data, .packet stamp data ∈ es ∧ data.length = 14) ∧
      ∀ t, loop c { } es = some t → ∃ seen rest, observed c es = seen ++ rest ∧ (rest = [] ∨ Done seen) ∧
        (∀ p, p <+: seen → p ≠ seen → ¬Done p) ∧ Measures seen t.outcome := by
  obtain ⟨hnone, hsome⟩ := @loop_spec c es [] htimes nofun (by simp [Done, first])
  refine ⟨hnone, fun t ht => ?_⟩
  obtain ⟨seen, rest, h⟩ := hsome t ht
  have hvalid : ∀ x ∈ seen, x.2.Valid := fun x hx =>
    observed_valid htimes x (by rw [h.observed]; exact List.mem_append_left _ hx)
  refine ⟨seen, rest, h.observed, by simpa using h.done, fun p hp hne => by simpa using h.least p hp hne, ?_⟩
  rw [h.times, List.nil_append]
  exact measures_timesOf hvalid

/-- A frame with an address and a port at each end, and the flags of its segment. -/
def frame (srcIp sport dstIp dport : List UInt8) (flags : UInt8) : List UInt8 :=
  List.replicate 14 0 ++ [0x45] ++ List.replicate 8 0 ++ [6, 0, 0] ++ srcIp ++ dstIp ++ sport ++ dport ++
    List.replicate 8 0 ++ [0x50, flags] ++ List.replicate 6 0

/-- A SYN that is repeated, its answer and the acknowledgement; what is captured later is not looked at. -/
theorem capture_measures_handshake :
    let c : Connection := ⟨[10, 0, 0, 2], 40000, [10, 0, 0, 9], 443⟩
    let out (flags : UInt8) := frame c.localIp [0x9c, 0x40] c.targetIp [0x01, 0xbb] flags
    let back := frame c.targetIp [0x01, 0xbb] c.localIp [0x9c, 0x40] 0x12
    let at_ (usec : Int) : Stamp := ⟨1700000000, usec⟩
    let es : List Next := [.packet (at_ 1000) (out 0x02), .timeout, .packet (at_ 1400) (out 0x02),
      .packet (at_ 1500) back, .packet (at_ 1600) (out 0x10), .packet (at_ 1700) []]
    ∃ t, loop c { } es = some t ∧ ∃ seen rest, observed c es = seen ++ rest ∧ Measures seen t.outcome := by
  intro c out back at_ es
  have htimes : Timed es := by
    intro stamp data h
    have hstamp : ∃ usec : Int, stamp = at_ usec ∧ 0 ≤ usec ∧ usec < 1000000 := by
      simp only [es, List.mem_cons, Next.packet.injEq, reduceCtorEq, List.not_mem_nil, or_false, false_or] at h
      rcases h with h | h | h | h | h <;> exact ⟨_, h.1, by omega, by omega⟩
    obtain ⟨usec, rfl, hlow, hhigh⟩ := hstamp
    exact ⟨⟨by norm_num [at_], by norm_num [at_]⟩, hlow, hhigh⟩
  have hloop : (loop c { } es).isSome = true := by decide +kernel
  obtain ⟨t, ht⟩ := Option.isSome_iff_exists.1 hloop
  obtain ⟨seen, rest, hobserved, -, -, hmeasured⟩ := (capture_measures c htimes).2 _ ht
  exact ⟨t, ht, seen, rest, hobserved, hmeasured⟩

end PudimNetMon.Agent.HandshakeCapture
