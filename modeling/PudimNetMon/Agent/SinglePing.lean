import Mathlib.Algebra.Ring.Int.Defs
import Mathlib.Algebra.Ring.Nat
import PudimNetMon.Lib.Arrivals

/-!
# A single ping (`RunSinglePing` in `probes.cpp`)

An echo request and the loop that receives until its reply arrives. A raw socket hands out every ICMP packet of the
host, and `SO_RCVTIMEO` starts afresh with each of them. Times are in nanoseconds from the send on, and the steps of the
routine take none; the round-trip time is kept as such.

- `echoRequest_valid`: the checksum of the request is right;
- `ping_ends_iff`: the streams of other packets at which the loop ends in time.
-/

namespace PudimNetMon.Agent

/-! ## The request -/

/-- The words of a packet, the low byte first. -/
def packetWords : List UInt8 → List Nat
  | a :: b :: rest => (a.toNat + 256 * b.toNat) :: packetWords rest
  | _ => []

/-- `while (sum >> 16) sum = (sum & 0xffff) + (sum >> 16)` -/
def foldCarry (sum : Nat) : Nat :=
  if sum / 65536 = 0 then sum else foldCarry (sum % 65536 + sum / 65536)
termination_by sum
decreasing_by omega

/-- The complement of the folded sum. -/
def checksum (packet : List UInt8) : Nat := 65535 - foldCarry (packetWords packet).sum

/-- `htons` as it lies in memory. -/
def htons (n : UInt16) : List UInt8 := [UInt8.ofNat (n.toNat / 256), UInt8.ofNat n.toNat]

/-- The 64 bytes of the request around its checksum. -/
def echoPacket (checksum : Nat) (id seq : UInt16) : List UInt8 :=
  [8, 0, UInt8.ofNat checksum, UInt8.ofNat (checksum / 256)] ++ htons id ++ htons seq ++ List.replicate 56 0

def echoRequest (id seq : UInt16) : List UInt8 := echoPacket (checksum (echoPacket 0 id seq)) id seq

theorem foldCarry_lt (n : Nat) : foldCarry n < 65536 := by
  fun_induction foldCarry n with
  | case1 n h => omega
  | case2 n h ih => exact ih

theorem foldCarry_pos {n : Nat} (h : 0 < n) : 0 < foldCarry n := by
  fun_induction foldCarry n with
  | case1 n hn => exact h
  | case2 n hn ih => exact ih (by omega)

/-- A carry is worth one. -/
theorem foldCarry_mod (n : Nat) : foldCarry n % 65535 = n % 65535 := by
  fun_induction foldCarry n with
  | case1 n h => rfl
  | case2 n h ih => omega

theorem foldCarry_complement {n : Nat} (h : 0 < n) : foldCarry (n + (65535 - foldCarry n)) = 65535 := by
  have hlt := foldCarry_lt n
  have hpos := foldCarry_pos h
  have hmod := foldCarry_mod n
  have hlt' := foldCarry_lt (n + (65535 - foldCarry n))
  have hpos' := foldCarry_pos (show 0 < n + (65535 - foldCarry n) by omega)
  have hmod' := foldCarry_mod (n + (65535 - foldCarry n))
  omega

theorem packetWords_echoPacket_sum {n : Nat} (h : n < 65536) (id seq : UInt16) :
    (packetWords (echoPacket n id seq)).sum = (packetWords (echoPacket 0 id seq)).sum + n := by
  simp only [echoPacket, htons, List.cons_append, List.nil_append, packetWords, List.sum_cons, UInt8.toNat_ofNat']
  omega

/-- **Checksum.** With its checksum the words of a request come to ones. -/
theorem echoRequest_valid (id seq : UInt16) : foldCarry (packetWords (echoRequest id seq)).sum = 65535 := by
  have hlt : checksum (echoPacket 0 id seq) < 65536 := by
    unfold checksum
    omega
  have hpos : 0 < (packetWords (echoPacket 0 id seq)).sum := by
    simp only [echoPacket, List.cons_append, packetWords, List.sum_cons, UInt8.toNat_ofNat]
    omega
  rw [echoRequest, packetWords_echoPacket_sum hlt]
  exact foldCarry_complement hpos

/-! ## The reply -/

/-- What a raw socket hands out, with its IP header; `recv` takes 512 bytes of it. -/
structure RawPacket where
  bytes : List UInt8
  header : 20 ≤ bytes.length

inductive Received
  | packet (p : RawPacket)
  | error (strerror : String)

/-- The reply to the request, by protocol, length, type, identifier and sequence number. -/
def RawPacket.isReply (p : RawPacket) (id seq : UInt16) : Bool :=
  let buf := p.bytes.take 512
  let ipHdrLen := (buf.getD 0 0).toNat % 16 * 4
  let icmp := buf.drop ipHdrLen
  buf.getD 9 0 = 1 && ipHdrLen + 8 ≤ buf.length && icmp.getD 0 0 = 0 &&
    (icmp.drop 4).take 2 = htons id && (icmp.drop 6).take 2 = htons seq

/-- The loop returns at an error and at the reply. -/
def Received.returns (id seq : UInt16) : Received → Bool
  | .packet p => p.isReply id seq
  | .error _ => true

structure PingResult where
  ok : Bool := false
  detail : String := ""
  rtts : List Nat := []
  deriving DecidableEq

/-- `SO_RCVTIMEO` -/
def recvTimeout : Nat := 3_000_000_000

/-- What the loop returns with, and when. -/
def pingResult : Option Received × Nat → PingResult × Nat
  | (none, t) => ({ detail := "timeout waiting for ICMP reply" }, t)
  | (some (.error e), t) => ({ detail := "recv failed: " ++ e }, t)
  | (some (.packet _), t) => ({ ok := true, rtts := [t] }, t)

/-- The receive loop of `RunSinglePing`; none without fuel. -/
def recvLoop (id seq : UInt16) (s : Arrivals Received) (fuel : Nat) : Option (PingResult × Nat) :=
  (s.receiveUntil (Received.returns id seq) recvTimeout fuel 0 0).map pingResult

/-- `RunSinglePing`, with the outcome of `sendto`. -/
def runSinglePing (sendto : List UInt8 → Except String Unit) (id seq : UInt16) (s : Arrivals Received) (fuel : Nat) :
    Option (PingResult × Nat) :=
  match sendto (echoRequest id seq) with
  | .error e => some ({ detail := "sendto failed: " ++ e }, 0)
  | .ok () => recvLoop id seq s fuel

/-! ## When it ends -/

/-- The wait for a reply, as the timeout has it. -/
def pingBudget : Nat := recvTimeout

/-- The loop ends within the budget, up to one timeout. -/
def EndsInTime (id seq : UInt16) (s : Arrivals Received) : Prop :=
  ∃ fuel r t, recvLoop id seq s fuel = some (r, t) ∧ t ≤ pingBudget + recvTimeout

/-- The send or an arrival within the budget is followed by a timeout without an arrival. -/
def QuietInTime (s : Arrivals Received) : Prop :=
  ∃ i t, s.lastBefore i = some t ∧ t ≤ pingBudget ∧ s.Gap recvTimeout i t

/-- Packets, and none of them the reply. -/
def Unrelated (id seq : UInt16) (s : Arrivals Received) : Prop :=
  ∀ i t x, s.get i = some (t, x) → ∃ p, x = .packet p ∧ p.isReply id seq = false

theorem Unrelated.skips {id seq : UInt16} {s : Arrivals Received} (h : Unrelated id seq s) :
    ∀ i t x, s.get i = some (t, x) → x.returns id seq = false := by
  intro i t x hx
  obtain ⟨p, rfl, hp⟩ := h i t x hx
  exact hp

/-- **Ends in time.** At packets none of which is the reply the loop ends within the budget, up to one timeout, exactly
when the send or a packet within the budget is followed by a timeout without a packet. -/
theorem ping_ends_iff (id seq : UInt16) (s : Arrivals Received) (h : Unrelated id seq s) :
    EndsInTime id seq s ↔ QuietInTime s := by
  constructor
  · rintro ⟨fuel, r, t, hrun, ht⟩
    obtain ⟨⟨x, u⟩, hrun, hr⟩ := Option.map_eq_some_iff.1 hrun
    obtain ⟨i, v, hv, hgap, rfl⟩ := Arrivals.gap_of_receiveUntil h.skips rfl hrun
    have hend : (pingResult (x, v + recvTimeout)).2 = v + recvTimeout := by
      unfold pingResult
      split <;> simp_all
    rw [hr] at hend
    dsimp only at hend
    exact ⟨i, v, hv, by omega, hgap⟩
  · rintro ⟨i, t, hi, ht, hgap⟩
    have hu : t ≤ recvTimeout := ht
    obtain ⟨fuel, hrun⟩ := Arrivals.receiveUntil_of_gap h.skips hi hu hgap
    exact ⟨fuel, _, t + recvTimeout, by rw [recvLoop, hrun]; rfl, by omega⟩

/-- The request of another ping, as this host receives it. -/
def otherRequest : RawPacket where
  bytes := [69] ++ List.replicate 8 0 ++ [1] ++ List.replicate 10 0 ++ echoRequest 7 1
  header := by simp [echoRequest, echoPacket]

theorem otherRequest_isReply (id seq : UInt16) : otherRequest.isReply id seq = false := by
  simp [RawPacket.isReply, otherRequest, echoRequest, echoPacket]

/-- One request after a second. -/
def oneRequest : Arrivals Received where
  get i := if i = 0 then some (1_000_000_000, .packet otherRequest) else none
  closed _ _ := rfl
  sorted _ _ _ _ _ _ h := by cases h

/-- A request each second. -/
def requestsEachSecond : Arrivals Received where
  get i := some (1_000_000_000 * (i + 1), .packet otherRequest)
  closed := nofun
  sorted i _ _ _ _ h h' := by
    cases h
    cases h'
    omega

theorem oneRequest_unrelated (id seq : UInt16) : Unrelated id seq oneRequest := by
  intro i t x h
  simp only [oneRequest, Option.ite_none_right_eq_some, Option.some.injEq, Prod.mk.injEq] at h
  exact ⟨otherRequest, h.2.2.symm, otherRequest_isReply id seq⟩

theorem ping_ends_iff_one :
    Unrelated 1 1 oneRequest ∧ (EndsInTime 1 1 oneRequest ↔ QuietInTime oneRequest) ∧ EndsInTime 1 1 oneRequest := by
  have hiff := ping_ends_iff 1 1 oneRequest (oneRequest_unrelated 1 1)
  exact ⟨oneRequest_unrelated 1 1, hiff, hiff.2 ⟨1, 1_000_000_000, rfl, by decide, nofun⟩⟩

/-- **Kept busy.** A request each second keeps the loop for ever. -/
theorem ping_never_ends :
    Unrelated 1 1 requestsEachSecond ∧ (∀ fuel, recvLoop 1 1 requestsEachSecond fuel = none) ∧
      ¬ EndsInTime 1 1 requestsEachSecond := by
  have hother : Unrelated 1 1 requestsEachSecond := by
    intro i t x h
    cases h
    exact ⟨otherRequest, rfl, otherRequest_isReply 1 1⟩
  have hnever : ∀ fuel, recvLoop 1 1 requestsEachSecond fuel = none := by
    intro fuel
    rw [Option.eq_none_iff_forall_ne_some]
    rintro ⟨r, t⟩ hrun
    obtain ⟨⟨x, u⟩, hrun, -⟩ := Option.map_eq_some_iff.1 hrun
    obtain ⟨i, v, hv, hgap, -⟩ := Arrivals.gap_of_receiveUntil hother.skips rfl hrun
    have hlt : v + recvTimeout < 1_000_000_000 * (i + 1) := hgap _ _ rfl
    have hle : 1_000_000_000 * i ≤ v := by
      cases i with
      | zero => exact Nat.zero_le _
      | succ i =>
        cases hv
        exact Nat.le_refl _
    unfold recvTimeout at hlt
    omega
  refine ⟨hother, hnever, ?_⟩
  rintro ⟨fuel, r, t, hrun, -⟩
  rw [hnever fuel] at hrun
  cases hrun

end PudimNetMon.Agent
