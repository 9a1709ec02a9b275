import PudimNetMon.Metric

/-!
# The three metrics of an ICMP probe (`RunIcmpProbe` in `probes.cpp`)

The probe fills a loss, an rtt and a jitter metric for one host. `IcmpStats` stands for the floating point arithmetic
on the round-trip times; `Pinged.failed` is any of the early returns (resolution, address family, socket).
-/

namespace PudimNetMon.Agent

/-- The floating point results the probe computes from its counts and round-trip times. -/
structure IcmpStats where
  lossPct : Nat → Nat → Double
  mean : List Double → Double
  stddev : List Double → Double

inductive Pinged
  | failed (detail : String)
  /-- One entry for each ping: its round-trip time, or none when it was lost. -/
  | pings (rtts : List (Option Double))

structure IcmpResult where
  loss : Metric
  rtt : Metric
  jitter : Metric

/-- `RunIcmpProbe`, with the clock readings of the three metrics. -/
def runIcmpProbe (stats : IcmpStats) (host : String) (us : Int × Int × Int) (p : Pinged) : IcmpResult :=
  let loss : Metric := { checkType := .icmpPing, target := host, monotonicUs := us.1 }
  let rtt : Metric := { checkType := .icmpPing, target := host, monotonicUs := us.2.1 }
  let jitter : Metric := { checkType := .jitter, target := host, monotonicUs := us.2.2 }
  match p with
  | .failed d => ⟨{ loss with detail := d }, { rtt with detail := d }, { jitter with detail := d }⟩
  | .pings rtts =>
    let answered := rtts.filterMap id
    let lost := rtts.length - answered.length
    let loss := { loss with value := some (.packetLossPct (stats.lossPct lost rtts.length)), success := true }
    if answered.isEmpty then
      ⟨loss, { rtt with detail := "all pings lost" }, { jitter with detail := "all pings lost" }⟩
    else
      ⟨loss, { rtt with value := some (.rttMs (stats.mean answered)), success := true },
        { jitter with value := some (.jitterMs (stats.stddev answered)), success := true }⟩

/-- The metrics in the order the probe's callers append them. -/
def IcmpResult.metrics (r : IcmpResult) : List Metric := [r.loss, r.rtt, r.jitter]

section

variable (stats : IcmpStats) (host : String) (us : Int × Int × Int) (p : Pinged)

theorem runIcmpProbe_targets : ∀ m ∈ (runIcmpProbe stats host us p).metrics, m.target = host := by
  cases p with
  | failed d => simp [runIcmpProbe, IcmpResult.metrics]
  | pings rtts => unfold runIcmpProbe; dsimp only; split <;> simp [IcmpResult.metrics]

/-- Only the loss metric carries a loss. -/
theorem runIcmpProbe_loss_only :
    (runIcmpProbe stats host us p).rtt.packetLossPct = none ∧
      (runIcmpProbe stats host us p).jitter.packetLossPct = none := by
  cases p with
  | failed d => exact ⟨rfl, rfl⟩
  | pings rtts => unfold runIcmpProbe; dsimp only; split <;> exact ⟨rfl, rfl⟩

/-- The loss and the rtt metric have one check type. -/
theorem runIcmpProbe_checkType :
    (runIcmpProbe stats host us p).rtt.checkType = (runIcmpProbe stats host us p).loss.checkType := by
  cases p with
  | failed d => rfl
  | pings rtts => unfold runIcmpProbe; dsimp only; split <;> rfl

end

end PudimNetMon.Agent
