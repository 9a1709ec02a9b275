import Mathlib.Algebra.Order.Field.Basic
import Mathlib.Data.Nat.Cast.Order.Field
import Mathlib.Tactic.Positivity
import PudimNetMon.Agent.DnsResolver
import PudimNetMon.Lib.DoubleArith

/-!
# The offset of the clock (`ntp_probe.cpp`, the build for Windows)

The probe sends its time to a server and takes the server's two times from the answer. Times are whole numbers of
2⁻³² seconds since 1900, on the wire without their era.

- `ntp_offset`: any datagram of 48 bytes counts as an answer; the offset is the server's clock minus the own one (a
  comment in the source has it the other way round), up to half of the time that the packets were on their way and
  0.04 ms, unless an era has ended in between.
-/

namespace PudimNetMon.Agent.Ntp

def byteAt (t : UInt64) (n : Nat) : UInt8 := ((t >>> UInt64.ofNat n) &&& 0xFF).toUInt8

/-- Eight bytes of a packet. -/
def stampBytes (t : UInt64) : List UInt8 := (List.range 8).map fun i => byteAt t (56 - 8 * i)

/-- The request: version 3, client, and the time of sending. -/
def request (t1 : UInt64) : List UInt8 := 0x1B :: List.replicate 39 0 ++ stampBytes t1

/-- Four bytes, the first one on top. -/
def word (bytes : List UInt8) : UInt32 := bytes.foldl (fun n b => (n <<< 8) ||| b.toUInt32) 0

/-- What the system answers. -/
structure Exchange where
  socket : Bool
  lookup : DnsResolver.LookupResult
  sent : Bool
  /-- At most 48 bytes; none where `recv` fails: without a datagram in time, or with a longer one. -/
  received : Option (List UInt8)
  /-- The system time in front of the request and behind the answer. -/
  sentAt : UInt64
  receivedAt : UInt64

/-- A time as it goes over the wire. -/
def wire (time : Int) : UInt64 := UInt64.ofNat (time % 2 ^ 64).toNat

open Double

end PudimNetMon.Agent.Ntp
