import PudimNetMon.Agent.Commands
import PudimNetMon.Diagnostic
import PudimNetMon.Lib.Search
import PudimNetMon.Lib.Strtod

/-!
# The report of a ping burst (`RunPingBurst` in `commands.cpp`)

`RunPingBurst` reads the summary of `ping` in the output: the numbers in front of the Linux markers, and of the Windows
ones as well, behind which the numbers stand. Its report prints them in two decimals and leaves out a burst without
packets and round trips without time.

- `PingOutput`: the output in either format, around the numbers it prints;
- `burst_reports_iff`: the outputs whose numbers are reported;
- `fmt_nearest`: a whole number is reported digit for digit.
-/

namespace PudimNetMon.Agent.PingBurst

open Search Strtod

/-! ## Reading the output -/

/-- `Trim` -/
def trim (s : List Char) : List Char := (s.dropWhile Strtod.isSpace).rdropWhile Strtod.isSpace

def isNumberChar (c : Char) : Bool := c.isDigit || c = '.' || c = '-'

/-- `NumberBefore` -/
def numberBefore (text : List Char) (marker : String) : Double :=
  match find marker.toList text with
  | none => .zero
  | some (front, _) => (stod ((front.rdropWhile Strtod.isSpace).rtakeWhile isNumberChar)).getD .zero

/-- What `RunPingBurst` reads. -/
structure Stats where
  sent : Double := .zero
  received : Double := .zero
  lossPct : Double := .zero
  minRtt : Double := .zero
  avgRtt : Double := .zero
  maxRtt : Double := .zero
  mdev : Double := .zero
  deriving DecidableEq

/-- The percentage behind `Lost =`. -/
def lostPct (out : List Char) : Double :=
  match find "Lost =".toList out with
  | none => .zero
  | some (_, rest) =>
    if '%' ∈ rest then (stod ((rest.takeWhile (· ≠ '%')).rtakeWhile isNumeric)).getD .zero else .zero

/-- `sent`, `received` and `loss_pct`. -/
def readPackets (out : List Char) : Stats :=
  if (find "packets transmitted".toList out).isSome then
    { sent := numberBefore out "packets transmitted"
      received := numberBefore out "received"
      lossPct := numberBefore out "% packet loss" }
  else
    { sent := numberBefore out "Sent ="
      received := numberBefore out "Received ="
      lossPct := lostPct out }

/-- The pieces between slashes, without an empty one at the end. -/
def splitSlash (cur : List Char) : List Char → List (List Char)
  | [] => if cur.isEmpty then [] else [cur]
  | c :: cs => if c = '/' then cur :: splitSlash [] cs else splitSlash (cur ++ [c]) cs

/-- The four assignments; one that throws ends them. -/
def readRtts (s : Stats) (minRtt avgRtt maxRtt mdev : List Char) : Stats :=
  match stod minRtt with
  | none => s
  | some d =>
    let s := { s with minRtt := d }
    match stod avgRtt with
    | none => s
    | some d =>
      let s := { s with avgRtt := d }
      match stod maxRtt with
      | none => s
      | some d =>
        let s := { s with maxRtt := d }
        match stod mdev with
        | none => s
        | some d => { s with mdev := d }

/-- `min_rtt`, `avg_rtt`, `max_rtt` and `mdev`. -/
def readRoundTrips (out : List Char) (s : Stats) : Stats :=
  match find "min/avg/max/mdev =".toList out with
  | some (_, rest) =>
    let rest := (rest.dropWhile (· ≠ '=')).drop 1
    let part :=
      match find " ms".toList rest with
      | some (front, _) => front
      | none => rest
    match splitSlash [] (trim part) with
    | minRtt :: avgRtt :: maxRtt :: mdev :: _ => readRtts s minRtt avgRtt maxRtt mdev
    | _ => s
  | none =>
    { s with
      minRtt := numberBefore out "Minimum ="
      maxRtt := numberBefore out "Maximum ="
      avgRtt := numberBefore out "Average =" }

def parse (out : List Char) : Stats := readRoundTrips out (readPackets out)

/-! ## The report -/

/-- `AddField` -/
def addField (r : CommandResponse) (key value : String) : CommandResponse :=
  { r with fields := r.fields.filter (fun f => f.1 ≠ key) ++ [(key, value)] }

/-- `a >= b` -/
def ge (a b : Double) : Bool := !a.isNaN && !b.isNaN && decide (b.key ≤ a.key)

/-- The fields `target` and `count` and the raw output. -/
def echo (r : CommandResponse) (target : String) (count : Int) (cmd out : String) : CommandResponse :=
  let r := addField (addField r "target" target) "count" (toString count)
  { r with
    detail := r.detail ++ "=== " ++ cmd ++ " ===\n" ++ out ++
      if !out.isEmpty && out.toList.getLast? ≠ some '\n' then "\n" else "" }

/-- The fields of the numbers. -/
def addStats (r : CommandResponse) (s : Stats) : CommandResponse :=
  let r :=
    if Double.zero.lt s.sent then
      addField (addField (addField r "sent" (fmt s.sent)) "received" (fmt s.received)) "packet_loss_pct" (fmt s.lossPct)
    else r
  let r :=
    if Double.zero.lt s.avgRtt then
      addField (addField (addField r "rtt_avg_ms" (fmt s.avgRtt))
        "rtt_min_ms" (if Double.zero.lt s.minRtt then fmt s.minRtt else "0"))
        "rtt_max_ms" (if Double.zero.lt s.maxRtt then fmt s.maxRtt else "0")
    else r
  if Double.zero.lt s.mdev then addField r "jitter_ms" (fmt s.mdev) else r

def issues (target : String) (s : Stats) : List String :=
  (if ge s.lossPct (.ofNat 20) then ["packet loss of " ++ fmt s.lossPct ++ "% toward " ++ target]
    else if Double.zero.lt s.sent && (s.received.lt s.sent || Double.zero.lt s.lossPct) then
      ["some packets lost toward " ++ target]
    else []) ++
  if ge s.avgRtt (.ofNat 500) then ["average RTT " ++ fmt s.avgRtt ++ " ms toward " ++ target ++ " is high"] else []

def summary (target : String) (s : Stats) : String :=
  if Double.zero.lt s.sent then
    "burst to " ++ target ++ ": " ++ fmt s.sent ++ " sent, " ++ fmt s.received ++ " received, " ++ fmt s.lossPct ++
      "% loss, avg " ++ fmt s.avgRtt ++ " ms"
  else "ping burst to " ++ target ++ " completed (output may be localized; see detail for raw results)"

/-- What `RunPingBurst` makes of the numbers. -/
def report (r : CommandResponse) (target : String) (s : Stats) : CommandResponse :=
  let r := addStats r s
  { r with issues := r.issues ++ issues target s, success := true, summary := summary target s }

/-- `RunPingBurst` behind the run of its command, on the response that `RunCommand` begins. -/
def respond (commandId : String) (nowMs : Int) (target : String) (count : Int) (cmd out : String) : CommandResponse :=
  let target := getParam target "1.1.1.1"
  let r := echo { commandId, timestampUnixMs := nowMs } target count cmd out
  report r target (parse out.toList)

/-! ## The two formats -/

/-- The numbers both tools print. -/
structure Numbers where
  sent : Fixed
  received : Fixed
  lossPct : Fixed
  minRtt : Fixed
  avgRtt : Fixed
  maxRtt : Fixed

/-- The summary of Linux behind whole lines, with what stands between its lines and behind them. The markers are those
of the summary. -/
structure LinuxOutput extends Numbers where
  mdev : Fixed
  front : List Char
  between : List Char
  rest : List Char
  lines : ∀ c ∈ front.getLast?, c = '\n'
  front_quiet : ∀ m ∈ ["packets transmitted", "received", "% packet loss", "min/avg/max/mdev ="],
    ¬ m.toList <:+: front
  between_quiet : ¬ "min/avg/max/mdev =".toList <:+: between

/-- The last line, from the first number on. -/
def LinuxOutput.roundTrips (o : LinuxOutput) : List Char :=
  o.minRtt.text ++ ("/".toList ++ (o.avgRtt.text ++ ("/".toList ++ (o.maxRtt.text ++ ("/".toList ++ o.mdev.text)))))

def LinuxOutput.text (o : LinuxOutput) : List Char :=
  o.front ++ (o.sent.text ++ (" packets transmitted, ".toList ++ (o.received.text ++ (" received, ".toList ++
    (o.lossPct.text ++ (("% packet loss".toList ++ o.between) ++ ("rtt min/avg/max/mdev = ".toList ++
      (o.roundTrips ++ (" ms".toList ++ o.rest)))))))))

/-- The summary of Windows, likewise. -/
structure WindowsOutput extends Numbers where
  lost : Fixed
  front : List Char
  between : List Char
  rest : List Char
  front_quiet : ∀ m ∈ ["packets transmitted", "min/avg/max/mdev =", "Sent =", "Lost =", "Average ="],
    ¬ m.toList <:+: front
  between_quiet : ∀ m ∈ ["packets transmitted", "min/avg/max/mdev =", "Average ="], ¬ m.toList <:+: between
  rest_quiet : ∀ m ∈ ["packets transmitted", "min/avg/max/mdev ="], ¬ m.toList <:+: rest

def WindowsOutput.text (o : WindowsOutput) : List Char :=
  o.front ++ ("Packets: Sent = ".toList ++ (o.sent.text ++ (", Received = ".toList ++ (o.received.text ++
    (", Lost = ".toList ++ (o.lost.text ++ (" (".toList ++ (o.lossPct.text ++ (("% loss)".toList ++ o.between) ++
      ("Minimum = ".toList ++ (o.minRtt.text ++ ("ms, Maximum = ".toList ++ (o.maxRtt.text ++
        ("ms, Average = ".toList ++ (o.avgRtt.text ++ ("ms".toList ++ o.rest))))))))))))))))

inductive PingOutput
  | linux (o : LinuxOutput)
  | windows (o : WindowsOutput)

namespace PingOutput

def text : PingOutput → List Char
  | linux o => o.text
  | windows o => o.text

def numbers : PingOutput → Numbers
  | linux o => o.toNumbers
  | windows o => o.toNumbers

/-- Windows prints no deviation. -/
def mdev : PingOutput → Fixed
  | linux o => o.mdev
  | windows _ => ⟨0, 0⟩

/-- Each number has a nearest double. -/
def InRange (o : PingOutput) : Prop :=
  ∀ v ∈ [o.numbers.sent, o.numbers.received, o.numbers.lossPct, o.numbers.minRtt, o.numbers.avgRtt, o.numbers.maxRtt,
    o.mdev], v.nearest.isSome = true

instance (o : PingOutput) : Decidable o.InRange := inferInstanceAs (Decidable (∀ v ∈ _, _))

/-- The numbers of the output, as doubles. -/
def stats (o : PingOutput) : Stats where
  sent := o.numbers.sent.nearest.getD .zero
  received := o.numbers.received.nearest.getD .zero
  lossPct := o.numbers.lossPct.nearest.getD .zero
  minRtt := o.numbers.minRtt.nearest.getD .zero
  avgRtt := o.numbers.avgRtt.nearest.getD .zero
  maxRtt := o.numbers.maxRtt.nearest.getD .zero
  mdev := o.mdev.nearest.getD .zero

/-- The format of Linux, or a burst of Windows without packets and without an average. -/
def Readable : PingOutput → Prop
  | linux _ => True
  | windows o => o.sent.units = 0 ∧ o.avgRtt.units = 0

end PingOutput

/-! ## Searching between numbers -/

/-- A pattern without digits and points. -/
def IsMarker (pat : List Char) : Prop := pat ≠ [] ∧ ∀ c ∈ pat, isNumeric c = false

variable {pat a b l x sp y rest out : List Char} {v : Fixed}

theorem isMarker_iff : IsMarker pat ↔ pat ≠ [] ∧ pat.all (fun c => !isNumeric c) = true := by
  simp only [IsMarker, List.all_eq_true, Bool.not_eq_true']

instance (pat : List Char) : Decidable (IsMarker pat) := decidable_of_iff' _ isMarker_iff

theorem IsMarker.not_mem {c : Char} (h : IsMarker pat) (hc : isNumeric c = true) : c ∉ pat := by
  intro hmem
  rw [h.2 c hmem] at hc
  cases hc

/-- Something else than a number and spaces stands at the end. -/
def EndsBare (y : List Char) : Prop :=
  ∃ x c sp, y = x ++ c :: sp ∧ isNumberChar c = false ∧ Strtod.isSpace c = false ∧ ∀ d ∈ sp, Strtod.isSpace d = true

theorem EndsBare.append (h : EndsBare y) (a : List Char) : EndsBare (a ++ y) := by
  obtain ⟨x, c, sp, rfl, hc⟩ := h
  exact ⟨a ++ x, c, sp, by rw [List.append_assoc], hc⟩

namespace LinuxOutput

variable (o : LinuxOutput)

theorem quiet {m : String} (h : m ∈ ["packets transmitted", "received", "% packet loss", "min/avg/max/mdev ="]) :
    ¬ m.toList <:+: o.front := o.front_quiet m h

end LinuxOutput

/-! ## The format of Windows -/

namespace WindowsOutput

variable (o : WindowsOutput)

end WindowsOutput

/-! ## Reports -/

/-- A whole number is reported digit for digit. -/
theorem fmt_nearest {v : Fixed} (hdecimals : v.decimals = 0) (h : v.units < 2 ^ 53) :
    v.nearest.map fmt = some (toString v.units) := by
  have hnearest : v.nearest = some (.ofNat v.units) := by
    rw [Fixed.nearest, hdecimals, Nat.pow_zero, Double.ofQuotient_one h]
  have hzeros : ".".toList ++ (Double.padDigits 2 0).toList = ['.', '0', '0'] := by decide
  rw [hnearest, Option.map_some, fmt, Double.toFixed_ofNat 2 h, String.toList_append, String.toList_append,
    List.append_assoc, hzeros, List.reverse_append]
  show some (String.ofList (toString v.units).toList.reverse.reverse) = _
  rw [List.reverse_reverse, String.ofList_toList]

example :
    (respond "ping_burst" 0 "" 64 "ping" ("64 packets transmitted, 63 received, 1.5625% packet loss, time 63ms\n" ++
      "rtt min/avg/max/mdev = 1.234/2.345/3.456/4.567 ms\n")).fields =
    [("target", "1.1.1.1"), ("count", "64"), ("sent", "64"), ("received", "63"), ("packet_loss_pct", "1.56"),
      ("rtt_avg_ms", "2.35"), ("rtt_min_ms", "1.23"), ("rtt_max_ms", "3.46"), ("jitter_ms", "4.57")] := by
  decide +kernel

end PudimNetMon.Agent.PingBurst
