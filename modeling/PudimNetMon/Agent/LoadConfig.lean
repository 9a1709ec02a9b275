import Mathlib.Algebra.Ring.Int.Defs
import Mathlib.Algebra.Ring.Nat
import Mathlib.Data.List.AList
import PudimNetMon.Agent.ProbeConfig

/-!
# The configuration of the agent (`agent_config.cpp`, `config_file.h`)

`LoadAgentConfig` reads the options of a config file over its defaults, and the command line over those. The files are
given by their lines, the command line by what `getopt_long` returns for it.

- `loadConfigFile`: the entries of a file, the last one of a key;
- `fileLayer`, `cliLayer`: the options of the file over the defaults, and those of the command line over them.
-/

namespace PudimNetMon.Agent.Config

/-! ## The config file -/

/-- `std::isspace` -/
def isSpace (c : Char) : Bool := c = ' ' || (9 ≤ c.toNat && c.toNat ≤ 13)

def trim (s : List Char) : List Char := ((s.dropWhile isSpace).reverse.dropWhile isSpace).reverse

/-- A map of options. -/
abbrev OptionMap := AList fun _ : String => String

/-- What a line of the file is. -/
inductive Line
  | skipped
  | entry (key val : String)
  /-- Of this text, or with an empty key. -/
  | noEntry (t : String)
  | emptyKey
  deriving DecidableEq

def readLine (line : String) : Line :=
  let chars := line.toList
  let t := trim (if chars.getLast? = some '\r' then chars.dropLast else chars)
  if t.isEmpty || t.head? = some '#' || t.head? = some ';' then .skipped
  else if !t.contains '=' then .noEntry (String.ofList t)
  else
    let key := trim (t.takeWhile (· ≠ '='))
    let val := trim ((t.dropWhile (· ≠ '=')).drop 1)
    if key.isEmpty then .emptyKey else .entry (String.ofList key) (String.ofList val)

/-- The loop of `LoadConfigFile`, behind a number of lines. -/
def loadLines : Nat → OptionMap → List String → Except String OptionMap
  | _, out, [] => .ok out
  | lineNo, out, line :: lines =>
    match readLine line with
    | .skipped => loadLines (lineNo + 1) out lines
    | .entry key val => loadLines (lineNo + 1) (out.insert key val) lines
    | .noEntry t => .error ("line " ++ toString (lineNo + 1) ++ ": expected key=value, got '" ++ t ++ "'")
    | .emptyKey => .error ("line " ++ toString (lineNo + 1) ++ ": empty key")

/-- `LoadConfigFile`, for the lines of a file that can be opened. -/
def loadConfigFile : Option (List String) → Except String OptionMap
  | some lines => loadLines 0 ∅ lines
  | none => .error "cannot open file"

/-! ## Texts of options -/

/-- `std::stoi`; none when it throws. What follows the number is ignored. -/
def stoi (s : String) : Option Int32 :=
  let t := s.toList.dropWhile isSpace
  let negative := t.head? = some '-'
  let digits := (if t.head? = some '-' ∨ t.head? = some '+' then t.tail else t).takeWhile Char.isDigit
  let n : Int := if negative then -(Nat.ofDigitChars 10 digits 0 : Int) else Nat.ofDigitChars 10 digits 0
  if digits.isEmpty then none
  else if -2 ^ 31 ≤ n ∧ n < 2 ^ 31 then some (Int32.ofInt n)
  else none

/-- The texts that `get_b` reads. -/
def parseBool (v : String) : Option Bool :=
  if v = "true" ∨ v = "1" ∨ v = "yes" ∨ v = "on" then some true
  else if v = "false" ∨ v = "0" ∨ v = "no" ∨ v = "off" then some false
  else none

inductive LogLevel
  | debug | info | warn | error
  deriving DecidableEq, Repr

def parseLogLevel (s : String) : Option LogLevel :=
  if s = "debug" then some .debug
  else if s = "info" then some .info
  else if s = "warn" then some .warn
  else if s = "error" then some .error
  else none

/-- The loop of `ParseList`, with the item read so far. -/
def parseListFrom : List Char → List Char → List String
  | cur, [] => if cur.isEmpty then [] else [String.ofList cur]
  | cur, c :: cs =>
    if c = ',' then (if cur.isEmpty then [] else [String.ofList cur]) ++ parseListFrom [] cs
    else parseListFrom (cur ++ [c]) cs

def parseList (s : String) : List String := parseListFrom [] s.toList

/-- The host and the record of an item. -/
def dnsRecord (entry : String) : Option (String × String) :=
  let host := entry.toList.takeWhile (· ≠ '=')
  let record := (entry.toList.dropWhile (· ≠ '=')).drop 1
  if host.isEmpty || record.isEmpty then none else some (String.ofList host, String.ofList record)

/-- The records of a text. -/
def dnsRecords (s : String) : List (String × String) := (parseList s).filterMap dnsRecord

/-- `out[host].push_back(rec)` -/
def pushRecord (out : List (String × List String)) (r : String × String) : List (String × List String) :=
  match out with
  | [] => [(r.1, [r.2])]
  | (host, recs) :: out => if host = r.1 then (host, recs ++ [r.2]) :: out else (host, recs) :: pushRecord out r

def applyDnsExpected (s : String) (out : List (String × List String)) : List (String × List String) :=
  (dnsRecords s).foldl pushRecord out

/-! ## Options -/

/-- The entries of `long_options` but `config-file` and `help`. -/
inductive Opt
  | collectorEndpoint | nodeId | interval | traceId | version | dnsTargets | tcpTargets | tlsTargets | httpTargets
  | pingTargets | pingCount | pingGapMs | streamMetrics | noTlsCert | noTcpRetransmit | noTcpHandshake
  | tcpHandshakeInterval | logLevel | httpProtocols | dnsExpected | diagnosticPort | diagnosticAddress
  | collectorEndpoints | maxBufferSize | diskBufferPath | diskBufferMaxMb | tlsCa | tlsCert | tlsKey | ntpServer
  deriving DecidableEq, Repr

def Opt.name : Opt → String
  | .collectorEndpoint => "collector-endpoint"
  | .nodeId => "node-id"
  | .interval => "interval"
  | .traceId => "trace-id"
  | .version => "version"
  | .dnsTargets => "dns-targets"
  | .tcpTargets => "tcp-targets"
  | .tlsTargets => "tls-targets"
  | .httpTargets => "http-targets"
  | .pingTargets => "ping-targets"
  | .pingCount => "ping-count"
  | .pingGapMs => "ping-gap-ms"
  | .streamMetrics => "stream-metrics"
  | .noTlsCert => "no-tls-cert"
  | .noTcpRetransmit => "no-tcp-retransmit"
  | .noTcpHandshake => "no-tcp-handshake"
  | .tcpHandshakeInterval => "tcp-handshake-interval"
  | .logLevel => "log-level"
  | .httpProtocols => "http-protocols"
  | .dnsExpected => "dns-expected"
  | .diagnosticPort => "diagnostic-port"
  | .diagnosticAddress => "diagnostic-address"
  | .collectorEndpoints => "collector-endpoints"
  | .maxBufferSize => "max-buffer-size"
  | .diskBufferPath => "disk-buffer-path"
  | .diskBufferMaxMb => "disk-buffer-max-mb"
  | .tlsCa => "tls-ca"
  | .tlsCert => "tls-cert"
  | .tlsKey => "tls-key"
  | .ntpServer => "ntp-server"

def Opt.all : List Opt :=
  [.collectorEndpoint, .nodeId, .interval, .traceId, .version, .dnsTargets, .tcpTargets, .tlsTargets, .httpTargets,
    .pingTargets, .pingCount, .pingGapMs, .streamMetrics, .noTlsCert, .noTcpRetransmit, .noTcpHandshake,
    .tcpHandshakeInterval, .logLevel, .httpProtocols, .dnsExpected, .diagnosticPort, .diagnosticAddress,
    .collectorEndpoints, .maxBufferSize, .diskBufferPath, .diskBufferMaxMb, .tlsCa, .tlsCert, .tlsKey, .ntpServer]

/-- A key of the file that is the name of an option. -/
def isKnown (key : String) : Bool := Opt.all.any (fun o => o.name = key) || key = "config-file" || key = "help"

/-- What `getopt_long` returns: an option with its argument (empty for a flag), or `'?'`. -/
inductive Parsed
  | option (o : Opt) (optarg : String)
  | configFile
  | help
  | unknown
  deriving DecidableEq

/-- The platform. -/
structure Env where
  defaultConfigPath : String
  defaultDiskBufferPath : String
  /-- The lines of a file, if it can be opened. -/
  files : String → Option (List String)
  getoptLong : List String → List Parsed

/-! ## The two layers -/

/-- The local variables of `LoadAgentConfig`. -/
structure Settings where
  collectorEndpoint : String
  nodeId : String
  traceId : String
  intervalMs : Int32
  version : String
  useStreamMetrics : Bool
  dnsTargets : List String
  tcpTargets : List String
  tlsTargets : List String
  httpTargets : List String
  pingTargets : List String
  pingCount : Int32
  pingGapMs : Int32
  tlsCertCheck : Bool
  tcpRetransmitCheck : Bool
  tcpHandshakeCapture : Bool
  tcpHandshakeIntervalMs : Int32
  httpProtocols : List String
  dnsExpected : List (String × List String)
  diagnosticPort : String
  diagnosticAddress : String
  collectorEndpointsInput : String
  maxBufferSize : Int32
  diskBufferPath : String
  diskBufferMaxMb : Int32
  tlsCa : String
  tlsCert : String
  tlsKey : String
  ntpServer : String
  logLevelStr : String

section

variable (file : OptionMap)

def getS (key fallback : String) : String := (file.lookup key).getD fallback

def getI (key : String) (fallback : Int32) : Int32 := ((file.lookup key).bind stoi).getD fallback

def getB (key : String) (fallback : Bool) : Bool := ((file.lookup key).bind parseBool).getD fallback

/-- The variables in front of the command line. -/
def fileLayer (env : Env) : Settings where
  collectorEndpoint := getS file "collector-endpoint" "localhost:50051"
  nodeId := getS file "node-id" "agent-unknown"
  traceId := getS file "trace-id" ""
  intervalMs := getI file "interval" 5000
  version := getS file "version" "0.1.0"
  useStreamMetrics := getB file "stream-metrics" false
  pingCount := getI file "ping-count" 4
  pingGapMs := getI file "ping-gap-ms" 200
  tlsCertCheck := !getB file "no-tls-cert" false
  tcpRetransmitCheck := !getB file "no-tcp-retransmit" false
  tcpHandshakeCapture := !getB file "no-tcp-handshake" false
  tcpHandshakeIntervalMs := getI file "tcp-handshake-interval" 0
  diagnosticPort := getS file "diagnostic-port" "50052"
  diagnosticAddress := getS file "diagnostic-address" ""
  collectorEndpointsInput := getS file "collector-endpoints" ""
  maxBufferSize := getI file "max-buffer-size" 200
  diskBufferPath := getS file "disk-buffer-path" env.defaultDiskBufferPath
  diskBufferMaxMb := getI file "disk-buffer-max-mb" 100
  tlsCa := getS file "tls-ca" ""
  tlsCert := getS file "tls-cert" ""
  tlsKey := getS file "tls-key" ""
  ntpServer := getS file "ntp-server" "pool.ntp.org"
  logLevelStr := getS file "log-level" "info"
  dnsTargets := parseList (getS file "dns-targets" "")
  tcpTargets := parseList (getS file "tcp-targets" "")
  tlsTargets := parseList (getS file "tls-targets" "")
  httpTargets := parseList (getS file "http-targets" "")
  pingTargets := parseList (getS file "ping-targets" "")
  httpProtocols := parseList (getS file "http-protocols" "http1.1,http2")
  dnsExpected := applyDnsExpected (getS file "dns-expected" "") []

end

/-- The `switch` over the options; none when `std::stoi` throws. -/
def applyOption (s : Settings) (optarg : String) : Opt → Option Settings
  | .collectorEndpoint => some { s with collectorEndpoint := optarg }
  | .nodeId => some { s with nodeId := optarg }
  | .interval => (stoi optarg).map fun n => { s with intervalMs := n }
  | .traceId => some { s with traceId := optarg }
  | .version => some { s with version := optarg }
  | .dnsTargets => some { s with dnsTargets := parseList optarg }
  | .tcpTargets => some { s with tcpTargets := parseList optarg }
  | .tlsTargets => some { s with tlsTargets := parseList optarg }
  | .httpTargets => some { s with httpTargets := parseList optarg }
  | .pingTargets => some { s with pingTargets := parseList optarg }
  | .pingCount => (stoi optarg).map fun n => { s with pingCount := n }
  | .pingGapMs => (stoi optarg).map fun n => { s with pingGapMs := n }
  | .streamMetrics => some { s with useStreamMetrics := true }
  | .noTlsCert => some { s with tlsCertCheck := false }
  | .noTcpRetransmit => some { s with tcpRetransmitCheck := false }
  | .noTcpHandshake => some { s with tcpHandshakeCapture := false }
  | .tcpHandshakeInterval => (stoi optarg).map fun n => { s with tcpHandshakeIntervalMs := n }
  | .logLevel => some { s with logLevelStr := optarg }
  | .httpProtocols => some { s with httpProtocols := parseList optarg }
  | .dnsExpected => some { s with dnsExpected := applyDnsExpected optarg s.dnsExpected }
  | .diagnosticPort => some { s with diagnosticPort := optarg }
  | .diagnosticAddress => some { s with diagnosticAddress := optarg }
  | .collectorEndpoints => some { s with collectorEndpointsInput := optarg }
  | .maxBufferSize => (stoi optarg).map fun n => { s with maxBufferSize := n }
  | .diskBufferPath => some { s with diskBufferPath := optarg }
  | .diskBufferMaxMb => (stoi optarg).map fun n => { s with diskBufferMaxMb := n }
  | .tlsCa => some { s with tlsCa := optarg }
  | .tlsCert => some { s with tlsCert := optarg }
  | .tlsKey => some { s with tlsKey := optarg }
  | .ntpServer => some { s with ntpServer := optarg }

/-- How `LoadAgentConfig` ends: with a `ConfigResult`, or with an exception. -/
inductive LoadResult (α : Type)
  | ok (a : α)
  | help
  | error
  | threw

def LoadResult.bind {α β : Type} (x : LoadResult α) (f : α → LoadResult β) : LoadResult β :=
  match x with
  | .ok a => f a
  | .help => .help
  | .error => .error
  | .threw => .threw

/-- The loop over the command line: the variables and `cli_options`. -/
def cliLayer (s : Settings) (cliOptions : OptionMap) : List Parsed → LoadResult (Settings × OptionMap)
  | [] => .ok (s, cliOptions)
  | .option o optarg :: rest =>
    match applyOption s optarg o with
    | some s => cliLayer s (cliOptions.insert o.name optarg) rest
    | none => .threw
  | .configFile :: rest => cliLayer s cliOptions rest
  | .help :: _ => .help
  | .unknown :: _ => .error

/-! ## `LoadAgentConfig` -/

structure AgentConfig where
  configPath : String
  cfgLoaded : Bool
  fileCfg : OptionMap
  cliOptions : OptionMap
  collectorEndpoint : String
  collectorEndpoints : List String
  nodeId : String
  version : String
  traceId : String
  intervalMs : Int32
  tlsCa : String
  tlsCert : String
  tlsKey : String
  diagnosticPort : String
  diagnosticAddress : String
  ntpServer : String
  logLevel : LogLevel
  probeCfg : ProbeConfig
  tcpHandshakeIntervalMs : Int32
  useStreamMetrics : Bool
  maxBufferSize : Int32
  diskBufferPath : String
  diskBufferMaxMb : Int32

/-- The scan for `--config-file`: the last path. -/
def scanConfigFile : Option String → List String → Option String
  | path, [] => path
  | path, [arg] =>
    if "--config-file=".toList.isPrefixOf arg.toList then
      some (String.ofList (arg.toList.drop "--config-file=".length))
    else path
  | path, arg :: next :: rest =>
    if arg = "--config-file" then scanConfigFile (some next) rest
    else if "--config-file=".toList.isPrefixOf arg.toList then
      scanConfigFile (some (String.ofList (arg.toList.drop "--config-file=".length))) (next :: rest)
    else scanConfigFile path (next :: rest)

section

variable (env : Env) (args : List String)

def configPath : String :=
  let path := (scanConfigFile none args).getD ""
  if path.isEmpty then env.defaultConfigPath else path

/-- `file_cfg` and `cfg_loaded`; none when the file is wanted and cannot be loaded. -/
def readConfig : Option (OptionMap × Bool) :=
  if (scanConfigFile none args).isSome || (env.files (configPath env args)).isSome then
    match loadConfigFile (env.files (configPath env args)) with
    | .ok file => some (file, true)
    | .error _ => none
  else some (∅, false)

/-- The assignments to `out`. -/
def assemble (file : OptionMap) (cfgLoaded : Bool) (cliOptions : OptionMap) (s : Settings) (logLevel : LogLevel) :
    AgentConfig where
  configPath := configPath env args
  cfgLoaded := cfgLoaded
  fileCfg := file
  cliOptions := cliOptions
  collectorEndpoint := s.collectorEndpoint
  collectorEndpoints := parseList s.collectorEndpointsInput
  nodeId := s.nodeId
  version := s.version
  traceId := s.traceId
  intervalMs := s.intervalMs
  tlsCa := s.tlsCa
  tlsCert := s.tlsCert
  tlsKey := s.tlsKey
  diagnosticPort := s.diagnosticPort
  diagnosticAddress := s.diagnosticAddress
  ntpServer := s.ntpServer
  logLevel := logLevel
  probeCfg :=
    { dnsTargets := s.dnsTargets, tcpTargets := s.tcpTargets, tlsTargets := s.tlsTargets, httpTargets := s.httpTargets
      pingTargets := s.pingTargets, httpProtocols := s.httpProtocols, dnsExpected := s.dnsExpected
      pingCount := s.pingCount, pingGapMs := s.pingGapMs, tlsCertCheck := s.tlsCertCheck
      tcpRetransmitCheck := s.tcpRetransmitCheck, tcpHandshakeCapture := s.tcpHandshakeCapture }
  tcpHandshakeIntervalMs := s.tcpHandshakeIntervalMs
  useStreamMetrics := s.useStreamMetrics
  maxBufferSize := s.maxBufferSize
  diskBufferPath := s.diskBufferPath
  diskBufferMaxMb := s.diskBufferMaxMb

def loadAgentConfig : LoadResult AgentConfig :=
  match readConfig env args with
  | none => .error
  | some (file, cfgLoaded) =>
    if !file.keys.all isKnown then .error
    else
      (cliLayer (fileLayer file env) ∅ (env.getoptLong args)).bind fun (s, cliOptions) =>
        match parseLogLevel s.logLevelStr with
        | none => .error
        | some logLevel => .ok (assemble env args file cfgLoaded cliOptions s logLevel)

end

end PudimNetMon.Agent.Config
