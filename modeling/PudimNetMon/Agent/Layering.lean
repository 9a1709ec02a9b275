import PudimNetMon.Agent.LoadConfig

/-!
# The layers of the configuration (`agent_config.cpp`)

Which source gives an option its value in the configuration that `LoadAgentConfig` accepts.

- `value_of_cli`, `value_of_file`, `value_dnsExpected`: the value of an option, by its sources;
- `layered_iff`: the command line overrides the file, unless both have expected DNS records: those of the command line
  are added to the file's.
-/

namespace PudimNetMon.Agent.Config

/-! ## Values of options -/

/-- A value in the configuration. -/
inductive Value
  | text (s : String)
  | number (n : Int32)
  | flag (b : Bool)
  | list (items : List String)
  | level (l : LogLevel)
  /-- The records of each host. -/
  | records (of : String → List String)

/-- The records of a host. -/
def recordsOf (m : List (String × List String)) (host : String) : List String := (m.lookup host).getD []

/-- The value of an option; a flag that turns a check off has that of the check. -/
def AgentConfig.value (cfg : AgentConfig) : Opt → Value
  | .collectorEndpoint => .text cfg.collectorEndpoint
  | .nodeId => .text cfg.nodeId
  | .interval => .number cfg.intervalMs
  | .traceId => .text cfg.traceId
  | .version => .text cfg.version
  | .dnsTargets => .list cfg.probeCfg.dnsTargets
  | .tcpTargets => .list cfg.probeCfg.tcpTargets
  | .tlsTargets => .list cfg.probeCfg.tlsTargets
  | .httpTargets => .list cfg.probeCfg.httpTargets
  | .pingTargets => .list cfg.probeCfg.pingTargets
  | .pingCount => .number cfg.probeCfg.pingCount
  | .pingGapMs => .number cfg.probeCfg.pingGapMs
  | .streamMetrics => .flag cfg.useStreamMetrics
  | .noTlsCert => .flag cfg.probeCfg.tlsCertCheck
  | .noTcpRetransmit => .flag cfg.probeCfg.tcpRetransmitCheck
  | .noTcpHandshake => .flag cfg.probeCfg.tcpHandshakeCapture
  | .tcpHandshakeInterval => .number cfg.tcpHandshakeIntervalMs
  | .logLevel => .level cfg.logLevel
  | .httpProtocols => .list cfg.probeCfg.httpProtocols
  | .dnsExpected => .records (recordsOf cfg.probeCfg.dnsExpected)
  | .diagnosticPort => .text cfg.diagnosticPort
  | .diagnosticAddress => .text cfg.diagnosticAddress
  | .collectorEndpoints => .list cfg.collectorEndpoints
  | .maxBufferSize => .number cfg.maxBufferSize
  | .diskBufferPath => .text cfg.diskBufferPath
  | .diskBufferMaxMb => .number cfg.diskBufferMaxMb
  | .tlsCa => .text cfg.tlsCa
  | .tlsCert => .text cfg.tlsCert
  | .tlsKey => .text cfg.tlsKey
  | .ntpServer => .text cfg.ntpServer

/-- The value that a text of the file stands for, if any. -/
def textValue (t : String) : Opt → Option Value
  | .interval | .pingCount | .pingGapMs | .tcpHandshakeInterval | .maxBufferSize | .diskBufferMaxMb =>
    (stoi t).map .number
  | .streamMetrics => (parseBool t).map .flag
  | .noTlsCert | .noTcpRetransmit | .noTcpHandshake => (parseBool t).map fun b => .flag !b
  | .dnsTargets | .tcpTargets | .tlsTargets | .httpTargets | .pingTargets | .httpProtocols | .collectorEndpoints =>
    some (.list (parseList t))
  | .dnsExpected => some (.records (recordsOf (applyDnsExpected t [])))
  | .logLevel => (parseLogLevel t).map .level
  | .collectorEndpoint | .nodeId | .traceId | .version | .diagnosticPort | .diagnosticAddress | .diskBufferPath
  | .tlsCa | .tlsCert | .tlsKey | .ntpServer => some (.text t)

/-- The value that an argument on the command line stands for; a flag has none. -/
def argValue (optarg : String) : Opt → Option Value
  | .streamMetrics => some (.flag true)
  | .noTlsCert | .noTcpRetransmit | .noTcpHandshake => some (.flag false)
  | o => textValue optarg o

/-- The arguments that the command line gives for an option. -/
def argsOf (o : Opt) (parsed : List Parsed) : List String :=
  parsed.filterMap fun
    | .option o' optarg => if o' = o then some optarg else none
    | _ => none

/-- The value that the command line gives an option: that of its last argument, or the records of all of them. -/
def cliValue (parsed : List Parsed) : Opt → Option Value
  | .dnsExpected => some (.records (recordsOf
      ((argsOf .dnsExpected parsed).foldl (fun out optarg => applyDnsExpected optarg out) [])))
  | o => (argsOf o parsed).getLast?.bind fun optarg => argValue optarg o

/-- The value of an option under the local variables. -/
def Settings.value (s : Settings) : Opt → Option Value
  | .collectorEndpoint => some (.text s.collectorEndpoint)
  | .nodeId => some (.text s.nodeId)
  | .interval => some (.number s.intervalMs)
  | .traceId => some (.text s.traceId)
  | .version => some (.text s.version)
  | .dnsTargets => some (.list s.dnsTargets)
  | .tcpTargets => some (.list s.tcpTargets)
  | .tlsTargets => some (.list s.tlsTargets)
  | .httpTargets => some (.list s.httpTargets)
  | .pingTargets => some (.list s.pingTargets)
  | .pingCount => some (.number s.pingCount)
  | .pingGapMs => some (.number s.pingGapMs)
  | .streamMetrics => some (.flag s.useStreamMetrics)
  | .noTlsCert => some (.flag s.tlsCertCheck)
  | .noTcpRetransmit => some (.flag s.tcpRetransmitCheck)
  | .noTcpHandshake => some (.flag s.tcpHandshakeCapture)
  | .tcpHandshakeInterval => some (.number s.tcpHandshakeIntervalMs)
  | .logLevel => (parseLogLevel s.logLevelStr).map .level
  | .httpProtocols => some (.list s.httpProtocols)
  | .dnsExpected => some (.records (recordsOf s.dnsExpected))
  | .diagnosticPort => some (.text s.diagnosticPort)
  | .diagnosticAddress => some (.text s.diagnosticAddress)
  | .collectorEndpoints => some (.list (parseList s.collectorEndpointsInput))
  | .maxBufferSize => some (.number s.maxBufferSize)
  | .diskBufferPath => some (.text s.diskBufferPath)
  | .diskBufferMaxMb => some (.number s.diskBufferMaxMb)
  | .tlsCa => some (.text s.tlsCa)
  | .tlsCert => some (.text s.tlsCert)
  | .tlsKey => some (.text s.tlsKey)
  | .ntpServer => some (.text s.ntpServer)

/-! ## The layers, option by option -/

/-- The configuration has the values of the variables. -/
theorem value_assemble {env : Env} {args : List String} {file : OptionMap} {cfgLoaded : Bool} {cliOptions : OptionMap}
    {s : Settings} {level : LogLevel} (h : parseLogLevel s.logLevelStr = some level) (o : Opt) :
    s.value o = some ((assemble env args file cfgLoaded cliOptions s level).value o) := by
  cases o with
  | logLevel => simp [Settings.value, h, AgentConfig.value, assemble]
  | _ => rfl

section

variable {file file' : OptionMap} {env : Env} {key t fallback : String} {o : Opt}

theorem getS_of (h : file.lookup key = some t) : getS file key fallback = t := by rw [getS, h, Option.getD_some]

theorem getI_of {fallback n : Int32} (h : file.lookup key = some t) (hn : stoi t = some n) :
    getI file key fallback = n := by
  rw [getI, h, Option.bind_some, hn, Option.getD_some]

theorem getB_of {fallback b : Bool} (h : file.lookup key = some t) (hb : parseBool t = some b) :
    getB file key fallback = b := by
  rw [getB, h, Option.bind_some, hb, Option.getD_some]

/-- The value of an option in the file. -/
theorem value_fileLayer {v : Value} (h : file.lookup o.name = some t) (hv : textValue t o = some v) :
    (fileLayer file env).value o = some v := by
  cases o with
  | interval | pingCount | pingGapMs | tcpHandshakeInterval | maxBufferSize | diskBufferMaxMb =>
    obtain ⟨n, hn, rfl⟩ := Option.map_eq_some_iff.1 hv
    exact congrArg (fun n => some (Value.number n)) (getI_of h hn)
  | streamMetrics =>
    obtain ⟨b, hb, rfl⟩ := Option.map_eq_some_iff.1 hv
    exact congrArg (fun b => some (Value.flag b)) (getB_of h hb)
  | noTlsCert | noTcpRetransmit | noTcpHandshake =>
    obtain ⟨b, hb, rfl⟩ := Option.map_eq_some_iff.1 hv
    exact congrArg (fun b => some (Value.flag !b)) (getB_of h hb)
  | logLevel =>
    rw [← hv]
    exact congrArg (fun t => (parseLogLevel t).map Value.level) (getS_of h)
  | dnsTargets | tcpTargets | tlsTargets | httpTargets | pingTargets | httpProtocols | collectorEndpoints =>
    rw [← hv]
    exact congrArg (fun t => some (Value.list (parseList t))) (getS_of h)
  | dnsExpected =>
    rw [← hv]
    exact congrArg (fun t => some (Value.records (recordsOf (applyDnsExpected t [])))) (getS_of h)
  | _ =>
    rw [← hv]
    exact congrArg (fun t => some (Value.text t)) (getS_of h)

/-- It depends on the option's own entry only. -/
theorem value_fileLayer_congr (h : file.lookup o.name = file'.lookup o.name) :
    (fileLayer file env).value o = (fileLayer file' env).value o := by
  have hS : ∀ fallback, getS file o.name fallback = getS file' o.name fallback := fun _ => by rw [getS, getS, h]
  have hI : ∀ fallback, getI file o.name fallback = getI file' o.name fallback := fun _ => by rw [getI, getI, h]
  have hB : ∀ fallback, getB file o.name fallback = getB file' o.name fallback := fun _ => by rw [getB, getB, h]
  cases o with
  | interval | pingCount | pingGapMs | tcpHandshakeInterval | maxBufferSize | diskBufferMaxMb =>
    exact congrArg (fun n => some (Value.number n)) (hI _)
  | streamMetrics => exact congrArg (fun b => some (Value.flag b)) (hB _)
  | noTlsCert | noTcpRetransmit | noTcpHandshake => exact congrArg (fun b => some (Value.flag !b)) (hB _)
  | logLevel => exact congrArg (fun t => (parseLogLevel t).map Value.level) (hS _)
  | dnsTargets | tcpTargets | tlsTargets | httpTargets | pingTargets | httpProtocols | collectorEndpoints =>
    exact congrArg (fun t => some (Value.list (parseList t))) (hS _)
  | dnsExpected => exact congrArg (fun t => some (Value.records (recordsOf (applyDnsExpected t [])))) (hS _)
  | _ => exact congrArg (fun t => some (Value.text t)) (hS _)

end

section

variable {s s' : Settings} {o o' : Opt} {optarg : String}

/-- An option on the command line replaces its value, unless it is the one of the expected records. -/
theorem value_applyOption (h : applyOption s optarg o = some s') (ho : o ≠ .dnsExpected) :
    s'.value o = argValue optarg o := by
  cases o with
  | dnsExpected => exact absurd rfl ho
  | interval | pingCount | pingGapMs | tcpHandshakeInterval | maxBufferSize | diskBufferMaxMb =>
    obtain ⟨n, hn, rfl⟩ := Option.map_eq_some_iff.1 h
    exact (congrArg (Option.map Value.number) hn).symm
  | _ =>
    cases h
    rfl

/-- It leaves all other options as they are. -/
theorem value_applyOption_ne (h : applyOption s optarg o' = some s') (ho : o ≠ o') : s'.value o = s.value o := by
  cases o' with
  | interval | pingCount | pingGapMs | tcpHandshakeInterval | maxBufferSize | diskBufferMaxMb =>
    obtain ⟨n, -, rfl⟩ := Option.map_eq_some_iff.1 h
    cases o <;> first | rfl | exact absurd rfl ho
  | _ =>
    cases h
    cases o <;> first | rfl | exact absurd rfl ho

theorem dnsExpected_applyOption (h : applyOption s optarg o = some s') :
    s'.dnsExpected = if o = .dnsExpected then applyDnsExpected optarg s.dnsExpected else s.dnsExpected := by
  cases o with
  | interval | pingCount | pingGapMs | tcpHandshakeInterval | maxBufferSize | diskBufferMaxMb =>
    obtain ⟨n, -, rfl⟩ := Option.map_eq_some_iff.1 h
    rfl
  | _ =>
    cases h
    rfl

/-- Whether `std::stoi` throws does not depend on the variables. -/
theorem isSome_applyOption (s s' : Settings) (optarg : String) (o : Opt) :
    (applyOption s optarg o).isSome = (applyOption s' optarg o).isSome := by
  cases o <;> simp [applyOption]

end

/-! ## The command line -/

section

variable {s s' : Settings} {cliOptions cliOptions' : OptionMap} {parsed : List Parsed}

/-- The loop went through an option. -/
theorem cliLayer_option {o : Opt} {optarg : String} {rest : List Parsed}
    (h : cliLayer s cliOptions (.option o optarg :: rest) = .ok (s', cliOptions')) :
    ∃ t, applyOption s optarg o = some t ∧
      cliLayer t (cliOptions.insert o.name optarg) rest = .ok (s', cliOptions') := by
  rw [cliLayer] at h
  split at h
  · exact ⟨_, ‹_›, h⟩
  · cases h

/-- **Last argument.** -/
theorem value_cliLayer {o : Opt} (ho : o ≠ .dnsExpected) (h : cliLayer s cliOptions parsed = .ok (s', cliOptions')) :
    s'.value o = match (argsOf o parsed).getLast? with
      | some optarg => argValue optarg o
      | none => s.value o := by
  induction parsed generalizing s cliOptions with
  | nil =>
    cases h
    rfl
  | cons p rest ih =>
    cases p with
    | option o' optarg =>
      obtain ⟨t, ht, h⟩ := cliLayer_option h
      rw [ih h]
      by_cases heq : o' = o
      · subst heq
        have hargs : argsOf o' (.option o' optarg :: rest) = optarg :: argsOf o' rest := by simp [argsOf]
        rw [hargs, List.getLast?_cons, value_applyOption ht ho]
        cases (argsOf o' rest).getLast? <;> rfl
      · have hargs : argsOf o (.option o' optarg :: rest) = argsOf o rest := by simp [argsOf, heq]
        rw [hargs, value_applyOption_ne ht (Ne.symm heq)]
    | configFile => exact ih h
    | help => cases h
    | unknown => cases h

/-- **Accumulation.** The expected records of all arguments are added to those in front of the command line. -/
theorem dnsExpected_cliLayer (h : cliLayer s cliOptions parsed = .ok (s', cliOptions')) :
    s'.dnsExpected =
      (argsOf .dnsExpected parsed).foldl (fun out optarg => applyDnsExpected optarg out) s.dnsExpected := by
  induction parsed generalizing s cliOptions with
  | nil =>
    cases h
    rfl
  | cons p rest ih =>
    cases p with
    | option o' optarg =>
      obtain ⟨t, ht, h⟩ := cliLayer_option h
      rw [ih h, dnsExpected_applyOption ht]
      by_cases heq : o' = .dnsExpected
      · simp [argsOf, heq]
      · simp [argsOf, heq]
    | configFile => exact ih h
    | help => cases h
    | unknown => cases h

/-- How the loop ends does not depend on the variables. -/
theorem cliLayer_ok (t : Settings) (options : OptionMap) (h : cliLayer s cliOptions parsed = .ok (s', cliOptions')) :
    ∃ t' options', cliLayer t options parsed = .ok (t', options') := by
  induction parsed generalizing s t cliOptions options with
  | nil => exact ⟨t, options, rfl⟩
  | cons p rest ih =>
    cases p with
    | option o optarg =>
      obtain ⟨u, hu, h⟩ := cliLayer_option h
      have hsome : (applyOption t optarg o).isSome := by rw [isSome_applyOption t s, hu]; rfl
      obtain ⟨v, hv⟩ := Option.isSome_iff_exists.1 hsome
      obtain ⟨t', options', h'⟩ := ih v (options.insert o.name optarg) h
      exact ⟨t', options', by rw [cliLayer, hv]; exact h'⟩
    | configFile => exact ih t options h
    | help => cases h
    | unknown => cases h

end

/-! ## Expected records -/

/-- The records for a host. -/
def recordsFor (host : String) (rs : List (String × String)) : List String :=
  rs.filterMap fun r => if r.1 = host then some r.2 else none

theorem recordsOf_pushRecord (out : List (String × List String)) (r : String × String) (host : String) :
    recordsOf (pushRecord out r) host = recordsOf out host ++ recordsFor host [r] := by
  induction out with
  | nil =>
    by_cases h : r.1 = host
    · simp [pushRecord, recordsOf, recordsFor, h]
    · simp [pushRecord, recordsOf, recordsFor, h, List.lookup_cons, beq_eq_false_iff_ne.2 (Ne.symm h)]
  | cons e out ih =>
    obtain ⟨k, recs⟩ := e
    unfold recordsOf at ih ⊢
    by_cases hk : k = r.1
    · subst hk
      by_cases h : host = r.1
      · subst h
        simp [pushRecord, recordsFor]
      · simp [pushRecord, recordsFor, List.lookup_cons, beq_eq_false_iff_ne.2 h, Ne.symm h]
    · rw [pushRecord, if_neg hk, List.lookup_cons, List.lookup_cons]
      by_cases h : host = k
      · subst h
        simp [recordsFor, Ne.symm hk]
      · rw [beq_eq_false_iff_ne.2 h]
        exact ih

theorem recordsOf_foldl (rs : List (String × String)) (out : List (String × List String)) (host : String) :
    recordsOf (rs.foldl pushRecord out) host = recordsOf out host ++ recordsFor host rs := by
  induction rs generalizing out with
  | nil => simp [recordsFor]
  | cons r rs ih =>
    rw [List.foldl_cons, ih, recordsOf_pushRecord, List.append_assoc]
    congr 1
    unfold recordsFor
    rw [← List.filterMap_append]
    rfl

/-- The records of a run of arguments are put behind those that were there. -/
theorem recordsOf_args (args : List String) (out : List (String × List String)) (host : String) :
    recordsOf (args.foldl (fun out optarg => applyDnsExpected optarg out) out) host =
      recordsOf out host ++ args.flatMap fun optarg => recordsFor host (dnsRecords optarg) := by
  induction args generalizing out with
  | nil => simp
  | cons optarg args ih =>
    rw [List.foldl_cons, ih, applyDnsExpected, recordsOf_foldl, List.append_assoc, List.flatMap_cons]

/-- Records for no host are no records. -/
theorem recordsFor_eq_nil {rs : List (String × String)} : (∀ host, recordsFor host rs = []) ↔ rs = [] := by
  constructor
  · intro h
    cases rs with
    | nil => rfl
    | cons r rs =>
      have := h r.1
      simp [recordsFor] at this
  · rintro rfl host
    rfl

/-! ## Without an entry of the file -/

/-- The key of a line. -/
def entryKey (line : String) : Option String :=
  match readLine line with
  | .entry key _ => some key
  | _ => none

/-- The file at a path loses its lines with a key. -/
def Env.without (env : Env) (path key : String) : Env :=
  { env with
    files := Function.update env.files path
      ((env.files path).map fun lines => lines.filter fun line => entryKey line ≠ some key) }

/-- A map that has lost a key. -/
def Lost (key : String) (m m' : OptionMap) : Prop := ∀ k, m'.lookup k = if k = key then none else m.lookup k

theorem Lost.insert_self {key val : String} {m m' : OptionMap} (h : Lost key m m') :
    Lost key (m.insert key val) m' := by
  intro k
  rw [h k]
  by_cases hk : k = key
  · rw [if_pos hk, if_pos hk]
  · rw [if_neg hk, if_neg hk, AList.lookup_insert_ne hk]

theorem Lost.insert {key k' val : String} {m m' : OptionMap} (hne : k' ≠ key) (h : Lost key m m') :
    Lost key (m.insert k' val) (m'.insert k' val) := by
  intro k
  by_cases hk : k = k'
  · subst hk
    rw [AList.lookup_insert, AList.lookup_insert, if_neg hne]
  · rw [AList.lookup_insert_ne hk, AList.lookup_insert_ne hk]
    exact h k

theorem loadLines_without {key : String} {lines : List String} {n : Nat} (n' : Nat) {out out' file : OptionMap}
    (hout : Lost key out out') (h : loadLines n out lines = .ok file) :
    ∃ file', loadLines n' out' (lines.filter fun line => entryKey line ≠ some key) = .ok file' ∧
      Lost key file file' := by
  induction lines generalizing n n' out out' with
  | nil =>
    cases h
    exact ⟨out', rfl, hout⟩
  | cons line lines ih =>
    rw [loadLines] at h
    cases hline : readLine line with
    | skipped =>
      rw [hline] at h
      have hkeep : entryKey line ≠ some key := by simp [entryKey, hline]
      obtain ⟨file', hfile, hlost⟩ := ih (n' + 1) hout h
      exact ⟨file', by rw [List.filter_cons_of_pos (by simpa using hkeep), loadLines, hline]; exact hfile, hlost⟩
    | entry k val =>
      rw [hline] at h
      by_cases hk : k = key
      · subst hk
        have hdrop : entryKey line = some k := by simp [entryKey, hline]
        rw [List.filter_cons_of_neg (by simp [hdrop])]
        exact ih n' hout.insert_self h
      · have hkeep : entryKey line ≠ some key := by simp [entryKey, hline, hk]
        obtain ⟨file', hfile, hlost⟩ := ih (n' + 1) (hout.insert hk) h
        exact ⟨file', by rw [List.filter_cons_of_pos (by simpa using hkeep), loadLines, hline]; exact hfile, hlost⟩
    | noEntry t =>
      rw [hline] at h
      cases h
    | emptyKey =>
      rw [hline] at h
      cases h

/-- The file that is read loses the entry. -/
theorem readConfig_without {env : Env} {args : List String} (key : String) {file : OptionMap} {loaded : Bool}
    (h : readConfig env args = some (file, loaded)) :
    ∃ file', readConfig (env.without (configPath env args) key) args = some (file', loaded) ∧ Lost key file file' := by
  have hpath : configPath (env.without (configPath env args) key) args = configPath env args := rfl
  have hfiles : (env.without (configPath env args) key).files (configPath env args) =
      (env.files (configPath env args)).map fun lines => lines.filter fun line => entryKey line ≠ some key := by
    simp [Env.without]
  have hempty : Lost key ∅ ∅ := fun k => by simp
  unfold readConfig at h ⊢
  rw [hpath, hfiles, Option.isSome_map]
  split at h
  · rename_i hwanted
    rw [if_pos hwanted]
    cases hopen : env.files (configPath env args) with
    | none =>
      rw [hopen] at h
      cases h
    | some lines =>
      rw [hopen] at h
      simp only [loadConfigFile] at h
      split at h
      · rename_i file₀ hload
        cases h
        obtain ⟨file', hfile, hlost⟩ := loadLines_without 0 hempty hload
        exact ⟨file', by simp only [Option.map_some, loadConfigFile, hfile], hlost⟩
      · cases h
  · rename_i hwanted
    cases h
    exact ⟨∅, by rw [if_neg hwanted], hempty⟩

theorem Lost.known {key : String} {m m' : OptionMap} (h : Lost key m m') (hm : m.keys.all isKnown = true) :
    m'.keys.all isKnown = true := by
  rw [List.all_eq_true] at hm ⊢
  intro k hk
  apply hm
  rw [← AList.mem_keys, ← AList.lookup_isSome] at hk ⊢
  rw [h k] at hk
  split at hk
  · cases hk
  · exact hk

/-! ## Precedence -/

section

variable {env : Env} {args : List String} {cfg : AgentConfig} {o : Opt} {t : String}

/-- What an accepted command line went through. -/
theorem loadAgentConfig_ok (h : loadAgentConfig env args = .ok cfg) :
    ∃ file loaded s cliOptions level, readConfig env args = some (file, loaded) ∧ file.keys.all isKnown = true ∧
      cliLayer (fileLayer file env) ∅ (env.getoptLong args) = .ok (s, cliOptions) ∧
      parseLogLevel s.logLevelStr = some level ∧ cfg = assemble env args file loaded cliOptions s level := by
  unfold loadAgentConfig at h
  split at h
  · cases h
  rename_i file loaded hread
  split at h
  · cases h
  rename_i hknown
  cases hcli : cliLayer (fileLayer file env) ∅ (env.getoptLong args) with
  | ok r =>
    obtain ⟨s, cliOptions⟩ := r
    rw [hcli] at h
    simp only [LoadResult.bind] at h
    split at h
    · cases h
    · rename_i level hlevel
      cases h
      exact ⟨file, loaded, s, cliOptions, level, hread, by simpa using hknown, hcli, hlevel, rfl⟩
  | _ =>
    rw [hcli] at h
    cases h

theorem loadAgentConfig_of {file : OptionMap} {loaded : Bool} {s : Settings} {cliOptions : OptionMap}
    {level : LogLevel} (hread : readConfig env args = some (file, loaded)) (hknown : file.keys.all isKnown = true)
    (hcli : cliLayer (fileLayer file env) ∅ (env.getoptLong args) = .ok (s, cliOptions))
    (hlevel : parseLogLevel s.logLevelStr = some level) :
    loadAgentConfig env args = .ok (assemble env args file loaded cliOptions s level) := by
  simp only [loadAgentConfig, hread, hknown, Bool.not_true, Bool.false_eq_true, if_false, hcli, LoadResult.bind, hlevel]

/-- The text of an option in the file. -/
def fileText (env : Env) (args : List String) (o : Opt) : Option String :=
  (readConfig env args).bind fun r => r.1.lookup o.name

/-- The option is on the command line. -/
def InCli (env : Env) (args : List String) (o : Opt) : Prop := argsOf o (env.getoptLong args) ≠ []

instance (env : Env) (args : List String) (o : Opt) : Decidable (InCli env args o) :=
  inferInstanceAs (Decidable (_ ≠ _))

/-- The option is in the file, with a text that is not rejected. -/
def InFile (env : Env) (args : List String) (o : Opt) : Prop :=
  ∃ t, fileText env args o = some t ∧ (textValue t o).isSome

theorem cliValue_eq (parsed : List Parsed) (ho : o ≠ .dnsExpected) :
    cliValue parsed o = (argsOf o parsed).getLast?.bind fun optarg => argValue optarg o := by
  cases o <;> first | rfl | exact absurd rfl ho

/-- **Command line.** An option on it has the value it gives. -/
theorem value_of_cli (h : loadAgentConfig env args = .ok cfg) (ho : o ≠ .dnsExpected) (hcli : InCli env args o) :
    cliValue (env.getoptLong args) o = some (cfg.value o) := by
  obtain ⟨file, loaded, s, cliOptions, level, -, -, hlayer, hlevel, rfl⟩ := loadAgentConfig_ok h
  rw [← value_assemble hlevel o, value_cliLayer ho hlayer, cliValue_eq _ ho, List.getLast?_eq_some_getLast hcli]
  rfl

theorem value_cliLayer_none {s s' : Settings} {cliOptions cliOptions' : OptionMap} {parsed : List Parsed}
    (h : cliLayer s cliOptions parsed = .ok (s', cliOptions')) (hargs : argsOf o parsed = []) :
    s'.value o = s.value o := by
  by_cases ho : o = .dnsExpected
  · subst ho
    rw [Settings.value, dnsExpected_cliLayer h, hargs]
    rfl
  · rw [value_cliLayer ho h, hargs]
    rfl

/-- **File.** An option that is not on the command line has the value of its text. -/
theorem value_of_file {v : Value} (h : loadAgentConfig env args = .ok cfg) (hcli : ¬InCli env args o)
    (hfile : fileText env args o = some t) (hv : textValue t o = some v) : cfg.value o = v := by
  obtain ⟨file, loaded, s, cliOptions, level, hread, -, hlayer, hlevel, rfl⟩ := loadAgentConfig_ok h
  rw [fileText, hread] at hfile
  have hvalue : s.value o = some ((assemble env args file loaded cliOptions s level).value o) :=
    value_assemble hlevel o
  rw [value_cliLayer_none hlayer (not_not.1 hcli), value_fileLayer hfile hv] at hvalue
  exact (Option.some.inj hvalue).symm

/-- **Expected records.** Those of the file, and behind them those of the command line. -/
theorem value_dnsExpected (h : loadAgentConfig env args = .ok cfg) :
    cfg.value .dnsExpected = .records fun host =>
      recordsFor host (dnsRecords ((fileText env args .dnsExpected).getD "")) ++
        (argsOf .dnsExpected (env.getoptLong args)).flatMap fun optarg => recordsFor host (dnsRecords optarg) := by
  obtain ⟨file, loaded, s, cliOptions, level, hread, -, hlayer, hlevel, rfl⟩ := loadAgentConfig_ok h
  have hlookup : (fileText env args .dnsExpected).getD "" = getS file "dns-expected" "" := by rw [fileText, hread]; rfl
  refine congrArg Value.records (funext fun host => ?_)
  show recordsOf s.dnsExpected host = _
  rw [dnsExpected_cliLayer hlayer, recordsOf_args, hlookup]
  congr 1
  show recordsOf ((dnsRecords _).foldl pushRecord []) host = _
  rw [recordsOf_foldl]
  rfl

theorem fileText_without (h : loadAgentConfig env args = .ok cfg) (o : Opt) :
    fileText (env.without (configPath env args) o.name) args o = none := by
  obtain ⟨file, loaded, s, cliOptions, level, hread, -, -, -, rfl⟩ := loadAgentConfig_ok h
  obtain ⟨file', hread', hlost⟩ := readConfig_without o.name hread
  rw [fileText, hread', Option.bind_some, hlost, if_pos rfl]

theorem name_ne_logLevel (ho : o ≠ .logLevel) : Opt.name .logLevel ≠ o.name := by
  cases o <;> first | exact absurd rfl ho | simp [Opt.name]

/-- Without the file's entry for an option that is on it, the command line is accepted as well. -/
theorem load_without (h : loadAgentConfig env args = .ok cfg) (hcli : InCli env args o) :
    ∃ cfg', loadAgentConfig (env.without (configPath env args) o.name) args = .ok cfg' := by
  obtain ⟨file, loaded, s, cliOptions, level, hread, hknown, hlayer, hlevel, rfl⟩ := loadAgentConfig_ok h
  obtain ⟨file', hread', hlost⟩ := readConfig_without o.name hread
  obtain ⟨s', cliOptions', hlayer'⟩ := cliLayer_ok
    (fileLayer file' (env.without (configPath env args) o.name)) ∅ hlayer
  -- the level on the command line, or that of the file, which still has its entry
  have hsame : s'.value .logLevel = s.value .logLevel := by
    rw [value_cliLayer (by simp) hlayer', value_cliLayer (by simp) hlayer]
    cases hargs : (argsOf .logLevel (env.getoptLong args)).getLast? with
    | some optarg => rfl
    | none =>
      have ho : o ≠ .logLevel := by
        rintro rfl
        exact hcli (List.getLast?_eq_none_iff.1 hargs)
      have hlookup : file'.lookup (Opt.name .logLevel) = file.lookup (Opt.name .logLevel) := by
        rw [hlost, if_neg (name_ne_logLevel ho)]
      exact value_fileLayer_congr hlookup
  have hlevel' : (parseLogLevel s'.logLevelStr).map Value.level = some (.level level) := by
    have hvalue : (parseLogLevel s'.logLevelStr).map Value.level = s'.value .logLevel := rfl
    rw [hvalue, hsame, Settings.value, hlevel]
    rfl
  obtain ⟨level', hlevel', -⟩ := Option.map_eq_some_iff.1 hlevel'
  exact ⟨_, loadAgentConfig_of hread' (hlost.known hknown) hlayer' hlevel'⟩

end

/-- An option in both sources has the value that it has without its entry in the file, and an option in one source
the value of that source. -/
def Layered (env : Env) (args : List String) (cfg : AgentConfig) : Prop :=
  ∀ o : Opt,
    (InCli env args o → InFile env args o →
      ∃ cfg', loadAgentConfig (env.without (configPath env args) o.name) args = .ok cfg' ∧ cfg.value o = cfg'.value o) ∧
    (InCli env args o → ¬InFile env args o → cliValue (env.getoptLong args) o = some (cfg.value o)) ∧
    (¬InCli env args o → InFile env args o →
      ∃ t, fileText env args o = some t ∧ textValue t o = some (cfg.value o))

section

variable {env : Env} {args : List String} {cfg : AgentConfig}

/-- The text of the expected records is never rejected. -/
theorem inFile_dnsExpected_iff : InFile env args .dnsExpected ↔ ∃ t, fileText env args .dnsExpected = some t :=
  exists_congr fun _ => and_iff_left rfl

theorem value_dnsExpected_none (h : loadAgentConfig env args = .ok cfg)
    (hfile : ∀ t, fileText env args .dnsExpected = some t → dnsRecords t = []) :
    cliValue (env.getoptLong args) .dnsExpected = some (cfg.value .dnsExpected) := by
  have hnone : dnsRecords ((fileText env args .dnsExpected).getD "") = [] := by
    cases hf : fileText env args .dnsExpected with
    | none => rfl
    | some t => exact hfile t hf
  rw [value_dnsExpected h, hnone]
  refine congrArg (fun of => some (Value.records of)) (funext fun host => ?_)
  rw [recordsOf_args]
  rfl

/-- Records in the file stay when the command line has records, too. -/
theorem dnsExpected_kept {cfg' : AgentConfig} {t : String} (h : loadAgentConfig env args = .ok cfg)
    (h' : loadAgentConfig (env.without (configPath env args) (Opt.name .dnsExpected)) args = .ok cfg')
    (hfile : fileText env args .dnsExpected = some t) (hsame : cfg.value .dnsExpected = cfg'.value .dnsExpected) :
    dnsRecords t = [] := by
  rw [value_dnsExpected h, value_dnsExpected h', hfile, fileText_without h .dnsExpected, Value.records.injEq] at hsame
  refine recordsFor_eq_nil.1 fun host => ?_
  exact List.append_cancel_right (congrFun hsame host)

end

/-- **Precedence.** An accepted configuration is layered exactly when the expected DNS records do not come from both
sources. -/
theorem layered_iff (env : Env) (args : List String) (cfg : AgentConfig) (h : loadAgentConfig env args = .ok cfg) :
    Layered env args cfg ↔
      ¬(InCli env args .dnsExpected ∧ ∃ t, fileText env args .dnsExpected = some t ∧ dnsRecords t ≠ []) := by
  constructor
  · rintro hlayered ⟨hcli, t, hfile, hrecords⟩
    obtain ⟨cfg', h', hsame⟩ := (hlayered .dnsExpected).1 hcli (inFile_dnsExpected_iff.2 ⟨t, hfile⟩)
    exact hrecords (dnsExpected_kept h h' hfile hsame)
  · intro hcond o
    refine ⟨fun hcli _ => ?_, fun hcli hfile => ?_, fun hcli ⟨t, hfile, hvalue⟩ => ?_⟩
    · obtain ⟨cfg', h'⟩ := load_without h hcli
      refine ⟨cfg', h', ?_⟩
      by_cases ho : o = .dnsExpected
      · subst ho
        have hnone : ∀ t, fileText env args .dnsExpected = some t → dnsRecords t = [] := fun t ht =>
          not_not.1 fun hne => hcond ⟨hcli, t, ht, hne⟩
        have hvalue := value_dnsExpected_none h hnone
        have hvalue' := value_dnsExpected_none h' fun t ht => by rw [fileText_without h] at ht; cases ht
        exact Option.some.inj (hvalue.symm.trans hvalue')
      · have hcli' : InCli (env.without (configPath env args) o.name) args o := hcli
        have hvalue := value_of_cli h ho hcli
        have hvalue' := value_of_cli h' ho hcli'
        exact Option.some.inj (hvalue.symm.trans hvalue')
    · by_cases ho : o = .dnsExpected
      · subst ho
        exact value_dnsExpected_none h fun t ht => absurd (inFile_dnsExpected_iff.2 ⟨t, ht⟩) hfile
      · exact value_of_cli h ho hcli
    · obtain ⟨v, hv⟩ := Option.isSome_iff_exists.1 hvalue
      exact ⟨t, hfile, by rw [value_of_file h hcli hfile hv]; exact hv⟩

/-- A Linux host whose config file has some lines. -/
def linuxHost (lines : List String) (parsed : List Parsed) : Env where
  defaultConfigPath := "/etc/pudim/agent.conf"
  defaultDiskBufferPath := "/var/lib/pudim/pending.db"
  files path := if path = "/etc/pudim/agent.conf" then some lines else none
  getoptLong _ := parsed

/-- A node and an interval in the file, another node and a check turned off on the command line. -/
theorem layered_node :
    let env := linuxHost ["# site", "node-id = file-node", "interval=7000"]
      [.option .nodeId "cli-node", .option .noTlsCert ""]
    let args := ["--node-id", "cli-node", "--no-tls-cert"]
    ∃ cfg, loadAgentConfig env args = .ok cfg ∧
      (cfg.nodeId, cfg.intervalMs, cfg.probeCfg.tlsCertCheck) = ("cli-node", 7000, false) ∧ Layered env args cfg := by
  intro env args
  obtain ⟨cfg, hload, hvalues⟩ : ∃ cfg, loadAgentConfig env args = .ok cfg ∧
      (cfg.nodeId, cfg.intervalMs, cfg.probeCfg.tlsCertCheck) = ("cli-node", 7000, false) := ⟨_, rfl, by decide⟩
  refine ⟨cfg, hload, hvalues, (layered_iff env args cfg hload).2 fun hboth => ?_⟩
  exact hboth.1 (by decide)

/-- Expected records of one host in both sources: the resolver may answer with the address of the file, too. -/
theorem dnsExpected_accumulates :
    let env := linuxHost ["dns-expected=example.com=A:192.0.2.1"]
      [.option .dnsExpected "example.com=A:203.0.113.7"]
    let args := ["--dns-expected", "example.com=A:203.0.113.7"]
    ∃ cfg cfg', loadAgentConfig env args = .ok cfg ∧
      loadAgentConfig (env.without (configPath env args) "dns-expected") args = .ok cfg' ∧
      cfg.probeCfg.dnsExpected = [("example.com", ["A:192.0.2.1", "A:203.0.113.7"])] ∧
      cfg'.probeCfg.dnsExpected = [("example.com", ["A:203.0.113.7"])] ∧ ¬Layered env args cfg := by
  intro env args
  obtain ⟨cfg, hload, hrecords⟩ : ∃ cfg, loadAgentConfig env args = .ok cfg ∧
      cfg.probeCfg.dnsExpected = [("example.com", ["A:192.0.2.1", "A:203.0.113.7"])] := ⟨_, rfl, by decide⟩
  obtain ⟨cfg', hload', hrecords'⟩ : ∃ cfg', loadAgentConfig (env.without (configPath env args) "dns-expected") args =
      .ok cfg' ∧ cfg'.probeCfg.dnsExpected = [("example.com", ["A:203.0.113.7"])] := ⟨_, rfl, by decide⟩
  refine ⟨cfg, cfg', hload, hload', hrecords, hrecords', fun hlayered => ?_⟩
  have hfile : fileText env args .dnsExpected = some "example.com=A:192.0.2.1" := by decide
  obtain ⟨cfg'', hload'', hsame⟩ := (hlayered .dnsExpected).1 (by decide) (inFile_dnsExpected_iff.2 ⟨_, hfile⟩)
  have hnone := dnsExpected_kept hload hload'' hfile hsame
  exact absurd hnone (by decide)

end PudimNetMon.Agent.Config
