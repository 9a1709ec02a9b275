import PudimNetMon.Agent.LoadConfig
import PudimNetMon.Lib.Getopt

/-!
# The two scans for the config file (`agent_config.cpp`)

`LoadAgentConfig` scans for `--config-file` by hand, before the loop over `getopt_long` reads the same command line. The
scan knows the option in full only, and takes it for one wherever it stands.

- `readings`: what each of the two reads, element by element;
- `readings_alike_iff`: the command lines in which they read the same everywhere;
- `scans_agree_iff`: those in which they come to the same path.
-/

namespace PudimNetMon.Agent.Config

open Getopt (Table LongOption Returned Element Place readElement returnedAt getoptFrom)

/-! ## The options of the agent -/

/-- The values of `long_options`. -/
def Opt.val : Opt → Nat
  | .collectorEndpoint => 'c'.toNat
  | .nodeId => 'n'.toNat
  | .interval => 'i'.toNat
  | .traceId => 't'.toNat
  | .version => 'v'.toNat
  | .dnsTargets => 'd'.toNat
  | .tcpTargets => 'p'.toNat
  | .tlsTargets => 's'.toNat
  | .httpTargets => 'w'.toNat
  | .pingTargets => 'g'.toNat
  | .pingCount => 'k'.toNat
  | .pingGapMs => 'u'.toNat
  | .streamMetrics => 'm'.toNat
  | .noTlsCert => 'q'.toNat
  | .noTcpRetransmit => 'r'.toNat
  | .noTcpHandshake => 'e'.toNat
  | .tcpHandshakeInterval => 1001
  | .logLevel => 1000
  | .httpProtocols => 'x'.toNat
  | .dnsExpected => 'y'.toNat
  | .diagnosticPort => 'z'.toNat
  | .diagnosticAddress => 'a'.toNat
  | .collectorEndpoints => 'b'.toNat
  | .maxBufferSize => 'f'.toNat
  | .diskBufferPath => 'j'.toNat
  | .diskBufferMaxMb => 'l'.toNat
  | .tlsCa => 'C'.toNat
  | .tlsCert => 'E'.toNat
  | .tlsKey => 'K'.toNat
  | .ntpServer => 'o'.toNat

/-- A flag has no argument. -/
def Opt.hasArg : Opt → Bool
  | .streamMetrics | .noTlsCert | .noTcpRetransmit | .noTcpHandshake => false
  | _ => true

def configFileVal : Nat := 1002

def longOptions : List LongOption :=
  Opt.all.map (fun o => { name := o.name, hasArg := o.hasArg, val := o.val }) ++
    [{ name := "config-file", hasArg := true, val := configFileVal },
      { name := "help", hasArg := false, val := 'h'.toNat }]

def agentTable (posixlyCorrect : Bool) : Table where
  optstring := "c:n:i:t:v:d:p:s:w:g:k:u:mo:qrex:y:z:a:b:f:j:l:C:E:K:h"
  longOptions := longOptions
  posixlyCorrect := posixlyCorrect

/-- What the loop makes of what `getopt_long` returns. -/
def parsedOf : Returned → Parsed
  | .opt val optarg =>
    if val = configFileVal then .configFile
    else if val = 'h'.toNat then .help
    else match Opt.all.find? fun o => o.val = val with
      | some o => .option o (optarg.getD "")
      | none => .unknown
  | .unknown => .unknown

/-- `getopt_long` for the command line of the agent. -/
def agentGetopt (posixlyCorrect : Bool) (args : List String) : List Parsed :=
  (Getopt.getoptLong (agentTable posixlyCorrect) args).map parsedOf

/-- The argument of a config file option. -/
def configArg : Returned → Option String
  | .opt val optarg => if val = configFileVal then optarg else none
  | .unknown => none

/-- The arguments of the config file options that the loop recognises. -/
def recognised (posixlyCorrect : Bool) (args : List String) : List String :=
  (Getopt.getoptLong (agentTable posixlyCorrect) args).filterMap configArg

/-- The path is the argument of the last option that is recognised, and the scan finds one exactly if there is one. -/
structure ScansAgree (env : Env) (posixlyCorrect : Bool) (args : List String) : Prop where
  none_iff : scanConfigFile none args = none ↔ recognised posixlyCorrect args = []
  path : ∀ path, (recognised posixlyCorrect args).getLast? = some path → configPath env args = path

/-! ## Element by element -/

/-- The paths that the loop over `getopt_long` and the scan read from an element. -/
structure Reading where
  loop : Option String
  scan : Option String
  deriving DecidableEq

/-- The config file option in full, with its argument in the next element. -/
def isConfigFile (arg : String) (rest : List String) : Bool := arg = "--config-file" && !rest.isEmpty

/-- The argument of the option in full, in one element. -/
def configFileValue (arg : String) : Option String :=
  if "--config-file=".toList.isPrefixOf arg.toList then
    some (String.ofList (arg.toList.drop "--config-file=".length))
  else none

/-- The path for a text; an empty one is replaced. -/
def Env.pathOr (env : Env) (text : String) : String := if text.isEmpty then env.defaultConfigPath else text

section

variable (env : Env) (t : Table)

/-- What both read from each element, the loop from a place on and the scan in front of an argument or not. -/
def readings : Place → Bool → List String → List Reading
  | _, _, [] => []
  | p, wanting, arg :: rest =>
    { loop := ((returnedAt t p arg).filterMap configArg).getLast?
      scan := (if wanting then some arg else configFileValue arg).map env.pathOr } ::
      readings (Getopt.next t p arg) (!wanting && isConfigFile arg rest) rest

end

theorem getLast?_filterMap_cons {α β : Type} (f : α → Option β) (x : α) (l : List α) :
    ((x :: l).filterMap f).getLast? = ((l.filterMap f).getLast?).or (f x) := by
  rw [List.filterMap_cons]
  cases f x with
  | none => exact Option.or_none.symm
  | some y =>
    dsimp only
    rw [List.getLast?_cons]
    cases (l.filterMap f).getLast? <;> rfl

section

variable {env : Env} {t : Table}

/-- The last path of the loop. -/
theorem getLast?_recognised (env : Env) (p : Place) (wanting : Bool) (args : List String) :
    ((getoptFrom t p args).filterMap configArg).getLast? =
      ((readings env t p wanting args).filterMap Reading.loop).getLast? := by
  induction args generalizing p wanting with
  | nil => cases p <;> rfl
  | cons arg rest ih =>
    rw [getoptFrom, readings, List.filterMap_append, List.getLast?_append, getLast?_filterMap_cons,
      ih (Getopt.next t p arg) (!wanting && isConfigFile arg rest)]

theorem configFileValue_self : configFileValue "--config-file" = none := by decide

theorem isConfigFile_iff {arg : String} {rest : List String} :
    isConfigFile arg rest = true ↔ arg = "--config-file" ∧ rest ≠ [] := by
  rw [isConfigFile, Bool.and_eq_true, decide_eq_true_eq, Bool.not_eq_true', List.isEmpty_eq_false_iff]

/-- An element in which the scan does not find the option in front of its argument. -/
theorem scanConfigFile_cons {arg : String} {rest : List String} (h : ¬ isConfigFile arg rest = true)
    (path : Option String) :
    scanConfigFile path (arg :: rest) = scanConfigFile ((configFileValue arg).or path) rest := by
  unfold configFileValue
  cases rest with
  | nil =>
    rw [scanConfigFile, scanConfigFile]
    split <;> rfl
  | cons next rest =>
    have hne : arg ≠ "--config-file" := fun heq => h (isConfigFile_iff.2 ⟨heq, List.cons_ne_nil _ _⟩)
    rw [scanConfigFile, if_neg hne]
    split <;> rfl

/-- The last path of the scan, over one from before. -/
theorem getLast?_scanned (env : Env) (t : Table) (p : Place) (wanting : Bool) (path : Option String)
    (args : List String) (h : wanting = true → args ≠ []) :
    (scanConfigFile path (if wanting then "--config-file" :: args else args)).map env.pathOr =
      (((readings env t p wanting args).filterMap Reading.scan).getLast?).or (path.map env.pathOr) := by
  induction args generalizing p wanting path with
  | nil =>
    cases wanting with
    | false => rfl
    | true => exact absurd rfl (h rfl)
  | cons arg rest ih =>
    rw [readings, getLast?_filterMap_cons, Option.or_assoc]
    cases wanting with
    | true =>
      have hrest := ih (Getopt.next t p arg) false (some arg) (fun h => absurd h Bool.false_ne_true)
      exact hrest
    | false =>
      by_cases hoption : isConfigFile arg rest = true
      · obtain ⟨rfl, hne⟩ := isConfigFile_iff.1 hoption
        have hrest := ih (Getopt.next t p "--config-file") true path fun _ => hne
        rw [hoption]
        simp only [Bool.false_eq_true, if_false, configFileValue_self, Option.map_none, Option.none_or]
        exact hrest
      · have hrest := ih (Getopt.next t p arg) false ((configFileValue arg).or path)
          (fun h => absurd h Bool.false_ne_true)
        have hvalue : ((configFileValue arg).or path).map env.pathOr =
            ((configFileValue arg).map env.pathOr).or (path.map env.pathOr) := by cases configFileValue arg <;> rfl
        rw [Bool.not_eq_true] at hoption
        rw [hvalue] at hrest
        simp only [hoption, Bool.false_eq_true, if_false]
        rw [scanConfigFile_cons (by rw [hoption]; decide)]
        exact hrest

end

/-! ## Where they come to the same path -/

/-- The last element from which either reads a path. -/
def lastRead (l : List Reading) : Option Reading := l.reverse.find? fun r => r.loop.isSome || r.scan.isSome

/-- The last path is read by both, or the other one happens to have read the same last. -/
def Settled (l : List Reading) : Prop := ∀ r ∈ lastRead l, r.loop = r.scan ∨
  (r.scan = none ∧ (l.filterMap Reading.scan).getLast? = r.loop) ∨
    (r.loop = none ∧ (l.filterMap Reading.loop).getLast? = r.scan)

instance (l : List Reading) : Decidable (Settled l) := inferInstanceAs (Decidable (∀ _ ∈ lastRead l, _))

theorem settled_iff (l : List Reading) :
    (l.filterMap Reading.loop).getLast? = (l.filterMap Reading.scan).getLast? ↔ Settled l := by
  unfold Settled lastRead
  rw [List.getLast?_filterMap, List.getLast?_filterMap]
  induction l.reverse with
  | nil => simp
  | cons r l ih =>
    obtain ⟨loop, scan⟩ := r
    cases loop with
    | none =>
      cases scan with
      | none => simpa using ih
      | some q => simp
    | some p =>
      cases scan with
      | none => simp [eq_comm]
      | some q => simp

section

variable {env : Env} {posixlyCorrect : Bool} {args : List String}

theorem configPath_eq (env : Env) (args : List String) :
    configPath env args = ((scanConfigFile none args).map env.pathOr).getD env.defaultConfigPath := by
  unfold configPath
  cases scanConfigFile none args with
  | none => rfl
  | some text => rfl

/-- Only the last reading counts in both scans. -/
theorem scansAgree_iff_last : ScansAgree env posixlyCorrect args ↔
    (recognised posixlyCorrect args).getLast? = (scanConfigFile none args).map env.pathOr := by
  have hpath := configPath_eq env args
  constructor
  · intro h
    cases hscan : scanConfigFile none args with
    | none => rw [h.none_iff.1 hscan, List.getLast?_nil, Option.map_none]
    | some text =>
      have hne : recognised posixlyCorrect args ≠ [] := fun hnil => by
        rw [h.none_iff.2 hnil] at hscan
        cases hscan
      rw [List.getLast?_eq_some_getLast hne, Option.map_some]
      rw [h.path _ (List.getLast?_eq_some_getLast hne), hscan] at hpath
      exact congrArg some hpath
  · intro h
    refine ⟨?_, fun path hlast => ?_⟩
    · rw [← List.getLast?_eq_none_iff, h, Option.map_eq_none_iff]
    · rw [hpath, ← h, hlast, Option.getD_some]

end

/-! ## Where they read the same -/

section

variable (t : Table)

/-- The scan reads a path here, or in the next element. -/
def Looks (arg : String) (rest : List String) : Prop :=
  isConfigFile arg rest = true ∨ (configFileValue arg).isSome = true

/-- The loop reads a path here, or in the next element. -/
def Names (arg : String) (rest : List String) : Prop :=
  (returnedAt t .fresh arg).filterMap configArg ≠ [] ∨
    (Getopt.next t .fresh arg = .argument configFileVal ∧ rest ≠ [])

/-- An element in which the two read the same: an option for the config file is in full and has a path, and nothing else
looks like one. -/
def PlainAt : Place → String → List String → Prop
  | .fresh, arg, rest =>
    configFileValue arg ≠ some "" ∧ (Names t arg rest → (configFileValue arg).isSome = true ∨ arg = "--config-file")
  | .argument val, arg, rest => if val = configFileVal then arg ≠ "" else ¬ Looks arg rest
  | .stopped, arg, rest => ¬ Looks arg rest

def Plain : Place → List String → Prop
  | _, [] => True
  | p, arg :: rest => PlainAt t p arg rest ∧ Plain (Getopt.next t p arg) rest

instance (arg : String) (rest : List String) : Decidable (Looks arg rest) := inferInstanceAs (Decidable (_ ∨ _))

instance (arg : String) (rest : List String) : Decidable (Names t arg rest) := inferInstanceAs (Decidable (_ ∨ _))

instance decidablePlainAt (arg : String) (rest : List String) : (p : Place) → Decidable (PlainAt t p arg rest)
  | .fresh => inferInstanceAs (Decidable (_ ∧ (_ → _)))
  | .argument val => inferInstanceAs (Decidable (if val = configFileVal then arg ≠ "" else ¬ Looks arg rest))
  | .stopped => inferInstanceAs (Decidable (¬ Looks arg rest))

instance decidablePlain : (p : Place) → (args : List String) → Decidable (Plain t p args)
  | _, [] => inferInstanceAs (Decidable True)
  | p, arg :: rest =>
    have := decidablePlain (Getopt.next t p arg) rest
    inferInstanceAs (Decidable (_ ∧ _))

end

section

variable {env : Env} {posixlyCorrect : Bool} {p : Place} {wanting : Bool} {arg text : String} {rest args : List String}

theorem readElement_configFile (posixlyCorrect : Bool) :
    readElement (agentTable posixlyCorrect) "--config-file" = .options [] (some configFileVal) := by
  cases posixlyCorrect <;> decide +kernel

theorem findLong_configFile :
    Getopt.findLong longOptions "config-file".toList =
      some { name := "config-file", hasArg := true, val := configFileVal } := by
  decide +kernel

theorem flag_chars : "--config-file=".toList = '-' :: '-' :: ("config-file".toList ++ ['=']) := by decide +kernel

theorem configFileValue_eq_some {arg text : String} (h : configFileValue arg = some text) :
    arg.toList = "--config-file=".toList ++ text.toList := by
  unfold configFileValue at h
  split at h
  · rename_i hprefix
    obtain ⟨value, hvalue⟩ := List.isPrefixOf_iff_prefix.1 hprefix
    rw [← String.length_toList, ← hvalue, List.drop_left] at h
    rw [← hvalue, ← Option.some.inj h, String.toList_ofList (l := value)]
  · cases h

theorem readElement_value (posixlyCorrect : Bool) {arg text : String} (h : configFileValue arg = some text) :
    readElement (agentTable posixlyCorrect) arg = .options [.opt configFileVal (some text)] none := by
  have hchars := configFileValue_eq_some h
  rw [flag_chars, List.cons_append, List.cons_append, List.append_assoc, List.singleton_append] at hchars
  rw [Getopt.readElement_long hchars (List.append_ne_nil_of_right_ne_nil _ (List.cons_ne_nil _ _)),
    Getopt.readLong_value (by decide +kernel) findLong_configFile, if_pos rfl, String.ofList_toList]

theorem pathOr_eq_self (h : text ≠ "") : env.pathOr text = text := by
  rw [Env.pathOr, if_neg]
  rwa [String.isEmpty_iff]

theorem returnedAt_value (posixlyCorrect : Bool) (h : configFileValue arg = some text) :
    returnedAt (agentTable posixlyCorrect) .fresh arg = [.opt configFileVal (some text)] ∧
      Getopt.next (agentTable posixlyCorrect) .fresh arg = .fresh := by
  rw [returnedAt, Getopt.next, readElement_value posixlyCorrect h]
  exact ⟨rfl, rfl⟩

theorem returnedAt_configFile (posixlyCorrect : Bool) :
    returnedAt (agentTable posixlyCorrect) .fresh "--config-file" = [] ∧
      Getopt.next (agentTable posixlyCorrect) .fresh "--config-file" = .argument configFileVal := by
  rw [returnedAt, Getopt.next, readElement_configFile posixlyCorrect]
  exact ⟨rfl, rfl⟩

theorem not_looks (h : ¬ Looks arg rest) : isConfigFile arg rest = false ∧ configFileValue arg = none := by
  rw [Looks, not_or, Bool.not_eq_true, Option.not_isSome_iff_eq_none] at h
  exact h

/-- The scan wants a path in front of the elements in which the loop wants it. -/
def Synced (p : Place) (wanting : Bool) : Prop := wanting = true ↔ p = .argument configFileVal

theorem Synced.not_wanting (h : Synced p wanting) (hp : p ≠ .argument configFileVal) : wanting = false :=
  Bool.eq_false_iff.2 (mt h.1 hp)

theorem isConfigFile_eq_false (h : arg ≠ "--config-file") : isConfigFile arg rest = false :=
  Bool.eq_false_iff.2 fun hoption => h (isConfigFile_iff.1 hoption).1

theorem alike_of_plainAt_fresh (env : Env) (h : PlainAt (agentTable posixlyCorrect) .fresh arg rest) :
    ((returnedAt (agentTable posixlyCorrect) .fresh arg).filterMap configArg).getLast? =
        (configFileValue arg).map env.pathOr ∧
      (rest ≠ [] → Synced (Getopt.next (agentTable posixlyCorrect) .fresh arg) (isConfigFile arg rest)) := by
  cases hvalue : configFileValue arg with
  | some text =>
    have hne : arg ≠ "--config-file" := fun heq => by
      rw [heq, configFileValue_self] at hvalue
      cases hvalue
    have htext : text ≠ "" := fun heq => h.1 (by rw [hvalue, heq])
    obtain ⟨hreturned, hnext⟩ := returnedAt_value posixlyCorrect hvalue
    rw [hreturned, hnext, isConfigFile_eq_false hne]
    refine ⟨?_, fun _ => ?_⟩
    · exact congrArg some (pathOr_eq_self htext).symm
    · simp [Synced]
  | none =>
    by_cases heq : arg = "--config-file"
    · obtain ⟨hreturned, hnext⟩ := returnedAt_configFile posixlyCorrect
      rw [heq, hreturned, hnext]
      refine ⟨rfl, fun hne => ?_⟩
      simp [Synced, isConfigFile, hne]
    · have hno : ¬ Names (agentTable posixlyCorrect) arg rest := fun hnames => by
        rcases h.2 hnames with hsome | hself
        · rw [hvalue] at hsome
          cases hsome
        · exact heq hself
      rw [Names, not_or, not_not, not_and, not_not] at hno
      rw [hno.1, isConfigFile_eq_false heq]
      refine ⟨rfl, fun hne => ?_⟩
      have hnext : Getopt.next (agentTable posixlyCorrect) .fresh arg ≠ .argument configFileVal :=
        fun hnext => hne (hno.2 hnext)
      simp [Synced, hnext]

/-- In a plain element both read the same, and behind it they want the same. -/
theorem alike_of_plainAt (env : Env) (hsync : Synced p wanting)
    (h : PlainAt (agentTable posixlyCorrect) p arg rest) :
    ((returnedAt (agentTable posixlyCorrect) p arg).filterMap configArg).getLast? =
        (if wanting then some arg else configFileValue arg).map env.pathOr ∧
      (rest ≠ [] → Synced (Getopt.next (agentTable posixlyCorrect) p arg) (!wanting && isConfigFile arg rest)) := by
  cases p with
  | fresh =>
    rw [hsync.not_wanting (by simp)]
    exact alike_of_plainAt_fresh env h
  | argument val =>
    by_cases hval : val = configFileVal
    · rw [PlainAt, if_pos hval] at h
      rw [hsync.2 (by rw [hval]), hval]
      refine ⟨?_, fun _ => ?_⟩
      · exact congrArg some (pathOr_eq_self h).symm
      · simp [Synced, Getopt.next]
    · rw [PlainAt, if_neg hval] at h
      obtain ⟨hoption, hvalue⟩ := not_looks h
      rw [hsync.not_wanting (by simpa using hval), hoption, hvalue]
      refine ⟨?_, fun _ => ?_⟩
      · simp [returnedAt, configArg, hval]
      · simp [Synced, Getopt.next]
  | stopped =>
    obtain ⟨hoption, hvalue⟩ := not_looks h
    rw [hsync.not_wanting (by simp), hoption, hvalue]
    refine ⟨rfl, fun _ => ?_⟩
    simp [Synced, Getopt.next]

/-- Both read the same everywhere. -/
def Alike (l : List Reading) : Prop := ∀ r ∈ l, r.loop = r.scan

theorem alike_of_plain (env : Env) (hsync : args ≠ [] → Synced p wanting)
    (h : Plain (agentTable posixlyCorrect) p args) :
    Alike (readings env (agentTable posixlyCorrect) p wanting args) := by
  induction args generalizing p wanting with
  | nil => exact List.forall_mem_nil _
  | cons arg rest ih =>
    obtain ⟨hhead, hnext⟩ := alike_of_plainAt env (hsync (List.cons_ne_nil _ _)) h.1
    exact List.forall_mem_cons.2 ⟨hhead, ih hnext h.2⟩

/-! The other way round: an element that is not plain is read differently, or the next one is. -/

theorem length_lt_of_fresh {t : Table}
    (h : ((returnedAt t .fresh arg).filterMap configArg).getLast? = some text) : text.length < arg.length := by
  obtain ⟨r, hr, harg⟩ := List.mem_filterMap.1 (List.mem_of_getLast? h)
  cases r with
  | opt val optarg =>
    rw [configArg] at harg
    split at harg
    · rw [harg] at hr
      exact Getopt.length_lt_of_returnedAt hr
    · cases harg
  | unknown => cases harg

/-- The path of the scan is not what the loop reads from the same element. -/
theorem fresh_ne_pathOr {t : Table} :
    ((returnedAt t .fresh arg).filterMap configArg).getLast? ≠ some (env.pathOr arg) := by
  intro h
  have hlt := length_lt_of_fresh h
  have hne : arg ≠ "" := fun heq => by
    rw [heq] at hlt
    exact Nat.not_lt_zero _ hlt
  rw [pathOr_eq_self hne] at hlt
  exact Nat.lt_irrefl _ hlt

/-- The path that the scan reads inside an element is not the element. -/
theorem configFileValue_ne_self (hdefault : configFileValue env.defaultConfigPath = none) :
    (configFileValue arg).map env.pathOr ≠ some arg := by
  intro h
  obtain ⟨text, hvalue, hpath⟩ := Option.map_eq_some_iff.1 h
  by_cases htext : text = ""
  · have harg : arg = env.defaultConfigPath := by
      rw [← hpath, htext]
      rfl
    rw [harg, hdefault] at hvalue
    cases hvalue
  · rw [pathOr_eq_self htext] at hpath
    have hchars := configFileValue_eq_some hvalue
    rw [hpath] at hchars
    rw [flag_chars] at hchars
    exact absurd (List.self_eq_append_left.1 hchars) (List.cons_ne_nil _ _)

/-- Both read the same inside an element. -/
theorem plainAt_of_alike_fresh (hdefault : configFileValue env.defaultConfigPath = none ∧ env.defaultConfigPath ≠ "")
    (h : Alike (readings env (agentTable posixlyCorrect) .fresh false (arg :: rest))) :
    PlainAt (agentTable posixlyCorrect) .fresh arg rest := by
  obtain ⟨hhead, htail⟩ := List.forall_mem_cons.1 h
  refine ⟨fun hempty => ?_, fun hnames => ?_⟩
  · rw [hempty, (returnedAt_value posixlyCorrect hempty).1] at hhead
    exact hdefault.2 (Option.some.inj hhead).symm
  · rw [or_iff_not_imp_left, Option.not_isSome_iff_eq_none]
    intro hvalue
    by_contra hne
    rw [isConfigFile_eq_false hne] at htail
    rw [hvalue] at hhead
    rcases hnames with hnames | ⟨hnext, hrest⟩
    · exact hnames (List.getLast?_eq_none_iff.1 hhead)
    · obtain ⟨u, rest, rfl⟩ := List.exists_cons_of_ne_nil hrest
      rw [hnext] at htail
      exact configFileValue_ne_self hdefault.1 (List.forall_mem_cons.1 htail).1.symm

/-- An element in which the loop reads no path, and does not go on to one. -/
theorem not_looks_of_alike (hloop : (returnedAt t p arg).filterMap configArg = [])
    (h : Alike (readings env t p false (arg :: rest)))
    (hnext : ∀ u, ((returnedAt t (Getopt.next t p arg) u).filterMap configArg).getLast? ≠ some (env.pathOr u)) :
    ¬ Looks arg rest := by
  obtain ⟨hhead, htail⟩ := List.forall_mem_cons.1 h
  rintro (hoption | hvalue)
  · rw [hoption] at htail
    obtain ⟨u, rest, rfl⟩ := List.exists_cons_of_ne_nil (isConfigFile_iff.1 hoption).2
    exact hnext u (List.forall_mem_cons.1 htail).1
  · obtain ⟨text, hvalue⟩ := Option.isSome_iff_exists.1 hvalue
    rw [hloop, hvalue] at hhead
    cases hhead

theorem plainAt_of_alike (hdefault : configFileValue env.defaultConfigPath = none ∧ env.defaultConfigPath ≠ "")
    (hsync : Synced p wanting) (h : Alike (readings env (agentTable posixlyCorrect) p wanting (arg :: rest))) :
    PlainAt (agentTable posixlyCorrect) p arg rest := by
  cases p with
  | fresh =>
    rw [hsync.not_wanting (by simp)] at h
    exact plainAt_of_alike_fresh hdefault h
  | argument val =>
    rw [PlainAt]
    split
    · rename_i hval
      rw [hsync.2 (by rw [hval]), hval] at h
      intro hempty
      have hpath : some arg = some (env.pathOr arg) := (List.forall_mem_cons.1 h).1
      rw [hempty] at hpath
      exact hdefault.2 (Option.some.inj hpath).symm
    · rename_i hval
      rw [hsync.not_wanting (by simpa using hval)] at h
      exact not_looks_of_alike (by simp [returnedAt, configArg, hval]) h fun _ => fresh_ne_pathOr
  | stopped =>
    rw [hsync.not_wanting (by simp)] at h
    exact not_looks_of_alike rfl h fun u => by simp [returnedAt, Getopt.next]

theorem readings_alike_iff (hdefault : configFileValue env.defaultConfigPath = none ∧ env.defaultConfigPath ≠ "")
    (hsync : args ≠ [] → Synced p wanting) :
    Alike (readings env (agentTable posixlyCorrect) p wanting args) ↔ Plain (agentTable posixlyCorrect) p args := by
  refine ⟨fun h => ?_, alike_of_plain env hsync⟩
  induction args generalizing p wanting with
  | nil => trivial
  | cons arg rest ih =>
    have hplain := plainAt_of_alike hdefault (hsync (List.cons_ne_nil _ _)) h
    have hnext := (alike_of_plainAt env (hsync (List.cons_ne_nil _ _)) hplain).2
    exact ⟨hplain, ih hnext (List.forall_mem_cons.1 h).2⟩

end

/-! ## Which command lines -/

theorem Settled.of_alike {l : List Reading} (h : Alike l) : Settled l := fun r hr =>
  .inl (h r (List.mem_reverse.1 (List.mem_of_find?_eq_some hr)))

theorem scans_agree_iff (env : Env) (posixlyCorrect : Bool) (args : List String) :
    (ScansAgree env posixlyCorrect args ↔ Settled (readings env (agentTable posixlyCorrect) .fresh false args)) ∧
      (Plain (agentTable posixlyCorrect) .fresh args → ScansAgree env posixlyCorrect args) := by
  have hiff : ScansAgree env posixlyCorrect args ↔
      Settled (readings env (agentTable posixlyCorrect) .fresh false args) := by
    have hscan := getLast?_scanned env (agentTable posixlyCorrect) .fresh false none args
      fun h => absurd h Bool.false_ne_true
    rw [Option.map_none, Option.or_none] at hscan
    rw [scansAgree_iff_last, ← settled_iff, ← getLast?_recognised, ← hscan]
    rfl
  refine ⟨hiff, fun hplain => hiff.2 (.of_alike (alike_of_plain env (fun _ => ?_) hplain))⟩
  simp [Synced]

example : Plain (agentTable false) .fresh ["-n", "web-01", "--config-file", "/tmp/a.conf", "--no-tls-cert"] := by
  decide +kernel

/-- A Linux host without a config file. -/
def bareHost : Env where
  defaultConfigPath := "/etc/pudim/agent.conf"
  defaultDiskBufferPath := "/var/lib/pudim/pending.db"
  files _ := none
  getoptLong := agentGetopt false

/-- The option can be shortened for the loop, and not for the scan. -/
theorem shortened_not_scanned :
    (∃ cfg, loadAgentConfig bareHost ["--conf", "/tmp/a.conf"] = .ok cfg ∧ cfg.configPath = "/etc/pudim/agent.conf") ∧
      recognised false ["--conf", "/tmp/a.conf"] = ["/tmp/a.conf"] ∧
      ¬ ScansAgree bareHost false ["--conf", "/tmp/a.conf"] := by
  have hrecognised : recognised false ["--conf", "/tmp/a.conf"] = ["/tmp/a.conf"] := by decide +kernel
  have hscan : scanConfigFile none ["--conf", "/tmp/a.conf"] = none := by decide +kernel
  have hreturned : bareHost.getoptLong ["--conf", "/tmp/a.conf"] = [.configFile] := by decide +kernel
  refine ⟨?_, hrecognised, fun h => ?_⟩
  · have hread : readConfig bareHost ["--conf", "/tmp/a.conf"] = some (∅, false) := by
      rw [readConfig, hscan]
      rfl
    have hpath : configPath bareHost ["--conf", "/tmp/a.conf"] = "/etc/pudim/agent.conf" := by
      rw [configPath, hscan]
      rfl
    unfold loadAgentConfig
    rw [hread, hreturned]
    exact ⟨_, rfl, hpath⟩
  · rw [h.none_iff.1 hscan] at hrecognised
    cases hrecognised

end PudimNetMon.Agent.Config
