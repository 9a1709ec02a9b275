import PudimNetMon.Agent.Layering

/-!
# Integers that are not read (`agent_config.cpp`)

An entry of the file whose integer cannot be read keeps the option's default; on the command line `std::stoi` throws
through `LoadAgentConfig` (`integers_iff`).
-/

namespace PudimNetMon.Agent.Config

/-- An option whose argument `std::stoi` reads. -/
def Opt.isInteger : Opt → Bool
  | .interval | .pingCount | .pingGapMs | .tcpHandshakeInterval | .maxBufferSize | .diskBufferMaxMb => true
  | _ => false

/-- The variables that a command line leaves over a file. -/
def settingsOver (env : Env) (file : OptionMap) (parsed : List Parsed) : LoadResult Settings :=
  (cliLayer (fileLayer file env) ∅ parsed).bind fun p => .ok p.1

/-- A text does the same as an entry of the file and as an argument in front of the rest of the command line. -/
def ReadAlike (env : Env) (o : Opt) (text : String) : Prop :=
  ∀ file rest, settingsOver env (file.insert o.name text) rest = settingsOver env file (.option o text :: rest)

/-- What the loop over the command line comes to. -/
def reached (parsed : List Parsed) : List Parsed := parsed.takeWhile fun p => p ≠ .help && p ≠ .unknown

/-- `LoadAgentConfig` gets to the command line. -/
def FileAccepted (env : Env) (args : List String) : Prop :=
  ∃ file cfgLoaded, readConfig env args = some (file, cfgLoaded) ∧ file.keys.all isKnown = true

/-! ## One option -/

section

variable {s s' : Settings} {o : Opt} {text : String}

theorem applyOption_eq_none_iff : applyOption s text o = none ↔ o.isInteger = true ∧ stoi text = none := by
  cases o <;> simp [applyOption, Opt.isInteger]

/-- An integer that is read replaces the entry of the file. -/
theorem applyOption_fileLayer (env : Env) (file : OptionMap) (ho : o.isInteger = true)
    (hs : (stoi text).isSome = true) :
    applyOption (fileLayer file env) text o = some (fileLayer (file.insert o.name text) env) := by
  obtain ⟨n, hn⟩ := Option.isSome_iff_exists.1 hs
  cases o with
  | interval | pingCount | pingGapMs | tcpHandshakeInterval | maxBufferSize | diskBufferMaxMb =>
    simp [applyOption, Opt.name, fileLayer, getS, getI, getB, hn]
  | _ => cases ho

end

/-! ## The command line -/

section

variable {s : Settings} {options : OptionMap} {parsed : List Parsed}

/-- The variables do not depend on the options that are recorded. -/
theorem cliLayer_settings (s : Settings) (options options' : OptionMap) (parsed : List Parsed) :
    (cliLayer s options parsed).bind (fun p => .ok p.1) = (cliLayer s options' parsed).bind fun p => .ok p.1 := by
  induction parsed generalizing s options options' with
  | nil => rfl
  | cons p rest ih =>
    cases p with
    | option o text =>
      rw [cliLayer, cliLayer]
      cases applyOption s text o with
      | none => rfl
      | some s' => exact ih s' _ _
    | configFile => exact ih s _ _
    | help => rfl
    | unknown => rfl

theorem cliLayer_threw_iff : cliLayer s options parsed = .threw ↔
    ∃ o text, .option o text ∈ reached parsed ∧ o.isInteger = true ∧ stoi text = none := by
  induction parsed generalizing s options with
  | nil => simp [cliLayer, reached]
  | cons p rest ih =>
    cases p with
    | option o text =>
      have hreached : reached (.option o text :: rest) = .option o text :: reached rest := rfl
      rw [cliLayer, hreached]
      cases happly : applyOption s text o with
      | none =>
        obtain ⟨ho, hs⟩ := applyOption_eq_none_iff.1 happly
        exact iff_of_true rfl ⟨o, text, List.mem_cons_self, ho, hs⟩
      | some s' =>
        have hread : ¬ (o.isInteger = true ∧ stoi text = none) := by
          rw [← @applyOption_eq_none_iff s, happly]
          simp
        dsimp only
        rw [ih]
        constructor
        · rintro ⟨o', text', hmem, hbad⟩
          exact ⟨o', text', List.mem_cons_of_mem _ hmem, hbad⟩
        · rintro ⟨o', text', hmem, hbad⟩
          rcases List.mem_cons.1 hmem with heq | hmem
          · cases heq
            exact absurd hbad hread
          · exact ⟨o', text', hmem, hbad⟩
    | configFile =>
      have hreached : reached (.configFile :: rest) = .configFile :: reached rest := rfl
      rw [cliLayer, ih, hreached]
      simp
    | help => simp [cliLayer, reached]
    | unknown => simp [cliLayer, reached]

theorem readAlike_iff (env : Env) {o : Opt} {text : String} (ho : o.isInteger = true) :
    ReadAlike env o text ↔ (stoi text).isSome = true := by
  constructor
  · intro h
    by_contra hnone
    rw [Option.not_isSome_iff_eq_none] at hnone
    have hempty := h ∅ []
    have hthrown : applyOption (fileLayer ∅ env) text o = none := applyOption_eq_none_iff.2 ⟨ho, hnone⟩
    rw [settingsOver, settingsOver, cliLayer, cliLayer, hthrown] at hempty
    cases hempty
  · intro hs file rest
    rw [settingsOver, settingsOver, cliLayer, applyOption_fileLayer env file ho hs]
    exact cliLayer_settings _ _ _ rest

end

/-! ## The configuration -/

/-- Only the loop over the command line throws. -/
theorem loadAgentConfig_threw_iff (env : Env) (args : List String) : loadAgentConfig env args = .threw ↔
    FileAccepted env args ∧
      ∃ o text, .option o text ∈ reached (env.getoptLong args) ∧ o.isInteger = true ∧ stoi text = none := by
  have haccepted : FileAccepted env args ↔
      ∃ r, readConfig env args = some r ∧ r.1.keys.all isKnown = true :=
    ⟨fun ⟨file, cfgLoaded, h⟩ => ⟨(file, cfgLoaded), h⟩, fun ⟨r, h⟩ => ⟨r.1, r.2, h⟩⟩
  rw [haccepted]
  unfold loadAgentConfig
  cases hread : readConfig env args with
  | none => simp
  | some r =>
    obtain ⟨file, cfgLoaded⟩ := r
    dsimp only
    cases hknown : file.keys.all isKnown with
    | false =>
      constructor
      · rintro ⟨⟩
      · rintro ⟨⟨r, heq, hall⟩, -⟩
        cases heq
        exact absurd hall (by rw [hknown]; decide)
    | true =>
      rw [← @cliLayer_threw_iff (fileLayer file env) ∅]
      have hfile : ∃ r, some (file, cfgLoaded) = some r ∧ r.1.keys.all isKnown = true := ⟨_, rfl, hknown⟩
      rw [and_iff_right hfile, if_neg (by decide)]
      cases cliLayer (fileLayer file env) ∅ (env.getoptLong args) with
      | ok p =>
        simp only [LoadResult.bind]
        split <;> simp
      | _ => simp [LoadResult.bind]

/-- **An integer is treated alike from both sources exactly where it can be read**, and the configuration is loaded
without an exception exactly where the command line reaches no other one behind a file that is accepted. -/
theorem integers_iff (env : Env) (args : List String) :
    (loadAgentConfig env args ≠ .threw ↔ (FileAccepted env args → ∀ o text,
        .option o text ∈ reached (env.getoptLong args) → o.isInteger = true → (stoi text).isSome = true)) ∧
      ∀ o text, o.isInteger = true → (ReadAlike env o text ↔ (stoi text).isSome = true) := by
  refine ⟨?_, fun o text ho => readAlike_iff env ho⟩
  rw [ne_eq, loadAgentConfig_threw_iff]
  constructor
  · intro h haccepted o text hmem ho
    by_contra hnone
    exact h ⟨haccepted, o, text, hmem, ho, Option.not_isSome_iff_eq_none.1 hnone⟩
  · rintro h ⟨haccepted, o, text, hmem, ho, hnone⟩
    have hread := h haccepted o text hmem ho
    rw [hnone] at hread
    cases hread

/-- A platform with a config file of one line, or none; `getopt_long` on `--interval fast` and on no options. -/
def fastEnv (lines : Option (List String)) : Env where
  defaultConfigPath := "agent.conf"
  defaultDiskBufferPath := "pending.db"
  files path := if path = "agent.conf" then lines else none
  getoptLong args := if args = ["--interval", "fast"] then [.option .interval "fast"] else []

/-- An interval `fast` is an exception on the command line, in the file it is the default of 5000. -/
theorem fast_interval_throws : loadAgentConfig (fastEnv none) ["--interval", "fast"] = .threw ∧
    (∃ cfg, loadAgentConfig (fastEnv (some ["interval = fast"])) [] = .ok cfg ∧ cfg.intervalMs = 5000) ∧
    ¬ ReadAlike (fastEnv none) .interval "fast" := by
  refine ⟨?_, ?_, ?_⟩
  · rw [loadAgentConfig_threw_iff]
    exact ⟨⟨∅, false, rfl, rfl⟩, .interval, "fast", List.mem_cons_self, rfl, by decide⟩
  · exact ⟨_, rfl, rfl⟩
  · rw [readAlike_iff _ rfl]
    decide

end PudimNetMon.Agent.Config
