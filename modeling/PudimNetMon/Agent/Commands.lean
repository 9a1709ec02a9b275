import PudimNetMon.Lib.Double
import PudimNetMon.Lib.Shell

/-!
# Shell lines of the agent (`commands.cpp`, `diagnostic_service.cpp`)

The lines the POSIX builds of `RunPingBurst`, `RunRouteQuality`, `RunSpeedtest` and `RunDiagnostic` hand to `popen`.

- `shellSafe_iff`: a requester's value keeps the structure of its line exactly when the shell takes each of its
  characters for itself.
-/

namespace PudimNetMon.Agent

open Shell

/-! ## The lines -/

/-- The directory handed to tools as `$HOME`: the first usable one, if any. -/
inductive ToolHome
  | missing
  | stateDir
  | tempDir
  deriving DecidableEq, Repr

def ToolHome.dir : ToolHome → String
  | .missing => ""
  | .stateDir => "/var/lib/pudim/tool-home"
  | .tempDir => "/tmp/pudim-tool-home"

def toolHomePrefix (home : ToolHome) : String :=
  if home.dir.isEmpty then ""
  else "HOME='" ++ home.dir ++ "' XDG_CONFIG_HOME='" ++ (home.dir ++ "/.config") ++ "' "

/-- The line of `RunFixed`. -/
def runFixed (home : ToolHome) (cmd : String) : String := "( " ++ (toolHomePrefix home ++ cmd) ++ " ) 2>&1"

/-- The line of `RunBounded`. -/
def runBounded (home : ToolHome) (cmd : String) (timeoutS : Int) : String :=
  runFixed home ("timeout " ++ toString timeoutS ++ " " ++ cmd)

/-- The line of `RunShellCmd`. -/
def runShellCmd (cmd : String) : String := cmd ++ " 2>&1"

/-- `GetParam`: an empty parameter counts as not given. -/
def getParam (value deflt : String) : String := if value.isEmpty then deflt else value

/-- Drops zeros from the front, but not the last character. -/
def dropZeros : List Char → List Char
  | '0' :: c :: cs => dropZeros (c :: cs)
  | cs => cs

/-- `Fmt`: two decimals without trailing zeros. -/
def fmt (v : Double) : String :=
  match dropZeros (v.toFixed 2).toList.reverse with
  | '.' :: cs => String.ofList cs.reverse
  | cs => String.ofList cs.reverse

/-- The line of `RunPingBurst`, with the numbers `ParseIntParam` made of the other parameters. -/
def runPingBurst (home : ToolHome) (target : String) (count intervalMs : Nat) : String :=
  let target := getParam target "1.1.1.1"
  let estS := count * intervalMs / 1000
  let intervalS := fmt (.ofRatio intervalMs 1000)
  let cmd := "ping -c " ++ toString count ++ " -i " ++ intervalS ++ " " ++ target
  runBounded home cmd (estS + 60)

/-- The path of a tool on the agent. It is no requester's text and a plain word. -/
structure Tool where
  path : String
  plain : IsPlain path.toList

/-- The line of `RunRouteQuality`; without mtr it is a traceroute. -/
def runRouteQuality (home : ToolHome) (mtr : Option Tool) (target : String) (packets : Nat) : String :=
  let target := getParam target "1.1.1.1"
  match mtr with
  | some mtr => runBounded home (mtr.path ++ " -r -c " ++ toString packets ++ " -n " ++ target) 420
  | none => runBounded home ("traceroute -n -m 15 -w 1 " ++ target) 120

/-- One line of `RunSpeedtest` in the flags of Ookla's client or of `speedtest-cli`. -/
def speedtestLine (home : ToolHome) (tool : Tool) (ookla : Bool) (serverId : String) : String :=
  let base := if ookla then tool.path ++ " --format=json --accept-license --accept-gdpr" else tool.path ++ " --json"
  let server :=
    if serverId.isEmpty then "" else if ookla then " --server-id=" ++ serverId else " --server " ++ serverId
  runBounded home (base ++ server) 420

/-- The lines of `RunSpeedtest`; when the tool rejects the flags they are spelt the other way. -/
def runSpeedtest (home : ToolHome) (tool : Tool) (ookla rejected : Bool) (serverId : String) : List String :=
  speedtestLine home tool ookla serverId :: if rejected then [speedtestLine home tool (!ookla) serverId] else []

def captureFile (pid nowMs : Int) : String :=
  "/tmp" ++ "/pudim_diag_" ++ toString pid ++ "_" ++ toString nowMs ++ ".pcap"

def traceLine (target : String) : String := runShellCmd ("traceroute -n -m 15 -w 1 " ++ target)

def captureLine (durationS pid nowMs : Int) (pcapFilter : String) : String :=
  let filter := if pcapFilter.isEmpty then "" else pcapFilter ++ " "
  runShellCmd ("timeout " ++ toString durationS ++ " tcpdump -i any -nn -c 500 " ++ filter ++ "-w " ++
    captureFile pid nowMs)

/-- The lines that read a capture back. -/
def summaryLines (pid nowMs : Int) : List String :=
  [runShellCmd ("tcpdump -r " ++ captureFile pid nowMs ++ " -nn -c 15 2>&1"),
    runShellCmd ("tcpdump -r " ++ captureFile pid nowMs ++ " -nn 2>/dev/null | wc -l")]

/-- The lines of `RunDiagnostic`. -/
def runDiagnostic (traceTarget : String) (pcapDurationS : Int) (pcapFilter : String) (pid nowMs : Int) :
    List String :=
  (if traceTarget.isEmpty then [] else [traceLine traceTarget]) ++
  if 0 < pcapDurationS then captureLine pcapDurationS pid nowMs pcapFilter :: summaryLines pid nowMs else []

/-! ## Where a value stands -/

/-- A line with a requester's value in it. -/
inductive Site
  | pingBurst (home : ToolHome) (count intervalMs : Nat)
  | routeQuality (home : ToolHome) (mtr : Option Tool) (packets : Nat)
  | speedtest (home : ToolHome) (tool : Tool) (ookla : Bool)
  | traceTarget
  | pcapFilter (durationS pid nowMs : Int)

def Site.line : Site → String → String
  | .pingBurst home count intervalMs, v => runPingBurst home v count intervalMs
  | .routeQuality home mtr packets, v => runRouteQuality home mtr v packets
  | .speedtest home tool ookla, v => speedtestLine home tool ookla v
  | .traceTarget, v => traceLine v
  | .pcapFilter durationS pid nowMs, v => captureLine durationS pid nowMs v

/-- The lines of a speed test are those of two places. -/
theorem mem_runSpeedtest {home : ToolHome} {tool : Tool} {ookla rejected : Bool} {serverId line : String}
    (h : line ∈ runSpeedtest home tool ookla rejected serverId) :
    ∃ flags, line = (Site.speedtest home tool flags).line serverId := by
  rcases List.mem_cons.1 h with rfl | h
  · exact ⟨ookla, rfl⟩
  · split at h
    · rw [List.mem_singleton.1 h]
      exact ⟨!ookla, rfl⟩
    · cases h

/-- The lines of a diagnostic are those of two places, and lines without a requester's text. -/
theorem mem_runDiagnostic {traceTarget pcapFilter line : String} {durationS pid nowMs : Int}
    (h : line ∈ runDiagnostic traceTarget durationS pcapFilter pid nowMs) :
    line = Site.traceTarget.line traceTarget ∨ line = (Site.pcapFilter durationS pid nowMs).line pcapFilter ∨
      line ∈ summaryLines pid nowMs := by
  rcases List.mem_append.1 h with h | h
  · split at h
    · cases h
    · exact .inl (List.mem_singleton.1 h)
  · split at h
    · rcases List.mem_cons.1 h with h | h
      · exact .inr (.inl h)
      · exact .inr (.inr h)
    · cases h

/-- What the source puts directly in front of the value. -/
def Site.affix : Site → String
  | .speedtest _ _ true => "--server-id="
  | _ => ""

/-- The text of the line in front of the value's word. -/
def Site.before : Site → String
  | .pingBurst home count intervalMs =>
    "( " ++ toolHomePrefix home ++ ("timeout " ++ toString (count * intervalMs / 1000 + 60 : Int) ++ " ") ++
      ("ping -c " ++ (toString count ++ " ") ++ "-i " ++ (fmt (.ofRatio intervalMs 1000) ++ " "))
  | .routeQuality home (some mtr) packets =>
    "( " ++ toolHomePrefix home ++ ("timeout " ++ toString (420 : Int) ++ " ") ++
      (mtr.path ++ " " ++ "-r -c " ++ (toString packets ++ " ") ++ "-n ")
  | .routeQuality home none _ =>
    "( " ++ toolHomePrefix home ++ ("timeout " ++ toString (120 : Int) ++ " ") ++ "traceroute -n -m 15 -w 1 "
  | .speedtest home tool true =>
    "( " ++ toolHomePrefix home ++ ("timeout " ++ toString (420 : Int) ++ " ") ++
      (tool.path ++ " " ++ "--format=json --accept-license --accept-gdpr ")
  | .speedtest home tool false =>
    "( " ++ toolHomePrefix home ++ ("timeout " ++ toString (420 : Int) ++ " ") ++
      (tool.path ++ " " ++ "--json --server ")
  | .traceTarget => "traceroute -n -m 15 -w 1 "
  | .pcapFilter durationS _ _ => "timeout " ++ toString durationS ++ " " ++ "tcpdump -i any -nn -c 500 "

/-- The text behind the word and its blank. -/
def Site.after : Site → String
  | .pcapFilter _ pid nowMs => "-w " ++ captureFile pid nowMs ++ " 2>&1"
  | .traceTarget => "2>&1"
  | _ => ") 2>&1"

theorem Site.line_eq (s : Site) {v : String} (hv : v.isEmpty = false) :
    s.line v = s.before ++ (s.affix ++ v ++ (" " ++ s.after)) := by
  rw [← String.toList_inj]
  cases s with
  | pingBurst home count intervalMs =>
    simp [Site.line, Site.before, Site.affix, Site.after, runPingBurst, getParam, hv, runBounded, runFixed]
  | routeQuality home mtr packets =>
    cases mtr <;>
      simp [Site.line, Site.before, Site.affix, Site.after, runRouteQuality, getParam, hv, runBounded, runFixed]
  | speedtest home tool ookla =>
    cases ookla <;> simp [Site.line, Site.before, Site.affix, Site.after, speedtestLine, hv, runBounded, runFixed]
  | traceTarget => simp [Site.line, Site.before, Site.affix, Site.after, traceLine, runShellCmd]
  | pcapFilter durationS pid nowMs =>
    simp [Site.line, Site.before, Site.affix, Site.after, captureLine, hv, runShellCmd]

/-! ## What surrounds a value -/

theorem dropZeros_subset (cs : List Char) : dropZeros cs ⊆ cs := by
  fun_induction dropZeros cs with
  | case1 c cs ih => exact List.subset_cons_of_subset _ ih
  | case2 cs => exact List.Subset.refl _

theorem isNameChar_literal {s : String} (h : s.toList.all isNameChar = true) : ∀ c ∈ s.toList, isNameChar c = true :=
  fun _ hc => List.all_eq_true.1 h _ hc

theorem isNameChar_append {s t : String} (hs : ∀ c ∈ s.toList, isNameChar c = true)
    (ht : ∀ c ∈ t.toList, isNameChar c = true) : ∀ c ∈ (s ++ t).toList, isNameChar c = true := by
  intro c hc
  rw [String.toList_append] at hc
  rcases List.mem_append.1 hc with hc | hc
  · exact hs c hc
  · exact ht c hc

theorem isNameChar_toFixed (p : Nat) (v : Double) : ∀ c ∈ (v.toFixed p).toList, isNameChar c = true := by
  have hsign : ∀ c ∈ (if v.neg then "-" else "").toList, isNameChar c = true := by
    split <;> exact isNameChar_literal (by decide)
  have hzeros : ∀ n, ∀ c ∈ (String.ofList (List.replicate n '0')).toList, isNameChar c = true := by
    intro n c hc
    rw [String.toList_ofList] at hc
    rw [List.eq_of_mem_replicate hc]
    decide
  unfold Double.toFixed
  dsimp only
  split
  · exact isNameChar_append hsign (isNameChar_literal (by decide))
  split
  · exact isNameChar_append hsign (isNameChar_literal (by decide))
  · exact isNameChar_append (isNameChar_append (isNameChar_append hsign (isNameChar_nat _))
      (isNameChar_literal (by decide))) (isNameChar_append (hzeros _) (isNameChar_nat _))

theorem isNameChar_fmt (v : Double) : ∀ c ∈ (fmt v).toList, isNameChar c = true := by
  have hsub : ∀ c ∈ dropZeros (v.toFixed 2).toList.reverse, isNameChar c = true := fun c hc =>
    isNameChar_toFixed 2 v c (List.mem_reverse.1 (dropZeros_subset _ hc))
  intro c hc
  unfold fmt at hc
  split at hc
  · rename_i cs hcs
    rw [String.toList_ofList, List.mem_reverse] at hc
    exact hsub c (hcs ▸ List.mem_cons_of_mem _ hc)
  · rw [String.toList_ofList, List.mem_reverse] at hc
    exact hsub c hc

theorem between_string_append {s t : String} (hs : Between s.toList) (ht : Between t.toList) :
    Between (s ++ t).toList := by
  rw [String.toList_append]
  exact hs.append ht

/-- The characters of a literal are scanned once. -/
theorem between_chars {s : String} {l : List Char} (hs : s = String.ofList l) (h : (scan { } l).mode = .blank) :
    Between s.toList := by
  rw [hs, String.toList_ofList]
  exact between_of_scan h

theorem between_string_name {s : String} (h : ∀ c ∈ s.toList, isNameChar c = true) : Between (s ++ " ").toList := by
  rw [String.toList_append]
  exact between_name h

theorem Tool.between (tool : Tool) : Between (tool.path ++ " ").toList := by
  rw [String.toList_append]
  exact between_plain tool.plain

theorem between_toolHomePrefix (home : ToolHome) : Between (toolHomePrefix home).toList := by
  cases home <;> exact between_of_scan (by decide +kernel)

theorem between_timeout (n : Int) : Between ("timeout " ++ toString n ++ " ").toList := by
  rw [String.append_assoc]
  exact between_string_append (between_chars rfl (by decide)) (between_string_name (isNameChar_int n))

/-- In front of a value the line stands between two words. -/
theorem Site.before_between (s : Site) : Between s.before.toList := by
  have hbounded : ∀ (home : ToolHome) (n : Int) {cmd : String}, Between cmd.toList →
      Between ("( " ++ toolHomePrefix home ++ ("timeout " ++ toString n ++ " ") ++ cmd).toList := by
    intro home n cmd hcmd
    have hopen : Between "( ".toList := between_chars rfl (by decide)
    exact between_string_append (between_string_append (between_string_append hopen (between_toolHomePrefix home))
      (between_timeout n)) hcmd
  cases s with
  | pingBurst home count intervalMs =>
    have hping : Between "ping -c ".toList := between_chars rfl (by decide)
    have hinterval : Between "-i ".toList := between_chars rfl (by decide)
    exact hbounded home _ (between_string_append (between_string_append (between_string_append hping
      (between_string_name (isNameChar_nat count))) hinterval) (between_string_name (isNameChar_fmt _)))
  | routeQuality home mtr packets =>
    cases mtr with
    | some mtr =>
      have hcount : Between "-r -c ".toList := between_chars rfl (by decide)
      have hnumeric : Between "-n ".toList := between_chars rfl (by decide)
      exact hbounded home _ (between_string_append (between_string_append (between_string_append mtr.between hcount)
        (between_string_name (isNameChar_nat packets))) hnumeric)
    | none => exact hbounded home _ (between_chars rfl (by decide +kernel))
  | speedtest home tool ookla =>
    cases ookla with
    | true => exact hbounded home _ (between_string_append tool.between (between_chars rfl (by decide +kernel)))
    | false => exact hbounded home _ (between_string_append tool.between (between_chars rfl (by decide +kernel)))
  | traceTarget => exact between_chars rfl (by decide +kernel)
  | pcapFilter durationS pid nowMs =>
    exact between_string_append (between_timeout durationS) (between_chars rfl (by decide +kernel))

/-- Behind a value the line has tokens. -/
theorem Site.after_tokens (s : Site) : (tokens s.after.toList).isSome = true := by
  cases s with
  | pcapFilter durationS pid nowMs =>
    have hfile : ∀ c ∈ (captureFile pid nowMs).toList, isNameChar c = true := by
      unfold captureFile
      exact isNameChar_append (isNameChar_append (isNameChar_append (isNameChar_append (isNameChar_literal (by decide))
        (isNameChar_int pid)) (isNameChar_literal (by decide))) (isNameChar_int nowMs)) (isNameChar_literal (by decide))
    have hmerge : Between "-w ".toList := between_of_scan (by decide)
    have hsplit : (Site.pcapFilter durationS pid nowMs).after.toList =
        ("-w " ++ (captureFile pid nowMs ++ " ")).toList ++ "2>&1".toList := by
      simp [Site.after]
    rw [hsplit]
    exact tokens_between (between_string_append hmerge (between_string_name hfile)) (by decide)
  | _ => simp only [Site.after]; decide

theorem Site.affix_plain (s : Site) :
    (∀ c ∈ s.affix.toList, isOrdinary c = true) ∧ s.affix.toList.head? ≠ some '#' := by
  have hall : s.affix.toList.all isOrdinary = true ∧ s.affix.toList.head? ≠ some '#' := by
    cases s with
    | speedtest home tool ookla => cases ookla <;> simp only [Site.affix] <;> decide
    | _ => simp only [Site.affix]; decide
  exact ⟨List.all_eq_true.1 hall.1, hall.2⟩

def Site.place (s : Site) : Place where
  pre := s.before.toList
  affix := s.affix.toList
  post := s.after.toList
  pre_blank := s.before_between []
  affix_ok := s.affix_plain
  post_ok := s.after_tokens

/-! ## Requesters' values -/

/-- A value that is given keeps the structure of its line: the shell takes it for one word of its own, and the rest of
the line is as it is with letters and digits in its place. -/
def ShellSafe (s : Site) (v : String) : Prop :=
  v.isEmpty = false → KeepsStructure (fun w => (s.line (String.ofList w)).toList) s.affix.toList v.toList

theorem Site.line_place (s : Site) {w : List Char} (hw : w ≠ []) :
    (s.line (String.ofList w)).toList = s.place.line w := by
  have hne : (String.ofList w).isEmpty = false := by
    rw [Bool.eq_false_iff]
    simpa using hw
  rw [s.line_eq hne]
  simp [Place.line, Site.place]

/-- **Requesters' values.** A value that is given keeps the structure of its line exactly when it has no blank, no
operator or quoting character, `$`, backquote or NUL, and does not begin a comment. -/
theorem shellSafe_iff (s : Site) (v : String) :
    ShellSafe s v ↔ v.isEmpty = true ∨
      (∀ c ∈ v.toList, isOrdinary c = true) ∧ (s.affix ++ v).toList.head? ≠ some '#' := by
  by_cases hv : v.isEmpty = true
  · exact iff_of_true (fun h => by rw [hv] at h; cases h) (.inl hv)
  have hne : v.toList ≠ [] := by simpa using hv
  have hcongr : KeepsStructure (fun w => (s.line (String.ofList w)).toList) s.affix.toList v.toList ↔
      KeepsStructure s.place.line s.affix.toList v.toList := by
    have hline : ∀ w, w = v.toList ∨ (w ≠ [] ∧ ∀ c ∈ w, c.isAlphanum = true) →
        (s.line (String.ofList w)).toList = s.place.line w := by
      rintro w (rfl | ⟨hw, -⟩)
      · exact s.line_place hne
      · exact s.line_place hw
    constructor
    · rintro ⟨before, after, h⟩
      exact ⟨before, after, fun w hw => (congrArg tokens (hline w hw)).symm.trans (h w hw)⟩
    · rintro ⟨before, after, h⟩
      exact ⟨before, after, fun w hw => (congrArg tokens (hline w hw)).trans (h w hw)⟩
  rw [ShellSafe, String.toList_append]
  simp only [hv, Bool.false_eq_true, false_or, forall_const, hcongr]
  exact keepsStructure_iff s.place hne

/-- A trace target with a semicolon: the shell runs `id` as a command of its own. -/
theorem trace_target_runs_second_command :
    tokens (traceLine "1.1.1.1;id").toList =
        some ((["traceroute", "-n", "-m", "15", "-w", "1", "1.1.1.1"].map fun w => .word (plainWord w.toList)) ++
          [.op [';'], .word (plainWord "id".toList), .ioNumber (plainWord ['2']), .op ['>', '&'],
            .word (plainWord ['1'])]) ∧
      ¬ ShellSafe .traceTarget "1.1.1.1;id" := by
  have htokens : tokens (traceLine "1.1.1.1;id").toList =
      some ((["traceroute", "-n", "-m", "15", "-w", "1", "1.1.1.1"].map fun w => .word (plainWord w.toList)) ++
        [.op [';'], .word (plainWord "id".toList), .ioNumber (plainWord ['2']), .op ['>', '&'],
          .word (plainWord ['1'])]) := by decide +kernel
  refine ⟨htokens, fun h => ?_⟩
  obtain ⟨before, after, hkeeps⟩ := h (by decide)
  have hline : tokens (traceLine "1.1.1.1;id").toList =
      some (before ++ .word (plainWord "1.1.1.1;id".toList) :: after) := hkeeps "1.1.1.1;id".toList (.inl rfl)
  have hword : Token.word (plainWord "1.1.1.1;id".toList) ∈ before ++ .word (plainWord "1.1.1.1;id".toList) :: after :=
    by simp
  rw [← Option.some.inj (htokens.symm.trans hline)] at hword
  exact absurd hword (by decide +kernel)

end PudimNetMon.Agent
