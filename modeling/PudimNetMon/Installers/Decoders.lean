import PudimNetMon.Installers.RunWrapper
import PudimNetMon.Installers.SetupProgram

/-!
# The three decoders of a token

The dashboard, the Linux wrapper and the Windows setup read the settings of one token. The wrapper reads what the
dashboard reads (`WrapperAgrees`); the setup does too, but keeps its default where the node cannot stand in the
service's command line and where the interval is no positive integer of 32 bits (`SetupAgrees`).
-/

namespace PudimNetMon.Installers

open Js (Numbers)

/-- What the wrapper reads, in bytes, against the settings of the token. -/
structure WrapperAgrees (numbers : Numbers) (config : InstallConfig) (settings : Wrapper.Settings) : Prop where
  collector : (∀ c ∈ config.collector.toList, Wrapper.isKept c = true) →
    settings.collector = Utf8.encode config.collector.toList
  node : ∀ node, config.node = some node → (∀ c ∈ node.toList, Wrapper.isKept c = true) →
    settings.node = Utf8.encode node.toList
  noNode : config.node = none → settings.node = []
  interval : ∀ d, config.interval = some d → numbers.ofText (String.ofList settings.interval) = d
  noInterval : config.interval = none → settings.interval = []

/-- What the setup reads over its defaults, against the settings of the token. -/
structure SetupAgrees (defaults : Setup.Settings) (config : InstallConfig) (settings : Setup.Settings) : Prop where
  collector : (∀ c ∈ config.collector.toList, c.toNat < 128) → settings.collector = config.collector.toList
  node : ∀ node, config.node = some node → (∀ c ∈ node.toList, c.toNat < 128) →
    settings.node = if Setup.isNodeId node.toList then node.toList else defaults.node
  noNode : config.node = none → settings.node = defaults.node
  interval : ∀ n : Int, 0 < n → n < 2 ^ 31 → config.interval = some (.ofInt n) → settings.interval = Pascal.intToStr n
  noInterval : (∀ n : Int, 0 < n → n < 2 ^ 31 → config.interval ≠ some (.ofInt n)) →
    settings.interval = defaults.interval

/-! ## Numerals -/

theorem numeral_cases {c : Char} (h : Js.isNumeral c = true) :
    c.toNat < 128 ∧ Wrapper.isKept c = true ∧ Pascal.isSimple c = true := by
  simp only [Js.isNumeral, Bool.or_eq_true, decide_eq_true_eq] at h
  rcases h with h | h
  · have hdigit : 48 ≤ c.toNat ∧ c.toNat ≤ 57 := by
      simp only [Char.isDigit, Bool.and_eq_true, decide_eq_true_eq] at h
      exact h
    have hne : ∀ d : Char, d.toNat < 48 ∨ 57 < d.toNat → c ≠ d := by
      rintro d hd rfl
      omega
    refine ⟨by omega, ?_, ?_⟩
    · simp [Wrapper.isKept, hne '\n' (by decide), hne '\x00' (by decide)]
    · simp [Pascal.isSimple, hne '\x00' (by decide), hne ' ' (by decide), hne '$' (by decide), hne 'x' (by decide),
        hne 'X' (by decide)]
  · simp only [List.mem_cons, List.not_mem_nil, or_false] at h
    rcases h with rfl | rfl | rfl | rfl | rfl | rfl | rfl | rfl | rfl | rfl | rfl | rfl <;> decide

variable {numbers : Numbers}

theorem encode_toText (hlaw : numbers.RoundTrip) (d : Double) :
    Utf8.encode (numbers.toText d).toList = (numbers.toText d).toList :=
  Utf8.encode_ascii fun c hc => (numeral_cases (hlaw.toText_numeral d c hc)).1

theorem kept_toText (hlaw : numbers.RoundTrip) (d : Double) :
    Wrapper.kept (numbers.toText d).toList = (numbers.toText d).toList := by
  rw [Wrapper.kept_eq fun c hc => (numeral_cases (hlaw.toText_numeral d c hc)).2.1, encode_toText hlaw]

/-- The text of a number is read as the positive integer that it is. -/
theorem strToIntDef_toText (hlaw : numbers.RoundTrip) (d : Double) {n : Int} (hpos : 0 < n) :
    Pascal.strToIntDef (numbers.toText d).toList 0 = n ↔
      n < 2 ^ 31 ∧ Decimal.integer? (numbers.toText d).toList = some n := by
  obtain ⟨c, cs, hcs, hplus⟩ := hlaw.toText_cons d
  have hsimple : ∀ e ∈ c :: cs, Pascal.isSimple e = true := fun e he =>
    (numeral_cases (hlaw.toText_numeral d e (hcs ▸ he))).2.2
  rw [hcs]
  exact Pascal.strToIntDef_pos_iff hsimple hplus hpos

/-! ## The wrapper -/

theorem wrapperAgrees (hlaw : numbers.RoundTrip) {base64d : List Char → List Char}
    (hbase64d : Wrapper.DecodesBase64 base64d) (config : InstallConfig) :
    WrapperAgrees numbers config.sent (Wrapper.readToken base64d (encodeInstallConfig numbers config)) := by
  rw [Wrapper.readToken_token hbase64d numbers config]
  refine ⟨fun h => Wrapper.kept_eq h, ?_, ?_, ?_, ?_⟩
  · intro node hnode h
    dsimp only
    rw [hnode, Option.getD_some, Wrapper.kept_eq h]
  · intro hnode
    dsimp only
    rw [hnode]
    rfl
  · intro d hd
    dsimp only
    rw [hd, Option.map_some, Option.getD_some, kept_toText hlaw, String.ofList_toList,
      hlaw.ofText_toText d (falsy_of_sent hd)]
  · intro hinterval
    dsimp only
    rw [hinterval]
    rfl

/-! ## The setup program -/

theorem intervalOver_of_int (hlaw : numbers.RoundTrip) (default : List Char) {n : Int} (hpos : 0 < n)
    (hlt : n < 2 ^ 31) : Setup.intervalOver default (numbers.toText (.ofInt n)).toList = Pascal.intToStr n := by
  have hsafe : Js.Safe n := by
    unfold Js.Safe
    omega
  have hread : Pascal.strToIntDef (numbers.toText (.ofInt n)).toList 0 = n := by
    rw [strToIntDef_toText hlaw _ hpos, hlaw.toText_int n hsafe]
    exact ⟨hlt, Decimal.integer?_toString n⟩
  unfold Setup.intervalOver
  rw [encode_toText hlaw, hread, if_pos hpos]

theorem intervalOver_of_not_int (hlaw : numbers.RoundTrip) (default : List Char) {d : Double}
    (hd : Js.falsy d = false) (h : ∀ n : Int, 0 < n → n < 2 ^ 31 → d ≠ .ofInt n) :
    Setup.intervalOver default (numbers.toText d).toList = default := by
  unfold Setup.intervalOver
  rw [encode_toText hlaw, if_neg]
  intro hpos
  obtain ⟨hlt, hread⟩ := (strToIntDef_toText hlaw d hpos).1 rfl
  have hback := hlaw.ofText_integer _ _ hread (by omega) (by unfold Js.Safe; omega)
  rw [hlaw.ofText_toText d hd] at hback
  exact h _ hpos hlt hback

theorem setupAgrees (hlaw : numbers.RoundTrip) (defaults : Setup.Settings) (config : InstallConfig) :
    SetupAgrees defaults config.sent (Setup.readToken defaults (encodeInstallConfig numbers config)) := by
  rw [Setup.readToken_token defaults numbers config]
  refine ⟨fun h => Utf8.encode_ascii h, ?_, ?_, ?_, ?_⟩
  · intro node hnode h
    dsimp only
    rw [hnode, Option.map_some, Option.getD_some, Setup.nodeOver, Utf8.encode_ascii h]
  · intro hnode
    dsimp only
    rw [hnode]
    rfl
  · intro n hpos hlt hinterval
    dsimp only
    rw [hinterval, Option.map_some, Option.getD_some, intervalOver_of_int hlaw defaults.interval hpos hlt]
  · intro h
    dsimp only
    cases hinterval : config.sent.interval with
    | none => rfl
    | some d =>
      rw [Option.map_some, Option.getD_some]
      apply intervalOver_of_not_int hlaw defaults.interval (falsy_of_sent hinterval)
      rintro n hpos hlt rfl
      exact h n hpos hlt hinterval

/-- **The decoders read the same of a token**, within what the wrapper and the setup can hold. -/
theorem decoders_agree (hlaw : numbers.RoundTrip) {base64d : List Char → List Char}
    (hbase64d : Wrapper.DecodesBase64 base64d) (defaults : Setup.Settings) (config : InstallConfig)
    (hcollector : config.collector ≠ "") :
    decodeInstallConfig numbers (encodeInstallConfig numbers config) = some config.sent ∧
      WrapperAgrees numbers config.sent (Wrapper.readToken base64d (encodeInstallConfig numbers config)) ∧
      SetupAgrees defaults config.sent (Setup.readToken defaults (encodeInstallConfig numbers config)) :=
  ⟨decode_token hlaw config hcollector, wrapperAgrees hlaw hbase64d config, setupAgrees hlaw defaults config⟩

/-- `base64 -d` for text that is base64. -/
def base64d (s : List Char) : List Char := (Base64.atob s).getD []

theorem decodesBase64_base64d : Wrapper.DecodesBase64 base64d := by
  intro bytes h
  rw [base64d, Base64.atob_btoa h, Option.getD_some]

theorem decoders_agree_web01 :
    decodeInstallConfig .exact (encodeInstallConfig .exact
        { collector := "collector.lan:50051", node := some "web-01", interval := some (.ofInt 5000) }) =
      some (InstallConfig.sent
        { collector := "collector.lan:50051", node := some "web-01", interval := some (.ofInt 5000) }) ∧
    WrapperAgrees .exact (InstallConfig.sent
        { collector := "collector.lan:50051", node := some "web-01", interval := some (.ofInt 5000) })
      (Wrapper.readToken base64d (encodeInstallConfig .exact
        { collector := "collector.lan:50051", node := some "web-01", interval := some (.ofInt 5000) })) ∧
    SetupAgrees { node := "HOST".toList, interval := "30000".toList } (InstallConfig.sent
        { collector := "collector.lan:50051", node := some "web-01", interval := some (.ofInt 5000) })
      (Setup.readToken { node := "HOST".toList, interval := "30000".toList } (encodeInstallConfig .exact
        { collector := "collector.lan:50051", node := some "web-01", interval := some (.ofInt 5000) })) :=
  decoders_agree Numbers.exact_roundTrip decodesBase64_base64d _ _ (by decide)

/-! ## Tokens in file names -/

section

variable {d : InstallerDist} {platform : String} {a : InstallerArtifact} (hfind : d.find platform = some a)
  (hstem : behind "-cfg-".toList (InstallerDist.stem a ++ "-cfg".toList) = none) {config : InstallConfig}
  (hlength : (encodeInstallConfig numbers config).length ≤ 256)

include hfind hstem hlength

/-- The wrapper finds the token in the name under which the collector serves it. -/
theorem wrapper_readName (hextension : a.extension = ".run") (base64d : List Char → List Char) :
    Wrapper.readName base64d (d.downloadName platform (encodeInstallConfig numbers config)).toList =
      Wrapper.readToken base64d (encodeInstallConfig numbers config) := by
  have hvalid := (validConfigToken_token numbers config).2 hlength
  rw [InstallerDist.toList_downloadName hfind hvalid, hextension, Wrapper.readName_decorated base64d hstem,
    String.ofList_toList]

/-- The setup program finds it in its path. -/
theorem setup_readPath (hextension : a.extension = ".exe") (hbackslash : '\\' ∉ InstallerDist.stem a)
    (defaults : Setup.Settings) (dir : List Char) :
    Setup.readPath defaults
        (dir ++ '\\' :: (d.downloadName platform (encodeInstallConfig numbers config)).toList) =
      Setup.readToken defaults (encodeInstallConfig numbers config) := by
  have hvalid := (validConfigToken_token numbers config).2 hlength
  have htoken : '\\' ∉ (encodeInstallConfig numbers config).toList := by
    intro hmem
    obtain ⟨ns, -, hlt, hchars⟩ := token_chars numbers config
    rw [hchars] at hmem
    obtain ⟨n, hn, heq⟩ := List.mem_map.1 hmem
    have hne : ∀ n < 64, Base64.urlChar n ≠ '\\' := by decide
    exact hne n (hlt n hn) heq
  have hname : '\\' ∉ InstallerDist.stem a ++ ("-cfg-".toList ++ (encodeInstallConfig numbers config).toList) ++
      ".exe".toList := by
    simp only [List.mem_append, not_or]
    exact ⟨⟨hbackslash, by decide, htoken⟩, by decide⟩
  rw [InstallerDist.toList_downloadName hfind hvalid, hextension, Setup.readPath_decorated defaults hstem hname,
    String.ofList_toList]

end

/-! ## Where they differ -/

/-- All three have the collector, and the node and the interval where the token has them. -/
structure SameSettings (numbers : Numbers) (config : InstallConfig) (wrapper : Wrapper.Settings)
    (setup : Setup.Settings) : Prop where
  collector : wrapper.collector = Utf8.encode config.collector.toList ∧ setup.collector = config.collector.toList
  node : ∀ node, config.node = some node → wrapper.node = Utf8.encode node.toList ∧ setup.node = node.toList
  interval : ∀ d, config.interval = some d → numbers.ofText (String.ofList wrapper.interval) = d ∧
    numbers.ofText (String.ofList setup.interval) = d

/-- A node with a blank reaches the agent on Linux, on Windows the default stays. -/
theorem blank_node_differs : ¬∀ config : InstallConfig, config.collector ≠ "" →
    (encodeInstallConfig .exact config).length ≤ 256 → ∃ config',
      decodeInstallConfig .exact (encodeInstallConfig .exact config) = some config' ∧
        SameSettings .exact config' (Wrapper.readToken base64d (encodeInstallConfig .exact config))
          (Setup.readToken { node := "HOST".toList, interval := "30000".toList }
            (encodeInstallConfig .exact config)) := by
  intro h
  obtain ⟨config', hdecode, hsame⟩ := h { collector := "c", node := some "web 01" } (by decide) (by decide)
  rw [decode_token Numbers.exact_roundTrip _ (by decide)] at hdecode
  have hnode := (hsame.node "web 01" (by rw [← Option.some.inj hdecode]; rfl)).2
  rw [Setup.readToken_token] at hnode
  exact absurd hnode (by decide)

end PudimNetMon.Installers
