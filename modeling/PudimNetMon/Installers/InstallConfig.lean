import PudimNetMon.Installers.InstallerDist
import PudimNetMon.Lib.Base64
import PudimNetMon.Lib.FormUrl
import PudimNetMon.Lib.JsText

/-!
# Installer tokens (`installConfig.ts`)

The dashboard writes an agent's settings as a query string and this as base64url without padding; the token goes into
the name of the installer that is downloaded. What the dashboard encodes it decodes again, without the settings that it
omits, and the collector accepts the token up to its length (`token_round_trip`).
-/

namespace PudimNetMon.Installers

open Js (Numbers)
open Base64 (sextets urlChar)

/-- The settings of an installer that is downloaded. -/
structure InstallConfig where
  collector : String
  node : Option String := none
  interval : Option Double := none
  deriving DecidableEq

def encodeBase64Url (input : List Char) : List Char :=
  Base64.stripPad ((Base64.btoa (Utf8.encode input)).map Base64.toUrl)

/-- A byte order mark in front is dropped by `TextDecoder`. -/
def dropMark : List Char → List Char
  | [] => []
  | c :: cs => if c.toNat = 0xfeff then cs else c :: cs

/-- `none` where `atob` throws. -/
def decodeBase64Url (input : List Char) : Option (List Char) :=
  (Base64.atob (Base64.pad (input.map Base64.ofUrl))).map fun bin => dropMark (Utf8.decode bin)

section

variable (numbers : Numbers)

/-- The parameters that `encodeInstallConfig` sets; a value that is false in a condition is omitted. -/
def configParams (config : InstallConfig) : List (List Char × List Char) :=
  ("collector".toList, config.collector.toList) ::
    ((match config.node with
      | some node => if node ≠ "" then [("node".toList, node.toList)] else []
      | none => []) ++
    match config.interval with
    | some d => if !Js.falsy d then [("interval".toList, (numbers.toText d).toList)] else []
    | none => [])

def encodeInstallConfig (config : InstallConfig) : String :=
  String.ofList (encodeBase64Url (FormUrl.serialize (configParams numbers config)))

/-- `params.get`: the first value of a name. -/
def getParam (params : List (List Char × List Char)) (name : String) : Option String :=
  (params.lookup name.toList).map String.ofList

def decodeInstallConfig (token : String) : Option InstallConfig := do
  let params := FormUrl.parse (← decodeBase64Url token.toList)
  let collector := (getParam params "collector").getD ""
  if collector = "" then none
  else
    some {
      collector
      node := getParam params "node"
      interval := match getParam params "interval" with
        | some raw => if raw ≠ "" then some (numbers.ofText raw) else none
        | none => none }

end

/-- The settings without those that the token omits. -/
def InstallConfig.sent (config : InstallConfig) : InstallConfig :=
  { config with
    node := config.node.filter fun node => node ≠ ""
    interval := config.interval.filter fun d => !Js.falsy d }

/-! ## The layers of a token -/

/-- What is in the token. -/
theorem encodeBase64Url_ascii {input : List Char} (h : ∀ c ∈ input, c.toNat < 128) :
    encodeBase64Url input = (sextets input).map urlChar := by
  unfold encodeBase64Url
  rw [Utf8.encode_ascii h]
  exact Base64.stripPad_toUrl fun c hc => Nat.lt_trans (h c hc) (by decide)

theorem decodeBase64Url_encodeBase64Url {c : Char} {cs : List Char} (h : ∀ d ∈ c :: cs, d.toNat < 128) :
    decodeBase64Url (encodeBase64Url (c :: cs)) = some (c :: cs) := by
  have hbytes : ∀ d ∈ c :: cs, Utf8.IsByte d := fun d hd => Nat.lt_trans (h d hd) (by decide)
  have htext : Utf8.decode (c :: cs) = c :: cs := by
    conv_lhs => rw [← Utf8.encode_ascii h, Utf8.decode_encode]
  have hmark : c.toNat ≠ 0xfeff := by
    have hlt := h c List.mem_cons_self
    omega
  unfold decodeBase64Url
  rw [encodeBase64Url_ascii h, Base64.pad_ofUrl hbytes, Base64.atob_btoa hbytes, Option.map_some, htext, dropMark,
    if_neg hmark]

theorem serialize_configParams_cons (numbers : Numbers) (config : InstallConfig) :
    ∃ cs, FormUrl.serialize (configParams numbers config) = 'c' :: cs := by
  have hpair : ∃ cs, FormUrl.pair ("collector".toList, config.collector.toList) = 'c' :: cs := ⟨_, rfl⟩
  obtain ⟨cs, hcs⟩ := hpair
  unfold FormUrl.serialize configParams
  rw [List.map_cons, hcs]
  cases (List.map FormUrl.pair _) with
  | nil => exact ⟨cs, List.intercalate_singleton⟩
  | cons part parts => exact ⟨_, by rw [List.intercalate_cons_cons, List.append_assoc, List.cons_append]⟩

/-- The query string is read back from the token. -/
theorem decodeBase64Url_token (numbers : Numbers) (config : InstallConfig) :
    decodeBase64Url (encodeInstallConfig numbers config).toList =
      some (FormUrl.serialize (configParams numbers config)) := by
  obtain ⟨cs, hcs⟩ := serialize_configParams_cons numbers config
  have hascii : ∀ c ∈ FormUrl.serialize (configParams numbers config), c.toNat < 128 := FormUrl.ascii_serialize
  unfold encodeInstallConfig
  rw [String.toList_ofList]
  rw [hcs] at hascii ⊢
  exact decodeBase64Url_encodeBase64Url hascii

/-! ## The parameters -/

theorem configParams_ne_nil (numbers : Numbers) (config : InstallConfig) : configParams numbers config ≠ [] :=
  List.cons_ne_nil _ _

/-- What is set is the settings that are sent. -/
theorem configParams_eq (numbers : Numbers) (config : InstallConfig) : configParams numbers config =
    ("collector".toList, config.collector.toList) ::
      ((config.sent.node.map fun node => ("node".toList, node.toList)).toList ++
        (config.sent.interval.map fun d => ("interval".toList, (numbers.toText d).toList)).toList) := by
  obtain ⟨collector, node, interval⟩ := config
  unfold configParams InstallConfig.sent
  dsimp only
  congr 2
  · cases node with
    | none => rfl
    | some node => by_cases h : node = "" <;> simp [Option.filter, h]
  · cases interval with
    | none => rfl
    | some d => cases h : Js.falsy d <;> simp [Option.filter, h]

theorem getParam_collector (numbers : Numbers) (config : InstallConfig) :
    getParam (configParams numbers config) "collector" = some config.collector := by
  unfold getParam configParams
  rw [List.lookup_cons_self, Option.map_some, String.ofList_toList]

theorem getParam_node (numbers : Numbers) (config : InstallConfig) :
    getParam (configParams numbers config) "node" = config.sent.node := by
  have hcollector : ("node".toList == "collector".toList) = false := by decide
  rw [configParams_eq, getParam, List.lookup_cons, hcollector]
  cases config.sent.node <;> cases config.sent.interval <;> simp [List.lookup_cons]

theorem getParam_interval (numbers : Numbers) (config : InstallConfig) :
    getParam (configParams numbers config) "interval" = config.sent.interval.map numbers.toText := by
  have hcollector : ("interval".toList == "collector".toList) = false := by decide
  rw [configParams_eq, getParam, List.lookup_cons, hcollector]
  cases config.sent.node <;> cases config.sent.interval <;> simp [List.lookup_cons]

/-! ## The round trip -/

theorem falsy_of_sent {config : InstallConfig} {d : Double} (h : config.sent.interval = some d) :
    Js.falsy d = false := by
  have hfilter := (Option.filter_eq_some_iff.1 h).2
  simpa using hfilter

theorem toText_ne_empty {numbers : Numbers} (hlaw : numbers.RoundTrip) (d : Double) : numbers.toText d ≠ "" := by
  intro h
  obtain ⟨c, cs, hcs, -⟩ := hlaw.toText_cons d
  rw [h] at hcs
  cases hcs

theorem decode_token {numbers : Numbers} (hlaw : numbers.RoundTrip) (config : InstallConfig)
    (hcollector : config.collector ≠ "") :
    decodeInstallConfig numbers (encodeInstallConfig numbers config) = some config.sent := by
  unfold decodeInstallConfig
  rw [decodeBase64Url_token]
  dsimp only [Option.bind_eq_bind, Option.bind_some]
  rw [FormUrl.parse_serialize, getParam_collector, getParam_node, getParam_interval, Option.getD_some,
    if_neg hcollector]
  cases hinterval : config.sent.interval with
  | none =>
    rw [Option.map_none]
    exact congrArg some (by rw [← hinterval]; rfl)
  | some d =>
    rw [Option.map_some]
    dsimp only
    rw [if_pos (toText_ne_empty hlaw d), hlaw.ofText_toText d (falsy_of_sent hinterval), ← hinterval]
    rfl

theorem toList_token (numbers : Numbers) (config : InstallConfig) : (encodeInstallConfig numbers config).toList =
    (sextets (FormUrl.serialize (configParams numbers config))).map urlChar := by
  unfold encodeInstallConfig
  rw [String.toList_ofList, encodeBase64Url_ascii FormUrl.ascii_serialize]

theorem isByte_serialize (params : List (List Char × List Char)) : ∀ c ∈ FormUrl.serialize params, Utf8.IsByte c :=
  fun c hc => Nat.lt_trans (FormUrl.ascii_serialize c hc) (by decide)

/-- The characters of a token. -/
theorem token_chars (numbers : Numbers) (config : InstallConfig) :
    ∃ ns : List Nat, ns ≠ [] ∧ (∀ n ∈ ns, n < 64) ∧ (encodeInstallConfig numbers config).toList = ns.map urlChar := by
  refine ⟨sextets (FormUrl.serialize (configParams numbers config)), ?_, ?_, toList_token numbers config⟩
  · obtain ⟨cs, hcs⟩ := serialize_configParams_cons numbers config
    rw [hcs]
    exact Base64.sextets_ne_nil 'c' cs
  · exact Base64.sextets_lt (isByte_serialize (configParams numbers config))

theorem validConfigToken_token (numbers : Numbers) (config : InstallConfig) :
    validConfigToken (encodeInstallConfig numbers config) = true ↔
      (encodeInstallConfig numbers config).length ≤ 256 := by
  obtain ⟨ns, hne, hlt, htoken⟩ := token_chars numbers config
  have hurl : ∀ n < 64, (urlChar n).toNat < 128 ∧
      ((urlChar n).isAlphanum || urlChar n = '-' || urlChar n = '_') = true := by decide
  have hall : ∀ c ∈ ns.map urlChar, c.toNat < 128 ∧ (c.isAlphanum || c = '-' || c = '_') = true := by
    intro c hc
    obtain ⟨n, hn, rfl⟩ := List.mem_map.1 hc
    exact hurl n (hlt n hn)
  generalize encodeInstallConfig numbers config = token at htoken
  rw [← String.ofList_toList (s := token), htoken]
  have hsize := Utf8.utf8ByteSize_ascii fun c hc => (hall c hc).1
  unfold validConfigToken
  dsimp only
  rw [hsize, String.toList_ofList, String.length_ofList, List.all_eq_true.2 fun c hc => (hall c hc).2, List.length_map]
  simp [hne]

/-- **What is encoded is decoded**, without the node if it is empty and the interval if it is zero or NaN, **and the
collector accepts the token exactly up to 256 characters.** -/
theorem token_round_trip {numbers : Numbers} (hlaw : numbers.RoundTrip) (config : InstallConfig)
    (hcollector : config.collector ≠ "") :
    decodeInstallConfig numbers (encodeInstallConfig numbers config) = some config.sent ∧
      (validConfigToken (encodeInstallConfig numbers config) = true ↔
        (encodeInstallConfig numbers config).length ≤ 256) :=
  ⟨decode_token hlaw config hcollector, validConfigToken_token numbers config⟩

/-- A node beyond ASCII and an interval, in a token that the collector accepts. -/
theorem token_round_trip_accepted :
    decodeInstallConfig .exact (encodeInstallConfig .exact
        { collector := "collector.lan:50051", node := some "büro 1", interval := some (.ofInt 30000) }) =
      some (InstallConfig.sent
        { collector := "collector.lan:50051", node := some "büro 1", interval := some (.ofInt 30000) }) ∧
    (validConfigToken (encodeInstallConfig .exact
        { collector := "collector.lan:50051", node := some "büro 1", interval := some (.ofInt 30000) }) = true ↔
      (encodeInstallConfig .exact { collector := "collector.lan:50051", node := some "büro 1"
                                    interval := some (.ofInt 30000) }).length ≤ 256) :=
  token_round_trip Numbers.exact_roundTrip _ (by decide)

/-- An interval that is not a number is neither zero nor missing, and does not come back. -/
theorem nan_interval_omitted : ¬∀ config : InstallConfig, config.collector ≠ "" →
    decodeInstallConfig .exact (encodeInstallConfig .exact config) = some { config with
        node := config.node.filter fun node => node ≠ ""
        interval := config.interval.filter fun d => d.mag ≠ 0 } ∧
      (validConfigToken (encodeInstallConfig .exact config) = true ↔
        (encodeInstallConfig .exact config).length ≤ 256) := by
  intro h
  have hback := (h { collector := "c", interval := some ⟨BitVec.ofNat 64 (Double.infMag + 1)⟩ } (by decide)).1
  rw [decode_token Numbers.exact_roundTrip _ (by decide)] at hback
  exact absurd (congrArg (Option.map InstallConfig.interval) hback) (by decide)

end PudimNetMon.Installers
