import PudimNetMon.Installers.InstallConfig
import PudimNetMon.Lib.Pascal

/-!
# The token in the Windows setup (`installer-agent.iss`)

The setup program decodes the token of its own name and puts the collector, the node and the interval over its defaults.
A byte becomes the character of its code (`readToken_token`).
-/

namespace PudimNetMon.Installers.Setup

open Js (Numbers)
open Base64 (urlChar sextets octets)
open Utf8 (byteChar IsByte)
open FormUrl (pair hexDigit Written)

/-- `B64Val` -/
def b64Val (c : Char) : Nat :=
  if 'A' ≤ c ∧ c ≤ 'Z' then c.toNat - 65
  else if 'a' ≤ c ∧ c ≤ 'z' then c.toNat - 97 + 26
  else if '0' ≤ c ∧ c ≤ '9' then c.toNat - 48 + 52
  else if c = '-' then 62
  else if c = '_' then 63
  else 0

/-- `HexDigit` -/
def hexVal (c : Char) : Nat :=
  if '0' ≤ c ∧ c ≤ '9' then c.toNat - 48
  else if 'a' ≤ c ∧ c ≤ 'f' then c.toNat - 97 + 10
  else if 'A' ≤ c ∧ c ≤ 'F' then c.toNat - 65 + 10
  else 0

/-- The bytes of four characters; the bits of the values do not overlap. -/
def group (c1 c2 c3 c4 : Char) : List Char :=
  let v := b64Val c1 * 2 ^ 18 + b64Val c2 * 2 ^ 12
  if c3 ≠ '=' then
    let v := v + b64Val c3 * 2 ^ 6
    if c4 ≠ '=' then
      let v := v + b64Val c4
      [byteChar (v / 2 ^ 16), byteChar (v / 2 ^ 8), byteChar v]
    else [byteChar (v / 2 ^ 16), byteChar (v / 2 ^ 8)]
  else [byteChar (v / 2 ^ 16)]

/-- `Base64UrlDecode`: a missing character is `=`. -/
def base64UrlDecode : List Char → List Char
  | c1 :: c2 :: c3 :: c4 :: rest => group c1 c2 c3 c4 ++ base64UrlDecode rest
  | [c1, c2, c3] => group c1 c2 c3 '='
  | [c1, c2] => group c1 c2 '=' '='
  | [c1] => group c1 '=' '=' '='
  | [] => []

/-- `UrlDecode` -/
def urlDecode : List Char → List Char
  | '+' :: rest => ' ' :: urlDecode rest
  | '%' :: h :: l :: rest => byteChar (hexVal h * 16 + hexVal l) :: urlDecode rest
  | c :: rest => c :: urlDecode rest
  | [] => []

/-- `CollectorValue`, `NodeIdValue` and `IntervalValue` -/
structure Settings where
  collector : List Char := []
  node : List Char
  interval : List Char
  deriving DecidableEq

/-- A node that the command line of the service takes: no blank, tab or quotation mark. -/
def isNodeId (node : List Char) : Bool := node ≠ [] && node.all fun c => c ≠ ' ' && c ≠ '\t' && c ≠ '"'

/-- One round of the loop over the pairs. -/
def applyPair (settings : Settings) (pair : List Char) : Settings :=
  match cut '=' pair with
  | none => settings
  | some (key, raw) =>
    let value := urlDecode raw
    if key = "collector".toList then { settings with collector := value }
    else if key = "node".toList then if isNodeId value then { settings with node := value } else settings
    else if key = "interval".toList then
      let intervalNum := Pascal.strToIntDef value 0
      if 0 < intervalNum then { settings with interval := Pascal.intToStr intervalNum } else settings
    else settings

/-- The token of a name is applied. -/
def readToken (settings : Settings) (token : String) : Settings :=
  ((base64UrlDecode token.toList).splitOn '&').foldl applyPair settings

/-- `ApplyConfigFromSetupFileName`: the name of the program is behind the last backslash of its path. -/
def readPath (settings : Settings) (path : List Char) : Settings :=
  let name := (path.reverse.takeWhile (· ≠ '\\')).reverse
  match behind "-cfg-".toList (dropSuffix ".exe".toList name) with
  | some token => readToken settings (String.ofList token)
  | none => settings

/-! ## Base64 -/

theorem b64Val_urlChar : ∀ {n}, n < 64 → b64Val (urlChar n) = n := by decide

theorem urlChar_ne_pad : ∀ {n}, n < 64 → urlChar n ≠ '=' := by decide

theorem byteChar_congr {n m : Nat} (h : n % 256 = m % 256) : byteChar n = byteChar m := by
  unfold byteChar
  rw [h]

variable {p q r s : Nat} (hp : p < 64) (hq : q < 64) (hr : r < 64) (hs : s < 64)

include hp hq in
theorem group_two : group (urlChar p) (urlChar q) '=' '=' = octets [p, q] := by
  unfold group octets
  dsimp only
  rw [b64Val_urlChar hp, b64Val_urlChar hq, if_neg (by decide), byteChar_congr (m := p * 4 + q / 16) (by omega)]

include hp hq hr in
theorem group_three : group (urlChar p) (urlChar q) (urlChar r) '=' = octets [p, q, r] := by
  unfold group octets
  dsimp only
  rw [b64Val_urlChar hp, b64Val_urlChar hq, b64Val_urlChar hr, if_pos (urlChar_ne_pad hr), if_neg (by decide),
    byteChar_congr (n := (p * 2 ^ 18 + q * 2 ^ 12 + r * 2 ^ 6) / 2 ^ 16) (m := p * 4 + q / 16) (by omega),
    byteChar_congr (n := (p * 2 ^ 18 + q * 2 ^ 12 + r * 2 ^ 6) / 2 ^ 8) (m := q % 16 * 16 + r / 4) (by omega)]

include hp hq hr hs in
theorem group_four (rest : List Nat) :
    group (urlChar p) (urlChar q) (urlChar r) (urlChar s) ++ octets rest = octets (p :: q :: r :: s :: rest) := by
  rw [octets]
  unfold group
  dsimp only
  rw [b64Val_urlChar hp, b64Val_urlChar hq, b64Val_urlChar hr, b64Val_urlChar hs, if_pos (urlChar_ne_pad hr),
    if_pos (urlChar_ne_pad hs),
    byteChar_congr (n := (p * 2 ^ 18 + q * 2 ^ 12 + r * 2 ^ 6 + s) / 2 ^ 16) (m := p * 4 + q / 16) (by omega),
    byteChar_congr (n := (p * 2 ^ 18 + q * 2 ^ 12 + r * 2 ^ 6 + s) / 2 ^ 8) (m := q % 16 * 16 + r / 4) (by omega),
    byteChar_congr (n := p * 2 ^ 18 + q * 2 ^ 12 + r * 2 ^ 6 + s) (m := r % 4 * 64 + s) (by omega)]
  rfl

/-- The bytes of a token. -/
theorem base64UrlDecode_sextets {bytes : List Char} (h : ∀ c ∈ bytes, IsByte c) :
    base64UrlDecode ((sextets bytes).map urlChar) = octets (sextets bytes) := by
  induction bytes using Base64.sextets.induct with
  | case1 a b c rest ih =>
    simp only [List.forall_mem_cons, IsByte] at h
    rw [sextets]
    simp only [List.map_cons, base64UrlDecode]
    rw [ih h.2.2.2, group_four (by omega) (by omega) (by omega) (by omega)]
  | case2 a b =>
    simp only [List.forall_mem_cons, IsByte] at h
    rw [sextets]
    simp only [List.map_cons, List.map_nil, base64UrlDecode]
    exact group_three (by omega) (by omega) (by omega)
  | case3 a =>
    simp only [List.forall_mem_cons, IsByte] at h
    rw [sextets]
    simp only [List.map_cons, List.map_nil, base64UrlDecode]
    exact group_two (by omega) (by omega)
  | case4 => rfl

/-! ## Values -/

theorem hexVal_hexDigit : ∀ {n}, n < 16 → hexVal (hexDigit n) = n := by decide

/-- A byte is read back from each of the ways in which it is written. -/
theorem urlDecode_written {b : Char} {text : List Char} (hb : IsByte b) (h : Written b text) (rest : List Char) :
    urlDecode (text ++ rest) = b :: urlDecode rest := by
  cases h with
  | plain h =>
    rw [List.singleton_append, urlDecode]
    · rintro rfl
      exact absurd h (by decide)
    · rintro _ _ _ rfl -
      exact absurd h (by decide)
  | blank h =>
    subst h
    rfl
  | escaped x y hx hy hxy =>
    show urlDecode ('%' :: hexDigit x :: hexDigit y :: rest) = _
    rw [urlDecode, hexVal_hexDigit hx, hexVal_hexDigit hy, hxy, Utf8.byteChar_toNat hb]

/-- A value is read as the characters of its bytes. -/
theorem urlDecode_encode (s : List Char) : urlDecode (FormUrl.encode s) = Utf8.encode s := by
  have hread := @FormUrl.read_encode urlDecode (fun b => [b]) rfl
    (fun b text hb htext rest => urlDecode_written hb htext rest) s
  rw [hread, List.flatMap_singleton']

/-! ## Tokens -/

theorem applyPair_pair (settings : Settings) {name : List Char} (hname : FormUrl.encode name = name)
    (value : List Char) : applyPair settings (pair (name, value)) =
      if name = "collector".toList then { settings with collector := Utf8.encode value }
      else if name = "node".toList then
        if isNodeId (Utf8.encode value) then { settings with node := Utf8.encode value } else settings
      else if name = "interval".toList then
        if 0 < Pascal.strToIntDef (Utf8.encode value) 0 then
          { settings with interval := Pascal.intToStr (Pascal.strToIntDef (Utf8.encode value) 0) }
        else settings
      else settings := by
  unfold applyPair
  rw [FormUrl.cut_pair]
  dsimp only
  rw [hname, urlDecode_encode]

/-- The node over the default. -/
def nodeOver (default node : List Char) : List Char :=
  if isNodeId (Utf8.encode node) then Utf8.encode node else default

/-- The interval over the default. -/
def intervalOver (default interval : List Char) : List Char :=
  if 0 < Pascal.strToIntDef (Utf8.encode interval) 0 then
    Pascal.intToStr (Pascal.strToIntDef (Utf8.encode interval) 0)
  else default

theorem applyPair_collector (settings : Settings) (value : List Char) :
    applyPair settings (pair ("collector".toList, value)) = { settings with collector := Utf8.encode value } := by
  rw [applyPair_pair settings (by decide), if_pos rfl]

theorem applyPair_node (settings : Settings) (value : List Char) :
    applyPair settings (pair ("node".toList, value)) = { settings with node := nodeOver settings.node value } := by
  rw [applyPair_pair settings (by decide), if_neg (by decide), if_pos rfl]
  unfold nodeOver
  split <;> rfl

theorem applyPair_interval (settings : Settings) (value : List Char) :
    applyPair settings (pair ("interval".toList, value)) =
      { settings with interval := intervalOver settings.interval value } := by
  rw [applyPair_pair settings (by decide), if_neg (by decide), if_neg (by decide), if_pos rfl]
  unfold intervalOver
  split <;> rfl

/-- **What the setup program reads of a token.** -/
theorem readToken_token (settings : Settings) (numbers : Numbers) (config : InstallConfig) :
    readToken settings (encodeInstallConfig numbers config) =
      { collector := Utf8.encode config.collector.toList
        node := (config.sent.node.map fun node => nodeOver settings.node node.toList).getD settings.node
        interval := (config.sent.interval.map fun d =>
          intervalOver settings.interval (numbers.toText d).toList).getD settings.interval } := by
  have hbytes := isByte_serialize (configParams numbers config)
  unfold readToken
  rw [toList_token, base64UrlDecode_sextets hbytes, Base64.octets_sextets hbytes,
    FormUrl.splitOn_serialize (configParams_ne_nil numbers config), configParams_eq, List.map_cons, List.foldl_cons,
    applyPair_collector, List.map_append, List.foldl_append]
  cases config.sent.node <;> cases config.sent.interval <;>
    simp only [Option.map_none, Option.map_some, Option.toList_none, Option.toList_some, Option.getD_none,
      Option.getD_some, List.map_nil, List.map_cons, List.foldl_nil, List.foldl_cons, applyPair_node,
      applyPair_interval]

/-- The token is found behind a stem without the marker. -/
theorem readPath_decorated (settings : Settings) {stem token : List Char}
    (hstem : behind "-cfg-".toList (stem ++ "-cfg".toList) = none)
    (hname : '\\' ∉ stem ++ ("-cfg-".toList ++ token) ++ ".exe".toList) (dir : List Char) :
    readPath settings (dir ++ '\\' :: (stem ++ ("-cfg-".toList ++ token) ++ ".exe".toList)) =
      readToken settings (String.ofList token) := by
  have hcut : ((dir ++ '\\' :: (stem ++ ("-cfg-".toList ++ token) ++ ".exe".toList)).reverse.takeWhile
      (· ≠ '\\')).reverse = stem ++ ("-cfg-".toList ++ token) ++ ".exe".toList := by
    generalize stem ++ ("-cfg-".toList ++ token) ++ ".exe".toList = name at hname ⊢
    rw [List.reverse_append, List.reverse_cons, List.append_assoc, List.singleton_append,
      List.takeWhile_append_of_pos, List.takeWhile_cons_of_neg (by decide), List.append_nil, List.reverse_reverse]
    intro c hc
    simpa using fun he : c = '\\' => hname (he ▸ List.mem_reverse.1 hc)
  unfold readPath
  dsimp only
  rw [hcut, dropSuffix_append, behind_append (by decide) hstem]

end PudimNetMon.Installers.Setup
