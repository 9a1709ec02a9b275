import Mathlib.Data.List.TakeWhile
import PudimNetMon.Installers.InstallConfig

/-!
# The token in the Linux wrapper (`build-linux-release.sh`)

The `.run` file is a shell script in front of its payload; it decodes the token of its own name. Text is bytes here, as
in the shell. The wrapper reads the collector, the node and the interval of a token without their newlines and NULs,
which `$(printf …)` drops (`readToken_token`).
-/

namespace PudimNetMon.Installers.Wrapper

open Js (Numbers)
open Utf8 (byteChar IsByte)
open FormUrl (pair hexDigit hexValue Written plusToBlank)

/-- The value of `$(…)`: without NULs, and without newlines at the end. -/
def captured (output : List Char) : List Char :=
  ((output.filter fun b => b ≠ '\x00').reverse.dropWhile (· = '\n')).reverse

/-- `printf "\x${hex}"`; what is not hexadecimal stays as it is. -/
def printfHex : List Char → List Char
  | [h, l] =>
    match hexValue h, hexValue l with
    | some x, some y => [byteChar (x * 16 + y)]
    | some x, none => [byteChar x, l]
    | none, _ => ['\\', 'x', h, l]
  | [h] =>
    match hexValue h with
    | some x => [byteChar x]
    | none => ['\\', 'x', h]
  | hex => '\\' :: 'x' :: hex

/-- The loop of `url_decode`. -/
def unescape : List Char → List Char
  | '%' :: h :: l :: rest => captured (printfHex [h, l]) ++ unescape rest
  | '%' :: hex => captured (printfHex hex)
  | b :: rest => b :: unescape rest
  | [] => []

/-- `url_decode` -/
def urlDecode (enc : List Char) : List Char := unescape (enc.map plusToBlank)

/-- `COLLECTOR`, `NODE` and `INTERVAL` -/
structure Settings where
  collector : List Char := []
  node : List Char := []
  interval : List Char := []
  deriving DecidableEq

/-- One round of the loop over `PAIRS`. -/
def applyPair (settings : Settings) (pair : List Char) : Settings :=
  let key := pair.takeWhile (· ≠ '=')
  -- `${PAIR#*=}` is all of a pair without `=`
  let val := match cut '=' pair with
    | some (_, val) => val
    | none => pair
  if key = "collector".toList then { settings with collector := captured (urlDecode val) }
  else if key = "node".toList then { settings with node := captured (urlDecode val) }
  else if key = "interval".toList then { settings with interval := captured (urlDecode val) }
  else settings

/-- `IFS='&' read -r -a`: the fields of the first line; an empty one at its end is none. -/
def readFields (text : List Char) : List (List Char) :=
  let fields := (text.takeWhile (· ≠ '\n')).splitOn '&'
  if fields.getLast? = some [] then fields.dropLast else fields

def isTokenChar (c : Char) : Bool := c.isAlphanum || c = '_' || c = '-'

/-- The padding that `base64 -d` needs. -/
def padToken (b64 : List Char) : List Char :=
  match b64.length % 4 with
  | 2 => b64 ++ "==".toList
  | 3 => b64 ++ "=".toList
  | _ => b64

/-- What the wrapper reads of a token; `base64d` is the output of `base64 -d`. -/
def readToken (base64d : List Char → List Char) (token : String) : Settings :=
  if token ≠ "" ∧ token.toList.all isTokenChar then
    let query := captured (base64d (padToken (token.toList.map Base64.ofUrl)))
    (readFields query).foldl applyPair {}
  else {}

/-- What the wrapper reads of the name of its file; nothing if there is no token in it. -/
def readName (base64d : List Char → List Char) (name : List Char) : Settings :=
  match behind "-cfg-".toList (dropSuffix ".run".toList name) with
  | some token => readToken base64d (String.ofList token)
  | none => {}

/-- `base64 -d` undoes base64. -/
def DecodesBase64 (base64d : List Char → List Char) : Prop :=
  ∀ bytes, (∀ b ∈ bytes, IsByte b) → base64d (Base64.btoa bytes) = bytes

/-! ## Values -/

/-- A byte that `$(printf …)` keeps. -/
def isKept (b : Char) : Bool := b ≠ '\n' && b ≠ '\x00'

theorem captured_of_kept {s : List Char} (h : ∀ b ∈ s, isKept b = true) : captured s = s := by
  have hkept : ∀ b ∈ s, b ≠ '\n' ∧ b ≠ '\x00' := fun b hb => by simpa [isKept] using h b hb
  have hline : ∀ b ∈ s.reverse, ¬b = '\n' := fun b hb => (hkept b (List.mem_reverse.1 hb)).1
  unfold captured
  rw [List.filter_eq_self.2 fun b hb => by simpa using (hkept b hb).2]
  cases hs : s.reverse with
  | nil => rw [List.reverse_eq_nil_iff.1 hs]; rfl
  | cons b t =>
    rw [hs] at hline
    rw [List.dropWhile_cons_of_neg (by simpa using hline b List.mem_cons_self), ← hs, List.reverse_reverse]

theorem captured_byte (b : Char) : captured [b] = if isKept b then [b] else [] := by
  unfold captured isKept
  by_cases hnul : b = '\x00'
  · simp [hnul]
  · by_cases hline : b = '\n' <;> simp [hnul, hline]

/-- A byte that is written is read back, unless the shell drops it. -/
theorem unescape_written {b : Char} {text : List Char} (hb : IsByte b) (h : Written b text) (rest : List Char) :
    unescape (text.map plusToBlank ++ rest) = (if isKept b then [b] else []) ++ unescape rest := by
  have hplain : ∀ n < 16, plusToBlank (hexDigit n) = hexDigit n := by decide
  have hone : ∀ {c : Char}, c ≠ '%' → unescape (c :: rest) = c :: unescape rest := by
    intro c hc
    rw [unescape]
    · rintro _ _ _ rfl -
      exact hc rfl
    · rintro rfl
      exact hc rfl
  cases h with
  | plain h =>
    have hne : ∀ {c : Char}, FormUrl.unreserved c = false → b ≠ c := fun hc he => by
      rw [he, hc] at h
      cases h
    rw [List.map_singleton, plusToBlank, if_neg (hne (by decide)), List.singleton_append, hone (hne (by decide)),
      if_pos (by simp [isKept, hne (c := '\n') (by decide), hne (c := '\x00') (by decide)])]
    rfl
  | blank h =>
    subst h
    exact hone (by decide)
  | escaped x y hx hy hxy =>
    rw [List.map_cons, List.map_cons, List.map_singleton, hplain x hx, hplain y hy]
    show unescape ('%' :: hexDigit x :: hexDigit y :: rest) = _
    rw [unescape, printfHex, FormUrl.hexValue_hexDigit hx, FormUrl.hexValue_hexDigit hy]
    dsimp only
    rw [hxy, Utf8.byteChar_toNat hb, captured_byte]

/-- A value is read without newlines and NULs. -/
theorem urlDecode_encode (s : List Char) : urlDecode (FormUrl.encode s) = (Utf8.encode s).filter isKept := by
  have hread := @FormUrl.read_encode urlDecode (fun b => if isKept b then [b] else []) rfl
    (fun b text hb htext rest => by
      unfold urlDecode
      rw [List.map_append, unescape_written hb htext]) s
  rw [hread]
  induction Utf8.encode s with
  | nil => rfl
  | cons b bytes ih => cases hb : isKept b <;> simp [List.flatMap_cons, hb, ih]

/-- What the wrapper reads of a value. -/
def kept (s : List Char) : List Char := (Utf8.encode s).filter isKept

theorem kept_empty : kept "".toList = [] := rfl

/-- The shell captures a decoded text without its newlines and NULs. -/
theorem captured_urlDecode (s : List Char) : captured (urlDecode (FormUrl.encode s)) = kept s := by
  rw [urlDecode_encode]
  exact captured_of_kept fun b hb => (List.mem_filter.1 hb).2

/-- A value without newlines and NULs is read as it is. -/
theorem kept_eq {s : List Char} (h : ∀ c ∈ s, isKept c = true) : kept s = Utf8.encode s := by
  unfold kept
  rw [List.filter_eq_self]
  intro b hb
  by_contra hdrop
  have hcases : b = '\n' ∨ b = '\x00' := by
    simp only [isKept, Bool.not_eq_true, Bool.and_eq_false_iff, decide_eq_false_iff_not, not_not] at hdrop
    exact hdrop
  have hascii : b.toNat < 128 := by
    rcases hcases with rfl | rfl <;> decide
  exact hdrop (h b (Utf8.mem_of_mem_encode hb hascii))

/-! ## Tokens -/

theorem isKept_of_isForm {c : Char} (h : FormUrl.isForm c = true) : isKept c = true := by
  have hne : ∀ {d : Char}, FormUrl.isForm d = false → c ≠ d := fun hd he => by
    rw [he, hd] at h
    cases h
  simp [isKept, hne (d := '\n') (by decide), hne (d := '\x00') (by decide)]

theorem isKept_serialize {params : List (List Char × List Char)} : ∀ c ∈ FormUrl.serialize params, isKept c = true := by
  apply FormUrl.forall_mem_serialize (q := fun c => isKept c = true) (by decide)
  intro p
  unfold pair
  rw [List.forall_mem_append, List.forall_mem_cons]
  exact ⟨fun c hc => isKept_of_isForm (FormUrl.isForm_encode p.1 c hc), by decide,
    fun c hc => isKept_of_isForm (FormUrl.isForm_encode p.2 c hc)⟩

theorem readFields_serialize {params : List (List Char × List Char)} (hne : params ≠ []) :
    readFields (FormUrl.serialize params) = params.map pair := by
  have hline : (FormUrl.serialize params).takeWhile (· ≠ '\n') = FormUrl.serialize params := by
    rw [List.takeWhile_eq_self_iff]
    intro c hc
    have hkept := isKept_serialize c hc
    simp only [isKept, Bool.and_eq_true] at hkept
    exact hkept.1
  have hlast : (params.map pair).getLast? ≠ some [] := by
    intro h
    obtain ⟨p, -, hp⟩ := List.mem_map.1 (List.mem_of_getLast? h)
    simp [pair] at hp
  unfold readFields
  dsimp only
  rw [hline, FormUrl.splitOn_serialize hne, if_neg hlast]

theorem applyPair_pair (settings : Settings) {name : List Char} (hname : FormUrl.encode name = name)
    (value : List Char) : applyPair settings (pair (name, value)) =
      if name = "collector".toList then { settings with collector := kept value }
      else if name = "node".toList then { settings with node := kept value }
      else if name = "interval".toList then { settings with interval := kept value }
      else settings := by
  have hkey : (pair (name, value)).takeWhile (· ≠ '=') = name := by
    have hsep := FormUrl.not_mem_encode (c := '=') (by decide) name
    rw [hname] at hsep
    unfold pair
    dsimp only
    rw [hname, List.takeWhile_append_of_pos, List.takeWhile_cons_of_neg (by decide), List.append_nil]
    intro c hc
    simpa using fun he : c = '=' => hsep (he ▸ hc)
  unfold applyPair
  dsimp only
  rw [hkey, FormUrl.cut_pair]
  dsimp only
  rw [captured_urlDecode]

theorem applyPair_collector (settings : Settings) (value : List Char) :
    applyPair settings (pair ("collector".toList, value)) = { settings with collector := kept value } := by
  rw [applyPair_pair settings (by decide), if_pos rfl]

theorem applyPair_node (settings : Settings) (value : List Char) :
    applyPair settings (pair ("node".toList, value)) = { settings with node := kept value } := by
  rw [applyPair_pair settings (by decide), if_neg (by decide), if_pos rfl]

theorem applyPair_interval (settings : Settings) (value : List Char) :
    applyPair settings (pair ("interval".toList, value)) = { settings with interval := kept value } := by
  rw [applyPair_pair settings (by decide), if_neg (by decide), if_neg (by decide), if_pos rfl]

theorem padToken_eq {b64 : List Char} (h : b64.length % 4 ≠ 1) : padToken b64 = Base64.pad b64 := by
  unfold padToken Base64.pad
  split
  · rename_i hlen
    rw [hlen]
    rfl
  · rename_i hlen
    rw [hlen]
    rfl
  · rename_i htwo hthree
    have hne : b64.length % 4 ≠ 2 ∧ b64.length % 4 ≠ 3 := ⟨htwo, hthree⟩
    have hlen : b64.length % 4 = 0 := by omega
    rw [hlen]
    simp

/-- **What the wrapper reads of a token.** -/
theorem readToken_token {base64d : List Char → List Char} (hbase64d : DecodesBase64 base64d) (numbers : Numbers)
    (config : InstallConfig) : readToken base64d (encodeInstallConfig numbers config) =
      { collector := kept config.collector.toList
        node := kept (config.sent.node.getD "").toList
        interval := kept ((config.sent.interval.map numbers.toText).getD "").toList } := by
  have hbytes := isByte_serialize (configParams numbers config)
  have hgroup : ((encodeInstallConfig numbers config).toList.map Base64.ofUrl).length % 4 ≠ 1 := by
    rw [toList_token, List.length_map, List.length_map]
    exact Base64.length_sextets _
  obtain ⟨ns, hne, hlt, hchars⟩ := token_chars numbers config
  have hempty : encodeInstallConfig numbers config ≠ "" := by
    intro h
    rw [h] at hchars
    exact hne (List.map_eq_nil_iff.1 hchars.symm)
  have hall : (encodeInstallConfig numbers config).toList.all isTokenChar = true := by
    have hurl : ∀ n < 64, isTokenChar (Base64.urlChar n) = true := by decide
    rw [hchars, List.all_map, List.all_eq_true]
    exact fun n hn => hurl n (hlt n hn)
  unfold readToken
  rw [if_pos ⟨hempty, hall⟩, padToken_eq hgroup, toList_token, Base64.pad_ofUrl hbytes, hbase64d _ hbytes]
  dsimp only
  rw [captured_of_kept isKept_serialize, readFields_serialize (configParams_ne_nil numbers config), configParams_eq,
    List.map_cons, List.foldl_cons, applyPair_collector, List.map_append, List.foldl_append]
  cases config.sent.node <;> cases config.sent.interval <;>
    simp only [Option.map_none, Option.map_some, Option.toList_none, Option.toList_some, Option.getD_none,
      Option.getD_some, List.map_nil, List.map_cons, List.foldl_nil, List.foldl_cons, applyPair_node,
      applyPair_interval, kept_empty]

/-- The token is found behind a stem without the marker. -/
theorem readName_decorated (base64d : List Char → List Char) {stem : List Char}
    (hstem : behind "-cfg-".toList (stem ++ "-cfg".toList) = none) (token : List Char) :
    readName base64d (stem ++ ("-cfg-".toList ++ token) ++ ".run".toList) =
      readToken base64d (String.ofList token) := by
  unfold readName
  rw [dropSuffix_append, behind_append (by decide) hstem]

end PudimNetMon.Installers.Wrapper
