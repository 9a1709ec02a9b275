import PudimNetMon.Lib.Separated
import PudimNetMon.Lib.Utf8

/-!
# `application/x-www-form-urlencoded`

`serialize` writes pairs of texts as `name=value&name=value`, with a blank as `+` and every other byte outside of the
letters, the digits and `*-._` as `%XX`; `parse` reads such a text. Pairs are read back (`parse_serialize`).
-/

namespace PudimNetMon.FormUrl

open Utf8 (byteChar IsByte)

/-! ## Bytes -/

def unreserved (b : Char) : Bool := b.isAlphanum || b = '*' || b = '-' || b = '.' || b = '_'

def hexDigit (n : Nat) : Char := if n < 10 then Char.ofNat (n + 48) else Char.ofNat (n + 55)

def hexValue (c : Char) : Option Nat :=
  if c.isDigit then some (c.toNat - 48)
  else if 'A' ≤ c ∧ c ≤ 'F' then some (c.toNat - 55)
  else if 'a' ≤ c ∧ c ≤ 'f' then some (c.toNat - 87)
  else none

def formByte (b : Char) : List Char :=
  if unreserved b then [b]
  else if b = ' ' then ['+']
  else ['%', hexDigit (b.toNat / 16), hexDigit (b.toNat % 16)]

theorem hexValue_hexDigit : ∀ {n}, n < 16 → hexValue (hexDigit n) = some n := by decide

/-- The ways in which a byte is written. -/
inductive Written (b : Char) : List Char → Prop
  | plain : unreserved b = true → Written b [b]
  | blank : b = ' ' → Written b ['+']
  | escaped (x y : Nat) : x < 16 → y < 16 → x * 16 + y = b.toNat → Written b ['%', hexDigit x, hexDigit y]

/-- A byte is written in one of these ways. -/
theorem written_formByte {b : Char} (hb : IsByte b) : Written b (formByte b) := by
  unfold formByte
  split
  · rename_i h
    exact .plain h
  split
  · rename_i h
    exact .blank h
  · have hlt : b.toNat < 256 := hb
    exact .escaped _ _ (by omega) (by omega) (by omega)

/-- The characters of what is written. -/
def isForm (c : Char) : Bool := unreserved c || c = '+' || c = '%'

theorem isForm_of_written {b : Char} {text : List Char} (h : Written b text) : ∀ c ∈ text, isForm c = true := by
  have hhex : ∀ n < 16, isForm (hexDigit n) = true := by decide
  cases h with
  | plain h => simp [isForm, h]
  | blank h => exact List.all_eq_true.1 (by decide)
  | escaped x y hx hy _ =>
    simp only [List.forall_mem_cons, hhex x hx, hhex y hy]
    exact ⟨by decide, trivial, trivial, nofun⟩

/-- What is written is ASCII, so it is its own encoding. -/
theorem ascii_of_isForm {c : Char} (h : isForm c = true) : c.toNat < 128 := by
  have hle {d : Char} (h : c.val ≤ d.val) (hd : d.toNat < 128) : c.toNat < 128 := Nat.lt_of_le_of_lt h hd
  simp only [isForm, unreserved, Char.isAlphanum, Bool.or_eq_true, decide_eq_true_eq] at h
  rcases h with ((((((h | h) | rfl) | rfl) | rfl) | rfl) | rfl) | rfl
  · rcases Bool.or_eq_true_iff.1 h with hupper | hlower
    · exact hle (of_decide_eq_true hupper).2 (by decide)
    · exact hle (of_decide_eq_true (Bool.and_eq_true_iff.1 hlower).2) (by decide)
  · exact hle (of_decide_eq_true (Bool.and_eq_true_iff.1 h).2) (by decide)
  all_goals decide

def encode (s : List Char) : List Char := (Utf8.encode s).flatMap formByte

theorem isForm_encode (s : List Char) : ∀ c ∈ encode s, isForm c = true := by
  intro c hc
  obtain ⟨b, hb, hc⟩ := List.mem_flatMap.1 hc
  exact isForm_of_written (written_formByte (Utf8.isByte_of_mem_encode hb)) c hc

/-- A byte that is written as `%XX`. -/
def isEscaped (b : Char) : Bool := !(unreserved b || b = ' ')

theorem length_formByte (b : Char) : (formByte b).length = if isEscaped b then 3 else 1 := by
  unfold formByte isEscaped
  cases unreserved b with
  | true => simp
  | false => by_cases hblank : b = ' ' <;> simp [hblank]

/-- The length of a text as it is written. -/
def writtenLength (s : List Char) : Nat := (Utf8.encode s).length + 2 * (Utf8.encode s).countP isEscaped

/-- How long a text is as it is written. -/
theorem length_encode (s : List Char) : (encode s).length = writtenLength s := by
  unfold encode writtenLength
  induction Utf8.encode s with
  | nil => rfl
  | cons b bytes ih =>
    rw [List.flatMap_cons, List.length_append, ih, length_formByte, List.length_cons, List.countP_cons]
    split <;> omega

/-! ## The parser -/

def plusToBlank (b : Char) : Char := if b = '+' then ' ' else b

/-- `%XX` is a byte; a `%` that is followed by no two hexadecimal digits stays. -/
def percentDecode : List Char → List Char
  | '%' :: h :: l :: rest =>
    match hexValue h, hexValue l with
    | some x, some y => byteChar (x * 16 + y) :: percentDecode rest
    | _, _ => '%' :: percentDecode (h :: l :: rest)
  | b :: rest => b :: percentDecode rest
  | [] => []

def decodeText (bytes : List Char) : List Char := Utf8.decode (percentDecode (bytes.map plusToBlank))

/-- The parser of `URLSearchParams`. -/
def parse (q : List Char) : List (List Char × List Char) :=
  let q := match q with
    | '?' :: rest => rest
    | q => q
  (((Utf8.encode q).splitOn '&').filter fun part => !part.isEmpty).map fun part =>
    match cut '=' part with
    | some (name, value) => (decodeText name, decodeText value)
    | none => (decodeText part, [])

def pair (p : List Char × List Char) : List Char := encode p.1 ++ '=' :: encode p.2

/-- The serializer of `URLSearchParams`. -/
def serialize (params : List (List Char × List Char)) : List Char := ['&'].intercalate (params.map pair)

theorem length_pair (p : List Char × List Char) :
    (pair p).length = writtenLength p.1 + 1 + writtenLength p.2 := by
  unfold pair
  rw [List.length_append, List.length_cons, length_encode, length_encode]
  omega

theorem length_serialize_singleton (p : List Char × List Char) : (serialize [p]).length = (pair p).length := by
  rw [serialize, List.map_singleton, List.intercalate_singleton]

theorem length_serialize_cons_cons (p q : List Char × List Char) (ps : List (List Char × List Char)) :
    (serialize (p :: q :: ps)).length = (pair p).length + 1 + (serialize (q :: ps)).length := by
  unfold serialize
  rw [List.map_cons, List.map_cons, List.intercalate_cons_cons, List.length_append, List.length_append,
    List.length_singleton]

theorem percentDecode_cons {b : Char} (hb : b ≠ '%') (rest : List Char) :
    percentDecode (b :: rest) = b :: percentDecode rest := by
  rw [percentDecode]
  rintro h l rest' rfl -
  exact hb rfl

/-- A byte is read back from each of the ways in which it is written. -/
theorem percentDecode_written {b : Char} {text : List Char} (hb : IsByte b) (h : Written b text) (rest : List Char) :
    percentDecode (text.map plusToBlank ++ rest) = b :: percentDecode rest := by
  have hplain : ∀ n < 16, plusToBlank (hexDigit n) = hexDigit n := by decide
  cases h with
  | plain h =>
    have hplus : b ≠ '+' := fun he => by subst he; exact absurd h (by decide)
    have hpercent : b ≠ '%' := fun he => by subst he; exact absurd h (by decide)
    rw [List.map_singleton, plusToBlank, if_neg hplus, List.singleton_append, percentDecode_cons hpercent]
  | blank h =>
    subst h
    exact percentDecode_cons (by decide) rest
  | escaped x y hx hy hxy =>
    rw [List.map_cons, List.map_cons, List.map_singleton, hplain x hx, hplain y hy]
    show percentDecode ('%' :: hexDigit x :: hexDigit y :: rest) = _
    rw [percentDecode, hexValue_hexDigit hx, hexValue_hexDigit hy]
    dsimp only
    rw [hxy, Utf8.byteChar_toNat hb]

/-- A reader is known from what it makes of each byte that is written. -/
theorem read_encode {read : List Char → List Char} {out : Char → List Char} (hnil : read [] = [])
    (hstep : ∀ b text, IsByte b → Written b text → ∀ rest, read (text ++ rest) = out b ++ read rest) (s : List Char) :
    read (encode s) = (Utf8.encode s).flatMap out := by
  have hbytes : ∀ b ∈ Utf8.encode s, IsByte b := fun b hb => Utf8.isByte_of_mem_encode hb
  unfold encode
  generalize Utf8.encode s = bytes at hbytes ⊢
  induction bytes with
  | nil => exact hnil
  | cons b bytes ih =>
    rw [List.forall_mem_cons] at hbytes
    rw [List.flatMap_cons, List.flatMap_cons, hstep b _ hbytes.1 (written_formByte hbytes.1), ih hbytes.2]

theorem percentDecode_encode (s : List Char) : percentDecode ((encode s).map plusToBlank) = Utf8.encode s := by
  have hread := @read_encode (fun text => percentDecode (text.map plusToBlank)) (fun b => [b]) rfl
    (fun b text hb htext rest => by
      rw [List.map_append, percentDecode_written hb htext]
      rfl) s
  rw [hread, List.flatMap_singleton']

/-- **A text is read back.** -/
theorem decodeText_encode (s : List Char) : decodeText (encode s) = s := by
  unfold decodeText
  rw [percentDecode_encode, Utf8.decode_encode]

/-! ## Pairs -/

/-- The separators do not occur in what is written between them. -/
theorem not_mem_encode {c : Char} (hc : isForm c = false) (s : List Char) : c ∉ encode s := by
  intro hmem
  have h := isForm_encode s c hmem
  rw [hc] at h
  cases h

theorem not_mem_pair (p : List Char × List Char) : '&' ∉ pair p := by
  unfold pair
  simp [not_mem_encode (c := '&') (by decide)]

theorem ascii_pair (p : List Char × List Char) : ∀ c ∈ pair p, c.toNat < 128 := by
  unfold pair
  rw [List.forall_mem_append, List.forall_mem_cons]
  exact ⟨fun c hc => ascii_of_isForm (isForm_encode p.1 c hc), by decide,
    fun c hc => ascii_of_isForm (isForm_encode p.2 c hc)⟩

theorem cut_pair (p : List Char × List Char) : cut '=' (pair p) = some (encode p.1, encode p.2) :=
  cut_append (not_mem_encode (by decide) p.1) (encode p.2)

variable {params : List (List Char × List Char)}

theorem splitOn_serialize (hne : params ≠ []) : (serialize params).splitOn '&' = params.map pair := by
  apply List.splitOn_intercalate
  · intro part hpart
    obtain ⟨p, -, rfl⟩ := List.mem_map.1 hpart
    exact not_mem_pair p
  · simpa using hne

theorem forall_mem_serialize {q : Char → Prop} (hsep : q '&') (h : ∀ p, ∀ c ∈ pair p, q c) :
    ∀ c ∈ serialize params, q c := by
  apply forall_mem_intercalate hsep
  intro part hpart
  obtain ⟨p, -, rfl⟩ := List.mem_map.1 hpart
  exact h p

theorem ascii_serialize : ∀ c ∈ serialize params, c.toNat < 128 := forall_mem_serialize (by decide) ascii_pair

/-- **Pairs are read back.** -/
theorem parse_serialize (params : List (List Char × List Char)) : parse (serialize params) = params := by
  have hquestion : '?' ∉ serialize params := by
    intro hmem
    refine forall_mem_serialize (q := fun c => c ≠ '?') (by decide) (fun p c hc he => ?_) '?' hmem rfl
    subst he
    unfold pair at hc
    simp [not_mem_encode (c := '?') (by decide)] at hc
  have hpairs : (params.map pair).map (fun part => match cut '=' part with
      | some (name, value) => (decodeText name, decodeText value)
      | none => (decodeText part, [])) = params := by
    rw [List.map_map]
    conv_rhs => rw [← List.map_id params]
    apply List.map_congr_left
    intro p _
    dsimp only [Function.comp]
    rw [cut_pair p]
    dsimp only
    rw [decodeText_encode, decodeText_encode]
    rfl
  unfold parse
  split
  · rename_i rest hq
    exact absurd (hq ▸ List.mem_cons_self) hquestion
  · dsimp only
    rw [Utf8.encode_ascii ascii_serialize]
    rcases eq_or_ne params [] with rfl | hne
    · rfl
    · rw [splitOn_serialize hne, List.filter_eq_self.2, hpairs]
      intro part hpart
      obtain ⟨p, -, rfl⟩ := List.mem_map.1 hpart
      simp [pair]

example : String.ofList (serialize [("node".toList, "web 01/é".toList)]) = "node=web+01%2F%C3%A9" := by decide

end PudimNetMon.FormUrl
