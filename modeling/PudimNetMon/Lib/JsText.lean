import Mathlib.Data.String.Basic
import PudimNetMon.Lib.Decimal
import PudimNetMon.Lib.Double

/-!
# Text in JavaScript

White space, `trim`, `split` and the two conversions between numbers and text, which are the platform's. A number is a
double.

- `splitOnP_part`: what is split has no separator in its parts;
- `splitBlanks_intercalate`: words with a blank between each two are split as they are;
- `Numbers.Lawful`, `Numbers.RoundTrip`: what the language standard says of the conversions.
-/

namespace PudimNetMon.Js

/-! ## White space -/

/-- `WhiteSpace` and `LineTerminator`, the characters of `\s` and those that `trim` removes. -/
def isSpace (c : Char) : Bool :=
  c.toNat ∈ [0x9, 0xa, 0xb, 0xc, 0xd, 0x20, 0xa0, 0x1680, 0x2028, 0x2029, 0x202f, 0x205f, 0x3000, 0xfeff] ||
    (0x2000 ≤ c.toNat && c.toNat ≤ 0x200a)

theorem isSpace_of_isDigit {c : Char} (h : c.isDigit = true) : isSpace c = false := by
  simp only [Char.isDigit, Bool.and_eq_true, decide_eq_true_eq] at h
  have hlow : 48 ≤ c.toNat := h.1
  have hhigh : c.toNat ≤ 57 := h.2
  simp [isSpace]
  omega

def trim (s : List Char) : List Char := ((s.dropWhile isSpace).reverse.dropWhile isSpace).reverse

theorem trim_of_noSpace {s : List Char} (h : ∀ c ∈ s, isSpace c = false) : trim s = s := by
  have hdrop : ∀ {l : List Char}, (∀ c ∈ l, isSpace c = false) → l.dropWhile isSpace = l := by
    intro l hl
    cases l with
    | nil => rfl
    | cons c l => rw [List.dropWhile_cons_of_neg (by simp [hl c List.mem_cons_self])]
  unfold trim
  rw [hdrop h, hdrop fun c hc => h c (List.mem_reverse.1 hc), List.reverse_reverse]

/-- Trimming adds nothing. -/
theorem mem_of_mem_trim {s : List Char} {c : Char} (h : c ∈ trim s) : c ∈ s := by
  unfold trim at h
  rw [List.mem_reverse] at h
  exact (List.dropWhile_sublist _).subset (List.mem_reverse.1 ((List.dropWhile_sublist _).subset h))

/-! ## Splitting -/

/-- A part is made of the list's elements without the separators. -/
theorem splitOnP_part {α : Type} {p : α → Bool} {l part : List α} (h : part ∈ l.splitOnP p) :
    ∀ a ∈ part, a ∈ l ∧ p a = false := by
  induction l generalizing part with
  | nil =>
    rw [List.splitOnP_nil, List.mem_singleton] at h
    simp [h]
  | cons a l ih =>
    have hlater : ∀ {q}, q ∈ l.splitOnP p → ∀ b ∈ q, b ∈ a :: l ∧ p b = false :=
      fun hq b hb => ⟨List.mem_cons_of_mem a (ih hq b hb).1, (ih hq b hb).2⟩
    rw [List.splitOnP_cons_eq_if_modifyHead] at h
    split at h
    · rcases List.mem_cons.1 h with rfl | h
      · simp
      · exact hlater h
    · rename_i ha
      obtain ⟨first, parts, hs⟩ := List.exists_cons_of_ne_nil (List.splitOnP_ne_nil p l)
      rw [hs] at h hlater
      rcases List.mem_cons.1 h with rfl | h
      · rw [List.forall_mem_cons]
        exact ⟨⟨List.mem_cons_self, eq_false_of_ne_true ha⟩, hlater List.mem_cons_self⟩
      · exact hlater (List.mem_cons_of_mem first h)

/-- A part of a list that is split at an element has the element no more. -/
theorem splitOn_part {α : Type} [BEq α] [LawfulBEq α] {sep : α} {l part : List α} (h : part ∈ l.splitOn sep) :
    sep ∉ part ∧ ∀ a ∈ part, a ∈ l := by
  rw [List.splitOn_eq_splitOnP] at h
  refine ⟨fun hmem => ?_, fun a ha => (splitOnP_part h a ha).1⟩
  exact absurd (splitOnP_part h sep hmem).2 (by simp)

/-- A blank in front of another one is dropped. -/
def squeeze : List Char → List Char
  | c :: d :: cs => if isSpace c && isSpace d then squeeze (d :: cs) else c :: squeeze (d :: cs)
  | cs => cs

/-- `split(/\s+/)` -/
def splitBlanks (s : List Char) : List (List Char) := (squeeze s).splitOnP isSpace

/-- Text without blanks. -/
def Word (w : List Char) : Prop := w ≠ [] ∧ ∀ c ∈ w, isSpace c = false

theorem squeeze_cons {c : Char} (hc : isSpace c = false) (s : List Char) : squeeze (c :: s) = c :: squeeze s := by
  cases s with
  | nil => rfl
  | cons d s => simp [squeeze, hc]

/-- A text without blanks stays as it is in front of another one. -/
theorem squeeze_append {w : List Char} (hw : ∀ c ∈ w, isSpace c = false) (s : List Char) :
    squeeze (w ++ s) = w ++ squeeze s := by
  induction w with
  | nil => rfl
  | cons c w ih =>
    rw [List.forall_mem_cons] at hw
    rw [List.cons_append, squeeze_cons hw.1, ih hw.2, List.cons_append]

theorem squeeze_blank {w : List Char} (hw : Word w) (s : List Char) :
    squeeze (' ' :: (w ++ s)) = ' ' :: squeeze (w ++ s) := by
  obtain ⟨hne, hw⟩ := hw
  cases w with
  | nil => exact absurd rfl hne
  | cons c w => simp [squeeze, hw c List.mem_cons_self]

/-- Words with one blank between each two have no blank to drop. -/
theorem squeeze_intercalate {ws : List (List Char)} (hws : ∀ w ∈ ws, Word w) :
    squeeze ([' '].intercalate ws) = [' '].intercalate ws := by
  induction ws with
  | nil => rfl
  | cons w ws ih =>
    rw [List.forall_mem_cons] at hws
    cases ws with
    | nil => rw [List.intercalate_singleton, ← List.append_nil w, squeeze_append hws.1.2, squeeze]; simp
    | cons v ws =>
      have htail := ih hws.2
      obtain ⟨rest, hrest⟩ : ∃ rest, [' '].intercalate (v :: ws) = v ++ rest := by
        cases ws with
        | nil => exact ⟨[], by simp⟩
        | cons u ws => exact ⟨[' '] ++ [' '].intercalate (u :: ws), by simp [List.intercalate_cons_cons]⟩
      rw [List.intercalate_cons_cons, List.append_assoc, squeeze_append hws.1.2, hrest, List.singleton_append,
        squeeze_blank (hws.2 v List.mem_cons_self), ← hrest, htail]

/-- **Words with a blank between each two are split as they are.** -/
theorem splitBlanks_intercalate {ws : List (List Char)} (hws : ∀ w ∈ ws, Word w) (hne : ws ≠ []) :
    splitBlanks ([' '].intercalate ws) = ws := by
  unfold splitBlanks
  rw [squeeze_intercalate hws]
  induction ws with
  | nil => exact absurd rfl hne
  | cons w ws ih =>
    rw [List.forall_mem_cons] at hws
    cases ws with
    | nil => rw [List.intercalate_singleton, List.splitOnP_eq_singleton hws.1.2]
    | cons v ws =>
      rw [List.intercalate_cons_cons, List.append_assoc, List.singleton_append,
        List.splitOnP_append_cons_of_forall_mem hws.1.2 ' ' (by decide), ih hws.2 (List.cons_ne_nil v ws)]

/-! ## Numbers and text -/

/-- The conversions `Number(s)` and `String(n)`. -/
structure Numbers where
  ofText : String → Double
  toText : Double → String

/-- An integer that is one double. -/
def Safe (n : Int) : Prop := n.natAbs < 2 ^ 53

/-- The text of an integer is its digits, and digits are read as their integer. -/
structure Numbers.Lawful (numbers : Numbers) : Prop where
  ofText_int : ∀ n, Safe n → numbers.ofText (toString n) = .ofInt n
  toText_int : ∀ n, Safe n → numbers.toText (.ofInt n) = toString n

/-- `!d`: zero and NaN are the numbers that are false. -/
def falsy (d : Double) : Bool := d.isNaN || d.mag == 0

/-- A character of a number's text, which may be `Infinity` or `NaN`. -/
def isNumeral (c : Char) : Bool := c.isDigit || c ∈ ['+', '-', '.', 'e', 'I', 'n', 'f', 'i', 't', 'y', 'N', 'a']

/-- The text of a number other than zero is read back as the number; it begins with no plus. -/
structure Numbers.RoundTrip (numbers : Numbers) : Prop extends numbers.Lawful where
  ofText_toText : ∀ d, falsy d = false → numbers.ofText (numbers.toText d) = d
  ofText_integer : ∀ s n, Decimal.integer? s.toList = some n → n ≠ 0 → Safe n → numbers.ofText s = .ofInt n
  toText_cons : ∀ d, ∃ c cs, (numbers.toText d).toList = c :: cs ∧ c ≠ '+'
  toText_numeral : ∀ d, ∀ c ∈ (numbers.toText d).toList, isNumeral c = true

/-- Conversions that write an integer as its digits, and another number as its bits behind an `e`. -/
def Numbers.exact : Numbers where
  ofText s :=
    match s.toList with
    | 'e' :: ds => ⟨BitVec.ofNat 64 ((Decimal.natural? ds).getD 0)⟩
    | cs => (Decimal.integer? cs).elim ⟨BitVec.ofNat 64 (Double.infMag + 1)⟩ .ofInt
  toText d :=
    if d.isFinite && Double.ofInt d.trunc = d then toString d.trunc
    else String.ofList ('e' :: Nat.toDigits 10 d.bits.toNat)

theorem Numbers.exact_ofText_integer {s : String} {n : Int} (h : Decimal.integer? s.toList = some n) :
    exact.ofText s = .ofInt n := by
  unfold exact
  dsimp only
  split
  · rename_i ds hs
    rw [hs] at h
    exact absurd h (by simp [Decimal.integer?, Decimal.natural?])
  · rw [h]
    rfl

theorem Numbers.exact_toText (d : Double) :
    exact.toText d = toString d.trunc ∧ Double.ofInt d.trunc = d ∨
      exact.toText d = String.ofList ('e' :: Nat.toDigits 10 d.bits.toNat) := by
  by_cases h : d.isFinite && Double.ofInt d.trunc = d
  · exact .inl ⟨if_pos h, by simpa using (Bool.and_eq_true_iff.1 h).2⟩
  · exact .inr (if_neg h)

/-- The laws are consistent: these conversions have them. -/
theorem Numbers.exact_roundTrip : Numbers.exact.RoundTrip where
  ofText_int n _ := exact_ofText_integer (Decimal.integer?_toString n)
  toText_int n h := by
    have hfinite : (Double.ofInt n).isFinite = true := Double.isFinite_ofInt (by unfold Safe at h; omega)
    simp [exact, Double.trunc_ofInt h, hfinite]
  ofText_toText d _ := by
    rcases exact_toText d with ⟨htext, hint⟩ | htext
    · rw [htext, exact_ofText_integer (Decimal.integer?_toString d.trunc), hint]
    · rw [htext, exact]
      simp [Decimal.natural?_toDigits]
  ofText_integer s n h _ _ := exact_ofText_integer h
  toText_cons d := by
    rcases exact_toText d with ⟨htext, -⟩ | htext
    · rw [htext]
      cases hs : (toString d.trunc).toList with
      | nil =>
        have hread := Decimal.integer?_toString d.trunc
        rw [hs] at hread
        cases hread
      | cons c cs =>
        refine ⟨c, cs, rfl, fun hc => ?_⟩
        have hmem := Decimal.mem_toString (hs ▸ List.mem_cons_self)
        rw [hc] at hmem
        exact absurd hmem (by decide)
    · rw [htext, String.toList_ofList]
      exact ⟨'e', _, rfl, by decide⟩
  toText_numeral d c hc := by
    rcases exact_toText d with ⟨htext, -⟩ | htext
    · rw [htext] at hc
      rcases Decimal.mem_toString hc with hc | rfl
      · simp [isNumeral, hc]
      · decide
    · rw [htext, String.toList_ofList] at hc
      rcases List.mem_cons.1 hc with rfl | hc
      · decide
      · simp [isNumeral, Decimal.isDigit_of_mem_toDigits hc]

/-- `Number(s) || n` -/
def numberOr (numbers : Numbers) (s : String) (n : Int) : Double :=
  let d := numbers.ofText s
  if falsy d then .ofInt n else d

theorem falsy_ofInt {n : Int} (hne : n ≠ 0) (h : Safe n) : falsy (.ofInt n) = false := by
  have hfinite := Double.isFinite_ofInt (n := n) (by unfold Safe at h; omega)
  have hmag := Double.mag_ofInt_pos hne h
  unfold Double.isFinite at hfinite
  unfold falsy Double.isNaN
  rw [decide_eq_true_eq] at hfinite
  simp
  omega

/-- The text of an integer is read as it, or as the default where it is zero. -/
theorem numberOr_int {numbers : Numbers} (hlaw : numbers.Lawful) {m : Int} (hm : Safe m) (n : Int) :
    numberOr numbers (toString m) n = .ofInt (if m = 0 then n else m) := by
  unfold numberOr
  rw [hlaw.ofText_int m hm]
  by_cases hzero : m = 0
  · rw [hzero, if_pos rfl]
    rfl
  · rw [if_neg hzero]
    exact if_neg (by rw [falsy_ofInt hzero hm]; decide)

example : splitBlanks "a  b\tc ".toList = ["a".toList, "b".toList, "c".toList, []] := by decide

end PudimNetMon.Js
