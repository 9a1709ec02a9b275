import Mathlib.Algebra.Ring.Int.Defs
import Mathlib.Algebra.Ring.Nat
import Mathlib.Data.List.TakeWhile
import Mathlib.Data.String.Basic
import PudimNetMon.Lib.Decimal

/-!
# JSON texts (RFC 8259)

`lex` reads a text into tokens, one character at a time; `Value.tokens` is the one way in which the grammar renders a
value. A text decodes to the value whose tokens it has, and to no other (`Decodes.unique`). Numbers keep their text.

A text that is put together from parts is followed part by part: `Reads text tokens ok` says that the part gives its
tokens when `ok` holds and ends the reading when it does not.

- `Reads.string`, `Reads.int`, `Reads.decimals`, `Reads.bool`: the parts without parts;
- `Reads.array`, `Reads.object`: lists of parts;
- `decodes_iff`: the whole text.
-/

namespace PudimNetMon.JsonText

/-! ## Tokens -/

inductive Token
  | openBrace
  | closeBrace
  | openBracket
  | closeBracket
  | colon
  | comma
  | null
  | bool (b : Bool)
  | number (literal : List Char)
  | string (s : String)
  deriving DecidableEq, Repr

/-- Where the reading stands; the literal, string or escape under construction. -/
inductive Mode
  | between
  | literal (cs : List Char)
  | string (cs : List Char)
  | escape (cs : List Char)
  /-- Behind `\u` and some of its digits, the second time behind a high surrogate. -/
  | unicode (cs : List Char) (high : Option Nat) (digits : List Nat)
  /-- Behind a high surrogate. -/
  | high (cs : List Char) (high : Nat)
  /-- Behind a high surrogate and a backslash. -/
  | highEscape (cs : List Char) (high : Nat)
  deriving DecidableEq, Repr

def isBlank (c : Char) : Bool := c == ' ' || c == '\t' || c == '\n' || c == '\r'

/-- The characters of numbers and of `true`, `false` and `null`. -/
def isLiteralChar (c : Char) : Bool := c.isAlphanum || c == '-' || c == '+' || c == '.'

/-- `[ exp ]` -/
def isExponent : List Char → Bool
  | [] => true
  | e :: cs =>
    let digits := match cs with
      | '+' :: ds | '-' :: ds => ds
      | ds => ds
    (e == 'e' || e == 'E') && !digits.isEmpty && digits.all Char.isDigit

/-- `[ frac ] [ exp ]` -/
def isFraction : List Char → Bool
  | '.' :: cs => !(cs.takeWhile Char.isDigit).isEmpty && isExponent (cs.dropWhile Char.isDigit)
  | cs => isExponent cs

/-- `int [ frac ] [ exp ]` -/
def isUnsigned : List Char → Bool
  | '0' :: cs => isFraction cs
  | c :: cs => c.isDigit && isFraction (cs.dropWhile Char.isDigit)
  | [] => false

def isNumber : List Char → Bool
  | '-' :: cs => isUnsigned cs
  | cs => isUnsigned cs

def literalToken (cs : List Char) : Option Token :=
  if cs = ['t', 'r', 'u', 'e'] then some (.bool true)
  else if cs = ['f', 'a', 'l', 's', 'e'] then some (.bool false)
  else if cs = ['n', 'u', 'l', 'l'] then some .null
  else if isNumber cs then some (.number cs)
  else none

def hexDigit (c : Char) : Option Nat :=
  if c.isDigit then some (c.toNat - '0'.toNat)
  else if 'a' ≤ c ∧ c ≤ 'f' then some (c.toNat - 'a'.toNat + 10)
  else if 'A' ≤ c ∧ c ≤ 'F' then some (c.toNat - 'A'.toNat + 10)
  else none

/-- The fourth digit of `\u` is there. -/
def unicodeEnd (cs : List Char) (high : Option Nat) (code : Nat) : Option Mode :=
  let isHigh := 0xD800 ≤ code ∧ code < 0xDC00
  let isLow := 0xDC00 ≤ code ∧ code < 0xE000
  match high with
  | none => if isHigh then some (.high cs code) else if isLow then none else some (.string (cs ++ [Char.ofNat code]))
  | some h =>
    if isLow then some (.string (cs ++ [Char.ofNat (0x10000 + (h - 0xD800) * 0x400 + (code - 0xDC00))])) else none

/-- A character in front of a token. -/
def lexBetween (c : Char) : Option (List Token × Mode) :=
  if isBlank c then some ([], .between)
  else if c = '\x7b' then some ([.openBrace], .between)
  else if c = '\x7d' then some ([.closeBrace], .between)
  else if c = '[' then some ([.openBracket], .between)
  else if c = ']' then some ([.closeBracket], .between)
  else if c = ':' then some ([.colon], .between)
  else if c = ',' then some ([.comma], .between)
  else if c = '"' then some ([], .string [])
  else if isLiteralChar c then some ([], .literal [c])
  else none

/-- The character that a backslash and this one stand for. -/
def shortEscape : Char → Option Char
  | '"' => some '"'
  | '\\' => some '\\'
  | '/' => some '/'
  | 'b' => some '\x08'
  | 'f' => some '\x0c'
  | 'n' => some '\n'
  | 'r' => some '\r'
  | 't' => some '\t'
  | _ => none

/-- One character: the tokens that are complete now. -/
def lexChar (m : Mode) (c : Char) : Option (List Token × Mode) :=
  match m with
  | .between => lexBetween c
  | .literal cs =>
    if isLiteralChar c then some ([], .literal (cs ++ [c]))
    else (literalToken cs).bind fun t => (lexBetween c).map fun p => (t :: p.1, p.2)
  | .string cs =>
    if c = '"' then some ([.string (String.ofList cs)], .between)
    else if c = '\\' then some ([], .escape cs)
    else if c.toNat < 0x20 then none
    else some ([], .string (cs ++ [c]))
  | .escape cs =>
    if c = 'u' then some ([], .unicode cs none []) else (shortEscape c).map fun d => ([], .string (cs ++ [d]))
  | .unicode cs high digits =>
    (hexDigit c).bind fun d =>
      if digits.length < 3 then some ([], .unicode cs high (digits ++ [d]))
      else (unicodeEnd cs high ((digits ++ [d]).foldl (fun n d => 16 * n + d) 0)).map fun m => ([], m)
  | .high cs high => if c = '\\' then some ([], .highEscape cs high) else none
  | .highEscape cs high => if c = 'u' then some ([], .unicode cs (some high) []) else none

/-- The tokens of what is left of a text. -/
def lex : Mode → List Char → Option (List Token)
  | .between, [] => some []
  | .literal cs, [] => (literalToken cs).map fun t => [t]
  | _, [] => none
  | m, c :: rest => (lexChar m c).bind fun p => (lex p.2 rest).map fun ts => p.1 ++ ts

/-! ## Values -/

inductive Value
  | null
  | bool (b : Bool)
  | number (literal : List Char)
  | string (s : String)
  | array (items : List Value)
  | object (members : List (String × Value))

mutual

/-- The tokens of a value. -/
def Value.tokens : Value → List Token
  | .null => [.null]
  | .bool b => [.bool b]
  | .number literal => [.number literal]
  | .string s => [.string s]
  | .array items => .openBracket :: itemsTokens items
  | .object members => .openBrace :: membersTokens members

def itemsTokens : List Value → List Token
  | [] => [.closeBracket]
  | v :: items => v.tokens ++ moreItems items

def moreItems : List Value → List Token
  | [] => [.closeBracket]
  | v :: items => .comma :: (v.tokens ++ moreItems items)

def membersTokens : List (String × Value) → List Token
  | [] => [.closeBrace]
  | (key, v) :: members => .string key :: .colon :: (v.tokens ++ moreMembers members)

def moreMembers : List (String × Value) → List Token
  | [] => [.closeBrace]
  | (key, v) :: members => .comma :: .string key :: .colon :: (v.tokens ++ moreMembers members)

end

/-- The text is JSON for the value. -/
def Decodes (text : String) (v : Value) : Prop := lex .between text.toList = some v.tokens

/-! ### A text decodes to one value -/

mutual

/-- What begins with the tokens of a value begins with those of no other. -/
theorem tokens_inj : ∀ (v w : Value) {r s : List Token}, v.tokens ++ r = w.tokens ++ s → v = w ∧ r = s
  | .null, w, _, _, h => by
    cases w with
    | null => exact ⟨rfl, (List.cons.inj h).2⟩
    | _ => simp [Value.tokens] at h
  | .bool _, w, _, _, h => by
    cases w with
    | bool b => simpa [Value.tokens] using h
    | _ => simp [Value.tokens] at h
  | .number _, w, _, _, h => by
    cases w with
    | number literal => simpa [Value.tokens] using h
    | _ => simp [Value.tokens] at h
  | .string _, w, _, _, h => by
    cases w with
    | string s => simpa [Value.tokens] using h
    | _ => simp [Value.tokens] at h
  | .array items, w, _, _, h => by
    cases w with
    | array items' =>
      obtain ⟨rfl, hrest⟩ := itemsTokens_inj items items' (List.cons.inj h).2
      exact ⟨rfl, hrest⟩
    | _ => simp [Value.tokens] at h
  | .object members, w, _, _, h => by
    cases w with
    | object members' =>
      obtain ⟨rfl, hrest⟩ := membersTokens_inj members members' (List.cons.inj h).2
      exact ⟨rfl, hrest⟩
    | _ => simp [Value.tokens] at h

theorem itemsTokens_inj : ∀ (l m : List Value) {r s : List Token},
    itemsTokens l ++ r = itemsTokens m ++ s → l = m ∧ r = s
  | [], [], _, _, h => ⟨rfl, (List.cons.inj h).2⟩
  | [], w :: _, _, _, h => by cases w <;> simp [itemsTokens, Value.tokens] at h
  | v :: _, [], _, _, h => by cases v <;> simp [itemsTokens, Value.tokens] at h
  | v :: l, w :: m, _, _, h => by
    simp only [itemsTokens, List.append_assoc] at h
    obtain ⟨rfl, hmore⟩ := tokens_inj v w h
    obtain ⟨rfl, hrest⟩ := moreItems_inj l m hmore
    exact ⟨rfl, hrest⟩

theorem moreItems_inj : ∀ (l m : List Value) {r s : List Token},
    moreItems l ++ r = moreItems m ++ s → l = m ∧ r = s
  | [], [], _, _, h => ⟨rfl, (List.cons.inj h).2⟩
  | [], _ :: _, _, _, h => by simp [moreItems] at h
  | _ :: _, [], _, _, h => by simp [moreItems] at h
  | v :: l, w :: m, _, _, h => by
    simp only [moreItems, List.cons_append, List.append_assoc, List.cons.injEq, true_and] at h
    obtain ⟨rfl, hmore⟩ := tokens_inj v w h
    obtain ⟨rfl, hrest⟩ := moreItems_inj l m hmore
    exact ⟨rfl, hrest⟩

theorem membersTokens_inj : ∀ (l m : List (String × Value)) {r s : List Token},
    membersTokens l ++ r = membersTokens m ++ s → l = m ∧ r = s
  | [], [], _, _, h => ⟨rfl, (List.cons.inj h).2⟩
  | [], (_, _) :: _, _, _, h => by simp [membersTokens] at h
  | (_, _) :: _, [], _, _, h => by simp [membersTokens] at h
  | (key, v) :: l, (key', w) :: m, _, _, h => by
    simp only [membersTokens, List.cons_append, List.append_assoc, List.cons.injEq, true_and, Token.string.injEq] at h
    obtain ⟨rfl, h⟩ := h
    obtain ⟨rfl, hmore⟩ := tokens_inj v w h
    obtain ⟨rfl, hrest⟩ := moreMembers_inj l m hmore
    exact ⟨rfl, hrest⟩

theorem moreMembers_inj : ∀ (l m : List (String × Value)) {r s : List Token},
    moreMembers l ++ r = moreMembers m ++ s → l = m ∧ r = s
  | [], [], _, _, h => ⟨rfl, (List.cons.inj h).2⟩
  | [], (_, _) :: _, _, _, h => by simp [moreMembers] at h
  | (_, _) :: _, [], _, _, h => by simp [moreMembers] at h
  | (key, v) :: l, (key', w) :: m, _, _, h => by
    simp only [moreMembers, List.cons_append, List.append_assoc, List.cons.injEq, true_and, Token.string.injEq] at h
    obtain ⟨rfl, h⟩ := h
    obtain ⟨rfl, hmore⟩ := tokens_inj v w h
    obtain ⟨rfl, hrest⟩ := moreMembers_inj l m hmore
    exact ⟨rfl, hrest⟩

end

theorem Decodes.unique {text : String} {v w : Value} (hv : Decodes text v) (hw : Decodes text w) : v = w := by
  have h : v.tokens ++ [] = w.tokens ++ [] := by
    rw [List.append_nil, List.append_nil]
    exact Option.some.inj (hv.symm.trans hw)
  exact (tokens_inj v w h).1

/-! ## Parts of a text -/

/-- What follows does not go on with a literal. -/
def Delimited : List Char → Prop
  | [] => True
  | c :: _ => isLiteralChar c = false

/-- A part of a text: in front of anything, it gives the tokens when `ok` holds, and no tokens are read otherwise. -/
structure Reads (text : List Char) (tokens : List Token) (ok : Prop) : Prop where
  reads : ok → ∀ rest, Delimited rest → lex .between (text ++ rest) = (lex .between rest).map (tokens ++ ·)
  refuses : ¬ok → ∀ rest, Delimited rest → lex .between (text ++ rest) = none

theorem Reads.congr {text : List Char} {tokens : List Token} {ok ok' : Prop} (h : Reads text tokens ok)
    (hok : ok' ↔ ok) : Reads text tokens ok' :=
  ⟨fun h' => h.reads (hok.1 h'), fun h' => h.refuses fun h'' => h' (hok.2 h'')⟩

/-- A part behind a part. -/
theorem Reads.append {a b : List Char} {ts us : List Token} {p q : Prop} (ha : Reads a ts p) (hb : Reads b us q)
    (hdelimited : ∀ rest, Delimited rest → Delimited (b ++ rest)) : Reads (a ++ b) (ts ++ us) (p ∧ q) where
  reads h rest hrest := by
    rw [List.append_assoc, ha.reads h.1 _ (hdelimited rest hrest), hb.reads h.2 rest hrest, Option.map_map]
    congr 1
    funext toks
    simp
  refuses h rest hrest := by
    rw [List.append_assoc]
    by_cases hp : p
    · rw [ha.reads hp _ (hdelimited rest hrest), hb.refuses (fun hq => h ⟨hp, hq⟩) rest hrest]
      rfl
    · exact ha.refuses hp _ (hdelimited rest hrest)

theorem reads_nil : Reads [] [] True where
  reads _ rest _ := by simp
  refuses h := absurd trivial h

/-- A part behind a character that is a token. -/
theorem Reads.mark {c : Char} {t : Token} {text : List Char} {ts : List Token} {ok : Prop}
    (hc : lexBetween c = some ([t], .between)) (h : Reads text ts ok) : Reads (c :: text) (t :: ts) ok := by
  have hlex : ∀ cs, lex .between (c :: cs) = (lex .between cs).map (t :: ·) := by
    intro cs
    simp [lex, lexChar, hc]
  constructor
  · intro hok rest hrest
    rw [List.cons_append, hlex, h.reads hok rest hrest, Option.map_map]
    congr 1
  · intro hok rest hrest
    rw [List.cons_append, hlex, h.refuses hok rest hrest]
    rfl

/-- A text is JSON exactly when its parts are. -/
theorem decodes_iff {text : String} {v : Value} {ok : Prop} (h : Reads text.toList v.tokens ok) :
    (Decodes text v ↔ ok) ∧ ((∃ w, Decodes text w) ↔ ok) := by
  have hreads : ok → Decodes text v := fun hok => by
    have hlex := h.reads hok [] trivial
    rw [List.append_nil] at hlex
    rw [Decodes, hlex]
    simp [lex]
  have hrefuses : ∀ w, Decodes text w → ok := fun w hw => by
    by_contra hok
    have hlex := h.refuses hok [] trivial
    rw [List.append_nil] at hlex
    exact nomatch hw.symm.trans hlex
  exact ⟨⟨hrefuses v, hreads⟩, ⟨fun ⟨w, hw⟩ => hrefuses w hw, fun hok => ⟨v, hreads hok⟩⟩⟩

/-! ### Strings -/

/-- What an escape function makes of a character is read as the character, but for some that no string may have. -/
structure Escapes (esc : Char → List Char) (bad : Char → Prop) : Prop where
  reads : ∀ c, ¬bad c → ∀ cs rest, lex (.string cs) (esc c ++ rest) = lex (.string (cs ++ [c])) rest
  refuses : ∀ c, bad c → ∀ cs rest, lex (.string cs) (esc c ++ rest) = none

theorem Escapes.lex_string {esc : Char → List Char} {bad : Char → Prop} (h : Escapes esc bad) {s : List Char}
    (hs : ∀ c ∈ s, ¬bad c) (cs rest : List Char) :
    lex (.string cs) (s.flatMap esc ++ rest) = lex (.string (cs ++ s)) rest := by
  induction s generalizing cs with
  | nil => simp
  | cons c s ih =>
    have hrest := ih (fun d hd => hs d (List.mem_cons_of_mem _ hd)) (cs ++ [c])
    rw [List.flatMap_cons, List.append_assoc, h.reads c (hs c List.mem_cons_self), hrest, List.append_assoc,
      List.singleton_append]

theorem Escapes.lex_bad {esc : Char → List Char} {bad : Char → Prop} (h : Escapes esc bad) {s : List Char}
    (hs : ∃ c ∈ s, bad c) (cs rest : List Char) : lex (.string cs) (s.flatMap esc ++ rest) = none := by
  induction s generalizing cs with
  | nil => simp at hs
  | cons c s ih =>
    rw [List.flatMap_cons, List.append_assoc]
    by_cases hc : bad c
    · exact h.refuses c hc cs _
    · rw [h.reads c hc]
      obtain ⟨d, hd, hbad⟩ := hs
      rcases List.mem_cons.1 hd with rfl | hd
      · exact absurd hbad hc
      · exact ih ⟨d, hd, hbad⟩ _

/-- Short escapes, and every other character as it is. -/
theorem escapes_short {esc : Char → List Char} (h : ∀ c, (esc c = [c] ∧ c ≠ '"' ∧ c ≠ '\\') ∨
    ∃ d, esc c = ['\\', d] ∧ d ≠ 'u' ∧ shortEscape d = some c) :
    Escapes esc fun c => c.toNat < 0x20 ∧ esc c = [c] := by
  constructor
  · intro c hc cs rest
    rcases h c with ⟨hesc, hquote, hbackslash⟩ | ⟨d, hesc, hu, hshort⟩
    · have hraw : ¬c.toNat < 0x20 := fun hlt => hc ⟨hlt, hesc⟩
      simp [hesc, lex, lexChar, hquote, hbackslash, hraw]
    · simp [hesc, lex, lexChar, hu, hshort, Function.comp_def]
  · rintro c ⟨hlt, hesc⟩ cs rest
    rcases h c with ⟨-, hquote, hbackslash⟩ | ⟨d, hesc', -⟩
    · simp [hesc, lex, lexChar, hquote, hbackslash, hlt]
    · simp [hesc] at hesc'

/-- An escaped string between its quotation marks. -/
theorem Escapes.string {esc : Char → List Char} {bad : Char → Prop} (h : Escapes esc bad) (s : String) :
    Reads ('"' :: (s.toList.flatMap esc ++ ['"'])) [.string s] (∀ c ∈ s.toList, ¬bad c) := by
  have hopen : ∀ rest, lex .between ('"' :: (s.toList.flatMap esc ++ ['"']) ++ rest) =
      lex (.string []) (s.toList.flatMap esc ++ '"' :: rest) := by
    intro rest
    show (lex (.string []) (s.toList.flatMap esc ++ ['"'] ++ rest)).map _ = _
    rw [List.append_assoc]
    exact Option.map_id_apply
  constructor
  · intro hs rest _
    rw [hopen, h.lex_string hs]
    show (lexChar (.string ([] ++ s.toList)) '"').bind (fun p => (lex p.2 rest).map (p.1 ++ ·)) = _
    simp [lexChar]
  · intro hs rest _
    rw [hopen]
    apply h.lex_bad
    simpa using hs

/-! ### Literals -/

theorem lexBetween_literal {c : Char} (h : isLiteralChar c = true) : lexBetween c = some ([], .literal [c]) := by
  have hne : ∀ d, isLiteralChar d = false → c ≠ d := fun d hd hcd => by simp [hcd, hd] at h
  simp [lexBetween, isBlank, h, hne ' ' rfl, hne '\t' rfl, hne '\n' rfl, hne '\r' rfl, hne '\x7b' rfl, hne '\x7d' rfl,
    hne '[' rfl, hne ']' rfl, hne ':' rfl, hne ',' rfl, hne '"' rfl]

theorem lex_literal {cs : List Char} (hcs : ∀ c ∈ cs, isLiteralChar c = true) (front : List Char) {rest : List Char}
    (hrest : Delimited rest) :
    lex (.literal front) (cs ++ rest) =
      (literalToken (front ++ cs)).bind fun t => (lex .between rest).map fun ts => t :: ts := by
  induction cs generalizing front with
  | nil =>
    cases rest with
    | nil =>
      rw [List.append_nil, List.append_nil]
      cases hfront : literalToken front <;> simp [lex, hfront]
    | cons c rest =>
      have hc : isLiteralChar c = false := hrest
      simp only [lex, lexChar, hc, List.nil_append, List.append_nil, Bool.false_eq_true, if_false]
      cases literalToken front with
      | none => rfl
      | some t =>
        cases lexBetween c with
        | none => rfl
        | some p => simp [Option.map_map, Function.comp_def]
  | cons c cs ih =>
    have hnext := ih (fun d hd => hcs d (List.mem_cons_of_mem _ hd)) (front ++ [c])
    rw [List.append_assoc, List.singleton_append] at hnext
    rw [← hnext]
    simp [lex, lexChar, hcs c List.mem_cons_self]

/-- A literal with its characters. -/
theorem reads_literal {cs : List Char} {t : Token} (hcs : ∀ c ∈ cs, isLiteralChar c = true) (hne : cs ≠ [])
    (ht : literalToken cs = some t) : Reads cs [t] True where
  reads _ rest hrest := by
    obtain ⟨c, ds, rfl⟩ := List.exists_cons_of_ne_nil hne
    have hmore := lex_literal (fun d hd => hcs d (List.mem_cons_of_mem _ hd)) [c] hrest
    have hc := lexBetween_literal (hcs c List.mem_cons_self)
    rw [List.singleton_append, ht] at hmore
    rw [List.cons_append]
    simp only [lex, lexChar, hc, Option.bind_some, hmore]
    simp [Function.comp_def]
  refuses h := absurd trivial h

/-- Characters of a literal that are none. -/
theorem reads_stray {cs : List Char} (hcs : ∀ c ∈ cs, isLiteralChar c = true) (hne : cs ≠ [])
    (hstray : literalToken cs = none) (ts : List Token) : Reads cs ts False where
  reads := False.elim
  refuses _ rest hrest := by
    obtain ⟨c, ds, rfl⟩ := List.exists_cons_of_ne_nil hne
    have hmore := lex_literal (fun d hd => hcs d (List.mem_cons_of_mem _ hd)) [c] hrest
    have hc := lexBetween_literal (hcs c List.mem_cons_self)
    rw [List.singleton_append, hstray] at hmore
    rw [List.cons_append]
    simp only [lex, lexChar, hc, Option.bind_some, hmore]
    rfl

theorem Reads.bool (b : Bool) : Reads (if b then "true" else "false").toList (Value.bool b).tokens True := by
  cases b
  · exact reads_literal (List.all_eq_true.1 (by decide)) (by decide) (by decide)
  · exact reads_literal (List.all_eq_true.1 (by decide)) (by decide) (by decide)

theorem isLiteralChar_of_isDigit {c : Char} (h : c.isDigit = true) : isLiteralChar c = true := by
  simp [isLiteralChar, Char.isAlphanum, h]

/-- No number but zero begins with the digit zero. -/
theorem head_toDigits {n : Nat} (h : 0 < n) : ∃ c cs, Nat.toDigits 10 n = c :: cs ∧ c ≠ '0' := by
  induction n using Nat.strong_induction_on with
  | _ n ih =>
    by_cases hn : n < 10
    · have hdigit : ∀ m < 10, 0 < m → m.digitChar ≠ '0' := by decide
      exact ⟨n.digitChar, [], Nat.toDigits_of_lt_base hn, hdigit n hn h⟩
    · obtain ⟨c, cs, hcs, hc⟩ := ih (n / 10) (by omega) (by omega)
      refine ⟨c, cs ++ [(n % 10).digitChar], ?_, hc⟩
      rw [Nat.toDigits_of_base_le (by decide) (by omega), hcs]
      rfl

theorem isUnsigned_toDigits (n : Nat) : isUnsigned (Nat.toDigits 10 n) = true := by
  rcases Nat.eq_zero_or_pos n with rfl | hpos
  · decide
  · obtain ⟨c, cs, hcs, hc⟩ := head_toDigits hpos
    have hdigits := fun c => @Decimal.isDigit_of_mem_toDigits n c
    rw [hcs] at hdigits ⊢
    have hdrop : cs.dropWhile Char.isDigit = [] :=
      List.dropWhile_eq_nil_iff.2 fun d hd => hdigits d (List.mem_cons_of_mem _ hd)
    rw [isUnsigned]
    · simp [hdigits c List.mem_cons_self, hdrop, isFraction, isExponent]
    · exact hc

/-- Digits with decimals. -/
theorem isUnsigned_decimals (n : Nat) {ds : List Char} (hne : ds ≠ []) (hds : ∀ c ∈ ds, c.isDigit = true) :
    isUnsigned (Nat.toDigits 10 n ++ '.' :: ds) = true := by
  have hfraction : isFraction ('.' :: ds) = true := by
    rw [isFraction, List.takeWhile_eq_self_iff.2 hds, List.dropWhile_eq_nil_iff.2 hds]
    simp [hne, isExponent]
  rcases Nat.eq_zero_or_pos n with rfl | hpos
  · exact hfraction
  · obtain ⟨c, cs, hcs, hc⟩ := head_toDigits hpos
    have hdigits := fun c => @Decimal.isDigit_of_mem_toDigits n c
    rw [hcs] at hdigits ⊢
    have hdrop : (cs ++ '.' :: ds).dropWhile Char.isDigit = '.' :: ds := by
      rw [List.dropWhile_append_of_pos fun d hd => hdigits d (List.mem_cons_of_mem _ hd)]
      rfl
    rw [List.cons_append, isUnsigned]
    · simp [hdigits c List.mem_cons_self, hdrop, hfraction]
    · exact hc

theorem isNumber_of_isUnsigned {cs : List Char} (h : isUnsigned cs = true) : isNumber cs = true := by
  unfold isNumber
  split
  · exact nomatch h
  · exact h

/-- A number is none of the words. -/
theorem literalToken_number {cs : List Char} (h : isNumber cs = true) : literalToken cs = some (.number cs) := by
  have hne : ∀ ds, isNumber ds = false → cs ≠ ds := fun ds hds hcs => by simp [hcs, hds] at h
  simp [literalToken, h, hne ['t', 'r', 'u', 'e'] rfl, hne ['f', 'a', 'l', 's', 'e'] rfl, hne ['n', 'u', 'l', 'l'] rfl]

/-- A number with decimals, and a sign when it is negative. -/
theorem Reads.decimals (negative : Bool) (n : Nat) {ds : List Char} (hds : ∀ c ∈ ds, c.isDigit = true) :
    let cs := (if negative then ['-'] else []) ++ (Nat.toDigits 10 n ++ if ds = [] then [] else '.' :: ds)
    Reads cs (Value.number cs).tokens True := by
  intro cs
  have hunsigned : isUnsigned (Nat.toDigits 10 n ++ if ds = [] then [] else '.' :: ds) = true := by
    split
    · rw [List.append_nil]
      exact isUnsigned_toDigits n
    · rename_i hne
      exact isUnsigned_decimals n hne hds
  have hchars : ∀ c ∈ Nat.toDigits 10 n ++ (if ds = [] then [] else '.' :: ds), isLiteralChar c = true := by
    rw [List.forall_mem_append]
    refine ⟨fun c hc => isLiteralChar_of_isDigit (Decimal.isDigit_of_mem_toDigits hc), ?_⟩
    split
    · exact nofun
    · exact List.forall_mem_cons.2 ⟨rfl, fun c hc => isLiteralChar_of_isDigit (hds c hc)⟩
  cases negative with
  | true =>
    exact reads_literal (List.forall_mem_cons.2 ⟨rfl, hchars⟩) (by simp [cs]) (literalToken_number hunsigned)
  | false =>
    refine reads_literal hchars ?_ (literalToken_number (isNumber_of_isUnsigned hunsigned))
    exact fun hnil => Nat.toDigits_ne_nil (List.append_eq_nil_iff.1 (List.append_eq_nil_iff.1 hnil).2).1

theorem Reads.int (n : Int) : Reads (toString n).toList (Value.number (toString n).toList).tokens True := by
  have hnone : ∀ c ∈ ([] : List Char), c.isDigit = true := nofun
  rw [Decimal.toList_toString]
  split
  · simpa using Reads.decimals true n.natAbs hnone
  · simpa using Reads.decimals false n.natAbs hnone

/-! ### Lists of parts -/

section

variable {α : Type} {text : α → List Char} {tokens : α → List Token} {ok : α → Prop}

theorem intercalate_cons {β : Type} (sep : β) (l : List β) (ls : List (List β)) :
    [sep].intercalate (l :: ls) = l ++ ls.flatMap (sep :: ·) := by
  induction ls generalizing l with
  | nil => simp
  | cons m ls ih =>
    have hmore := ih m
    simp only [List.intercalate_cons_cons, hmore, List.flatMap_cons]
    simp

theorem delimited_more {close : Char} (hclose : isLiteralChar close = false) (l : List α) (rest : List Char) :
    Delimited (l.flatMap (fun x => ',' :: text x) ++ [close] ++ rest) := by
  cases l with
  | nil => exact hclose
  | cons x l => exact (by decide : isLiteralChar ',' = false)

/-- Parts with a comma in front of each, and the closing bracket. -/
theorem reads_more (close : Char) {t : Token} (hclose : lexBetween close = some ([t], .between))
    (hliteral : isLiteralChar close = false) (l : List α) (h : ∀ x ∈ l, Reads (text x) (tokens x) (ok x)) :
    Reads (l.flatMap (fun x => ',' :: text x) ++ [close]) (l.flatMap (fun x => .comma :: tokens x) ++ [t])
      (∀ x ∈ l, ok x) := by
  induction l with
  | nil => exact (reads_nil.mark hclose).congr (by simp)
  | cons x l ih =>
    have hmore := ih fun y hy => h y (List.mem_cons_of_mem _ hy)
    have hboth := (h x List.mem_cons_self).append hmore fun rest _ => delimited_more hliteral l rest
    have hmark := hboth.mark (show lexBetween ',' = some ([.comma], .between) from rfl)
    rw [List.flatMap_cons, List.flatMap_cons, List.cons_append, List.cons_append, List.append_assoc, List.append_assoc]
    exact hmark.congr List.forall_mem_cons

/-- Parts between brackets, with commas between them. -/
theorem reads_list (opening close : Char) {t t' : Token} (hopen : lexBetween opening = some ([t], .between))
    (hclose : lexBetween close = some ([t'], .between)) (hliteral : isLiteralChar close = false) (l : List α)
    (h : ∀ x ∈ l, Reads (text x) (tokens x) (ok x)) :
    Reads (opening :: ([','].intercalate (l.map text) ++ [close]))
      (t :: ([.comma].intercalate (l.map tokens) ++ [t'])) (∀ x ∈ l, ok x) := by
  cases l with
  | nil => exact ((reads_nil.mark hclose).mark hopen).congr (by simp)
  | cons x l =>
    have hmore := reads_more close hclose hliteral l fun y hy => h y (List.mem_cons_of_mem _ hy)
    have hboth := (h x List.mem_cons_self).append hmore fun rest _ => delimited_more hliteral l rest
    rw [List.map_cons, List.map_cons, intercalate_cons, intercalate_cons, List.append_assoc, List.append_assoc,
      List.flatMap_map, List.flatMap_map]
    exact (hboth.mark hopen).congr List.forall_mem_cons

end

theorem moreItems_eq (l : List Value) : moreItems l = l.flatMap (fun v => .comma :: v.tokens) ++ [.closeBracket] := by
  induction l with
  | nil => rfl
  | cons v l ih => simp [moreItems, ih]

theorem itemsTokens_eq (l : List Value) :
    itemsTokens l = [.comma].intercalate (l.map Value.tokens) ++ [.closeBracket] := by
  cases l with
  | nil => rfl
  | cons v l => simp [itemsTokens, moreItems_eq, intercalate_cons, List.flatMap_map]

/-- The tokens of a member. -/
def memberTokens (m : String × Value) : List Token := .string m.1 :: .colon :: m.2.tokens

theorem moreMembers_eq (l : List (String × Value)) :
    moreMembers l = l.flatMap (fun m => .comma :: memberTokens m) ++ [.closeBrace] := by
  induction l with
  | nil => rfl
  | cons m l ih => simp [moreMembers, memberTokens, ih]

theorem membersTokens_eq (l : List (String × Value)) :
    membersTokens l = [.comma].intercalate (l.map memberTokens) ++ [.closeBrace] := by
  cases l with
  | nil => rfl
  | cons m l => simp [membersTokens, memberTokens, moreMembers_eq, intercalate_cons, List.flatMap_map]

section

variable {α : Type} {text : α → List Char} {ok : α → Prop}

theorem Reads.array (value : α → Value) (l : List α) (h : ∀ x ∈ l, Reads (text x) (value x).tokens (ok x)) :
    Reads ('[' :: ([','].intercalate (l.map text) ++ [']'])) (Value.array (l.map value)).tokens (∀ x ∈ l, ok x) := by
  have hlist := reads_list '[' ']' rfl rfl rfl l h
  rw [Value.tokens, itemsTokens_eq, List.map_map]
  exact hlist

theorem Reads.object (member : α → String × Value) (l : List α)
    (h : ∀ x ∈ l, Reads (text x) (memberTokens (member x)) (ok x)) :
    Reads ('\x7b' :: ([','].intercalate (l.map text) ++ ['\x7d'])) (Value.object (l.map member)).tokens
      (∀ x ∈ l, ok x) := by
  have hlist := reads_list '\x7b' '\x7d' rfl rfl rfl l h
  rw [Value.tokens, membersTokens_eq, List.map_map]
  exact hlist

end

/-- A member with an escaped key. -/
theorem Escapes.member {esc : Char → List Char} {bad : Char → Prop} (h : Escapes esc bad) (key : String)
    {text : List Char} {v : Value} {ok : Prop} (hv : Reads text v.tokens ok) :
    Reads ('"' :: (key.toList.flatMap esc ++ ['"']) ++ ':' :: text) (memberTokens (key, v))
      ((∀ c ∈ key.toList, ¬bad c) ∧ ok) :=
  (h.string key).append (hv.mark rfl) fun _ _ => rfl

/-- A character that stands for itself in a string. -/
def isPlain (c : Char) : Bool := c ≠ '"' && c ≠ '\\' && 0x20 ≤ c.toNat

/-- The characters of a literal are compared once. -/
theorem plain_chars {s : String} {l : List Char} (hs : s = String.ofList l) (hl : l.all isPlain = true) :
    s.toList.all isPlain = true := by
  rw [hs, String.toList_ofList, hl]

theorem lex_plain {s : List Char} (hs : s.all isPlain = true) (cs rest : List Char) :
    lex (.string cs) (s ++ rest) = lex (.string (cs ++ s)) rest := by
  induction s generalizing cs with
  | nil => simp
  | cons c s ih =>
    rw [List.all_cons, Bool.and_eq_true] at hs
    obtain ⟨hc, hs⟩ := hs
    have hmore := ih hs (cs ++ [c])
    rw [List.append_assoc, List.singleton_append] at hmore
    rw [← hmore]
    simp only [isPlain, Bool.and_eq_true, decide_eq_true_eq] at hc
    simp [lex, lexChar, hc.1.1, hc.1.2, show ¬c.toNat < 0x20 by omega]

/-- A member whose key needs no escape. -/
theorem Reads.member {text : List Char} {v : Value} {ok : Prop} (key : String)
    (hkey : key.toList.all isPlain = true) (hv : Reads text v.tokens ok) :
    Reads ('"' :: (key.toList ++ '"' :: ':' :: text)) (memberTokens (key, v)) ok := by
  have hquoted : Reads ('"' :: (key.toList ++ ['"'])) [.string key] True := by
    constructor
    · intro _ rest _
      have hlex := lex_plain hkey [] ('"' :: rest)
      simp [lex, lexChar, lexBetween, isBlank, hlex, Function.comp_def]
    · exact fun h => absurd trivial h
  have hmember := hquoted.append (hv.mark (show lexBetween ':' = some ([.colon], .between) from rfl)) fun _ _ => rfl
  rw [List.cons_append, List.append_assoc] at hmember
  exact hmember.congr (by simp)

/-! ### Objects of known members -/

/-- A member as it is put together, with what it should say. -/
structure MemberPart where
  text : List Char
  member : String × Value
  ok : Prop
  reads : Reads text (memberTokens member) ok

def MemberPart.of {text : List Char} {v : Value} {ok : Prop} (key : String) (hkey : key.toList.all isPlain = true)
    (hv : Reads text v.tokens ok) : MemberPart := ⟨_, (key, v), ok, hv.member key hkey⟩

theorem Reads.members (l : List MemberPart) :
    Reads ('\x7b' :: ([','].intercalate (l.map MemberPart.text) ++ ['\x7d']))
      (Value.object (l.map MemberPart.member)).tokens (∀ m ∈ l, m.ok) :=
  Reads.object MemberPart.member l fun m _ => m.reads

end PudimNetMon.JsonText
