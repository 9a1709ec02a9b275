/-!
# Tokens of a POSIX shell line

A one-pass scan in the order of the POSIX token rules: quoting, operators by maximal munch, blanks, comments and
words. A word keeps which of its characters were quoted. A line in which the shell would expand something (`$`
or a backquote outside single quotes), or with an unterminated quote, has no tokens here. A NUL ends a line, as it ends
the string given to the shell.

- `scan_plainWord`: ordinary characters make one plain word;
- `wordsOk_tokens`: the unquoted characters of every word are ordinary, and none begins a comment;
- `keepsStructure_iff`: a text put into a line is one plain word of it exactly when it is made of such characters.
-/

namespace PudimNetMon.Shell

inductive Part
  | plain (c : Char)
  | quoted (c : Char)
  /-- An opening quotation mark. -/
  | quotes
  deriving DecidableEq, Repr

abbrev Word := List Part

/-- The word of unquoted characters. -/
def plainWord (cs : List Char) : Word := cs.map .plain

inductive Token
  | word (w : Word)
  /-- The digits in front of a redirection. -/
  | ioNumber (w : Word)
  | op (s : List Char)
  deriving DecidableEq, Repr

def isBlank (c : Char) : Bool := c == ' ' || c == '\t'

def isOperatorChar (c : Char) : Bool := c ∈ ['\n', '|', '&', ';', '<', '>', '(', ')']

/-- The operators of more than one character. -/
def isLongOperator (s : List Char) : Bool :=
  s ∈ ["&&", "||", ";;", "<<", ">>", "<&", ">&", "<>", ">|", "<<-"].map String.toList

/-- `'`, `"`, the backslash, `$`, the backquote and NUL. -/
def isQuoting (c : Char) : Bool := c ∈ ['\'', '"', '\\', '$', '`', '\x00']

/-- A character that stands for itself inside a word. -/
def isOrdinary (c : Char) : Bool := !isBlank c && !isOperatorChar c && !isQuoting c

/-- Where the scan stands; the word or operator under construction. -/
inductive Mode
  | blank
  | word (w : Word)
  /-- Behind a backslash, inside a word or in front of one. -/
  | escape (w : Word)
  | single (w : Word)
  | double (w : Word)
  | doubleEscape (w : Word)
  | op (s : List Char)
  | comment
  | ended
  | failed
  deriving DecidableEq, Repr

structure State where
  toks : List Token := []
  mode : Mode := .blank
  deriving DecidableEq, Repr

/-- A character in a word. -/
def wordChar (toks : List Token) (w : Word) (c : Char) : State :=
  if c = '\\' then ⟨toks, .escape w⟩
  else if c = '\'' then ⟨toks, .single (w ++ [.quotes])⟩
  else if c = '"' then ⟨toks, .double (w ++ [.quotes])⟩
  else if c = '$' ∨ c = '`' then ⟨toks, .failed⟩
  else ⟨toks, .word (w ++ [.plain c])⟩

/-- A character in front of a token. -/
def tokenChar (toks : List Token) (c : Char) : State :=
  if isBlank c then ⟨toks, .blank⟩
  else if isOperatorChar c then ⟨toks, .op [c]⟩
  else if c = '#' then ⟨toks, .comment⟩
  else wordChar toks [] c

def isPlainDigit : Part → Bool
  | .plain c => c.isDigit
  | _ => false

/-- A word in front of an operator. -/
def wordToken (w : Word) (c : Char) : Token :=
  if (c = '<' ∨ c = '>') ∧ w.all isPlainDigit then .ioNumber w else .word w

/-- The end of the line. -/
def endLine (st : State) : State :=
  match st.mode with
  | .blank | .comment | .ended => ⟨st.toks, .ended⟩
  | .word w => ⟨st.toks ++ [.word w], .ended⟩
  | .op s => ⟨st.toks ++ [.op s], .ended⟩
  | .escape _ | .single _ | .double _ | .doubleEscape _ | .failed => ⟨st.toks, .failed⟩

/-- One character. -/
def scanChar (st : State) (c : Char) : State :=
  if c = '\x00' then endLine st
  else
    match st.mode with
    | .blank => tokenChar st.toks c
    | .word w =>
      if isBlank c then ⟨st.toks ++ [.word w], .blank⟩
      else if isOperatorChar c then ⟨st.toks ++ [wordToken w c], .op [c]⟩
      else wordChar st.toks w c
    | .escape w =>
      if c = '\n' then ⟨st.toks, if w = [] then .blank else .word w⟩ else ⟨st.toks, .word (w ++ [.quoted c])⟩
    | .single w => if c = '\'' then ⟨st.toks, .word w⟩ else ⟨st.toks, .single (w ++ [.quoted c])⟩
    | .double w =>
      if c = '"' then ⟨st.toks, .word w⟩
      else if c = '\\' then ⟨st.toks, .doubleEscape w⟩
      else if c = '$' ∨ c = '`' then ⟨st.toks, .failed⟩
      else ⟨st.toks, .double (w ++ [.quoted c])⟩
    | .doubleEscape w =>
      if c = '\n' then ⟨st.toks, .double w⟩
      else if c ∈ ['$', '`', '"', '\\'] then ⟨st.toks, .double (w ++ [.quoted c])⟩
      else ⟨st.toks, .double (w ++ [.quoted '\\', .quoted c])⟩
    | .op s =>
      if isLongOperator (s ++ [c]) then ⟨st.toks, .op (s ++ [c])⟩ else tokenChar (st.toks ++ [.op s]) c
    | .comment => if c = '\n' then ⟨st.toks, .op ['\n']⟩ else st
    | .ended | .failed => st

def scan (st : State) (cs : List Char) : State := cs.foldl scanChar st

/-- The tokens of a line in which the shell expands nothing. -/
def tokens (cs : List Char) : Option (List Token) :=
  match endLine (scan { } cs) with
  | ⟨toks, .ended⟩ => some toks
  | _ => none

example : tokens "a 'b;c' 2>&1".toList = some [.word [.plain 'a'],
    .word [.quotes, .quoted 'b', .quoted ';', .quoted 'c'], .ioNumber [.plain '2'], .op ['>', '&'],
    .word [.plain '1']] := by decide

/-! ## Scans -/

@[simp] theorem scan_nil (st : State) : scan st [] = st := rfl

@[simp] theorem scan_cons (st : State) (c : Char) (cs : List Char) : scan st (c :: cs) = scan (scanChar st c) cs := rfl

theorem scan_append (st : State) (cs ds : List Char) : scan st (cs ++ ds) = scan (scan st cs) ds := List.foldl_append

theorem tokens_eq_some {cs : List Char} {toks : List Token} :
    tokens cs = some toks ↔ endLine (scan { } cs) = ⟨toks, .ended⟩ := by
  unfold tokens
  split
  · rename_i heq
    simp [heq]
  · rename_i hne
    exact ⟨nofun, fun h => absurd h (hne toks)⟩

/-- The state with more tokens in front. -/
def State.behind (st : State) (toks : List Token) : State := ⟨toks ++ st.toks, st.mode⟩

theorem tokenChar_behind (front toks : List Token) (c : Char) :
    tokenChar (front ++ toks) c = (tokenChar toks c).behind front := by
  unfold tokenChar wordChar State.behind
  repeat' split
  all_goals rfl

theorem wordChar_behind (front toks : List Token) (w : Word) (c : Char) :
    wordChar (front ++ toks) w c = (wordChar toks w c).behind front := by
  unfold wordChar State.behind
  repeat' split
  all_goals rfl

theorem endLine_behind (front : List Token) (st : State) : endLine (st.behind front) = (endLine st).behind front := by
  obtain ⟨toks, mode⟩ := st
  cases mode <;> simp [endLine, State.behind]

/-- Tokens already read do not matter for what follows. -/
theorem scanChar_behind (front : List Token) (st : State) (c : Char) :
    scanChar (st.behind front) c = (scanChar st c).behind front := by
  unfold scanChar
  by_cases hnul : c = '\x00'
  · simp only [if_pos hnul, endLine_behind]
  · simp only [if_neg hnul]
    obtain ⟨toks, mode⟩ := st
    cases mode with
    | blank => exact tokenChar_behind front toks c
    | word w =>
      simp only [State.behind]
      split
      · simp
      · split
        · simp
        · exact wordChar_behind front toks w c
    | op s =>
      simp only [State.behind]
      split
      · rfl
      · rw [List.append_assoc]
        exact tokenChar_behind front (toks ++ [.op s]) c
    | escape w =>
      simp only [State.behind]
      split <;> rfl
    | single w =>
      simp only [State.behind]
      split <;> rfl
    | double w =>
      simp only [State.behind]
      repeat' split
      all_goals rfl
    | doubleEscape w =>
      simp only [State.behind]
      repeat' split
      all_goals rfl
    | comment =>
      simp only [State.behind]
      split <;> rfl
    | ended => rfl
    | failed => rfl

theorem scan_behind (front : List Token) (cs : List Char) (st : State) :
    scan (st.behind front) cs = (scan st cs).behind front := by
  induction cs generalizing st with
  | nil => rfl
  | cons c cs ih => rw [scan_cons, scanChar_behind, ih, scan_cons]

/-! ## Ordinary characters -/

theorem isOrdinary_spec {c : Char} (h : isOrdinary c = true) :
    isBlank c = false ∧ isOperatorChar c = false ∧ c ≠ '\'' ∧ c ≠ '"' ∧ c ≠ '\\' ∧ c ≠ '$' ∧ c ≠ '`' ∧ c ≠ '\x00' := by
  simp only [isOrdinary, Bool.and_eq_true, Bool.not_eq_true'] at h
  obtain ⟨⟨hb, ho⟩, hq⟩ := h
  simp only [isQuoting, decide_eq_false_iff_not, List.mem_cons, not_or] at hq
  exact ⟨hb, ho, hq.1, hq.2.1, hq.2.2.1, hq.2.2.2.1, hq.2.2.2.2.1, hq.2.2.2.2.2.1⟩

/-- An ordinary character continues a word. -/
theorem scanChar_word {toks : List Token} {w : Word} {c : Char} (h : isOrdinary c = true) :
    scanChar ⟨toks, .word w⟩ c = ⟨toks, .word (w ++ [.plain c])⟩ := by
  obtain ⟨hb, ho, h1, h2, h3, h4, h5, h6⟩ := isOrdinary_spec h
  simp [scanChar, wordChar, hb, ho, h1, h2, h3, h4, h5, h6]

/-- An ordinary character in front of a token starts a word, unless it starts a comment. -/
theorem scanChar_blank {toks : List Token} {c : Char} (h : isOrdinary c = true) (hc : c ≠ '#') :
    scanChar ⟨toks, .blank⟩ c = ⟨toks, .word [.plain c]⟩ := by
  obtain ⟨hb, ho, h1, h2, h3, h4, h5, h6⟩ := isOrdinary_spec h
  simp [scanChar, tokenChar, wordChar, hb, ho, hc, h1, h2, h3, h4, h5, h6]

theorem scan_word {toks : List Token} {cs : List Char} (w : Word) (h : ∀ c ∈ cs, isOrdinary c = true) :
    scan ⟨toks, .word w⟩ cs = ⟨toks, .word (w ++ plainWord cs)⟩ := by
  induction cs generalizing w with
  | nil => simp [plainWord]
  | cons c cs ih =>
    rw [scan_cons, scanChar_word (h c List.mem_cons_self), ih _ fun d hd => h d (List.mem_cons_of_mem _ hd)]
    simp [plainWord]

/-- A text that is one plain word between blanks. -/
def IsPlain (cs : List Char) : Prop := cs ≠ [] ∧ (∀ c ∈ cs, isOrdinary c = true) ∧ cs.head? ≠ some '#'

instance (cs : List Char) : Decidable (IsPlain cs) := inferInstanceAs (Decidable (_ ∧ _))

/-- A plain text and a blank. -/
theorem scan_plainWord {toks : List Token} {cs : List Char} (h : IsPlain cs) :
    scan ⟨toks, .blank⟩ (cs ++ [' ']) = ⟨toks ++ [.word (plainWord cs)], .blank⟩ := by
  obtain ⟨hne, hord, hhead⟩ := h
  obtain ⟨c, cs, rfl⟩ := List.exists_cons_of_ne_nil hne
  have hc : c ≠ '#' := fun e => hhead (by rw [e]; rfl)
  rw [scan_append, scan_cons _ c cs, scanChar_blank (hord c List.mem_cons_self) hc,
    scan_word _ fun d hd => hord d (List.mem_cons_of_mem _ hd)]
  simp [scanChar, isBlank, plainWord]

/-! ## The words of a line -/

/-- The unquoted characters of the word are ordinary, and none begins a comment. -/
structure WordOk (w : Word) : Prop where
  ordinary : ∀ c, .plain c ∈ w → isOrdinary c = true
  head : w.head? ≠ some (.plain '#')

def Token.Ok : Token → Prop
  | .word w | .ioNumber w => WordOk w
  | .op _ => True

/-- Only behind a backslash may a word still be empty. -/
def Mode.Ok : Mode → Prop
  | .word w | .single w | .double w | .doubleEscape w => WordOk w ∧ w ≠ []
  | .escape w => WordOk w
  | _ => True

structure State.Ok (st : State) : Prop where
  toks : ∀ t ∈ st.toks, t.Ok
  mode : st.mode.Ok

theorem wordOk_nil : WordOk [] := ⟨fun _ h => absurd h List.not_mem_nil, by simp⟩

/-- A word grows by parts that are not plain. -/
theorem WordOk.append {w v : Word} (h : WordOk w) (hv : ∀ p ∈ v, ∀ c, p ≠ .plain c) : WordOk (w ++ v) := by
  refine ⟨fun c hc => ?_, ?_⟩
  · rcases List.mem_append.1 hc with hc | hc
    · exact h.ordinary c hc
    · exact absurd rfl (hv _ hc c)
  · cases w with
    | nil =>
      intro hhead
      exact hv _ (List.mem_of_mem_head? hhead) '#' rfl
    | cons p w => exact h.head

/-- A word grows by an ordinary character that does not begin a comment. -/
theorem WordOk.snoc {w : Word} (h : WordOk w) {c : Char} (hc : isOrdinary c = true) (hhead : w = [] → c ≠ '#') :
    WordOk (w ++ [.plain c]) := by
  refine ⟨fun d hd => ?_, ?_⟩
  · rcases List.mem_append.1 hd with hd | hd
    · exact h.ordinary d hd
    · cases List.mem_singleton.1 hd
      exact hc
  · cases w with
    | nil => simpa using hhead rfl
    | cons p w => exact h.head

theorem WordOk.quoted {w : Word} (h : WordOk w) (cs : List Char) : WordOk (w ++ cs.map .quoted) :=
  h.append fun p hp d => by
    obtain ⟨q, -, rfl⟩ := List.mem_map.1 hp
    nofun

theorem wordChar_ok {toks : List Token} {w : Word} {c : Char} (ht : ∀ t ∈ toks, t.Ok) (hw : WordOk w)
    (hb : isBlank c = false) (ho : isOperatorChar c = false) (hnul : c ≠ '\x00') (hhead : w = [] → c ≠ '#') :
    (wordChar toks w c).Ok := by
  have hquotes : WordOk (w ++ [.quotes]) ∧ w ++ [.quotes] ≠ [] := by
    refine ⟨hw.append fun p hp d => ?_, by simp⟩
    rw [List.mem_singleton.1 hp]
    nofun
  unfold wordChar
  split
  · exact ⟨ht, hw⟩
  split
  · exact ⟨ht, hquotes⟩
  split
  · exact ⟨ht, hquotes⟩
  split
  · exact ⟨ht, trivial⟩
  · rename_i h1 h2 h3 h4
    rw [not_or] at h4
    refine ⟨ht, hw.snoc ?_ hhead, by simp⟩
    simp [isOrdinary, isQuoting, hb, ho, h1, h2, h3, h4, hnul]

theorem tokenChar_ok {toks : List Token} {c : Char} (ht : ∀ t ∈ toks, t.Ok) (hnul : c ≠ '\x00') :
    (tokenChar toks c).Ok := by
  unfold tokenChar
  split
  · exact ⟨ht, trivial⟩
  split
  · exact ⟨ht, trivial⟩
  split
  · exact ⟨ht, trivial⟩
  · rename_i hb ho hhash
    exact wordChar_ok ht wordOk_nil (by simpa using hb) (by simpa using ho) hnul fun _ => hhash

theorem ok_snoc {toks : List Token} {t : Token} (ht : ∀ t ∈ toks, t.Ok) (h : t.Ok) : ∀ u ∈ toks ++ [t], u.Ok := by
  intro u hu
  rcases List.mem_append.1 hu with hu | hu
  · exact ht u hu
  · rw [List.mem_singleton.1 hu]
    exact h

theorem wordToken_ok {w : Word} (h : WordOk w) (c : Char) : (wordToken w c).Ok := by
  unfold wordToken
  split <;> exact h

theorem endLine_ok {st : State} (h : st.Ok) : (endLine st).Ok := by
  obtain ⟨toks, mode⟩ := st
  cases mode with
  | word w => exact ⟨ok_snoc h.toks h.mode.1, trivial⟩
  | op s => exact ⟨ok_snoc h.toks trivial, trivial⟩
  | _ => exact ⟨h.toks, trivial⟩

/-- **One character.** It keeps all words ordinary. -/
theorem scanChar_ok {st : State} (h : st.Ok) (c : Char) : (scanChar st c).Ok := by
  unfold scanChar
  by_cases hnul : c = '\x00'
  · rw [if_pos hnul]
    exact endLine_ok h
  rw [if_neg hnul]
  obtain ⟨toks, mode⟩ := st
  cases mode with
  | blank => exact tokenChar_ok h.toks hnul
  | word w =>
    obtain ⟨hw, hne⟩ : WordOk w ∧ w ≠ [] := h.mode
    dsimp only
    split
    · exact ⟨ok_snoc h.toks hw, trivial⟩
    split
    · exact ⟨ok_snoc h.toks (wordToken_ok hw c), trivial⟩
    · rename_i hb ho
      exact wordChar_ok h.toks hw (by simpa using hb) (by simpa using ho) hnul fun e => absurd e hne
  | escape w =>
    have hw : WordOk w := h.mode
    dsimp only
    split
    · refine ⟨h.toks, ?_⟩
      dsimp only
      split
      · trivial
      · rename_i hne
        exact ⟨hw, hne⟩
    · exact ⟨h.toks, hw.quoted [c], by simp⟩
  | single w =>
    have hw : WordOk w ∧ w ≠ [] := h.mode
    dsimp only
    split
    · exact ⟨h.toks, hw⟩
    · exact ⟨h.toks, hw.1.quoted [c], by simp⟩
  | double w =>
    have hw : WordOk w ∧ w ≠ [] := h.mode
    dsimp only
    split
    · exact ⟨h.toks, hw⟩
    split
    · exact ⟨h.toks, hw⟩
    split
    · exact ⟨h.toks, trivial⟩
    · exact ⟨h.toks, hw.1.quoted [c], by simp⟩
  | doubleEscape w =>
    have hw : WordOk w ∧ w ≠ [] := h.mode
    dsimp only
    split
    · exact ⟨h.toks, hw⟩
    split
    · exact ⟨h.toks, hw.1.quoted [c], by simp⟩
    · exact ⟨h.toks, hw.1.quoted ['\\', c], by simp⟩
  | op s =>
    dsimp only
    split
    · exact ⟨h.toks, trivial⟩
    · exact tokenChar_ok (ok_snoc h.toks trivial) hnul
  | comment =>
    dsimp only
    split
    · exact ⟨h.toks, trivial⟩
    · exact h
  | ended => exact h
  | failed => exact h

theorem scan_ok (cs : List Char) {st : State} (h : st.Ok) : (scan st cs).Ok := by
  induction cs generalizing st with
  | nil => exact h
  | cons c cs ih => exact ih (scanChar_ok h c)

/-- **Words.** The unquoted characters of a line's words are ordinary, and none begins a comment. -/
theorem wordsOk_tokens {cs : List Char} {toks : List Token} (h : tokens cs = some toks) : ∀ t ∈ toks, t.Ok := by
  have hok : (endLine (scan { } cs)).Ok :=
    endLine_ok (scan_ok cs ⟨fun _ ht => absurd ht List.not_mem_nil, trivial⟩)
  rw [tokens_eq_some.1 h] at hok
  exact hok.toks

/-! ## Texts put into a line -/

/-- The line `pre ++ affix ++ v ++ " " ++ post` with a place for a text `v` at the end of a word that starts with
`affix`: what stands in front ends between two words, and what follows has tokens. -/
structure Place where
  pre : List Char
  affix : List Char
  post : List Char
  pre_blank : (scan { } pre).mode = .blank
  affix_ok : (∀ c ∈ affix, isOrdinary c = true) ∧ affix.head? ≠ some '#'
  post_ok : (tokens post).isSome

def Place.line (p : Place) (v : List Char) : List Char := p.pre ++ (p.affix ++ v ++ ([' '] ++ p.post))

/-- The line has one more plain word, and the rest of its tokens are those it has with any letters and digits in the
place of `v`. -/
def KeepsStructure (line : List Char → List Char) (affix v : List Char) : Prop :=
  ∃ before after, ∀ w, w = v ∨ (w ≠ [] ∧ ∀ c ∈ w, c.isAlphanum = true) →
    tokens (line w) = some (before ++ .word (plainWord (affix ++ w)) :: after)

/-- A plain word in the place. -/
theorem Place.tokens_line (p : Place) : ∃ before after, ∀ w, IsPlain (p.affix ++ w) →
    tokens (p.line w) = some (before ++ .word (plainWord (p.affix ++ w)) :: after) := by
  obtain ⟨after, hafter⟩ := Option.isSome_iff_exists.1 p.post_ok
  refine ⟨(scan { } p.pre).toks, after, fun w hw => ?_⟩
  have hpre : scan { } p.pre = ⟨(scan { } p.pre).toks, .blank⟩ :=
    congrArg (State.mk (scan { } p.pre).toks) p.pre_blank
  have hword := @scan_plainWord (scan { } p.pre).toks _ hw
  rw [tokens_eq_some, Place.line, ← List.append_assoc (p.affix ++ w), scan_append, hpre, scan_append, hword]
  have hrest : (⟨(scan { } p.pre).toks ++ [.word (plainWord (p.affix ++ w))], .blank⟩ : State) =
      ({ } : State).behind ((scan { } p.pre).toks ++ [.word (plainWord (p.affix ++ w))]) := by
    simp [State.behind]
  rw [hrest, scan_behind, endLine_behind, tokens_eq_some.1 hafter]
  simp [State.behind]

theorem isOrdinary_of_isAlphanum {c : Char} (h : c.isAlphanum = true) : isOrdinary c = true ∧ c ≠ '#' := by
  have hne : ∀ d : Char, d.isAlphanum = false → c ≠ d := by
    rintro d hd rfl
    rw [hd] at h
    cases h
  refine ⟨?_, hne _ (by decide)⟩
  simp [isOrdinary, isBlank, isOperatorChar, isQuoting, hne ' ' (by decide), hne '\t' (by decide),
    hne '\n' (by decide), hne '|' (by decide), hne '&' (by decide), hne ';' (by decide), hne '<' (by decide),
    hne '>' (by decide), hne '(' (by decide), hne ')' (by decide), hne '\'' (by decide), hne '"' (by decide),
    hne '\\' (by decide), hne '$' (by decide), hne '`' (by decide), hne '\x00' (by decide)]

/-- **Structure.** A text keeps the structure of the line exactly when its characters are ordinary and the word does
not begin a comment. -/
theorem keepsStructure_iff (p : Place) {v : List Char} (hv : v ≠ []) :
    KeepsStructure p.line p.affix v ↔ (∀ c ∈ v, isOrdinary c = true) ∧ (p.affix ++ v).head? ≠ some '#' := by
  constructor
  · rintro ⟨before, after, htoks⟩
    have hok : WordOk (plainWord (p.affix ++ v)) :=
      wordsOk_tokens (htoks v (.inl rfl)) (.word (plainWord (p.affix ++ v))) (by simp)
    refine ⟨fun c hc => hok.ordinary c (List.mem_map_of_mem (List.mem_append_right _ hc)), fun hhead => ?_⟩
    exact hok.head (by rw [plainWord, List.head?_map, hhead]; rfl)
  · rintro ⟨hord, hhead⟩
    obtain ⟨before, after, htoks⟩ := p.tokens_line
    have hplain : ∀ w, w ≠ [] → (∀ c ∈ w, isOrdinary c = true) → (p.affix ++ w).head? ≠ some '#' →
        IsPlain (p.affix ++ w) := by
      intro w hne hw hwhead
      refine ⟨List.append_ne_nil_of_right_ne_nil _ hne, fun c hc => ?_, hwhead⟩
      rcases List.mem_append.1 hc with hc | hc
      · exact p.affix_ok.1 c hc
      · exact hw c hc
    refine ⟨before, after, fun w hw => htoks w ?_⟩
    rcases hw with rfl | ⟨hne, halnum⟩
    · exact hplain w hv hord hhead
    · refine hplain w hne (fun c hc => (isOrdinary_of_isAlphanum (halnum c hc)).1) ?_
      cases haffix : p.affix with
      | cons a as =>
        have hhead := p.affix_ok.2
        rw [haffix] at hhead
        exact hhead
      | nil =>
        obtain ⟨c, w, rfl⟩ := List.exists_cons_of_ne_nil hne
        simpa using (isOrdinary_of_isAlphanum (halnum c List.mem_cons_self)).2

/-! ## Building lines -/

/-- A text that leads from one place between words to another. -/
def Between (cs : List Char) : Prop := ∀ toks, (scan ⟨toks, .blank⟩ cs).mode = .blank

theorem between_of_scan {cs : List Char} (h : (scan { } cs).mode = .blank) : Between cs := by
  intro toks
  have hbehind := scan_behind toks cs { }
  rw [State.behind, List.append_nil] at hbehind
  rw [hbehind]
  exact h

theorem Between.append {cs ds : List Char} (hc : Between cs) (hd : Between ds) : Between (cs ++ ds) := by
  intro toks
  have hmid : scan ⟨toks, .blank⟩ cs = ⟨(scan ⟨toks, .blank⟩ cs).toks, .blank⟩ :=
    congrArg (State.mk (scan ⟨toks, .blank⟩ cs).toks) (hc toks)
  rw [scan_append, hmid]
  exact hd _

theorem between_plain {cs : List Char} (h : IsPlain cs) : Between (cs ++ [' ']) := fun toks => by
  rw [scan_plainWord h]

/-- A letter, a digit or a character of numbers and paths. -/
def isNameChar (c : Char) : Bool := c.isAlphanum || c ∈ ['.', '-', '/', '_']

theorem isOrdinary_of_isNameChar {c : Char} (h : isNameChar c = true) : isOrdinary c = true ∧ c ≠ '#' := by
  simp only [isNameChar, Bool.or_eq_true, decide_eq_true_eq] at h
  rcases h with h | h
  · exact isOrdinary_of_isAlphanum h
  · simp only [List.mem_cons, List.not_mem_nil, or_false] at h
    rcases h with rfl | rfl | rfl | rfl <;> decide

/-- A text of such characters and a blank, the text possibly empty. -/
theorem between_name {cs : List Char} (h : ∀ c ∈ cs, isNameChar c = true) : Between (cs ++ [' ']) := by
  cases cs with
  | nil => exact between_of_scan (by decide)
  | cons c cs =>
    refine between_plain ⟨by simp, fun d hd => (isOrdinary_of_isNameChar (h d hd)).1, ?_⟩
    simpa using (isOrdinary_of_isNameChar (h c List.mem_cons_self)).2

theorem isNameChar_nat (n : Nat) : ∀ c ∈ (toString n).toList, isNameChar c = true := by
  intro c hc
  rw [show (toString n).toList = Nat.toDigits 10 n from Nat.toList_repr] at hc
  have hdigit := Nat.isDigit_of_mem_toDigits (by decide) (by decide) hc
  simp [isNameChar, Char.isAlphanum, hdigit]

theorem isNameChar_int (i : Int) : ∀ c ∈ (toString i).toList, isNameChar c = true := by
  intro c hc
  rw [Int.toString_eq_repr, Int.repr_eq_if] at hc
  split at hc
  · exact isNameChar_nat _ c hc
  · rw [String.toList_append] at hc
    rcases List.mem_append.1 hc with hc | hc
    · rw [show "-".toList = ['-'] from rfl, List.mem_singleton] at hc
      rw [hc]
      decide
    · exact isNameChar_nat _ c hc

/-- What follows between two words still has tokens. -/
theorem tokens_between {cs ds : List Char} (hc : Between cs) (hd : (tokens ds).isSome) :
    (tokens (cs ++ ds)).isSome := by
  obtain ⟨toks, htoks⟩ := Option.isSome_iff_exists.1 hd
  have hmid : scan { } cs = ({ } : State).behind (scan { } cs).toks := by
    rw [State.behind, List.append_nil]
    exact congrArg (State.mk (scan { } cs).toks) (hc [])
  refine Option.isSome_iff_exists.2 ⟨(scan { } cs).toks ++ toks, ?_⟩
  rw [tokens_eq_some, scan_append, hmid, scan_behind, endLine_behind, tokens_eq_some.1 htoks]
  simp [State.behind]

end PudimNetMon.Shell
