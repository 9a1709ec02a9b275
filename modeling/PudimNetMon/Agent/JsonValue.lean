import PudimNetMon.Lib.JsonMembers
import PudimNetMon.Lib.Search

/-!
# The values of the speed test's output (agent/src/commands.cpp)

`JsonValue` takes what stands behind the first `"key"` and the colon after it. Where that `"key"` is the name of a
member, what it takes is the member's value (`jsonValue_of_first`), and the member may be one of an inner object
(`name_of_server`).
-/

namespace PudimNetMon.Agent.JsonValue

open JsonText

/-! ## The code -/

/-- `needle` -/
def quoted (key : String) : List Char := '"' :: (key.toList ++ ['"'])

/-- What the loop behind the quotation mark puts into `out`. -/
def unescaped : List Char → List Char
  | [] => []
  | '"' :: _ => []
  | '\\' :: c :: rest => c :: unescaped rest
  | c :: rest => c :: unescaped rest

def isEnd (c : Char) : Bool :=
  c == ',' || c == '\x7d' || c == ']' || c == ' ' || c == '\t' || c == '\n' || c == '\r'

def isGap (c : Char) : Bool := c == ' ' || c == '\t'

/-- Behind the colon. -/
def valueAt (rest : List Char) : List Char :=
  match rest.dropWhile isGap with
  | [] => []
  | '"' :: rest => unescaped rest
  | c :: rest => (c :: rest).takeWhile fun c => !isEnd c

def jsonValue (text key : String) : String :=
  match Search.find (quoted key) text.toList with
  | none => ""
  | some (_, found) =>
    match (found.drop (quoted key).length).dropWhile (· ≠ ':') with
    | [] => ""
    | _ :: rest => String.ofList (valueAt rest)

/-! ## Values without parts -/

/-- A string as it is, and the text of anything else. -/
def scalarText : Value → Option String
  | .null => some "null"
  | .bool b => some (if b then "true" else "false")
  | .number literal => some (String.ofList literal)
  | .string s => some s
  | .array _ | .object _ => none

/-- The escapes up to the end of the string are those of a quotation mark, a backslash and a slash. -/
def simpleEscapes : List Char → Bool
  | [] => true
  | '"' :: _ => true
  | '\\' :: c :: rest => (c == '"' || c == '\\' || c == '/') && simpleEscapes rest
  | _ :: rest => simpleEscapes rest

/-- There is no line break between the colon and the value, and a string has simple escapes only. -/
structure Readable (rest : List Char) : Prop where
  gap : ∀ c ∈ rest.takeWhile isBlank, isGap c = true
  escapes : ∀ cs, rest.dropWhile isBlank = '"' :: cs → simpleEscapes cs = true

theorem isBlank_of_isGap {c : Char} (h : isGap c = true) : isBlank c = true := by
  simp only [isGap, Bool.or_eq_true, beq_iff_eq] at h
  rcases h with rfl | rfl <;> rfl

theorem dropWhile_isGap : ∀ {rest : List Char}, (∀ c ∈ rest.takeWhile isBlank, isGap c = true) →
    rest.dropWhile isGap = rest.dropWhile isBlank
  | [], _ => rfl
  | c :: rest, h => by
    by_cases hc : isBlank c = true
    · rw [List.takeWhile_cons_of_pos hc] at h
      rw [List.dropWhile_cons_of_pos hc, List.dropWhile_cons_of_pos (h c List.mem_cons_self)]
      exact dropWhile_isGap fun d hd => h d (List.mem_cons_of_mem c hd)
    · rw [List.dropWhile_cons_of_neg hc, List.dropWhile_cons_of_neg (mt isBlank_of_isGap hc)]

/-! ### Strings -/

theorem toList_of_lex_string {l cs : List Char} {s : String} {more : List Token}
    (h : lex (.string cs) l = some (.string s :: more)) (hl : simpleEscapes l = true) :
    s.toList = cs ++ unescaped l := by
  fun_induction unescaped l generalizing cs with
  | case1 => cases h
  | case2 rest =>
    rw [lex_cons, lexChar, if_pos rfl, Option.bind_some] at h
    obtain ⟨us, -, h⟩ := Option.map_eq_some_iff.1 h
    obtain ⟨hs, -⟩ := List.cons.inj h
    rw [← Token.string.inj hs, String.toList_ofList, List.append_nil]
  | case3 c rest ih =>
    rw [simpleEscapes, Bool.and_eq_true] at hl
    obtain ⟨hc, hl⟩ := hl
    have hshort : c ≠ 'u' ∧ shortEscape c = some c := by
      simp only [Bool.or_eq_true, beq_iff_eq] at hc
      rcases hc with (rfl | rfl) | rfl <;> decide
    have hread : lex (.string cs) ('\\' :: c :: rest) = lex (.string (cs ++ [c])) rest := by
      simp [lex_cons, lexChar, hshort, Function.comp_def]
    rw [hread] at h
    rw [ih h hl, List.append_assoc]
    rfl
  | case4 c rest hquote hescape ih =>
    rw [lex_cons, lexChar, if_neg hquote] at h
    split_ifs at h with hbackslash hcontrol
    · -- the text ends behind the backslash
      cases rest with
      | nil => cases h
      | cons d rest => exact absurd rfl (hescape d rest hbackslash)
    · cases h
    · have hrest : simpleEscapes rest = true := by
        rwa [simpleEscapes] at hl
        · exact hquote
        · exact hescape
      have hread : lex (.string (cs ++ [c])) rest = some (.string s :: more) := by simpa using h
      rw [ih hread hrest, List.append_assoc]
      rfl

/-! ### Values -/

def tokenText : Token → Option String
  | .null => some "null"
  | .bool b => some (if b then "true" else "false")
  | .number literal => some (String.ofList literal)
  | .string s => some s
  | _ => none

/-- A value without parts is one token. -/
theorem tokenText_of_scalar {v : Value} {t : String} (ht : scalarText v = some t) {more rest : List Token}
    {token : Token} (h : v.tokens ++ more = token :: rest) : tokenText token = some t ∧ more = rest := by
  cases v with
  | array _ => cases ht
  | object _ => cases ht
  | _ =>
    obtain ⟨rfl, hmore⟩ := List.cons.inj h
    exact ⟨ht, hmore⟩

theorem tokenText_mark {token : Token} (h : token.isMark = true) : tokenText token = none := by
  cases token <;> first | rfl | cases h

theorem tokenText_literal {cs : List Char} {token : Token} (h : literalToken cs = some token) :
    tokenText token = some (String.ofList cs) := by
  rw [literalToken] at h
  split_ifs at h with htrue hfalse hnull
  · rw [← Option.some.inj h, htrue]
    rfl
  · rw [← Option.some.inj h, hfalse]
    rfl
  · rw [← Option.some.inj h, hnull]
    rfl
  · rw [← Option.some.inj h]
    rfl

theorem not_isEnd_of_literal {c : Char} (hc : isLiteralChar c = true) : isEnd c = false := by
  have hne : ∀ d, isLiteralChar d = false → c ≠ d := fun d hd hcd => by rw [hcd, hd] at hc; cases hc
  simp [isEnd, hne ',' rfl, hne '\x7d' rfl, hne ']' rfl, hne ' ' rfl, hne '\t' rfl, hne '\n' rfl, hne '\r' rfl]

/-- Behind a literal there is an end. -/
theorem isEnd_of_closes {c : Char} {rest : List Char} {more : List Token} (hc : ¬ isLiteralChar c = true)
    (h : lex .between (c :: rest) = some more) (hmore : Closes more) : isEnd c = true := by
  by_cases hblank : isBlank c = true
  · simp only [isBlank, Bool.or_eq_true, beq_iff_eq] at hblank
    rcases hblank with ((rfl | rfl) | rfl) | rfl <;> rfl
  by_cases hquote : c = '"'
  · subst hquote
    obtain ⟨s, us, rfl, -⟩ := exists_string h
    exact absurd hmore (by simp)
  · obtain ⟨token, us, hchar, -, rfl⟩ := exists_mark hblank hquote hc h
    simp only [lexBetween, if_neg hblank] at hchar
    split_ifs at hchar with hc hc hc hc hc hc <;> cases hchar
    · exact absurd hmore (by simp)
    · rw [hc]
      rfl
    · exact absurd hmore (by simp)
    · rw [hc]
      rfl
    · exact absurd hmore (by simp)
    · rw [hc]
      rfl

theorem takeWhile_isEnd : ∀ {body : List Char} {more : List Token},
    lex .between (body.dropWhile isLiteralChar) = some more → Closes more →
      body.takeWhile (fun c => !isEnd c) = body.takeWhile isLiteralChar
  | [], _, _, _ => rfl
  | c :: body, more, h, hmore => by
    by_cases hc : isLiteralChar c = true
    · rw [List.dropWhile_cons_of_pos hc] at h
      rw [List.takeWhile_cons_of_pos hc, List.takeWhile_cons_of_pos (by rw [not_isEnd_of_literal hc]; rfl),
        takeWhile_isEnd h hmore]
    · rw [List.dropWhile_cons_of_neg hc] at h
      rw [List.takeWhile_cons_of_neg hc, List.takeWhile_cons_of_neg (by rw [isEnd_of_closes hc h hmore]; decide)]

theorem valueAt_of_lex {rest : List Char} {v : Value} {more : List Token} {t : String}
    (h : lex .between rest = some (v.tokens ++ more)) (hmore : Closes more) (ht : scalarText v = some t)
    (hread : Readable rest) : valueAt rest = t.toList := by
  rw [valueAt, dropWhile_isGap hread.gap]
  rw [lex_dropWhile] at h
  have hescapes := hread.escapes
  have hblank := List.head?_dropWhile_not isBlank rest
  generalize rest.dropWhile isBlank = body at h hescapes hblank ⊢
  rcases body with _ | ⟨c, body⟩
  · have hnil : v.tokens ++ more = [] := (Option.some.inj h).symm
    rw [(List.append_eq_nil_iff.1 hnil).2] at hmore
    exact absurd hmore not_closes_nil
  by_cases hquote : c = '"'
  · subst hquote
    obtain ⟨s, us, hs, hstring⟩ := exists_string h
    obtain ⟨htext, -⟩ := tokenText_of_scalar ht hs
    obtain rfl := Option.some.inj htext
    exact (toList_of_lex_string hstring (hescapes body rfl)).symm
  by_cases hliteral : isLiteralChar c = true
  · obtain ⟨token, us, htoken, hus, hts⟩ := exists_literal hliteral h
    obtain ⟨htext, rfl⟩ := tokenText_of_scalar ht hts
    have htext' := Option.some.inj ((tokenText_literal htoken).symm.trans htext)
    have hvalue := List.takeWhile_cons_of_pos (p := fun c => !isEnd c) (l := body) (a := c)
      (by rw [not_isEnd_of_literal hliteral]; rfl)
    rw [← htext', String.toList_ofList, ← takeWhile_isEnd hus hmore, ← hvalue]
    split
    · rename_i hnil
      cases hnil
    · rename_i hbody
      exact absurd (List.cons.inj hbody).1 hquote
    · rename_i hbody
      rw [hbody]
  · obtain ⟨token, us, -, hmark, hts⟩ := exists_mark (by simpa using hblank) hquote hliteral h
    obtain ⟨htext, -⟩ := tokenText_of_scalar ht hts
    rw [tokenText_mark hmark] at htext
    cases htext

/-! ## The first occurrence -/

/-- The first occurrence of the quoted key in the text is the name of a member. -/
structure FirstName (text key : String) where
  front : List Char
  blanks : List Char
  rest : List Char
  text_eq : text.toList = front ++ (quoted key ++ (blanks ++ ':' :: rest))
  blank : ∀ c ∈ blanks, isBlank c = true
  first : ¬ quoted key <:+: front ++ (quoted key).dropLast
  /-- The occurrence is a token of the text, and not a part of one. -/
  tokens : List Token
  between : run .between front = some (tokens, .between)
  named : run .between (quoted key) = some ([.string key], .between)

variable {text key : String}

/-- The value behind the first occurrence of the name. -/
theorem jsonValue_eq (n : FirstName text key) : jsonValue text key = String.ofList (valueAt n.rest) := by
  have hne : quoted key ≠ [] := List.cons_ne_nil _ _
  have hcolon : ∀ c ∈ n.blanks, (decide (c ≠ ':')) = true := fun c hc => decide_eq_true fun hc' => by
    have hblank := n.blank c hc
    rw [hc'] at hblank
    cases hblank
  rw [jsonValue, (Search.find_eq_some_iff hne).2 ⟨n.text_eq, n.first⟩]
  simp only [List.drop_left]
  rw [List.dropWhile_append_of_pos hcolon, List.dropWhile_cons_of_neg (by decide)]

/-- The member whose name is found, and its value. -/
theorem FirstName.member {w : Value} (h : Decodes text w) (n : FirstName text key) :
    ∃ v more, (key, v) ∈ w.allMembers ∧ lex .between n.rest = some (v.tokens ++ more) ∧ Closes more := by
  refine member_of_tokens h n.text_eq n.between ?_
  rw [lex_append n.named, lex_blanks n.blank, lex_mark rfl, Option.map_map]
  rfl

/-- **The first match.** Where the first occurrence of the quoted key is the name of a member, of whatever object in the
text, the result is the member's value; where there is no occurrence, there is no result. -/
theorem jsonValue_of_first {w : Value} (h : Decodes text w) :
    (∀ n : FirstName text key, ∃ v, (key, v) ∈ w.allMembers ∧
      (∃ more, lex .between n.rest = some (v.tokens ++ more)) ∧
      ∀ t, scalarText v = some t → Readable n.rest → jsonValue text key = t) ∧
    (¬ quoted key <:+: text.toList → jsonValue text key = "") := by
  constructor
  · intro n
    obtain ⟨v, more, hv, hread, hmore⟩ := n.member h
    refine ⟨v, hv, ⟨more, hread⟩, fun t ht hreadable => ?_⟩
    rw [jsonValue_eq n, valueAt_of_lex hread hmore ht hreadable, String.ofList_toList]
  · intro hno
    rw [jsonValue, Search.find_eq_none_iff.2 hno]

/-- A result with a server and, behind it, a name of its own. -/
def serverResult : String := "\x7b\"server\":\x7b\"name\":\"Oslo\"\x7d,\"name\":\"home\"\x7d"

def serverMembers : List (String × Value) :=
  [("server", .object [("name", .string "Oslo")]), ("name", .string "home")]

theorem decodes_serverResult : Decodes serverResult (.object serverMembers) := by
  show lex .between serverResult.toList = some (Value.object serverMembers).tokens
  decide +kernel

/-- The server's name is the first one. -/
def serverName : FirstName serverResult "name" where
  front := "\x7b\"server\":\x7b".toList
  blanks := []
  rest := "\"Oslo\"\x7d,\"name\":\"home\"\x7d".toList
  text_eq := by decide +kernel
  blank := List.all_eq_true.1 rfl
  first := Search.find_eq_none_iff.1 (by decide +kernel)
  tokens := [.openBrace, .string "server", .colon, .openBrace]
  between := by decide +kernel
  named := by decide +kernel

theorem readable_serverName : Readable serverName.rest where
  gap := List.all_eq_true.1 (by decide +kernel)
  escapes cs h := by
    have hrest : serverName.rest.dropWhile isBlank = '"' :: "Oslo\"\x7d,\"name\":\"home\"\x7d".toList := by
      decide +kernel
    obtain ⟨-, rfl⟩ := List.cons.inj (h.symm.trans hrest)
    decide +kernel

theorem jsonValue_of_first_server :
    jsonValue serverResult "name" = "Oslo" ∧ jsonValue serverResult "isp" = "" := by
  have h := fun key => @jsonValue_of_first serverResult key _ decodes_serverResult
  obtain ⟨v, -, ⟨more, hread⟩, hvalue⟩ := (h "name").1 serverName
  have hoslo : lex .between serverName.rest = some ((Value.string "Oslo").tokens ++
      [.closeBrace, .comma, .string "name", .colon, .string "home", .closeBrace]) := by decide +kernel
  obtain ⟨rfl, -⟩ := tokens_inj _ _ (Option.some.inj (hread.symm.trans hoslo))
  exact ⟨hvalue "Oslo" rfl readable_serverName, (h "isp").2 (Search.find_eq_none_iff.1 (by decide +kernel))⟩

/-- The member of the object itself is not found, and a name that is a value finds the value of another member. -/
theorem name_of_server :
    Decodes serverResult (.object serverMembers) ∧
      (("name", .string "home") ∈ serverMembers ∧ jsonValue serverResult "name" = "Oslo") ∧
      (∀ v, ("Oslo", v) ∉ (Value.object serverMembers).allMembers) ∧ jsonValue serverResult "Oslo" = "home" := by
  refine ⟨decodes_serverResult, ⟨by simp [serverMembers], by decide +kernel⟩, fun v => ?_, by decide +kernel⟩
  simp [serverMembers, Value.allMembers, membersMembers]

end PudimNetMon.Agent.JsonValue
