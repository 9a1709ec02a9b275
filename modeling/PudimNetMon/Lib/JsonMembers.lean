import PudimNetMon.Lib.JsonText

/-!
# Members of a JSON text

`run` reads a piece of a text and stops where the piece ends; `lex` goes on from there (`lex_append`). A key with a
colon behind it is the name of a member, wherever in the value it stands, and the member's own value is what follows
(`member_of_tokens`).

- `Named l members`: the keys in front of colons in `l` are names of `members`;
- `exists_string`, `exists_mark`, `exists_literal`: the first token, by the first character.
-/

namespace PudimNetMon.JsonText

/-! ## Pieces of a text -/

/-- The tokens of a piece, and where the reading stands behind it. -/
def run : Mode → List Char → Option (List Token × Mode)
  | m, [] => some ([], m)
  | m, c :: rest => (lexChar m c).bind fun p => (run p.2 rest).map fun q => (p.1 ++ q.1, q.2)

theorem lex_cons (m : Mode) (c : Char) (rest : List Char) :
    lex m (c :: rest) = (lexChar m c).bind fun p => (lex p.2 rest).map fun ts => p.1 ++ ts := by
  cases m <;> rfl

theorem lex_append {m m' : Mode} {piece : List Char} {ts : List Token} (h : run m piece = some (ts, m'))
    (rest : List Char) : lex m (piece ++ rest) = (lex m' rest).map (ts ++ ·) := by
  induction piece generalizing m ts with
  | nil =>
    obtain ⟨rfl, rfl⟩ := Prod.mk.inj (Option.some.inj h)
    exact Option.map_id_apply.symm
  | cons c piece ih =>
    obtain ⟨p, hp, h⟩ := Option.bind_eq_some_iff.1 h
    obtain ⟨q, hq, h⟩ := Option.map_eq_some_iff.1 h
    obtain ⟨rfl, rfl⟩ := Prod.mk.inj h
    rw [List.cons_append, lex_cons, hp, Option.bind_some, ih hq, Option.map_map]
    congr 1
    funext ts
    simp

theorem lex_blank {c : Char} (hc : isBlank c = true) (rest : List Char) :
    lex .between (c :: rest) = lex .between rest := by
  rw [lex_cons, lexChar, lexBetween, if_pos hc, Option.bind_some]
  exact Option.map_id_apply

theorem lex_blanks {blanks : List Char} (h : ∀ c ∈ blanks, isBlank c = true) (rest : List Char) :
    lex .between (blanks ++ rest) = lex .between rest := by
  induction blanks with
  | nil => rfl
  | cons c blanks ih =>
    rw [List.cons_append, lex_blank (h c List.mem_cons_self), ih fun d hd => h d (List.mem_cons_of_mem c hd)]

theorem lex_dropWhile (rest : List Char) : lex .between rest = lex .between (rest.dropWhile isBlank) := by
  conv_lhs => rw [← List.takeWhile_append_dropWhile (p := isBlank) (l := rest)]
  exact lex_blanks (fun c hc => List.mem_takeWhile_imp hc) _

/-- What is read behind a character that is a token. -/
theorem lex_mark {c : Char} {t : Token} (hc : lexBetween c = some ([t], .between)) (rest : List Char) :
    lex .between (c :: rest) = (lex .between rest).map (t :: ·) := by
  rw [lex_cons, lexChar, hc, Option.bind_some]
  rfl

/-! ### The first token -/

/-- Where the reading stands in a string. -/
def Mode.inString : Mode → Bool
  | .between | .literal _ => false
  | _ => true

/-- A character of a string completes the string or leaves it open. -/
theorem lexChar_inString {m : Mode} (hm : m.inString = true) {c : Char} {p : List Token × Mode}
    (h : lexChar m c = some p) : (∃ s, p.1 = [.string s]) ∨ p.1 = [] ∧ p.2.inString = true := by
  cases m with
  | between => cases hm
  | literal _ => cases hm
  | string cs =>
    rw [lexChar] at h
    split_ifs at h
    · exact .inl ⟨String.ofList cs, by rw [← Option.some.inj h]⟩
    · exact .inr (by rw [← Option.some.inj h]; exact ⟨rfl, rfl⟩)
    · exact .inr (by rw [← Option.some.inj h]; exact ⟨rfl, rfl⟩)
  | escape cs =>
    rw [lexChar] at h
    split_ifs at h
    · exact .inr (by rw [← Option.some.inj h]; exact ⟨rfl, rfl⟩)
    · obtain ⟨d, -, rfl⟩ := Option.map_eq_some_iff.1 h
      exact .inr ⟨rfl, rfl⟩
  | unicode cs high digits =>
    obtain ⟨d, -, h⟩ := Option.bind_eq_some_iff.1 h
    split_ifs at h
    · exact .inr (by rw [← Option.some.inj h]; exact ⟨rfl, rfl⟩)
    · obtain ⟨m, hm, rfl⟩ := Option.map_eq_some_iff.1 h
      refine .inr ⟨rfl, ?_⟩
      cases high with
      | none =>
        simp only [unicodeEnd] at hm
        split_ifs at hm <;> rw [← Option.some.inj hm] <;> rfl
      | some high =>
        simp only [unicodeEnd] at hm
        split_ifs at hm
        rw [← Option.some.inj hm]
        rfl
  | high cs high =>
    rw [lexChar] at h
    split_ifs at h
    exact .inr (by rw [← Option.some.inj h]; exact ⟨rfl, rfl⟩)
  | highEscape cs high =>
    rw [lexChar] at h
    split_ifs at h
    exact .inr (by rw [← Option.some.inj h]; exact ⟨rfl, rfl⟩)

/-- The first token that is complete behind a quotation mark is a string. -/
theorem head_of_lex_string {m : Mode} (hm : m.inString = true) {rest : List Char} {ts : List Token}
    (h : lex m rest = some ts) : ∃ s more, ts = .string s :: more := by
  induction rest generalizing m ts with
  | nil => cases m <;> simp [Mode.inString, lex] at hm h
  | cons c rest ih =>
    rw [lex_cons] at h
    obtain ⟨p, hp, h⟩ := Option.bind_eq_some_iff.1 h
    obtain ⟨us, hus, rfl⟩ := Option.map_eq_some_iff.1 h
    rcases lexChar_inString hm hp with ⟨s, hs⟩ | ⟨hnil, hopen⟩
    · exact ⟨s, us, by rw [hs]; rfl⟩
    · rw [hnil]
      exact ih hopen hus

/-- A quotation mark begins a string, which is the first token. -/
theorem exists_string {rest : List Char} {ts : List Token} (h : lex .between ('"' :: rest) = some ts) :
    ∃ s more, ts = .string s :: more ∧ lex (.string []) rest = some (.string s :: more) := by
  have hstring : lex (.string []) rest = some ts := by
    rw [← h, lex_cons, lexChar]
    exact Option.map_id_apply.symm
  obtain ⟨s, more, rfl⟩ := head_of_lex_string rfl hstring
  exact ⟨s, more, rfl, hstring⟩

/-- Brackets, braces, colons and commas. -/
def Token.isMark : Token → Bool
  | .openBrace | .closeBrace | .openBracket | .closeBracket | .colon | .comma => true
  | _ => false

/-- A character that begins neither a string nor a literal is a token. -/
theorem exists_mark {c : Char} (hblank : ¬ isBlank c = true) (hquote : c ≠ '"')
    (hliteral : ¬ isLiteralChar c = true) {rest : List Char} {ts : List Token}
    (h : lex .between (c :: rest) = some ts) :
    ∃ t more, lexBetween c = some ([t], .between) ∧ t.isMark = true ∧ ts = t :: more := by
  have hmark : ∀ p, lexBetween c = some p → ∃ t, p = ([t], .between) ∧ t.isMark = true := by
    intro p hp
    simp only [lexBetween, if_neg hblank, if_neg hquote, if_neg hliteral] at hp
    split_ifs at hp <;> exact ⟨_, (Option.some.inj hp).symm, rfl⟩
  rw [lex_cons, lexChar] at h
  obtain ⟨p, hp, h⟩ := Option.bind_eq_some_iff.1 h
  obtain ⟨us, -, rfl⟩ := Option.map_eq_some_iff.1 h
  obtain ⟨t, rfl, ht⟩ := hmark p hp
  exact ⟨t, us, hp, ht, rfl⟩

/-- A literal ends in front of the first character that is none of it. -/
theorem exists_literal {c : Char} (hc : isLiteralChar c = true) {rest : List Char} {ts : List Token}
    (h : lex .between (c :: rest) = some ts) :
    ∃ t more, literalToken (c :: rest.takeWhile isLiteralChar) = some t ∧
      lex .between (rest.dropWhile isLiteralChar) = some more ∧ ts = t :: more := by
  have hend : Delimited (rest.dropWhile isLiteralChar) := by
    cases hrest : rest.dropWhile isLiteralChar with
    | nil => exact trivial
    | cons d rest' =>
      have hhead := List.head?_dropWhile_not isLiteralChar rest
      rw [hrest] at hhead
      exact hhead
  have hchars : ∀ d ∈ rest.takeWhile isLiteralChar, isLiteralChar d = true := fun d hd => List.mem_takeWhile_imp hd
  have hread := lex_literal hchars [c] hend
  rw [List.takeWhile_append_dropWhile] at hread
  rw [lex_cons, lexChar, lexBetween_literal hc, Option.bind_some] at h
  obtain ⟨us, hus, rfl⟩ := Option.map_eq_some_iff.1 h
  rw [hread] at hus
  obtain ⟨t, ht, hus⟩ := Option.bind_eq_some_iff.1 hus
  obtain ⟨more, hmore, rfl⟩ := Option.map_eq_some_iff.1 hus
  exact ⟨t, more, ht, hmore, rfl⟩

/-! ## Members -/

mutual

/-- The members of the objects in a value, itself included. -/
def Value.allMembers : Value → List (String × Value)
  | .array items => itemsMembers items
  | .object members => membersMembers members
  | _ => []

def itemsMembers : List Value → List (String × Value)
  | [] => []
  | v :: items => v.allMembers ++ itemsMembers items

def membersMembers : List (String × Value) → List (String × Value)
  | [] => []
  | (key, v) :: members => (key, v) :: (v.allMembers ++ membersMembers members)

end

/-- What may stand behind a member. -/
def Closes (more : List Token) : Prop := more.head? = some .comma ∨ more.head? = some .closeBrace

@[simp] theorem not_closes_nil : ¬ Closes [] := by simp [Closes]

@[simp] theorem closes_cons {t : Token} {more : List Token} :
    Closes (t :: more) ↔ t = .comma ∨ t = .closeBrace := by simp [Closes]

theorem Closes.append {more : List Token} (h : Closes more) (rest : List Token) : Closes (more ++ rest) := by
  cases more with
  | nil => exact absurd h not_closes_nil
  | cons t more => exact h

/-- What stands in front of a colon is the name of one of the members, and its value is what follows. -/
def Named (l : List Token) (members : List (String × Value)) : Prop :=
  ∀ front key rest, l = front ++ .string key :: .colon :: rest →
    ∃ v more, (key, v) ∈ members ∧ rest = v.tokens ++ more ∧ Closes more

theorem named_single (t : Token) : Named [t] [] := by
  intro front key rest h
  have hlength := congrArg List.length h
  simp only [List.length_append, List.length_cons, List.length_nil] at hlength
  omega

/-- No colon stands at the joint. -/
theorem Named.append {l m : List Token} {ls ms : List (String × Value)} (hl : Named l ls) (hm : Named m ms)
    (hcolon : m.head? ≠ some .colon) : Named (l ++ m) (ls ++ ms) := by
  intro front key rest h
  rcases List.append_eq_append_iff.1 h with ⟨joint, rfl, hsplit⟩ | ⟨joint, rfl, hsplit⟩
  · obtain ⟨v, more, hv, hrest⟩ := hm joint key rest hsplit
    exact ⟨v, more, List.mem_append_right ls hv, hrest⟩
  · rcases joint with _ | ⟨t, _ | ⟨t', joint⟩⟩
    · obtain ⟨v, more, hv, hrest⟩ := hm [] key rest hsplit.symm
      exact ⟨v, more, List.mem_append_right ls hv, hrest⟩
    · obtain ⟨-, hsplit⟩ := List.cons.inj hsplit
      have hm : m = .colon :: rest := hsplit.symm
      exact absurd (congrArg List.head? hm) hcolon
    · simp only [List.cons_append, List.cons.injEq] at hsplit
      obtain ⟨rfl, rfl, rfl⟩ := hsplit
      obtain ⟨v, more, hv, rfl, hmore⟩ := hl front key joint rfl
      exact ⟨v, more ++ m, List.mem_append_left ms hv, List.append_assoc _ _ _, hmore.append m⟩

theorem Named.mark {t : Token} (ht : ∀ s, t ≠ .string s) {l : List Token} {ms : List (String × Value)}
    (hl : Named l ms) : Named (t :: l) ms := by
  intro front key rest h
  cases front with
  | nil => exact absurd (List.cons.inj h).1 (ht key)
  | cons t' front => exact hl front key rest (List.cons.inj h).2

theorem Named.member {v : Value} {more : List Token} {ms : List (String × Value)} (hmore : Closes more)
    (hl : Named (v.tokens ++ more) ms) (key : String) :
    Named (.string key :: .colon :: (v.tokens ++ more)) ((key, v) :: ms) := by
  intro front key' rest h
  rcases front with _ | ⟨t, front⟩
  · simp only [List.nil_append, List.cons.injEq, Token.string.injEq, true_and] at h
    obtain ⟨rfl, rfl⟩ := h
    exact ⟨v, more, List.mem_cons_self, rfl, hmore⟩
  · have hcolon : Named (.colon :: (v.tokens ++ more)) ms := hl.mark fun s hs => by cases hs
    obtain ⟨w, more', hw, hrest⟩ := hcolon front key' rest (List.cons.inj h).2
    exact ⟨w, more', List.mem_cons_of_mem (key, v) hw, hrest⟩

theorem closes_moreMembers (members : List (String × Value)) : Closes (moreMembers members) := by
  rcases members with _ | ⟨⟨key, v⟩, members⟩
  · exact .inr rfl
  · exact .inl rfl

theorem moreItems_ne_colon (items : List Value) : (moreItems items).head? ≠ some .colon := by
  cases items <;> simp [moreItems]

theorem Closes.ne_colon {more : List Token} (h : Closes more) : more.head? ≠ some .colon := by
  rcases h with h | h <;> simp [h]

mutual

theorem named_tokens : ∀ v : Value, Named v.tokens v.allMembers
  | .null => named_single _
  | .bool _ => named_single _
  | .number _ => named_single _
  | .string _ => named_single _
  | .array items => by
    rw [Value.tokens, Value.allMembers]
    exact (named_items items).mark fun s hs => by cases hs
  | .object members => by
    rw [Value.tokens, Value.allMembers]
    exact (named_members members).mark fun s hs => by cases hs

theorem named_items : ∀ items : List Value, Named (itemsTokens items) (itemsMembers items)
  | [] => named_single _
  | v :: items => by
    rw [itemsTokens, itemsMembers]
    exact (named_tokens v).append (named_moreItems items) (moreItems_ne_colon items)

theorem named_moreItems : ∀ items : List Value, Named (moreItems items) (itemsMembers items)
  | [] => named_single _
  | v :: items => by
    rw [moreItems, itemsMembers]
    have hboth := (named_tokens v).append (named_moreItems items) (moreItems_ne_colon items)
    exact hboth.mark fun s hs => by cases hs

theorem named_members : ∀ members : List (String × Value), Named (membersTokens members) (membersMembers members)
  | [] => named_single _
  | (key, v) :: members => by
    rw [membersTokens, membersMembers]
    have hclose := closes_moreMembers members
    exact ((named_tokens v).append (named_moreMembers members) hclose.ne_colon).member hclose key

theorem named_moreMembers : ∀ members : List (String × Value), Named (moreMembers members) (membersMembers members)
  | [] => named_single _
  | (key, v) :: members => by
    rw [moreMembers, membersMembers]
    have hclose := closes_moreMembers members
    have hmember := ((named_tokens v).append (named_moreMembers members) hclose.ne_colon).member hclose key
    exact hmember.mark fun s hs => by cases hs

end

/-- A key that is read in front of a colon is the name of a member whose value is read behind it. -/
theorem member_of_tokens {text : String} {w : Value} (h : Decodes text w) {front rest : List Char} {ts : List Token}
    {key : String} (htext : text.toList = front ++ rest) (hfront : run .between front = some (ts, .between))
    {after : List Char} (hrest : lex .between rest = (lex .between after).map (.string key :: .colon :: ·)) :
    ∃ v more, (key, v) ∈ w.allMembers ∧ lex .between after = some (v.tokens ++ more) ∧ Closes more := by
  rw [Decodes, htext, lex_append hfront, hrest, Option.map_map] at h
  obtain ⟨us, hus, h⟩ := Option.map_eq_some_iff.1 h
  obtain ⟨v, more, hv, rfl, hmore⟩ := named_tokens w ts key us h.symm
  exact ⟨v, more, hv, hus, hmore⟩

end PudimNetMon.JsonText
