import PudimNetMon.Agent.LoadConfig

/-!
# Texts of config files (`config_file.h`)

A file is read line by line, as `std::getline` cuts it. `LoadConfigFile` accepts exactly the texts whose lines are
blank, comments or entries; a key has the value of its last entry, and a text that is not accepted is refused for its
first line that is none of these (`loadConfigText_spec`). Carriage returns in front of the line ends change nothing.

- `linesOf_iff`: the lines are what the line feeds make them;
- `readLine_eq`: what a line is, by its trimmed text;
- `loadLines_spec`: the loop, behind any number of lines.
-/

namespace PudimNetMon.Agent.Config

/-! ## Lines -/

/-- The lines of a text, behind the beginning of one. -/
def linesFrom : List Char → List Char → List (List Char)
  | cur, [] => if cur.isEmpty then [] else [cur]
  | cur, c :: cs => if c = '\n' then cur :: linesFrom [] cs else linesFrom (cur ++ [c]) cs

/-- What `std::getline` returns, call after call. -/
def linesOf (text : String) : List String := (linesFrom [] text.toList).map String.ofList

/-- A text and its lines: each ends at a line feed, which belongs to none, and the last one also where the text does,
unless nothing is left of it. -/
inductive Lines : List Char → List (List Char) → Prop
  | nil : Lines [] []
  | last {line : List Char} : line ≠ [] → '\n' ∉ line → Lines line [line]
  | feed {line text : List Char} {lines : List (List Char)} :
    '\n' ∉ line → Lines text lines → Lines (line ++ '\n' :: text) (line :: lines)

/-- `LoadConfigFile`, for a file with a text. -/
def loadConfigText (text : String) : Except String OptionMap := loadConfigFile (some (linesOf text))

/-- Each line feed behind a carriage return. -/
def crlf (text : String) : String :=
  String.ofList (text.toList.flatMap fun c => if c = '\n' then ['\r', '\n'] else [c])

theorem linesFrom_append {line : List Char} (h : '\n' ∉ line) (cur text : List Char) :
    linesFrom cur (line ++ text) = linesFrom (cur ++ line) text := by
  induction line generalizing cur with
  | nil => simp
  | cons c line ih =>
    rw [List.mem_cons, not_or] at h
    rw [List.cons_append, linesFrom, if_neg (Ne.symm h.1), ih h.2, List.append_assoc, List.singleton_append]

/-- What is read behind the beginning of a line. -/
theorem lines_linesFrom {cur : List Char} (hcur : '\n' ∉ cur) (text : List Char) :
    Lines (cur ++ text) (linesFrom cur text) := by
  induction text generalizing cur with
  | nil =>
    rw [List.append_nil, linesFrom]
    split
    · rename_i hempty
      rw [List.isEmpty_iff.1 hempty]
      exact .nil
    · rename_i hne
      exact .last (fun h => hne (List.isEmpty_iff.2 h)) hcur
  | cons c text ih =>
    rw [linesFrom]
    split
    · rename_i hfeed
      subst hfeed
      exact .feed hcur (ih List.not_mem_nil)
    · rename_i hother
      have h := @ih (cur ++ [c]) (by simp [hcur, Ne.symm hother])
      rwa [List.append_assoc, List.singleton_append] at h

/-- The lines of a text are what its line feeds make them. -/
theorem linesOf_iff {text : String} {lines : List (List Char)} :
    (linesOf text).map String.toList = lines ↔ Lines text.toList lines := by
  have htoList : (linesOf text).map String.toList = linesFrom [] text.toList := by
    rw [linesOf, List.map_map]
    exact (List.map_congr_left fun line _ => String.toList_ofList).trans (List.map_id _)
  rw [htoList]
  constructor
  · rintro rfl
    exact lines_linesFrom List.not_mem_nil text.toList
  · intro h
    generalize text.toList = cs at h
    induction h with
    | nil => rfl
    | @last line hne hline =>
      have happend := linesFrom_append hline [] []
      rw [List.append_nil] at happend
      rw [happend, List.nil_append, linesFrom, if_neg (by simpa using hne)]
    | @feed line text lines hline _ ih => rw [linesFrom_append hline, List.nil_append, linesFrom, if_pos rfl, ih]

/-! ## What a line says -/

/-- The text of a line without the white space around it. -/
def trimmed (line : String) : List Char := trim line.toList

/-- Blank or a comment. -/
def Skipped (line : String) : Prop :=
  trimmed line = [] ∨ (trimmed line).head? = some '#' ∨ (trimmed line).head? = some ';'

instance (line : String) : Decidable (Skipped line) := inferInstanceAs (Decidable (_ ∨ _))

/-- What is in front of the first `=`. -/
def keyOf (line : String) : List Char := trim ((trimmed line).takeWhile (· ≠ '='))

/-- What is behind it. -/
def valOf (line : String) : List Char := trim (((trimmed line).dropWhile (· ≠ '=')).drop 1)

/-- A line with a key and a value. -/
def IsEntry (line : String) : Prop := ¬ Skipped line ∧ '=' ∈ trimmed line ∧ keyOf line ≠ []

instance (line : String) : Decidable (IsEntry line) := inferInstanceAs (Decidable (_ ∧ _))

def Proper (line : String) : Prop := Skipped line ∨ IsEntry line

instance (line : String) : Decidable (Proper line) := inferInstanceAs (Decidable (_ ∨ _))

/-- The value of the last entry of a key. -/
def lastValue (lines : List String) (key : String) : Option String :=
  ((lines.filter fun line => IsEntry line ∧ String.ofList (keyOf line) = key).getLast?).map fun line =>
    String.ofList (valOf line)

/-- The error for a line that is none. -/
def lineError (lineNo : Nat) (line : String) : String :=
  if '=' ∈ trimmed line then "line " ++ toString lineNo ++ ": empty key"
  else "line " ++ toString lineNo ++ ": expected key=value, got '" ++ String.ofList (trimmed line) ++ "'"

/-! ## Trimming -/

theorem trim_concat_space {c : Char} (hc : isSpace c = true) (s : List Char) : trim (s ++ [c]) = trim s := by
  unfold trim
  rw [List.dropWhile_append]
  split
  · rename_i hnil
    rw [List.isEmpty_iff.1 hnil, List.dropWhile_cons_of_pos hc]
    rfl
  · rw [List.reverse_append, List.reverse_singleton, List.singleton_append, List.dropWhile_cons_of_pos hc]

/-- The carriage return at the end is white space, too. -/
theorem trim_line (line : String) :
    trim (if line.toList.getLast? = some '\r' then line.toList.dropLast else line.toList) = trimmed line := by
  unfold trimmed
  split
  · rename_i hlast
    obtain ⟨s, hs⟩ := List.getLast?_eq_some_iff.1 hlast
    rw [hs, List.dropLast_concat, trim_concat_space (by decide)]
  · rfl

theorem readLine_eq (line : String) : readLine line =
    if Skipped line then .skipped
    else if ¬ '=' ∈ trimmed line then .noEntry (String.ofList (trimmed line))
    else if keyOf line = [] then .emptyKey
    else .entry (String.ofList (keyOf line)) (String.ofList (valOf line)) := by
  unfold readLine
  dsimp only
  rw [trim_line]
  simp [Skipped, keyOf, valOf, or_assoc]

theorem readLine_congr {line line' : String} (h : trimmed line' = trimmed line) : readLine line' = readLine line := by
  unfold readLine
  dsimp only
  rw [trim_line, trim_line, h]

/-! ## The loop -/

section

variable {line key : String} {lines before after : List String} {n : Nat} {out : OptionMap}

theorem loadLines_skipped (h : Skipped line) : loadLines n out (line :: lines) = loadLines (n + 1) out lines := by
  rw [loadLines, readLine_eq, if_pos h]

theorem loadLines_entry (h : IsEntry line) : loadLines n out (line :: lines) =
    loadLines (n + 1) (out.insert (String.ofList (keyOf line)) (String.ofList (valOf line))) lines := by
  rw [loadLines, readLine_eq, if_neg h.1, if_neg (not_not.2 h.2.1), if_neg h.2.2]

theorem loadLines_improper (h : ¬ Proper line) :
    loadLines n out (line :: lines) = .error (lineError (n + 1) line) := by
  rw [Proper, not_or] at h
  rw [loadLines, readLine_eq, if_neg h.1, lineError]
  by_cases heq : '=' ∈ trimmed line
  · have hkey : keyOf line = [] := by
      by_contra hne
      exact h.2 ⟨h.1, heq, hne⟩
    rw [if_neg (not_not.2 heq), if_pos hkey, if_pos heq]
  · rw [if_pos heq, if_neg heq]

theorem lastValue_cons : lastValue (line :: lines) key =
    (lastValue lines key).or
      (if IsEntry line ∧ String.ofList (keyOf line) = key then some (String.ofList (valOf line)) else none) := by
  unfold lastValue
  rw [List.filter_cons]
  split
  · rename_i h
    rw [if_pos (of_decide_eq_true h), List.getLast?_cons]
    cases (lines.filter fun line => IsEntry line ∧ String.ofList (keyOf line) = key).getLast? <;> rfl
  · rename_i h
    rw [if_neg (fun h' => h (decide_eq_true h')), Option.or_none]

/-- Proper lines leave a map in which each key has its last value. -/
theorem loadLines_append (h : ∀ line ∈ before, Proper line) (n : Nat) (out : OptionMap) (rest : List String) :
    ∃ out', loadLines n out (before ++ rest) = loadLines (n + before.length) out' rest ∧
      ∀ key, out'.lookup key = (lastValue before key).or (out.lookup key) := by
  induction before generalizing n out with
  | nil => exact ⟨out, rfl, fun _ => rfl⟩
  | cons line before ih =>
    rw [List.forall_mem_cons] at h
    rw [List.cons_append, List.length_cons, Nat.add_comm before.length, ← Nat.add_assoc]
    rcases h.1 with hskipped | hentry
    · obtain ⟨out', hload, hlookup⟩ := ih h.2 (n + 1) out
      refine ⟨out', (loadLines_skipped hskipped).trans hload, fun key => ?_⟩
      rw [hlookup, lastValue_cons, if_neg (fun h => h.1.1 hskipped), Option.or_none]
    · obtain ⟨out', hload, hlookup⟩ :=
        ih h.2 (n + 1) (out.insert (String.ofList (keyOf line)) (String.ofList (valOf line)))
      refine ⟨out', (loadLines_entry hentry).trans hload, fun key => ?_⟩
      rw [hlookup, lastValue_cons, Option.or_assoc]
      by_cases hkey : String.ofList (keyOf line) = key
      · rw [if_pos ⟨hentry, hkey⟩, ← hkey, AList.lookup_insert]
        rfl
      · rw [if_neg (fun h => hkey h.2), AList.lookup_insert_ne (Ne.symm hkey)]
        rfl

/-- The first line that is not proper. -/
theorem proper_or_first (lines : List String) : (∀ line ∈ lines, Proper line) ∨
    ∃ before line after, lines = before ++ line :: after ∧ (∀ l ∈ before, Proper l) ∧ ¬ Proper line := by
  cases hfind : lines.find? fun line => ¬ Proper line with
  | none =>
    refine .inl fun line hline => ?_
    simpa using List.find?_eq_none.1 hfind line hline
  | some line =>
    obtain ⟨himproper, before, after, rfl, hbefore⟩ := List.find?_eq_some_iff_append.1 hfind
    exact .inr ⟨before, line, after, rfl, fun l hl => by simpa using hbefore l hl, by simpa using himproper⟩

/-! ## Carriage returns -/

theorem loadLines_congr {lines' : List String} (h : List.Forall₂ (fun l l' => trimmed l' = trimmed l) lines lines')
    (n : Nat) (out : OptionMap) : loadLines n out lines' = loadLines n out lines := by
  induction h generalizing n out with
  | nil => rfl
  | cons hline _ ih =>
    rw [loadLines, loadLines, readLine_congr hline]
    simp only [ih]

/-- The lines have carriage returns at most at their ends. -/
theorem linesFrom_crlf (cur cs : List Char) :
    List.Forall₂ (fun l l' => trim l' = trim l) (linesFrom cur cs)
      (linesFrom cur (cs.flatMap fun c => if c = '\n' then ['\r', '\n'] else [c])) := by
  induction cs generalizing cur with
  | nil => exact List.forall₂_same.2 fun _ _ => rfl
  | cons c cs ih =>
    rw [List.flatMap_cons]
    by_cases hc : c = '\n'
    · rw [if_pos hc, linesFrom, if_pos hc, List.cons_append, List.cons_append, List.nil_append, linesFrom,
        if_neg (by decide), linesFrom, if_pos rfl]
      exact .cons (trim_concat_space (by decide) cur) (ih [])
    · rw [if_neg hc, linesFrom, if_neg hc, List.singleton_append, linesFrom, if_neg hc]
      exact ih (cur ++ [c])

theorem loadConfigText_crlf (text : String) : loadConfigText (crlf text) = loadConfigText text := by
  unfold loadConfigText loadConfigFile linesOf crlf
  rw [String.toList_ofList]
  refine loadLines_congr (List.forall₂_map_left_iff.2 (List.forall₂_map_right_iff.2 ?_)) 0 ∅
  simpa only [trimmed, String.toList_ofList] using linesFrom_crlf [] text.toList

end

/-! ## The texts that are accepted -/

/-- **Config files.** A text is accepted if each of its lines is blank, a comment or an entry, and each key has the
value of its last entry then; otherwise the error is for the first other line. -/
theorem loadConfigText_spec (text : String) :
    ((∃ out, loadConfigText text = .ok out) ↔ ∀ line ∈ linesOf text, Proper line) ∧
      (∀ out, loadConfigText text = .ok out → ∀ key, out.lookup key = lastValue (linesOf text) key) ∧
      (∀ error, loadConfigText text = .error error → ∃ before line after, linesOf text = before ++ line :: after ∧
        (∀ l ∈ before, Proper l) ∧ ¬ Proper line ∧ error = lineError (before.length + 1) line) ∧
      loadConfigText (crlf text) = loadConfigText text := by
  have hcrlf := loadConfigText_crlf text
  rcases proper_or_first (linesOf text) with hproper | ⟨before, line, after, hlines, hbefore, himproper⟩
  · obtain ⟨out, hload, hlookup⟩ := loadLines_append hproper 0 ∅ []
    rw [List.append_nil] at hload
    have htext : loadConfigText text = .ok out := hload
    refine ⟨iff_of_true ⟨out, htext⟩ hproper, fun out' h key => ?_, fun error h => ?_, hcrlf⟩
    · cases htext.symm.trans h
      rw [hlookup, AList.lookup_empty, Option.or_none]
    · cases htext.symm.trans h
  · obtain ⟨out, hload, -⟩ := loadLines_append hbefore 0 ∅ (line :: after)
    have htext : loadConfigText text = .error (lineError (before.length + 1) line) := by
      rw [loadLines_improper himproper, Nat.zero_add, ← hlines] at hload
      exact hload
    refine ⟨iff_of_false ?_ fun h => ?_, fun out' h => ?_, fun error h => ?_, hcrlf⟩
    · rintro ⟨out', h⟩
      cases htext.symm.trans h
    · exact himproper (h line (by rw [hlines]; exact List.mem_append_right _ List.mem_cons_self))
    · cases htext.symm.trans h
    · cases htext.symm.trans h
      exact ⟨before, line, after, hlines, hbefore, himproper, rfl⟩

example : (loadConfigText "# site\r\n node-id = a=b \r\nnode-id=c#d").toOption.bind (·.lookup "node-id") =
    some "c#d" := by
  decide +kernel

end PudimNetMon.Agent.Config
