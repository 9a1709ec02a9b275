import PudimNetMon.Alerting.Calls

/-!
# What a rule text may say (`alert_manager.cpp`)

Only the parser's own error is caught. A member of the wrong kind, or a document or rule that is not an object, makes
`value` throw, and the exception leaves the call.

- `parseRule_returns_iff`, `parseRule_accepts_iff`: the rules that are read without an exception, and those accepted;
- `rejects_cleanly_iff`: the texts for which a call returns true, or false with an error and nothing changed.
-/

namespace PudimNetMon.Alerting

/-! ## One rule -/

/-- The members of a rule, next to the id, are of the kinds that are read. -/
structure MembersFit (r : Json) : Prop where
  strings : ∀ key ∈ ["name", "agent_id", "check_type", "target", "metric", "severity", "op"],
    r.MemberIs Json.IsString key
  threshold : r.MemberIs Json.IsNumber "threshold"
  repeatIntervalSec : r.MemberIs (fun v => v.IsNumber ∨ v.IsBool) "repeat_interval_sec"
  onFailure : r.MemberIs Json.IsBool "on_failure"

/-- The rule has an id. -/
def HasId (r : Json) : Prop := ∃ id, r.find? "id" = some (.string id) ∧ id ≠ ""

/-- Reading the rule throws nothing: without an id the other members are not read. -/
def CleanRule (r : Json) : Prop :=
  r.isObject = true ∧ (r.find? "id" = none ∨ r.find? "id" = some (.string "") ∨ HasId r ∧ MembersFit r)

/-- The rule is accepted. -/
structure Accepted (r : Json) : Prop where
  object : r.isObject = true
  id : HasId r
  fits : MembersFit r
  op : r.find? "op" = none ∨ r.find? "op" = some (.string ">") ∨ r.find? "op" = some (.string "<")
  metric : r.find? "on_failure" = some (.bool true) ∨ ∃ m, r.find? "metric" = some (.string m) ∧ m ≠ ""

/-- What is read once there is an id. -/
theorem parseRule_of_id {r : Json} {id : String} (hobject : r.isObject = true)
    (hid : r.find? "id" = some (.string id)) (hne : id ≠ "") (result : Except String AlertRule) :
    parseRule r = .ok result ↔ ∃ name agentId checkType target metricField severity threshold repeatIntervalSec
      onFailure op, r.valueOf Json.getString "name" id = .ok name ∧
        r.valueOf Json.getString "agent_id" "" = .ok agentId ∧
        r.valueOf Json.getString "check_type" "" = .ok checkType ∧
        r.valueOf Json.getString "target" "" = .ok target ∧
        r.valueOf Json.getString "metric" "" = .ok metricField ∧
        r.valueOf Json.getString "severity" "warning" = .ok severity ∧
        r.valueOf Json.getDouble "threshold" .zero = .ok threshold ∧
        r.valueOf Json.getInt "repeat_interval_sec" 300 = .ok repeatIntervalSec ∧
        r.valueOf Json.getBool "on_failure" false = .ok onFailure ∧
        r.valueOf Json.getString "op" ">" = .ok op ∧
        checkRule { id, name, agentId, checkType, target, metricField, threshold, repeatIntervalSec, severity,
                    onFailure } op = result := by
  have hread : r.valueOf Json.getString "id" "" = .ok id :=
    Json.valueOf_eq_ok_iff.2 ⟨hobject, .inr ⟨_, hid, rfl⟩⟩
  have hempty : id.isEmpty = false := by simpa using hne
  constructor
  · intro h
    obtain ⟨id', hid', h⟩ := bind_eq_ok.1 h
    cases hread.symm.trans hid'
    rw [if_neg (by simp [hne])] at h
    simp only [bind_eq_ok] at h
    obtain ⟨name, hname, agentId, hagentId, checkType, hcheckType, target, htarget, metricField, hmetric, severity,
      hseverity, threshold, hthreshold, interval, hinterval, onFailure, honFailure, op, hop, h⟩ := h
    exact ⟨name, agentId, checkType, target, metricField, severity, threshold, interval, onFailure, op, hname, hagentId,
      hcheckType, htarget, hmetric, hseverity, hthreshold, hinterval, honFailure, hop, Except.ok.inj h⟩
  · rintro ⟨name, agentId, checkType, target, metricField, severity, threshold, interval, onFailure, op, hname,
      hagentId, hcheckType, htarget, hmetric, hseverity, hthreshold, hinterval, honFailure, hop, rfl⟩
    refine bind_eq_ok.2 ⟨id, hread, ?_⟩
    rw [if_neg (by simp [hne])]
    simp only [bind_eq_ok]
    exact ⟨name, hname, agentId, hagentId, checkType, hcheckType, target, htarget, metricField, hmetric, severity,
      hseverity, threshold, hthreshold, interval, hinterval, onFailure, honFailure, op, hop, rfl⟩

/-- The members are read exactly when they fit. -/
theorem parseRule_fits_iff {r : Json} {id : String} (hobject : r.isObject = true)
    (hid : r.find? "id" = some (.string id)) (hne : id ≠ "") : (∃ result, parseRule r = .ok result) ↔ MembersFit r := by
  -- a member that fits is read, whatever the default
  have hstring : ∀ (default : String) {key : String}, r.MemberIs Json.IsString key →
      ∃ s, r.valueOf Json.getString key default = .ok s :=
    fun default key h => Json.valueOf_returns_iff.2 ⟨hobject, fun w hw => Json.getString_returns_iff.2 (h w hw)⟩
  have hfits : ∀ {key default s : String}, r.valueOf Json.getString key default = .ok s →
      r.MemberIs Json.IsString key :=
    fun h w hw => Json.getString_returns_iff.1 ((Json.valueOf_returns_iff.1 ⟨_, h⟩).2 w hw)
  constructor
  · rintro ⟨result, h⟩
    obtain ⟨name, agentId, checkType, target, metricField, severity, threshold, interval, onFailure, op, hname,
      hagentId, hcheckType, htarget, hmetric, hseverity, hthreshold, hinterval, honFailure, hop, -⟩ :=
      (parseRule_of_id hobject hid hne result).1 h
    refine ⟨?_, fun w hw => ?_, fun w hw => ?_, fun w hw => ?_⟩
    · simp only [List.forall_mem_cons, List.not_mem_nil, false_implies, implies_true, and_true]
      exact ⟨hfits hname, hfits hagentId, hfits hcheckType, hfits htarget, hfits hmetric, hfits hseverity, hfits hop⟩
    · exact Json.getDouble_returns_iff.1 ((Json.valueOf_returns_iff.1 ⟨_, hthreshold⟩).2 w hw)
    · exact Json.getInt_returns_iff.1 ((Json.valueOf_returns_iff.1 ⟨_, hinterval⟩).2 w hw)
    · exact Json.getBool_returns_iff.1 ((Json.valueOf_returns_iff.1 ⟨_, honFailure⟩).2 w hw)
  · rintro ⟨hstrings, hthreshold, hinterval, honFailure⟩
    simp only [List.forall_mem_cons, List.not_mem_nil, false_implies, implies_true, and_true] at hstrings
    obtain ⟨hname, hagentId, hcheckType, htarget, hmetric, hseverity, hop⟩ := hstrings
    obtain ⟨name, hname⟩ := hstring id hname
    obtain ⟨agentId, hagentId⟩ := hstring "" hagentId
    obtain ⟨checkType, hcheckType⟩ := hstring "" hcheckType
    obtain ⟨target, htarget⟩ := hstring "" htarget
    obtain ⟨metricField, hmetric⟩ := hstring "" hmetric
    obtain ⟨severity, hseverity⟩ := hstring "warning" hseverity
    obtain ⟨op, hop⟩ := hstring ">" hop
    obtain ⟨threshold, hthreshold⟩ := Json.valueOf_returns_iff.2
      ⟨hobject, fun w hw => Json.getDouble_returns_iff.2 (hthreshold w hw)⟩
    obtain ⟨interval, hinterval⟩ := Json.valueOf_returns_iff.2
      ⟨hobject, fun w hw => Json.getInt_returns_iff.2 (hinterval w hw)⟩
    obtain ⟨onFailure, honFailure⟩ := Json.valueOf_returns_iff.2
      ⟨hobject, fun w hw => Json.getBool_returns_iff.2 (honFailure w hw)⟩
    exact ⟨_, (parseRule_of_id hobject hid hne _).2 ⟨name, agentId, checkType, target, metricField, severity, threshold,
      interval, onFailure, op, hname, hagentId, hcheckType, htarget, hmetric, hseverity, hthreshold, hinterval,
      honFailure, hop, rfl⟩⟩

theorem parseRule_of_noId {r : Json} (hobject : r.isObject = true)
    (hid : r.find? "id" = none ∨ r.find? "id" = some (.string "")) :
    parseRule r = .ok (.error "rule missing required 'id'") := by
  refine bind_eq_ok.2 ⟨"", Json.valueOf_eq_ok_iff.2 ⟨hobject, ?_⟩, rfl⟩
  rcases hid with hid | hid
  · exact .inl ⟨hid, rfl⟩
  · exact .inr ⟨_, hid, rfl⟩

/-- The rules that are read without an exception. -/
theorem parseRule_returns_iff {r : Json} : (∃ result, parseRule r = .ok result) ↔ CleanRule r := by
  constructor
  · rintro ⟨result, h⟩
    obtain ⟨id, hid, -⟩ := bind_eq_ok.1 h
    obtain ⟨hobject, ⟨hnone, -⟩ | ⟨w, hw, hget⟩⟩ := Json.valueOf_eq_ok_iff.1 hid
    · exact ⟨hobject, .inl hnone⟩
    rw [Json.getString_eq_ok.1 hget] at hw
    by_cases hempty : id = ""
    · exact ⟨hobject, .inr (.inl (hempty ▸ hw))⟩
    · exact ⟨hobject, .inr (.inr ⟨⟨id, hw, hempty⟩, (parseRule_fits_iff hobject hw hempty).1 ⟨result, h⟩⟩)⟩
  · rintro ⟨hobject, hid | hid | ⟨⟨id, hid, hne⟩, hfits⟩⟩
    · exact ⟨_, parseRule_of_noId hobject (.inl hid)⟩
    · exact ⟨_, parseRule_of_noId hobject (.inr hid)⟩
    · exact (parseRule_fits_iff hobject hid hne).2 hfits

theorem checkRule_ok_iff {rule : AlertRule} {op : String} : (∃ r, checkRule rule op = .ok r) ↔
    (op = ">" ∨ op = "<") ∧ (rule.onFailure = true ∨ rule.metricField ≠ "") := by
  unfold checkRule
  split
  · rename_i hop
    exact iff_of_false nofun fun h => h.1.elim hop.1 hop.2
  rename_i hop
  split
  · rename_i hmetric
    refine iff_of_false nofun fun h => ?_
    obtain ⟨honFailure, hempty⟩ : rule.onFailure = false ∧ rule.metricField = "" := by simpa using hmetric
    exact h.2.elim (by simp [honFailure]) (fun hne => hne hempty)
  · rename_i hmetric
    refine iff_of_true ⟨_, rfl⟩ ⟨?_, ?_⟩
    · exact (not_and_or.1 hop).imp not_not.1 not_not.1
    · simpa [or_iff_not_imp_left] using hmetric

/-- The rules that are accepted. -/
theorem parseRule_accepts_iff {r : Json} : (∃ rule, parseRule r = .ok (.ok rule)) ↔ Accepted r := by
  -- a rule with an id whose members fit passes the checks when its op and its metric do
  have hchecks : ∀ {id : String} {result : Except String AlertRule}, r.isObject = true →
      r.find? "id" = some (.string id) → id ≠ "" → parseRule r = .ok result →
      ((∃ rule, result = .ok rule) ↔
        (r.find? "op" = none ∨ r.find? "op" = some (.string ">") ∨ r.find? "op" = some (.string "<")) ∧
          (r.find? "on_failure" = some (.bool true) ∨ ∃ m, r.find? "metric" = some (.string m) ∧ m ≠ "")) := by
    intro id result hobject hid hne h
    obtain ⟨name, agentId, checkType, target, metricField, severity, threshold, interval, onFailure, op, -, -, -, -,
      hmetric, -, -, -, honFailure, hop, rfl⟩ := (parseRule_of_id hobject hid hne result).1 h
    rw [checkRule_ok_iff, Json.valueOf_iff hop (fun s => s = ">" ∨ s = "<"),
      Json.valueOf_iff honFailure (fun b => b = true), Json.valueOf_iff hmetric (fun s => s ≠ "")]
    simp [and_or_left, exists_or]
  constructor
  · rintro ⟨rule, h⟩
    obtain ⟨hobject, hid | hid | ⟨⟨id, hid, hne⟩, hfits⟩⟩ := parseRule_returns_iff.1 ⟨_, h⟩
    · exact nomatch (parseRule_of_noId hobject (.inl hid)).symm.trans h
    · exact nomatch (parseRule_of_noId hobject (.inr hid)).symm.trans h
    obtain ⟨hop, hmetric⟩ := (hchecks hobject hid hne h).1 ⟨rule, rfl⟩
    exact ⟨hobject, ⟨id, hid, hne⟩, hfits, hop, hmetric⟩
  · rintro ⟨hobject, ⟨id, hid, hne⟩, hfits, hop, hmetric⟩
    obtain ⟨result, h⟩ := (parseRule_fits_iff hobject hid hne).2 hfits
    obtain ⟨rule, rfl⟩ := (hchecks hobject hid hne h).2 ⟨hop, hmetric⟩
    exact ⟨rule, h⟩

theorem append_ne_empty {s t : String} (h : s ≠ "") : s ++ t ≠ "" := fun he => h (String.append_eq_empty_iff.1 he).1

/-- A rule is refused with an error. -/
theorem parseRule_error {r : Json} {error : String} (h : parseRule r = .ok (.error error)) : error ≠ "" := by
  obtain ⟨hobject, hid | hid | ⟨⟨id, hid, hne⟩, hfits⟩⟩ := parseRule_returns_iff.1 ⟨_, h⟩
  · cases (parseRule_of_noId hobject (.inl hid)).symm.trans h
    decide
  · cases (parseRule_of_noId hobject (.inr hid)).symm.trans h
    decide
  obtain ⟨name, agentId, checkType, target, metricField, severity, threshold, interval, onFailure, op, -, -, -, -, -, -,
    -, -, -, -, hcheck⟩ := (parseRule_of_id hobject hid hne _).1 h
  unfold checkRule at hcheck
  split at hcheck
  · cases hcheck
    exact append_ne_empty (append_ne_empty (append_ne_empty (append_ne_empty (by decide))))
  split at hcheck
  · cases hcheck
    exact append_ne_empty (append_ne_empty (by decide))
  · cases hcheck

/-! ## The rules of a document -/

/-- The rules up to the first that is not accepted are read without an exception. -/
def CleanRules (items : List Json) : Prop :=
  ∀ front r back, items = front ++ r :: back → (∀ x ∈ front, Accepted x) → CleanRule r

/-- Reading the document throws nothing: the webhook is read when no rule is refused. -/
def CleanDoc (doc : Json) : Prop :=
  doc.isObject = true ∧
    match doc.find? "rules" with
    | none | some .null => doc.MemberIs Json.IsString "webhook_url"
    | some (.array items) =>
      CleanRules items ∧ ((∀ r ∈ items, Accepted r) → doc.MemberIs Json.IsString "webhook_url")
    | some _ => True

theorem cleanRules_cons {r : Json} {items : List Json} :
    CleanRules (r :: items) ↔ CleanRule r ∧ (Accepted r → CleanRules items) := by
  constructor
  · intro h
    refine ⟨h [] r items rfl nofun, fun hr front x back hx hfront => ?_⟩
    refine h (r :: front) x back (by rw [hx, List.cons_append]) fun y hy => ?_
    rcases List.mem_cons.1 hy with rfl | hy
    · exact hr
    · exact hfront y hy
  · rintro ⟨hr, hitems⟩ front x back hx hfront
    cases front with
    | nil =>
      cases hx
      exact hr
    | cons y front =>
      cases hx
      exact hitems (hfront r List.mem_cons_self) front x back rfl fun z hz => hfront z (List.mem_cons_of_mem _ hz)

/-- How the loop over the rules ends. -/
theorem parseRules_returns_iff {items : List Json} :
    (∃ result, parseRules items = .ok result) ↔ CleanRules items := by
  induction items with
  | nil => exact iff_of_true ⟨_, rfl⟩ fun front r back h => absurd h (by simp)
  | cons r items ih =>
    rw [cleanRules_cons, ← ih, ← parseRule_returns_iff, ← parseRule_accepts_iff]
    constructor
    · rintro ⟨result, h⟩
      obtain ⟨first, hfirst, h⟩ := bind_eq_ok.1 h
      refine ⟨⟨first, hfirst⟩, ?_⟩
      rintro ⟨rule, hrule⟩
      cases hrule.symm.trans hfirst
      obtain ⟨rest, hrest, -⟩ := bind_eq_ok.1 h
      exact ⟨rest, hrest⟩
    · rintro ⟨⟨first, hfirst⟩, hrest⟩
      rw [parseRules, hfirst]
      cases first with
      | error error => exact ⟨_, rfl⟩
      | ok rule =>
        obtain ⟨rest, hrest⟩ := hrest ⟨rule, hfirst⟩
        rw [hrest]
        cases rest <;> exact ⟨_, rfl⟩

theorem parseRules_accepts_iff {items : List Json} :
    (∃ rules, parseRules items = .ok (.ok rules)) ↔ ∀ r ∈ items, Accepted r := by
  induction items with
  | nil => exact iff_of_true ⟨_, rfl⟩ nofun
  | cons r items ih =>
    rw [List.forall_mem_cons, ← ih, ← parseRule_accepts_iff]
    constructor
    · rintro ⟨rules, h⟩
      obtain ⟨first, hfirst, h⟩ := bind_eq_ok.1 h
      cases first with
      | error error => cases h
      | ok rule =>
        obtain ⟨rest, hrest, h⟩ := bind_eq_ok.1 h
        cases rest with
        | error error => cases h
        | ok rules => exact ⟨⟨rule, hfirst⟩, ⟨rules, hrest⟩⟩
    · rintro ⟨⟨rule, hrule⟩, ⟨rules, hrules⟩⟩
      rw [parseRules, hrule, hrules]
      exact ⟨_, rfl⟩

theorem parseRules_error {items : List Json} {error : String} (h : parseRules items = .ok (.error error)) :
    error ≠ "" := by
  induction items with
  | nil => cases h
  | cons r items ih =>
    obtain ⟨first, hfirst, h⟩ := bind_eq_ok.1 h
    cases first with
    | error error =>
      cases h
      exact parseRule_error hfirst
    | ok rule =>
      obtain ⟨rest, hrest, h⟩ := bind_eq_ok.1 h
      cases rest with
      | error error =>
        cases h
        exact ih hrest
      | ok rules => cases h

/-- The documents that are read without an exception. -/
theorem loadDoc_returns_iff {doc : Json} : (∃ result, loadDoc doc = .ok result) ↔ CleanDoc doc := by
  have hwebhook : (∃ webhookUrl, doc.valueOf Json.getString "webhook_url" "" = .ok webhookUrl) ↔
      doc.isObject = true ∧ doc.MemberIs Json.IsString "webhook_url" := by
    simp only [Json.valueOf_returns_iff, Json.getString_returns_iff, Json.MemberIs]
  -- the webhook is read behind rules that are accepted
  have hload : (∃ result, loadDoc doc = .ok result) ↔ ∃ parsed, docRules doc = .ok parsed ∧
      ((∃ rules, parsed = .ok rules) → ∃ webhookUrl, doc.valueOf Json.getString "webhook_url" "" = .ok webhookUrl) := by
    constructor
    · rintro ⟨result, h⟩
      obtain ⟨parsed, hparsed, h⟩ := bind_eq_ok.1 h
      refine ⟨parsed, hparsed, ?_⟩
      rintro ⟨rules, rfl⟩
      obtain ⟨webhookUrl, hread, -⟩ := bind_eq_ok.1 h
      exact ⟨webhookUrl, hread⟩
    · rintro ⟨parsed, hparsed, hread⟩
      rw [loadDoc, hparsed]
      cases parsed with
      | error error => exact ⟨_, rfl⟩
      | ok rules =>
        obtain ⟨webhookUrl, hread⟩ := hread ⟨rules, rfl⟩
        rw [hread]
        exact ⟨_, rfl⟩
  rw [hload, hwebhook, CleanDoc]
  unfold docRules
  cases hrules : doc.find? "rules" with
  | none => simp
  | some v =>
    have hobject := Json.isObject_of_find? hrules
    cases v with
    | null => simp
    | array items =>
      simp only [hobject, true_and, ← parseRules_returns_iff, ← parseRules_accepts_iff]
      constructor
      · rintro ⟨parsed, hparsed, hread⟩
        refine ⟨⟨parsed, hparsed⟩, ?_⟩
        rintro ⟨rules, hrules⟩
        cases hparsed.symm.trans hrules
        exact hread ⟨rules, rfl⟩
      · rintro ⟨⟨parsed, hparsed⟩, hread⟩
        refine ⟨parsed, hparsed, ?_⟩
        rintro ⟨rules, hrules⟩
        exact hread ⟨rules, hrules ▸ hparsed⟩
    | _ => simp [hobject]

theorem loadDoc_error {doc : Json} {error : String} (h : loadDoc doc = .ok (.error error)) : error ≠ "" := by
  obtain ⟨parsed, hparsed, h⟩ := bind_eq_ok.1 h
  cases parsed with
  | ok rules =>
    obtain ⟨webhookUrl, -, h⟩ := bind_eq_ok.1 h
    cases h
  | error error =>
    cases h
    unfold docRules at hparsed
    split at hparsed
    · cases hparsed
    · cases hparsed
    · exact parseRules_error hparsed
    · cases hparsed
      decide

/-! ## The calls -/

/-- The call returns true, or it returns false with an error and leaves the rules, the states and the webhook. -/
def RejectsCleanly (before : AlertManager) (reply : Reply) (after : AlertManager) : Prop :=
  match reply with
  | .ok => True
  | .failed error =>
    error ≠ "" ∧ after.rules = before.rules ∧ after.states = before.states ∧ after.webhookUrl = before.webhookUrl
  | .threw _ => False

section

variable (lib : JsonLib)

/-- The text is no JSON, or a document that is read without an exception. -/
def CleanText (text : String) : Prop :=
  (∃ what, lib.parse text = .error (.parseError what)) ∨ ∃ doc, lib.parse text = .ok doc ∧ CleanDoc doc

/-- The text is no JSON, or not an object, or a rule that is read without an exception. -/
def CleanRuleText (text : String) : Prop :=
  (∃ what, lib.parse text = .error (.parseError what)) ∨
    ∃ doc, lib.parse text = .ok doc ∧ (doc.isObject = true → CleanRule doc)

variable {lib}

theorem readRules_returns_iff {text : String} : (∃ result, readRules lib text = .ok result) ↔ CleanText lib text := by
  unfold readRules CleanText
  cases lib.parse text with
  | error e => cases e <;> simp
  | ok doc => simp [loadDoc_returns_iff]

theorem readRules_error {text error : String} (h : readRules lib text = .ok (.error error)) : error ≠ "" := by
  unfold readRules at h
  split at h
  · cases h
    exact append_ne_empty (by decide)
  · cases h
  · exact loadDoc_error h

theorem loadRulesFromJson_clean_iff (m : AlertManager) (text : String) :
    RejectsCleanly m (loadRulesFromJson lib m text).1 (loadRulesFromJson lib m text).2 ↔ CleanText lib text := by
  rw [← readRules_returns_iff]
  unfold loadRulesFromJson
  cases hread : readRules lib text with
  | error e => exact iff_of_false id nofun
  | ok result =>
    cases result with
    | error error => exact iff_of_true ⟨readRules_error hread, rfl, rfl, rfl⟩ ⟨_, rfl⟩
    | ok loaded => exact iff_of_true trivial ⟨_, rfl⟩

theorem loadRulesFromFile_clean_iff (s : Store) (path : String) (opens : Bool) :
    RejectsCleanly s.manager (loadRulesFromFile lib s path opens).1 (loadRulesFromFile lib s path opens).2.manager ↔
      ∀ text, s.readable path opens = some text → CleanText lib text := by
  unfold loadRulesFromFile
  split
  · rename_i hnone
    refine iff_of_true ⟨append_ne_empty (by decide), rfl, rfl, rfl⟩ fun text htext => ?_
    exact nomatch htext.symm.trans hnone
  rename_i text htext
  have hclean := @loadRulesFromJson_clean_iff lib s.manager text
  have htexts : (∀ text, s.readable path opens = some text → CleanText lib text) ↔ CleanText lib text :=
    ⟨fun h => h text htext, fun h text' htext' => by cases htext.symm.trans htext'; exact h⟩
  rw [htexts, ← hclean]
  rcases loadRulesFromJson lib s.manager text with ⟨_ | _ | _, m⟩ <;> rfl

theorem persist_reply (hprints : lib.Prints) (s : Store) (a : WriteAnswers) (candidate : List AlertRule) :
    (persist lib s a candidate).1 = .ok ∨ ∃ error, error ≠ "" ∧ (persist lib s a candidate).1 = .failed error := by
  unfold persist writeRulesFileLocked
  split
  · exact .inl rfl
  split
  · exact .inr ⟨_, append_ne_empty (by decide), rfl⟩
  obtain ⟨text, htext⟩ := hprints (rulesDoc candidate s.manager.webhookUrl)
  rw [htext]
  cases a.good
  · exact .inr ⟨_, append_ne_empty (by decide), rfl⟩
  · exact .inl rfl

theorem upsertRule_clean_iff (hprints : lib.Prints) (s : Store) (ruleJson : String) (a : WriteAnswers) :
    RejectsCleanly s.manager (upsertRule lib s ruleJson a).1 (upsertRule lib s ruleJson a).2.manager ↔
      CleanRuleText lib ruleJson := by
  unfold upsertRule CleanRuleText
  cases hparse : lib.parse ruleJson with
  | error e =>
    cases e with
    | parseError what => exact iff_of_true ⟨append_ne_empty (by decide), rfl, rfl, rfl⟩ (.inl ⟨what, rfl⟩)
    | typeError n => simp [RejectsCleanly]
    | outOfRange n => simp [RejectsCleanly]
  | ok doc =>
    dsimp only
    split
    · rename_i hobject
      refine iff_of_true ⟨by decide, rfl, rfl, rfl⟩ (.inr ⟨doc, rfl, fun h => ?_⟩)
      simp [h] at hobject
    rename_i hobject
    have hclean : (((∃ what, Except.ok doc = .error (JsonException.parseError what)) ∨
        ∃ doc', (Except.ok doc : Except JsonException Json) = .ok doc' ∧ (doc'.isObject = true → CleanRule doc')) ↔
        ∃ result, parseRule doc = .ok result) := by
      rw [parseRule_returns_iff]
      have hobject' : doc.isObject = true := by simpa using hobject
      simp [hobject']
    rw [hclean]
    cases hrule : parseRule doc with
    | error e => exact iff_of_false id nofun
    | ok result =>
      refine iff_of_true ?_ ⟨_, rfl⟩
      cases result with
      | error error => exact ⟨parseRule_error hrule, rfl, rfl, rfl⟩
      | ok rule =>
        dsimp only
        have hmanager := persist_manager lib s a (upsertInto rule s.manager.rules)
        have hreply := persist_reply hprints s a (upsertInto rule s.manager.rules)
        rcases hpersist : persist lib s a (upsertInto rule s.manager.rules) with ⟨reply, written⟩
        rw [hpersist] at hmanager hreply
        rcases hreply with rfl | ⟨error, hne, rfl⟩
        · trivial
        · exact ⟨hne, congrArg AlertManager.rules hmanager, congrArg AlertManager.states hmanager,
            congrArg AlertManager.webhookUrl hmanager⟩

/-- **Main.** A call returns true, or false with an error and nothing changed, exactly for the texts that are read
without an exception. -/
theorem rejects_cleanly_iff (hprints : lib.Prints) :
    (∀ (m : AlertManager) (text : String),
      RejectsCleanly m (loadRulesFromJson lib m text).1 (loadRulesFromJson lib m text).2 ↔ CleanText lib text) ∧
    (∀ (s : Store) (path : String) (opens : Bool),
      RejectsCleanly s.manager (loadRulesFromFile lib s path opens).1 (loadRulesFromFile lib s path opens).2.manager ↔
        ∀ text, s.readable path opens = some text → CleanText lib text) ∧
    ∀ (s : Store) (ruleJson : String) (a : WriteAnswers),
      RejectsCleanly s.manager (upsertRule lib s ruleJson a).1 (upsertRule lib s ruleJson a).2.manager ↔
        CleanRuleText lib ruleJson :=
  ⟨loadRulesFromJson_clean_iff, loadRulesFromFile_clean_iff, upsertRule_clean_iff hprints⟩

end

/-! ## Texts of another shape -/

/-- The library on an array, on a list with a number in it and on a rule whose id is a number. -/
def shapeLib : JsonLib where
  parse text :=
    if text = "[]" then .ok (.array [])
    else if text = "\x7b\"rules\":[5]\x7d" then .ok (.object [("rules", .array [.int 5])])
    else if text = "\x7b\"id\":5\x7d" then .ok (.object [("id", .int 5)])
    else .error (.parseError "syntax error")
  dump j := .ok (if j = rulesDoc [] "" then emptyText else "null")

/-- A text that is no JSON is refused. -/
theorem rejects_cleanly_iff_no_json :
    RejectsCleanly {} (loadRulesFromJson shapeLib {} "no rules").1 (loadRulesFromJson shapeLib {} "no rules").2 := by
  have hprints : shapeLib.Prints := fun j => ⟨_, rfl⟩
  apply ((rejects_cleanly_iff hprints).1 {} "no rules").2
  exact .inl ⟨"syntax error", by simp [shapeLib]⟩

/-- An array for a document, a number for a rule and a number for an id: `value` throws in each of the calls. -/
theorem wrong_shape_throws :
    let loaded := loadRulesFromJson shapeLib {} "[]"
    let store : Store := { files := fun _ => some "\x7b\"rules\":[5]\x7d" }
    let fromFile := loadRulesFromFile shapeLib store "rules.json" true
    let upserted := upsertRule shapeLib store "\x7b\"id\":5\x7d" ⟨true, true, none⟩
    ¬RejectsCleanly {} loaded.1 loaded.2 ∧ ¬RejectsCleanly store.manager fromFile.1 fromFile.2.manager ∧
      ¬RejectsCleanly store.manager upserted.1 upserted.2.manager := by
  intro loaded store fromFile upserted
  have hloaded : loaded.1 = .threw (.typeError 306) := by decide +kernel
  have hfile : fromFile.1 = .threw (.typeError 306) := by decide +kernel
  have hupserted : upserted.1 = .threw (.typeError 302) := by decide +kernel
  rw [hloaded, hfile, hupserted]
  exact ⟨id, id, id⟩

end PudimNetMon.Alerting
