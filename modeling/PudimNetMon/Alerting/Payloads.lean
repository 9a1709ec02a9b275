import PudimNetMon.Alerting.Acknowledge
import PudimNetMon.Alerting.Isolation
import PudimNetMon.Storage.Attributes

/-!
# The JSON of alerts (`alert_manager.cpp`, `notifier.cpp`)

Records, notifications and active alerts are put together from escaped strings and printed doubles. The escapes are
those of the storage, and leave most control characters as they are; a double that is not finite prints as a word.

- `reads_formatDouble`: a double is a JSON number exactly when it is finite;
- `payloads_decode_iff`: the records, notifications and active lists that are JSON, with the fields they were made of.
-/

namespace PudimNetMon.Alerting

open JsonText Storage

/-! ## Notifications -/

def writeField (json name value : String) (first : Bool) : String :=
  (if first then json else json ++ ",") ++ "\"" ++ name ++ "\":\"" ++ escapeJson value ++ "\""

def AlertNotification.toJson (n : AlertNotification) : String :=
  let json := "\x7b"
  let json := writeField json "rule_id" n.ruleId true
  let json := writeField json "rule_name" n.ruleName false
  let json := writeField json "severity" n.severity false
  let json := writeField json "agent_id" n.agentId false
  let json := writeField json "check_type" n.checkType false
  let json := writeField json "target" n.target false
  let json := writeField json "status" n.status false
  let json := writeField json "detail" n.detail false
  let json := json ++ (",\"value\":" ++ formatDouble n.value)
  let json := json ++ (",\"threshold\":" ++ formatDouble n.threshold)
  let json := json ++ (",\"time_ms\":" ++ toString n.timeMs)
  json ++ "\x7d"

/-! ## Strings -/

theorem escapeJsonChar_eq : escapeJsonChar = jsonEscapeChar := by
  funext c
  unfold escapeJsonChar jsonEscapeChar
  rfl

/-- A string in a payload. -/
theorem reads_escapeJson (s : String) :
    Reads ('"' :: ((escapeJson s).toList ++ ['"'])) (Value.string s).tokens (¬Unescaped s) := by
  have hstring := escapes_json.string s
  rw [escapeJson, escapeJsonChar_eq, String.toList_ofList]
  exact hstring.congr (by simp [Unescaped])

/-! ## Doubles -/

theorem isDigit_padDigits {p n : Nat} {c : Char} (h : c ∈ (Double.padDigits p n).toList) : c.isDigit = true := by
  unfold Double.padDigits at h
  rw [String.toList_append, String.toList_ofList, List.mem_append] at h
  rcases h with h | h
  · rw [(List.mem_replicate.1 h).2]
    rfl
  · have hdigits : (toString n).toList = Nat.toDigits 10 n := Nat.toList_repr
    rw [hdigits] at h
    exact Decimal.isDigit_of_mem_toDigits h

/-- Decimals without the zeros at their end. -/
def significant (ds : List Char) : List Char := (ds.reverse.dropWhile (· = '0')).reverse

theorem toList_dropDecimals (front : List Char) {ds : List Char} (hds : ∀ c ∈ ds, c.isDigit = true) :
    (dropDecimals (String.ofList (front ++ '.' :: ds))).toList =
      front ++ if significant ds = [] then [] else '.' :: significant ds := by
  have hreverse : (front ++ '.' :: ds).reverse = ds.reverse ++ '.' :: front.reverse := by simp
  have hpoint : ('.' :: front.reverse).dropWhile (· = '0') = '.' :: front.reverse := rfl
  unfold dropDecimals significant
  rw [String.toList_ofList, hreverse, List.dropWhile_append, hpoint]
  cases hdrop : ds.reverse.dropWhile (· = '0') with
  | nil => simp
  | cons d rest =>
    have hmem : d ∈ ds.reverse := (List.dropWhile_sublist _).subset (by rw [hdrop]; exact List.mem_cons_self)
    have hdigit := hds d (List.mem_reverse.1 hmem)
    rw [if_neg (by simp), List.cons_append]
    split
    · rename_i heq
      cases heq
      cases hdigit
    · simp

/-- A finite double prints as a number. -/
theorem formatDouble_finite {v : Double} (h : v.isFinite = true) :
    ∃ (negative : Bool) (n : Nat) (ds : List Char), (∀ c ∈ ds, c.isDigit = true) ∧ (formatDouble v).toList =
      (if negative then ['-'] else []) ++ (Nat.toDigits 10 n ++ if ds = [] then [] else '.' :: ds) := by
  unfold formatDouble
  split
  · rw [Decimal.toList_toString]
    refine ⟨decide (v.trunc < 0), v.trunc.natAbs, [], nofun, ?_⟩
    split
    · rename_i hneg
      simp [hneg]
    · rename_i hneg
      simp [hneg]
  · have hnan : v.isNaN = false := by
      unfold Double.isFinite Double.isNaN at *
      simp only [decide_eq_true_eq, decide_eq_false_iff_not] at h ⊢
      omega
    have hinf : v.isInf = false := by
      unfold Double.isFinite Double.isInf at *
      simp only [decide_eq_true_eq, beq_eq_false_iff_ne] at h ⊢
      omega
    have hdigits : ∀ c ∈ (Double.padDigits 6 (v.scaled 6 % 10 ^ 6)).toList, c.isDigit = true :=
      fun c hc => isDigit_padDigits hc
    have htext : v.toFixed6 = String.ofList (((if v.neg then ['-'] else []) ++ Nat.toDigits 10 (v.scaled 6 / 10 ^ 6)) ++
        '.' :: (Double.padDigits 6 (v.scaled 6 % 10 ^ 6)).toList) := by
      apply String.toList_injective
      unfold Double.toFixed6 Double.toFixed
      rw [hnan, hinf]
      cases v.neg <;> simp [Nat.toList_repr]
    refine ⟨v.neg, v.scaled 6 / 10 ^ 6, significant (Double.padDigits 6 (v.scaled 6 % 10 ^ 6)).toList,
      fun c hc => ?_, ?_⟩
    · have hmem := (List.dropWhile_sublist _).subset (List.mem_reverse.1 hc)
      exact hdigits c (List.mem_reverse.1 hmem)
    · rw [htext, toList_dropDecimals _ hdigits, List.append_assoc]

/-- A double that is not finite prints as a word. -/
theorem formatDouble_infinite {v : Double} (h : v.isFinite = false) :
    formatDouble v ∈ ["nan", "-nan", "inf", "-inf"] := by
  have hwhole : isWhole v = false := by simp [isWhole, h]
  unfold formatDouble Double.toFixed6 Double.toFixed
  rw [hwhole, if_neg Bool.false_ne_true]
  cases hnan : v.isNaN with
  | true =>
    rw [if_pos rfl]
    cases v.neg <;> decide
  | false =>
    have hinf : v.isInf = true := by
      unfold Double.isFinite Double.isNaN Double.isInf at *
      simp only [decide_eq_false_iff_not, beq_iff_eq] at h hnan ⊢
      omega
    rw [if_neg Bool.false_ne_true, hinf, if_pos rfl]
    cases v.neg <;> decide

/-- A double in a payload. -/
theorem reads_formatDouble (v : Double) : Reads (formatDouble v).toList (Value.number (formatDouble v).toList).tokens
    (v.isFinite = true) := by
  cases h : v.isFinite with
  | true =>
    obtain ⟨negative, n, ds, hds, htext⟩ := formatDouble_finite h
    rw [htext]
    exact (Reads.decimals negative n hds).congr (by simp)
  | false =>
    have hword := formatDouble_infinite h
    have hwords : ∀ s ∈ ["nan", "-nan", "inf", "-inf"],
        s.toList.all isLiteralChar = true ∧ s.toList ≠ [] ∧ literalToken s.toList = none := by decide
    obtain ⟨hchars, hne, hstray⟩ := hwords _ hword
    exact (reads_stray (List.all_eq_true.1 hchars) hne hstray _).congr (by simp)

/-! ## Records, notifications and active alerts -/

def AlertRecord.toValue (r : AlertRecord) : Value :=
  .object [("rule_id", .string r.ruleId), ("rule_name", .string r.ruleName), ("agent_id", .string r.agentId),
    ("check_type", .string r.checkType), ("target", .string r.target), ("severity", .string r.severity),
    ("status", .string r.status), ("value", .number (formatDouble r.value).toList),
    ("threshold", .number (formatDouble r.threshold).toList), ("detail", .string r.detail),
    ("time_ms", .number (toString r.timeMs).toList)]

def AlertNotification.toValue (n : AlertNotification) : Value :=
  .object [("rule_id", .string n.ruleId), ("rule_name", .string n.ruleName), ("severity", .string n.severity),
    ("agent_id", .string n.agentId), ("check_type", .string n.checkType), ("target", .string n.target),
    ("status", .string n.status), ("detail", .string n.detail), ("value", .number (formatDouble n.value).toList),
    ("threshold", .number (formatDouble n.threshold).toList), ("time_ms", .number (toString n.timeMs).toList)]

/-- The threshold of a rule that is gone is zero. -/
def thresholdText (t : Option Double) : String :=
  match t with
  | some t => formatDouble t
  | none => "0"

def ActiveAlert.toValue (a : ActiveAlert) : Value :=
  .object [("rule_id", .string a.ruleId), ("rule_name", .string a.ruleName), ("severity", .string a.severity),
    ("agent_id", .string a.agentId), ("target", .string a.target), ("value", .number (formatDouble a.value).toList),
    ("threshold", .number (thresholdText a.threshold).toList), ("acknowledged", .bool a.acknowledged),
    ("fired_ms", .number (toString a.firedMs).toList)]

/-- The strings have no control character without an escape, and the doubles are finite. -/
def Printable (strings : List String) (doubles : List Double) : Prop :=
  (∀ s ∈ strings, ¬Unescaped s) ∧ ∀ v ∈ doubles, v.isFinite = true

def AlertRecord.Printable (r : AlertRecord) : Prop :=
  Alerting.Printable [r.ruleId, r.ruleName, r.agentId, r.checkType, r.target, r.severity, r.status, r.detail]
    [r.value, r.threshold]

def AlertNotification.Printable (n : AlertNotification) : Prop :=
  Alerting.Printable [n.ruleId, n.ruleName, n.severity, n.agentId, n.checkType, n.target, n.status, n.detail]
    [n.value, n.threshold]

def ActiveAlert.Printable (a : ActiveAlert) : Prop :=
  Alerting.Printable [a.ruleId, a.ruleName, a.severity, a.agentId, a.target] (a.value :: a.threshold.toList)

/-- The members of a record's text. -/
def AlertRecord.parts (r : AlertRecord) : List MemberPart :=
  [.of "rule_id" rfl (reads_escapeJson r.ruleId), .of "rule_name" rfl (reads_escapeJson r.ruleName),
    .of "agent_id" rfl (reads_escapeJson r.agentId), .of "check_type" rfl (reads_escapeJson r.checkType),
    .of "target" rfl (reads_escapeJson r.target), .of "severity" rfl (reads_escapeJson r.severity),
    .of "status" rfl (reads_escapeJson r.status), .of "value" rfl (reads_formatDouble r.value),
    .of "threshold" rfl (reads_formatDouble r.threshold), .of "detail" rfl (reads_escapeJson r.detail),
    .of "time_ms" rfl (Reads.int r.timeMs)]

theorem reads_record (r : AlertRecord) : Reads r.toJson.toList r.toValue.tokens r.Printable := by
  have hok : r.Printable ↔ ∀ m ∈ r.parts, m.ok := by
    simp [AlertRecord.Printable, Printable, AlertRecord.parts, MemberPart.of]
    tauto
  have hbody := (Reads.members r.parts).congr hok
  unfold AlertRecord.toJson AlertRecord.toValue Alerting.member
  simpa [AlertRecord.parts, MemberPart.of, List.intercalate_cons_cons] using hbody

/-- The members of a notification's text. -/
def AlertNotification.parts (n : AlertNotification) : List MemberPart :=
  [.of "rule_id" rfl (reads_escapeJson n.ruleId), .of "rule_name" rfl (reads_escapeJson n.ruleName),
    .of "severity" rfl (reads_escapeJson n.severity), .of "agent_id" rfl (reads_escapeJson n.agentId),
    .of "check_type" rfl (reads_escapeJson n.checkType), .of "target" rfl (reads_escapeJson n.target),
    .of "status" rfl (reads_escapeJson n.status), .of "detail" rfl (reads_escapeJson n.detail),
    .of "value" rfl (reads_formatDouble n.value), .of "threshold" rfl (reads_formatDouble n.threshold),
    .of "time_ms" rfl (Reads.int n.timeMs)]

theorem reads_notification (n : AlertNotification) : Reads n.toJson.toList n.toValue.tokens n.Printable := by
  have hok : n.Printable ↔ ∀ m ∈ n.parts, m.ok := by
    simp [AlertNotification.Printable, Printable, AlertNotification.parts, MemberPart.of]
    tauto
  have hbody := (Reads.members n.parts).congr hok
  unfold AlertNotification.toJson AlertNotification.toValue writeField
  simpa [AlertNotification.parts, MemberPart.of, List.intercalate_cons_cons] using hbody

theorem reads_threshold (t : Option Double) :
    Reads (thresholdText t).toList (Value.number (thresholdText t).toList).tokens
      (∀ v ∈ t.toList, v.isFinite = true) := by
  cases t with
  | none => exact (Reads.int 0).congr (by simp)
  | some t => exact (reads_formatDouble t).congr (by simp)

/-- The members of an active alert's text. -/
def ActiveAlert.parts (a : ActiveAlert) : List MemberPart :=
  [.of "rule_id" rfl (reads_escapeJson a.ruleId), .of "rule_name" rfl (reads_escapeJson a.ruleName),
    .of "severity" rfl (reads_escapeJson a.severity), .of "agent_id" rfl (reads_escapeJson a.agentId),
    .of "target" rfl (reads_escapeJson a.target), .of "value" rfl (reads_formatDouble a.value),
    .of "threshold" rfl (reads_threshold a.threshold), .of "acknowledged" rfl (Reads.bool a.acknowledged),
    .of "fired_ms" rfl (Reads.int a.firedMs)]

theorem reads_activeAlert (a : ActiveAlert) : Reads a.toJson.toList a.toValue.tokens a.Printable := by
  have hok : a.Printable ↔ ∀ m ∈ a.parts, m.ok := by
    simp [ActiveAlert.Printable, Printable, ActiveAlert.parts, MemberPart.of]
    tauto
  have hbody := (Reads.members a.parts).congr hok
  have htext : a.toJson = "\x7b" ++ Alerting.member "rule_id" a.ruleId ++ Alerting.member "rule_name" a.ruleName ++
      Alerting.member "severity" a.severity ++ Alerting.member "agent_id" a.agentId ++
      Alerting.member "target" a.target ++ "\"value\":" ++ formatDouble a.value ++ "," ++ "\"threshold\":" ++
      thresholdText a.threshold ++ "," ++ "\"acknowledged\":" ++ (if a.acknowledged then "true" else "false") ++ "," ++
      "\"fired_ms\":" ++ toString a.firedMs ++ "\x7d" := rfl
  rw [htext]
  unfold ActiveAlert.toValue Alerting.member
  simpa [ActiveAlert.parts, MemberPart.of, List.intercalate_cons_cons] using hbody

theorem reads_activeAlerts (l : List ActiveAlert) :
    Reads ("[" ++ ",".intercalate (l.map (·.toJson)) ++ "]").toList (Value.array (l.map ActiveAlert.toValue)).tokens
      (∀ a ∈ l, a.Printable) := by
  have hlist := Reads.array ActiveAlert.toValue l fun a _ => reads_activeAlert a
  simpa [String.toList_intercalate, Function.comp_def] using hlist

/-- The fields of a printable entry are those its key was joined from: the separator is a control character. -/
theorem activeAlert_original {mgr : AlertManager} {ruleId agentId target : String} {st : FiringState}
    (h : (mgr.activeAlert (stateKey ruleId agentId target) st).Printable) :
    keyFields (stateKey ruleId agentId target) = (ruleId, agentId, target) := by
  obtain ⟨hkey, hrule, hagent⟩ := stateKey_keyFields (rfl : stateKey ruleId agentId target = _)
  have htarget : ¬Unescaped (keyFields (stateKey ruleId agentId target)).2.2 :=
    h.1 _ (by simp [AlertManager.activeAlert])
  have hplain : ¬Ambiguous (stateKey (keyFields (stateKey ruleId agentId target)).1
      (keyFields (stateKey ruleId agentId target)).2.1 (keyFields (stateKey ruleId agentId target)).2.2) := by
    rw [ambiguous_stateKey]
    rintro (hsep | hsep | hsep)
    · exact hrule hsep
    · exact hagent hsep
    · exact htarget ⟨kSep, hsep, by unfold RawControl; decide⟩
  obtain ⟨hr, ha, ht⟩ := stateKey_unique hplain hkey.symm
  exact Prod.ext hr.symm (Prod.ext ha.symm ht.symm)

/-- **Payloads.** A record, a notification or an active list is JSON, and JSON for its fields, exactly when they are
printable; and then the entries of the list have the fields of their alerts. -/
theorem payloads_decode_iff (r : AlertRecord) (n : AlertNotification) (mgr : AlertManager) :
    ((Decodes r.toJson r.toValue ↔ r.Printable) ∧ ((∃ v, Decodes r.toJson v) ↔ r.Printable)) ∧
      ((Decodes n.toJson n.toValue ↔ n.Printable) ∧ ((∃ v, Decodes n.toJson v) ↔ n.Printable)) ∧
      ((Decodes mgr.activeAlertsJson (.array (mgr.activeAlerts.map ActiveAlert.toValue)) ↔
          ∀ a ∈ mgr.activeAlerts, a.Printable) ∧
        ((∃ v, Decodes mgr.activeAlertsJson v) ↔ ∀ a ∈ mgr.activeAlerts, a.Printable)) ∧
      ∀ ruleId agentId target st, (mgr.activeAlert (stateKey ruleId agentId target) st).Printable →
        keyFields (stateKey ruleId agentId target) = (ruleId, agentId, target) :=
  ⟨decodes_iff (reads_record r), decodes_iff (reads_notification n), decodes_iff (reads_activeAlerts mgr.activeAlerts),
    fun _ _ _ _ => activeAlert_original⟩

/-- A metric with an infinite latency, and a failed probe whose detail holds an escape character: neither record is
JSON, nor is the active list. -/
theorem infinite_value_breaks_json :
    let slow : AlertRule := { id := "slow", name := "slow", metricField := "latency_ms", threshold := .ofInt 100 }
    let down : AlertRule := { id := "down", name := "down", onFailure := true }
    let timeout : Metric := { target := "dns", success := true, value := some (.latencyMs ⟨0x7ff0000000000000⟩) }
    let failed : Metric := { target := "dns", detail := "\x1b[31mrefused" }
    let infinite := (({ rules := [slow] } : AlertManager).evaluate "edge" [timeout] 1000).1
    let colored := (({ rules := [down] } : AlertManager).evaluate "edge" [failed] 1000).1
    (infinite.history.map fun r => formatDouble r.value) = ["inf"] ∧
      (∀ r ∈ infinite.history, ¬∃ v, Decodes r.toJson v) ∧ (∀ r ∈ colored.history, ¬∃ v, Decodes r.toJson v) ∧
      (∀ r ∈ colored.history, ¬∃ v, Decodes (makeNotification r).toJson v) ∧
      ¬∃ v, Decodes infinite.activeAlertsJson v := by
  intro slow down timeout failed infinite colored
  have hvalue : infinite.history.map (fun r => r.value.isFinite) = [false] := by decide
  have hdetail : colored.history.map (fun r => r.detail) = ["\x1b[31mrefused"] := by decide
  have hactive : infinite.activeAlerts.map (fun a => a.value.isFinite) = [false] := by decide
  have hraw : Unescaped "\x1b[31mrefused" := ⟨'\x1b', by decide, by unfold RawControl; decide⟩
  have hbroken : ∀ r ∈ colored.history, r.detail = "\x1b[31mrefused" := fun r hr => by
    have hmem := List.mem_map_of_mem (f := fun r => r.detail) hr
    rw [hdetail] at hmem
    exact List.mem_singleton.1 hmem
  refine ⟨by decide, fun r hr h => ?_, fun r hr h => ?_, fun r hr h => ?_, fun h => ?_⟩
  · have hmem := List.mem_map_of_mem (f := fun r => r.value.isFinite) hr
    rw [hvalue, List.mem_singleton, ((decodes_iff (reads_record r)).2.1 h).2 r.value List.mem_cons_self] at hmem
    cases hmem
  · have hclean := ((decodes_iff (reads_record r)).2.1 h).1 r.detail (by simp)
    rw [hbroken r hr] at hclean
    exact hclean hraw
  · have hclean :=
      ((decodes_iff (reads_notification (makeNotification r))).2.1 h).1 r.detail (by simp [makeNotification])
    rw [hbroken r hr] at hclean
    exact hclean hraw
  · have hprintable := (decodes_iff (reads_activeAlerts infinite.activeAlerts)).2.1 h
    obtain ⟨a, ha, hfinite⟩ := List.map_eq_singleton_iff.1 hactive
    rw [((hprintable a (by rw [ha]; exact List.mem_cons_self)).2 a.value List.mem_cons_self)] at hfinite
    cases hfinite

end PudimNetMon.Alerting
