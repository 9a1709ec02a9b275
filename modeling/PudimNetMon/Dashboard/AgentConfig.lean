import PudimNetMon.Agent.ProbeConfig
import PudimNetMon.Collector.HttpServer
import PudimNetMon.Lib.Decimal
import PudimNetMon.Lib.JsText
import PudimNetMon.Lib.Separated

/-!
# The configuration panel of the dashboard (`useAgentConfig.ts`)

The panel reads the line that `GetConfig` prints back into a form, and sends the form as a JSON body to the collector,
which builds the request for `Reconfigure`.

- `roundTrip_resets_counts`: what comes back when the form is sent unchanged;
- `survives_iff`: the configurations that come back as they were.
-/

namespace PudimNetMon.Dashboard

open Agent (ProbeConfig summaryOf configOf joinList)
open Js (Numbers)

structure AgentConfigForm where
  dns : String
  tcp : String
  tls : String
  http : String
  ping : String
  pingCount : String
  pingGap : String
  tlsCert : Bool
  tcpRetransmit : Bool
  tcpHandshake : Bool
  httpProtocols : String
  deriving DecidableEq

/-- One `key=value` of the line, if it has a key. -/
def assignment (pair : List Char) : Option (String × String) :=
  match cut '=' pair with
  | some (key, value) => if key.isEmpty then none else some (String.ofList key, String.ofList value)
  | none => none

/-- The last value that a key is given. -/
def setField (fields : List (String × String)) (key : String) : String := (fields.reverse.lookup key).getD ""

/-- `s || default` -/
def textOr (s default : String) : String := if s.isEmpty then default else s

def parseApplied (applied : String) : AgentConfigForm :=
  let fields := (Js.splitBlanks applied.toList).filterMap assignment
  { dns := setField fields "dns"
    tcp := setField fields "tcp"
    tls := setField fields "tls"
    http := setField fields "http"
    ping := setField fields "ping"
    pingCount := textOr (setField fields "ping_count") "4"
    pingGap := textOr (setField fields "ping_gap_ms") "200"
    tlsCert := setField fields "tls_cert" != "off"
    tcpRetransmit := setField fields "tcp_retransmit" != "off"
    tcpHandshake := setField fields "tcp_handshake" != "off"
    httpProtocols := setField fields "http_protocols" }

def split (s : String) : List String :=
  (((s.toList.splitOn ',').map Js.trim).filter fun x => x.length > 0).map String.ofList

/-- What the collector reads of a number in the body: `JSON.stringify` writes `String(d)`, or `null` if `d` is not
finite; digits that 64 bits hold are an integer. -/
def numberJson (numbers : Numbers) (d : Double) : Json :=
  if d.isFinite then
    match Decimal.integer? (numbers.toText d).toList with
    | some n => if -2 ^ 63 ≤ n ∧ n < 2 ^ 64 then .int n else .float d
    | none => .float d
  else .null

/-- The body of `useApplyAgentConfig`, as the collector reads it. -/
def applyBody (numbers : Numbers) (agentId : String) (form : AgentConfigForm) : Json :=
  let texts (items : List String) : Json := .array (items.map .string)
  Json.null
    |>.set "agent_id" (.string agentId)
    |>.set "dns_targets" (texts (split form.dns))
    |>.set "tcp_targets" (texts (split form.tcp))
    |>.set "tls_targets" (texts (split form.tls))
    |>.set "http_targets" (texts (split form.http))
    |>.set "ping_targets" (texts (split form.ping))
    |>.set "ping_count" (numberJson numbers (Js.numberOr numbers form.pingCount 4))
    |>.set "ping_gap_ms" (numberJson numbers (Js.numberOr numbers form.pingGap 200))
    |>.set "tls_cert_check" (.bool form.tlsCert)
    |>.set "tcp_retransmit_check" (.bool form.tcpRetransmit)
    |>.set "tcp_handshake_capture" (.bool form.tcpHandshake)
    |>.set "http_protocols" (texts (split form.httpProtocols))

/-- The form is loaded from an agent and sent back unchanged: what the agent holds then. -/
def roundTrip (numbers : Numbers) (agentId : String) (c : ProbeConfig) : Except JsonException ProbeConfig := do
  let form := parseApplied (Agent.getConfig c).applied
  let request ← Collector.Http.configRequest agentId (applyBody numbers agentId form)
  return (Agent.reconfigure request).1

/-! ## The line and its fields -/

def summaryFields (c : ProbeConfig) : List (String × String) :=
  [("dns", joinList c.dnsTargets), ("tcp", joinList c.tcpTargets), ("tls", joinList c.tlsTargets),
   ("http", joinList c.httpTargets), ("ping", joinList c.pingTargets), ("ping_count", toString c.pingCount.toInt),
   ("ping_gap_ms", toString c.pingGapMs.toInt), ("tls_cert", Agent.onOff c.tlsCertCheck),
   ("tcp_retransmit", Agent.onOff c.tcpRetransmitCheck), ("tcp_handshake", Agent.onOff c.tcpHandshakeCapture),
   ("http_protocols", joinList c.httpProtocols)]

/-- The line is its fields with a blank between each two. -/
theorem toList_summaryOf (c : ProbeConfig) : (summaryOf c).toList =
    [' '].intercalate ((summaryFields c).map fun f => f.1.toList ++ '=' :: f.2.toList) := by
  unfold summaryOf summaryFields
  simp [List.intercalate_cons_cons, List.append_assoc]

theorem assignment_field {key : String} (hne : key ≠ "") (hkey : '=' ∉ key.toList) (value : String) :
    assignment (key.toList ++ '=' :: value.toList) = some (key, value) := by
  unfold assignment
  rw [cut_append hkey]
  simp [hne]

theorem mem_of_assignment {pair : List Char} {key value : String} (h : assignment pair = some (key, value)) :
    ∀ ch ∈ value.toList, ch ∈ pair := by
  unfold assignment at h
  split at h
  · rename_i k v hcut
    split at h
    · cases h
    · cases h
      rw [append_of_cut hcut, String.toList_ofList]
      intro ch hch
      simp [hch]
  · cases h

/-- A value that the line carries has no blank. -/
theorem setField_noSpace (line : List Char) (key : String) :
    ∀ ch ∈ (setField ((Js.splitBlanks line).filterMap assignment) key).toList, Js.isSpace ch = false := by
  unfold setField
  cases hfind : ((Js.splitBlanks line).filterMap assignment).reverse.lookup key with
  | none => simp
  | some value =>
    obtain ⟨front, back, heq, -⟩ := List.lookup_eq_some_iff.1 hfind
    have hmem : (key, value) ∈ (Js.splitBlanks line).filterMap assignment := by
      rw [← List.mem_reverse, heq]
      simp
    obtain ⟨pair, hpair, hassign⟩ := List.mem_filterMap.1 hmem
    exact fun ch hch => (Js.splitOnP_part hpair ch (mem_of_assignment hassign ch hch)).2

/-! ## Lists of targets -/

/-- A target that survives: no comma and no blank cuts it. -/
def Target (x : String) : Prop := x ≠ "" ∧ ',' ∉ x.toList ∧ ∀ ch ∈ x.toList, Js.isSpace ch = false

theorem target_of_mem_split {s x : String} (hs : ∀ ch ∈ s.toList, Js.isSpace ch = false) (h : x ∈ split s) :
    Target x := by
  unfold split at h
  simp only [List.mem_map, List.mem_filter] at h
  obtain ⟨t, ⟨⟨part, hpart, rfl⟩, hlength⟩, rfl⟩ := h
  obtain ⟨hcomma, hsub⟩ := Js.splitOn_part hpart
  refine ⟨fun he => ?_, fun hmem => ?_, fun ch hch => ?_⟩
  · rw [String.ofList_eq_empty_iff] at he
    simp [he] at hlength
  · rw [String.toList_ofList] at hmem
    exact hcomma (Js.mem_of_mem_trim hmem)
  · rw [String.toList_ofList] at hch
    exact hs ch (hsub ch (Js.mem_of_mem_trim hch))

theorem split_joinList {items : List String} (h : ∀ x ∈ items, Target x) : split (joinList items) = items := by
  cases items with
  | nil => rfl
  | cons x items =>
    have hsplit : (joinList (x :: items)).toList.splitOn ',' = (x :: items).map String.toList := by
      unfold joinList
      rw [String.toList_intercalate]
      apply List.splitOn_intercalate
      · intro l hl
        obtain ⟨y, hy, rfl⟩ := List.mem_map.1 hl
        exact (h y hy).2.1
      · simp
    have htrim : ((x :: items).map String.toList).map Js.trim = (x :: items).map String.toList := by
      rw [List.map_map]
      exact List.map_congr_left fun y hy => Js.trim_of_noSpace (h y hy).2.2
    have hfilter : ((x :: items).map String.toList).filter (fun t => t.length > 0) =
        (x :: items).map String.toList := by
      apply List.filter_eq_self.2
      intro t ht
      obtain ⟨y, hy, rfl⟩ := List.mem_map.1 ht
      have hne : y.toList ≠ [] := fun he => (h y hy).1 (String.toList_eq_nil_iff.1 he)
      exact decide_eq_true (List.length_pos_iff.2 hne)
    unfold split
    rw [hsplit, htrim, hfilter, List.map_map]
    simp

/-! ## The form -/

/-- The configuration's lists. -/
def lists (c : ProbeConfig) : List (List String) :=
  [c.dnsTargets, c.tcpTargets, c.tlsTargets, c.httpTargets, c.pingTargets, c.httpProtocols]

theorem joinList_noSpace {items : List String} (h : ∀ x ∈ items, Target x) :
    ∀ ch ∈ (joinList items).toList, Js.isSpace ch = false := by
  unfold joinList
  rw [String.toList_intercalate]
  apply forall_mem_intercalate
  · decide
  · intro text htext
    obtain ⟨x, hx, rfl⟩ := List.mem_map.1 htext
    exact (h x hx).2.2

theorem onOff_noSpace (b : Bool) : ∀ ch ∈ (Agent.onOff b).toList, Js.isSpace ch = false := by
  have hall : ((Agent.onOff b).toList.all fun ch => !Js.isSpace ch) = true := by
    cases b <;> decide
  intro ch hch
  simpa using List.all_eq_true.1 hall ch hch

theorem toString_noSpace (n : Int) : ∀ ch ∈ (toString n).toList, Js.isSpace ch = false := by
  intro ch hch
  rcases Decimal.mem_toString hch with hdigit | rfl
  · exact Js.isSpace_of_isDigit hdigit
  · decide

/-- **The fields are read back.** -/
theorem fields_read {c : ProbeConfig} (h : ∀ items ∈ lists c, ∀ x ∈ items, Target x) :
    (Js.splitBlanks (summaryOf c).toList).filterMap assignment = summaryFields c := by
  have hvalue : ∀ f ∈ summaryFields c, ∀ ch ∈ f.2.toList, Js.isSpace ch = false := by
    simp only [lists, List.forall_mem_cons, List.not_mem_nil, false_implies, implies_true, and_true] at h
    obtain ⟨hdns, htcp, htls, hhttp, hping, hprotocols⟩ := h
    simp only [summaryFields, List.forall_mem_cons, List.not_mem_nil, false_implies, implies_true, and_true]
    exact ⟨joinList_noSpace hdns, joinList_noSpace htcp, joinList_noSpace htls, joinList_noSpace hhttp,
      joinList_noSpace hping, toString_noSpace _, toString_noSpace _, onOff_noSpace _, onOff_noSpace _,
      onOff_noSpace _, joinList_noSpace hprotocols⟩
  have hkeys : ∀ key ∈ (summaryFields c).map Prod.fst,
      key ≠ "" ∧ '=' ∉ key.toList ∧ key.toList.all fun ch => !Js.isSpace ch := by
    show ∀ key ∈ ["dns", "tcp", "tls", "http", "ping", "ping_count", "ping_gap_ms", "tls_cert", "tcp_retransmit",
      "tcp_handshake", "http_protocols"], _
    decide
  have hkey := fun (f : String × String) (hf : f ∈ summaryFields c) => hkeys f.1 (List.mem_map_of_mem hf)
  have hassign : ∀ f ∈ summaryFields c, (assignment ∘ fun f => f.1.toList ++ '=' :: f.2.toList) f = some f :=
    fun f hf => assignment_field (hkey f hf).1 (hkey f hf).2.1 f.2
  rw [toList_summaryOf, Js.splitBlanks_intercalate, List.filterMap_map, List.filterMap_congr hassign,
    List.filterMap_some]
  · intro w hw
    obtain ⟨f, hf, rfl⟩ := List.mem_map.1 hw
    refine ⟨by simp, fun ch hch => ?_⟩
    rcases List.mem_append.1 hch with hch | hch
    · simpa using List.all_eq_true.1 (hkey f hf).2.2 ch hch
    · rcases List.mem_cons.1 hch with rfl | hch
      · decide
      · exact hvalue f hf ch hch
  · simp [summaryFields]

theorem textOr_toString (n : Int) (default : String) : textOr (toString n) default = toString n := by
  have hne : toString n ≠ "" := by
    intro he
    have hread := Decimal.integer?_toString n
    rw [he] at hread
    exact nomatch hread
  unfold textOr
  exact if_neg fun he => hne (String.isEmpty_iff.1 he)

theorem onOff_ne_off (b : Bool) : (Agent.onOff b != "off") = b := by
  cases b <;> rfl

theorem parseApplied_summaryOf {c : ProbeConfig} (h : ∀ items ∈ lists c, ∀ x ∈ items, Target x) :
    parseApplied (summaryOf c) =
      { dns := joinList c.dnsTargets, tcp := joinList c.tcpTargets, tls := joinList c.tlsTargets
        http := joinList c.httpTargets, ping := joinList c.pingTargets, pingCount := toString c.pingCount.toInt
        pingGap := toString c.pingGapMs.toInt, tlsCert := c.tlsCertCheck, tcpRetransmit := c.tcpRetransmitCheck
        tcpHandshake := c.tcpHandshakeCapture, httpProtocols := joinList c.httpProtocols } := by
  unfold parseApplied
  rw [fields_read h]
  dsimp only
  have hcount : setField (summaryFields c) "ping_count" = toString c.pingCount.toInt := rfl
  have hgap : setField (summaryFields c) "ping_gap_ms" = toString c.pingGapMs.toInt := rfl
  have hcert : setField (summaryFields c) "tls_cert" = Agent.onOff c.tlsCertCheck := rfl
  have hretransmit : setField (summaryFields c) "tcp_retransmit" = Agent.onOff c.tcpRetransmitCheck := rfl
  have hhandshake : setField (summaryFields c) "tcp_handshake" = Agent.onOff c.tcpHandshakeCapture := rfl
  rw [hcount, hgap, hcert, hretransmit, hhandshake, textOr_toString, textOr_toString, onOff_ne_off, onOff_ne_off,
    onOff_ne_off]
  rfl

/-- The texts of the form's lists. -/
def texts (form : AgentConfigForm) : List String :=
  [form.dns, form.tcp, form.tls, form.http, form.ping, form.httpProtocols]

theorem form_noSpace (applied : String) :
    ∀ text ∈ texts (parseApplied applied), ∀ ch ∈ text.toList, Js.isSpace ch = false := by
  have hfield := setField_noSpace applied.toList
  simp only [texts, parseApplied, List.forall_mem_cons, List.not_mem_nil, false_implies, implies_true, and_true]
  exact ⟨hfield "dns", hfield "tcp", hfield "tls", hfield "http", hfield "ping", hfield "http_protocols"⟩

/-! ## The request -/

theorem putList_texts {body : Json} {key : String} {items : List String}
    (h : body.find? key = some (.array (items.map .string))) : Collector.Http.putList body key = .ok items := by
  have hread : ∀ l : List String, (l.map Json.string).mapM Json.getString = .ok l := by
    intro l
    induction l with
    | nil => rfl
    | cons x l ih =>
      rw [List.map_cons, List.mapM_cons, ih]
      rfl
  unfold Collector.Http.putList
  rw [h]
  exact hread items

theorem getMember_some {α : Type} {get : Json → Except JsonException α} {body v : Json} {key : String}
    (h : body.find? key = some v) : Collector.Http.getMember get body key = (get v).map some := by
  unfold Collector.Http.getMember
  rw [h]

/-- The request that a form becomes, with the counts that are read. -/
def requestOf (agentId : String) (form : AgentConfigForm) (count gap : Int) : AgentConfigRequest :=
  { agentId
    dnsTargets := split form.dns
    tcpTargets := split form.tcp
    tlsTargets := split form.tls
    httpTargets := split form.http
    pingTargets := split form.ping
    pingCount := count
    pingGapMs := gap
    tlsCertCheck := some form.tlsCert
    tcpRetransmitCheck := some form.tcpRetransmit
    tcpHandshakeCapture := some form.tcpHandshake
    httpProtocols := split form.httpProtocols }

/-- **What the collector makes of a form.** -/
theorem configRequest_applyBody (numbers : Numbers) (agentId : String) (form : AgentConfigForm) :
    Collector.Http.configRequest agentId (applyBody numbers agentId form) = (do
      let count ← (numberJson numbers (Js.numberOr numbers form.pingCount 4)).getInt
      let gap ← (numberJson numbers (Js.numberOr numbers form.pingGap 200)).getInt
      return requestOf agentId form count gap) := by
  let body := applyBody numbers agentId form
  have hdns : Collector.Http.putList body "dns_targets" = .ok (split form.dns) :=
    putList_texts (by simp [body, applyBody])
  have htcp : Collector.Http.putList body "tcp_targets" = .ok (split form.tcp) :=
    putList_texts (by simp [body, applyBody])
  have htls : Collector.Http.putList body "tls_targets" = .ok (split form.tls) :=
    putList_texts (by simp [body, applyBody])
  have hhttp : Collector.Http.putList body "http_targets" = .ok (split form.http) :=
    putList_texts (by simp [body, applyBody])
  have hping : Collector.Http.putList body "ping_targets" = .ok (split form.ping) :=
    putList_texts (by simp [body, applyBody])
  have hprotocols : Collector.Http.putList body "http_protocols" = .ok (split form.httpProtocols) :=
    putList_texts (by simp [body, applyBody])
  have hcount : body.find? "ping_count" = some (numberJson numbers (Js.numberOr numbers form.pingCount 4)) := by
    simp [body, applyBody]
  have hgap : body.find? "ping_gap_ms" = some (numberJson numbers (Js.numberOr numbers form.pingGap 200)) := by
    simp [body, applyBody]
  have hcert : body.find? "tls_cert_check" = some (.bool form.tlsCert) := by simp [body, applyBody]
  have hretransmit : body.find? "tcp_retransmit_check" = some (.bool form.tcpRetransmit) := by simp [body, applyBody]
  have hhandshake : body.find? "tcp_handshake_capture" = some (.bool form.tcpHandshake) := by simp [body, applyBody]
  unfold Collector.Http.configRequest
  rw [hdns, htcp, htls, hhttp, hping, hprotocols, getMember_some hcount, getMember_some hgap, getMember_some hcert,
    getMember_some hretransmit, getMember_some hhandshake]
  cases (numberJson numbers (Js.numberOr numbers form.pingCount 4)).getInt with
  | error e => rfl
  | ok count => cases (numberJson numbers (Js.numberOr numbers form.pingGap 200)).getInt <;> rfl

theorem safe_toInt (n : Int32) : Js.Safe n.toInt := by
  have hlow := n.le_toInt
  have hhigh := n.toInt_lt
  unfold Js.Safe
  omega

/-- An `int` is read as it is. -/
theorem getInt_numberJson {numbers : Numbers} (hlaw : numbers.Lawful) (n : Int32) :
    (numberJson numbers (.ofInt n.toInt)).getInt = .ok n.toInt := by
  have hlow := n.le_toInt
  have hhigh := n.toInt_lt
  have hfinite := Double.isFinite_ofInt (n := n.toInt) (by omega)
  unfold numberJson
  rw [if_pos hfinite, hlaw.toText_int n.toInt (safe_toInt n), Decimal.integer?_toString]
  dsimp only
  rw [if_pos (by omega), Json.getInt, Int.bmod_eq_of_le (by omega) (by omega)]

/-- The configuration that comes back. -/
theorem roundTrip_eq_ok {numbers : Numbers} {agentId : String} {c c' : ProbeConfig}
    (h : roundTrip numbers agentId c = .ok c') : ∃ count gap : Int, count < 2 ^ 31 ∧ gap < 2 ^ 31 ∧
      c' = configOf (requestOf agentId (parseApplied (summaryOf c)) count gap) := by
  unfold roundTrip at h
  dsimp only at h
  rw [configRequest_applyBody] at h
  obtain ⟨request, hrequest, h⟩ := bind_eq_ok.1 h
  obtain ⟨count, hcount, hrequest⟩ := bind_eq_ok.1 hrequest
  obtain ⟨gap, hgap, hrequest⟩ := bind_eq_ok.1 hrequest
  have hconfig : configOf request = c' := Except.ok.inj h
  rw [← Except.ok.inj hrequest] at hconfig
  exact ⟨count, gap, (Json.getInt_bounds hcount).2, (Json.getInt_bounds hgap).2, hconfig.symm⟩

/-! ## The round trip -/

/-- The two configurations measure the same. -/
structure SameProbes (c c' : ProbeConfig) : Prop where
  dnsTargets : c'.dnsTargets = c.dnsTargets
  tcpTargets : c'.tcpTargets = c.tcpTargets
  tlsTargets : c'.tlsTargets = c.tlsTargets
  httpTargets : c'.httpTargets = c.httpTargets
  pingTargets : c'.pingTargets = c.pingTargets
  httpProtocols : c'.httpProtocols = c.httpProtocols
  pingCount : c'.pingCount = c.pingCount
  pingGapMs : c'.pingGapMs = c.pingGapMs
  tlsCertCheck : c'.tlsCertCheck = c.tlsCertCheck
  tcpRetransmitCheck : c'.tcpRetransmitCheck = c.tcpRetransmitCheck
  tcpHandshakeCapture : c'.tcpHandshakeCapture = c.tcpHandshakeCapture
  ntpCheck : c'.ntpCheck = c.ntpCheck

/-- The configuration survives. -/
def Survives (numbers : Numbers) (agentId : String) (c : ProbeConfig) : Prop :=
  ∃ c', roundTrip numbers agentId c = .ok c' ∧ SameProbes c c'

/-- The configuration with its counts, where they are not positive, at their defaults. -/
def normalCounts (c : ProbeConfig) : ProbeConfig :=
  { c with pingCount := Agent.normalCount c.pingCount 4, pingGapMs := Agent.normalCount c.pingGapMs 200 }

/-- A count that the form sends: zero is replaced in the form, a negative one by the agent. -/
theorem positiveOr_sent (n default : Int32) (hdefault : 0 < default.toInt) :
    Agent.positiveOr (if n.toInt = 0 then default.toInt else n.toInt) default = Agent.normalCount n default := by
  split
  · rename_i hzero
    rw [Agent.positiveOr_toInt]
    unfold Agent.normalCount
    rw [if_pos hdefault, if_neg (by omega)]
  · exact Agent.positiveOr_toInt n default

theorem getInt_sent {numbers : Numbers} (hlaw : numbers.Lawful) (n default : Int32) :
    (numberJson numbers (Js.numberOr numbers (toString n.toInt) default.toInt)).getInt =
      .ok (if n.toInt = 0 then default.toInt else n.toInt) := by
  rw [Js.numberOr_int hlaw (safe_toInt n)]
  split
  · exact getInt_numberJson hlaw default
  · exact getInt_numberJson hlaw n

/-- What comes back for targets that survive. -/
theorem roundTrip_of_targets {numbers : Numbers} (hlaw : numbers.Lawful) (agentId : String) {c : ProbeConfig}
    (h : ∀ items ∈ lists c, ∀ x ∈ items, Target x) :
    ∃ c', roundTrip numbers agentId c = .ok c' ∧ c'.ntpCheck = true ∧
      SameProbes { normalCounts c with ntpCheck := true } c' := by
  have hsplit := fun items hitems => split_joinList (h items hitems)
  simp only [lists, List.forall_mem_cons, List.not_mem_nil, false_implies, implies_true, and_true] at hsplit
  obtain ⟨hdns, htcp, htls, hhttp, hping, hprotocols⟩ := hsplit
  refine ⟨configOf (requestOf agentId (parseApplied (summaryOf c))
    (if c.pingCount.toInt = 0 then 4 else c.pingCount.toInt)
    (if c.pingGapMs.toInt = 0 then 200 else c.pingGapMs.toInt)), ?_, rfl, ?_⟩
  · unfold roundTrip
    dsimp only
    rw [configRequest_applyBody, Agent.getConfig, parseApplied_summaryOf h]
    dsimp only
    have hcount := getInt_sent hlaw c.pingCount 4
    have hgap := getInt_sent hlaw c.pingGapMs 200
    rw [show (4 : Int32).toInt = 4 by decide] at hcount
    rw [show (200 : Int32).toInt = 200 by decide] at hgap
    rw [hcount, hgap]
    rfl
  · rw [parseApplied_summaryOf h]
    exact ⟨hdns, htcp, htls, hhttp, hping, hprotocols, positiveOr_sent c.pingCount 4 (by decide),
      positiveOr_sent c.pingGapMs 200 (by decide), rfl, rfl, rfl, rfl⟩

/-- **What the panel keeps**: targets without a comma and without a blank, the flags, and the counts that are
positive; other counts are reset. -/
theorem roundTrip_resets_counts {numbers : Numbers} (hlaw : numbers.Lawful) (agentId : String) (c : ProbeConfig)
    (h : ∀ items ∈ lists c, ∀ x ∈ items, Target x) (hntp : c.ntpCheck = true) :
    ∃ c', roundTrip numbers agentId c = .ok c' ∧ SameProbes (normalCounts c) c' := by
  obtain ⟨c', hok, -, hsame⟩ := roundTrip_of_targets hlaw agentId h
  refine ⟨c', hok, ?_⟩
  have hnormal : { normalCounts c with ntpCheck := true } = normalCounts c := by
    unfold normalCounts
    rw [← hntp]
  rw [← hnormal]
  exact hsame

/-- Two targets come back, the count of zero becomes four. -/
theorem roundTrip_resets_counts_zero : ∃ c', roundTrip Numbers.exact "agent-1"
      { dnsTargets := ["example.com", "other.com"], pingCount := 0 } = .ok c' ∧
    SameProbes (normalCounts { dnsTargets := ["example.com", "other.com"], pingCount := 0 }) c' :=
  roundTrip_resets_counts Js.Numbers.exact_roundTrip.toLawful "agent-1" _
    (by simp [lists, Target]; decide) rfl

/-! ## What does not survive -/

/-- What the line, the form and the request carry. -/
structure Carried (c : ProbeConfig) : Prop where
  targets : ∀ items ∈ lists c, ∀ x ∈ items, Target x
  pingCount : 0 < c.pingCount.toInt
  pingGapMs : 0 < c.pingGapMs.toInt
  ntpCheck : c.ntpCheck = true

theorem carried_of_survives {numbers : Numbers} {agentId : String} {c : ProbeConfig}
    (h : Survives numbers agentId c) : Carried c := by
  obtain ⟨c', hok, hsame⟩ := h
  obtain ⟨count, gap, hcount, hgap, rfl⟩ := roundTrip_eq_ok hok
  refine ⟨?_, ?_, ?_, hsame.ntpCheck.symm⟩
  · have htexts := form_noSpace (summaryOf c)
    generalize parseApplied (summaryOf c) = form at hsame htexts
    have hlists : lists c = (texts form).map split := by
      unfold lists
      rw [← hsame.dnsTargets, ← hsame.tcpTargets, ← hsame.tlsTargets, ← hsame.httpTargets, ← hsame.pingTargets,
        ← hsame.httpProtocols]
      rfl
    intro items hitems x hx
    rw [hlists] at hitems
    obtain ⟨text, htext, rfl⟩ := List.mem_map.1 hitems
    exact target_of_mem_split (htexts text htext) hx
  · rw [← hsame.pingCount]
    exact Agent.positiveOr_pos hcount (by decide)
  · rw [← hsame.pingGapMs]
    exact Agent.positiveOr_pos hgap (by decide)

/-- **A configuration survives exactly when its targets are not empty, without a comma and without a blank, and its
counts are positive.** -/
theorem survives_iff {numbers : Numbers} (hlaw : numbers.Lawful) (agentId : String) (c : ProbeConfig) :
    Survives numbers agentId c ↔ Carried c := by
  refine ⟨carried_of_survives, fun h => ?_⟩
  obtain ⟨c', hok, -, hsame⟩ := roundTrip_of_targets hlaw agentId h.targets
  refine ⟨c', hok, ?_⟩
  have hnormal : { normalCounts c with ntpCheck := true } = c := by
    unfold normalCounts Agent.normalCount
    rw [if_pos h.pingCount, if_pos h.pingGapMs, ← h.ntpCheck]
  rw [hnormal] at hsame
  exact hsame

/-- A count of zero is reset. -/
theorem zero_count_changes : ¬∀ c : ProbeConfig, c.ntpCheck = true → Survives Numbers.exact "agent-1" c := by
  intro h
  have hcount := (carried_of_survives (h { pingCount := 0 } rfl)).pingCount
  exact absurd hcount (by decide)

/-- Of the list `example.com, other.com` in the config file the second target begins with a blank, and is lost. -/
theorem blank_loses_target : ¬Survives Numbers.exact "agent-1" { dnsTargets := ["example.com", " other.com"] } := by
  intro h
  have hblank := (carried_of_survives h).targets ["example.com", " other.com"] (by simp [lists]) " other.com" (by simp)
  exact absurd (hblank.2.2 ' ' (by simp)) (by decide)

end PudimNetMon.Dashboard
