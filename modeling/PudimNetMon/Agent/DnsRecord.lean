import PudimNetMon.Lib.IpAddress
import PudimNetMon.Lib.Separated
import PudimNetMon.Metric

/-!
# The DNS record probe (`probes.cpp`)

What three lookups of a host resolve becomes one text for each record type, and the expected records are compared with
these texts.

- `actualText_eq`: the text of a type is the values of the type, joined by commas;
- `dnsRecord_success_iff`: where the probe succeeds exactly if each expected value is among the values of its type.
-/

namespace PudimNetMon.Agent

open Ip

/-- What the lookups of a host return: without a family the canonical name, if there is one, then the IPv4 and the IPv6
addresses; none where the lookup fails. -/
structure Lookups where
  canonical : Option String
  a : Option (List V4)
  aaaa : Option (List V6)
  deriving DecidableEq, Repr

/-! ## Attributes -/

/-- The loop over the addresses, with the text so far. -/
def joinFrom (text : String) : List String → String
  | [] => text
  | buf :: bufs => joinFrom ((if text.isEmpty then text else text ++ ",") ++ buf) bufs

/-- The canonical name, where it is another name than the host's. -/
def Lookups.cname (l : Lookups) (host : String) : List String :=
  match l.canonical with
  | none => []
  | some canon => if canon.isEmpty || canon == host then [] else [canon]

def Lookups.aTexts (l : Lookups) : List String := (l.a.getD []).map fun x => String.ofList x.text

def Lookups.aaaaTexts (l : Lookups) : List String := (l.aaaa.getD []).map fun x => String.ofList x.text

def addressAttribute (type : String) (bufs : List String) : List (String × String) :=
  let text := joinFrom "" bufs
  if text.isEmpty then [] else [(type, text)]

def recordAttributes (l : Lookups) (host : String) : List (String × String) :=
  (l.cname host).map (fun canon => ("CNAME", canon)) ++ addressAttribute "A" l.aTexts ++
    addressAttribute "AAAA" l.aaaaTexts

/-! ## Expected records -/

/-- The type and the value of an expected record, around its first colon. -/
def typeAndValue (exp : String) : Option (String × String) :=
  (cut ':' exp.toList).map fun p => (String.ofList p.1, String.ofList p.2)

def actualText (attrs : List (String × String)) (type : String) : String := (attrs.lookup type).getD ""

/-- One turn of the loop over the expected records, on `mismatch` and `detail`. -/
def checkRecord (attrs : List (String × String)) (s : Bool × String) (exp : String) : Bool × String :=
  match typeAndValue exp with
  | none => s
  | some (type, value) =>
    let actual := actualText attrs type
    if actual ≠ value then
      (true,
        s.2 ++ "expected " ++ type ++ "=" ++ value ++ " got " ++ (if actual.isEmpty then "none" else actual) ++ "; ")
    else s

def runDnsRecordProbe (l : Lookups) (us : Int) (host : String) (expected : List String) : Metric :=
  let attrs := recordAttributes l host
  let s := expected.foldl (checkRecord attrs) (false, "")
  let metric : Metric :=
    { checkType := .dnsRecord, target := host, monotonicUs := us, success := true, attributes := attrs }
  if s.1 then { metric with success := false, detail := s.2 } else metric

theorem mismatch_checkRecord (attrs : List (String × String)) (s : Bool × String) (exp : String) :
    (checkRecord attrs s exp).1 = false ↔
      s.1 = false ∧ ∀ p ∈ typeAndValue exp, actualText attrs p.1 = p.2 := by
  unfold checkRecord
  cases typeAndValue exp with
  | none => simp
  | some p =>
    by_cases heq : actualText attrs p.1 = p.2
    · simp [heq]
    · simp [heq]

/-- The probe succeeds if each expected value is the text of its type. -/
theorem success_iff_texts (l : Lookups) (us : Int) (host : String) (expected : List String) :
    (runDnsRecordProbe l us host expected).success = true ↔
      ∀ exp ∈ expected, ∀ p ∈ typeAndValue exp, actualText (recordAttributes l host) p.1 = p.2 := by
  have hfold (attrs : List (String × String)) (s : Bool × String) : (expected.foldl (checkRecord attrs) s).1 = false ↔
      s.1 = false ∧ ∀ exp ∈ expected, ∀ p ∈ typeAndValue exp, actualText attrs p.1 = p.2 := by
    induction expected generalizing s with
    | nil => simp
    | cons exp expected ih =>
      rw [List.foldl_cons, ih, mismatch_checkRecord, List.forall_mem_cons, and_assoc]
  have h := hfold (recordAttributes l host) (false, "")
  rw [and_iff_right rfl] at h
  rw [← h, runDnsRecordProbe]
  dsimp only
  split
  · rename_i hmismatch
    simp [hmismatch]
  · rename_i hmatch
    simpa using hmatch

/-! ## What a type resolved to -/

/-- The values of a record type. -/
def Lookups.valuesOf (l : Lookups) (host type : String) : List String :=
  if type = "CNAME" then l.cname host
  else if type = "A" then l.aTexts
  else if type = "AAAA" then l.aaaaTexts
  else []

theorem joinFrom_append {text : String} (hne : text ≠ "") (bufs : List String) :
    joinFrom text bufs = ",".intercalate (text :: bufs) := by
  induction bufs generalizing text with
  | nil => simp [joinFrom]
  | cons buf bufs ih =>
    have hkeep : text ++ "," ++ buf ≠ "" := by simp [hne]
    simp only [joinFrom, String.isEmpty_iff, hne, if_false]
    rw [ih hkeep]
    simp only [String.intercalate_cons_append, String.intercalate_cons_cons]

theorem joinFrom_eq {bufs : List String} (h : ∀ buf ∈ bufs, buf ≠ "") : joinFrom "" bufs = ",".intercalate bufs := by
  cases bufs with
  | nil => rfl
  | cons buf bufs =>
    rw [joinFrom, ← joinFrom_append (h buf (by simp)) bufs]
    rfl

theorem lookup_addressAttribute {bufs : List String} (h : ∀ buf ∈ bufs, buf ≠ "") (type type' : String) :
    (addressAttribute type bufs).lookup type' =
      if type' = type ∧ bufs ≠ [] then some (",".intercalate bufs) else none := by
  unfold addressAttribute
  rw [joinFrom_eq h]
  cases bufs with
  | nil => simp
  | cons buf bufs =>
    have hne : ",".intercalate (buf :: bufs) ≠ "" := by
      rw [← String.append_empty (s := buf), String.intercalate_cons_append]
      simp [h buf (by simp)]
    simp only [String.isEmpty_iff, hne, if_false, List.lookup_cons, List.lookup_nil, ne_eq, reduceCtorEq,
      not_false_eq_true, and_true]
    by_cases heq : type' = type
    · simp [heq]
    · have hbeq : (type' == type) = false := by simpa using heq
      simp [hbeq, heq]

theorem aTexts_ne_empty (l : Lookups) : ∀ buf ∈ l.aTexts, buf ≠ "" := by
  intro buf hbuf
  obtain ⟨x, -, rfl⟩ := List.mem_map.1 hbuf
  simpa using text_v4_ne_nil x

theorem aaaaTexts_ne_empty (l : Lookups) : ∀ buf ∈ l.aaaaTexts, buf ≠ "" := by
  intro buf hbuf
  obtain ⟨x, -, rfl⟩ := List.mem_map.1 hbuf
  simpa using text_v6_ne_nil x

/-- A host has one canonical name at most. -/
theorem cname_cases (l : Lookups) (host : String) : l.cname host = [] ∨ ∃ canon, l.cname host = [canon] := by
  unfold Lookups.cname
  split
  · exact .inl rfl
  · split
    · exact .inl rfl
    · exact .inr ⟨_, rfl⟩

/-- **Flattening.** What is compared with an expected value is one text of all the values. -/
theorem actualText_eq (l : Lookups) (host type : String) :
    actualText (recordAttributes l host) type = ",".intercalate (l.valuesOf host type) := by
  unfold actualText recordAttributes Lookups.valuesOf
  rw [List.lookup_append, List.lookup_append, lookup_addressAttribute (aTexts_ne_empty l),
    lookup_addressAttribute (aaaaTexts_ne_empty l)]
  by_cases hcname : type = "CNAME"
  · subst hcname
    rcases cname_cases l host with hnone | ⟨canon, hone⟩
    · simp [hnone]
    · simp [hone]
  have hlookup : ((l.cname host).map fun canon => ("CNAME", canon)).lookup type = none := by
    rcases cname_cases l host with hnone | ⟨canon, hone⟩
    · simp [hnone]
    · simp [hone, hcname]
  rw [hlookup, if_neg hcname]
  by_cases ha : type = "A"
  · subst ha
    cases l.aTexts with
    | nil => simp
    | cons => simp
  by_cases haaaa : type = "AAAA"
  · subst haaaa
    cases l.aaaaTexts with
    | nil => simp
    | cons => simp
  simp [ha, haaaa]

/-! ## Expectations -/

/-- The expected values, each with the values that its type resolved to. -/
def expectations (l : Lookups) (host : String) (expected : List String) : List (String × List String) :=
  (expected.filterMap typeAndValue).map fun p => (p.2, l.valuesOf host p.1)

theorem success_iff_joined (l : Lookups) (us : Int) (host : String) (expected : List String) :
    (runDnsRecordProbe l us host expected).success = true ↔
      ∀ e ∈ expectations l host expected, e.1 = ",".intercalate e.2 := by
  rw [success_iff_texts]
  simp only [expectations, List.forall_mem_map, List.mem_filterMap, actualText_eq]
  constructor
  · rintro h p ⟨exp, hexp, hp⟩
    exact (h exp hexp p hp).symm
  · intro h exp hexp p hp
    exact (h p ⟨exp, hexp, hp⟩).symm

theorem comma_mem_joined {values : List String} (h : 1 < values.length) : ',' ∈ (",".intercalate values).toList := by
  match values, h with
  | v :: w :: rest, _ => simp [String.intercalate_cons_cons]

theorem comma_ne_addressChar {c : Char} (h : IsAddressChar c) : c ≠ ',' := by
  rintro rfl
  exact absurd h (by unfold IsAddressChar; decide)

/-- A value has no comma, unless its type has one value only. -/
theorem comma_not_mem_of_several {l : Lookups} {host type v : String} (h : 1 < (l.valuesOf host type).length)
    (hv : v ∈ l.valuesOf host type) : ',' ∉ v.toList := by
  unfold Lookups.valuesOf at h hv
  split at h
  · rcases cname_cases l host with hnone | ⟨canon, hone⟩
    · simp [hnone] at h
    · simp [hone] at h
  rw [if_neg ‹_›] at hv
  split at h
  · rw [if_pos ‹_›] at hv
    obtain ⟨x, -, rfl⟩ := List.mem_map.1 hv
    intro hcomma
    exact comma_ne_addressChar (isAddressChar_text_v4 (by simpa using hcomma)) rfl
  rw [if_neg ‹_›] at hv
  split at h
  · rw [if_pos ‹_›] at hv
    obtain ⟨x, -, rfl⟩ := List.mem_map.1 hv
    intro hcomma
    exact comma_ne_addressChar (isAddressChar_text_v6 (by simpa using hcomma)) rfl
  · cases h

theorem mem_iff_joined_of_one {value : String} {values : List String} (h : values.length = 1) :
    value ∈ values ↔ value = ",".intercalate values := by
  obtain ⟨v, rfl⟩ := List.length_eq_one_iff.1 h
  simp

/-- The text of several values is none of them. -/
theorem joined_not_mem_of_several {l : Lookups} {host : String} {expected : List String} {e : String × List String}
    (he : e ∈ expectations l host expected) (h : 1 < e.2.length) (hmem : e.1 ∈ e.2) : e.1 ≠ ",".intercalate e.2 := by
  obtain ⟨p, -, rfl⟩ := List.mem_map.1 he
  intro heq
  apply comma_not_mem_of_several h hmem
  rw [heq]
  exact comma_mem_joined h

/-- **Expected records.** The probe succeeds exactly if each expected value is among those of its type, unless all are
although some type has several values, or each is the whole list although some type has none or several. -/
theorem dnsRecord_success_iff (l : Lookups) (us : Int) (host : String) (expected : List String) :
    ((runDnsRecordProbe l us host expected).success = true ↔ ∀ e ∈ expectations l host expected, e.1 ∈ e.2) ↔
      ¬((∀ e ∈ expectations l host expected, e.1 ∈ e.2) ∧ ∃ e ∈ expectations l host expected, 1 < e.2.length) ∧
        ¬((∀ e ∈ expectations l host expected, e.1 = ",".intercalate e.2) ∧
          ∃ e ∈ expectations l host expected, e.2.length ≠ 1) := by
  rw [success_iff_joined]
  constructor
  · intro h
    constructor
    · rintro ⟨hmem, e, he, hlen⟩
      exact joined_not_mem_of_several he hlen (hmem e he) (h.2 hmem e he)
    · rintro ⟨hjoined, e, he, hlen⟩
      have hmem := h.1 hjoined e he
      have hpos := List.length_pos_of_mem hmem
      exact joined_not_mem_of_several he (by omega) hmem (hjoined e he)
  · rintro ⟨hseveral, hodd⟩
    constructor
    · intro hjoined e he
      by_contra hnot
      apply hodd
      refine ⟨hjoined, e, he, fun hone => hnot ?_⟩
      exact (mem_iff_joined_of_one hone).2 (hjoined e he)
    · intro hmem e he
      by_contra hnot
      apply hseveral
      have hpos := List.length_pos_of_mem (hmem e he)
      have hone : e.2.length ≠ 1 := fun hone => hnot ((mem_iff_joined_of_one hone).1 (hmem e he))
      exact ⟨hmem, e, he, by omega⟩

/-- One of two addresses is expected, and the probe fails; an empty address is expected of a host without one, and it
succeeds. -/
theorem expected_address_missed :
    let two : Lookups := { canonical := none, a := some [⟨192, 0, 2, 1⟩, ⟨192, 0, 2, 2⟩], aaaa := none }
    let empty : Lookups := { canonical := none, a := none, aaaa := none }
    (∀ e ∈ expectations two "example.com" ["A:192.0.2.1"], e.1 ∈ e.2) ∧
      (runDnsRecordProbe two 0 "example.com" ["A:192.0.2.1"]).success = false ∧
      (runDnsRecordProbe two 0 "example.com" ["A:192.0.2.1"]).detail =
        "expected A=192.0.2.1 got 192.0.2.1,192.0.2.2; " ∧
      expectations empty "example.com" ["A:"] = [("", [])] ∧
      (runDnsRecordProbe empty 0 "example.com" ["A:"]).success = true := by
  decide

end PudimNetMon.Agent
