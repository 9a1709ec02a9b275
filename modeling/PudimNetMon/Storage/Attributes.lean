import PudimNetMon.Lib.JsonText
import PudimNetMon.Storage.Insert

/-!
# The attributes of a metric as JSON (`timescale_storage.cpp`)

`JsonEscape` has short escapes for the quotation mark, the backslash, `\n`, `\r` and `\t`. JSON strings have none of the
other control characters either.

- `attributesBody_decodes_iff`: the maps whose body is JSON, and JSON for them;
- `batch_stored_iff`: what a database that reads the bodies does with a batch.
-/

namespace PudimNetMon.Storage

open JsonText

/-- A control character that `JsonEscape` leaves as it is. -/
def RawControl (c : Char) : Prop := c.toNat < 0x20 ∧ c ≠ '\n' ∧ c ≠ '\r' ∧ c ≠ '\t'

def Unescaped (s : String) : Prop := ∃ c ∈ s.toList, RawControl c

/-- The map as a JSON value. -/
def attributesValue (attrs : List (String × String)) : Value := .object (attrs.map fun kv => (kv.1, .string kv.2))

theorem jsonEscapeChar_cases (c : Char) : (jsonEscapeChar c = [c] ∧ c ≠ '"' ∧ c ≠ '\\') ∨
    ∃ d, jsonEscapeChar c = ['\\', d] ∧ d ≠ 'u' ∧ shortEscape d = some c := by
  unfold jsonEscapeChar
  split
  · exact .inr ⟨'"', rfl, by decide, rfl⟩
  · exact .inr ⟨'\\', rfl, by decide, rfl⟩
  · exact .inr ⟨'n', rfl, by decide, rfl⟩
  · exact .inr ⟨'r', rfl, by decide, rfl⟩
  · exact .inr ⟨'t', rfl, by decide, rfl⟩
  · exact .inl ⟨rfl, by assumption, by assumption⟩

theorem rawControl_iff (c : Char) : RawControl c ↔ c.toNat < 0x20 ∧ jsonEscapeChar c = [c] := by
  unfold RawControl jsonEscapeChar
  split <;> simp_all

theorem escapes_json : Escapes jsonEscapeChar RawControl := by
  have h := escapes_short jsonEscapeChar_cases
  exact ⟨fun c hc => h.reads c (mt (rawControl_iff c).2 hc), fun c hc => h.refuses c ((rawControl_iff c).1 hc)⟩

theorem toList_attributesBody (attrs : List (String × String)) :
    (attributesBody attrs).toList = '\x7b' :: ([','].intercalate (attrs.map fun kv =>
      '"' :: (kv.1.toList.flatMap jsonEscapeChar ++ ['"']) ++
        ':' :: '"' :: (kv.2.toList.flatMap jsonEscapeChar ++ ['"'])) ++ ['\x7d']) := by
  simp [attributesBody, jsonEscape, String.toList_intercalate, Function.comp_def]

/-- **Main.** The body is JSON, and JSON for the map, exactly when no key or value has a control character other than
the three with an escape. -/
theorem attributesBody_decodes_iff (attrs : List (String × String)) :
    (Decodes (attributesBody attrs) (attributesValue attrs) ↔
      ∀ kv ∈ attrs, ¬Unescaped kv.1 ∧ ¬Unescaped kv.2) ∧
    ((∃ v, Decodes (attributesBody attrs) v) ↔ ∀ kv ∈ attrs, ¬Unescaped kv.1 ∧ ¬Unescaped kv.2) := by
  have hbody := Reads.object (fun kv : String × String => (kv.1, Value.string kv.2)) attrs fun kv _ =>
    escapes_json.member kv.1 (escapes_json.string kv.2)
  rw [← toList_attributesBody] at hbody
  have hok : (∀ kv ∈ attrs, ¬Unescaped kv.1 ∧ ¬Unescaped kv.2) ↔
      ∀ kv ∈ attrs, (∀ c ∈ kv.1.toList, ¬RawControl c) ∧ ∀ c ∈ kv.2.toList, ¬RawControl c := by
    simp [Unescaped]
  exact decodes_iff (hbody.congr hok)

/-- The attribute `note` with a start-of-heading character. -/
theorem raw_control_breaks_body : ¬Decodes (attributesBody [("note", "\x01")]) (attributesValue [("note", "\x01")]) ∧
    ¬∃ v, Decodes (attributesBody [("note", "\x01")]) v := by
  have hlex : lex .between (attributesBody [("note", "\x01")]).toList = none := by decide +kernel
  refine ⟨fun h => ?_, fun ⟨v, h⟩ => ?_⟩
  · exact nomatch h.symm.trans hlex
  · exact nomatch h.symm.trans hlex

theorem forall_rowsFrom (p : String → Prop) (agentId : String) (base : Int64) : ∀ (k : Nat) (ms : List Metric),
    (∀ r ∈ rowsFrom agentId base k ms, p r.attributes) ↔ ∀ m ∈ ms, p (attributesBody m.attributes)
  | _, [] => by simp [rowsFrom]
  | k, m :: ms => by
    rw [rowsFrom, List.forall_mem_cons, List.forall_mem_cons, forall_rowsFrom p agentId base (k + 1) ms]
    rfl

/-- A database that refuses an `INSERT` for a body that is no JSON, and for nothing else, stores a batch of one
statement exactly when none of its metrics has such an attribute. -/
theorem batch_stored_iff {σ : Type} {exec : Sql → σ → Bool × σ}
    (hexec : ∀ sql db rows, parseInsert sql = some rows →
      ((exec sql db).1 = true ↔ ∀ r ∈ rows, ∃ v, Decodes r.attributes v))
    (storage : TimescaleStorage) (db : σ) (agentId : String) (base : Int64) {ms : List Metric} (hms : ms ≠ [])
    (hfits : ms.length ≤ storage.chunk) :
    (insertMetrics exec true storage db agentId base ms).1 = true ↔
      ∀ m ∈ ms, ∀ kv ∈ m.attributes, ¬Unescaped kv.1 ∧ ¬Unescaped kv.2 := by
  have hrows : rowsFrom agentId base 0 ms ≠ [] := rowsFrom_ne_nil hms
  have hsql := hexec _ db _ (parseInsert_insertSql hrows)
  have hstored : (insertMetrics exec true storage db agentId base ms).1 =
      (exec (insertSql (rowsFrom agentId base 0 ms)) db).1 := by
    rw [insertMetrics_fits storage db agentId base hms hfits]
    split <;> simp_all
  rw [hstored, hsql, forall_rowsFrom fun body => ∃ v, Decodes body v]
  apply forall₂_congr
  intro m _
  exact (attributesBody_decodes_iff m.attributes).2

end PudimNetMon.Storage
