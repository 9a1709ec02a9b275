import PudimNetMon.Lib.Separated

/-!
# Trace contexts (`trace_context.cpp`)

A traceparent is a version, a trace id, a parent id and flags, with dashes between them. What the random source answers
is an argument.

- `TraceParent`: the traceparents of the W3C;
- `traceContext_laws`: of which traceparents, and for which answers, each of the three functions does what it says.
-/

namespace PudimNetMon.Agent.TraceContext

/-- What `RandomBytes` fills in, if it does not fail. -/
structure Draws where
  traceId : Option (Vector UInt8 16)
  spanId : Option (Vector UInt8 8)
  deriving DecidableEq

def hexChar (n : Nat) : Char := if n < 10 then Char.ofNat (n + 48) else Char.ofNat (n + 87)

/-- `BytesToHex` -/
def bytesToHex (bytes : List UInt8) : List Char :=
  bytes.flatMap fun b => [hexChar (b.toNat / 16), hexChar (b.toNat % 16)]

/-- `GenerateTraceParent` -/
def generateTraceParent (d : Draws) : List Char :=
  match d.traceId, d.spanId with
  | some traceId, some spanId =>
    "00-".toList ++ bytesToHex traceId.toList ++ "-".toList ++ bytesToHex spanId.toList ++ "-01".toList
  | _, _ => "00-00000000000000000000000000000000-0000000000000000-01".toList

/-- `NextSpanId` -/
def nextSpanId (d : Draws) (traceparent : List Char) : List Char :=
  match cut '-' traceparent with
  | none => generateTraceParent d
  | some (first, rest) =>
    match cut '-' rest with
    | none => generateTraceParent d
    | some (second, rest) =>
      match cut '-' rest with
      | none => generateTraceParent d
      | some (third, flags) =>
        match d.spanId with
        | none => traceparent
        | some spanId =>
          first ++ '-' :: (second ++ '-' :: (third ++ '-' :: (bytesToHex spanId.toList ++ '-' ::
            (if flags.isEmpty then "01".toList else flags))))

/-- `TraceIdOf` -/
def traceIdOf (traceparent : List Char) : List Char :=
  match cut '-' traceparent with
  | none => []
  | some (first, _) => first

/-! ## Traceparents -/

def isHex (c : Char) : Bool := c.isDigit || ('a' ≤ c && c ≤ 'f')

/-- A field of hexadecimal digits. -/
structure HexField (n : Nat) (s : List Char) : Prop where
  length : s.length = n
  digits : s.all isHex = true

instance (n : Nat) (s : List Char) : Decidable (HexField n s) :=
  decidable_of_iff (s.length = n ∧ s.all isHex = true) ⟨fun h => ⟨h.1, h.2⟩, fun h => ⟨h.length, h.digits⟩⟩

/-- A field with another digit than zero. -/
def NonZero (s : List Char) : Prop := s.any (· ≠ '0') = true

instance (s : List Char) : Decidable (NonZero s) := inferInstanceAs (Decidable (_ = true))

structure TraceParent where
  version : List Char
  traceId : List Char
  parentId : List Char
  flags : List Char
  /-- What a later version adds. -/
  more : List Char := []
  version_hex : HexField 2 version
  version_ne : version ≠ "ff".toList
  traceId_hex : HexField 32 traceId
  traceId_nonZero : NonZero traceId
  parentId_hex : HexField 16 parentId
  parentId_nonZero : NonZero parentId
  flags_hex : HexField 2 flags
  more_later : more = [] ∨ version ≠ "00".toList ∧ more.head? = some '-'

def TraceParent.text (p : TraceParent) : List Char :=
  p.version ++ '-' :: (p.traceId ++ '-' :: (p.parentId ++ '-' :: (p.flags ++ p.more)))

/-- A traceparent with the version, the trace id and the flags of another. -/
def Continues (p : TraceParent) (text : List Char) : Prop :=
  ∃ q : TraceParent, text = q.text ∧ q.version = p.version ∧ q.traceId = p.traceId ∧ q.flags = p.flags

/-- A traceparent. -/
def IsTraceParent (text : List Char) : Prop := ∃ p : TraceParent, text = p.text

/-! ## Fields -/

variable {n : Nat} {s : List Char}

theorem HexField.isHex_of_mem (h : HexField n s) {c : Char} (hc : c ∈ s) : isHex c = true :=
  List.all_eq_true.1 h.digits c hc

theorem HexField.not_mem (h : HexField n s) : '-' ∉ s := by
  intro hmem
  have hdash := h.isHex_of_mem hmem
  cases hdash

theorem isHex_hexChar : ∀ {n}, n < 16 → isHex (hexChar n) = true := by decide

theorem hexChar_eq_zero : ∀ {n}, n < 16 → hexChar n = '0' → n = 0 := by decide

theorem length_bytesToHex (bytes : List UInt8) : (bytesToHex bytes).length = 2 * bytes.length := by
  induction bytes with
  | nil => rfl
  | cons b bytes ih =>
    rw [bytesToHex, List.flatMap_cons, List.length_append, ← bytesToHex, ih, List.length_cons]
    simp only [List.length_cons, List.length_nil]
    omega

theorem hexField_bytesToHex (bytes : Vector UInt8 n) : HexField (2 * n) (bytesToHex bytes.toList) where
  length := by rw [length_bytesToHex, Vector.length_toList]
  digits := by
    rw [List.all_eq_true]
    intro c hc
    obtain ⟨b, -, hc⟩ := List.mem_flatMap.1 hc
    have hb := b.toNat_lt
    rcases List.mem_pair.1 hc with rfl | rfl
    · exact isHex_hexChar (by omega)
    · exact isHex_hexChar (by omega)

/-- Bytes are written as zeros only if they are. -/
theorem nonZero_bytesToHex (bytes : List UInt8) : NonZero (bytesToHex bytes) ↔ ∃ b ∈ bytes, b ≠ 0 := by
  have hbyte : ∀ b : UInt8, b ≠ 0 ↔ ∃ c ∈ [hexChar (b.toNat / 16), hexChar (b.toNat % 16)], c ≠ '0' := by
    intro b
    have hlt := b.toNat_lt
    have hzero : b = 0 ↔ b.toNat = 0 := UInt8.toNat_inj.symm
    simp only [List.mem_cons, List.not_mem_nil, or_false, exists_eq_or_imp, exists_eq_left]
    constructor
    · intro hne
      by_contra hboth
      rw [not_or, not_not, not_not] at hboth
      have hhigh := hexChar_eq_zero (by omega) hboth.1
      have hlow := hexChar_eq_zero (by omega) hboth.2
      exact hne (hzero.2 (by omega))
    · rintro (h | h) rfl
      · exact h (by decide)
      · exact h (by decide)
  simp only [NonZero, List.any_eq_true, bytesToHex, List.mem_flatMap, decide_eq_true_eq]
  constructor
  · rintro ⟨c, ⟨b, hb, hc⟩, hne⟩
    exact ⟨b, hb, (hbyte b).2 ⟨c, hc, hne⟩⟩
  · rintro ⟨b, hb, hne⟩
    obtain ⟨c, hc, hne⟩ := (hbyte b).1 hne
    exact ⟨c, ⟨b, hb, hc⟩, hne⟩

/-! ## The three functions -/

namespace TraceParent

variable (p : TraceParent)

theorem cut_text : cut '-' p.text = some (p.version, p.traceId ++ '-' :: (p.parentId ++ '-' :: (p.flags ++ p.more))) :=
  cut_append p.version_hex.not_mem _

theorem flags_append_ne_nil : p.flags ++ p.more ≠ [] := by
  intro h
  have hlength := p.flags_hex.length
  rw [(List.append_eq_nil_iff.1 h).1] at hlength
  cases hlength

/-- The new span id stands behind the old one. -/
theorem nextSpanId_text (d : Draws) : nextSpanId d p.text =
    match d.spanId with
    | none => p.text
    | some spanId =>
      p.version ++ '-' :: (p.traceId ++ '-' :: (p.parentId ++ '-' :: (bytesToHex spanId.toList ++ '-' ::
        (p.flags ++ p.more)))) := by
  unfold nextSpanId
  rw [cut_text]
  dsimp only
  rw [cut_append p.traceId_hex.not_mem]
  dsimp only
  rw [cut_append p.parentId_hex.not_mem]
  dsimp only
  rw [if_neg (by simpa only [List.isEmpty_iff] using p.flags_append_ne_nil)]

theorem traceIdOf_text : traceIdOf p.text = p.version := by rw [traceIdOf, cut_text]

end TraceParent

/-- The fields of a traceparent are read back. -/
theorem fields_of_text {q : TraceParent} {a b c l : List Char} (ha : '-' ∉ a) (hb : '-' ∉ b) (hc : '-' ∉ c)
    (h : a ++ '-' :: (b ++ '-' :: (c ++ '-' :: l)) = q.text) :
    a = q.version ∧ b = q.traceId ∧ c = q.parentId ∧ l = q.flags ++ q.more := by
  have hfield {a a' l l' : List Char} (ha : '-' ∉ a) (ha' : '-' ∉ a') (h : a ++ '-' :: l = a' ++ '-' :: l') :
      a = a' ∧ l = l' := by
    have hcut := cut_append ha l
    rw [h, cut_append ha' l'] at hcut
    obtain ⟨hfirst, hrest⟩ := Prod.mk.inj (Option.some.inj hcut)
    exact ⟨hfirst.symm, hrest.symm⟩
  obtain ⟨hversion, h⟩ := hfield ha q.version_hex.not_mem h
  obtain ⟨htraceId, h⟩ := hfield hb q.traceId_hex.not_mem h
  obtain ⟨hparentId, h⟩ := hfield hc q.parentId_hex.not_mem h
  exact ⟨hversion, htraceId, hparentId, h⟩

/-- With a span id behind the parent id, what follows is too long for flags. -/
theorem not_isTraceParent_of_span {p : TraceParent} {span flags : List Char} (hspan : HexField 16 span)
    (h : IsTraceParent (p.version ++ '-' :: (p.traceId ++ '-' :: (p.parentId ++ '-' :: (span ++ '-' :: flags))))) :
    False := by
  obtain ⟨q, hq⟩ := h
  obtain ⟨-, -, -, htail⟩ :=
    fields_of_text p.version_hex.not_mem p.traceId_hex.not_mem p.parentId_hex.not_mem hq
  have hthird : q.more.head? = span[2]? := by
    have hlength := q.flags_hex.length
    have hget : (span ++ '-' :: flags)[2]? = (q.flags ++ q.more)[2]? := by rw [htail]
    rw [List.getElem?_append_left (by rw [hspan.length]; decide),
      List.getElem?_append_right (Nat.le_of_eq hlength), hlength, Nat.sub_self, ← List.head?_eq_getElem?] at hget
    exact hget.symm
  have htwo : 2 < span.length := by rw [hspan.length]; decide
  rw [List.getElem?_eq_getElem htwo] at hthird
  have hhex : isHex span[2] = true := hspan.isHex_of_mem (List.getElem_mem htwo)
  rcases q.more_later with hnil | ⟨-, hdash⟩
  · rw [hnil] at hthird
    cases hthird
  · rw [hdash] at hthird
    rw [← Option.some.inj hthird] at hhex
    cases hhex

theorem continues_nextSpanId_iff (p : TraceParent) (d : Draws) :
    Continues p (nextSpanId d p.text) ↔ d.spanId = none := by
  rw [p.nextSpanId_text]
  cases d.spanId with
  | none => exact iff_of_true ⟨p, rfl, rfl, rfl, rfl⟩ rfl
  | some spanId =>
    refine iff_of_false ?_ nofun
    rintro ⟨q, hq, -⟩
    exact not_isTraceParent_of_span (hexField_bytesToHex spanId) ⟨q, hq⟩

theorem traceIdOf_ne (p : TraceParent) : traceIdOf p.text ≠ p.traceId := by
  rw [p.traceIdOf_text]
  intro h
  have hlength := p.version_hex.length
  rw [h, p.traceId_hex.length] at hlength
  cases hlength

theorem traceIdOf_nextSpanId (p : TraceParent) (d : Draws) :
    traceIdOf (nextSpanId d p.text) = traceIdOf p.text := by
  rw [p.nextSpanId_text, p.traceIdOf_text]
  cases d.spanId with
  | none => exact p.traceIdOf_text
  | some spanId =>
    unfold traceIdOf
    dsimp only
    rw [cut_append p.version_hex.not_mem]

/-- Both ids were drawn, and neither is zero. -/
def Draws.NonZero (d : Draws) : Prop :=
  (∃ traceId, d.traceId = some traceId ∧ ∃ b ∈ traceId.toList, b ≠ 0) ∧
    ∃ spanId, d.spanId = some spanId ∧ ∃ b ∈ spanId.toList, b ≠ 0

theorem not_isTraceParent_fallback :
    ¬ IsTraceParent "00-00000000000000000000000000000000-0000000000000000-01".toList := by
  rintro ⟨q, hq⟩
  have htext : "00-00000000000000000000000000000000-0000000000000000-01".toList =
      "00".toList ++ '-' :: ("00000000000000000000000000000000".toList ++ '-' :: ("0000000000000000".toList ++ '-' ::
        "01".toList)) := rfl
  rw [htext] at hq
  obtain ⟨-, htraceId, -, -⟩ := fields_of_text (by decide) (by decide) (by decide) hq
  have hzero := q.traceId_nonZero
  rw [← htraceId] at hzero
  exact absurd hzero (by decide)

theorem isTraceParent_generate_iff (d : Draws) : IsTraceParent (generateTraceParent d) ↔ d.NonZero := by
  obtain ⟨traceId, spanId⟩ := d
  cases traceId with
  | none => exact iff_of_false not_isTraceParent_fallback fun h => by obtain ⟨⟨_, h, -⟩, -⟩ := h; cases h
  | some traceId =>
    cases spanId with
    | none => exact iff_of_false not_isTraceParent_fallback fun h => by obtain ⟨-, _, h, -⟩ := h; cases h
    | some spanId =>
      have htrace := hexField_bytesToHex traceId
      have hspan := hexField_bytesToHex spanId
      have htext : generateTraceParent ⟨some traceId, some spanId⟩ = "00".toList ++ '-' ::
          (bytesToHex traceId.toList ++ '-' :: (bytesToHex spanId.toList ++ '-' :: "01".toList)) := by
        show "00-".toList ++ bytesToHex traceId.toList ++ "-".toList ++ bytesToHex spanId.toList ++ "-01".toList = _
        simp only [List.append_assoc]
        rfl
      rw [htext]
      constructor
      · rintro ⟨q, hq⟩
        obtain ⟨-, htraceId, hparentId, -⟩ := fields_of_text (by decide) htrace.not_mem hspan.not_mem hq
        have htraceZero := q.traceId_nonZero
        have hparentZero := q.parentId_nonZero
        rw [← htraceId, nonZero_bytesToHex] at htraceZero
        rw [← hparentId, nonZero_bytesToHex] at hparentZero
        exact ⟨⟨traceId, rfl, htraceZero⟩, spanId, rfl, hparentZero⟩
      · rintro ⟨⟨traceId', heq, htraceZero⟩, spanId', heq', hspanZero⟩
        cases heq
        cases heq'
        exact ⟨
          { version := "00".toList, traceId := bytesToHex traceId.toList, parentId := bytesToHex spanId.toList
            flags := "01".toList
            version_hex := by decide
            version_ne := by decide
            traceId_hex := htrace
            traceId_nonZero := (nonZero_bytesToHex _).2 htraceZero
            parentId_hex := hspan
            parentId_nonZero := (nonZero_bytesToHex _).2 hspanZero
            flags_hex := by decide
            more_later := .inl rfl }, rfl⟩

/-- **The laws of trace contexts.** `NextSpanId` continues a traceparent exactly if the random source fails, `TraceIdOf`
never finds its trace id though it finds the same in both, and `GenerateTraceParent` returns a traceparent exactly if
both ids are drawn and not zero. -/
theorem traceContext_laws (p : TraceParent) (d : Draws) :
    (Continues p (nextSpanId d p.text) ↔ d.spanId = none) ∧ traceIdOf p.text ≠ p.traceId ∧
      traceIdOf (nextSpanId d p.text) = traceIdOf p.text ∧ (IsTraceParent (generateTraceParent d) ↔ d.NonZero) :=
  ⟨continues_nextSpanId_iff p d, traceIdOf_ne p, traceIdOf_nextSpanId p d, isTraceParent_generate_iff d⟩

/-- A sampled request. -/
def sampled : TraceParent where
  version := "00".toList
  traceId := "4bf92f3577b34da6a3ce929d0e0e4736".toList
  parentId := "00f067aa0ba902b7".toList
  flags := "01".toList
  version_hex := by decide
  version_ne := by decide
  traceId_hex := by decide
  traceId_nonZero := by decide
  parentId_hex := by decide
  parentId_nonZero := by decide
  flags_hex := by decide
  more_later := .inl rfl

/-- **No trace id.** The next span of a sampled request has five fields, its trace id is read as the version, and a
random source that fails leaves only zeros. -/
theorem span_appended :
    nextSpanId ⟨none, some (.replicate 8 171)⟩ sampled.text =
        "00-4bf92f3577b34da6a3ce929d0e0e4736-00f067aa0ba902b7-abababababababab-01".toList ∧
      ¬ Continues sampled (nextSpanId ⟨none, some (.replicate 8 171)⟩ sampled.text) ∧
      traceIdOf sampled.text = "00".toList ∧ ¬ IsTraceParent (generateTraceParent ⟨none, none⟩) :=
  ⟨by decide, fun h => absurd ((continues_nextSpanId_iff _ _).1 h) (by decide), by decide, not_isTraceParent_fallback⟩

end PudimNetMon.Agent.TraceContext
