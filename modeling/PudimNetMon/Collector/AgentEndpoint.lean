import Mathlib.Data.List.TakeWhile
import PudimNetMon.Lib.IpAddress

/-!
# Diagnostic endpoints (`agent_endpoint.cpp`)

Where the collector calls an agent back, if the agent advertises no address: at the address its call came from.

- `endpoint_iff`: the peers whose endpoint is one to dial.
-/

namespace PudimNetMon.Collector

open Ip

/-! ## The endpoint of a peer -/

/-- What is behind the transport scheme; none for a socket without a host. -/
def stripScheme (peer : List Char) : Option (List Char) :=
  match cut ':' peer with
  | none => some peer
  | some (scheme, rest) =>
    if scheme = "unix".toList ∨ scheme = "unix-abstract".toList then none
    else if scheme = "ipv4".toList ∨ scheme = "ipv6".toList then some rest
    else some peer

/-- The check of the host at the end. -/
def dialable (host : List Char) : Option (List Char) :=
  if host = [] ∨ host = "0.0.0.0".toList ∨ host = "[::]".toList then none else some host

/-- The host of a peer in brackets, of which `inner` is what stands between them. -/
def bracketedHost (inner : List Char) : Option (List Char) :=
  let lower := inner.map Char.toLower
  let v4 := inner.drop "::ffff:".length
  if "fe80:".toList <+: lower then none
  else if "::ffff:".toList <+: lower ∧ '.' ∈ v4 then some v4
  else dialable ('[' :: inner ++ [']'])

/-- The host to dial. -/
def dialedHost : List Char → Option (List Char)
  | [] => none
  | c :: cs =>
    if c = '[' then
      match cut ']' cs with
      | none => none
      | some (inner, _) => bracketedHost inner
    else
      match cutLast ':' (c :: cs) with
      | none => dialable (c :: cs)
      | some (host, _) => dialable host

def diagnosticEndpointFromPeer (peer diagnosticPort : String) : String :=
  match (stripScheme peer.toList).bind dialedHost with
  | none => ""
  | some host => String.ofList host ++ ":" ++ diagnosticPort

/-! ## The addresses of hosts -/

/-- What a text of a host names. An IPv4 address in an IPv6 address is that IPv4 address. -/
inductive Host
  | v4 (x : V4)
  | v6 (x : V6)
  | name (s : List Char)
  deriving DecidableEq, Repr

def Host.ofV6 (x : V6) : Host := if x.mapped then .v4 x.lowV4 else .v6 x

/-- The IPv6 address of a text, which may have a zone. -/
def readV6 (s : List Char) : Option V6 := V6.ofText (s.takeWhile (· ≠ '%'))

/-- An IPv6 address in brackets, an IPv4 address, an IPv6 address without brackets, or a name. -/
def readHost (s : List Char) : Host :=
  match s with
  | [] => .name []
  | c :: cs =>
    if c = '[' then
      match (cut ']' cs).bind fun p => readV6 p.1 with
      | some x => .ofV6 x
      | none => .name (c :: cs)
    else
      match V4.ofAnyText (c :: cs), readV6 (c :: cs) with
      | some x, _ => .v4 x
      | none, some x => .ofV6 x
      | none, none => .name (c :: cs)

def Host.wildcard : Host → Bool
  | .v4 x => x == ⟨0, 0, 0, 0⟩
  | .v6 x => x.groups.all (· == 0)
  | .name _ => false

/-- `fe80::/10` -/
def Host.linkLocal : Host → Bool
  | .v6 x => (x.groups.getD 0 0).toNat / 2 ^ 6 == 0xfe80 / 2 ^ 6
  | _ => false

/-- A peer's own host: up to the closing bracket, or up to the last colon. -/
def ownHost : List Char → Option (List Char)
  | [] => none
  | c :: cs =>
    if c = '[' then (cut ']' cs).map fun p => '[' :: p.1 ++ [']']
    else
      match cutLast ':' (c :: cs) with
      | none => some (c :: cs)
      | some (host, _) => some host

/-- A host that dials the peer: it names the same, an address of its own, and an IPv6 address has brackets. -/
structure Dials (own host : List Char) : Prop where
  same : readHost host = readHost own
  nonempty : host ≠ [] ∧ host ≠ "[]".toList
  notWildcard : (readHost host).wildcard = false
  notLinkLocal : (readHost host).linkLocal = false
  bracketed : readV6 host = none

/-- The peers whose host the tests on texts tell right. -/
structure Told (own : List Char) : Prop where
  nonempty : own ≠ "[]".toList
  /-- A wildcard address is spelled in one way. -/
  wildcard : (readHost own).wildcard = true → own = "0.0.0.0".toList ∨ own = "[::]".toList
  /-- A link-local address is one of `fe80::/16`, in brackets. -/
  linkLocal : (readHost own).linkLocal = true →
    ∃ inner, own = '[' :: inner ++ [']'] ∧ "fe80:".toList <+: inner.map Char.toLower
  bracketed : own.head? ≠ some '[' → readV6 own = none
  /-- What follows `::ffff:` is an IPv4 address, or a number without dots. -/
  mapped : ∀ inner, own = '[' :: inner ++ [']'] → "::ffff:".toList <+: inner.map Char.toLower → '.' ∈ inner.drop 7 →
    ∃ x : V4, inner.drop 7 = x.text

/-! ## Readings -/

theorem ofV6_ne_name (x : V6) (t : List Char) : Host.ofV6 x ≠ .name t := by
  unfold Host.ofV6
  split
  · nofun
  · nofun

theorem eq_of_readHost_name {s t : List Char} (h : readHost s = .name t) : t = s := by
  unfold readHost at h
  split at h
  · cases h
    rfl
  · split at h
    · split at h
      · exact absurd h (ofV6_ne_name _ _)
      · cases h
        rfl
    · split at h
      · cases h
      · exact absurd h (ofV6_ne_name _ _)
      · cases h
        rfl

theorem readHost_bracketed {inner : List Char} (h : ']' ∉ inner) :
    readHost ('[' :: inner ++ [']']) =
      match readV6 inner with
      | some x => .ofV6 x
      | none => .name ('[' :: inner ++ [']']) := by
  simp only [readHost, List.cons_append, if_true, cut_append h, Option.bind_some]

theorem takeWhile_percent {s : List Char} (h : '%' ∉ s) : s.takeWhile (· ≠ '%') = s := by
  rw [List.takeWhile_eq_self_iff]
  intro c hc
  have hne : c ≠ '%' := by
    rintro rfl
    exact h hc
  simpa using hne

theorem percent_not_mem_text (x : V4) : '%' ∉ x.text := by
  intro h
  rcases mem_text_v4 h with hdigit | hdot
  · exact absurd hdigit (by decide)
  · exact absurd hdot (by decide)

theorem readV6_text (x : V4) : readV6 x.text = none := by
  rw [readV6, takeWhile_percent (percent_not_mem_text x)]
  exact V6.ofText_eq_none (colon_not_mem_text x)

theorem exists_text (x : V4) : ∃ c cs, x.text = c :: cs ∧ c ≠ '[' := by
  cases htext : x.text with
  | nil => exact absurd htext (text_v4_ne_nil x)
  | cons c cs =>
    refine ⟨c, cs, rfl, ?_⟩
    rintro rfl
    have hmem : '[' ∈ x.text := by simp [htext]
    rcases mem_text_v4 hmem with hdigit | hdot
    · exact absurd hdigit (by decide)
    · exact absurd hdot (by decide)

theorem readHost_text (x : V4) : readHost x.text = .v4 x := by
  have hany := V4.ofAnyText_text x
  obtain ⟨c, cs, htext, hc⟩ := exists_text x
  rw [htext] at hany ⊢
  simp [readHost, hc, hany]

/-- No IPv6 address starts with a bracket. -/
theorem readV6_bracket (s : List Char) : readV6 ('[' :: s) = none := by
  cases h : readV6 ('[' :: s) with
  | none => rfl
  | some x =>
    rw [readV6, List.takeWhile_cons_of_pos (by decide)] at h
    have hchar := V6.isAddressChar_of_ofText h '[' List.mem_cons_self
    exact absurd hchar (by unfold IsAddressChar; decide)

/-! ## The tests on texts -/

/-- A prefix without regard to upper case. -/
theorem exists_of_prefix_lower {pre inner : List Char} (h : pre <+: inner.map Char.toLower) :
    ∃ p, inner = p ++ inner.drop pre.length ∧ p.map Char.toLower = pre := by
  refine ⟨inner.take pre.length, (List.take_append_drop _ _).symm, ?_⟩
  rw [List.map_take]
  exact (List.prefix_iff_eq_take.1 h).symm

/-- Behind `fe80:` there is an address of `fe80::/16`. -/
theorem first_of_fe80 {inner : List Char} (h : "fe80:".toList <+: inner.map Char.toLower) {x : V6}
    (hx : readV6 inner = some x) : ∃ gs, x.groups = 0xfe80 :: gs := by
  obtain ⟨p, hsplit, hlower⟩ := exists_of_prefix_lower h
  rw [show "fe80:".toList = ['f', 'e', '8', '0', ':'] from rfl] at hlower
  simp only [List.map_eq_cons_iff, List.map_eq_nil_iff] at hlower
  obtain ⟨a, _, rfl, ha, b, _, rfl, hb, c, _, rfl, hc, d, _, rfl, hd, e, _, rfl, he, rfl⟩ := hlower
  cases eq_of_toLower hc (by decide)
  cases eq_of_toLower hd (by decide)
  cases eq_of_toLower he (by decide)
  have hgroup : ':' ∉ [a, b, '8', '0'] ∧ [a, b, '8', '0'].all (· ≠ '%') = true ∧
      hexGroup? [a, b, '8', '0'] = some 0xfe80 := by
    rcases eq_or_upper_of_toLower ha with rfl | ⟨rfl, -⟩ <;> rcases eq_or_upper_of_toLower hb with rfl | ⟨rfl, -⟩ <;>
      decide
  have hread : inner.takeWhile (· ≠ '%') = [a, b, '8', '0'] ++ ':' :: (inner.drop 5).takeWhile (· ≠ '%') := by
    have hplain : ∀ c ∈ [a, b, '8', '0'], decide (c ≠ '%') = true := List.all_eq_true.1 hgroup.2.1
    rw [hsplit, List.takeWhile_append_of_pos (by simpa using hplain)]
    rfl
  rw [readV6, hread] at hx
  obtain ⟨g, gs, hg, hgs⟩ := V6.ofText_first hgroup.1 (by simp) hx
  rw [hgroup.2.2] at hg
  cases hg
  exact ⟨gs, hgs⟩

/-- What is in front of the address behind `::ffff:`. -/
theorem split_of_ffff {inner : List Char} (h : "::ffff:".toList <+: inner.map Char.toLower) :
    ∃ p, inner = ':' :: ':' :: (p ++ ':' :: inner.drop 7) ∧ ':' ∉ p ∧ '%' ∉ p ∧ hexGroup? p = some 0xffff := by
  obtain ⟨p, hsplit, hlower⟩ := exists_of_prefix_lower h
  rw [show "::ffff:".toList = ':' :: ':' :: ("ffff".toList ++ [':']) from rfl] at hlower
  simp only [List.map_eq_cons_iff, List.map_eq_append_iff, List.map_eq_nil_iff] at hlower
  obtain ⟨a, _, rfl, ha, b, _, rfl, hb, q, _, rfl, hq, e, _, rfl, he, rfl⟩ := hlower
  cases eq_of_toLower ha (by decide)
  cases eq_of_toLower hb (by decide)
  cases eq_of_toLower he (by decide)
  obtain ⟨hgroup, hf⟩ := hexGroup?_ffff hq
  refine ⟨q, ?_, fun hmem => ?_, fun hmem => ?_, hgroup⟩
  · simpa using hsplit
  · rcases hf _ hmem with heq | heq <;> exact absurd heq (by decide)
  · rcases hf _ hmem with heq | heq <;> exact absurd heq (by decide)

/-! ## Hosts without brackets -/

theorem dialable_eq {own : List Char} (hne : own ≠ []) (hzero : own ≠ "0.0.0.0".toList) (hany : own ≠ "[::]".toList) :
    dialable own = some own := by
  unfold dialable
  rw [if_neg]
  rintro (h | h | h)
  · exact hne h
  · exact hzero h
  · exact hany h

theorem of_dialable {own host : List Char} (h : dialable own = some host) :
    host = own ∧ own ≠ [] ∧ own ≠ "0.0.0.0".toList ∧ own ≠ "[::]".toList := by
  unfold dialable at h
  split at h
  · cases h
  · rename_i hnot
    cases h
    simpa only [not_or, true_and] using hnot

theorem told_of_dials_plain {own : List Char} (hopen : own.head? ≠ some '[')
    (h : ∀ host, dialable own = some host → Dials own host) : Told own where
  nonempty := by
    rintro rfl
    exact hopen rfl
  wildcard := by
    intro hwild
    by_contra hnot
    rw [not_or] at hnot
    have hne : own ≠ [] := by
      rintro rfl
      cases hwild
    have hdials := h own (dialable_eq hne hnot.1 hnot.2)
    rw [hdials.notWildcard] at hwild
    cases hwild
  linkLocal := by
    intro hlocal
    have hdials := h own (dialable_eq (by rintro rfl; cases hlocal) (by rintro rfl; revert hlocal; decide)
      (by rintro rfl; exact absurd rfl hopen))
    rw [hdials.notLinkLocal] at hlocal
    cases hlocal
  bracketed := by
    intro _
    by_contra hsome
    have hdials := h own (dialable_eq (by rintro rfl; exact hsome (by decide)) (by rintro rfl; exact hsome (by decide))
      (by rintro rfl; exact hopen rfl))
    exact hsome hdials.bracketed
  mapped := by
    rintro inner rfl
    exact absurd rfl hopen

theorem dials_of_told_plain {own host : List Char} (hopen : own.head? ≠ some '[') (h : Told own)
    (hhost : dialable own = some host) : Dials own host := by
  obtain ⟨rfl, hne, hzero, hany⟩ := of_dialable hhost
  refine ⟨rfl, ⟨hne, h.nonempty⟩, ?_, ?_, h.bracketed hopen⟩
  · by_contra hwild
    rcases h.wildcard (eq_true_of_ne_false hwild) with heq | heq
    · exact hzero heq
    · exact hany heq
  · by_contra hlocal
    obtain ⟨inner, rfl, -⟩ := h.linkLocal (eq_true_of_ne_false hlocal)
    exact hopen rfl

/-! ## Hosts in brackets -/

theorem bracketed_inj {s t : List Char} (h : '[' :: s ++ [']'] = '[' :: t ++ [']']) : s = t := by simpa using h

/-- An address of `fe80::/16` is no wildcard address. -/
theorem wildcard_of_fe80 {inner : List Char} (hin : ']' ∉ inner) (h : "fe80:".toList <+: inner.map Char.toLower) :
    (readHost ('[' :: inner ++ [']'])).wildcard = false := by
  rw [readHost_bracketed hin]
  cases hx : readV6 inner with
  | none => rfl
  | some x =>
    obtain ⟨gs, hgs⟩ := first_of_fe80 h hx
    simp [Host.ofV6, V6.mapped, Host.wildcard, hgs]

theorem told_of_fe80 {inner : List Char} (hin : ']' ∉ inner) (h : "fe80:".toList <+: inner.map Char.toLower) :
    Told ('[' :: inner ++ [']']) where
  nonempty := by
    intro heq
    rw [bracketed_inj (t := []) heq] at h
    revert h
    decide
  wildcard := by
    intro hwild
    rw [wildcard_of_fe80 hin h] at hwild
    cases hwild
  linkLocal := fun _ => ⟨inner, rfl, h⟩
  bracketed := fun hopen => absurd rfl hopen
  mapped := by
    intro inner' heq hffff
    cases bracketed_inj heq
    have hboth := List.prefix_of_prefix_length_le h hffff (by decide)
    exact absurd hboth (by decide)

theorem ofAnyText_of_readHost {t : List Char} {x : V6} (hclose : ']' ∉ t) (hv6 : readV6 t = none)
    (h : readHost t = .ofV6 x) : ∃ y, V4.ofAnyText t = some y := by
  cases t with
  | nil => exact absurd h.symm (ofV6_ne_name _ _)
  | cons c cs =>
    rw [List.mem_cons, not_or] at hclose
    by_cases hc : c = '['
    · simp only [readHost, hc, if_true, cut_eq_none hclose.2, Option.bind_none] at h
      exact absurd h.symm (ofV6_ne_name _ _)
    · cases hany : V4.ofAnyText (c :: cs) with
      | none =>
        simp only [readHost, hc, if_false, hany, hv6] at h
        exact absurd h.symm (ofV6_ne_name _ _)
      | some y => exact ⟨y, rfl⟩

/-- What stands behind `::ffff:` is dialed as an IPv4 address only if it is one. -/
theorem v4_of_dials {inner : List Char} (hin : ']' ∉ inner) (h : "::ffff:".toList <+: inner.map Char.toLower)
    (hdot : '.' ∈ inner.drop 7) (hdials : Dials ('[' :: inner ++ [']']) (inner.drop 7)) :
    ∃ x : V4, inner.drop 7 = x.text := by
  obtain ⟨p, hsplit, hcolon, hpercent, hgroup⟩ := split_of_ffff h
  have hsame := hdials.same
  rw [readHost_bracketed hin] at hsame
  cases hx : readV6 inner with
  | none =>
    rw [hx] at hsame
    have heq := congrArg List.length (eq_of_readHost_name hsame)
    simp at heq
    omega
  | some x =>
    rw [hx] at hsame
    obtain ⟨y, hy⟩ := ofAnyText_of_readHost (fun hmem => hin (List.mem_of_mem_drop hmem)) hdials.bracketed hsame
    have hchar := V4.isNumberChar_of_ofAnyText hy
    have hforeign {c : Char} (hc : ¬IsNumberChar c) : c ∉ inner.drop 7 := fun hmem => hc (hchar c hmem)
    have hcolon' := hforeign (c := ':') (by unfold IsNumberChar; decide)
    have hpercent' := hforeign (c := '%') (by unfold IsNumberChar; decide)
    rw [readV6, takeWhile_percent, hsplit] at hx
    · exact V6.v4_of_ofText hcolon hcolon' hdot hx
    · rw [hsplit]
      simp [hpercent, hpercent']

theorem told_of_ffff {inner : List Char} (hin : ']' ∉ inner) (h : "::ffff:".toList <+: inner.map Char.toLower)
    (hdot : '.' ∈ inner.drop 7) (hdials : Dials ('[' :: inner ++ [']']) (inner.drop 7)) :
    Told ('[' :: inner ++ [']']) where
  nonempty := by
    intro heq
    rw [bracketed_inj (t := []) heq] at hdot
    cases hdot
  wildcard := by
    intro hwild
    rw [← hdials.same, hdials.notWildcard] at hwild
    cases hwild
  linkLocal := by
    intro hlocal
    rw [← hdials.same, hdials.notLinkLocal] at hlocal
    cases hlocal
  bracketed := fun hopen => absurd rfl hopen
  mapped := by
    intro inner' heq _ _
    cases bracketed_inj heq
    exact v4_of_dials hin h hdot hdials

theorem told_of_dialable {inner : List Char}
    (hplain : ¬("::ffff:".toList <+: inner.map Char.toLower ∧ '.' ∈ inner.drop 7))
    (h : ∀ host, dialable ('[' :: inner ++ [']']) = some host → Dials ('[' :: inner ++ [']']) host) :
    Told ('[' :: inner ++ [']']) := by
  have hzero : '[' :: inner ++ [']'] ≠ "0.0.0.0".toList := fun heq => nomatch (List.cons.inj heq).1
  -- any other address than `::` is dialed as it is
  have hown (hany : '[' :: inner ++ [']'] ≠ "[::]".toList) : Dials ('[' :: inner ++ [']']) ('[' :: inner ++ [']']) :=
    h _ (dialable_eq (List.cons_ne_nil _ _) hzero hany)
  constructor
  · intro heq
    exact (hown (by rw [heq]; decide)).nonempty.2 heq
  · intro hwild
    by_contra hnot
    rw [not_or] at hnot
    rw [(hown hnot.2).notWildcard] at hwild
    cases hwild
  · intro hlocal
    have hany : '[' :: inner ++ [']'] ≠ "[::]".toList := by
      intro heq
      rw [heq] at hlocal
      revert hlocal
      decide
    rw [(hown hany).notLinkLocal] at hlocal
    cases hlocal
  · exact fun hopen => absurd rfl hopen
  · intro inner' heq hffff hdot
    cases bracketed_inj heq
    exact absurd ⟨hffff, hdot⟩ hplain

theorem told_of_dials_bracketed {inner : List Char} (hin : ']' ∉ inner)
    (h : ∀ host, bracketedHost inner = some host → Dials ('[' :: inner ++ [']']) host) :
    Told ('[' :: inner ++ [']']) := by
  unfold bracketedHost at h
  by_cases hfe80 : "fe80:".toList <+: inner.map Char.toLower
  · exact told_of_fe80 hin hfe80
  · by_cases hffff : "::ffff:".toList <+: inner.map Char.toLower ∧ '.' ∈ inner.drop "::ffff:".length
    · refine told_of_ffff hin hffff.1 hffff.2 (h _ ?_)
      dsimp only
      rw [if_neg hfe80, if_pos hffff]
      rfl
    · refine told_of_dialable hffff fun host hhost => h host ?_
      dsimp only
      rw [if_neg hfe80, if_neg hffff, hhost]

/-- An IPv4 address behind `::ffff:` is the one that is dialed. -/
theorem dials_text {inner : List Char} (hin : ']' ∉ inner) (h : "::ffff:".toList <+: inner.map Char.toLower)
    (htold : Told ('[' :: inner ++ [']'])) {x : V4} (hx : inner.drop 7 = x.text) :
    Dials ('[' :: inner ++ [']']) x.text := by
  obtain ⟨p, hsplit, hcolon, hpercent, hgroup⟩ := split_of_ffff h
  rw [hx] at hsplit
  obtain ⟨y, hy, hmapped, hlow⟩ := V6.ofText_mapped hcolon hgroup x
  have hread : readV6 inner = some y := by
    rw [readV6, takeWhile_percent, hsplit, hy]
    rw [hsplit]
    simp [hpercent, percent_not_mem_text]
  have hsame : readHost ('[' :: inner ++ [']']) = .v4 x := by
    rw [readHost_bracketed hin, hread]
    simp [Host.ofV6, hmapped, hlow]
  have hne : x.text ≠ "[]".toList := by
    intro heq
    have hdot := dot_mem_text x
    rw [heq] at hdot
    revert hdot
    decide
  refine ⟨by rw [readHost_text, hsame], ⟨text_v4_ne_nil x, hne⟩, ?_, ?_, readV6_text x⟩
  · by_contra hwild
    rw [readHost_text, ← hsame] at hwild
    rcases htold.wildcard (eq_true_of_ne_false hwild) with heq | heq
    · exact nomatch (List.cons.inj heq).1
    · rw [bracketed_inj (t := [':', ':']) heq] at hx
      exact text_v4_ne_nil x hx.symm
  · rw [readHost_text]
    rfl

theorem dials_of_told_bracketed {inner host : List Char} (hin : ']' ∉ inner) (htold : Told ('[' :: inner ++ [']']))
    (h : bracketedHost inner = some host) : Dials ('[' :: inner ++ [']']) host := by
  unfold bracketedHost at h
  dsimp only at h
  split at h
  · cases h
  · rename_i hfe80
    split at h
    · rename_i hffff
      obtain ⟨x, hx⟩ := htold.mapped inner rfl hffff.1 hffff.2
      cases h
      rw [show inner.drop "::ffff:".length = inner.drop 7 from rfl, hx]
      exact dials_text hin hffff.1 htold hx
    · obtain ⟨rfl, hne, hzero, hany⟩ := of_dialable h
      refine ⟨rfl, ⟨hne, htold.nonempty⟩, ?_, ?_, readV6_bracket _⟩
      · by_contra hwild
        rcases htold.wildcard (eq_true_of_ne_false hwild) with heq | heq
        · exact hzero heq
        · exact hany heq
      · by_contra hlocal
        obtain ⟨inner', heq, hpre⟩ := htold.linkLocal (eq_true_of_ne_false hlocal)
        cases bracketed_inj heq
        exact hfe80 hpre

/-! ## Peers -/

/-- The host part of a peer, if it has one. -/
def peerHost (peer : String) : Option (List Char) := (stripScheme peer.toList).bind ownHost

/-- No endpoint, or the port behind a host that dials the peer. -/
def EndpointFits (peer diagnosticPort endpoint : String) : Prop :=
  endpoint = "" ∨
    ∃ own host, peerHost peer = some own ∧ Dials own host ∧ endpoint = String.ofList host ++ ":" ++ diagnosticPort

/-- A routable address and a port, in gRPC's notation. -/
def Routable (peer : String) : Prop :=
  ∃ p : List Char, (∀ c ∈ p, c.isDigit = true) ∧
    ((∃ x : V4, (Host.v4 x).wildcard = false ∧ peer.toList = "ipv4:".toList ++ (x.text ++ ':' :: p)) ∨
      ∃ t x, V6.ofText t = some x ∧ (Host.ofV6 x).wildcard = false ∧ (Host.ofV6 x).linkLocal = false ∧
        peer.toList = "ipv6:[".toList ++ (t ++ "]:".toList ++ p))

/-- The host that is dialed comes from the peer's own one. -/
theorem ownHost_cases {hostport own : List Char} (h : ownHost hostport = some own) :
    (∃ inner, ']' ∉ inner ∧ own = '[' :: inner ++ [']'] ∧ dialedHost hostport = bracketedHost inner) ∨
      own.head? ≠ some '[' ∧ dialedHost hostport = dialable own := by
  cases hostport with
  | nil => cases h
  | cons c cs =>
    by_cases hc : c = '['
    · simp only [ownHost, hc, if_true, Option.map_eq_some_iff] at h
      obtain ⟨⟨inner, rest⟩, hcut, rfl⟩ := h
      refine .inl ⟨inner, not_mem_of_cut hcut, rfl, ?_⟩
      simp only [dialedHost, hc, if_true, hcut]
    · right
      cases hcut : cutLast ':' (c :: cs) with
      | none =>
        simp only [ownHost, hc, if_false, hcut, Option.some.injEq] at h
        subst h
        refine ⟨by simpa using hc, ?_⟩
        simp only [dialedHost, hc, if_false, hcut]
      | some p =>
        obtain ⟨host, port⟩ := p
        simp only [ownHost, hc, if_false, hcut, Option.some.injEq] at h
        subst h
        refine ⟨?_, by simp only [dialedHost, hc, if_false, hcut]⟩
        have hsplit := append_of_cutLast hcut
        cases host with
        | nil => nofun
        | cons d host =>
          cases hsplit
          simpa using hc

theorem dialedHost_of_ownHost {hostport : List Char} (h : ownHost hostport = none) : dialedHost hostport = none := by
  cases hostport with
  | nil => rfl
  | cons c cs =>
    by_cases hc : c = '['
    · simp only [ownHost, hc, if_true, Option.map_eq_none_iff] at h
      simp only [dialedHost, hc, if_true, h]
    · cases hcut : cutLast ':' (c :: cs) with
      | none => simp [ownHost, hc, hcut] at h
      | some p => simp [ownHost, hc, hcut] at h

theorem told_iff {hostport own : List Char} (h : ownHost hostport = some own) :
    (∀ host, dialedHost hostport = some host → Dials own host) ↔ Told own := by
  rcases ownHost_cases h with ⟨inner, hin, rfl, heq⟩ | ⟨hopen, heq⟩
  · rw [heq]
    exact ⟨told_of_dials_bracketed hin, fun htold _ => dials_of_told_bracketed hin htold⟩
  · rw [heq]
    exact ⟨told_of_dials_plain hopen, fun htold _ => dials_of_told_plain hopen htold⟩

/-- The endpoint fits if every host that is dialed does. -/
theorem endpointFits_iff (peer diagnosticPort : String) :
    EndpointFits peer diagnosticPort (diagnosticEndpointFromPeer peer diagnosticPort) ↔
      ∀ own, peerHost peer = some own → Told own := by
  unfold diagnosticEndpointFromPeer EndpointFits peerHost
  cases hstrip : stripScheme peer.toList with
  | none => simp
  | some hostport =>
    rw [Option.bind_some, Option.bind_some]
    cases hown : ownHost hostport with
    | none => simp [dialedHost_of_ownHost hown]
    | some own =>
      simp only [Option.some.injEq, forall_eq', ← told_iff hown]
      cases dialedHost hostport with
      | none => simp
      | some host =>
        have hne : String.ofList host ++ ":" ++ diagnosticPort ≠ "" := by simp
        simp only [hne, false_or, Option.some.injEq, forall_eq']
        constructor
        · rintro ⟨own', host', rfl, hdials, heq⟩
          have hhost : host = host' := by
            have hlist := congrArg String.toList heq
            simpa using hlist
          rwa [hhost]
        · exact fun hdials => ⟨own, host, rfl, hdials, rfl⟩

/-! ## Routable peers -/

theorem stripScheme_ip {scheme rest : List Char} (h : scheme = "ipv4".toList ∨ scheme = "ipv6".toList) :
    stripScheme (scheme ++ ':' :: rest) = some rest := by
  have hcolon : ':' ∉ scheme := by rcases h with rfl | rfl <;> decide
  unfold stripScheme
  rw [cut_append hcolon]
  dsimp only
  rw [if_neg (by rcases h with rfl | rfl <;> decide), if_pos h]

theorem dialedHost_v4 {x : V4} {p : List Char} (hp : ':' ∉ p) (hx : (Host.v4 x).wildcard = false) :
    dialedHost (x.text ++ ':' :: p) = some x.text := by
  have hread := readHost_text x
  have hdialable : dialable x.text = some x.text := by
    refine dialable_eq (text_v4_ne_nil x) (fun heq => ?_) (fun heq => ?_)
    · rw [heq, show readHost "0.0.0.0".toList = .v4 ⟨0, 0, 0, 0⟩ by decide, Host.v4.injEq] at hread
      rw [← hread] at hx
      cases hx
    · have hdot := dot_mem_text x
      rw [heq] at hdot
      revert hdot
      decide
  have hcut := cutLast_append hp x.text
  obtain ⟨c, cs, htext, hc⟩ := exists_text x
  rw [htext, List.cons_append] at hcut
  rw [htext, List.cons_append, dialedHost, if_neg hc, hcut]
  dsimp only
  rw [← htext, hdialable]

theorem dialedHost_v6 {t p : List Char} {x : V6} (ht : V6.ofText t = some x)
    (hwild : (Host.ofV6 x).wildcard = false) (hlocal : (Host.ofV6 x).linkLocal = false) :
    dialedHost ('[' :: (t ++ ']' :: p)) ≠ none := by
  have hforeign {c : Char} (hc : ¬IsAddressChar c) : c ∉ t := fun hmem => hc (V6.isAddressChar_of_ofText ht c hmem)
  have hclose : ']' ∉ t := hforeign (by unfold IsAddressChar; decide)
  have hpercent : '%' ∉ t := hforeign (by unfold IsAddressChar; decide)
  have hread : readV6 t = some x := by rw [readV6, takeWhile_percent hpercent, ht]
  have hfe80 : ¬"fe80:".toList <+: t.map Char.toLower := by
    intro hpre
    obtain ⟨gs, hgs⟩ := first_of_fe80 hpre hread
    simp [Host.ofV6, V6.mapped, Host.linkLocal, hgs] at hlocal
  have hany : '[' :: t ++ [']'] ≠ "[::]".toList := by
    intro heq
    cases bracketed_inj (t := [':', ':']) heq
    have hzero : (V6.ofText [':', ':']).map (fun x => (Host.ofV6 x).wildcard) = some true := by decide
    rw [ht, Option.map_some, hwild] at hzero
    cases hzero
  have hdialable : dialable ('[' :: t ++ [']']) = some ('[' :: t ++ [']']) :=
    dialable_eq (List.cons_ne_nil _ _) (fun heq => nomatch (List.cons.inj heq).1) hany
  simp only [dialedHost, if_true, cut_append hclose, bracketedHost]
  rw [if_neg hfe80, hdialable]
  split
  · nofun
  · nofun

/-- A routable peer gets an endpoint. -/
theorem endpoint_of_routable {peer : String} (h : Routable peer) (diagnosticPort : String) :
    diagnosticEndpointFromPeer peer diagnosticPort ≠ "" := by
  have hdialed : (stripScheme peer.toList).bind dialedHost ≠ none := by
    obtain ⟨p, hp, ⟨x, hx, hpeer⟩ | ⟨t, x, ht, hwild, hlocal, hpeer⟩⟩ := h
    · have hcolon : ':' ∉ p := fun hmem => absurd (hp ':' hmem) (by decide)
      rw [hpeer, show "ipv4:".toList ++ (x.text ++ ':' :: p) = "ipv4".toList ++ ':' :: (x.text ++ ':' :: p) from rfl,
        stripScheme_ip (.inl rfl), Option.bind_some, dialedHost_v4 hcolon hx]
      nofun
    · have hsplit : "ipv6:[".toList ++ (t ++ "]:".toList ++ p) =
          "ipv6".toList ++ ':' :: '[' :: (t ++ "]:".toList ++ p) := rfl
      rw [hpeer, hsplit, stripScheme_ip (.inr rfl), Option.bind_some, List.append_assoc]
      exact dialedHost_v6 ht hwild hlocal
  unfold diagnosticEndpointFromPeer
  split
  · rename_i hnone
    exact absurd hnone hdialed
  · simp

/-- **Endpoints of peers.** A peer gets no endpoint or one that dials it, and a routable one gets one, exactly where the
tests on texts tell its host right. -/
theorem endpoint_iff (peer diagnosticPort : String) :
    EndpointFits peer diagnosticPort (diagnosticEndpointFromPeer peer diagnosticPort) ∧
        (Routable peer → diagnosticEndpointFromPeer peer diagnosticPort ≠ "") ↔
      ∀ own, peerHost peer = some own → Told own := by
  rw [endpointFits_iff, and_iff_left fun hroutable => endpoint_of_routable hroutable diagnosticPort]

/-- The zero address in full, a link-local address outside `fe80::/16`, the wildcard IPv4 address in an IPv6 address and
an IPv6 address without brackets are dialed. -/
theorem wildcard_dialed :
    diagnosticEndpointFromPeer "ipv6:[0:0:0:0:0:0:0:0]:54321" "50052" = "[0:0:0:0:0:0:0:0]:50052" ∧
      diagnosticEndpointFromPeer "ipv6:[fe90::1]:54321" "50052" = "[fe90::1]:50052" ∧
      diagnosticEndpointFromPeer "ipv6:[::ffff:0.0.0.0]:54321" "50052" = "0.0.0.0:50052" ∧
      diagnosticEndpointFromPeer "2001:db8::5:54321" "50052" = "2001:db8::5:50052" ∧
      ¬EndpointFits "ipv6:[0:0:0:0:0:0:0:0]:54321" "50052" "[0:0:0:0:0:0:0:0]:50052" := by
  refine ⟨by decide, by decide, by decide, by decide, fun hfits => ?_⟩
  have htold := (endpointFits_iff "ipv6:[0:0:0:0:0:0:0:0]:54321" "50052").1 hfits _ rfl
  exact absurd (htold.wildcard (by decide)) (by decide)

end PudimNetMon.Collector
