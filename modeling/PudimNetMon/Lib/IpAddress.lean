import Mathlib.Algebra.Ring.Int.Defs
import Mathlib.Algebra.Ring.Nat
import Mathlib.Data.List.Basic
import PudimNetMon.Lib.Separated

/-!
# Texts of IP addresses

`text` writes an address as `inet_ntop` does: four octets, or eight groups with their leftmost longest run of zeros
left out. `ofText` reads the spellings that `inet_pton` takes, and `V4.ofAnyText` those of `inet_aton`.

- `V4.ofText_eq_some_iff`: an IPv4 address has one spelling;
- `V6.ofText_first`, `V6.ofText_mapped`: what the first group, and what an IPv4 address behind `::ffff:` is read as.
-/

namespace PudimNetMon.Ip

/-- An IPv4 address, by its octets. -/
structure V4 where
  a : UInt8
  b : UInt8
  c : UInt8
  d : UInt8
  deriving DecidableEq, Repr

/-- An IPv6 address, by its groups. -/
structure V6 where
  groups : List UInt16
  length_groups : groups.length = 8
  deriving DecidableEq, Repr

def isHexDigit (c : Char) : Bool := c.isDigit || ('a' ≤ c && c ≤ 'f') || ('A' ≤ c && c ≤ 'F')

/-- What the texts of addresses are made of. -/
def IsAddressChar (c : Char) : Prop := isHexDigit c = true ∨ c = ':' ∨ c = '.'

theorem isHexDigit_digitChar : ∀ n < 16, isHexDigit (Nat.digitChar n) = true := by decide

theorem isHexDigit_of_mem_toDigits {n : Nat} {c : Char} (h : c ∈ Nat.toDigits 16 n) : isHexDigit c = true := by
  induction n using Nat.strongRecOn with
  | ind n ih =>
    by_cases hn : n < 16
    · rw [Nat.toDigits_of_lt_base hn, List.mem_singleton] at h
      subst h
      exact isHexDigit_digitChar n hn
    · rw [Nat.toDigits_of_base_le (by omega) (by omega), List.mem_append, List.mem_singleton] at h
      rcases h with h | rfl
      · exact ih (n / 16) (by omega) h
      · exact isHexDigit_digitChar _ (by omega)

theorem isHexDigit_of_isDigit {c : Char} (h : c.isDigit = true) : isHexDigit c = true := by simp [isHexDigit, h]

/-! ## IPv4 -/

def octetText (o : UInt8) : List Char := Nat.toDigits 10 o.toNat

/-- `"%u.%u.%u.%u"` -/
def V4.text (x : V4) : List Char :=
  octetText x.a ++ '.' :: (octetText x.b ++ '.' :: (octetText x.c ++ '.' :: octetText x.d))

theorem isDigit_of_mem_octetText {o : UInt8} {c : Char} (h : c ∈ octetText o) : c.isDigit = true :=
  Nat.isDigit_of_mem_toDigits (by decide) (by decide) h

theorem mem_text_v4 {x : V4} {c : Char} (h : c ∈ x.text) : c.isDigit = true ∨ c = '.' := by
  simp only [V4.text, List.mem_append, List.mem_cons] at h
  rcases h with h | rfl | h | rfl | h | rfl | h
  · exact .inl (isDigit_of_mem_octetText h)
  · exact .inr rfl
  · exact .inl (isDigit_of_mem_octetText h)
  · exact .inr rfl
  · exact .inl (isDigit_of_mem_octetText h)
  · exact .inr rfl
  · exact .inl (isDigit_of_mem_octetText h)

theorem isAddressChar_text_v4 {x : V4} {c : Char} (h : c ∈ x.text) : IsAddressChar c := by
  rcases mem_text_v4 h with hdigit | hdot
  · exact .inl (isHexDigit_of_isDigit hdigit)
  · exact .inr (.inr hdot)

theorem text_v4_ne_nil (x : V4) : x.text ≠ [] := by
  simp [V4.text]

/-- An octet has one spelling. -/
def octet? (p : List Char) : Option UInt8 :=
  let n := Nat.ofDigitChars 10 p 0
  if n < 256 ∧ p = Nat.toDigits 10 n then some (UInt8.ofNat n) else none

def V4.ofText (s : List Char) : Option V4 :=
  match s.splitOn '.' with
  | [a, b, c, d] => do
    let a ← octet? a
    let b ← octet? b
    let c ← octet? c
    let d ← octet? d
    return ⟨a, b, c, d⟩
  | _ => none

/-- An octet is read from its own text only, so that no other one is accepted. -/
theorem octet?_eq_some_iff {p : List Char} {o : UInt8} : octet? p = some o ↔ p = octetText o := by
  unfold octet? octetText
  constructor
  · intro h
    dsimp only at h
    split at h
    · rename_i hp
      cases h
      rw [UInt8.toNat_ofNat_of_lt' hp.1]
      exact hp.2
    · cases h
  · rintro rfl
    have hlt : o.toNat < 256 := o.toNat_lt
    simp [Nat.ofDigitChars_ten_toDigits, hlt]

theorem dot_not_mem_octetText (o : UInt8) : '.' ∉ octetText o :=
  fun h => absurd (isDigit_of_mem_octetText h) (by decide)

theorem splitOn_text (x : V4) :
    x.text.splitOn '.' = [octetText x.a, octetText x.b, octetText x.c, octetText x.d] := by
  unfold V4.text
  rw [List.splitOn_append_cons_self_of_not_mem (dot_not_mem_octetText _),
    List.splitOn_append_cons_self_of_not_mem (dot_not_mem_octetText _),
    List.splitOn_append_cons_self_of_not_mem (dot_not_mem_octetText _),
    List.splitOn_eq_singleton (dot_not_mem_octetText _)]

/-- So is an address. -/
theorem V4.ofText_eq_some_iff {s : List Char} {x : V4} : V4.ofText s = some x ↔ s = x.text := by
  constructor
  · intro h
    unfold V4.ofText at h
    split at h
    · rename_i a b c d hparts
      simp only [Option.bind_eq_bind, Option.pure_def, Option.bind_eq_some_iff, Option.some.injEq,
        octet?_eq_some_iff] at h
      obtain ⟨oa, rfl, ob, rfl, oc, rfl, od, rfl, rfl⟩ := h
      have hjoin : ['.'].intercalate (s.splitOn '.') = s := List.intercalate_splitOn '.'
      rw [hparts] at hjoin
      simpa [V4.text, List.intercalate_cons_cons] using hjoin.symm
    · cases h
  · rintro rfl
    have hoctet (o : UInt8) : octet? (octetText o) = some o := octet?_eq_some_iff.2 rfl
    simp [V4.ofText, splitOn_text, hoctet]

def hexValue (s : List Char) : Nat :=
  s.foldl (fun n c => 16 * n + if c.isDigit then c.toNat - 48 else c.toLower.toNat - 87) 0

/-- A number in C's notation: hexadecimal, octal or decimal. -/
def numeral? : List Char → Option Nat
  | '0' :: 'x' :: ds => if ds ≠ [] ∧ ds.all isHexDigit then some (hexValue ds) else none
  | '0' :: 'X' :: ds => if ds ≠ [] ∧ ds.all isHexDigit then some (hexValue ds) else none
  | '0' :: ds => if ds.all fun c => '0' ≤ c && c ≤ '7' then some (Nat.ofDigitChars 8 ds 0) else none
  | ds => if ds ≠ [] ∧ ds.all Char.isDigit then some (Nat.ofDigitChars 10 ds 0) else none

def V4.ofNat (n : Nat) : V4 :=
  ⟨UInt8.ofNat (n / 2 ^ 24), UInt8.ofNat (n / 2 ^ 16), UInt8.ofNat (n / 2 ^ 8), UInt8.ofNat n⟩

/-- One to four numbers; the last one fills what the others leave. -/
def V4.ofAnyText (s : List Char) : Option V4 :=
  match (s.splitOn '.').mapM numeral? with
  | some [a] => if a < 2 ^ 32 then some (V4.ofNat a) else none
  | some [a, b] => if a < 256 ∧ b < 2 ^ 24 then some (V4.ofNat (a * 2 ^ 24 + b)) else none
  | some [a, b, c] =>
    if a < 256 ∧ b < 256 ∧ c < 2 ^ 16 then some (V4.ofNat (a * 2 ^ 24 + b * 2 ^ 16 + c)) else none
  | some [a, b, c, d] =>
    if a < 256 ∧ b < 256 ∧ c < 256 ∧ d < 256 then some (V4.ofNat (a * 2 ^ 24 + b * 2 ^ 16 + c * 2 ^ 8 + d)) else none
  | _ => none

theorem numeral?_toDigits : ∀ n < 256, numeral? (Nat.toDigits 10 n) = some n := by decide +kernel

/-- The reader that knows other forms reads that text, too. -/
theorem V4.ofAnyText_text (x : V4) : V4.ofAnyText x.text = some x := by
  have hnumeral (o : UInt8) : numeral? (octetText o) = some o.toNat := numeral?_toDigits _ o.toNat_lt
  have ha := x.a.toNat_lt
  have hb := x.b.toNat_lt
  have hc := x.c.toNat_lt
  have hd := x.d.toNat_lt
  have hparts : (x.text.splitOn '.').mapM numeral? = some [x.a.toNat, x.b.toNat, x.c.toNat, x.d.toNat] := by
    simp [splitOn_text, hnumeral]
  unfold V4.ofAnyText
  rw [hparts]
  dsimp only
  rw [if_pos ⟨ha, hb, hc, hd⟩]
  obtain ⟨a, b, c, d⟩ := x
  simp only [V4.ofNat, Option.some.injEq, V4.mk.injEq, ← UInt8.toNat_inj, UInt8.toNat_ofNat']
  dsimp only at ha hb hc hd ⊢
  omega

/-! ## IPv6 -/

/-- A run of groups that are zero. -/
structure Zeros where
  base : Nat
  len : Nat
  deriving DecidableEq, Repr

/-- The longer run; of two of one length, the one found first. -/
def longer : Option Zeros → Option Zeros → Option Zeros
  | none, cur => cur
  | some best, none => some best
  | some best, some cur => if best.len < cur.len then some cur else some best

/-- The leftmost longest run of the groups from `i` on, with the best one and the current one so far. -/
def scanZeros (i : Nat) (best cur : Option Zeros) : List UInt16 → Option Zeros
  | [] => longer best cur
  | w :: ws =>
    if w = 0 then
      scanZeros (i + 1) best (some (match cur with | none => ⟨i, 1⟩ | some run => ⟨run.base, run.len + 1⟩)) ws
    else scanZeros (i + 1) (longer best cur) none ws

/-- The run that is left out of the text: a single zero is not. -/
def V6.zeros (x : V6) : Option Zeros := (scanZeros 0 none none x.groups).filter (2 ≤ ·.len)

/-- The last two groups, as the octets of an IPv4 address. -/
def V6.lowV4 (x : V6) : V4 :=
  let high := (x.groups.getD 6 0).toNat
  let low := (x.groups.getD 7 0).toNat
  ⟨UInt8.ofNat (high / 256), UInt8.ofNat high, UInt8.ofNat (low / 256), UInt8.ofNat low⟩

/-- An IPv4 address in an IPv6 address: behind zeros, or behind zeros and `ffff`. -/
def V6.encapsulated (x : V6) (run : Option Zeros) : Bool :=
  match run with
  | none => false
  | some run => run.base == 0 && (run.len == 6 || (run.len == 5 && x.groups.getD 5 0 == 0xffff))

/-- The text of the groups from `i` on. -/
def V6.textFrom (x : V6) (run : Option Zeros) (i : Nat) : List UInt16 → List Char
  | [] => if run.any fun run => run.base + run.len == 8 then [':'] else []
  | w :: ws =>
    if run.any fun run => run.base ≤ i && i < run.base + run.len then
      (if run.any fun run => run.base == i then [':'] else []) ++ x.textFrom run (i + 1) ws
    else
      (if i = 0 then [] else [':']) ++
        if i = 6 ∧ x.encapsulated run = true then x.lowV4.text
        else Nat.toDigits 16 w.toNat ++ x.textFrom run (i + 1) ws

def V6.text (x : V6) : List Char := x.textFrom x.zeros 0 x.groups

theorem isAddressChar_textFrom {x : V6} {run : Option Zeros} {i : Nat} {ws : List UInt16} {c : Char}
    (h : c ∈ x.textFrom run i ws) : IsAddressChar c := by
  induction ws generalizing i with
  | nil =>
    unfold V6.textFrom at h
    split at h
    · exact .inr (.inl (List.mem_singleton.1 h))
    · cases h
  | cons w ws ih =>
    unfold V6.textFrom at h
    split at h
    · rcases List.mem_append.1 h with hsep | hrest
      · split at hsep
        · exact .inr (.inl (List.mem_singleton.1 hsep))
        · cases hsep
      · exact ih hrest
    · rcases List.mem_append.1 h with hsep | hrest
      · split at hsep
        · cases hsep
        · exact .inr (.inl (List.mem_singleton.1 hsep))
      · split at hrest
        · exact isAddressChar_text_v4 hrest
        · rcases List.mem_append.1 hrest with hhex | htail
          · exact .inl (isHexDigit_of_mem_toDigits hhex)
          · exact ih htail

theorem isAddressChar_text_v6 {x : V6} {c : Char} (h : c ∈ x.text) : IsAddressChar c := isAddressChar_textFrom h

theorem text_v6_ne_nil (x : V6) : x.text ≠ [] := by
  obtain ⟨groups, hlength⟩ := x
  cases groups with
  | nil => cases hlength
  | cons w ws =>
    unfold V6.text V6.textFrom
    split
    · rename_i hinside
      -- the first group is in a run only if the run starts there
      have hbase : ((⟨w :: ws, hlength⟩ : V6).zeros.any fun run => run.base == 0) = true := by
        cases hz : (⟨w :: ws, hlength⟩ : V6).zeros with
        | none => rw [hz] at hinside; cases hinside
        | some run =>
          rw [hz] at hinside
          simp only [Option.any_some, Bool.and_eq_true, decide_eq_true_eq] at hinside
          simp only [Option.any_some, beq_iff_eq]
          omega
      simp [hbase]
    · simp

/-! ## Spellings of IPv6 addresses -/

/-- What is in front of the first `::`, and what is behind it. -/
def cutDouble : List Char → Option (List Char × List Char)
  | [] => none
  | [_] => none
  | c :: d :: cs =>
    if c = ':' ∧ d = ':' then some ([], cs) else (cutDouble (d :: cs)).map fun p => (c :: p.1, p.2)

def hexGroup? (p : List Char) : Option UInt16 :=
  if 1 ≤ p.length ∧ p.length ≤ 4 ∧ p.all isHexDigit then some (UInt16.ofNat (hexValue p)) else none

def V4.groups (x : V4) : List UInt16 :=
  [UInt16.ofNat (x.a.toNat * 256 + x.b.toNat), UInt16.ofNat (x.c.toNat * 256 + x.d.toNat)]

/-- The groups of the parts between colons; the last part may be an IPv4 address. -/
def groupsOf : List (List Char) → Option (List UInt16)
  | [] => some []
  | [p] => if '.' ∈ p then (V4.ofText p).map V4.groups else (hexGroup? p).map ([·])
  | p :: q :: ps => do
    let g ← hexGroup? p
    let gs ← groupsOf (q :: ps)
    return g :: gs

def V6.ofGroups (gs : List UInt16) : Option V6 := if h : gs.length = 8 then some ⟨gs, h⟩ else none

/-- The groups of a side of `::`, which may be empty. -/
def sideGroups (groups : List (List Char) → Option (List UInt16)) (s : List Char) : Option (List UInt16) :=
  if s.isEmpty then some [] else groups (s.splitOn ':')

/-- `::` is one group of zeros, or more. -/
def V6.ofText (s : List Char) : Option V6 :=
  match cutDouble s with
  | none => (groupsOf (s.splitOn ':')).bind V6.ofGroups
  | some (left, right) => do
    let ls ← sideGroups (fun ps => ps.mapM hexGroup?) left
    let rs ← sideGroups groupsOf right
    if ls.length + rs.length < 8 then V6.ofGroups (ls ++ List.replicate (8 - ls.length - rs.length) 0 ++ rs) else none

/-- An IPv4 address behind `::ffff:`. -/
def V6.mapped (x : V6) : Bool := x.groups.take 6 == [0, 0, 0, 0, 0, 0xffff]

theorem groups_of_ofGroups {gs : List UInt16} {x : V6} (h : V6.ofGroups gs = some x) : x.groups = gs := by
  unfold V6.ofGroups at h
  split at h
  · cases h
    rfl
  · cases h

theorem append_of_cutDouble {s left right : List Char} (h : cutDouble s = some (left, right)) :
    s = left ++ ':' :: ':' :: right := by
  induction s generalizing left with
  | nil => cases h
  | cons c s ih =>
    cases s with
    | nil => cases h
    | cons d s =>
      unfold cutDouble at h
      split at h
      · rename_i hcolons
        cases h
        rw [hcolons.1, hcolons.2, List.nil_append]
      · obtain ⟨⟨front, back⟩, hcut, heq⟩ := Option.map_eq_some_iff.1 h
        cases heq
        rw [ih hcut, List.cons_append]

/-! ### The first group -/

theorem cutDouble_cons {c : Char} (hc : c ≠ ':') (s : List Char) :
    cutDouble (c :: s) = (cutDouble s).map fun q => (c :: q.1, q.2) := by
  cases s with
  | nil => rfl
  | cons d s => simp [cutDouble, hc]

theorem cutDouble_append {p : List Char} (hp : ':' ∉ p) (s : List Char) :
    cutDouble (p ++ s) = (cutDouble s).map fun q => (p ++ q.1, q.2) := by
  induction p with
  | nil => simp
  | cons c p ih =>
    rw [List.mem_cons, not_or] at hp
    rw [List.cons_append, cutDouble_cons (Ne.symm hp.1), ih hp.2, Option.map_map]
    rfl

theorem head_of_mapM {p : List Char} {ps : List (List Char)} {gs : List UInt16}
    (h : (p :: ps).mapM hexGroup? = some gs) : ∃ g gs', hexGroup? p = some g ∧ gs = g :: gs' := by
  simp only [List.mapM_cons, Option.bind_eq_bind, Option.pure_def, Option.bind_eq_some_iff, Option.some.injEq] at h
  obtain ⟨g, hg, gs', -, rfl⟩ := h
  exact ⟨g, gs', hg, rfl⟩

theorem head_of_groupsOf {p q : List Char} {ps : List (List Char)} {gs : List UInt16}
    (h : groupsOf (p :: q :: ps) = some gs) : ∃ g gs', hexGroup? p = some g ∧ gs = g :: gs' := by
  simp only [groupsOf, Option.bind_eq_bind, Option.pure_def, Option.bind_eq_some_iff, Option.some.injEq] at h
  obtain ⟨g, hg, gs', -, rfl⟩ := h
  exact ⟨g, gs', hg, rfl⟩

/-- The first `::` is behind the first part. -/
theorem left_of_cutDouble {p r left right : List Char} (hp : ':' ∉ p)
    (h : cutDouble (p ++ ':' :: r) = some (left, right)) : left = p ∨ ∃ l, left = p ++ ':' :: l := by
  rw [cutDouble_append hp] at h
  obtain ⟨⟨front, back⟩, hcut, heq⟩ := Option.map_eq_some_iff.1 h
  cases heq
  cases front with
  | nil => exact .inl (List.append_nil p)
  | cons c front =>
    have hsplit := append_of_cutDouble hcut
    rw [List.cons_append, List.cons.injEq] at hsplit
    exact .inr ⟨front, by rw [hsplit.1]⟩

/-- The part in front of the first colon is the first group. -/
theorem V6.ofText_first {p r : List Char} {x : V6} (hp : ':' ∉ p) (hne : p ≠ [])
    (h : V6.ofText (p ++ ':' :: r) = some x) : ∃ g gs, hexGroup? p = some g ∧ x.groups = g :: gs := by
  unfold V6.ofText at h
  split at h
  · obtain ⟨gs, hgs, hx⟩ := Option.bind_eq_some_iff.1 h
    rw [List.splitOn_append_cons_self_of_not_mem hp] at hgs
    obtain ⟨q, qs, hr⟩ := List.exists_cons_of_ne_nil (List.splitOn_ne_nil ':' r)
    rw [hr] at hgs
    obtain ⟨g, gs', hg, rfl⟩ := head_of_groupsOf hgs
    exact ⟨g, gs', hg, groups_of_ofGroups hx⟩
  · rename_i left right hcut
    simp only [Option.bind_eq_bind, Option.bind_eq_some_iff] at h
    obtain ⟨ls, hls, rs, -, hx⟩ := h
    have hhead : ∃ g gs, hexGroup? p = some g ∧ ls = g :: gs := by
      unfold sideGroups at hls
      rcases left_of_cutDouble hp hcut with rfl | ⟨l, rfl⟩
      · rw [if_neg (by simpa using hne), List.splitOn_eq_singleton hp] at hls
        exact head_of_mapM hls
      · rw [if_neg (by simp), List.splitOn_append_cons_self_of_not_mem hp] at hls
        exact head_of_mapM hls
    obtain ⟨g, gs, hg, rfl⟩ := hhead
    split at hx
    · exact ⟨g, _, hg, groups_of_ofGroups hx⟩
    · cases hx

/-! ### Characters -/

theorem isAddressChar_of_hexGroup {p : List Char} {g : UInt16} (h : hexGroup? p = some g) :
    ∀ c ∈ p, IsAddressChar c := by
  unfold hexGroup? at h
  split at h
  · rename_i hp
    intro c hc
    exact .inl (List.all_eq_true.1 hp.2.2 c hc)
  · cases h

/-- What holds where a function has a value holds all over a list on which it has one everywhere. -/
theorem forall_mem_of_mapM {α β : Type} {f : α → Option β} {P : α → Prop} (h : ∀ a b, f a = some b → P a) {l : List α}
    {l' : List β} (hl : l.mapM f = some l') : ∀ a ∈ l, P a := by
  induction l generalizing l' with
  | nil => exact nofun
  | cons a l ih =>
    simp only [List.mapM_cons, Option.bind_eq_bind, Option.pure_def, Option.bind_eq_some_iff] at hl
    obtain ⟨b, hb, l'', hl, -⟩ := hl
    exact List.forall_mem_cons.2 ⟨h a b hb, ih hl⟩

theorem isAddressChar_of_groupsOf {ps : List (List Char)} {gs : List UInt16} (h : groupsOf ps = some gs) :
    ∀ p ∈ ps, ∀ c ∈ p, IsAddressChar c := by
  induction ps generalizing gs with
  | nil => exact nofun
  | cons p ps ih =>
    cases ps with
    | nil =>
      rw [List.forall_mem_singleton]
      unfold groupsOf at h
      split at h
      · obtain ⟨x, hx, -⟩ := Option.map_eq_some_iff.1 h
        rw [V4.ofText_eq_some_iff.1 hx]
        exact fun c hc => isAddressChar_text_v4 hc
      · obtain ⟨g, hg, -⟩ := Option.map_eq_some_iff.1 h
        exact isAddressChar_of_hexGroup hg
    | cons q ps =>
      simp only [groupsOf, Option.bind_eq_bind, Option.pure_def, Option.bind_eq_some_iff] at h
      obtain ⟨g, hg, gs', hgs, -⟩ := h
      exact List.forall_mem_cons.2 ⟨isAddressChar_of_hexGroup hg, ih hgs⟩

/-- What holds of the parts between colons holds of the text. -/
theorem isAddressChar_of_parts {s : List Char} (h : ∀ p ∈ s.splitOn ':', ∀ c ∈ p, IsAddressChar c) :
    ∀ c ∈ s, IsAddressChar c := by
  have hjoin : [':'].intercalate (s.splitOn ':') = s := List.intercalate_splitOn ':'
  rw [← hjoin]
  exact forall_mem_intercalate (.inr (.inl rfl)) h

theorem isAddressChar_of_sideGroups {groups : List (List Char) → Option (List UInt16)} {s : List Char}
    {gs : List UInt16} (hgroups : ∀ ps gs, groups ps = some gs → ∀ p ∈ ps, ∀ c ∈ p, IsAddressChar c)
    (h : sideGroups groups s = some gs) : ∀ c ∈ s, IsAddressChar c := by
  unfold sideGroups at h
  split at h
  · rename_i hempty
    rw [List.isEmpty_iff.1 hempty]
    exact nofun
  · exact isAddressChar_of_parts (hgroups _ gs h)

/-- The characters of a text that is read as an IPv6 address. -/
theorem V6.isAddressChar_of_ofText {s : List Char} {x : V6} (h : V6.ofText s = some x) :
    ∀ c ∈ s, IsAddressChar c := by
  unfold V6.ofText at h
  split at h
  · obtain ⟨gs, hgs, -⟩ := Option.bind_eq_some_iff.1 h
    exact isAddressChar_of_parts (isAddressChar_of_groupsOf hgs)
  · rename_i left right hcut
    simp only [Option.bind_eq_bind, Option.bind_eq_some_iff] at h
    obtain ⟨ls, hls, rs, hrs, -⟩ := h
    rw [append_of_cutDouble hcut, List.forall_mem_append, List.forall_mem_cons, List.forall_mem_cons]
    refine ⟨?_, .inr (.inl rfl), .inr (.inl rfl), ?_⟩
    · exact isAddressChar_of_sideGroups (fun _ _ => forall_mem_of_mapM fun _ _ => isAddressChar_of_hexGroup) hls
    · exact isAddressChar_of_sideGroups (fun _ _ => isAddressChar_of_groupsOf) hrs

/-- There is a colon in every spelling. -/
theorem V6.ofText_eq_none {s : List Char} (h : ':' ∉ s) : V6.ofText s = none := by
  have hcut : cutDouble s = none := by
    rw [← List.append_nil s, cutDouble_append h]
    rfl
  unfold V6.ofText
  rw [hcut, List.splitOn_eq_singleton h]
  dsimp only [groupsOf]
  split
  · cases V4.ofText s with
    | none => rfl
    | some x => rfl
  · cases hexGroup? s with
    | none => rfl
    | some g => rfl

/-! ### Addresses behind `::ffff:` -/

theorem colon_not_mem_text (x : V4) : ':' ∉ x.text := by
  intro h
  rcases mem_text_v4 h with hdigit | hdot
  · exact absurd hdigit (by decide)
  · exact absurd hdot (by decide)

theorem dot_mem_text (x : V4) : '.' ∈ x.text := by simp [V4.text]

theorem splitOn_mapped {p t : List Char} (hp : ':' ∉ p) (ht : ':' ∉ t) : (p ++ ':' :: t).splitOn ':' = [p, t] := by
  rw [List.splitOn_append_cons_self_of_not_mem hp, List.splitOn_eq_singleton ht]

theorem lowV4_groups (x : V4) (h : ([0, 0, 0, 0, 0, 0xffff] ++ x.groups).length = 8) :
    (⟨[0, 0, 0, 0, 0, 0xffff] ++ x.groups, h⟩ : V6).lowV4 = x := by
  obtain ⟨a, b, c, d⟩ := x
  have ha := a.toNat_lt
  have hb := b.toNat_lt
  have hc := c.toNat_lt
  have hd := d.toNat_lt
  simp only [V6.lowV4, V4.groups, List.cons_append, List.nil_append, List.getD_cons_succ, List.getD_cons_zero,
    V4.mk.injEq, ← UInt8.toNat_inj, UInt8.toNat_ofNat', UInt16.toNat_ofNat']
  omega

/-- What follows `::ffff:` is read as an IPv4 address. -/
theorem V6.ofText_mapped {p : List Char} (hp : ':' ∉ p) (hgroup : hexGroup? p = some 0xffff) (x : V4) :
    ∃ y, V6.ofText (':' :: ':' :: (p ++ ':' :: x.text)) = some y ∧ y.mapped = true ∧ y.lowV4 = x := by
  refine ⟨⟨[0, 0, 0, 0, 0, 0xffff] ++ x.groups, rfl⟩, ?_, rfl, lowV4_groups x rfl⟩
  have hright : sideGroups groupsOf (p ++ ':' :: x.text) = some (0xffff :: x.groups) := by
    have htext : V4.ofText x.text = some x := V4.ofText_eq_some_iff.2 rfl
    unfold sideGroups
    rw [if_neg (by simp), splitOn_mapped hp (colon_not_mem_text x)]
    simp [groupsOf, hgroup, dot_mem_text, htext]
  have hcut : cutDouble (':' :: ':' :: (p ++ ':' :: x.text)) = some ([], p ++ ':' :: x.text) := by simp [cutDouble]
  unfold V6.ofText
  rw [hcut]
  simp only [hright]
  rfl

/-- And nothing else is, unless there is another colon. -/
theorem V6.v4_of_ofText {p t : List Char} {y : V6} (hp : ':' ∉ p) (ht : ':' ∉ t) (hdot : '.' ∈ t)
    (h : V6.ofText (':' :: ':' :: (p ++ ':' :: t)) = some y) : ∃ x : V4, t = x.text := by
  have hcut : cutDouble (':' :: ':' :: (p ++ ':' :: t)) = some ([], p ++ ':' :: t) := by simp [cutDouble]
  unfold V6.ofText at h
  rw [hcut] at h
  simp only [Option.bind_eq_bind, Option.bind_eq_some_iff] at h
  obtain ⟨-, -, rs, hrs, -⟩ := h
  unfold sideGroups at hrs
  rw [if_neg (by simp), splitOn_mapped hp ht] at hrs
  simp only [groupsOf, hdot, if_true, Option.bind_eq_bind, Option.bind_eq_some_iff, Option.map_eq_some_iff] at hrs
  obtain ⟨-, -, -, ⟨x, hx, -⟩, -⟩ := hrs
  exact ⟨x, V4.ofText_eq_some_iff.1 hx⟩

/-! ### Upper and lower case -/

theorem eq_or_upper_of_toLower {c d : Char} (h : c.toLower = d) :
    c = d ∨ (c = Char.ofNat (d.toNat - 32) ∧ 97 ≤ d.toNat) := by
  by_cases hupper : 'A'.val ≤ c.val ∧ c.val ≤ 'Z'.val
  · right
    have hle : (65 : Nat) ≤ c.toNat ∧ c.toNat ≤ 90 := hupper
    have hd : d.toNat = c.toNat + 32 := by
      rw [← h, show c.toLower = _ from dif_pos hupper]
      show (c.val + ('a'.val - 'A'.val)).toNat = c.toNat + 32
      rw [UInt32.toNat_add]
      exact Nat.mod_eq_of_lt (by show c.toNat + 32 < 2 ^ 32; omega)
    refine ⟨?_, by omega⟩
    rw [hd, Nat.add_sub_cancel, Char.ofNat_toNat]
  · left
    exact (dif_neg hupper : c.toLower = c).symm.trans h

/-- What is no letter has one case. -/
theorem eq_of_toLower {c d : Char} (h : c.toLower = d) (hd : d.toNat < 97) : c = d := by
  rcases eq_or_upper_of_toLower h with heq | ⟨-, hle⟩
  · exact heq
  · omega

/-- The case of its letters makes no difference to a group. -/
theorem hexGroup?_ffff {p : List Char} (h : p.map Char.toLower = "ffff".toList) :
    hexGroup? p = some 0xffff ∧ ∀ c ∈ p, c = 'f' ∨ c = 'F' := by
  have hf {c : Char} (hc : c.toLower = 'f') : c = 'f' ∨ c = 'F' := by
    rcases eq_or_upper_of_toLower hc with hlow | ⟨hup, -⟩
    · exact .inl hlow
    · exact .inr hup
  have hall : ∀ c ∈ p, c = 'f' ∨ c = 'F' := by
    intro c hc
    have hmem := List.mem_map_of_mem (f := Char.toLower) hc
    rw [h] at hmem
    exact hf (by simpa using hmem)
  refine ⟨?_, hall⟩
  have hlength : p.length = 4 := by simpa using congrArg List.length h
  match p, hlength with
  | [a, b, c, d], _ =>
    rcases hall a (by simp) with rfl | rfl <;> rcases hall b (by simp) with rfl | rfl <;>
      rcases hall c (by simp) with rfl | rfl <;> rcases hall d (by simp) with rfl | rfl <;> decide

/-! ### Characters of numbers -/

/-- What numbers are written with. -/
def IsNumberChar (c : Char) : Prop := isHexDigit c = true ∨ c = 'x' ∨ c = 'X' ∨ c = '.'

theorem isNumberChar_of_numeral {p : List Char} {n : Nat} (h : numeral? p = some n) : ∀ c ∈ p, IsNumberChar c := by
  have hdigit {c : Char} (hc : isHexDigit c = true) : IsNumberChar c := .inl hc
  unfold numeral? at h
  split at h
  · split at h
    · rename_i ds hds
      rw [List.forall_mem_cons, List.forall_mem_cons]
      exact ⟨hdigit (by decide), .inr (.inl rfl), fun c hc => hdigit (List.all_eq_true.1 hds.2 c hc)⟩
    · cases h
  · split at h
    · rename_i ds hds
      rw [List.forall_mem_cons, List.forall_mem_cons]
      exact ⟨hdigit (by decide), .inr (.inr (.inl rfl)), fun c hc => hdigit (List.all_eq_true.1 hds.2 c hc)⟩
    · cases h
  · split at h
    · rename_i ds _ _ hds
      rw [List.forall_mem_cons]
      refine ⟨hdigit (by decide), fun c hc => hdigit ?_⟩
      have hoctal := List.all_eq_true.1 hds c hc
      simp only [Bool.and_eq_true, decide_eq_true_eq] at hoctal
      apply isHexDigit_of_isDigit
      simp only [Char.isDigit, Bool.and_eq_true, decide_eq_true_eq]
      exact ⟨hoctal.1, UInt32.le_trans hoctal.2 (by decide)⟩
    · cases h
  · split at h
    · rename_i ds _ _ _ hds
      intro c hc
      exact hdigit (isHexDigit_of_isDigit (List.all_eq_true.1 hds.2 c hc))
    · cases h

theorem V4.isNumberChar_of_ofAnyText {s : List Char} {x : V4} (h : V4.ofAnyText s = some x) :
    ∀ c ∈ s, IsNumberChar c := by
  have hparts : ∃ ns, (s.splitOn '.').mapM numeral? = some ns := by
    cases hns : (s.splitOn '.').mapM numeral? with
    | none =>
      unfold V4.ofAnyText at h
      rw [hns] at h
      cases h
    | some ns => exact ⟨ns, rfl⟩
  obtain ⟨ns, hns⟩ := hparts
  have hjoin : ['.'].intercalate (s.splitOn '.') = s := List.intercalate_splitOn '.'
  rw [← hjoin]
  exact forall_mem_intercalate (.inr (.inr (.inr rfl))) (forall_mem_of_mapM (fun _ _ => isNumberChar_of_numeral) hns)

end PudimNetMon.Ip
