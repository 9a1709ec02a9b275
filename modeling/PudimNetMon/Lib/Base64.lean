import PudimNetMon.Lib.Utf8

/-!
# Base64 (RFC 4648)

Three bytes are four numbers below 64 (`sextets`), and back (`octets`); a last group of one or two bytes is two or
three numbers. `btoa` and `atob` are the platform's functions on binary strings, the former with padding, the latter
forgiving; what is encoded is read back (`octets_sextets`, `atob_btoa`).
-/

namespace PudimNetMon.Base64

open Utf8 (byteChar IsByte)

def sextets : List Char → List Nat
  | a :: b :: c :: rest =>
    a.toNat / 4 :: (a.toNat % 4 * 16 + b.toNat / 16) :: (b.toNat % 16 * 4 + c.toNat / 64) :: c.toNat % 64 ::
      sextets rest
  | [a, b] => [a.toNat / 4, a.toNat % 4 * 16 + b.toNat / 16, b.toNat % 16 * 4]
  | [a] => [a.toNat / 4, a.toNat % 4 * 16]
  | [] => []

def octets : List Nat → List Char
  | p :: q :: r :: s :: rest =>
    byteChar (p * 4 + q / 16) :: byteChar (q % 16 * 16 + r / 4) :: byteChar (r % 4 * 64 + s) :: octets rest
  | [p, q, r] => [byteChar (p * 4 + q / 16), byteChar (q % 16 * 16 + r / 4)]
  | [p, q] => [byteChar (p * 4 + q / 16)]
  | _ => []

theorem byteChar_eq {c : Char} (h : IsByte c) {n : Nat} (hn : n = c.toNat) : byteChar n = c := by
  rw [hn, Utf8.byteChar_toNat h]

/-- **Bytes are read back.** -/
theorem octets_sextets {bytes : List Char} (h : ∀ c ∈ bytes, IsByte c) : octets (sextets bytes) = bytes := by
  induction bytes using sextets.induct with
  | case1 a b c rest ih =>
    rw [List.forall_mem_cons, List.forall_mem_cons, List.forall_mem_cons] at h
    obtain ⟨ha, hb, hc, hrest⟩ := h
    have hblt : b.toNat < 256 := hb
    have hclt : c.toNat < 256 := hc
    rw [sextets, octets, ih hrest, byteChar_eq ha (by omega), byteChar_eq hb (by omega), byteChar_eq hc (by omega)]
  | case2 a b =>
    rw [List.forall_mem_cons, List.forall_mem_cons] at h
    obtain ⟨ha, hb, -⟩ := h
    have hblt : b.toNat < 256 := hb
    rw [sextets, octets, byteChar_eq ha (by omega), byteChar_eq hb (by omega)]
  | case3 a => rw [sextets, octets, byteChar_eq (h a List.mem_cons_self) (by omega)]
  | case4 => rfl

theorem sextets_lt {bytes : List Char} (h : ∀ c ∈ bytes, IsByte c) : ∀ n ∈ sextets bytes, n < 64 := by
  induction bytes using sextets.induct with
  | case1 a b c rest ih =>
    simp only [List.forall_mem_cons, IsByte] at h
    rw [sextets]
    simp only [List.forall_mem_cons]
    exact ⟨by omega, by omega, by omega, by omega, ih h.2.2.2⟩
  | case2 a b =>
    simp only [List.forall_mem_cons, IsByte] at h
    rw [sextets]
    simp only [List.forall_mem_cons]
    exact ⟨by omega, by omega, by omega, nofun⟩
  | case3 a =>
    simp only [List.forall_mem_cons, IsByte] at h
    rw [sextets]
    simp only [List.forall_mem_cons]
    exact ⟨by omega, by omega, nofun⟩
  | case4 => exact nofun

theorem sextets_ne_nil (a : Char) (rest : List Char) : sextets (a :: rest) ≠ [] := by
  unfold sextets
  split <;> simp_all

/-- Three bytes are four digits, and a rest takes one more than it has bytes. -/
theorem length_sextets_eq (bytes : List Char) : (sextets bytes).length = (4 * bytes.length + 2) / 3 := by
  induction bytes using sextets.induct with
  | case1 a b c rest ih =>
    rw [sextets]
    simp only [List.length_cons]
    omega
  | case2 a b => simp [sextets]
  | case3 a => simp [sextets]
  | case4 => simp [sextets]

/-- No group is a single number. -/
theorem length_sextets (bytes : List Char) : (sextets bytes).length % 4 ≠ 1 := by
  rw [length_sextets_eq]
  omega

/-! ## The alphabets -/

/-- Letters and digits. -/
def letter (n : Nat) : Char :=
  if n < 26 then Char.ofNat (n + 65) else if n < 52 then Char.ofNat (n + 71) else Char.ofNat (n - 4)

def stdChar (n : Nat) : Char := if n < 62 then letter n else if n = 62 then '+' else '/'

/-- The alphabet of base64url. -/
def urlChar (n : Nat) : Char := if n < 62 then letter n else if n = 62 then '-' else '_'

def stdValue (c : Char) : Option Nat :=
  if c.isUpper then some (c.toNat - 65)
  else if c.isLower then some (c.toNat - 71)
  else if c.isDigit then some (c.toNat + 4)
  else if c = '+' then some 62
  else if c = '/' then some 63
  else none

theorem stdValue_stdChar : ∀ {n}, n < 64 → stdValue (stdChar n) = some n := by decide

theorem stdChar_ne_pad : ∀ {n}, n < 64 → stdChar n ≠ '=' := by decide

/-! ## `btoa` and `atob` -/

/-- Padding to a multiple of four. -/
def pad (s : List Char) : List Char := s ++ List.replicate ((4 - s.length % 4) % 4) '='

def btoa (bytes : List Char) : List Char := pad ((sextets bytes).map stdChar)

/-- ASCII white space. -/
def isBlank (c : Char) : Bool := c = ' ' || c = '\t' || c = '\n' || c.toNat = 12 || c = '\r'

/-- Up to two padding characters at the end are dropped. -/
def dropPad (s : List Char) : List Char :=
  match s.reverse with
  | '=' :: '=' :: r => r.reverse
  | '=' :: r => r.reverse
  | _ => s

def atob (s : List Char) : Option (List Char) :=
  let s := s.filter fun c => !isBlank c
  let s := if s.length % 4 = 0 then dropPad s else s
  if s.length % 4 = 1 then none else (s.mapM stdValue).map octets

theorem stdChar_not_blank : ∀ {n}, n < 64 → isBlank (stdChar n) = false := by decide

theorem dropPad_replicate {s : List Char} (h : '=' ∉ s) {k : Nat} (hk : k ≤ 2) :
    dropPad (s ++ List.replicate k '=') = s := by
  have hdrop : ∀ r : List Char, '=' ∉ r → dropPad r = r := by
    intro r hr
    unfold dropPad
    split
    · rename_i t ht
      exact absurd (List.mem_reverse.1 (ht ▸ List.mem_cons_self)) hr
    · rename_i t ht
      exact absurd (List.mem_reverse.1 (ht ▸ List.mem_cons_self)) hr
    · rfl
  obtain rfl | rfl | rfl : k = 0 ∨ k = 1 ∨ k = 2 := by omega
  · rw [List.replicate_zero, List.append_nil, hdrop s h]
  · have hreverse : (s ++ List.replicate 1 '=').reverse = '=' :: s.reverse := by simp
    unfold dropPad
    rw [hreverse]
    split
    · rename_i t ht
      rw [List.cons.injEq] at ht
      exact absurd (List.mem_reverse.1 (ht.2 ▸ List.mem_cons_self)) h
    · rename_i t _ ht
      rw [List.cons.injEq] at ht
      rw [← ht.2, List.reverse_reverse]
    · rename_i _ hne
      exact absurd rfl (hne s.reverse)
  · simp [dropPad]

theorem mapM_stdValue {ns : List Nat} (h : ∀ n ∈ ns, n < 64) : (ns.map stdChar).mapM stdValue = some ns := by
  induction ns with
  | nil => rfl
  | cons n ns ih =>
    rw [List.forall_mem_cons] at h
    rw [List.map_cons, List.mapM_cons, stdValue_stdChar h.1, ih h.2]
    rfl

/-- **`atob` undoes `btoa`.** -/
theorem atob_btoa {bytes : List Char} (h : ∀ c ∈ bytes, IsByte c) : atob (btoa bytes) = some bytes := by
  have hlt := sextets_lt h
  have hgroup := length_sextets bytes
  have hread := mapM_stdValue hlt
  have hpad : '=' ∉ (sextets bytes).map stdChar := by
    intro hmem
    obtain ⟨n, hn, heq⟩ := List.mem_map.1 hmem
    exact stdChar_ne_pad (hlt n hn) heq
  have hblank : ∀ c ∈ btoa bytes, (!isBlank c) = true := by
    intro c hc
    rcases List.mem_append.1 hc with hc | hc
    · obtain ⟨n, hn, rfl⟩ := List.mem_map.1 hc
      simp [stdChar_not_blank (hlt n hn)]
    · rw [List.eq_of_mem_replicate hc]
      rfl
  have hlength : ((sextets bytes).map stdChar).length = (sextets bytes).length := List.length_map _
  have htotal : (btoa bytes).length % 4 = 0 := by
    unfold btoa pad
    rw [List.length_append, List.length_replicate, hlength]
    omega
  unfold atob
  rw [List.filter_eq_self.2 hblank]
  dsimp only
  rw [if_pos htotal, btoa, pad, dropPad_replicate hpad (by omega), hread, hlength, if_neg hgroup, Option.map_some,
    octets_sextets h]

/-! ## base64url -/

/-- The text without the padding at its end. -/
def stripPad (s : List Char) : List Char := (s.reverse.dropWhile (· = '=')).reverse

def toUrl (c : Char) : Char := if c = '+' then '-' else if c = '/' then '_' else c

def ofUrl (c : Char) : Char := if c = '-' then '+' else if c = '_' then '/' else c

theorem toUrl_stdChar : ∀ {n}, n < 64 → toUrl (stdChar n) = urlChar n := by decide

theorem ofUrl_urlChar : ∀ {n}, n < 64 → ofUrl (urlChar n) = stdChar n := by decide

theorem stripPad_replicate {s : List Char} (h : '=' ∉ s) (k : Nat) : stripPad (s ++ List.replicate k '=') = s := by
  unfold stripPad
  rw [List.reverse_append, List.reverse_replicate, List.dropWhile_append_of_pos]
  · cases hs : s.reverse with
    | nil => simp [List.reverse_eq_nil_iff.1 hs]
    | cons c t =>
      have hc : c ≠ '=' := fun he => h (List.mem_reverse.1 (hs ▸ he ▸ List.mem_cons_self))
      rw [List.dropWhile_cons_of_neg (by simpa using hc), ← hs, List.reverse_reverse]
  · intro c hc
    simpa using List.eq_of_mem_replicate hc

/-- The alphabet is exchanged and the padding dropped. -/
theorem stripPad_toUrl {bytes : List Char} (h : ∀ c ∈ bytes, IsByte c) :
    stripPad ((btoa bytes).map toUrl) = (sextets bytes).map urlChar := by
  have hlt := sextets_lt h
  have hurl : (sextets bytes).map (toUrl ∘ stdChar) = (sextets bytes).map urlChar :=
    List.map_congr_left fun n hn => toUrl_stdChar (hlt n hn)
  have hpad : '=' ∉ (sextets bytes).map urlChar := by
    intro hmem
    obtain ⟨n, hn, heq⟩ := List.mem_map.1 hmem
    have hne : ∀ n < 64, urlChar n ≠ '=' := by decide
    exact hne n (hlt n hn) heq
  rw [btoa, pad, List.map_append, List.map_map, hurl, List.map_replicate]
  exact stripPad_replicate hpad _

/-- The alphabet is exchanged back and the padding restored. -/
theorem pad_ofUrl {bytes : List Char} (h : ∀ c ∈ bytes, IsByte c) :
    pad (((sextets bytes).map urlChar).map ofUrl) = btoa bytes := by
  have hstd : (sextets bytes).map (ofUrl ∘ urlChar) = (sextets bytes).map stdChar :=
    List.map_congr_left fun n hn => ofUrl_urlChar (sextets_lt h n hn)
  rw [List.map_map, hstd, btoa]

example : stripPad ((btoa "collector".toList).map toUrl) = "Y29sbGVjdG9y".toList := by decide

end PudimNetMon.Base64
