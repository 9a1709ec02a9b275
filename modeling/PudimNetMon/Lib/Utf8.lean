import Mathlib.Data.String.Basic

/-!
# UTF-8

Bytes are characters below 256, as in a binary string. `encode` is the encoder, `decode` the decoder that replaces what
is ill-formed by U+FFFD; text is read back (`decode_encode`).
-/

namespace PudimNetMon.Utf8

/-- A byte as a character. -/
def byteChar (n : Nat) : Char := Char.ofNat (n % 256)

def IsByte (c : Char) : Prop := c.toNat < 256

theorem toNat_byteChar (n : Nat) : (byteChar n).toNat = n % 256 := by
  have hlt : n % 256 < 256 := Nat.mod_lt n (by decide)
  have hvalid : (n % 256).isValidChar := .inl (by omega)
  unfold byteChar Char.ofNat
  rw [dif_pos hvalid]
  rfl

theorem isByte_byteChar (n : Nat) : IsByte (byteChar n) := by
  unfold IsByte
  rw [toNat_byteChar]
  exact Nat.mod_lt n (by decide)

theorem byteChar_toNat {c : Char} (h : IsByte c) : byteChar c.toNat = c := by
  unfold byteChar
  rw [Nat.mod_eq_of_lt h, Char.ofNat_toNat]

theorem byteChar_ofNat (n : Nat) : byteChar (UInt8.ofNat n).toNat = byteChar n := by
  unfold byteChar
  rw [UInt8.toNat_ofNat', Nat.mod_mod]

def encodeChar (c : Char) : List Char := (String.utf8EncodeChar c).map fun b => byteChar b.toNat

def encode (s : List Char) : List Char := s.flatMap encodeChar

theorem length_le_length_encode (s : List Char) : s.length ≤ (encode s).length := by
  unfold encode
  induction s with
  | nil => exact Nat.le_refl _
  | cons c s ih =>
    have hc : 0 < (encodeChar c).length := by
      unfold encodeChar
      rw [List.length_map, String.length_utf8EncodeChar]
      exact Char.utf8Size_pos c
    rw [List.flatMap_cons, List.length_append, List.length_cons]
    omega

/-- What is encoded is a binary string. -/
theorem isByte_of_mem_encode {s : List Char} {b : Char} (h : b ∈ encode s) : IsByte b := by
  obtain ⟨c, -, hb⟩ := List.mem_flatMap.1 h
  obtain ⟨n, -, rfl⟩ := List.mem_map.1 hb
  exact isByte_byteChar n.toNat

/-- No byte of a character beyond ASCII is an ASCII character. -/
theorem high_of_mem_encodeChar {c b : Char} (hc : 128 ≤ c.toNat) (hb : b ∈ encodeChar c) : 128 ≤ b.toNat := by
  have hcode : c.val.toNat = c.toNat := rfl
  unfold encodeChar String.utf8EncodeChar at hb
  dsimp only at hb
  rw [hcode, if_neg (by omega)] at hb
  split at hb
  · simp only [List.map_cons, List.map_nil, byteChar_ofNat, List.mem_cons, List.not_mem_nil, or_false] at hb
    rcases hb with rfl | rfl <;> rw [toNat_byteChar] <;> omega
  split at hb
  · simp only [List.map_cons, List.map_nil, byteChar_ofNat, List.mem_cons, List.not_mem_nil, or_false] at hb
    rcases hb with rfl | rfl | rfl <;> rw [toNat_byteChar] <;> omega
  · simp only [List.map_cons, List.map_nil, byteChar_ofNat, List.mem_cons, List.not_mem_nil, or_false] at hb
    rcases hb with rfl | rfl | rfl | rfl <;> rw [toNat_byteChar] <;> omega

theorem encodeChar_ascii {c : Char} (h : c.toNat < 128) : encodeChar c = [c] := by
  have hcode : c.val.toNat < 128 := h
  unfold encodeChar String.utf8EncodeChar
  dsimp only
  rw [if_pos (by omega), List.map_singleton, byteChar_ofNat]
  exact congrArg (fun c => [c]) (byteChar_toNat (Nat.lt_trans h (by decide)))

/-- A byte below 128 is a character of the text. -/
theorem mem_of_mem_encode {s : List Char} {b : Char} (h : b ∈ encode s) (hascii : b.toNat < 128) : b ∈ s := by
  obtain ⟨c, hc, hb⟩ := List.mem_flatMap.1 h
  rcases Nat.lt_or_ge c.toNat 128 with hlow | hhigh
  · rw [encodeChar_ascii hlow, List.mem_singleton] at hb
    rw [hb]
    exact hc
  · have hle := high_of_mem_encodeChar hhigh hb
    omega

/-! ## The decoder -/

def replacement : Char := Char.ofNat 0xfffd

/-- A character in progress: how many bytes are to come, its bits so far, and the bounds of the next byte. -/
structure Pending where
  needed : Nat := 0
  code : Nat := 0
  lower : Nat := 0x80
  upper : Nat := 0xbf

/-- The first byte of a character. -/
def start (b : Nat) : List Char × Pending :=
  if b ≤ 0x7f then ([Char.ofNat b], {})
  else if 0xc2 ≤ b ∧ b ≤ 0xdf then ([], { needed := 1, code := b - 0xc0 })
  else if 0xe0 ≤ b ∧ b ≤ 0xef then
    ([], { needed := 2, code := b - 0xe0, lower := if b = 0xe0 then 0xa0 else 0x80
           upper := if b = 0xed then 0x9f else 0xbf })
  else if 0xf0 ≤ b ∧ b ≤ 0xf4 then
    ([], { needed := 3, code := b - 0xf0, lower := if b = 0xf0 then 0x90 else 0x80
           upper := if b = 0xf4 then 0x8f else 0xbf })
  else ([replacement], {})

def feed (p : Pending) (b : Nat) : List Char × Pending :=
  if p.needed = 0 then start b
  else if p.lower ≤ b ∧ b ≤ p.upper then
    let code := p.code * 64 + (b - 0x80)
    if p.needed = 1 then ([Char.ofNat code], {}) else ([], { needed := p.needed - 1, code })
  else (replacement :: (start b).1, (start b).2)

def decodeFrom (p : Pending) : List Char → List Char
  | [] => if p.needed = 0 then [] else [replacement]
  | b :: bs => (feed p b.toNat).1 ++ decodeFrom (feed p b.toNat).2 bs

def decode (bytes : List Char) : List Char := decodeFrom {} bytes

/-! ## The round trip -/

/-- A first byte puts a character in progress. -/
theorem decodeFrom_start {b : Nat} {p : Pending} (hb : b < 256) (h : start b = ([], p)) (rest : List Char) :
    decodeFrom {} (byteChar b :: rest) = decodeFrom p rest := by
  rw [decodeFrom, toNat_byteChar, Nat.mod_eq_of_lt hb]
  unfold feed
  rw [if_pos rfl, h, List.nil_append]

variable {code lower upper b : Nat} (hlow : lower ≤ b) (hhigh : b ≤ upper) (hb : b < 256) (rest : List Char)

include hlow hhigh hb

theorem decodeFrom_more (n : Nat) : decodeFrom ⟨n + 2, code, lower, upper⟩ (byteChar b :: rest) =
    decodeFrom ⟨n + 1, code * 64 + (b - 0x80), 0x80, 0xbf⟩ rest := by
  rw [decodeFrom, toNat_byteChar, Nat.mod_eq_of_lt hb]
  unfold feed
  dsimp only
  rw [if_neg (by omega), if_pos ⟨hlow, hhigh⟩, if_neg (by omega)]
  rfl

/-- The last byte of a character ends it. -/
theorem decodeFrom_last : decodeFrom ⟨1, code, lower, upper⟩ (byteChar b :: rest) =
    Char.ofNat (code * 64 + (b - 0x80)) :: decodeFrom {} rest := by
  rw [decodeFrom, toNat_byteChar, Nat.mod_eq_of_lt hb]
  unfold feed
  dsimp only
  rw [if_neg (by decide), if_pos ⟨hlow, hhigh⟩, if_pos rfl]
  rfl

omit hlow hhigh hb

theorem decodeFrom_two {v : Nat} (hlow : 0x7f < v) (hhigh : v ≤ 0x7ff) :
    decodeFrom {} (byteChar (v / 64 + 0xc0) :: byteChar (v % 64 + 0x80) :: rest) =
      Char.ofNat v :: decodeFrom {} rest := by
  have hstart : start (v / 64 + 0xc0) = ([], ⟨1, v / 64, 0x80, 0xbf⟩) := by
    unfold start
    rw [if_neg (by omega), if_pos (by omega), Nat.add_sub_cancel]
  rw [decodeFrom_start (by omega) hstart, decodeFrom_last (by omega) (by omega) (by omega),
    show v / 64 * 64 + (v % 64 + 0x80 - 0x80) = v by omega]

theorem decodeFrom_three {v : Nat} (hlow : 0x7ff < v) (hhigh : v ≤ 0xffff) (hvalid : v < 0xd800 ∨ 0xdfff < v) :
    decodeFrom {} (byteChar (v / 4096 + 0xe0) :: byteChar (v / 64 % 64 + 0x80) :: byteChar (v % 64 + 0x80) :: rest) =
      Char.ofNat v :: decodeFrom {} rest := by
  have hstart : start (v / 4096 + 0xe0) = ([], ⟨2, v / 4096, if v / 4096 + 0xe0 = 0xe0 then 0xa0 else 0x80,
      if v / 4096 + 0xe0 = 0xed then 0x9f else 0xbf⟩) := by
    unfold start
    rw [if_neg (by omega), if_neg (by omega), if_pos (by omega), Nat.add_sub_cancel]
  rw [decodeFrom_start (by omega) hstart, decodeFrom_more (by split <;> omega) (by split <;> omega) (by omega),
    decodeFrom_last (by omega) (by omega) (by omega),
    show (v / 4096 * 64 + (v / 64 % 64 + 0x80 - 0x80)) * 64 + (v % 64 + 0x80 - 0x80) = v by omega]

theorem decodeFrom_four {v : Nat} (hlow : 0xffff < v) (hhigh : v < 0x110000) :
    decodeFrom {} (byteChar (v / 262144 + 0xf0) :: byteChar (v / 4096 % 64 + 0x80) ::
        byteChar (v / 64 % 64 + 0x80) :: byteChar (v % 64 + 0x80) :: rest) = Char.ofNat v :: decodeFrom {} rest := by
  have hstart : start (v / 262144 + 0xf0) = ([], ⟨3, v / 262144, if v / 262144 + 0xf0 = 0xf0 then 0x90 else 0x80,
      if v / 262144 + 0xf0 = 0xf4 then 0x8f else 0xbf⟩) := by
    unfold start
    rw [if_neg (by omega), if_neg (by omega), if_neg (by omega), if_pos (by omega), Nat.add_sub_cancel]
  rw [decodeFrom_start (by omega) hstart, decodeFrom_more (by split <;> omega) (by split <;> omega) (by omega),
    decodeFrom_more (by omega) (by omega) (by omega), decodeFrom_last (by omega) (by omega) (by omega),
    show ((v / 262144 * 64 + (v / 4096 % 64 + 0x80 - 0x80)) * 64 + (v / 64 % 64 + 0x80 - 0x80)) * 64 +
      (v % 64 + 0x80 - 0x80) = v by omega]

/-- A character is read back, whatever follows it. -/
theorem decodeFrom_encodeChar (c : Char) :
    decodeFrom {} (encodeChar c ++ rest) = c :: decodeFrom {} rest := by
  have hvalid : c.toNat < 0xd800 ∨ 0xdfff < c.toNat ∧ c.toNat < 0x110000 := c.valid
  have hcode : c.val.toNat = c.toNat := rfl
  have hc := Char.ofNat_toNat c
  unfold encodeChar String.utf8EncodeChar
  dsimp only
  rw [hcode]
  generalize c.toNat = v at hvalid hc
  -- one case for each length of the character
  split
  · rename_i h
    rw [List.map_singleton, byteChar_ofNat, List.singleton_append, decodeFrom, toNat_byteChar,
      Nat.mod_eq_of_lt (by omega)]
    unfold feed start
    rw [if_pos rfl, if_pos h, hc]
    rfl
  split
  · rename_i h1 h2
    simp only [List.map_cons, List.map_nil, byteChar_ofNat, List.cons_append, List.nil_append]
    rw [show v / 64 % 0x20 = v / 64 by omega, decodeFrom_two rest (by omega) h2, hc]
  split
  · rename_i h1 h2 h3
    simp only [List.map_cons, List.map_nil, byteChar_ofNat, List.cons_append, List.nil_append]
    rw [show v / 4096 % 0x10 = v / 4096 by omega, decodeFrom_three rest (by omega) h3 (by omega), hc]
  · rename_i h1 h2 h3
    simp only [List.map_cons, List.map_nil, byteChar_ofNat, List.cons_append, List.nil_append]
    rw [show v / 262144 % 0x08 = v / 262144 by omega, decodeFrom_four rest (by omega) (by omega), hc]

/-- **A text is read back.** -/
theorem decode_encode (s : List Char) : decode (encode s) = s := by
  unfold decode encode
  induction s with
  | nil => rfl
  | cons c s ih => rw [List.flatMap_cons, decodeFrom_encodeChar, ih]

/-- ASCII text is its own encoding. -/
theorem encode_ascii {s : List Char} (h : ∀ c ∈ s, c.toNat < 128) : encode s = s := by
  unfold encode
  induction s with
  | nil => rfl
  | cons c s ih =>
    rw [List.forall_mem_cons] at h
    rw [List.flatMap_cons, encodeChar_ascii h.1, ih h.2]
    rfl

theorem utf8ByteSize_ascii {s : List Char} (h : ∀ c ∈ s, c.toNat < 128) :
    (String.ofList s).utf8ByteSize = s.length := by
  induction s with
  | nil => rfl
  | cons c s ih =>
    rw [List.forall_mem_cons] at h
    have hsize : c.utf8Size = 1 := by
      rw [Char.utf8Size_eq_one_iff, UInt32.le_iff_toNat_le]
      exact Nat.le_of_lt_succ h.1
    rw [String.ofList_cons, String.utf8ByteSize_append, String.utf8ByteSize_singleton, hsize, ih h.2, List.length_cons,
      Nat.add_comm]

end PudimNetMon.Utf8
