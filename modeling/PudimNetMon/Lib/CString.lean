/-!
# NUL-terminated strings

A string of C is its bytes up to the NUL. Reading past the NUL is undefined, so the functions are partial: they have a
result where they read the bytes and the NUL only. Pointers into a string are offsets, the one of the NUL among them.

- `CString.exists_read`, `CString.read_zero_iff`: which offsets can be read, and where the NUL is;
- `CString.strchr_spec`: where a byte is found.
-/

namespace PudimNetMon

structure CString where
  bytes : List UInt8
  noNul : 0 ∉ bytes
  deriving DecidableEq

namespace CString

def length (s : CString) : Nat := s.bytes.length

/-- `s[i]` -/
def read (s : CString) (i : Nat) : Option UInt8 := (s.bytes ++ [0])[i]?

/-- `strlen(s + i)` -/
def strlen (s : CString) (i : Nat) : Option Nat := if i ≤ s.length then some (s.length - i) else none

/-- `strchr(s + i, c)`: the offset of the first such byte, or none; the NUL is found, too. -/
def strchr (s : CString) (i : Nat) (c : UInt8) : Option (Option Nat) :=
  if i ≤ s.length then some (((s.bytes ++ [0]).drop i).findIdx? (· = c) |>.map (i + ·)) else none

/-- `strncmp(s, t + i, n) == 0` -/
def strncmpEq (s t : CString) (i n : Nat) : Option Bool :=
  if i ≤ t.length then some ((s.bytes ++ [0]).take n = ((t.bytes ++ [0]).drop i).take n) else none

section

variable {s t : CString} {i j n : Nat} {c : UInt8}

theorem read_eq_some_iff : s.read i = some c ↔ s.bytes[i]? = some c ∨ (i = s.length ∧ c = 0) := by
  unfold read length
  rw [List.getElem?_append]
  split
  · rename_i hlt
    have hne : i ≠ s.bytes.length := Nat.ne_of_lt hlt
    simp [hne]
  · rename_i hge
    have hnone : s.bytes[i]? = none := List.getElem?_eq_none (Nat.le_of_not_lt hge)
    rw [hnone, List.getElem?_singleton]
    by_cases heq : i = s.bytes.length
    · simp [heq, eq_comm]
    · have hpos : i - s.bytes.length ≠ 0 := by omega
      simp [heq, hpos]

theorem exists_read (h : i ≤ s.length) : ∃ c, s.read i = some c :=
  ⟨_, List.getElem?_eq_getElem (by rw [List.length_append]; exact Nat.lt_succ_of_le h)⟩

theorem le_of_read (h : s.read i = some c) : i ≤ s.length := by
  rcases read_eq_some_iff.1 h with hmem | ⟨heq, -⟩
  · obtain ⟨hlt, -⟩ := List.getElem?_eq_some_iff.1 hmem
    exact Nat.le_of_lt hlt
  · exact Nat.le_of_eq heq

/-- Only the end is NUL. -/
theorem read_zero_iff (h : s.read i = some c) : c = 0 ↔ i = s.length := by
  rcases read_eq_some_iff.1 h with hmem | ⟨heq, hc⟩
  · obtain ⟨hlt, -⟩ := List.getElem?_eq_some_iff.1 hmem
    refine iff_of_false (fun hc => ?_) (Nat.ne_of_lt hlt)
    rw [hc] at hmem
    exact s.noNul (List.mem_of_getElem? hmem)
  · exact iff_of_true hc heq

/-- A byte that is no NUL is in front of another one. -/
theorem lt_of_read (h : s.read i = some c) (hc : c ≠ 0) : i < s.length :=
  Nat.lt_of_le_of_ne (le_of_read h) (mt (read_zero_iff h).2 hc)

theorem strlen_eq (h : i ≤ s.length) : s.strlen i = some (s.length - i) := if_pos h

theorem exists_strncmpEq (h : i ≤ t.length) (s : CString) (n : Nat) : ∃ b, s.strncmpEq t i n = some b :=
  ⟨_, if_pos h⟩

theorem exists_strchr (h : i ≤ s.length) (c : UInt8) : ∃ r, s.strchr i c = some r := ⟨_, if_pos h⟩

/-- What is found is not in front of the pointer, and is the byte. -/
theorem strchr_spec (h : s.strchr i c = some (some j)) : i ≤ j ∧ s.read j = some c := by
  unfold strchr at h
  split at h
  · obtain ⟨k, hk, rfl⟩ := Option.map_eq_some_iff.1 (Option.some.inj h)
    obtain ⟨hlt, hfound, -⟩ := List.findIdx?_eq_some_iff_getElem.1 hk
    refine ⟨Nat.le_add_right i k, ?_⟩
    rw [List.getElem_drop, decide_eq_true_eq] at hfound
    rw [read, ← hfound]
    exact List.getElem?_eq_getElem _
  · cases h

end

end CString

end PudimNetMon
