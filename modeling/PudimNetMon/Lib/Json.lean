import Mathlib.Data.String.Basic
import PudimNetMon.Lib.Double

/-!
# JSON values as `nlohmann::json` has them

Signed and unsigned integers are one constructor, an object's members are ordered by key. `valueOf` is `value(key,
default)` with its two type errors, `set` is the assignment `j[key] = v`. A `JsonLib` is the library's parser and
printer; `JsonLib.Lawful` is what its documentation says of them.
-/

namespace PudimNetMon

inductive Json
  | null
  | bool (b : Bool)
  | int (n : Int)
  | float (d : Double)
  | string (s : String)
  | array (items : List Json)
  | object (members : List (String × Json))

/-- What the library throws. -/
inductive JsonException
  | parseError (what : String)
  | typeError (id : Nat)
  | outOfRange (id : Nat)
  deriving DecidableEq, Repr

theorem bind_eq_ok {ε α β : Type} {x : Except ε α} {f : α → Except ε β} {b : β} :
    x >>= f = .ok b ↔ ∃ a, x = .ok a ∧ f a = .ok b := by
  cases x with
  | error e => exact ⟨nofun, fun ⟨_, h, _⟩ => nomatch h⟩
  | ok a => exact ⟨fun h => ⟨a, rfl, h⟩, fun ⟨_, h, h'⟩ => by cases h; exact h'⟩

namespace Json

/-! ## Equality -/

mutual

def beq : Json → Json → Bool
  | .null, .null => true
  | .bool a, .bool b => a == b
  | .int m, .int n => m == n
  | .float c, .float d => c == d
  | .string s, .string t => s == t
  | .array l, .array m => beqItems l m
  | .object l, .object m => beqMembers l m
  | _, _ => false

def beqItems : List Json → List Json → Bool
  | [], [] => true
  | a :: l, b :: m => a.beq b && beqItems l m
  | _, _ => false

def beqMembers : List (String × Json) → List (String × Json) → Bool
  | [], [] => true
  | (k, a) :: l, (k', b) :: m => k == k' && a.beq b && beqMembers l m
  | _, _ => false

end

mutual

theorem beq_refl : ∀ j : Json, j.beq j = true
  | .null => rfl
  | .bool b | .int b | .float b | .string b => by simp [beq]
  | .array l => by simpa [beq] using beqItems_refl l
  | .object l => by simpa [beq] using beqMembers_refl l

theorem beqItems_refl : ∀ l : List Json, beqItems l l = true
  | [] => rfl
  | j :: l => by simp [beqItems, beq_refl j, beqItems_refl l]

theorem beqMembers_refl : ∀ l : List (String × Json), beqMembers l l = true
  | [] => rfl
  | (k, j) :: l => by simp [beqMembers, beq_refl j, beqMembers_refl l]

end

mutual

theorem eq_of_beq : ∀ a b : Json, a.beq b = true → a = b
  | .null, b, h => by cases b <;> first | rfl | cases h
  | .bool x, b, h => by cases b <;> first | cases h | simpa [beq] using h
  | .int x, b, h => by cases b <;> first | cases h | simpa [beq] using h
  | .float x, b, h => by cases b <;> first | cases h | simpa [beq] using h
  | .string x, b, h => by cases b <;> first | cases h | simpa [beq] using h
  | .array l, b, h => by
    cases b with
    | array m => rw [eqItems_of_beq l m h]
    | _ => cases h
  | .object l, b, h => by
    cases b with
    | object m => rw [eqMembers_of_beq l m h]
    | _ => cases h

theorem eqItems_of_beq : ∀ l m : List Json, beqItems l m = true → l = m
  | [], [], _ => rfl
  | a :: l, b :: m, h => by
    rw [beqItems, Bool.and_eq_true] at h
    rw [eq_of_beq a b h.1, eqItems_of_beq l m h.2]

theorem eqMembers_of_beq : ∀ l m : List (String × Json), beqMembers l m = true → l = m
  | [], [], _ => rfl
  | (k, a) :: l, (k', b) :: m, h => by
    rw [beqMembers, Bool.and_eq_true, Bool.and_eq_true, beq_iff_eq] at h
    rw [h.1.1, eq_of_beq a b h.1.2, eqMembers_of_beq l m h.2]

end

instance : DecidableEq Json := fun a b =>
  decidable_of_iff (a.beq b = true) ⟨eq_of_beq a b, fun h => h ▸ beq_refl a⟩

/-! ## Reading members -/

def isObject : Json → Bool
  | .object _ => true
  | _ => false

/-- The member of an object. -/
def find? (j : Json) (key : String) : Option Json :=
  match j with
  | .object members => members.lookup key
  | _ => none

theorem isObject_of_find? {j v : Json} {key : String} (h : j.find? key = some v) : j.isObject = true := by
  cases j <;> first | rfl | cases h

/-- `get<std::string>()` -/
def getString : Json → Except JsonException String
  | .string s => .ok s
  | _ => .error (.typeError 302)

/-- `get<bool>()` -/
def getBool : Json → Except JsonException Bool
  | .bool b => .ok b
  | _ => .error (.typeError 302)

/-- `get<double>()` -/
def getDouble : Json → Except JsonException Double
  | .int n => .ok (.ofInt n)
  | .float d => .ok d
  | _ => .error (.typeError 302)

/-- `static_cast<int>` of a double; a value out of range becomes the smallest `int`. -/
def intOfDouble (d : Double) : Int :=
  if -2 ^ 31 ≤ d.trunc ∧ d.trunc < 2 ^ 31 then d.trunc else -2 ^ 31

/-- `get<int>()` -/
def getInt : Json → Except JsonException Int
  | .int n => .ok (n.bmod (2 ^ 32))
  | .float d => .ok (intOfDouble d)
  | .bool b => .ok (if b then 1 else 0)
  | _ => .error (.typeError 302)

/-- `value(key, default)` -/
def valueOf {α : Type} (get : Json → Except JsonException α) (j : Json) (key : String) (default : α) :
    Except JsonException α :=
  if j.isObject then
    match j.find? key with
    | some v => get v
    | none => .ok default
  else .error (.typeError 306)

/-- A member that is read is there, or is the default. -/
theorem valueOf_eq_ok {α : Type} {get : Json → Except JsonException α} {j : Json} {key : String} {default v : α}
    (h : j.valueOf get key default = .ok v) : v = default ∨ ∃ w, j.find? key = some w ∧ get w = .ok v := by
  unfold valueOf at h
  split at h
  · cases hw : j.find? key with
    | none =>
      rw [hw] at h
      exact .inl (Except.ok.inj h).symm
    | some w =>
      rw [hw] at h
      exact .inr ⟨w, rfl, h⟩
  · cases h

theorem valueOf_eq_ok_iff {α : Type} {get : Json → Except JsonException α} {j : Json} {key : String} {default v : α} :
    j.valueOf get key default = .ok v ↔
      j.isObject = true ∧ ((j.find? key = none ∧ v = default) ∨ ∃ w, j.find? key = some w ∧ get w = .ok v) := by
  unfold valueOf
  split
  · rename_i hobject
    cases hw : j.find? key with
    | none => simp [hobject, eq_comm]
    | some w => simp [hobject]
  · rename_i hobject
    simp [hobject]

/-- What holds of the value read holds of the default or of the member. -/
theorem valueOf_iff {α : Type} {get : Json → Except JsonException α} {j : Json} {key : String} {default v : α}
    (h : j.valueOf get key default = .ok v) (p : α → Prop) :
    p v ↔ (j.find? key = none ∧ p default) ∨ ∃ w u, j.find? key = some w ∧ get w = .ok u ∧ p u := by
  obtain ⟨-, ⟨hnone, rfl⟩ | ⟨w, hw, hget⟩⟩ := valueOf_eq_ok_iff.1 h
  · simp [hnone]
  · simp [hw, hget]

/-- Reading a member returns when the document is an object and the member, if it is there, has the type. -/
theorem valueOf_returns_iff {α : Type} {get : Json → Except JsonException α} {j : Json} {key : String} {default : α} :
    (∃ v, j.valueOf get key default = .ok v) ↔
      j.isObject = true ∧ ∀ w, j.find? key = some w → ∃ v, get w = .ok v := by
  unfold valueOf
  split
  · rename_i hobject
    cases hw : j.find? key with
    | none => simp [hobject]
    | some w => simp [hobject]
  · rename_i hobject
    simp [hobject]

/-! ### Kinds of members -/

def IsString (j : Json) : Prop := ∃ s, j = .string s

def IsBool (j : Json) : Prop := ∃ b, j = .bool b

def IsNumber (j : Json) : Prop := (∃ n, j = .int n) ∨ ∃ d, j = .float d

/-- The member, if it is there, is of the kind. -/
def MemberIs (kind : Json → Prop) (j : Json) (key : String) : Prop := ∀ v, j.find? key = some v → kind v

theorem getString_returns_iff {j : Json} : (∃ s, j.getString = .ok s) ↔ j.IsString := by
  cases j <;> simp [getString, IsString]

theorem getBool_returns_iff {j : Json} : (∃ b, j.getBool = .ok b) ↔ j.IsBool := by
  cases j <;> simp [getBool, IsBool]

theorem getDouble_returns_iff {j : Json} : (∃ d, j.getDouble = .ok d) ↔ j.IsNumber := by
  cases j <;> simp [getDouble, IsNumber]

/-- An integer is read from a number or a boolean. -/
theorem getInt_returns_iff {j : Json} : (∃ n, j.getInt = .ok n) ↔ j.IsNumber ∨ j.IsBool := by
  cases j <;> simp [getInt, IsNumber, IsBool]

@[simp] theorem getString_eq_ok {j : Json} {s : String} : j.getString = .ok s ↔ j = .string s := by
  cases j <;> simp [getString]

@[simp] theorem getBool_eq_ok {j : Json} {b : Bool} : j.getBool = .ok b ↔ j = .bool b := by
  cases j <;> simp [getBool]

/-! ## Writing members -/

def setMember (key : String) (v : Json) : List (String × Json) → List (String × Json)
  | [] => [(key, v)]
  | (k, w) :: members =>
    if key < k then (key, v) :: (k, w) :: members
    else if key = k then (key, v) :: members
    else (k, w) :: setMember key v members

/-- `j[key] = v`, for an object or null. -/
def set (j : Json) (key : String) (v : Json) : Json :=
  match j with
  | .object members => .object (setMember key v members)
  | _ => .object [(key, v)]

@[simp] theorem isObject_set (j : Json) (key : String) (v : Json) : (j.set key v).isObject = true := by
  cases j <;> rfl

/-- A member that is set is found, and the others are as before. -/
theorem lookup_setMember (key key' : String) (v : Json) (members : List (String × Json)) :
    (setMember key v members).lookup key' = if key' = key then some v else members.lookup key' := by
  induction members with
  | nil => by_cases h : key' = key <;> simp [setMember, h]
  | cons m members ih =>
    obtain ⟨k, w⟩ := m
    unfold setMember
    by_cases h : key' = key
    · subst h
      rw [if_pos rfl] at ih ⊢
      split
      · rw [List.lookup_cons_self]
      split
      · rw [List.lookup_cons_self]
      · rename_i hne
        rw [List.lookup_cons, beq_eq_false_iff_ne.2 hne, ih]
    · have hkey : (key' == key) = false := beq_eq_false_iff_ne.2 h
      rw [if_neg h] at ih ⊢
      split
      · rw [List.lookup_cons, hkey]
      split
      · rename_i heq
        rw [List.lookup_cons, List.lookup_cons, hkey, ← heq, hkey]
      · rw [List.lookup_cons, List.lookup_cons, ih]

@[simp] theorem find?_set (j : Json) (key key' : String) (v : Json) :
    (j.set key v).find? key' = if key' = key then some v else j.find? key' := by
  cases j with
  | object members => exact lookup_setMember key key' v members
  | _ => exact lookup_setMember key key' v []

@[simp] theorem find?_null (key : String) : Json.null.find? key = none := rfl

/-! ## Well-formed values -/

/-- What a text can name: integers of 64 bits, finite doubles, members ordered by key. -/
inductive WellFormed : Json → Prop
  | null : WellFormed .null
  | bool (b : Bool) : WellFormed (.bool b)
  | int (n : Int) : -2 ^ 63 ≤ n → n < 2 ^ 64 → WellFormed (.int n)
  | float (d : Double) : d.isFinite = true → WellFormed (.float d)
  | string (s : String) : WellFormed (.string s)
  | array (items : List Json) : (∀ j ∈ items, WellFormed j) → WellFormed (.array items)
  | object (members : List (String × Json)) : (members.map Prod.fst).Pairwise (· < ·) →
      (∀ m ∈ members, WellFormed m.2) → WellFormed (.object members)

/-- A member of a well-formed value is well formed. -/
theorem WellFormed.find? {j v : Json} {key : String} (h : j.WellFormed) (hv : j.find? key = some v) :
    v.WellFormed := by
  cases h with
  | object members _ hmembers =>
    obtain ⟨front, back, rfl, -⟩ := List.lookup_eq_some_iff.1 hv
    exact hmembers (key, v) (List.mem_append_right _ List.mem_cons_self)
  | _ => cases hv

/-- A double that is read is finite. -/
theorem WellFormed.getDouble {j : Json} {d : Double} (h : j.WellFormed) (hd : j.getDouble = .ok d) :
    d.isFinite = true := by
  cases h with
  | int n hlow hhigh =>
    cases hd
    exact Double.isFinite_ofInt (by omega)
  | float d hfinite =>
    cases hd
    exact hfinite
  | _ => cases hd

/-- An `int` that is read is one. -/
theorem getInt_bounds {j : Json} {n : Int} (h : j.getInt = .ok n) : -2 ^ 31 ≤ n ∧ n < 2 ^ 31 := by
  cases j with
  | int m =>
    cases h
    have hlow := @Int.le_bmod m (2 ^ 32) (by decide)
    have hhigh := @Int.bmod_lt m (2 ^ 32) (by decide)
    omega
  | float d =>
    cases h
    unfold intOfDouble
    split
    · assumption
    · decide
  | bool b =>
    cases h
    cases b <;> decide
  | _ => cases h

theorem mem_setMember {key : String} {v : Json} {members : List (String × Json)} {m : String × Json}
    (h : m ∈ setMember key v members) : m = (key, v) ∨ m ∈ members := by
  induction members with
  | nil => exact .inl (List.mem_singleton.1 h)
  | cons m' members ih =>
    obtain ⟨k, w⟩ := m'
    unfold setMember at h
    split at h
    · rcases List.mem_cons.1 h with h | h
      · exact .inl h
      · exact .inr h
    split at h
    · rcases List.mem_cons.1 h with h | h
      · exact .inl h
      · exact .inr (List.mem_cons_of_mem _ h)
    · rcases List.mem_cons.1 h with h | h
      · exact .inr (h ▸ List.mem_cons_self)
      · exact (ih h).imp_right (List.mem_cons_of_mem _)

theorem pairwise_setMember {key : String} {v : Json} {members : List (String × Json)}
    (h : (members.map Prod.fst).Pairwise (· < ·)) : ((setMember key v members).map Prod.fst).Pairwise (· < ·) := by
  induction members with
  | nil => exact List.pairwise_singleton ..
  | cons m members ih =>
    obtain ⟨k, w⟩ := m
    obtain ⟨hk, hrest⟩ := List.pairwise_cons.1 h
    unfold setMember
    split
    · rename_i hlt
      refine List.pairwise_cons.2 ⟨fun k' hk' => ?_, h⟩
      rcases List.mem_cons.1 hk' with rfl | hk'
      · exact hlt
      · exact String.lt_trans hlt (hk k' hk')
    split
    · rename_i heq
      exact List.pairwise_cons.2 ⟨heq ▸ hk, hrest⟩
    · rename_i hlt hne
      refine List.pairwise_cons.2 ⟨fun k' hk' => ?_, ih hrest⟩
      obtain ⟨m, hm, rfl⟩ := List.mem_map.1 hk'
      rcases mem_setMember hm with rfl | hm
      · exact lt_of_le_of_ne (not_lt.1 hlt) (Ne.symm hne)
      · exact hk m.1 (List.mem_map_of_mem hm)

/-- An assignment keeps an object well formed, and makes null one. -/
theorem WellFormed.set {j v : Json} (h : j.WellFormed) (hv : v.WellFormed) (key : String) :
    (j.set key v).WellFormed := by
  have hone : WellFormed (.object [(key, v)]) :=
    .object _ (List.pairwise_singleton ..) fun m hm => by rw [List.mem_singleton.1 hm]; exact hv
  cases h with
  | object members hkeys hmembers =>
    refine .object _ (pairwise_setMember hkeys) fun m hm => ?_
    rcases mem_setMember hm with rfl | hm
    · exact hv
    · exact hmembers m hm
  | _ => exact hone

end Json

/-- The parser and `dump(2)`. -/
structure JsonLib where
  parse : String → Except JsonException Json
  dump : Json → Except JsonException String

/-- `dump` throws for text that is not UTF-8 only. -/
def JsonLib.Prints (lib : JsonLib) : Prop := ∀ j, ∃ text, lib.dump j = .ok text

/-- Only well-formed values are parsed; the text printed for one, with a line break behind it, is parsed to it. -/
structure JsonLib.Lawful (lib : JsonLib) : Prop where
  parse_wellFormed : ∀ text j, lib.parse text = .ok j → j.WellFormed
  parse_dump : ∀ j text, j.WellFormed → lib.dump j = .ok text → lib.parse (text ++ "\n") = .ok j

end PudimNetMon
