import Mathlib.Data.List.Nodup
import Mathlib.Data.List.Perm.Subperm

/-!
# Tables with a primary key

A table is a list of rows with pairwise distinct keys. `insert` is `INSERT ... ON CONFLICT DO NOTHING` of one row and
`insertAll` of several, one after the other; `modify` and `filter` are `UPDATE` and `DELETE`.

- a statement is idempotent (`insertAll_idem`), and of rows with distinct keys it appends those whose key is free
  (`insertAll_distinct`, `insertAll_fresh`);
- a statement that adds as many rows as one part of it has keys has no other keys (`keys_subset_of_length`).
-/

namespace PudimNetMon

variable {α κ : Type}

/-- Rows with pairwise distinct keys. -/
structure KeyedTable (key : α → κ) where
  rows : List α
  nodup : (rows.map key).Nodup

namespace KeyedTable

variable {key : α → κ}

def empty : KeyedTable key := ⟨[], List.nodup_nil⟩

def keys (t : KeyedTable key) : List κ := t.rows.map key

/-- `UPDATE` of columns outside the key. -/
def modify (t : KeyedTable key) (f : α → α) (hf : ∀ r, key (f r) = key r) : KeyedTable key :=
  ⟨t.rows.map f, by
    rw [List.map_map, show key ∘ f = key from funext hf]
    exact t.nodup⟩

/-- `DELETE` of the rows outside a condition. -/
def filter (t : KeyedTable key) (p : α → Bool) : KeyedTable key :=
  ⟨t.rows.filter p, t.nodup.sublist (List.filter_sublist.map key)⟩

@[ext] theorem ext {s t : KeyedTable key} (h : s.rows = t.rows) : s = t := by
  cases s; cases t; cases h; rfl

/-- A key has one row. -/
theorem eq_of_key (t : KeyedTable key) {r s : α} (hr : r ∈ t.rows) (hs : s ∈ t.rows) (h : key r = key s) : r = s :=
  List.inj_on_of_nodup_map t.nodup hr hs h

variable [DecidableEq κ]

/-- The row of a key. -/
theorem find?_eq_some_iff (t : KeyedTable key) {k : κ} {r : α} :
    t.rows.find? (fun r => key r = k) = some r ↔ r ∈ t.rows ∧ key r = k := by
  constructor
  · intro h
    exact ⟨List.mem_of_find?_eq_some h, by simpa using List.find?_some h⟩
  · rintro ⟨hr, rfl⟩
    cases h : t.rows.find? (fun s => key s = key r) with
    | none => exact absurd (List.find?_eq_none.1 h r hr) (by simp)
    | some s => rw [t.eq_of_key (List.mem_of_find?_eq_some h) hr (by simpa using List.find?_some h)]

/-- One row; a row whose key is taken is dropped. -/
def insert (t : KeyedTable key) (r : α) : KeyedTable key :=
  if h : key r ∈ t.rows.map key then t
  else ⟨t.rows ++ [r], by
    rw [List.map_append, List.nodup_append]
    refine ⟨t.nodup, List.nodup_singleton _, fun a ha b hb => ?_⟩
    rw [List.map_singleton, List.mem_singleton] at hb
    exact fun e => h (hb ▸ e ▸ ha)⟩

/-- The rows of one statement, in order. -/
def insertAll (t : KeyedTable key) (rs : List α) : KeyedTable key := rs.foldl insert t

@[simp] theorem insertAll_nil (t : KeyedTable key) : t.insertAll [] = t := rfl

@[simp] theorem insertAll_cons (t : KeyedTable key) (r : α) (rs : List α) :
    t.insertAll (r :: rs) = (t.insert r).insertAll rs := rfl

theorem insertAll_append (t : KeyedTable key) (rs ss : List α) :
    t.insertAll (rs ++ ss) = (t.insertAll rs).insertAll ss := List.foldl_append

theorem insert_taken {t : KeyedTable key} {r : α} (h : key r ∈ t.keys) : t.insert r = t := dif_pos h

theorem insert_free {t : KeyedTable key} {r : α} (h : key r ∉ t.keys) : (t.insert r).rows = t.rows ++ [r] := by
  have h' : key r ∉ t.rows.map key := h
  simp [insert, h']

theorem mem_keys_insert {t : KeyedTable key} {r : α} {k : κ} : k ∈ (t.insert r).keys ↔ k ∈ t.keys ∨ k = key r := by
  by_cases h : key r ∈ t.keys
  · rw [insert_taken h]
    refine ⟨.inl, ?_⟩
    rintro (hk | rfl)
    · exact hk
    · exact h
  · simp [keys, insert_free h]

/-- The row of a key behind an insert: a row that was there stays. -/
theorem find?_insert (t : KeyedTable key) (r : α) (k : κ) :
    (t.insert r).rows.find? (fun s => key s = k) =
      (t.rows.find? fun s => key s = k).or (if key r = k then some r else none) := by
  by_cases h : key r ∈ t.keys
  · rw [insert_taken h]
    cases hk : t.rows.find? fun s => key s = k with
    | some s => rfl
    | none =>
      rw [if_neg]
      · rfl
      · rintro rfl
        obtain ⟨s, hs, hkey⟩ := List.mem_map.1 h
        exact absurd (List.find?_eq_none.1 hk s hs) (by simp [hkey])
  · rw [insert_free h, List.find?_append]
    by_cases hk : key r = k <;> simp [hk]

/-- An update changes the row in place. -/
theorem find?_modify (t : KeyedTable key) (f : α → α) (hf : ∀ r, key (f r) = key r) (k : κ) :
    (t.modify f hf).rows.find? (fun s => key s = k) = (t.rows.find? fun s => key s = k).map f := by
  rw [modify, List.find?_map]
  simp only [Function.comp_def, hf]

/-- The row of a key behind the removal of another, or of its own. -/
theorem find?_remove (t : KeyedTable key) (k₀ k : κ) :
    (t.filter fun r => key r ≠ k₀).rows.find? (fun s => key s = k) =
      if k = k₀ then none else t.rows.find? fun s => key s = k := by
  rw [filter, List.find?_filter]
  by_cases hk : k = k₀
  · subst hk
    rw [if_pos rfl]
    exact List.find?_eq_none.2 fun s _ => by simp
  · rw [if_neg hk]
    congr 1
    funext s
    by_cases hs : key s = k <;> simp [hs, hk]

/-- After a statement the table has its old keys and those of the statement. -/
theorem mem_keys_insertAll {k : κ} : ∀ {t : KeyedTable key} {rs : List α},
    k ∈ (t.insertAll rs).keys ↔ k ∈ t.keys ∨ k ∈ rs.map key
  | t, [] => by simp
  | t, r :: rs => by
    rw [insertAll_cons, mem_keys_insertAll, mem_keys_insert, List.map_cons, List.mem_cons, or_assoc]

/-- A row of the table after a statement was in it or is one of the statement. -/
theorem mem_insertAll {r : α} : ∀ {t : KeyedTable key} {rs : List α}, r ∈ (t.insertAll rs).rows → r ∈ t.rows ∨ r ∈ rs
  | _, [], h => .inl h
  | t, s :: rs, h => by
    rw [insertAll_cons] at h
    rcases mem_insertAll h with h | h
    · by_cases hs : key s ∈ t.keys
      · rw [insert_taken hs] at h
        exact .inl h
      · rw [insert_free hs, List.mem_append, List.mem_singleton] at h
        rcases h with h | rfl
        · exact .inl h
        · exact .inr List.mem_cons_self
    · exact .inr (List.mem_cons_of_mem _ h)

/-- A row of a statement is in the table behind it, unless another one has its key. -/
theorem mem_insertAll_own {r : α} {t : KeyedTable key} {rs : List α} (hr : r ∈ rs) (hold : ∀ s ∈ t.rows, key s ≠ key r)
    (hown : ∀ s ∈ rs, key s = key r → s = r) : r ∈ (t.insertAll rs).rows := by
  have hkey : key r ∈ (t.insertAll rs).keys := mem_keys_insertAll.2 (.inr (List.mem_map_of_mem hr))
  obtain ⟨s, hs, hsr⟩ := List.mem_map.1 hkey
  rcases mem_insertAll hs with hs' | hs'
  · exact absurd hsr (hold s hs')
  · rwa [← hown s hs' hsr]

/-- A statement none of whose keys is free changes nothing. -/
theorem insertAll_taken : ∀ {t : KeyedTable key} {rs : List α}, (∀ r ∈ rs, key r ∈ t.keys) → t.insertAll rs = t
  | _, [], _ => rfl
  | t, r :: rs, h => by
    rw [insertAll_cons, insert_taken (h r List.mem_cons_self)]
    exact insertAll_taken fun x hx => h x (List.mem_cons_of_mem _ hx)

/-- Rows of the statement itself add nothing. -/
theorem insertAll_repeat {t : KeyedTable key} {rs ss : List α} (h : ss ⊆ rs) :
    t.insertAll (rs ++ ss) = t.insertAll rs := by
  rw [insertAll_append]
  exact insertAll_taken fun r hr => mem_keys_insertAll.2 (.inr (List.mem_map_of_mem (h hr)))

/-- **Idempotence.** -/
theorem insertAll_idem (t : KeyedTable key) (rs : List α) : (t.insertAll rs).insertAll rs = t.insertAll rs := by
  rw [← insertAll_append, insertAll_repeat (List.Subset.refl rs)]

/-- Rows with distinct keys: those whose key is free are appended, in order, and no other. -/
theorem insertAll_distinct : ∀ {t : KeyedTable key} {rs : List α}, (rs.map key).Nodup →
    (t.insertAll rs).rows = t.rows ++ rs.filter fun r => key r ∉ t.keys
  | t, [], _ => by simp
  | t, r :: rs, hn => by
    rw [List.map_cons, List.nodup_cons] at hn
    -- the key of `r` is no key of the other rows, so they see the same free keys before and after `r`
    have hrest : (rs.filter fun x => key x ∉ (t.insert r).keys) = rs.filter fun x => key x ∉ t.keys := by
      refine List.filter_congr fun x hx => ?_
      have hne : key x ≠ key r := fun e => hn.1 (e ▸ List.mem_map_of_mem hx)
      simp [mem_keys_insert, hne]
    rw [insertAll_cons, insertAll_distinct hn.2, hrest]
    by_cases h : key r ∈ t.keys
    · rw [insert_taken h, List.filter_cons_of_neg (by simpa using h)]
    · rw [insert_free h, List.filter_cons_of_pos (by simpa using h), List.append_assoc, List.singleton_append]

/-- Rows with distinct keys, none of them taken, are appended. -/
theorem insertAll_fresh {t : KeyedTable key} {rs : List α} (hn : (rs.map key).Nodup)
    (hf : ∀ r ∈ rs, key r ∉ t.keys) : (t.insertAll rs).rows = t.rows ++ rs := by
  rw [insertAll_distinct hn, List.filter_eq_self.2 fun r hr => by simpa using hf r hr]

/-- A statement only appends. -/
theorem insertAll_rows : ∀ (t : KeyedTable key) (rs : List α), ∃ added, (t.insertAll rs).rows = t.rows ++ added
  | t, [] => ⟨[], by simp⟩
  | t, r :: rs => by
    obtain ⟨added, ha⟩ := insertAll_rows (t.insert r) rs
    by_cases h : key r ∈ t.keys
    · exact ⟨added, by rw [insertAll_cons, ha, insert_taken h]⟩
    · exact ⟨r :: added, by rw [insertAll_cons, ha, insert_free h, List.append_assoc, List.singleton_append]⟩

/-- A statement on free keys that adds as many rows as it has distinct keys in one of its parts has no others. -/
theorem keys_subset_of_length {t : KeyedTable key} {rs ws : List α} (hn : (rs.map key).Nodup)
    (hsub : rs.map key ⊆ ws.map key) (hf : ∀ r ∈ ws, key r ∉ t.keys)
    (hlen : (t.insertAll ws).rows.length = t.rows.length + rs.length) : ws.map key ⊆ rs.map key := by
  obtain ⟨added, hadded⟩ := insertAll_rows t ws
  have hws : ws.map key ⊆ added.map key := by
    intro k hk
    have hin : k ∈ (t.insertAll ws).keys := mem_keys_insertAll.2 (.inr hk)
    simp only [keys, hadded, List.map_append, List.mem_append] at hin
    obtain ⟨r, hr, rfl⟩ := List.mem_map.1 hk
    exact hin.resolve_left (hf r hr)
  have hperm : (rs.map key).Perm (added.map key) := by
    refine (List.subperm_of_subset hn (List.Subset.trans hsub hws)).perm_of_length_le ?_
    have := congrArg List.length hadded
    rw [List.length_append] at this
    simp only [List.length_map]
    omega
  exact fun k hk => hperm.mem_iff.2 (hws hk)

end KeyedTable

end PudimNetMon
