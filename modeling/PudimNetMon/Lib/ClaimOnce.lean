import Mathlib.Data.List.Nodup
import Mathlib.Order.Basic

/-!
# Claims by compare-and-set

Rows carry an id and a value that many parties move on by compare-and-set. A claim is a pair of an id and the value it
was moved on from. `ClaimInv` says that no pair was claimed twice, since every claimed value is behind its row; it
survives whatever only moves rows forward (`ClaimInv.advance`, `ClaimInv.subset`, `ClaimInv.fresh`), and a claim that
moves the row past its value (`ClaimInv.claim`).
-/

namespace PudimNetMon

variable {α ι V : Type} [Preorder V] {id : α → ι} {value : α → V} {rows rows' : List α} {claimed : List (ι × V)}

/-- The claims are pairwise distinct, and every claimed value is behind the value of its row. -/
structure ClaimInv (id : α → ι) (value : α → V) (rows : List α) (claimed : List (ι × V)) : Prop where
  nodup : claimed.Nodup
  passed : ∀ c ∈ claimed, ∀ r ∈ rows, id r = c.1 → c.2 < value r

namespace ClaimInv

theorem start (rows : List α) : ClaimInv id value rows [] :=
  ⟨List.nodup_nil, fun _ h => absurd h List.not_mem_nil⟩

/-- Rows move forward. -/
theorem advance (h : ClaimInv id value rows claimed) {f : α → α}
    (hf : ∀ r ∈ rows, id (f r) = id r ∧ value r ≤ value (f r)) : ClaimInv id value (rows.map f) claimed := by
  refine ⟨h.nodup, fun c hc r' hr' hid => ?_⟩
  obtain ⟨r, hr, rfl⟩ := List.mem_map.1 hr'
  obtain ⟨hfid, hle⟩ := hf r hr
  exact lt_of_lt_of_le (h.passed c hc r hr (hfid.symm.trans hid)) hle

/-- Rows go away. -/
theorem subset (h : ClaimInv id value rows claimed) (hsub : rows' ⊆ rows) : ClaimInv id value rows' claimed :=
  ⟨h.nodup, fun c hc r hr => h.passed c hc r (hsub hr)⟩

/-- A row comes with an id that was never claimed. -/
theorem fresh (h : ClaimInv id value rows claimed) {r : α} (hr : ∀ c ∈ claimed, c.1 ≠ id r) :
    ClaimInv id value (rows ++ [r]) claimed := by
  refine ⟨h.nodup, fun c hc x hx hid => ?_⟩
  rcases List.mem_append.1 hx with hx | hx
  · exact h.passed c hc x hx hid
  · rw [List.mem_singleton.1 hx] at hid
    exact absurd hid.symm (hr c hc)

/-- **A claim.** The rows of the id leave the claimed value behind, the others move forward. -/
theorem claim (h : ClaimInv id value rows claimed) {i : ι} {v : V} {f : α → α}
    (hf : ∀ r ∈ rows, id (f r) = id r ∧ value r ≤ value (f r))
    (hat : ∃ r ∈ rows, id r = i ∧ value r = v) (hpast : ∀ r ∈ rows, id r = i → v < value (f r)) :
    ClaimInv id value (rows.map f) (claimed ++ [(i, v)]) := by
  obtain ⟨r₀, hr₀, hid₀, hv₀⟩ := hat
  have hmoved := h.advance hf
  refine ⟨?_, fun c hc r' hr' hid => ?_⟩
  · -- the pair is not behind its row, so it was not claimed before
    rw [List.nodup_append]
    refine ⟨h.nodup, List.nodup_singleton _, fun c hc d hd => ?_⟩
    rw [List.mem_singleton.1 hd]
    rintro rfl
    exact absurd (h.passed _ hc r₀ hr₀ hid₀) (by rw [hv₀]; exact lt_irrefl v)
  · rcases List.mem_append.1 hc with hc | hc
    · exact hmoved.passed c hc r' hr' hid
    · rw [List.mem_singleton.1 hc] at hid ⊢
      obtain ⟨r, hr, rfl⟩ := List.mem_map.1 hr'
      exact hpast r hr ((hf r hr).1.symm.trans hid)

end ClaimInv

end PudimNetMon
