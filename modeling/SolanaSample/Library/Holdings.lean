import Mathlib.Algebra.BigOperators.Group.Finset.Piecewise
import Mathlib.Algebra.Order.BigOperators.Group.Finset

/-! What finitely many holders hold together, while amounts move between them. -/
namespace Holdings

variable {K : Type*} {f : K → ℕ} {n m : ℕ}

/-- All but finitely many hold nothing, and together they hold `n`. -/
def Total (f : K → ℕ) (n : ℕ) : Prop := ∃ s : Finset K, (∀ k ∉ s, f k = 0) ∧ ∑ k ∈ s, f k = n

/-- The holders may be taken to include any others. -/
theorem Total.exists_superset [DecidableEq K] (h : Total f n) (t : Finset K) :
    ∃ s : Finset K, t ⊆ s ∧ (∀ k ∉ s, f k = 0) ∧ ∑ k ∈ s, f k = n := by
  obtain ⟨s, hzero, hsum⟩ := h
  refine ⟨t ∪ s, Finset.subset_union_left, ?_, ?_⟩
  · intro k hk
    exact hzero k fun hs => hk (Finset.mem_union_right t hs)
  · rw [← hsum]
    refine (Finset.sum_subset Finset.subset_union_right ?_).symm
    intro k _ hk
    exact hzero k hk

theorem total_zero : Total (fun _ : K => 0) 0 := ⟨∅, fun _ _ => rfl, rfl⟩

/-- Some of the holders together hold no more than there is. -/
theorem Total.sum_le (h : Total f n) (t : Finset K) : ∑ k ∈ t, f k ≤ n := by
  classical
  obtain ⟨s, hsub, -, hsum⟩ := h.exists_superset t
  rw [← hsum]
  exact Finset.sum_le_sum_of_subset hsub

theorem Total.le (h : Total f n) (k : K) : f k ≤ n := by
  have hle := h.sum_le {k}
  rwa [Finset.sum_singleton] at hle

theorem Total.add_le (h : Total f n) {k j : K} (hne : k ≠ j) : f k + f j ≤ n := by
  classical
  rw [← Finset.sum_pair hne]
  exact h.sum_le {k, j}

theorem Total.add_add_le (h : Total f n) {k j i : K} (hkj : k ≠ j) (hki : k ≠ i) (hji : j ≠ i) :
    f k + (f j + f i) ≤ n := by
  classical
  have hk : k ∉ ({j, i} : Finset K) := by simp [hkj, hki]
  rw [← Finset.sum_pair hji, ← Finset.sum_insert hk]
  exact h.sum_le {k, j, i}

/-- Giving one holder another amount changes the total by the difference. -/
theorem Total.update [DecidableEq K] (h : Total f n) {k : K} {v : ℕ} (hm : n + v = m + f k) :
    Total (Function.update f k v) m := by
  obtain ⟨s, hsub, hzero, hsum⟩ := h.exists_superset {k}
  have hk : k ∈ s := hsub (Finset.mem_singleton_self k)
  refine ⟨s, ?_, ?_⟩
  · intro j hj
    have hne : j ≠ k := fun he => hj (he ▸ hk)
    rw [Function.update_of_ne hne, hzero j hj]
  · have hrest := Finset.add_sum_erase s f hk
    rw [Finset.sum_update_of_mem hk, ← Finset.erase_eq]
    omega

/-- An amount moves from one holder to another. -/
theorem Total.move [DecidableEq K] (h : Total f n) {source recipient : K} {v : ℕ}
    (hne : source ≠ recipient) (hv : v ≤ f source) :
    Total (Function.update (Function.update f recipient (f recipient + v)) source (f source - v))
      n := by
  have hcredit : Total (Function.update f recipient (f recipient + v)) (n + v) :=
    h.update (by omega)
  apply hcredit.update
  rw [Function.update_of_ne hne]
  omega

end Holdings
