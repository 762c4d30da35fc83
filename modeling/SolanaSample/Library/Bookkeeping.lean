import Mathlib.Algebra.BigOperators.Finprod
import Mathlib.Data.Finsupp.BigOperators
import Mathlib.Algebra.BigOperators.Finsupp.Basic

/-! Books of account: every account holds an integer and all but finitely many hold
zero. An entry is a book too, and posting it is addition. -/
namespace Bookkeeping

variable {K : Type*}

/-- What all accounts of a book hold together. -/
noncomputable def supply (b : K →₀ ℤ) : ℤ := b.sum fun _ n => n

@[simp] theorem supply_zero : supply (0 : K →₀ ℤ) = 0 := Finsupp.sum_zero_index

@[simp] theorem supply_single (k : K) (n : ℤ) : supply (Finsupp.single k n) = n :=
  Finsupp.sum_single_index rfl

@[simp] theorem supply_add (b c : K →₀ ℤ) : supply (b + c) = supply b + supply c :=
  Finsupp.sum_add_index' (fun _ => rfl) (fun _ _ _ => rfl)

@[simp] theorem supply_neg (b : K →₀ ℤ) : supply (-b) = -supply b := by
  have h := supply_add b (-b)
  rw [add_neg_cancel, supply_zero] at h
  omega

@[simp] theorem supply_sub (b c : K →₀ ℤ) : supply (b - c) = supply b - supply c :=
  Finsupp.sum_sub_index fun _ _ _ => rfl

theorem list_sum_apply (entries : List (K →₀ ℤ)) (k : K) :
    entries.sum k = (entries.map fun b => b k).sum := by
  induction entries with
  | nil => rfl
  | cons b rest ih => rw [List.sum_cons, Finsupp.add_apply, ih, List.map_cons, List.sum_cons]

/-- The supply of a book is the sum over all accounts there are. -/
theorem finsum_eq_supply (b : K →₀ ℤ) : ∑ᶠ k, b k = supply b :=
  finsum_eq_sum_of_support_subset _ (by simp)

end Bookkeeping
