import Mathlib.Data.List.Basic

/-! The initial segments of an infinite sequence, and where they can be cut. -/
namespace InitialSegment

variable {α : Type*} (f : ℕ → α)

def initial (n : ℕ) : List α := (List.range n).map f

@[simp] theorem initial_zero : initial f 0 = [] := rfl

@[simp] theorem initial_length (n : ℕ) : (initial f n).length = n := by simp [initial]

theorem initial_succ (n : ℕ) : initial f (n + 1) = initial f n ++ [f n] := by
  rw [initial, List.range_succ, List.map_append, List.map_singleton, initial]

theorem initial_succ_eq_cons (n : ℕ) :
    initial f (n + 1) = f 0 :: initial (fun i => f (i + 1)) n := by
  rw [initial, List.range_succ_eq_map, List.map_cons, List.map_map]
  rfl

theorem initial_take {k n : ℕ} (h : k ≤ n) : (initial f n).take k = initial f k := by
  rw [initial, ← List.map_take, List.take_range, Nat.min_eq_left h, initial]

theorem initial_split {k n : ℕ} (h : k < n) :
    initial f n = initial f k ++ f k :: (initial f n).drop (k + 1) := by
  have hk : k < (initial f n).length := by rwa [initial_length]
  have hget : (initial f n)[k] = f k := by simp [initial]
  rw [← initial_take f (Nat.le_of_lt h), ← hget, ← List.drop_eq_getElem_cons hk,
    List.take_append_drop]

variable {f}

/-- Every cut of an initial segment is at a place of the sequence. -/
theorem eq_initial_of_split {n : ℕ} {pre post : List α} {x : α}
    (h : initial f n = pre ++ x :: post) :
    pre.length < n ∧ pre = initial f pre.length ∧ x = f pre.length ∧
      post = (initial f n).drop (pre.length + 1) := by
  have hlen := congrArg List.length h
  rw [initial_length, List.length_append, List.length_cons] at hlen
  have hlt : pre.length < n := by omega
  obtain ⟨hpre, hrest⟩ := List.append_inj (h.symm.trans (initial_split f hlt)) (by simp)
  obtain ⟨hx, hpost⟩ := List.cons_eq_cons.mp hrest
  exact ⟨hlt, hpre, hx, hpost⟩

end InitialSegment
