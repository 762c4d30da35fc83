import Mathlib.Data.List.Basic

/-! Logs that grow at the end: properties of an entry that refer to the entries before it. -/
namespace AppendLog

variable {α : Type*}

/-- Every entry is allowed after the entries in front of it. -/
def EveryEntry (Ok : List α → α → Prop) (log : List α) : Prop :=
  ∀ pre x post, log = pre ++ x :: post → Ok pre x

variable {Ok : List α → α → Prop} {log : List α}

theorem everyEntry_nil : EveryEntry Ok [] := by
  intro pre x post h
  cases pre <;> cases h

theorem everyEntry_concat {x : α} :
    EveryEntry Ok (log ++ [x]) ↔ EveryEntry Ok log ∧ Ok log x := by
  constructor
  · intro h
    refine ⟨?_, h log x [] rfl⟩
    intro pre y post he
    exact h pre y (post ++ [x]) (by rw [he]; simp)
  · intro h pre y post he
    obtain ⟨hlog, hx⟩ := h
    rcases List.eq_nil_or_concat post with rfl | ⟨post', z, rfl⟩
    · obtain ⟨rfl, hz⟩ := List.append_inj' he rfl
      obtain ⟨rfl, -⟩ := List.cons_eq_cons.mp hz
      exact hx
    · rw [List.concat_eq_append, ← List.cons_append, ← List.append_assoc] at he
      exact hlog pre y post' (List.append_inj' he rfl).1

end AppendLog
