import Mathlib.Logic.Basic

/-! Early returns in `Except`: the guard that returns an error, the lookup that must
succeed, and the rules that take a successful computation apart. -/
namespace Rejection

universe u v
variable {ε : Type u} {α β : Type v}

/-- Return the error `e` when `c` holds. -/
def reject (c : Prop) [Decidable c] (e : ε) : Except ε Unit := if c then .error e else .ok ()

/-- The value of an option, or the error `e` when there is none. -/
def demand (o : Option α) (e : ε) : Except ε α :=
  match o with
  | some a => .ok a
  | none => .error e

theorem bind_ok_iff (x : Except ε α) (f : α → Except ε β) (b : β) :
    x.bind f = .ok b ↔ ∃ a, x = .ok a ∧ f a = .ok b := by
  cases x <;> simp [Except.bind]

/-- The same for the `do` notation. -/
theorem do_ok_iff {x : Except ε α} {f : α → Except ε β} {b : β} :
    (do let a ← x; f a) = .ok b ↔ ∃ a, x = .ok a ∧ f a = .ok b := bind_ok_iff x f b

@[simp] theorem reject_eq_ok {c : Prop} [Decidable c] {e : ε} {u : Unit} :
    reject c e = .ok u ↔ ¬ c := by
  by_cases h : c <;> simp [reject, h]

@[simp] theorem demand_eq_ok {o : Option α} {e : ε} {a : α} :
    demand o e = .ok a ↔ o = some a := by
  cases o <;> simp [demand]

theorem do_error_iff {x : Except ε α} {f : α → Except ε β} {e : ε} :
    (do let a ← x; f a) = .error e ↔ x = .error e ∨ ∃ a, x = .ok a ∧ f a = .error e := by
  cases x <;> simp [bind, Except.bind]

theorem reject_eq_error {c : Prop} [Decidable c] {e e' : ε} :
    reject c e = .error e' ↔ c ∧ e = e' := by
  by_cases h : c <;> simp [reject, h]

theorem demand_eq_error {o : Option α} {e e' : ε} :
    demand o e = .error e' ↔ o = none ∧ e = e' := by
  cases o <;> simp [demand]

/-- Together with `do_ok_iff` this drops the unit that a passed guard returns. -/
theorem exists_unit {p : Unit → Prop} : (∃ u, p u) ↔ p () :=
  ⟨fun ⟨_, h⟩ => h, fun h => ⟨(), h⟩⟩

/-- A rejected request leaves the state it was made in. -/
def orStay (s : α) (r : Except ε α) : α :=
  match r with
  | .ok s' => s'
  | .error _ => s

@[simp] theorem orStay_ok (s s' : α) : orStay s (.ok s' : Except ε α) = s' := rfl

@[simp] theorem orStay_error (s : α) (e : ε) : orStay s (.error e) = s := rfl

end Rejection
