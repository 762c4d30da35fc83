import Mathlib.Data.List.Basic

/-! A variable that a loop overwrites: some items of a list write it and the others leave it, so
the last write is what it holds in the end. -/
namespace LastWrite

variable {α β : Type*} (write : α → Option β)

/-- An item writes the variable, or leaves it. -/
def overwrite (held : Option β) (x : α) : Option β := (write x).or held

/-- What the last item that writes has written. -/
def lastWrite (xs : List α) : Option β := (xs.filterMap write).getLast?

variable {write}

theorem foldl_overwrite (xs : List α) (held : Option β) :
    xs.foldl (overwrite write) held = (lastWrite write xs).or held := by
  induction xs generalizing held with
  | nil => rfl
  | cons x xs ih =>
    rw [List.foldl_cons, ih, overwrite, lastWrite, lastWrite]
    cases hx : write x with
    | none => rw [List.filterMap_cons_none hx, Option.none_or]
    | some b =>
      rw [List.filterMap_cons_some hx, List.getLast?_cons]
      cases (xs.filterMap write).getLast? <;> rfl

/-- A write that none of the later items replaces. -/
theorem lastWrite_append_cons {pre post : List α} {x : α} {b : β} (hx : write x = some b)
    (hpost : ∀ y ∈ post, write y = none) : lastWrite write (pre ++ x :: post) = some b := by
  have hnil : post.filterMap write = [] := List.filterMap_eq_nil_iff.mpr hpost
  rw [lastWrite, List.filterMap_append, List.filterMap_cons_some hx, hnil, List.getLast?_append]
  rfl

/-- An item that does not write can be left out. -/
theorem lastWrite_erase {pre post : List α} {x : α} (hx : write x = none) :
    lastWrite write (pre ++ x :: post) = lastWrite write (pre ++ post) := by
  rw [lastWrite, lastWrite, List.filterMap_append, List.filterMap_cons_none hx,
    List.filterMap_append]

theorem lastWrite_map {γ : Type*} (g : β → γ) (xs : List α) :
    lastWrite (fun x => (write x).map g) xs = (lastWrite write xs).map g := by
  rw [lastWrite, ← List.map_filterMap, List.getLast?_map, lastWrite]

end LastWrite
