import Mathlib.Data.List.Perm.Basic
import Mathlib.Tactic.SplitIfs

/-! Slots that are filled under a key, one value for each key: filling them twice, or in another
order, makes no difference. -/
namespace Slots

variable {κ ν : Type*} [DecidableEq κ] (value : κ → ν)

/-- Put the value of `key` into its first slot. -/
def fill (key : κ) : List (κ × Option ν) → List (κ × Option ν)
  | [] => []
  | slot :: rest =>
    if slot.1 = key then (slot.1, some (value key)) :: rest else slot :: fill key rest

/-- The first slot of `key` holds its value. -/
def Filled (key : κ) : List (κ × Option ν) → Prop
  | [] => False
  | slot :: rest => if slot.1 = key then slot.2 = some (value key) else Filled key rest

def fillAll (keys : List κ) (slots : List (κ × Option ν)) : List (κ × Option ν) :=
  keys.foldl (fun slots key => fill value key slots) slots

variable {value} {key key' : κ} {keys keys' : List κ} {slots : List (κ × Option ν)}

theorem fill_keys (key : κ) (slots : List (κ × Option ν)) :
    (fill value key slots).map Prod.fst = slots.map Prod.fst := by
  induction slots with
  | nil => rfl
  | cons slot rest ih =>
    rw [fill]
    split_ifs
    · rfl
    · rw [List.map_cons, List.map_cons, ih]

/-- What a slot holds after filling was there before or was put in. -/
theorem mem_fill {slot : κ × Option ν} (h : slot ∈ fill value key slots) :
    slot ∈ slots ∨ slot = (key, some (value key)) := by
  induction slots with
  | nil => exact .inl h
  | cons slot' rest ih =>
    rw [fill] at h
    split_ifs at h with hk
    · rcases List.mem_cons.mp h with rfl | hmem
      · exact .inr (by rw [hk])
      · exact .inl (List.mem_cons_of_mem _ hmem)
    · rcases List.mem_cons.mp h with rfl | hmem
      · exact .inl List.mem_cons_self
      · exact (ih hmem).imp_left (List.mem_cons_of_mem _)

theorem filled_fill (h : key ∈ slots.map Prod.fst) : Filled value key (fill value key slots) := by
  induction slots with
  | nil => cases h
  | cons slot rest ih =>
    rw [fill]
    split_ifs with hk
    · rw [Filled, if_pos hk]
    · rw [Filled, if_neg hk]
      rw [List.map_cons, List.mem_cons] at h
      rcases h with h | h
      · exact absurd h.symm hk
      · exact ih h

theorem filled_fill_of_ne (h : key ≠ key') :
    Filled value key (fill value key' slots) ↔ Filled value key slots := by
  induction slots with
  | nil => rfl
  | cons slot rest ih =>
    rw [fill]
    split_ifs with hk
    · have hne : slot.1 ≠ key := fun he => h (he.symm.trans hk)
      rw [Filled, if_neg hne, Filled, if_neg hne]
    · rw [Filled, Filled, ih]

theorem fill_of_filled (h : Filled value key slots) : fill value key slots = slots := by
  induction slots with
  | nil => rfl
  | cons slot rest ih =>
    rw [Filled] at h
    rw [fill]
    split_ifs at h ⊢ with hk
    · rw [← h]
    · rw [ih h]

theorem mem_keys_of_filled (h : Filled value key slots) : key ∈ slots.map Prod.fst := by
  induction slots with
  | nil => cases h
  | cons slot rest ih =>
    rw [Filled] at h
    rw [List.map_cons, List.mem_cons]
    split_ifs at h with hk
    · exact .inl hk.symm
    · exact .inr (ih h)

theorem fill_comm (key key' : κ) (slots : List (κ × Option ν)) :
    fill value key (fill value key' slots) = fill value key' (fill value key slots) := by
  by_cases hne : key = key'
  · rw [hne]
  · induction slots with
    | nil => rfl
    | cons slot rest ih =>
      by_cases hk : slot.1 = key
      · have hk' : slot.1 ≠ key' := fun he => hne (hk.symm.trans he)
        simp only [fill, hk, if_neg hne, ↓reduceIte]
      · by_cases hk' : slot.1 = key'
        · simp only [fill, hk', if_neg (Ne.symm hne), ↓reduceIte]
        · simp only [fill, hk, hk', ↓reduceIte, ih]

@[simp] theorem fillAll_nil (slots : List (κ × Option ν)) : fillAll value [] slots = slots := rfl

@[simp] theorem fillAll_cons (key : κ) (keys : List κ) (slots : List (κ × Option ν)) :
    fillAll value (key :: keys) slots = fillAll value keys (fill value key slots) := rfl

theorem fillAll_perm (h : keys.Perm keys') (slots : List (κ × Option ν)) :
    fillAll value keys slots = fillAll value keys' slots :=
  h.foldl_eq' (fun key _ key' _ slots => fill_comm key' key slots) slots

theorem fillAll_of_filled (h : ∀ key ∈ keys, Filled value key slots) :
    fillAll value keys slots = slots := by
  induction keys with
  | nil => rfl
  | cons key keys ih =>
    rw [fillAll_cons, fill_of_filled (h key List.mem_cons_self)]
    exact ih fun key' hk => h key' (List.mem_cons_of_mem key hk)

/-- What is filled stays filled. -/
theorem filled_fillAll_of_filled (h : Filled value key slots) :
    Filled value key (fillAll value keys slots) := by
  induction keys generalizing slots with
  | nil => exact h
  | cons key' keys ih =>
    rw [fillAll_cons]
    apply ih
    by_cases hk : key = key'
    · subst hk
      exact filled_fill (mem_keys_of_filled h)
    · exact (filled_fill_of_ne hk).mpr h

theorem filled_fillAll (hkey : key ∈ keys) (hslot : key ∈ slots.map Prod.fst) :
    Filled value key (fillAll value keys slots) := by
  induction keys generalizing slots with
  | nil => cases hkey
  | cons key' keys ih =>
    rw [fillAll_cons]
    rcases List.mem_cons.mp hkey with rfl | hmem
    · exact filled_fillAll_of_filled (filled_fill hslot)
    · exact ih hmem (by rwa [fill_keys])

end Slots
