import Mathlib.Data.List.Basic
import Mathlib.Tactic.SplitIfs
import Mathlib.Tactic.Push

/-! Overwriting a slice of a list, and assembling a list from slices of it that arrive in
any order and any number of times. -/
namespace Splice

variable {α : Type*}

/-- Overwrite the entries from `off` on with `bytes`. -/
def splice (data : List α) (off : ℕ) (bytes : List α) : List α :=
  data.take off ++ bytes ++ data.drop (off + bytes.length)

theorem splice_length {data bytes : List α} {off : ℕ} (h : off + bytes.length ≤ data.length) :
    (splice data off bytes).length = data.length := by
  simp only [splice, List.length_append, List.length_take, List.length_drop]
  omega

theorem splice_getElem? {data bytes : List α} {off : ℕ} (h : off + bytes.length ≤ data.length)
    (k : ℕ) : (splice data off bytes)[k]? =
      if off ≤ k ∧ k < off + bytes.length then bytes[k - off]? else data[k]? := by
  have htake : (data.take off).length = off := List.length_take_of_le (by omega)
  unfold splice
  by_cases hlt : k < off
  · rw [List.append_assoc, List.getElem?_append_left (by omega), List.getElem?_take_of_lt hlt,
      if_neg (by omega)]
  · by_cases hin : k < off + bytes.length
    · rw [List.getElem?_append_left (by simp only [List.length_append]; omega),
        List.getElem?_append_right (by omega), htake, if_pos (by omega)]
    · rw [List.getElem?_append_right (by simp only [List.length_append]; omega),
        List.length_append, htake, List.getElem?_drop, if_neg (by omega)]
      congr 1
      omega

/-- The entries in front of the slice stay. -/
theorem splice_take {data bytes : List α} {off n : ℕ} (h : off + bytes.length ≤ data.length)
    (hn : n ≤ off) : (splice data off bytes).take n = data.take n := by
  have htake : (data.take off).length = off := List.length_take_of_le (by omega)
  unfold splice
  rw [List.append_assoc, List.take_append_of_le_length (by omega), List.take_take,
    Nat.min_eq_left hn]

/-- Behind a header of `n` entries a splice acts as a splice of what follows the header. -/
theorem splice_drop {data bytes : List α} {off n : ℕ}
    (h : n + off + bytes.length ≤ data.length) :
    (splice data (n + off) bytes).drop n = splice (data.drop n) off bytes := by
  have hn : n ≤ (data.take (n + off)).length := by
    rw [List.length_take]
    omega
  unfold splice
  rw [List.append_assoc, List.drop_append_of_le_length hn, List.drop_take, List.drop_drop,
    ← List.append_assoc, Nat.add_sub_cancel_left, ← Nat.add_assoc]

/-- A splice that reaches to the end leaves nothing else behind the header. -/
theorem splice_drop_end {data bytes : List α} {n : ℕ} (h : n + bytes.length = data.length) :
    (splice data n bytes).drop n = bytes := by
  have hdrop := @splice_drop _ data bytes 0 n (by omega)
  rw [Nat.add_zero] at hdrop
  rw [hdrop, splice, List.take_zero, List.nil_append, List.drop_drop,
    List.drop_eq_nil_of_le (by omega), List.append_nil]

/-- A slice and the place it belongs to. -/
structure Piece (α : Type*) where
  off : ℕ
  bytes : List α

namespace Piece

def covers (w : Piece α) (k : ℕ) : Prop := w.off ≤ k ∧ k < w.off + w.bytes.length

/-- The piece as it is written behind a header of `n` entries. -/
def behind (n : ℕ) (w : Piece α) : Piece α := ⟨n + w.off, w.bytes⟩

/-- The piece holds what `image` has at its place. -/
def IsSliceOf (w : Piece α) (image : List α) : Prop :=
  w.off + w.bytes.length ≤ image.length ∧ ∀ i < w.bytes.length, w.bytes[i]? = image[w.off + i]?

end Piece

theorem isSliceOf_slice (image : List α) {off len : ℕ} (h : off ≤ image.length) :
    Piece.IsSliceOf ⟨off, (image.drop off).take len⟩ image := by
  constructor
  · simp only [List.length_take, List.length_drop]
    omega
  · intro i hi
    simp only [List.length_take, List.length_drop, Nat.lt_min] at hi
    rw [List.getElem?_take_of_lt hi.1, List.getElem?_drop]

def spliceAll (data : List α) (ws : List (Piece α)) : List α :=
  ws.foldl (fun d w => splice d w.off w.bytes) data

@[simp] theorem spliceAll_nil (data : List α) : spliceAll data [] = data := rfl

@[simp] theorem spliceAll_cons (data : List α) (w : Piece α) (ws : List (Piece α)) :
    spliceAll data (w :: ws) = spliceAll (splice data w.off w.bytes) ws := rfl

theorem spliceAll_append (data : List α) (ws ws' : List (Piece α)) :
    spliceAll data (ws ++ ws') = spliceAll (spliceAll data ws) ws' := List.foldl_append

/-- Behind a header the pieces are put together as they are without it. -/
theorem spliceAll_behind_drop {data : List α} {ws : List (Piece α)} {n : ℕ}
    (h : ∀ w ∈ ws, n + w.off + w.bytes.length ≤ data.length) :
    (spliceAll data (ws.map (Piece.behind n))).drop n = spliceAll (data.drop n) ws := by
  induction ws generalizing data with
  | nil => rfl
  | cons w ws ih =>
    have hw := h w List.mem_cons_self
    have hlen := splice_length hw
    rw [List.map_cons, spliceAll_cons, spliceAll_cons, ← splice_drop hw]
    apply ih
    intro w' hw'
    rw [Piece.behind, hlen]
    exact h w' (List.mem_cons_of_mem w hw')

theorem spliceAll_behind_take {data : List α} {ws : List (Piece α)} {n : ℕ}
    (h : ∀ w ∈ ws, n + w.off + w.bytes.length ≤ data.length) :
    (spliceAll data (ws.map (Piece.behind n))).take n = data.take n := by
  induction ws generalizing data with
  | nil => rfl
  | cons w ws ih =>
    have hw := h w List.mem_cons_self
    have hlen := splice_length hw
    rw [List.map_cons, spliceAll_cons, ih, Piece.behind, splice_take hw (Nat.le_add_right _ _)]
    intro w' hw'
    rw [Piece.behind, hlen]
    exact h w' (List.mem_cons_of_mem w hw')

/-- Each entry comes from the image once a piece covers it, and is the old one until then. -/
theorem spliceAll_getElem? {image data : List α} {ws : List (Piece α)}
    (hws : ∀ w ∈ ws, w.IsSliceOf image) (hfit : image.length ≤ data.length) (k : ℕ) :
    ((∃ w ∈ ws, w.covers k) → (spliceAll data ws)[k]? = image[k]?) ∧
      ((∀ w ∈ ws, ¬ w.covers k) → (spliceAll data ws)[k]? = data[k]?) := by
  induction ws generalizing data with
  | nil => simp
  | cons w ws ih =>
    have hslice := hws w List.mem_cons_self
    have hbound : w.off + w.bytes.length ≤ data.length := Nat.le_trans hslice.1 hfit
    have hlen := splice_length hbound
    have hnow := splice_getElem? hbound k
    have hfit' : image.length ≤ (splice data w.off w.bytes).length := by omega
    obtain ⟨hlater, hnone⟩ := ih (fun w' hw' => hws w' (List.mem_cons_of_mem w hw')) hfit'
    rw [spliceAll_cons]
    constructor
    · intro h
      by_cases hcov : ∃ w' ∈ ws, w'.covers k
      · exact hlater hcov
      · -- No later piece covers `k`, so it is this one that wrote it.
        push Not at hcov
        obtain ⟨w', hw', hk⟩ := h
        obtain rfl : w' = w := by
          rcases List.mem_cons.mp hw' with he | hmem
          · exact he
          · exact absurd hk (hcov w' hmem)
        have hi := hslice.2 (k - w'.off) (by have := hk.1; have := hk.2; omega)
        rw [hnone hcov, hnow, if_pos ⟨hk.1, hk.2⟩, hi, Nat.add_sub_cancel' hk.1]
    · intro h
      have hw : ¬ w.covers k := h w List.mem_cons_self
      rw [hnone fun w' hw' => h w' (List.mem_cons_of_mem w hw'), hnow]
      exact if_neg hw

/-- Pieces that cover the image put it in front of whatever was there, in any order and
with any repetitions. -/
theorem spliceAll_eq_image {image data : List α} {ws : List (Piece α)}
    (hws : ∀ w ∈ ws, w.IsSliceOf image) (hfit : image.length ≤ data.length)
    (hcover : ∀ k < image.length, ∃ w ∈ ws, w.covers k) :
    spliceAll data ws = image ++ data.drop image.length := by
  apply List.ext_getElem?
  intro k
  obtain ⟨hin, hout⟩ := spliceAll_getElem? hws hfit k
  by_cases hk : k < image.length
  · rw [hin (hcover k hk), List.getElem?_append_left hk]
  · have hnone : ∀ w ∈ ws, ¬ w.covers k := by
      intro w hw hcov
      have hend := (hws w hw).1
      have hlt := hcov.2
      omega
    rw [hout hnone, List.getElem?_append_right (by omega), List.getElem?_drop,
      Nat.add_sub_cancel' (by omega)]

end Splice
