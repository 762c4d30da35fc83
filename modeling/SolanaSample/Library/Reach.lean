import SolanaSample.Library.Run
import Mathlib.Data.Set.Finite.Lattice
import Mathlib.Logic.Function.Basic

/-! What can be reached by events of one kind. A state that is a map can be reached exactly if it
differs in finitely many places, when each place can be changed without the others. -/
namespace EventRun

variable {σ ε : Type*} {step : σ → ε → σ} {Ok : ε → Prop}

/-- Some run of permitted events leads there. -/
def Reaches (step : σ → ε → σ) (Ok : ε → Prop) (s s' : σ) : Prop :=
  ∃ es : List ε, (∀ e ∈ es, Ok e) ∧ run step s es = s'

theorem Reaches.refl (s : σ) : Reaches step Ok s s :=
  ⟨[], fun _ he => absurd he List.not_mem_nil, rfl⟩

theorem Reaches.trans {s s' s'' : σ} (h : Reaches step Ok s s') (h' : Reaches step Ok s' s'') :
    Reaches step Ok s s'' := by
  obtain ⟨es, hes, rfl⟩ := h
  obtain ⟨fs, hfs, rfl⟩ := h'
  refine ⟨es ++ fs, ?_, run_append step s es fs⟩
  intro e he
  rcases List.mem_append.mp he with he | he
  · exact hes e he
  · exact hfs e he

theorem Reaches.of_step (s : σ) {e : ε} (he : Ok e) : Reaches step Ok s (step s e) :=
  ⟨[e], by simpa using he, rfl⟩

/-- A relation between the ends of each step is one between the ends of a run. -/
theorem Reaches.rel {R : σ → σ → Prop} (hrefl : ∀ s, R s s)
    (htrans : ∀ s s' s'', R s s' → R s' s'' → R s s'') (hstep : ∀ s e, Ok e → R s (step s e))
    {s s' : σ} (h : Reaches step Ok s s') : R s s' := by
  obtain ⟨es, hes, rfl⟩ := h
  induction es generalizing s with
  | nil => exact hrefl s
  | cons e es ih =>
    refine htrans s _ _ (hstep s e (hes e List.mem_cons_self)) (ih ?_)
    exact fun e' he' => hes e' (List.mem_cons_of_mem e he')

section places

variable {κ ν : Type*} {step : (κ → ν) → ε → κ → ν} {Legal : κ → ν → ν → Prop}

/-- Finitely many places have another value, and each may have got it. -/
structure FinitelyChanged (Legal : κ → ν → ν → Prop) (f g : κ → ν) : Prop where
  finite : {k | g k ≠ f k}.Finite
  legal : ∀ k, Legal k (f k) (g k)

theorem FinitelyChanged.refl (hrefl : ∀ k v, Legal k v v) (f : κ → ν) :
    FinitelyChanged Legal f f where
  finite := by simp
  legal := fun k => hrefl k (f k)

theorem FinitelyChanged.trans (htrans : ∀ k u v w, Legal k u v → Legal k v w → Legal k u w)
    {f g h : κ → ν} (hfg : FinitelyChanged Legal f g) (hgh : FinitelyChanged Legal g h) :
    FinitelyChanged Legal f h where
  finite := by
    apply (hfg.finite.union hgh.finite).subset
    intro k hk
    by_cases hg : g k = f k
    · right
      intro hh
      exact hk (hh.trans hg)
    · exact .inl hg
  legal := fun k => htrans k _ _ _ (hfg.legal k) (hgh.legal k)

variable [DecidableEq κ]

theorem FinitelyChanged.update (hrefl : ∀ k v, Legal k v v) (f : κ → ν) {k : κ} {v : ν}
    (h : Legal k (f k) v) : FinitelyChanged Legal f (Function.update f k v) where
  finite := by
    apply (Set.finite_singleton k).subset
    intro k' hk'
    by_contra hne
    exact hk' (Function.update_of_ne hne v f)
  legal := by
    intro k'
    by_cases hk : k' = k
    · subst hk
      rwa [Function.update_self]
    · rw [Function.update_of_ne hk]
      exact hrefl k' (f k')

/-- Place by place: the induction is on the places that are still to be changed. -/
theorem reaches_of_places
    (hplace : ∀ f k v, Legal k (f k) v → Reaches step Ok f (Function.update f k v))
    (places : Finset κ) {f g : κ → ν} (hsame : ∀ k, k ∉ places → g k = f k)
    (hlegal : ∀ k, Legal k (f k) (g k)) (hrefl : ∀ k v, Legal k v v) : Reaches step Ok f g := by
  induction places using Finset.induction_on generalizing f with
  | empty =>
    have hfg : g = f := funext fun k => hsame k (Finset.notMem_empty k)
    rw [hfg]
    exact .refl f
  | insert k places hk ih =>
    refine (hplace f k (g k) (hlegal k)).trans (ih ?_ ?_)
    · intro k' hk'
      by_cases he : k' = k
      · rw [he, Function.update_self]
      · rw [Function.update_of_ne he]
        apply hsame k'
        simp [he, hk']
    · intro k'
      by_cases he : k' = k
      · rw [he, Function.update_self]
        exact hrefl k (g k)
      · rw [Function.update_of_ne he]
        exact hlegal k'

/-- The exact rule. -/
theorem reaches_iff_finitelyChanged (hrefl : ∀ k v, Legal k v v)
    (htrans : ∀ k u v w, Legal k u v → Legal k v w → Legal k u w)
    (hstep : ∀ f e, Ok e → FinitelyChanged Legal f (step f e))
    (hplace : ∀ f k v, Legal k (f k) v → Reaches step Ok f (Function.update f k v))
    {f g : κ → ν} : Reaches step Ok f g ↔ FinitelyChanged Legal f g := by
  constructor
  · intro h
    exact h.rel (.refl hrefl) (fun _ _ _ => .trans htrans) hstep
  · intro h
    refine reaches_of_places hplace h.finite.toFinset ?_ h.legal hrefl
    intro k hk
    by_contra hne
    exact hk (h.finite.mem_toFinset.mpr hne)

end places
end EventRun
