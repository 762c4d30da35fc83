import Mathlib.Data.List.Basic

/-! Runs of a deterministic machine that is driven by a list of events. An event
may come from any party, so an interleaving of several parties is one list. -/
namespace EventRun

variable {σ ε : Type*} (step : σ → ε → σ)

def run (s : σ) (es : List ε) : σ := es.foldl step s

@[simp] theorem run_nil (s : σ) : run step s [] = s := rfl

@[simp] theorem run_cons (s : σ) (e : ε) (es : List ε) :
    run step s (e :: es) = run step (step s e) es := rfl

theorem run_append (s : σ) (es fs : List ε) :
    run step s (es ++ fs) = run step (run step s es) fs := List.foldl_append

/-- `P` holds in every state the run passes through, the first and the last included. -/
def EveryState (P : σ → Prop) : σ → List ε → Prop
  | s, [] => P s
  | s, e :: es => P s ∧ EveryState P (step s e) es

/-- `Ok` holds of every event of the run in the state just before it. -/
def EveryStep (Ok : σ → ε → Prop) : σ → List ε → Prop
  | _, [] => True
  | s, e :: es => Ok s e ∧ EveryStep Ok (step s e) es

instance decidableEveryStep {Ok : σ → ε → Prop} [∀ s e, Decidable (Ok s e)] :
    (s : σ) → (es : List ε) → Decidable (EveryStep step Ok s es)
  | _, [] => inferInstanceAs (Decidable True)
  | s, e :: es =>
    have : Decidable (EveryStep step Ok (step s e) es) := decidableEveryStep (step s e) es
    inferInstanceAs (Decidable (Ok s e ∧ EveryStep step Ok (step s e) es))

variable {step}

theorem EveryState.head {P : σ → Prop} {s : σ} {es : List ε}
    (h : EveryState step P s es) : P s := by
  cases es with
  | nil => exact h
  | cons e es => exact h.1

theorem EveryState.last {P : σ → Prop} {s : σ} {es : List ε}
    (h : EveryState step P s es) : P (run step s es) := by
  induction es generalizing s with
  | nil => exact h
  | cons e es ih => exact ih h.2

theorem EveryState.mono {P Q : σ → Prop} (hPQ : ∀ s, P s → Q s) {s : σ} {es : List ε}
    (h : EveryState step P s es) : EveryState step Q s es := by
  induction es generalizing s with
  | nil => exact hPQ s h
  | cons e es ih => exact ⟨hPQ s h.1, ih h.2⟩

theorem everyState_iff_splits {P : σ → Prop} {s : σ} {es : List ε} :
    EveryState step P s es ↔ ∀ pre post, es = pre ++ post → P (run step s pre) := by
  induction es generalizing s with
  | nil =>
    constructor
    · intro h pre post he
      obtain ⟨rfl, -⟩ := List.append_eq_nil_iff.mp he.symm
      exact h
    · intro h
      exact h [] [] rfl
  | cons e es ih =>
    constructor
    · rintro ⟨hs, hrest⟩ pre post he
      cases pre with
      | nil => exact hs
      | cons e' pre =>
        obtain ⟨rfl, htail⟩ := List.cons_eq_cons.mp he
        exact ih.mp hrest pre post htail
    · intro h
      refine ⟨h [] _ rfl, ih.mpr ?_⟩
      intro pre post he
      exact h (e :: pre) post (by rw [he, List.cons_append])

theorem everyStep_iff_splits {Ok : σ → ε → Prop} {s : σ} {es : List ε} :
    EveryStep step Ok s es ↔
      ∀ pre e post, es = pre ++ e :: post → Ok (run step s pre) e := by
  induction es generalizing s with
  | nil => simp [EveryStep]
  | cons e es ih =>
    constructor
    · rintro ⟨hs, hrest⟩ pre e' post he
      cases pre with
      | nil =>
        obtain ⟨rfl, -⟩ := List.cons_eq_cons.mp he
        exact hs
      | cons e₁ pre =>
        obtain ⟨rfl, htail⟩ := List.cons_eq_cons.mp he
        exact ih.mp hrest pre e' post htail
    · intro h
      refine ⟨h [] e es rfl, ih.mpr ?_⟩
      intro pre e' post he
      exact h (e :: pre) e' post (by rw [he, List.cons_append])

/-- The invariant rule: what every permitted event keeps holds in every state of
a run whose events are all permitted. -/
theorem everyState_of_step {Inv : σ → Prop} {Ok : σ → ε → Prop}
    (hstep : ∀ s e, Inv s → Ok s e → Inv (step s e)) {s : σ} {es : List ε}
    (hs : Inv s) (hes : EveryStep step Ok s es) : EveryState step Inv s es := by
  induction es generalizing s with
  | nil => exact hs
  | cons e es ih => exact ⟨hs, ih (hstep s e hs hes.1) hes.2⟩

/-- The simulation rule: what holds of each permitted event while the invariant holds, holds of
every step of a permitted run. -/
theorem everyStep_of_step {Inv : σ → Prop} {Ok R : σ → ε → Prop}
    (hstep : ∀ s e, Inv s → Ok s e → Inv (step s e) ∧ R s e) {s : σ} {es : List ε}
    (hs : Inv s) (hes : EveryStep step Ok s es) : EveryStep step R s es := by
  induction es generalizing s with
  | nil => trivial
  | cons e es ih =>
    obtain ⟨hkeep, hR⟩ := hstep s e hs hes.1
    exact ⟨hR, ih hkeep hes.2⟩

/-- A condition on the events alone. -/
theorem everyStep_of_forall {Ok : ε → Prop} {s : σ} {es : List ε} (h : ∀ e ∈ es, Ok e) :
    EveryStep step (fun _ e => Ok e) s es := by
  induction es generalizing s with
  | nil => trivial
  | cons e es ih =>
    exact ⟨h e List.mem_cons_self, ih fun e' he' => h e' (List.mem_cons_of_mem e he')⟩

/-- The variant rule: when every permitted event that counts lowers the rank, and no other
raises it, a permitted run lowers it by the number of its events that count. -/
theorem rank_run_le (rank : σ → ℕ) (counts : ε → Bool) {Inv : σ → Prop} {Ok : σ → ε → Prop}
    (hstep : ∀ s e, Inv s → Ok s e →
      Inv (step s e) ∧ rank (step s e) ≤ rank s - if counts e then 1 else 0)
    {s : σ} {es : List ε} (hs : Inv s) (hes : EveryStep step Ok s es) :
    rank (run step s es) ≤ rank s - es.countP counts := by
  induction es generalizing s with
  | nil => exact Nat.le_refl _
  | cons e es ih =>
    obtain ⟨hkeep, hrank⟩ := hstep s e hs hes.1
    have hrest := ih hkeep hes.2
    rw [run_cons, List.countP_cons]
    omega

/-- What the events of a run cost, each in the state it finds. -/
def runCost (step : σ → ε → σ) (cost : σ → ε → ℕ) : σ → List ε → ℕ
  | _, [] => 0
  | s, e :: es => cost s e + runCost step cost (step s e) es

/-- The potential rule: when every permitted event pays its cost out of the rank, the cost of a
permitted run is paid too. -/
theorem runCost_add_rank_le (rank : σ → ℕ) (cost : σ → ε → ℕ) {Inv : σ → Prop}
    {Ok : σ → ε → Prop}
    (hstep : ∀ s e, Inv s → Ok s e → Inv (step s e) ∧ cost s e + rank (step s e) ≤ rank s)
    {s : σ} {es : List ε} (hs : Inv s) (hes : EveryStep step Ok s es) :
    runCost step cost s es + rank (run step s es) ≤ rank s := by
  induction es generalizing s with
  | nil => exact Nat.le_of_eq (Nat.zero_add _)
  | cons e es ih =>
    obtain ⟨hkeep, hpaid⟩ := hstep s e hs hes.1
    have hrest := ih hkeep hes.2
    rw [run_cons, runCost]
    omega

/-- The rule without a condition on the events. -/
theorem everyState_of_all {Inv : σ → Prop} (hstep : ∀ s e, Inv s → Inv (step s e))
    {s : σ} (es : List ε) (hs : Inv s) : EveryState step Inv s es := by
  induction es generalizing s with
  | nil => exact hs
  | cons e es ih => exact ⟨hs, ih (hstep s e hs)⟩

/-- The exact rule: when an event breaks `P` exactly if it is not permitted, a run
keeps `P` throughout exactly if all its events are permitted. `Inv` is the stronger
fact that carries the induction as long as no event has gone wrong. -/
theorem everyState_iff_everyStep {P Inv : σ → Prop} {Ok : σ → ε → Prop}
    (hP : ∀ s, Inv s → P s) (hkeep : ∀ s e, Inv s → Ok s e → Inv (step s e))
    (hbreak : ∀ s e, Inv s → ¬ Ok s e → ¬ P (step s e)) {s : σ} {es : List ε}
    (hs : Inv s) : EveryState step P s es ↔ EveryStep step Ok s es := by
  constructor
  · intro h
    induction es generalizing s with
    | nil => trivial
    | cons e es ih =>
      have hok : Ok s e := by
        by_contra hn
        exact hbreak s e hs hn h.2.head
      exact ⟨hok, ih (hkeep s e hs hok) h.2⟩
  · intro h
    exact (everyState_of_step hkeep hs h).mono hP

end EventRun
