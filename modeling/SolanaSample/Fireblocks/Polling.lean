import SolanaSample.Fireblocks.WaitForSignature
import SolanaSample.Library.Stream

/-! The polling loop on an endless stream of results: the first decisive poll decides it. -/
namespace SolanaSample.Fireblocks
open InitialSegment

variable {E : Type}

/-- The errors among the polls `1`, …, `k`. -/
def errorsSinceFirst (polls : ℕ → Except E TransactionResponse) (k : ℕ) : ℕ :=
  (initial (fun i => polls (i + 1)) k).countP isError

/-- The poll `k` is one that decides, and how. -/
inductive Decisive (polls : ℕ → Except E TransactionResponse) (k : ℕ) :
    Except (Failure E) TransactionResponse → Prop
  | firstError (e : E) (hk : k = 0) (he : polls k = .error e) : Decisive polls k (.error (.api e))
  | accepted (r : TransactionResponse) (hr : polls k = .ok r)
      (hs : r.status = .completed ∨ r.status = .broadcasting) : Decisive polls k (.ok r)
  | failed (r : TransactionResponse) (hr : polls k = .ok r)
      (hs : r.status = .blocked ∨ r.status = .cancelled ∨ r.status = .failed ∨
        r.status = .rejected) : Decisive polls k (.error (.message (failedMessage r)))
  | fourthError (e : E) (he : polls k = .error e) (hcount : errorsSinceFirst polls k = 4) :
      Decisive polls k (.error (.api e))

/-- No poll in front of `k` decides. -/
def Undecided (polls : ℕ → Except E TransactionResponse) (k : ℕ) : Prop :=
  ∀ j < k, ∀ result, ¬ Decisive polls j result

/-- The loop stops at the first decisive poll with what that poll decides, having made no poll
after it, and polls on as long as there is none. A response it returns is that of its last
poll. -/
structure DecidedByFirst (polls : ℕ → Except E TransactionResponse) : Prop where
  stops : ∀ k result, Decisive polls k result → Undecided polls k →
    ∀ n, k < n → waitForSignature (initial polls n) =
      some (result, (initial polls n).drop (k + 1))
  pollsOn : ∀ n, Undecided polls n → waitForSignature (initial polls n) = none
  fresh : ∀ n r post, waitForSignature (initial polls n) = some (.ok r, post) →
    ∃ k < n, polls k = .ok r ∧ post = (initial polls n).drop (k + 1)

theorem mem_acceptedStatuses {s : TransactionStatus} :
    s ∈ acceptedStatuses ↔ s = .completed ∨ s = .broadcasting := by simp [acceptedStatuses]

theorem mem_failedStatuses {s : TransactionStatus} :
    s ∈ failedStatuses ↔ s = .blocked ∨ s = .cancelled ∨ s = .failed ∨ s = .rejected := by
  simp [failedStatuses]

theorem checkStatus_eq_some {r : TransactionResponse}
    {result : Except (Failure E) TransactionResponse} :
    checkStatus E r = some result ↔
      (r.status ∈ acceptedStatuses ∧ result = .ok r) ∨
      (r.status ∈ failedStatuses ∧ result = .error (.message (failedMessage r))) := by
  unfold checkStatus
  split_ifs with ha hf
  · have hnf : r.status ∉ failedStatuses := by
      rw [mem_failedStatuses]
      rcases mem_acceptedStatuses.mp ha with h | h <;> simp [h]
    simp only [ha, hnf, true_and, false_and, or_false, Option.some.injEq, eq_comm]
  · simp only [ha, hf, true_and, false_and, false_or, Option.some.injEq, eq_comm]
  · simp only [ha, hf, false_and, or_false]

section
variable {n : ℕ} {pre : List (Except E TransactionResponse)} {p : Except E TransactionResponse}
  {result : Except (Failure E) TransactionResponse}

theorem settles_ok {r : TransactionResponse} :
    Settles pre (.ok r) result ↔ checkStatus E r = some result := by
  simp only [Settles, Decides, reduceCtorEq, false_and, exists_false, and_false, or_false]

theorem settles_error {e : E} : Settles pre (.error e) result ↔
    (pre = [] ∨ pre.countP isError = maxRetries) ∧ result = .error (.api e) := by
  simp only [Settles, Decides, Except.error.injEq, exists_eq_left']
  constructor
  · intro h
    rcases h with ⟨hc, he⟩ | ⟨hn, he⟩
    · exact ⟨.inr hc, he⟩
    · exact ⟨.inl hn, he⟩
  · intro h
    obtain ⟨hn | hc, he⟩ := h
    · exact .inr ⟨hn, he⟩
    · exact .inl ⟨hc, he⟩

theorem waits_concat_ok {r : TransactionResponse} :
    Waits n (pre ++ [.ok r]) ↔ Waits n pre ∧ checkStatus E r = none := by
  simp only [Waits, List.mem_append, List.mem_singleton, Except.ok.injEq, or_imp, forall_and,
    forall_eq, List.countP_append, countP_isError_ok, List.countP_nil, Nat.add_zero,
    and_right_comm]

theorem waits_concat_error {e : E} :
    Waits n (pre ++ [.error e]) ↔ Waits n pre ∧ pre.countP isError ≠ n := by
  simp only [Waits, List.mem_append, List.mem_singleton, reduceCtorEq, or_false,
    List.countP_append, countP_isError_error, List.countP_nil]
  constructor
  · intro h
    exact ⟨⟨h.1, by omega⟩, by omega⟩
  · intro h
    exact ⟨h.1.1, by omega⟩

theorem head_concat : (∀ e, (pre ++ [p]).head? ≠ some (.error e)) ↔
    (∀ e, pre.head? ≠ some (.error e)) ∧ (pre = [] → ∀ e, p ≠ .error e) := by
  cases pre <;> simp

/-- One more poll: the loop goes on unless that poll settles it. -/
theorem waiting_concat :
    Waiting (pre ++ [p]) ↔ Waiting pre ∧ ∀ result, ¬ Settles pre p result := by
  cases p with
  | ok r =>
    rw [Waiting, waits_concat_ok, head_concat, Waiting]
    simp only [settles_ok, ← Option.eq_none_iff_forall_ne_some, ne_eq, reduceCtorEq,
      not_false_eq_true, implies_true, and_true, and_right_comm]
  | error e =>
    rw [Waiting, waits_concat_error, head_concat, Waiting]
    simp only [settles_error, ne_eq, Except.error.injEq, forall_eq', not_and]
    constructor
    · intro h
      obtain ⟨⟨hw, hc⟩, hh, hne⟩ := h
      refine ⟨⟨hw, hh⟩, ?_⟩
      intro result hstop
      rcases hstop with hn | hn
      · exact (hne hn).elim
      · exact absurd hn hc
    · intro h
      obtain ⟨⟨hw, hh⟩, hne⟩ := h
      have hstop : ¬ (pre = [] ∨ pre.countP isError = maxRetries) := by
        intro hs
        exact hne _ hs rfl
      exact ⟨⟨hw, fun hc => hstop (.inr hc)⟩, hh, fun hn => absurd (.inl hn) hstop⟩

end

variable {polls : ℕ → Except E TransactionResponse}
  {result : Except (Failure E) TransactionResponse} {k : ℕ}

theorem decisive_ok {r : TransactionResponse} (h : polls k = .ok r) :
    Decisive polls k result ↔ checkStatus E r = some result := by
  rw [checkStatus_eq_some, mem_acceptedStatuses, mem_failedStatuses]
  constructor
  · intro hd
    cases hd with
    | firstError e _ he => rw [h] at he; cases he
    | accepted r' hr hs =>
      obtain rfl := Except.ok.inj (h.symm.trans hr)
      exact .inl ⟨hs, rfl⟩
    | failed r' hr hs =>
      obtain rfl := Except.ok.inj (h.symm.trans hr)
      exact .inr ⟨hs, rfl⟩
    | fourthError e he _ => rw [h] at he; cases he
  · intro hc
    rcases hc with ⟨hs, rfl⟩ | ⟨hs, rfl⟩
    · exact .accepted r h hs
    · exact .failed r h hs

theorem decisive_error {e : E} (h : polls k = .error e) : Decisive polls k result ↔
    (k = 0 ∨ errorsSinceFirst polls k = 4) ∧ result = .error (.api e) := by
  constructor
  · intro hd
    cases hd with
    | firstError e' hk he =>
      obtain rfl := Except.error.inj (h.symm.trans he)
      exact ⟨.inl hk, rfl⟩
    | accepted r hr _ => rw [h] at hr; cases hr
    | failed r hr _ => rw [h] at hr; cases hr
    | fourthError e' he hc =>
      obtain rfl := Except.error.inj (h.symm.trans he)
      exact ⟨.inr hc, rfl⟩
  · intro hd
    obtain ⟨hk | hc, rfl⟩ := hd
    · exact .firstError e hk h
    · exact .fourthError e h hc

/-- The first poll is no error when the loop goes on, so the errors since then are all. -/
theorem errorsSinceFirst_of_waiting {e : E} (hw : Waiting (initial polls k)) (hk : k ≠ 0)
    (h : polls k = .error e) :
    errorsSinceFirst polls k = (initial polls k).countP isError + 1 := by
  obtain ⟨m, rfl⟩ := Nat.exists_eq_succ_of_ne_zero hk
  cases h0 : polls 0 with
  | error e' => exact absurd (by rw [initial_succ_eq_cons, h0]; rfl) (hw.2 e')
  | ok r =>
    rw [initial_succ_eq_cons, h0, countP_isError_ok, errorsSinceFirst, initial_succ,
      List.countP_append, h, countP_isError_error, List.countP_nil]

theorem initial_eq_nil_iff : initial polls k = [] ↔ k = 0 := by
  rw [← List.length_eq_zero_iff, initial_length]

/-- The two notions of the deciding poll agree as long as the loop goes on. -/
theorem settles_iff_decisive (hw : Waiting (initial polls k)) :
    Settles (initial polls k) (polls k) result ↔ Decisive polls k result := by
  cases h : polls k with
  | ok r => rw [settles_ok, decisive_ok h]
  | error e =>
    rw [settles_error, decisive_error h, initial_eq_nil_iff]
    by_cases hk : k = 0
    · simp only [hk, true_or]
    · have hcount := errorsSinceFirst_of_waiting hw hk h
      have hmax : maxRetries = 3 := rfl
      simp only [hk, false_or, hcount, hmax, Nat.reduceEqDiff]

theorem waiting_iff_undecided (polls : ℕ → Except E TransactionResponse) (n : ℕ) :
    Waiting (initial polls n) ↔ Undecided polls n := by
  induction n with
  | zero => simp [Undecided, waiting_nil]
  | succ n ih =>
    rw [initial_succ, waiting_concat]
    constructor
    · intro h j hj
      rcases Nat.lt_succ_iff_lt_or_eq.mp hj with hlt | rfl
      · exact ih.mp h.1 j hlt
      · intro result hd
        exact h.2 result ((settles_iff_decisive h.1).mpr hd)
    · intro h
      have hw : Waiting (initial polls n) := ih.mpr fun j hj => h j (Nat.lt_succ_of_lt hj)
      refine ⟨hw, ?_⟩
      intro result hs
      exact h n (Nat.lt_succ_self n) result ((settles_iff_decisive hw).mp hs)

/-- What a run over the first `n` polls returns, in terms of the stream. -/
theorem waitForSignature_initial {n : ℕ} {post : List (Except E TransactionResponse)} :
    waitForSignature (initial polls n) = some (result, post) ↔
      ∃ k < n, Undecided polls k ∧ Decisive polls k result ∧
        post = (initial polls n).drop (k + 1) := by
  rw [waitForSignature_eq_some_iff]
  constructor
  · intro h
    obtain ⟨pre, p, he, hw, hs⟩ := h
    obtain ⟨hlt, hpre, rfl, hpost⟩ := eq_initial_of_split he
    generalize pre.length = k at *
    subst hpre
    exact ⟨k, hlt, (waiting_iff_undecided polls _).mp hw, (settles_iff_decisive hw).mp hs, hpost⟩
  · intro h
    obtain ⟨k, hlt, hu, hd, rfl⟩ := h
    have hw := (waiting_iff_undecided polls k).mpr hu
    exact ⟨_, _, initial_split polls hlt, hw, (settles_iff_decisive hw).mpr hd⟩

theorem decided_by_first (polls : ℕ → Except E TransactionResponse) : DecidedByFirst polls where
  stops k result hd hu n hn := waitForSignature_initial.mpr ⟨k, hn, hu, hd, rfl⟩
  pollsOn n hu := by
    rw [Option.eq_none_iff_forall_ne_some]
    rintro ⟨result, post⟩ h
    obtain ⟨k, hk, -, hd, -⟩ := waitForSignature_initial.mp h
    exact hu k hk result hd
  fresh n r post h := by
    obtain ⟨k, hk, -, hd, hpost⟩ := waitForSignature_initial.mp h
    cases hd with
    | accepted _ hr _ => exact ⟨k, hk, hr, hpost⟩

end SolanaSample.Fireblocks
