import SolanaSample.Fireblocks.Polling
import Mathlib.Data.Nat.Find
import Mathlib.Tactic.Tauto

/-! Whether the polling loop ends once the transaction has reached a final status, and whether
it ends as that status says. -/
namespace SolanaSample.Fireblocks
open InitialSegment

variable {E : Type}

/-- The final values of the SDK's `TransactionStatus`. -/
def finalStatuses : List TransactionStatus :=
  [.completed, .failed, .rejected, .blocked, .cancelled, .timeout]

/-- The transaction reaches the final status `f` and stays there: from some poll on, every
response says so. -/
def EventuallyFinal (polls : ℕ → Except E TransactionResponse) (f : TransactionStatus) : Prop :=
  f ∈ finalStatuses ∧ ∃ m, ∀ n ≥ m, ∀ r, polls n = .ok r → r.status = f

/-- The function terminates, and returns a response exactly for `COMPLETED`. -/
def EndsAs (polls : ℕ → Except E TransactionResponse) (f : TransactionStatus) : Prop :=
  ∃ n result post, waitForSignature (initial polls n) = some (result, post) ∧
    ((∃ r, result = .ok r) ↔ f = .completed)

/-- Something in the stream ends the loop: an error at the first poll, a response with a status
that the code tests for, or four errors. -/
def Stops (polls : ℕ → Except E TransactionResponse) : Prop :=
  (∃ e, polls 0 = .error e) ∨
  (∃ k r, polls k = .ok r ∧ (r.status ∈ acceptedStatuses ∨ r.status ∈ failedStatuses)) ∨
  ∃ k, 4 ≤ errorsSinceFirst polls k

/-- An accepted response that comes before any failed one and before a fourth error. -/
def AcceptedFirst (polls : ℕ → Except E TransactionResponse) : Prop :=
  (∀ e, polls 0 ≠ .error e) ∧
  ∃ k r, polls k = .ok r ∧ r.status ∈ acceptedStatuses ∧ errorsSinceFirst polls k ≤ 3 ∧
    ∀ j < k, ∀ r', polls j = .ok r' → r'.status ∉ failedStatuses

variable {polls : ℕ → Except E TransactionResponse}
  {result : Except (Failure E) TransactionResponse} {k : ℕ}

theorem errorsSinceFirst_succ_ok {r : TransactionResponse} (h : polls (k + 1) = .ok r) :
    errorsSinceFirst polls (k + 1) = errorsSinceFirst polls k := by
  rw [errorsSinceFirst, initial_succ, List.countP_append, h, countP_isError_ok, List.countP_nil,
    Nat.add_zero, errorsSinceFirst]

theorem errorsSinceFirst_succ_error {e : E} (h : polls (k + 1) = .error e) :
    errorsSinceFirst polls (k + 1) = errorsSinceFirst polls k + 1 := by
  rw [errorsSinceFirst, initial_succ, List.countP_append, h, countP_isError_error,
    List.countP_nil, errorsSinceFirst]

theorem errorsSinceFirst_mono (polls : ℕ → Except E TransactionResponse) {j k : ℕ} (h : j ≤ k) :
    errorsSinceFirst polls j ≤ errorsSinceFirst polls k := by
  induction k, h using Nat.le_induction with
  | base => exact le_rfl
  | succ k _ ih =>
    cases hk : polls (k + 1) with
    | ok r => rw [errorsSinceFirst_succ_ok hk]; exact ih
    | error e => rw [errorsSinceFirst_succ_error hk]; omega

/-- Where four errors are counted, one of them is the fourth. -/
theorem exists_fourth_error (h : 4 ≤ errorsSinceFirst polls k) :
    ∃ j ≤ k, ∃ e, polls j = .error e ∧ errorsSinceFirst polls j = 4 := by
  induction k with
  | zero => cases h
  | succ k ih =>
    cases he : polls (k + 1) with
    | ok r =>
      rw [errorsSinceFirst_succ_ok he] at h
      obtain ⟨j, hj, hfourth⟩ := ih h
      exact ⟨j, Nat.le_succ_of_le hj, hfourth⟩
    | error e =>
      have hstep := errorsSinceFirst_succ_error he
      by_cases hk : 4 ≤ errorsSinceFirst polls k
      · obtain ⟨j, hj, hfourth⟩ := ih hk
        exact ⟨j, Nat.le_succ_of_le hj, hfourth⟩
      · exact ⟨k + 1, le_rfl, e, he, by omega⟩

theorem stops_iff : Stops polls ↔ ∃ k result, Decisive polls k result := by
  constructor
  · intro h
    rcases h with ⟨e, he⟩ | ⟨k, r, hr, hs | hs⟩ | ⟨k, hk⟩
    · exact ⟨0, _, .firstError e rfl he⟩
    · exact ⟨k, _, .accepted r hr (mem_acceptedStatuses.mp hs)⟩
    · exact ⟨k, _, .failed r hr (mem_failedStatuses.mp hs)⟩
    · obtain ⟨j, -, e, he, hc⟩ := exists_fourth_error hk
      exact ⟨j, _, .fourthError e he hc⟩
  · intro h
    obtain ⟨k, result, hd⟩ := h
    cases hd with
    | firstError e hk he => exact .inl ⟨e, hk ▸ he⟩
    | accepted r hr hs => exact .inr (.inl ⟨k, r, hr, .inl (mem_acceptedStatuses.mpr hs)⟩)
    | failed r hr hs => exact .inr (.inl ⟨k, r, hr, .inr (mem_failedStatuses.mpr hs)⟩)
    | fourthError e _ hc => exact .inr (.inr ⟨k, Nat.le_of_eq hc.symm⟩)

theorem exists_first_decisive (h : ∃ k result, Decisive polls k result) :
    ∃ k result, Undecided polls k ∧ Decisive polls k result := by
  classical
  obtain ⟨result, hd⟩ := Nat.find_spec h
  refine ⟨Nat.find h, result, ?_, hd⟩
  intro j hj result' hd'
  exact Nat.find_min h hj ⟨result', hd'⟩

theorem first_decisive_unique {k' : ℕ} {result' : Except (Failure E) TransactionResponse}
    (hu : Undecided polls k) (hd : Decisive polls k result) (hu' : Undecided polls k')
    (hd' : Decisive polls k' result') : k = k' := by
  rcases Nat.lt_trichotomy k k' with h | h | h
  · exact absurd hd (hu' k h result)
  · exact h
  · exact absurd hd' (hu k' h result')

/-- In front of a response that the loop gets to there are at most three errors. -/
theorem errorsSinceFirst_le_of_undecided {r : TransactionResponse} (hu : Undecided polls k)
    (hr : polls k = .ok r) : errorsSinceFirst polls k ≤ 3 := by
  by_contra h
  obtain ⟨j, hj, e, he, hc⟩ := exists_fourth_error (Nat.not_le.mp h)
  have hne : j ≠ k := by
    intro hjk
    rw [hjk, hr] at he
    cases he
  exact hu j (Nat.lt_of_le_of_ne hj hne) _ (.fourthError e he hc)

/-- The loop gets to an accepted response exactly when nothing stops it before. -/
theorem acceptedFirst_iff : AcceptedFirst polls ↔
    ∃ k r, Undecided polls k ∧ polls k = .ok r ∧ r.status ∈ acceptedStatuses := by
  constructor
  · intro h
    obtain ⟨h0, k, r, hr, hs, hc, hf⟩ := h
    obtain ⟨i, result, hu, hd⟩ := exists_first_decisive
      ⟨k, _, .accepted r hr (mem_acceptedStatuses.mp hs)⟩
    have hik : i ≤ k := by
      by_contra hlt
      exact hu k (Nat.not_le.mp hlt) _ (.accepted r hr (mem_acceptedStatuses.mp hs))
    cases hd with
    | firstError e hi he => exact absurd (hi ▸ he) (h0 e)
    | accepted r' hr' hs' => exact ⟨i, r', hu, hr', mem_acceptedStatuses.mpr hs'⟩
    | failed r' hr' hs' =>
      rcases Nat.lt_or_eq_of_le hik with hlt | rfl
      · exact absurd (mem_failedStatuses.mpr hs') (hf i hlt r' hr')
      · exact ⟨i, r, hu, hr, hs⟩
    | fourthError e he hc' =>
      have hmono := errorsSinceFirst_mono polls hik
      omega
  · intro h
    obtain ⟨k, r, hu, hr, hs⟩ := h
    refine ⟨?_, k, r, hr, hs, errorsSinceFirst_le_of_undecided hu hr, ?_⟩
    · intro e he
      by_cases hk : k = 0
      · rw [hk, he] at hr
        cases hr
      · exact hu 0 (Nat.pos_of_ne_zero hk) _ (.firstError e rfl he)
    · intro j hj r' hr' hf
      exact hu j hj _ (.failed r' hr' (mem_failedStatuses.mp hf))

theorem first_result_ok_iff (hu : Undecided polls k) (hd : Decisive polls k result) :
    (∃ r, result = .ok r) ↔ AcceptedFirst polls := by
  rw [acceptedFirst_iff]
  constructor
  · intro h
    obtain ⟨r, rfl⟩ := h
    cases hd with
    | accepted _ hr hs => exact ⟨k, r, hu, hr, mem_acceptedStatuses.mpr hs⟩
  · intro h
    obtain ⟨k', r, hu', hr, hs⟩ := h
    have hd' : Decisive polls k' (.ok r) := .accepted r hr (mem_acceptedStatuses.mp hs)
    obtain rfl := first_decisive_unique hu hd hu' hd'
    rw [decisive_ok hr] at hd hd'
    exact ⟨r, Option.some.inj (hd.symm.trans hd')⟩

/-- Every final status but `TIMEOUT` is tested for, so a stream that stays with it stops. Should
it consist of errors instead, four of them stop it. -/
theorem stops_of_eventuallyFinal {f : TransactionStatus} (h : EventuallyFinal polls f)
    (hf : f ≠ .timeout) : Stops polls := by
  obtain ⟨hfinal, m, hm⟩ := h
  have htested : f ∈ acceptedStatuses ∨ f ∈ failedStatuses := by
    simp only [finalStatuses, List.mem_cons, List.not_mem_nil, or_false] at hfinal
    rw [mem_acceptedStatuses, mem_failedStatuses]
    tauto
  by_cases hok : ∃ n ≥ m, ∃ r, polls n = .ok r
  · obtain ⟨n, hn, r, hr⟩ := hok
    rw [← hm n hn r hr] at htested
    exact .inr (.inl ⟨n, r, hr, htested⟩)
  · have herror : ∀ n ≥ m, ∃ e, polls n = .error e := by
      intro n hn
      cases h : polls n with
      | ok r => exact absurd ⟨n, hn, r, h⟩ hok
      | error e => exact ⟨e, rfl⟩
    have hgrow : ∀ i, i ≤ errorsSinceFirst polls (m + i) := by
      intro i
      induction i with
      | zero => exact Nat.zero_le _
      | succ i ih =>
        obtain ⟨e, he⟩ := herror (m + i + 1) (by omega)
        have hstep := errorsSinceFirst_succ_error he
        have heq : m + (i + 1) = m + i + 1 := by omega
        rw [heq]
        omega
    exact .inr (.inr ⟨m + 4, hgrow 4⟩)

theorem terminates_iff : (∃ n, (waitForSignature (initial polls n)).isSome = true) ↔
    Stops polls := by
  rw [stops_iff]
  constructor
  · intro h
    obtain ⟨n, hn⟩ := h
    obtain ⟨⟨result, post⟩, hw⟩ := Option.isSome_iff_exists.mp hn
    obtain ⟨k, -, -, hd, -⟩ := waitForSignature_initial.mp hw
    exact ⟨k, result, hd⟩
  · intro h
    obtain ⟨k, result, hu, hd⟩ := exists_first_decisive h
    refine ⟨k + 1, ?_⟩
    rw [waitForSignature_initial.mpr ⟨k, Nat.lt_succ_self k, hu, hd, rfl⟩]
    rfl

/-- A final status ends the loop as it should exactly when an accepted response comes first for
`COMPLETED` alone, and a `TIMEOUT` is not all there is to stop it. -/
theorem ends_as_final_iff {f : TransactionStatus} (h : EventuallyFinal polls f) :
    EndsAs polls f ↔
      (f = .timeout → Stops polls) ∧ (AcceptedFirst polls ↔ f = .completed) := by
  constructor
  · intro hends
    obtain ⟨n, result, post, hw, hok⟩ := hends
    obtain ⟨k, -, hu, hd, -⟩ := waitForSignature_initial.mp hw
    rw [first_result_ok_iff hu hd] at hok
    exact ⟨fun _ => stops_iff.mpr ⟨k, result, hd⟩, hok⟩
  · intro hcond
    obtain ⟨htimeout, hok⟩ := hcond
    have hstops : Stops polls := by
      by_cases hf : f = .timeout
      · exact htimeout hf
      · exact stops_of_eventuallyFinal h hf
    obtain ⟨k, result, hu, hd⟩ := exists_first_decisive (stops_iff.mp hstops)
    rw [← first_result_ok_iff hu hd] at hok
    exact ⟨k + 1, result, _, waitForSignature_initial.mpr ⟨k, Nat.lt_succ_self k, hu, hd, rfl⟩,
      hok⟩

/-- A transaction that is submitted, cannot be polled once, and completes. -/
def completedStream : ℕ → Except String TransactionResponse
  | 0 => .ok ⟨"1", .other "SUBMITTED", "", none⟩
  | 1 => .error "service unavailable"
  | _ + 2 => .ok ⟨"1", .completed, "", some "signature"⟩

theorem ends_as_final_iff_completedStream :
    EndsAs completedStream .completed ↔
      (TransactionStatus.completed = .timeout → Stops completedStream) ∧
        (AcceptedFirst completedStream ↔ TransactionStatus.completed = .completed) := by
  apply ends_as_final_iff
  refine ⟨by decide, 2, ?_⟩
  intro n hn r hr
  obtain ⟨i, rfl⟩ := Nat.exists_eq_add_of_le' hn
  obtain rfl := Except.ok.inj hr
  rfl

/-- A transaction that times out. -/
def timeoutStream : ℕ → Except String TransactionResponse :=
  fun _ => .ok ⟨"1", .timeout, "", none⟩

theorem timeoutStream_hangs :
    EventuallyFinal timeoutStream .timeout ∧ ¬ EndsAs timeoutStream .timeout := by
  constructor
  · refine ⟨by decide, 0, ?_⟩
    intro n _ r hr
    obtain rfl := Except.ok.inj hr
    rfl
  · intro h
    obtain ⟨n, result, post, hw, -⟩ := h
    obtain ⟨k, -, -, hd, -⟩ := waitForSignature_initial.mp hw
    rw [decisive_ok (k := k) rfl] at hd
    cases hd

end SolanaSample.Fireblocks
