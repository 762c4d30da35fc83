import Mathlib.Data.List.Basic
import Mathlib.Tactic.SplitIfs
import Mathlib.Tactic.Push

/-! Waiting for Fireblocks: the polling loop of `waitForSignature`, run on the list of results
that `getTransactionById` gives. -/
namespace SolanaSample.Fireblocks

/-- The statuses the code names, and the rest. -/
inductive TransactionStatus where
  | completed
  | broadcasting
  | blocked
  | cancelled
  | failed
  | rejected
  | timeout
  | other (name : String)
  deriving DecidableEq

def TransactionStatus.name : TransactionStatus → String
  | completed => "COMPLETED"
  | broadcasting => "BROADCASTING"
  | blocked => "BLOCKED"
  | cancelled => "CANCELLED"
  | failed => "FAILED"
  | rejected => "REJECTED"
  | timeout => "TIMEOUT"
  | other name => name

structure TransactionResponse where
  id : String
  status : TransactionStatus
  subStatus : String
  txHash : Option String
  deriving DecidableEq

def maxRetries : ℕ := 3

def failedStatuses : List TransactionStatus := [.blocked, .cancelled, .failed, .rejected]

/-- The statuses that end the loop. -/
def acceptedStatuses : List TransactionStatus := [.completed, .broadcasting]

/-- An exception: of the API, or made here. -/
inductive Failure (E : Type) where
  | api (e : E)
  | message (text : String)
  deriving DecidableEq

variable {E : Type}

def failedMessage (r : TransactionResponse) : String :=
  "Transaction " ++ r.id ++ " failed with status " ++ r.status.name ++ " (" ++ r.subStatus ++ ")"

/-- The two tests at the head of the loop. -/
def checkStatus (E : Type) (r : TransactionResponse) :
    Option (Except (Failure E) TransactionResponse) :=
  if r.status ∈ acceptedStatuses then some (.ok r)
  else if r.status ∈ failedStatuses then some (.error (.message (failedMessage r)))
  else none

/-- The loop, with the response it looks at and the errors so far. After an error it looks at
the same response again. The result comes with the polls that were not made; there is none as
long as the loop polls on. -/
def waitLoop (txResponse : TransactionResponse) (retries : ℕ) :
    List (Except E TransactionResponse) →
      Option (Except (Failure E) TransactionResponse × List (Except E TransactionResponse))
  | [] => (checkStatus E txResponse).map fun result => (result, [])
  | .error e :: polls =>
    match checkStatus E txResponse with
    | some result => some (result, .error e :: polls)
    | none =>
      if retries ≥ maxRetries then some (.error (.api e), polls)
      else waitLoop txResponse (retries + 1) polls
  | .ok next :: polls =>
    match checkStatus E txResponse with
    | some result => some (result, .ok next :: polls)
    | none => waitLoop next retries polls

def waitForSignature : List (Except E TransactionResponse) →
    Option (Except (Failure E) TransactionResponse × List (Except E TransactionResponse))
  | [] => none
  | .error e :: polls => some (.error (.api e), polls)
  | .ok txResponse :: polls => waitLoop txResponse 0 polls

def isError : Except E TransactionResponse → Bool
  | .ok _ => false
  | .error _ => true

/-- Polls after which the loop still polls, when `n` errors are tolerated: the responses leave
it open and there are no more errors than that. -/
def Waits (n : ℕ) (polls : List (Except E TransactionResponse)) : Prop :=
  (∀ r, .ok r ∈ polls → checkStatus E r = none) ∧ polls.countP isError ≤ n

/-- The poll that ends the loop after such polls: a response that the tests decide, or the
first error that is not tolerated. -/
def Decides (n : ℕ) (pre : List (Except E TransactionResponse)) :
    Except E TransactionResponse → Except (Failure E) TransactionResponse → Prop
  | .ok r, result => checkStatus E r = some result
  | .error e, result => pre.countP isError = n ∧ result = .error (.api e)

variable {r r' : TransactionResponse} {n : ℕ} {polls post : List (Except E TransactionResponse)}
  {result : Except (Failure E) TransactionResponse}

theorem waitLoop_of_decided (h : checkStatus E r = some result) :
    waitLoop r n polls = some (result, polls) := by
  cases polls with
  | nil => simp [waitLoop, h]
  | cons p polls => cases p <;> simp [waitLoop, h]

theorem waitLoop_error (h : checkStatus E r = none) (e : E) :
    waitLoop r n (.error e :: polls) =
      if n ≥ maxRetries then some (.error (.api e), polls) else waitLoop r (n + 1) polls := by
  simp [waitLoop, h]

theorem waitLoop_ok (h : checkStatus E r = none) :
    waitLoop r n (.ok r' :: polls) = waitLoop r' n polls := by
  simp [waitLoop, h]

@[simp] theorem countP_isError_ok :
    (.ok r :: polls : List (Except E TransactionResponse)).countP isError =
      polls.countP isError := List.countP_cons_of_neg (by simp [isError])

@[simp] theorem countP_isError_error (e : E) :
    (.error e :: polls : List (Except E TransactionResponse)).countP isError =
      polls.countP isError + 1 := List.countP_cons_of_pos rfl

theorem waits_nil : Waits n ([] : List (Except E TransactionResponse)) := by
  simp [Waits]

theorem waits_cons_ok :
    Waits n (.ok r :: polls) ↔ checkStatus E r = none ∧ Waits n polls := by
  simp [Waits, and_assoc]

theorem waits_cons_error (e : E) :
    Waits n (.error e :: polls) ↔ 0 < n ∧ Waits (n - 1) polls := by
  simp only [Waits, countP_isError_error, List.mem_cons, reduceCtorEq, false_or]
  constructor
  · intro h
    exact ⟨by omega, h.1, by omega⟩
  · intro h
    exact ⟨h.2.1, by omega⟩

theorem decides_nil_error (e : E) :
    Decides n [] (.error e : Except E TransactionResponse) result ↔
      n = 0 ∧ result = .error (.api e) := by
  simp [Decides, eq_comm]

theorem decides_cons_ok {p : Except E TransactionResponse} :
    Decides n (.ok r :: polls) p result ↔ Decides n polls p result := by
  cases p <;> simp [Decides]

theorem decides_cons_error (hn : 0 < n) (e : E) {p : Except E TransactionResponse} :
    Decides n (.error e :: polls) p result ↔ Decides (n - 1) polls p result := by
  cases p with
  | ok r => exact Iff.rfl
  | error e' =>
    have hcount : polls.countP isError + 1 = n ↔ polls.countP isError = n - 1 := by omega
    simp only [Decides, countP_isError_error, hcount]

/-- Where a list is cut: at its head or behind it. -/
theorem split_cons_iff {α : Type} {P : List α → α → Prop} {q : α} {l post : List α} :
    (∃ pre p, q :: l = pre ++ p :: post ∧ P pre p) ↔
      (l = post ∧ P [] q) ∨ ∃ pre p, l = pre ++ p :: post ∧ P (q :: pre) p := by
  constructor
  · intro h
    obtain ⟨pre, p, he, hP⟩ := h
    cases pre with
    | nil =>
      obtain ⟨rfl, rfl⟩ := List.cons_eq_cons.mp he
      exact .inl ⟨rfl, hP⟩
    | cons x pre =>
      obtain ⟨rfl, htail⟩ := List.cons_eq_cons.mp he
      exact .inr ⟨pre, p, htail, hP⟩
  · intro h
    rcases h with ⟨rfl, hP⟩ | ⟨pre, p, rfl, hP⟩
    · exact ⟨[], q, rfl, hP⟩
    · exact ⟨q :: pre, p, rfl, hP⟩

/-- The loop ends exactly at the first poll that decides it. -/
theorem waitLoop_eq_some_iff (hr : checkStatus E r = none) (hn : n ≤ maxRetries) :
    waitLoop r n polls = some (result, post) ↔
      ∃ pre p, polls = pre ++ p :: post ∧ Waits (maxRetries - n) pre ∧
        Decides (maxRetries - n) pre p result := by
  induction polls generalizing r n with
  | nil => simp [waitLoop, hr]
  | cons q polls ih =>
    rw [split_cons_iff]
    cases q with
    | error e =>
      rw [waitLoop_error hr]
      split_ifs with hmax
      · -- This is the error that is not tolerated.
        have hz : maxRetries - n = 0 := by omega
        simp only [hz, decides_nil_error, waits_cons_error, Nat.lt_irrefl, false_and, and_false,
          exists_false, or_false, true_and, Option.some.injEq, Prod.mk.injEq]
        constructor
        · intro h
          exact ⟨h.2, waits_nil, h.1.symm⟩
        · intro h
          exact ⟨h.2.2.symm, h.1⟩
      · have hpos : 0 < maxRetries - n := by omega
        have hne : maxRetries - n ≠ 0 := Nat.pos_iff_ne_zero.mp hpos
        have hsub : maxRetries - (n + 1) = maxRetries - n - 1 := by omega
        simp only [ih hr (show n + 1 ≤ maxRetries by omega), hsub, decides_nil_error, hne,
          false_and, and_false, false_or, waits_cons_error, hpos, true_and,
          decides_cons_error hpos]
    | ok r' =>
      rw [waitLoop_ok hr]
      simp only [waits_cons_ok, decides_cons_ok]
      cases hr' : checkStatus E r' with
      | some result' =>
        rw [waitLoop_of_decided hr']
        simp only [reduceCtorEq, false_and, and_false, exists_false, or_false, Decides, hr',
          Option.some.injEq, Prod.mk.injEq]
        constructor
        · intro h
          exact ⟨h.2, waits_nil, h.1⟩
        · intro h
          exact ⟨h.2.2, h.1⟩
      | none =>
        simp only [ih hr' hn, Decides, hr', reduceCtorEq, and_false, false_or, true_and]

/-- The same for the whole function, whose first poll is not retried. -/
def Waiting (polls : List (Except E TransactionResponse)) : Prop :=
  Waits maxRetries polls ∧ ∀ e, polls.head? ≠ some (.error e)

/-- The poll that ends the function after such polls: also an error at once. -/
def Settles (pre : List (Except E TransactionResponse)) (p : Except E TransactionResponse)
    (result : Except (Failure E) TransactionResponse) : Prop :=
  Decides maxRetries pre p result ∨ (pre = [] ∧ ∃ e, p = .error e ∧ result = .error (.api e))

theorem waiting_nil : Waiting ([] : List (Except E TransactionResponse)) :=
  ⟨waits_nil, by simp⟩

theorem waiting_cons_ok :
    Waiting (.ok r :: polls) ↔ checkStatus E r = none ∧ Waits maxRetries polls := by
  simp [Waiting, waits_cons_ok]

theorem not_waiting_cons_error (e : E) : ¬ Waiting (.error e :: polls) :=
  fun h => h.2 e rfl

theorem settles_nil_ok :
    Settles [] (.ok r : Except E TransactionResponse) result ↔
      checkStatus E r = some result := by
  simp [Settles, Decides]

theorem settles_nil_error (e : E) :
    Settles [] (.error e : Except E TransactionResponse) result ↔ result = .error (.api e) := by
  simp [Settles, decides_nil_error, maxRetries]

theorem settles_cons_ok {p : Except E TransactionResponse} :
    Settles (.ok r :: polls) p result ↔ Decides maxRetries polls p result := by
  simp [Settles, decides_cons_ok]

/-- `waitForSignature` is decided by the first decisive poll, and polls no further. -/
theorem waitForSignature_eq_some_iff :
    waitForSignature polls = some (result, post) ↔
      ∃ pre p, polls = pre ++ p :: post ∧ Waiting pre ∧ Settles pre p result := by
  cases polls with
  | nil => simp [waitForSignature]
  | cons q polls =>
    rw [split_cons_iff]
    cases q with
    | error e =>
      simp only [waitForSignature, settles_nil_error, not_waiting_cons_error, false_and, and_false,
        exists_false, or_false, Option.some.injEq, Prod.mk.injEq]
      constructor
      · intro h
        exact ⟨h.2, waiting_nil, h.1.symm⟩
      · intro h
        exact ⟨h.2.2.symm, h.1⟩
    | ok r =>
      simp only [waitForSignature, settles_nil_ok, waiting_cons_ok, settles_cons_ok]
      cases hr : checkStatus E r with
      | some result' =>
        rw [waitLoop_of_decided hr]
        simp only [reduceCtorEq, false_and, and_false, exists_false, or_false, Option.some.injEq,
          Prod.mk.injEq]
        constructor
        · intro h
          exact ⟨h.2, waiting_nil, h.1⟩
        · intro h
          exact ⟨h.2.2, h.1⟩
      | none =>
        simp only [waitLoop_eq_some_iff hr (Nat.zero_le _), Nat.sub_zero, reduceCtorEq, and_false,
          false_or, true_and]

theorem checkStatus_eq_ok : checkStatus E r = some (.ok r') ↔
    r' = r ∧ r.status ∈ acceptedStatuses := by
  unfold checkStatus
  split_ifs with h h'
  · simp [h, eq_comm]
  · simp [h]
  · simp [h]

/-- It returns a response exactly when that is the first decisive one and is accepted. -/
theorem waitForSignature_eq_ok_iff :
    waitForSignature polls = some (.ok r, post) ↔
      ∃ pre, polls = pre ++ .ok r :: post ∧ Waiting pre ∧ r.status ∈ acceptedStatuses := by
  rw [waitForSignature_eq_some_iff]
  constructor
  · intro h
    obtain ⟨pre, p, rfl, hw, hs⟩ := h
    rcases hs with hd | ⟨-, e, -, he⟩
    · cases p with
      | ok r' =>
        obtain ⟨rfl, ha⟩ := checkStatus_eq_ok.mp hd
        exact ⟨pre, rfl, hw, ha⟩
      | error e =>
        cases hd.2
    · cases he
  · intro h
    obtain ⟨pre, rfl, hw, ha⟩ := h
    exact ⟨pre, .ok r, rfl, hw, .inl (checkStatus_eq_ok.mpr ⟨rfl, ha⟩)⟩

end SolanaSample.Fireblocks
