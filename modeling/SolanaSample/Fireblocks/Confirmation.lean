import SolanaSample.Fireblocks.WaitForSignature

/-! What it means that `sendAndConfirmTransaction` over the adapter resolves. -/
namespace SolanaSample.Fireblocks

/-- What became of the transaction on the chain. -/
inductive ChainOutcome where
  | executed
  | executedWithError
  | neverExecuted
  deriving DecidableEq

variable {E : Type} (errorMessage : E → String)

def Failure.text : Failure E → String
  | api e => errorMessage e
  | message text => text

/-- The hash to return. An empty one counts as missing. -/
def txHashOf (finalTxResponse : TransactionResponse) : Except String String :=
  match finalTxResponse.txHash with
  | some txHash =>
    if txHash = "" then .error "Transaction hash not found in Fireblocks response"
    else .ok txHash
  | none => .error "Transaction hash not found in Fireblocks response"

/-- `sendTransaction` from the point on where Fireblocks has taken the transaction: the polls
decide. -/
def sendTransaction (polls : List (Except E TransactionResponse)) :
    Option (Except String String) :=
  (waitForSignature polls).map fun result =>
    match result.1 with
    | .error e => .error ("Failed to send transaction: " ++ e.text errorMessage)
    | .ok finalTxResponse =>
      (txHashOf finalTxResponse).mapError ("Failed to send transaction: " ++ ·)

structure SignatureResult where
  slot : ℕ
  err : Option String
  deriving DecidableEq

/-- The adapter's override asks nobody. -/
def confirmTransaction (_signature : String) : SignatureResult := ⟨0, none⟩

/-- `sendAndConfirmTransaction` of web3.js: it sends, confirms, and throws when the confirmation
carries an error. -/
def sendAndConfirmTransaction (polls : List (Except E TransactionResponse)) :
    Option (Except String String) :=
  (sendTransaction errorMessage polls).map fun sent =>
    match sent with
    | .error text => .error text
    | .ok signature =>
      match (confirmTransaction signature).err with
      | some text => .error ("Transaction " ++ signature ++ " failed (" ++ text ++ ")")
      | none => .ok signature

def HasHash (r : TransactionResponse) : Prop := ∃ txHash, r.txHash = some txHash ∧ txHash ≠ ""

variable {errorMessage} {polls : List (Except E TransactionResponse)}

theorem txHashOf_eq_ok {r : TransactionResponse} {txHash : String} :
    txHashOf r = .ok txHash ↔ r.txHash = some txHash ∧ txHash ≠ "" := by
  unfold txHashOf
  cases r.txHash with
  | none =>
    constructor
    · intro h
      cases h
    · intro h
      cases h.1
  | some t =>
    simp only
    split_ifs with he
    · constructor
      · intro h
        cases h
      · intro h
        exact absurd ((Option.some.inj h.1).symm.trans he) h.2
    · constructor
      · intro h
        obtain rfl := Except.ok.inj h
        exact ⟨rfl, he⟩
      · intro h
        rw [Option.some.inj h.1]

theorem sendTransaction_eq_ok_iff {txHash : String} :
    sendTransaction errorMessage polls = some (.ok txHash) ↔
      ∃ r post, waitForSignature polls = some (.ok r, post) ∧ r.txHash = some txHash ∧
        txHash ≠ "" := by
  unfold sendTransaction
  rw [Option.map_eq_some_iff]
  constructor
  · intro h
    obtain ⟨⟨result, post⟩, hw, he⟩ := h
    cases result with
    | error e => cases he
    | ok r =>
      refine ⟨r, post, hw, ?_⟩
      cases hr : txHashOf r with
      | error e =>
        simp only [hr, Except.mapError] at he
        cases he
      | ok t =>
        simp only [hr, Except.mapError] at he
        obtain rfl := Except.ok.inj he
        exact txHashOf_eq_ok.mp hr
  · intro h
    obtain ⟨r, post, hw, hh⟩ := h
    refine ⟨_, hw, ?_⟩
    simp only [txHashOf_eq_ok.mpr hh, Except.mapError]

/-- The confirmation never objects, so what is sent is what resolves. -/
theorem sendAndConfirmTransaction_eq (polls : List (Except E TransactionResponse)) :
    sendAndConfirmTransaction errorMessage polls = sendTransaction errorMessage polls := by
  unfold sendAndConfirmTransaction
  cases sendTransaction errorMessage polls with
  | none => rfl
  | some sent => cases sent <;> rfl

theorem sendAndConfirmTransaction_eq_ok_iff {signature : String} :
    sendAndConfirmTransaction errorMessage polls = some (.ok signature) ↔
      ∃ r post, waitForSignature polls = some (.ok r, post) ∧ r.txHash = some signature ∧
        signature ≠ "" := by
  rw [sendAndConfirmTransaction_eq, sendTransaction_eq_ok_iff]

/-- The first decisive poll is a response that only says the transaction was handed on. -/
def BroadcastFirst (polls : List (Except E TransactionResponse)) : Prop :=
  ∃ pre r post, polls = pre ++ .ok r :: post ∧ Waiting pre ∧ r.status = .broadcasting ∧ HasHash r

/-- A resolved call says that the transaction was executed, except for a transaction that was
not and whose first decisive poll is a broadcast. -/
theorem resolved_send_executed_iff {outcome : ChainOutcome}
    (hcompleted : ∀ r, .ok r ∈ polls → r.status = .completed → outcome = .executed) :
    (∀ signature, sendAndConfirmTransaction errorMessage polls = some (.ok signature) →
      outcome = .executed) ↔ outcome = .executed ∨ ¬ BroadcastFirst polls := by
  constructor
  · intro h
    by_cases hb : BroadcastFirst polls
    · left
      obtain ⟨pre, r, post, hp, hw, hst, txHash, hh, hne⟩ := hb
      apply h txHash
      rw [sendAndConfirmTransaction_eq_ok_iff]
      refine ⟨r, post, ?_, hh, hne⟩
      rw [waitForSignature_eq_ok_iff]
      exact ⟨pre, hp, hw, by rw [hst]; decide⟩
    · exact .inr hb
  · intro h signature hs
    rcases h with h | h
    · exact h
    · rw [sendAndConfirmTransaction_eq_ok_iff] at hs
      obtain ⟨r, post, hok, hh, hne⟩ := hs
      obtain ⟨pre, hp, hw, ha⟩ := waitForSignature_eq_ok_iff.mp hok
      simp only [acceptedStatuses, List.mem_cons, List.not_mem_nil, or_false] at ha
      rcases ha with hst | hst
      · exact hcompleted r (by simp [hp]) hst
      · exact absurd ⟨pre, r, post, hp, hw, hst, signature, hh, hne⟩ h

/-- A transaction that was handed to the network and landed with an error. -/
def broadcastOnly : List (Except String TransactionResponse) :=
  [.ok ⟨"1", .other "SUBMITTED", "", none⟩, .ok ⟨"1", .broadcasting, "", some "signature"⟩]

theorem resolved_send_executed_iff_broadcastOnly :
    (∀ signature, sendAndConfirmTransaction id broadcastOnly = some (.ok signature) →
      ChainOutcome.executedWithError = .executed) ↔
      ChainOutcome.executedWithError = .executed ∨ ¬ BroadcastFirst broadcastOnly :=
  resolved_send_executed_iff (by simp [broadcastOnly])

theorem broadcastOnly_resolves_without_execution :
    (∀ r, .ok r ∈ broadcastOnly → r.status = .completed →
      ChainOutcome.executedWithError = .executed) ∧
    ¬ (∀ signature, sendAndConfirmTransaction id broadcastOnly = some (.ok signature) →
      ChainOutcome.executedWithError = .executed) := by
  refine ⟨by simp [broadcastOnly], ?_⟩
  intro h
  exact absurd (h "signature" (by decide)) (by decide)

end SolanaSample.Fireblocks
