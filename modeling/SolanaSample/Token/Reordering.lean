import SolanaSample.Token.Authority
import SolanaSample.Token.Conservation

/-! What a run leaves depends on which instructions succeeded, not on their order. -/
namespace SolanaSample.SimpleToken
open Rejection EventRun Bookkeeping

/-- The instruction succeeds on the ledger. -/
def Succeeds (l : Ledger) (s : Submission) : Prop := ∃ l', process l s = .ok l'

def Instruction.Creates (key : Pubkey) (ix : Instruction) : Prop :=
  ∃ user, ix = .initializeMint ⟨key, user⟩

theorem step_isSome_iff (l : Ledger) (s : Submission) (key : Pubkey) :
    (step l s key).isSome ↔
      (l key).isSome ∨ Succeeds l s ∧ s.instruction.Creates key := by
  constructor
  · intro h
    cases hl : l key with
    | some a => exact .inl rfl
    | none =>
      obtain ⟨user, hi, hok⟩ := step_creates hl h
      exact .inr ⟨hok, user, hi⟩
  · intro h
    rcases h with h | ⟨⟨l', hl'⟩, user, hi⟩
    · exact step_keeps_account s h
    · rw [step, hl', orStay_ok]
      rcases process_cases hl' with ⟨accounts, hi', -, -, -, -, rfl⟩ |
        ⟨accounts, n, m, m', hi', -⟩ | ⟨accounts, n, m, m', hi', -⟩ |
        ⟨accounts, n, f, t, f', t', hi', -⟩
      · obtain rfl := Instruction.initializeMint.inj (hi'.symm.trans hi)
        simp
      · exact absurd (hi'.symm.trans hi) (by simp)
      · exact absurd (hi'.symm.trans hi) (by simp)
      · exact absurd (hi'.symm.trans hi) (by simp)

/-- The accounts of a run are those it began with and those it created. -/
theorem run_isSome_iff (l : Ledger) (txs : List Submission) (key : Pubkey) :
    (run step l txs key).isSome ↔
      (l key).isSome ∨ ∃ ix ∈ succeeded l txs, ix.Creates key := by
  induction txs generalizing l with
  | nil => simp [succeeded]
  | cons s rest ih =>
    rw [run_cons, ih, step_isSome_iff]
    cases hp : process l s with
    | ok l' =>
      have hok : Succeeds l s := ⟨l', hp⟩
      rw [succeeded_cons_ok hp, List.exists_mem_cons_iff, step, hp, orStay_ok, or_assoc,
        and_iff_right hok]
    | error e =>
      have hfail : ¬ Succeeds l s := by
        intro h
        obtain ⟨l', hl'⟩ := h
        rw [hp] at hl'
        cases hl'
      rw [succeeded_cons_error hp, step, hp, orStay_error]
      simp only [hfail, false_and, or_false]

/-- A ledger is its accounts and what is stored in them. -/
theorem ledger_ext {l l' : Ledger} (hsome : ∀ key, (l key).isSome ↔ (l' key).isSome)
    (hstored : ∀ key, stored l key = stored l' key) : l = l' := by
  funext key
  have hs := hstored key
  have he := hsome key
  cases h : l key with
  | none => cases h' : l' key with
    | none => rfl
    | some a' => simp [h, h'] at he
  | some a => cases h' : l' key with
    | none => simp [h, h'] at he
    | some a' =>
      rw [stored_some h, stored_some h', UInt64.toNat_inj] at hs
      cases a
      cases a'
      exact congrArg (fun n => some (TokenAccount.mk n)) hs

/-- The order of what succeeded is lost, and nothing else of it. -/
theorem run_eq_of_succeeded_perm {l : Ledger} {txs txs' : List Submission}
    (h : (succeeded l txs).Perm (succeeded l txs')) : run step l txs = run step l txs' := by
  apply ledger_ext
  · intro key
    rw [run_isSome_iff, run_isSome_iff]
    simp only [h.mem_iff]
  · intro key
    have hsum : ((succeeded l txs).map fun ix => ix.entry + ix.excess).sum =
        ((succeeded l txs').map fun ix => ix.entry + ix.excess).sum := (h.map _).sum_eq
    have hrun := run_stored l txs key
    have hrun' := run_stored l txs' key
    rw [hsum, ← hrun'] at hrun
    exact Int.ofNat_inj.mp hrun

theorem succeeded_eq_map {l : Ledger} {txs : List Submission}
    (h : EveryStep step Succeeds l txs) : succeeded l txs = txs.map (·.instruction) := by
  induction txs generalizing l with
  | nil => rfl
  | cons s rest ih =>
    obtain ⟨⟨l', hl'⟩, hrest⟩ := h
    rw [step, hl', orStay_ok] at hrest
    rw [succeeded_cons_ok hl', ih hrest, List.map_cons]

/-- Two orders of one list, with every instruction a success in both, end in one ledger. -/
theorem reordered_runs_agree {l : Ledger} {txs txs' : List Submission} (hperm : txs.Perm txs')
    (h : EveryStep step Succeeds l txs) (h' : EveryStep step Succeeds l txs') :
    run step l txs = run step l txs' := by
  apply run_eq_of_succeeded_perm
  rw [succeeded_eq_map h, succeeded_eq_map h']
  exact hperm.map _

/-- One account with five tokens, and a mint, a burn and a payment to itself. -/
def fundedLedger : Ledger := Function.update noAccounts exampleMint (some ⟨5⟩)
def mintFour : Submission := ⟨[], .mint ⟨exampleMint⟩ 4⟩
def burnFive : Submission := ⟨[], .burn ⟨exampleMint⟩ 5⟩
def selfPay : Submission := ⟨[], .transfer ⟨exampleMint, exampleMint⟩ 2⟩

theorem selfPay_last_or_first :
    run step fundedLedger [burnFive, mintFour, selfPay] =
      run step fundedLedger [selfPay, mintFour, burnFive] :=
  reordered_runs_agree (List.reverse_perm [selfPay, mintFour, burnFive])
    ⟨⟨_, rfl⟩, ⟨_, rfl⟩, ⟨_, rfl⟩, trivial⟩ ⟨⟨_, rfl⟩, ⟨_, rfl⟩, ⟨_, rfl⟩, trivial⟩

end SolanaSample.SimpleToken
