import SolanaSample.Token.Ledger

/-! Runs of the token program: the per-account equation, the supply, and exactly which
runs break them. -/
namespace SolanaSample.SimpleToken
open Rejection EventRun Bookkeeping

theorem succeeded_cons_ok {l l' : Ledger} {s : Submission} {rest : List Submission}
    (h : process l s = .ok l') :
    succeeded l (s :: rest) = s.instruction :: succeeded l' rest := by
  simp [succeeded, h]

theorem succeeded_cons_error {l : Ledger} {s : Submission} {rest : List Submission} {e : Failure}
    (h : process l s = .error e) : succeeded l (s :: rest) = succeeded l rest := by
  simp [succeeded, h]

/-- The run lemma: a run posts the entry and the excess of every success. -/
theorem run_stored (l : Ledger) (txs : List Submission) (key : Pubkey) :
    (stored (run step l txs) key : ℤ) = stored l key +
      ((succeeded l txs).map fun ix => ix.entry + ix.excess).sum key := by
  induction txs generalizing l with
  | nil => simp [succeeded]
  | cons s rest ih =>
    rw [run_cons, ih]
    cases hp : process l s with
    | ok l' =>
      have hs := process_stored hp key
      simp only [step, hp, orStay_ok, succeeded_cons_ok hp, List.map_cons, List.sum_cons,
        Finsupp.add_apply] at hs ⊢
      omega
    | error e => simp only [step, hp, orStay_error, succeeded_cons_error hp]

theorem list_sum_add (f g : Instruction → Pubkey →₀ ℤ) (ixs : List Instruction) :
    (ixs.map fun ix => f ix + g ix).sum = (ixs.map f).sum + (ixs.map g).sum := by
  induction ixs with
  | nil => simp
  | cons ix rest ih =>
    simp only [List.map_cons, List.sum_cons, ih]
    exact add_add_add_comm _ _ _ _

theorem total_cons (f : Instruction → ℕ) (ix : Instruction) (ixs : List Instruction) :
    total f (ix :: ixs) = f ix + total f ixs := by simp [total]

/-- The entries of the accepted instructions, read at one account. -/
theorem entries_apply (ixs : List Instruction) (key : Pubkey) :
    (ixs.map (·.entry)).sum key = total (·.minted key) ixs + total (·.received key) ixs -
      total (·.burned key) ixs - total (·.sent key) ixs := by
  induction ixs with
  | nil => simp [total]
  | cons ix rest ih =>
    have he := entry_apply ix key
    simp only [List.map_cons, List.sum_cons, Finsupp.add_apply, total_cons]
    omega

theorem supply_entries (ixs : List Instruction) :
    supply (ixs.map (·.entry)).sum = total (·.mintedTotal) ixs - total (·.burnedTotal) ixs := by
  induction ixs with
  | nil => simp [total]
  | cons ix rest ih =>
    have he := supply_entry ix
    simp only [List.map_cons, List.sum_cons, supply_add, total_cons]
    omega

theorem excesses_nonneg (ixs : List Instruction) (key : Pubkey) :
    0 ≤ (ixs.map (·.excess)).sum key := by
  rw [list_sum_apply]
  apply List.sum_nonneg
  intro n hn
  simp only [List.mem_map, exists_exists_and_eq_and] at hn
  obtain ⟨ix, -, rfl⟩ := hn
  exact excess_nonneg ix key

/-- The excesses vanish exactly when no step was a self-credit: none of them is negative,
so they cannot cancel. -/
theorem excesses_eq_zero_iff (l : Ledger) (txs : List Submission) :
    ((succeeded l txs).map (·.excess)).sum = 0 ↔
      EveryStep step (fun l s => ¬ SelfCredit l s) l txs := by
  induction txs generalizing l with
  | nil => simp [succeeded, EveryStep]
  | cons s rest ih =>
    simp only [EveryStep, ← ih]
    cases hp : process l s with
    | error e =>
      have hno : ¬ SelfCredit l s := by
        intro h
        obtain ⟨⟨l', hl'⟩, -⟩ := selfCredit_iff.mp h
        simp [hp] at hl'
      simp only [step, hp, orStay_error, succeeded_cons_error hp, hno, not_false_eq_true, true_and]
    | ok l' =>
      have hiff : ¬ SelfCredit l s ↔ s.instruction.excess = 0 := by
        rw [selfCredit_iff, not_and_not_right]
        exact ⟨fun h => h ⟨l', hp⟩, fun h _ => h⟩
      simp only [step, hp, orStay_ok, succeeded_cons_ok hp, List.map_cons, List.sum_cons, hiff]
      constructor
      · intro h
        have hkey : ∀ key, s.instruction.excess key = 0 ∧
            ((succeeded l' rest).map (·.excess)).sum key = 0 := by
          intro key
          have h0 : s.instruction.excess key +
              ((succeeded l' rest).map (·.excess)).sum key = 0 := by
            simpa using congrArg (fun b => b key) h
          have h1 := excess_nonneg s.instruction key
          have h2 := excesses_nonneg (succeeded l' rest) key
          omega
        exact ⟨Finsupp.ext fun key => (hkey key).1, Finsupp.ext fun key => (hkey key).2⟩
      · intro h
        rw [h.1, h.2, add_zero]

/-- The stored amounts of a ledger are those of a book. -/
def Booked (l : Ledger) : Prop := ∃ b : Pubkey →₀ ℤ, ∀ key, (stored l key : ℤ) = b key

theorem booked_step {l : Ledger} (s : Submission) (h : Booked l) : Booked (step l s) := by
  obtain ⟨b, hb⟩ := h
  cases hp : process l s with
  | error e => exact ⟨b, by simpa only [step, hp, orStay_error] using hb⟩
  | ok l' =>
    refine ⟨b + (s.instruction.entry + s.instruction.excess), fun key => ?_⟩
    simp only [step, hp, orStay_ok]
    rw [process_stored hp key, hb key]
    rfl

theorem booked_noAccounts : Booked noAccounts := ⟨0, fun _ => rfl⟩

/-- A transfer that is no self-credit keeps what all accounts hold together. -/
theorem transfer_keeps_supply {l : Ledger} {s : Submission} (hl : Booked l)
    (hs : ¬ SelfCredit l s) (ht : s.instruction.isTransfer) :
    ∑ᶠ key, (stored (step l s) key : ℤ) = ∑ᶠ key, (stored l key : ℤ) := by
  obtain ⟨b, hb⟩ := hl
  cases hp : process l s with
  | error e => simp only [step, hp, orStay_error]
  | ok l' =>
    have hx : s.instruction.excess = 0 := by
      by_contra hne
      exact hs (selfCredit_iff.mpr ⟨⟨l', hp⟩, hne⟩)
    have hl' : ∀ key, (stored l' key : ℤ) = (b + s.instruction.entry) key := by
      intro key
      rw [process_stored hp key, hb key, hx, add_zero, Finsupp.add_apply]
    simp only [step, hp, orStay_ok, hl', hb]
    rw [finsum_eq_supply, finsum_eq_supply, supply_add, supply_entry_transfer ht, add_zero]

/-- The books of a run are in order exactly when none of its steps is a self-credit. -/
theorem conserves_iff (txs : List Submission) :
    Conserves txs ↔ EveryStep step (fun l s => ¬ SelfCredit l s) noAccounts txs := by
  have hrun : ∀ key, (stored (run step noAccounts txs) key : ℤ) =
      ((succeeded noAccounts txs).map (·.entry)).sum key +
        ((succeeded noAccounts txs).map (·.excess)).sum key := by
    intro key
    have h0 : stored noAccounts key = 0 := rfl
    rw [run_stored, h0, list_sum_add, Finsupp.add_apply, Nat.cast_zero, zero_add]
  rw [← excesses_eq_zero_iff]
  constructor
  · intro h
    refine Finsupp.ext fun key => ?_
    have ha := h.account key
    have he := entries_apply (succeeded noAccounts txs) key
    have hk := hrun key
    rw [Finsupp.coe_zero, Pi.zero_apply]
    omega
  · intro h
    have hentries : ∀ key, (stored (run step noAccounts txs) key : ℤ) =
        ((succeeded noAccounts txs).map (·.entry)).sum key := by
      intro key
      rw [hrun, h, Finsupp.coe_zero, Pi.zero_apply, add_zero]
    have hsteps := (excesses_eq_zero_iff noAccounts txs).mp h
    constructor
    · intro key
      rw [hentries, entries_apply]
    · simp only [hentries, finsum_eq_supply]
      exact supply_entries _
    · have hall := everyState_of_all (fun l s => booked_step s) txs booked_noAccounts
      rw [everyStep_iff_splits] at hsteps ⊢
      intro pre s post he ht
      have hl := everyState_iff_splits.mp hall pre (s :: post) he
      exact transfer_keeps_supply hl (hsteps pre s post he) ht

/-- The accounts of the run below. -/
def exampleUser : Pubkey := .filled 1
def exampleMint : Pubkey := .filled 2

/-- An account is created, five tokens are minted to it, and it sends them to itself. -/
def selfTransferRun : List Submission :=
  [⟨[exampleUser, exampleMint], .initializeMint ⟨exampleMint, exampleUser⟩⟩,
   ⟨[exampleUser], .mint ⟨exampleMint⟩ 5⟩,
   ⟨[exampleUser], .transfer ⟨exampleMint, exampleMint⟩ 5⟩]

/-- Afterwards it holds ten, though five were minted. -/
theorem selfTransferRun_not_conserved : ¬ Conserves selfTransferRun := by
  intro h
  have hkey := h.account exampleMint
  have hstored : stored (run step noAccounts selfTransferRun) exampleMint = 10 := by
    decide +kernel
  have hbooks : total (·.minted exampleMint) (succeeded noAccounts selfTransferRun) +
      total (·.received exampleMint) (succeeded noAccounts selfTransferRun) -
      total (·.burned exampleMint) (succeeded noAccounts selfTransferRun) -
      total (·.sent exampleMint) (succeeded noAccounts selfTransferRun) = 5 := by
    decide +kernel
  rw [hstored, hbooks] at hkey
  omega

end SolanaSample.SimpleToken
