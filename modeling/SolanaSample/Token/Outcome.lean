import SolanaSample.Token.Ledger

/-! Exactly when a mint, a burn and a transfer succeed, and what each leaves behind. -/
namespace SolanaSample.SimpleToken
open Rejection

/-! What a success gives to the stored amount of an account and takes from it. -/

def Instruction.credited (key : Pubkey) (ix : Instruction) : ℕ := ix.minted key + ix.received key

/-- The debit of a transfer from an account to itself is overwritten by its credit. -/
def Instruction.debited (key : Pubkey) : Instruction → ℕ
  | .burn accounts n => if accounts.mint = key then n.toNat else 0
  | .transfer accounts n =>
    if accounts.from_ = key ∧ accounts.from_ ≠ accounts.to_ then n.toNat else 0
  | _ => 0

/-- The amounts decide a mint, a burn and a transfer, a failure leaves every account, and a
success moves amounts as the natural numbers do, so nothing wraps. -/
structure Exact (l : Ledger) (s : Submission) : Prop where
  mint : ∀ accounts n, s.instruction = .mint accounts n →
    ((∃ l', process l s = .ok l') ↔
      ∃ a, l accounts.mint = some a ∧ a.amount.toNat + n.toNat < 2 ^ 64)
  burn : ∀ accounts n, s.instruction = .burn accounts n →
    ((∃ l', process l s = .ok l') ↔
      ∃ a, l accounts.mint = some a ∧ n.toNat ≤ a.amount.toNat)
  transfer : ∀ accounts n, s.instruction = .transfer accounts n →
    ((∃ l', process l s = .ok l') ↔
      ∃ f t, l accounts.from_ = some f ∧ l accounts.to_ = some t ∧
        n.toNat ≤ f.amount.toNat ∧ t.amount.toNat + n.toNat < 2 ^ 64)
  /-- The failure after the debit: the funds are there and the credit panics. -/
  credit : ∀ accounts n, s.instruction = .transfer accounts n →
    (process l s = .error .overflow ↔
      ∃ f t, l accounts.from_ = some f ∧ l accounts.to_ = some t ∧
        n.toNat ≤ f.amount.toNat ∧ 2 ^ 64 ≤ t.amount.toNat + n.toNat)
  failure : ∀ e, process l s = .error e → ∀ key, step l s key = l key
  amounts : ∀ l', process l s = .ok l' → ∀ key,
    stored (step l s) key + s.instruction.debited key =
      stored l key + s.instruction.credited key

theorem checkedAdd_eq_error {a b : UInt64} {e : Failure} :
    checkedAdd a b = .error e ↔ 2 ^ 64 ≤ a.toNat + b.toNat ∧ .overflow = e := by
  unfold checkedAdd
  split_ifs with h
  · simp only [false_iff, not_and]
    omega
  · simp only [Except.error.injEq, Nat.not_lt.mp h, true_and]

/-- After the `require!` the subtraction cannot panic, so a panic is the credit's. -/
theorem transfer_overflow_iff {f t : TokenAccount} {n : UInt64} :
    transfer f t n = .error .overflow ↔
      n.toNat ≤ f.amount.toNat ∧ 2 ^ 64 ≤ t.amount.toNat + n.toNat := by
  by_cases hn : n.toNat ≤ f.amount.toNat
  · have hsub : checkedSub f.amount n = .ok (f.amount - n) := by rw [checkedSub, if_pos hn]
    have hge : f.amount ≥ n := UInt64.le_iff_toNat_le.mpr hn
    simp only [transfer, do_error_iff, reject_eq_error, reject_eq_ok, hsub, exists_unit, hge,
      not_true_eq_false, false_or, not_false_eq_true, true_and, reduceCtorEq, Except.ok.injEq,
      exists_eq_left', checkedAdd_eq_error, and_true, and_false, exists_false, or_false, hn]
  · have hlt : ¬ f.amount ≥ n := fun h => hn (UInt64.le_iff_toNat_le.mp h)
    simp only [transfer, do_error_iff, reject_eq_error, reject_eq_ok, hlt, exists_unit,
      not_false_eq_true, not_true_eq_false, true_and, false_and, reduceCtorEq, or_false, hn]

/-! The same for an instruction on a ledger. -/

/-- One account is loaded, edited and stored: what the edit asks of the copy, the instruction
asks of the account. -/
theorem edit_succeeds_iff {l : Ledger} {key : Pubkey}
    {edit : TokenAccount → Except Failure TokenAccount} {P : TokenAccount → Prop}
    (hedit : ∀ a, (∃ a', edit a = .ok a') ↔ P a) :
    (∃ l', (do
      let copy ← load l key
      let copy ← edit copy
      .ok (store l [(key, copy)])) = .ok l') ↔ ∃ a, l key = some a ∧ P a := by
  simp only [do_ok_iff, load_eq_ok, Except.ok.injEq]
  constructor
  · intro h
    obtain ⟨l', a, ha, a', ha', -⟩ := h
    exact ⟨a, ha, (hedit a).mp ⟨a', ha'⟩⟩
  · intro h
    obtain ⟨a, ha, hp⟩ := h
    obtain ⟨a', ha'⟩ := (hedit a).mpr hp
    exact ⟨_, a, ha, a', ha', rfl⟩

theorem process_mint_iff {l : Ledger} {signers : List Pubkey} {accounts : Mint} {n : UInt64} :
    (∃ l', process l ⟨signers, .mint accounts n⟩ = .ok l') ↔
      ∃ a, l accounts.mint = some a ∧ a.amount.toNat + n.toNat < 2 ^ 64 :=
  edit_succeeds_iff fun _ => mint_succeeds_iff

theorem process_burn_iff {l : Ledger} {signers : List Pubkey} {accounts : Burn} {n : UInt64} :
    (∃ l', process l ⟨signers, .burn accounts n⟩ = .ok l') ↔
      ∃ a, l accounts.mint = some a ∧ n.toNat ≤ a.amount.toNat :=
  edit_succeeds_iff fun _ => burn_succeeds_iff

/-- The copies are loaded before either is edited, so an alias changes nothing here. -/
theorem process_transfer_iff {l : Ledger} {signers : List Pubkey} {accounts : Transfer}
    {n : UInt64} :
    (∃ l', process l ⟨signers, .transfer accounts n⟩ = .ok l') ↔
      ∃ f t, l accounts.from_ = some f ∧ l accounts.to_ = some t ∧
        n.toNat ≤ f.amount.toNat ∧ t.amount.toNat + n.toNat < 2 ^ 64 := by
  simp only [process, do_ok_iff, load_eq_ok, Except.ok.injEq]
  constructor
  · intro h
    obtain ⟨l', f, hf, t, ht, c, htransfer, -⟩ := h
    exact ⟨f, t, hf, ht, transfer_succeeds_iff.mp ⟨c, htransfer⟩⟩
  · intro h
    obtain ⟨f, t, hf, ht, hamounts⟩ := h
    obtain ⟨c, htransfer⟩ := transfer_succeeds_iff.mpr hamounts
    exact ⟨_, f, hf, t, ht, c, htransfer, rfl⟩

theorem process_transfer_overflow_iff {l : Ledger} {signers : List Pubkey}
    {accounts : Transfer} {n : UInt64} :
    process l ⟨signers, .transfer accounts n⟩ = .error .overflow ↔
      ∃ f t, l accounts.from_ = some f ∧ l accounts.to_ = some t ∧
        n.toNat ≤ f.amount.toNat ∧ 2 ^ 64 ≤ t.amount.toNat + n.toNat := by
  simp only [process, do_error_iff, load, demand_eq_error, demand_eq_ok, reduceCtorEq, and_false,
    false_or, exists_false, or_false, transfer_overflow_iff]
  constructor
  · intro h
    obtain ⟨f, hf, t, ht, hamounts⟩ := h
    exact ⟨f, t, hf, ht, hamounts⟩
  · intro h
    obtain ⟨f, t, hf, ht, hamounts⟩ := h
    exact ⟨f, hf, t, ht, hamounts⟩

/-- What a success posts, read as a debit and a credit. -/
theorem posted_eq (ix : Instruction) (key : Pubkey) :
    (ix.entry + ix.excess) key = (ix.credited key : ℤ) - ix.debited key := by
  have hentry := entry_apply ix key
  rw [Finsupp.add_apply, hentry]
  cases ix with
  | transfer accounts n =>
    by_cases halias : accounts.from_ = accounts.to_
    · simp only [Instruction.minted, Instruction.received, Instruction.burned, Instruction.sent,
        Instruction.excess, Instruction.credited, Instruction.debited, halias, ↓reduceIte,
        Finsupp.single_apply, ne_eq, not_true_eq_false, and_false]
      split_ifs <;> omega
    · simp only [Instruction.minted, Instruction.received, Instruction.burned, Instruction.sent,
        Instruction.excess, Instruction.credited, Instruction.debited, halias, ↓reduceIte,
        ne_eq, not_false_eq_true, and_true, Finsupp.coe_zero, Pi.zero_apply]
      omega
  | _ =>
    simp [Instruction.minted, Instruction.received, Instruction.burned, Instruction.sent,
      Instruction.excess, Instruction.credited, Instruction.debited]

theorem step_amounts {l l' : Ledger} {s : Submission} (h : process l s = .ok l')
    (key : Pubkey) :
    stored (step l s) key + s.instruction.debited key =
      stored l key + s.instruction.credited key := by
  have hstored := process_stored h key
  rw [posted_eq] at hstored
  rw [step, h, orStay_ok]
  omega

/-- Every instruction on every ledger. -/
theorem outcome_exact (l : Ledger) (s : Submission) : Exact l s where
  mint accounts n hs := by
    obtain ⟨signers, ix⟩ := s
    subst hs
    exact process_mint_iff
  burn accounts n hs := by
    obtain ⟨signers, ix⟩ := s
    subst hs
    exact process_burn_iff
  transfer accounts n hs := by
    obtain ⟨signers, ix⟩ := s
    subst hs
    exact process_transfer_iff
  credit accounts n hs := by
    obtain ⟨signers, ix⟩ := s
    subst hs
    exact process_transfer_overflow_iff
  failure e h key := by rw [step, h, orStay_error]
  amounts l' h key := step_amounts h key

end SolanaSample.SimpleToken
