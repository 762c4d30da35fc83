import SolanaSample.Library.Bookkeeping
import SolanaSample.Token.Program

/-! The token program against its books. Every instruction has an entry, which says what
it means; a run of the program is compared with the sum of the entries it accepted. -/
namespace SolanaSample.SimpleToken
open Rejection EventRun Bookkeeping

/-! What an instruction mints to, burns from, sends from and delivers to an account. -/

def Instruction.minted (key : Pubkey) : Instruction → ℕ
  | .mint accounts n => if accounts.mint = key then n.toNat else 0
  | _ => 0

def Instruction.burned (key : Pubkey) : Instruction → ℕ
  | .burn accounts n => if accounts.mint = key then n.toNat else 0
  | _ => 0

def Instruction.sent (key : Pubkey) : Instruction → ℕ
  | .transfer accounts n => if accounts.from_ = key then n.toNat else 0
  | _ => 0

def Instruction.received (key : Pubkey) : Instruction → ℕ
  | .transfer accounts n => if accounts.to_ = key then n.toNat else 0
  | _ => 0

/-- The amount minted, to whatever account. -/
def Instruction.mintedTotal : Instruction → ℕ
  | .mint _ n => n.toNat
  | _ => 0

def Instruction.burnedTotal : Instruction → ℕ
  | .burn _ n => n.toNat
  | _ => 0

def Instruction.isTransfer : Instruction → Bool
  | .transfer _ _ => true
  | _ => false

/-- The instructions of a run that succeeded, in order. -/
def succeeded : Ledger → List Submission → List Instruction
  | _, [] => []
  | l, s :: rest =>
    match process l s with
    | .ok l' => s.instruction :: succeeded l' rest
    | .error _ => succeeded l rest

def total (f : Instruction → ℕ) (ixs : List Instruction) : ℤ := ((ixs.map f).sum : ℕ)

/-- The books of a run from no accounts are in order: each account holds what came in less
what went out, all accounts together hold what was minted less what was burned, and no
transfer changes what they hold together. -/
structure Conserves (txs : List Submission) : Prop where
  account : ∀ key, (stored (run step noAccounts txs) key : ℤ) =
    total (·.minted key) (succeeded noAccounts txs) +
      total (·.received key) (succeeded noAccounts txs) -
      total (·.burned key) (succeeded noAccounts txs) -
      total (·.sent key) (succeeded noAccounts txs)
  supply : ∑ᶠ key, (stored (run step noAccounts txs) key : ℤ) =
    total (·.mintedTotal) (succeeded noAccounts txs) -
      total (·.burnedTotal) (succeeded noAccounts txs)
  transfers : EveryStep step (fun l s => s.instruction.isTransfer →
    ∑ᶠ key, (stored (step l s) key : ℤ) = ∑ᶠ key, (stored l key : ℤ)) noAccounts txs

/-- A transfer from an account to itself, of an amount it holds and can hold twice. -/
def SelfCredit (l : Ledger) (s : Submission) : Prop :=
  ∃ key n a, s.instruction = .transfer ⟨key, key⟩ n ∧ 0 < n.toNat ∧ l key = some a ∧
    n.toNat ≤ a.amount.toNat ∧ a.amount.toNat + n.toNat < 2 ^ 64

/-- What the instruction means for the books. -/
noncomputable def Instruction.entry : Instruction → Pubkey →₀ ℤ
  | .initializeMint _ => 0
  | .mint accounts n => Finsupp.single accounts.mint (n.toNat : ℤ)
  | .burn accounts n => Finsupp.single accounts.mint (-(n.toNat : ℤ))
  | .transfer accounts n =>
    Finsupp.single accounts.to_ (n.toNat : ℤ) - Finsupp.single accounts.from_ (n.toNat : ℤ)

/-- What the program adds to that: when `from` and `to` are one account the credited copy is
written over the debited one, so the debit is lost. -/
noncomputable def Instruction.excess : Instruction → Pubkey →₀ ℤ
  | .transfer accounts n =>
    if accounts.from_ = accounts.to_ then Finsupp.single accounts.to_ (n.toNat : ℤ) else 0
  | _ => 0

theorem entry_apply (ix : Instruction) (key : Pubkey) :
    ix.entry key = ix.minted key + ix.received key - ix.burned key - ix.sent key := by
  cases ix with
  | initializeMint accounts =>
    simp [Instruction.entry, Instruction.minted, Instruction.received, Instruction.burned,
      Instruction.sent]
  | mint accounts n =>
    simp [Instruction.entry, Instruction.minted, Instruction.received, Instruction.burned,
      Instruction.sent, Finsupp.single_apply]
  | burn accounts n =>
    simp [Instruction.entry, Instruction.minted, Instruction.received, Instruction.burned,
      Instruction.sent, Finsupp.single_apply]
  | transfer accounts n =>
    simp [Instruction.entry, Instruction.minted, Instruction.received, Instruction.burned,
      Instruction.sent, Finsupp.single_apply]

theorem supply_entry (ix : Instruction) :
    supply ix.entry = ix.mintedTotal - ix.burnedTotal := by
  cases ix <;> simp [Instruction.entry, Instruction.mintedTotal, Instruction.burnedTotal]

theorem supply_entry_transfer {ix : Instruction} (h : ix.isTransfer) : supply ix.entry = 0 := by
  cases ix <;> simp_all [Instruction.entry, Instruction.isTransfer]

theorem excess_nonneg (ix : Instruction) (key : Pubkey) : 0 ≤ ix.excess key := by
  cases ix with
  | transfer accounts n =>
    simp only [Instruction.excess]
    split_ifs
    · rw [Finsupp.single_apply]
      split_ifs <;> simp
    · simp
  | _ => simp [Instruction.excess]

/-- What storing one copy posts: the difference it makes to its own account. -/
theorem stored_update_delta (l : Ledger) (k : Pubkey) (a : TokenAccount) (key : Pubkey) :
    (stored (Function.update l k (some a)) key : ℤ) =
      stored l key + Finsupp.single k ((a.amount.toNat : ℤ) - stored l k) key := by
  rw [stored_update, Finsupp.single_apply]
  by_cases hk : key = k
  · subst hk
    simp
  · simp [hk, Ne.symm hk]

/-- The two copies of a transfer post its entry and its excess. Aliased, the copy of `to` is
written over the debited one, and the difference it makes there is twice the amount. -/
theorem transfer_delta (accounts : Transfer) (n : UInt64) (key : Pubkey) {f f' t t' : ℤ}
    (hdebit : f' + n.toNat = f) (hcredit : t' = t + n.toNat)
    (halias : accounts.from_ = accounts.to_ → f = t) :
    Finsupp.single accounts.from_ (f' - f) key +
        Finsupp.single accounts.to_ (t' - if accounts.to_ = accounts.from_ then f' else t) key =
      ((Instruction.transfer accounts n).entry + (Instruction.transfer accounts n).excess) key := by
  have hd : f' - f = -(n.toNat : ℤ) := by omega
  rw [Instruction.entry, Instruction.excess, hd]
  by_cases h : accounts.from_ = accounts.to_
  · have hc : t' - f' = n.toNat + n.toNat := by
      have he := halias h
      omega
    simp only [h, ↓reduceIte, hc, Finsupp.single_neg, Finsupp.single_add, Finsupp.add_apply,
      Finsupp.neg_apply, Finsupp.sub_apply]
    ring
  · have hc : t' - t = n.toNat := by omega
    simp only [h, Ne.symm h, ↓reduceIte, hc, Finsupp.single_neg, Finsupp.add_apply,
      Finsupp.neg_apply, Finsupp.sub_apply, Finsupp.coe_zero, Pi.zero_apply]
    ring

/-- The step lemma: a success posts the entry, and the excess of a self-transfer. -/
theorem process_stored {l l' : Ledger} {s : Submission} (h : process l s = .ok l') (key : Pubkey) :
    (stored l' key : ℤ) = stored l key + (s.instruction.entry + s.instruction.excess) key := by
  rcases process_cases h with ⟨accounts, hi, -, -, -, hfresh, rfl⟩ |
    ⟨accounts, n, m, m', hi, hm, hm', rfl⟩ | ⟨accounts, n, m, m', hi, hm, hm', rfl⟩ |
    ⟨accounts, n, f, t, f', t', hi, hf, ht, hft, rfl⟩
  · rw [stored_update_delta, stored_none hfresh, hi]
    simp [Instruction.entry, Instruction.excess]
  · have hadd : (m'.amount.toNat : ℤ) - m.amount.toNat = n.toNat := by
      have hsum := (mint_eq_ok.mp hm').2
      omega
    rw [stored_update_delta, stored_some hm, hadd, hi]
    simp [Instruction.entry, Instruction.excess]
  · have hsub : (m'.amount.toNat : ℤ) - m.amount.toNat = -n.toNat := by
      have hdiff := (burn_eq_ok.mp hm').2
      omega
    rw [stored_update_delta, stored_some hm, hsub, hi]
    simp [Instruction.entry, Instruction.excess]
  · obtain ⟨-, -, hdebit, hcredit⟩ := transfer_eq_ok.mp hft
    have hsame : accounts.from_ = accounts.to_ → (f.amount.toNat : ℤ) = t.amount.toNat := by
      intro he
      rw [he, ht] at hf
      rw [Option.some.inj hf]
    have hfrom : (f'.amount.toNat : ℤ) + n.toNat = f.amount.toNat := by omega
    have hto : (t'.amount.toNat : ℤ) = t.amount.toNat + n.toNat := by omega
    have hdelta := transfer_delta accounts n key hfrom hto hsame
    rw [stored_update_delta, stored_update_delta, stored_update, stored_some hf, stored_some ht,
      hi, ← hdelta]
    push_cast
    ring

/-- A self-transfer the books notice is a success with a nonzero excess. -/
theorem selfCredit_iff {l : Ledger} {s : Submission} :
    SelfCredit l s ↔ (∃ l', process l s = .ok l') ∧ s.instruction.excess ≠ 0 := by
  constructor
  · intro h
    obtain ⟨key, n, a, hi, hn, ha, hle, hfit⟩ := h
    constructor
    · obtain ⟨⟨f, t⟩, htr⟩ := transfer_succeeds_iff.mpr ⟨hle, hfit⟩
      refine ⟨store l [(key, f), (key, t)], ?_⟩
      simp only [process, hi, do_ok_iff, load_eq_ok]
      exact ⟨a, ha, a, ha, _, htr, rfl⟩
    · have hne : (n.toNat : ℤ) ≠ 0 := by omega
      simpa [hi, Instruction.excess] using hne
  · intro h
    obtain ⟨⟨l', hl'⟩, hne⟩ := h
    rcases process_cases hl' with ⟨accounts, hi, -⟩ | ⟨accounts, n, m, m', hi, -⟩ |
      ⟨accounts, n, m, m', hi, -⟩ | ⟨accounts, n, f, t, f', t', hi, hf, ht, hft, -⟩
    · exact absurd (by simp [hi, Instruction.excess]) hne
    · exact absurd (by simp [hi, Instruction.excess]) hne
    · exact absurd (by simp [hi, Instruction.excess]) hne
    · obtain ⟨hle, hfit, -, -⟩ := transfer_eq_ok.mp hft
      by_cases halias : accounts.from_ = accounts.to_
      · have hft' : f = t := by
          rw [halias, ht] at hf
          exact (Option.some.inj hf).symm
        subst hft'
        have hn : n.toNat ≠ 0 := by
          intro h0
          exact hne (by simp [hi, Instruction.excess, h0])
        refine ⟨accounts.to_, n, f, ?_, Nat.pos_of_ne_zero hn, ht, hle, hfit⟩
        rw [hi]
        cases accounts
        exact congrArg (fun k => Instruction.transfer ⟨k, _⟩ n) halias
      · exact absurd (by simp [hi, Instruction.excess, halias]) hne

end SolanaSample.SimpleToken
