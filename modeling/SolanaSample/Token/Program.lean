import SolanaSample.Chain.Pubkey
import SolanaSample.Library.Rejection
import SolanaSample.Library.Run
import Mathlib.Algebra.Group.Nat.Defs
import Mathlib.Logic.Function.Basic

/-! The `simple_token` program: its handlers, its account structs, and how the framework
loads the accounts of an instruction before the handler and stores them after it. -/
namespace SolanaSample.SimpleToken
open Rejection

/-- The data of an account of the program. -/
structure TokenAccount where
  amount : UInt64
  deriving DecidableEq

inductive ErrorCode where
  | insufficientFunds
  deriving DecidableEq

/-- Why an instruction fails: a `require!` of the handler, an arithmetic panic, or a
check the framework makes while it loads the accounts. -/
inductive Failure where
  | code (e : ErrorCode)
  | overflow
  | accountNotSigner
  | accountNotInitialized
  | tryingToInitPayerAsProgramAccount
  | accountAlreadyInUse
  deriving DecidableEq

/-- `+=` on `u64`: the release profile sets `overflow-checks`, so it panics and never wraps. -/
def checkedAdd (a b : UInt64) : Except Failure UInt64 :=
  if a.toNat + b.toNat < 2 ^ 64 then .ok (a + b) else .error .overflow

/-- `-=` on `u64`. -/
def checkedSub (a b : UInt64) : Except Failure UInt64 :=
  if b.toNat ≤ a.toNat then .ok (a - b) else .error .overflow

/-! The handlers. Each edits its own copies of the accounts. -/

def initializeMint (mint : TokenAccount) : Except Failure TokenAccount :=
  .ok { mint with amount := 0 }

def mint (mint : TokenAccount) (amount : UInt64) : Except Failure TokenAccount := do
  let a ← checkedAdd mint.amount amount
  .ok { mint with amount := a }

def burn (mint : TokenAccount) (amount : UInt64) : Except Failure TokenAccount := do
  reject (¬ mint.amount ≥ amount) (.code .insufficientFunds)
  let a ← checkedSub mint.amount amount
  .ok { mint with amount := a }

def transfer (from_ to_ : TokenAccount) (amount : UInt64) :
    Except Failure (TokenAccount × TokenAccount) := do
  reject (¬ from_.amount ≥ amount) (.code .insufficientFunds)
  let a ← checkedSub from_.amount amount
  let b ← checkedAdd to_.amount amount
  .ok ({ from_ with amount := a }, { to_ with amount := b })

/-! The account structs. -/

structure Initialize where
  mint : Pubkey
  user : Pubkey

structure Mint where
  mint : Pubkey

structure Burn where
  mint : Pubkey

structure Transfer where
  from_ : Pubkey
  to_ : Pubkey

inductive Instruction where
  | initializeMint (accounts : Initialize)
  | mint (accounts : Mint) (amount : UInt64)
  | burn (accounts : Burn) (amount : UInt64)
  | transfer (accounts : Transfer) (amount : UInt64)

/-- An instruction and the keys that signed the transaction it came in. -/
structure Submission where
  signers : List Pubkey
  instruction : Instruction

/-- The token accounts that exist. -/
abbrev Ledger := Pubkey → Option TokenAccount

/-- `Account<'info, TokenAccount>`: the field's own deserialised copy. -/
def load (l : Ledger) (key : Pubkey) : Except Failure TokenAccount :=
  demand (l key) .accountNotInitialized

/-- Write the `mut` copies back, in the order of the fields. -/
def store (l : Ledger) (copies : List (Pubkey × TokenAccount)) : Ledger :=
  copies.foldl (fun l c => Function.update l c.1 (some c.2)) l

/-- One instruction. `Signer` is checked for `user`, and the system program asks for the
signature of the account that `init` creates; no other field has a signer constraint. -/
def process (l : Ledger) (s : Submission) : Except Failure Ledger :=
  match s.instruction with
  | .initializeMint accounts => do
    reject (accounts.user ∉ s.signers) .accountNotSigner
    reject (accounts.user = accounts.mint) .tryingToInitPayerAsProgramAccount
    reject (accounts.mint ∉ s.signers) .accountNotSigner
    reject (l accounts.mint).isSome .accountAlreadyInUse
    let copy ← initializeMint ⟨0⟩
    .ok (store l [(accounts.mint, copy)])
  | .mint accounts amount => do
    let copy ← load l accounts.mint
    let copy ← mint copy amount
    .ok (store l [(accounts.mint, copy)])
  | .burn accounts amount => do
    let copy ← load l accounts.mint
    let copy ← burn copy amount
    .ok (store l [(accounts.mint, copy)])
  | .transfer accounts amount => do
    let from_ ← load l accounts.from_
    let to_ ← load l accounts.to_
    let (from_, to_) ← transfer from_ to_ amount
    .ok (store l [(accounts.from_, from_), (accounts.to_, to_)])

/-- A failing instruction leaves the ledger. So does one that fails for want of fees or rent,
which a run need not list. -/
def step (l : Ledger) (s : Submission) : Ledger := orStay l (process l s)

/-- No token account exists. -/
def noAccounts : Ledger := fun _ => none

/-- The stored amount of an account, zero where there is none. -/
def stored (l : Ledger) (key : Pubkey) : ℕ :=
  match l key with
  | some a => a.amount.toNat
  | none => 0

theorem stored_some {l : Ledger} {key : Pubkey} {a : TokenAccount} (h : l key = some a) :
    stored l key = a.amount.toNat := by simp [stored, h]

theorem stored_none {l : Ledger} {key : Pubkey} (h : l key = none) : stored l key = 0 := by
  simp [stored, h]

/-! What each piece does when it succeeds. -/

theorem checkedAdd_eq_ok {a b c : UInt64} :
    checkedAdd a b = .ok c ↔ a.toNat + b.toNat < 2 ^ 64 ∧ c.toNat = a.toNat + b.toNat := by
  unfold checkedAdd
  split_ifs with h
  · simp only [Except.ok.injEq, h, true_and, ← UInt64.toNat_inj, UInt64.toNat_add,
      Nat.mod_eq_of_lt h]
    exact eq_comm
  · simp only [h, false_and]

theorem checkedSub_eq_ok {a b c : UInt64} :
    checkedSub a b = .ok c ↔ b.toNat ≤ a.toNat ∧ c.toNat + b.toNat = a.toNat := by
  unfold checkedSub
  split_ifs with h
  · have hs : (a - b).toNat = a.toNat - b.toNat := UInt64.toNat_sub_of_le a b h
    simp only [Except.ok.injEq, h, true_and, ← UInt64.toNat_inj, hs]
    omega
  · simp [h]

theorem mint_eq_ok {m m' : TokenAccount} {n : UInt64} :
    mint m n = .ok m' ↔ m.amount.toNat + n.toNat < 2 ^ 64 ∧
      m'.amount.toNat = m.amount.toNat + n.toNat := by
  cases m'
  simp only [mint, do_ok_iff, checkedAdd_eq_ok, Except.ok.injEq, TokenAccount.mk.injEq]
  constructor
  · intro h
    obtain ⟨a, ha, rfl⟩ := h
    exact ha
  · intro h
    exact ⟨_, h, rfl⟩

theorem burn_eq_ok {m m' : TokenAccount} {n : UInt64} :
    burn m n = .ok m' ↔ n.toNat ≤ m.amount.toNat ∧
      m'.amount.toNat + n.toNat = m.amount.toNat := by
  cases m'
  simp only [burn, do_ok_iff, reject_eq_ok, exists_unit, checkedSub_eq_ok, Except.ok.injEq,
    TokenAccount.mk.injEq, not_not, ge_iff_le, UInt64.le_iff_toNat_le]
  constructor
  · intro h
    obtain ⟨-, a, ha, rfl⟩ := h
    exact ha
  · intro h
    exact ⟨h.1, _, h, rfl⟩

theorem transfer_eq_ok {f t f' t' : TokenAccount} {n : UInt64} :
    transfer f t n = .ok (f', t') ↔ n.toNat ≤ f.amount.toNat ∧
      t.amount.toNat + n.toNat < 2 ^ 64 ∧
      f'.amount.toNat + n.toNat = f.amount.toNat ∧
      t'.amount.toNat = t.amount.toNat + n.toNat := by
  cases f'
  cases t'
  simp only [transfer, do_ok_iff, reject_eq_ok, exists_unit, checkedSub_eq_ok, checkedAdd_eq_ok,
    Except.ok.injEq, Prod.mk.injEq, TokenAccount.mk.injEq, not_not, ge_iff_le,
    UInt64.le_iff_toNat_le]
  constructor
  · intro h
    obtain ⟨-, a, ha, b, hb, rfl, rfl⟩ := h
    exact ⟨ha.1, hb.1, ha.2, hb.2⟩
  · intro h
    obtain ⟨hn, hfit, hf, ht⟩ := h
    exact ⟨hn, _, ⟨hn, hf⟩, _, ⟨hfit, ht⟩, rfl, rfl⟩

theorem mint_succeeds_iff {m : TokenAccount} {n : UInt64} :
    (∃ m', mint m n = .ok m') ↔ m.amount.toNat + n.toNat < 2 ^ 64 := by
  constructor
  · intro h
    obtain ⟨m', hm'⟩ := h
    exact (mint_eq_ok.mp hm').1
  · intro h
    have hsum : (m.amount + n).toNat = m.amount.toNat + n.toNat := by
      rw [UInt64.toNat_add, Nat.mod_eq_of_lt h]
    exact ⟨⟨m.amount + n⟩, mint_eq_ok.mpr ⟨h, hsum⟩⟩

theorem burn_succeeds_iff {m : TokenAccount} {n : UInt64} :
    (∃ m', burn m n = .ok m') ↔ n.toNat ≤ m.amount.toNat := by
  constructor
  · intro h
    obtain ⟨m', hm'⟩ := h
    exact (burn_eq_ok.mp hm').1
  · intro h
    have hdiff : (m.amount - n).toNat = m.amount.toNat - n.toNat :=
      UInt64.toNat_sub_of_le m.amount n h
    exact ⟨⟨m.amount - n⟩, burn_eq_ok.mpr ⟨h, by rw [hdiff]; omega⟩⟩

/-- A transfer is a burn of one copy and a mint of the other. -/
theorem transfer_eq_ok_iff {f t f' t' : TokenAccount} {n : UInt64} :
    transfer f t n = .ok (f', t') ↔ burn f n = .ok f' ∧ mint t n = .ok t' := by
  rw [transfer_eq_ok, burn_eq_ok, mint_eq_ok]
  constructor
  · intro h
    obtain ⟨hn, hfit, hf, ht⟩ := h
    exact ⟨⟨hn, hf⟩, hfit, ht⟩
  · intro h
    obtain ⟨⟨hn, hf⟩, hfit, ht⟩ := h
    exact ⟨hn, hfit, hf, ht⟩

theorem transfer_succeeds_iff {f t : TokenAccount} {n : UInt64} :
    (∃ c, transfer f t n = .ok c) ↔
      n.toNat ≤ f.amount.toNat ∧ t.amount.toNat + n.toNat < 2 ^ 64 := by
  rw [← burn_succeeds_iff, ← mint_succeeds_iff]
  constructor
  · intro h
    obtain ⟨⟨f', t'⟩, h⟩ := h
    obtain ⟨hf, ht⟩ := transfer_eq_ok_iff.mp h
    exact ⟨⟨f', hf⟩, t', ht⟩
  · intro h
    obtain ⟨⟨f', hf⟩, t', ht⟩ := h
    exact ⟨(f', t'), transfer_eq_ok_iff.mpr ⟨hf, ht⟩⟩

theorem load_eq_ok {l : Ledger} {key : Pubkey} {a : TokenAccount} :
    load l key = .ok a ↔ l key = some a := demand_eq_ok

/-- What storing one copy does to the stored amounts. -/
theorem stored_update (l : Ledger) (key : Pubkey) (a : TokenAccount) (k : Pubkey) :
    stored (Function.update l key (some a)) k = if k = key then a.amount.toNat else stored l k := by
  by_cases h : k = key
  · subst h
    simp [stored]
  · simp [stored, h]

/-- All that a successful instruction can have done. -/
theorem process_cases {l l' : Ledger} {s : Submission} (h : process l s = .ok l') :
    (∃ accounts, s.instruction = .initializeMint accounts ∧ accounts.user ∈ s.signers ∧
      accounts.user ≠ accounts.mint ∧ accounts.mint ∈ s.signers ∧ l accounts.mint = none ∧
      l' = Function.update l accounts.mint (some ⟨0⟩)) ∨
    (∃ accounts n m m', s.instruction = .mint accounts n ∧ l accounts.mint = some m ∧
      mint m n = .ok m' ∧ l' = Function.update l accounts.mint (some m')) ∨
    (∃ accounts n m m', s.instruction = .burn accounts n ∧ l accounts.mint = some m ∧
      burn m n = .ok m' ∧ l' = Function.update l accounts.mint (some m')) ∨
    (∃ accounts n f t f' t', s.instruction = .transfer accounts n ∧
      l accounts.from_ = some f ∧ l accounts.to_ = some t ∧ transfer f t n = .ok (f', t') ∧
      l' = Function.update (Function.update l accounts.from_ (some f')) accounts.to_
        (some t')) := by
  unfold process at h
  cases hi : s.instruction with
  | initializeMint accounts =>
    simp only [hi, do_ok_iff, reject_eq_ok, exists_unit, not_not, initializeMint,
      Except.ok.injEq, exists_eq_left'] at h
    obtain ⟨huser, hne, hmint, hfresh, rfl⟩ := h
    exact .inl ⟨accounts, rfl, huser, hne, hmint, by simpa using hfresh, rfl⟩
  | mint accounts n =>
    simp only [hi, do_ok_iff, load_eq_ok, Except.ok.injEq] at h
    obtain ⟨m, hm, m', hm', rfl⟩ := h
    exact .inr (.inl ⟨accounts, n, m, m', rfl, hm, hm', rfl⟩)
  | burn accounts n =>
    simp only [hi, do_ok_iff, load_eq_ok, Except.ok.injEq] at h
    obtain ⟨m, hm, m', hm', rfl⟩ := h
    exact .inr (.inr (.inl ⟨accounts, n, m, m', rfl, hm, hm', rfl⟩))
  | transfer accounts n =>
    simp only [hi, do_ok_iff, load_eq_ok, Except.ok.injEq] at h
    obtain ⟨f, hf, t, ht, ⟨f', t'⟩, hft, rfl⟩ := h
    exact .inr (.inr (.inr ⟨accounts, n, f, t, f', t', rfl, hf, ht, hft, rfl⟩))

end SolanaSample.SimpleToken
