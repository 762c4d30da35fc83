import SolanaSample.Loader.Change

/-! Transactions of one instruction, and what executing them does to the accounts. A longer
transaction is a sequence of these: when it is accepted it has the effect of its instructions
one after the other, and when it is not it has none. -/
namespace SolanaSample
open Rejection Loader

structure AccountMeta where
  pubkey : Pubkey
  isSigner : Bool
  isWritable : Bool
  deriving DecidableEq

inductive Instruction (System : Type) where
  | createAccount (args : CreateAccount)
  | system (ix : System)
  | loader (keys : List AccountMeta) (data : List UInt8)

structure Transaction (System : Type) where
  feePayer : Pubkey
  recentBlockhash : ℕ
  instruction : Instruction System
  /-- The keypairs that signed before the fee payer does. -/
  partialSigners : List Pubkey

def Transaction.signers {System : Type} (tx : Transaction System) : List Pubkey :=
  tx.feePayer :: tx.partialSigners

/-- The accounts as the loader sees them. Signing and being writable are marks of an address
in the whole message, whichever reference asks for them. -/
def keyedAccounts (signers : List Pubkey) (keys : List AccountMeta) : List KeyedAccount :=
  keys.map fun m => ⟨m.pubkey, decide (m.pubkey ∈ signers),
    decide (signers.head? = some m.pubkey ∨ ∃ m' ∈ keys, m'.pubkey = m.pubkey ∧ m'.isWritable)⟩

variable {System : Type} (rt : Runtime System)

def execute (slot : UInt64) (signers : List Pubkey) (ix : Instruction System) (s : Accounts) :
    Except InstructionError Accounts :=
  match ix with
  | .createAccount args => rt.createAccount signers args s
  | .system ix => rt.system signers ix s
  | .loader keys data => do
    reject (∃ m ∈ keys, m.isSigner ∧ m.pubkey ∉ signers) .missingRequiredSignature
    let s' ← processLoaderUpgradeableInstruction rt slot data (keyedAccounts signers keys) s
    reject (rt.verify (keyedAccounts signers keys) s s' = false) (.external 0)
    .ok s'

variable {rt}

theorem signerKeys_keyedAccounts {signers : List Pubkey} {keys : List AccountMeta} {k : Pubkey}
    (h : k ∈ signerKeys (keyedAccounts signers keys)) : k ∈ signers := by
  unfold signerKeys keyedAccounts at h
  obtain ⟨a, ha, rfl⟩ := List.mem_map.mp h
  obtain ⟨hmem, hsig⟩ := List.mem_filter.mp ha
  obtain ⟨m, -, rfl⟩ := List.mem_map.mp hmem
  simpa using hsig

theorem keyedAccounts_getElem? (signers : List Pubkey) (keys : List AccountMeta) (i : ℕ) :
    ((keyedAccounts signers keys)[i]?.map (·.key)) = keys[i]?.map (·.pubkey) := by
  simp [keyedAccounts, Function.comp_def]

theorem execute_loader_eq_ok {slot : UInt64} {signers : List Pubkey} {keys : List AccountMeta}
    {data : List UInt8} {s s' : Accounts}
    (h : execute rt slot signers (.loader keys data) s = .ok s') :
    ∃ ix, limitedDeserialize data = .ok ix ∧
      processInstruction rt slot ix (keyedAccounts signers keys) s = .ok s' := by
  simp only [execute, processLoaderUpgradeableInstruction, do_ok_iff, exists_unit, reject_eq_ok,
    Except.ok.injEq] at h
  obtain ⟨-, s₁, ⟨ix, hix, hp⟩, -, rfl⟩ := h
  exact ⟨ix, hix, hp⟩

/-- An account that nobody signs for, unused or the loader's, is left alone by everything but
the instructions of the loader. -/
theorem execute_unsigned (hrt : rt.Lawful) {slot : UInt64} {signers : List Pubkey}
    {ix : Instruction System} {s s' : Accounts} (h : execute rt slot signers ix s = .ok s')
    {k : Pubkey} (hk : k ∉ signers)
    (hkind : rt.hasSecretKey k ∨ ∃ p, rt.findProgramAddress p = k)
    (hown : (s k).data = [] ∨ (s k).owner = rt.loaderId) :
    ((s' k).data = (s k).data ∧ (s' k).owner = (s k).owner ∧
        (s k).lamports ≤ (s' k).lamports) ∨
      ∃ keys data ix', ix = .loader keys data ∧ limitedDeserialize data = .ok ix' ∧
        Change rt ix' (keyedAccounts signers keys) s s' k := by
  cases ix with
  | createAccount args =>
    obtain ⟨hfrom, hnew⟩ := hrt.createAccount_signed h
    have hne : k ≠ args.newAccountPubkey := fun he => hk (he ▸ hnew)
    have hne' : k ≠ args.fromPubkey := fun he => hk (he ▸ hfrom)
    obtain ⟨hd, ho, hl⟩ := hrt.createAccount_frame h k hne
    exact .inl ⟨hd, ho, hl hne'⟩
  | system ix => exact .inl (hrt.system_frame h k hk hkind hown)
  | loader keys data =>
    obtain ⟨ix', hix, hp⟩ := execute_loader_eq_ok h
    exact .inr ⟨keys, data, ix', rfl, hix, processInstruction_change hrt hp k⟩

end SolanaSample
