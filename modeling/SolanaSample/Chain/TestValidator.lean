import SolanaSample.Chain.Runtime
import SolanaSample.Library.Rejection

/-! A runtime that can be run: lamports are moved by signed transfers, rent is linear in the
size, and a program is anything that starts like an ELF file. -/
namespace SolanaSample.TestValidator
open Rejection

structure Transfer where
  source : Pubkey
  recipient : Pubkey
  lamports : ℕ
  deriving DecidableEq

/-- Program addresses are told apart from public keys by their first byte. -/
def programAddress (k : Pubkey) : Pubkey where
  bytes := 255 :: k.bytes.drop 1
  length_eq := by
    have h := k.length_eq
    simp only [List.length_cons, List.length_drop]
    omega

def createAccount (signers : List Pubkey) (c : CreateAccount) (s : Accounts) :
    Except InstructionError Accounts := do
  reject (c.fromPubkey ∉ signers ∨ c.newAccountPubkey ∉ signers) .missingRequiredSignature
  reject ((s c.newAccountPubkey).lamports ≠ 0 ∨ (s c.newAccountPubkey).data ≠ [])
    .accountAlreadyInitialized
  reject ((s c.fromPubkey).lamports < c.lamports) .insufficientFunds
  let s := Function.update s c.fromPubkey
    { s c.fromPubkey with lamports := (s c.fromPubkey).lamports - c.lamports }
  .ok (Function.update s c.newAccountPubkey
    ⟨c.lamports, List.replicate c.space 0, c.programId, false⟩)

def transfer (signers : List Pubkey) (t : Transfer) (s : Accounts) :
    Except InstructionError Accounts := do
  reject (t.source ∉ signers) .missingRequiredSignature
  reject ((s t.source).data ≠ []) .invalidArgument
  reject ((s t.source).lamports < t.lamports) .insufficientFunds
  let s := Function.update s t.source
    { s t.source with lamports := (s t.source).lamports - t.lamports }
  .ok (Function.update s t.recipient
    { s t.recipient with lamports := (s t.recipient).lamports + t.lamports })

def createExecutor (bytes : List UInt8) : Except InstructionError Unit :=
  reject (bytes.take 4 ≠ [0x7f, 0x45, 0x4c, 0x46]) .invalidAccountData

/-- An account that is not writable is as before. -/
def verify (ks : List KeyedAccount) (s s' : Accounts) : Bool :=
  ks.all fun k => k.isWritable || decide (s k.key = s' k.key)

def runtime : Runtime Transfer where
  loaderId := Pubkey.filled 2
  systemId := Pubkey.filled 0
  rentId := Pubkey.filled 3
  clockId := Pubkey.filled 4
  minimumBalance n := (n + 128) * 6960
  maxPermittedDataLength := 10485760
  reduceRequiredDeployBalance := true
  findProgramAddress := programAddress
  createExecutor := createExecutor
  createAccount := createAccount
  system := transfer
  hasSecretKey k := k.bytes.head? ≠ some 255
  verify := verify

theorem createAccount_eq_ok {signers : List Pubkey} {c : CreateAccount} {s s' : Accounts}
    (h : createAccount signers c s = .ok s') :
    (c.fromPubkey ∈ signers ∧ c.newAccountPubkey ∈ signers) ∧
      (s c.newAccountPubkey).data = [] ∧
      s' c.newAccountPubkey = ⟨c.lamports, List.replicate c.space 0, c.programId, false⟩ ∧
      ∀ k ≠ c.newAccountPubkey, (s' k).data = (s k).data ∧ (s' k).owner = (s k).owner ∧
        (k ≠ c.fromPubkey → (s k).lamports ≤ (s' k).lamports) := by
  simp only [createAccount, do_ok_iff, reject_eq_ok, exists_unit, not_or, not_not, ne_eq,
    Except.ok.injEq] at h
  obtain ⟨hsigned, ⟨-, hdata⟩, -, rfl⟩ := h
  refine ⟨hsigned, hdata, Function.update_self .., ?_⟩
  intro k hk
  rw [Function.update_of_ne hk]
  by_cases hf : k = c.fromPubkey
  · subst hf
    simp
  · rw [Function.update_of_ne hf]
    exact ⟨rfl, rfl, fun _ => Nat.le_refl _⟩

theorem transfer_frame {signers : List Pubkey} {t : Transfer} {s s' : Accounts}
    (h : transfer signers t s = .ok s') {k : Pubkey} (hk : k ∉ signers) :
    (s' k).data = (s k).data ∧ (s' k).owner = (s k).owner ∧
      (s k).lamports ≤ (s' k).lamports := by
  simp only [transfer, do_ok_iff, reject_eq_ok, exists_unit, not_not, ne_eq,
    Except.ok.injEq] at h
  obtain ⟨hsigned, -, -, rfl⟩ := h
  have hs : k ≠ t.source := fun he => hk (he ▸ hsigned)
  by_cases hr : k = t.recipient
  · subst hr
    rw [Function.update_self, Function.update_of_ne hs]
    exact ⟨rfl, rfl, Nat.le_add_right _ _⟩
  · rw [Function.update_of_ne hr, Function.update_of_ne hs]
    exact ⟨rfl, rfl, Nat.le_refl _⟩

/-- What is assumed of the runtime can be had. -/
theorem runtime_lawful : runtime.Lawful where
  programAddress_noSecretKey k := by simp [runtime, programAddress]
  createAccount_signed h := (createAccount_eq_ok h).1
  createAccount_fresh h := (createAccount_eq_ok h).2.1
  createAccount_new h := by
    rw [(createAccount_eq_ok h).2.2.1]
    exact ⟨rfl, rfl, Nat.le_refl _⟩
  createAccount_frame h := (createAccount_eq_ok h).2.2.2
  system_frame h k hk _ _ := transfer_frame h hk

end SolanaSample.TestValidator
