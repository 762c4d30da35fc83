import SolanaSample.Chain.Pubkey
import Mathlib.Logic.Function.Basic

/-! Accounts, and the parts of the runtime that the loader calls but the repository does not
contain: they are parameters, with what is documented about them. -/
namespace SolanaSample

inductive InstructionError where
  | invalidArgument
  | invalidInstructionData
  | invalidAccountData
  | accountDataTooSmall
  | insufficientFunds
  | incorrectProgramId
  | missingRequiredSignature
  | accountAlreadyInitialized
  | notEnoughAccountKeys
  | accountNotExecutable
  | accountBorrowFailed
  | executableAccountNotRentExempt
  | immutable
  | incorrectAuthority
  | arithmeticOverflow
  /-- An error of the system program, of the program verifier or of the runtime's checks. -/
  | external (code : ℕ)
  deriving DecidableEq

structure Account where
  lamports : ℕ
  data : List UInt8
  owner : Pubkey
  executable : Bool
  deriving DecidableEq

/-- All accounts. An address that was never used has no lamports and no data. -/
abbrev Accounts := Pubkey → Account

/-- An account as an instruction refers to it. -/
structure KeyedAccount where
  key : Pubkey
  isSigner : Bool
  isWritable : Bool
  deriving DecidableEq

/-- The arguments of `SystemProgram.createAccount`. -/
structure CreateAccount where
  fromPubkey : Pubkey
  newAccountPubkey : Pubkey
  lamports : ℕ
  space : ℕ
  programId : Pubkey
  deriving DecidableEq

/-- What the loader and the transactions rely on. `System` are the instructions of the system
program. `createExecutor` loads and verifies the bytes of a program, and `verify` is the check
the runtime makes of the accounts before and after an instruction of the loader. -/
structure Runtime (System : Type) where
  loaderId : Pubkey
  systemId : Pubkey
  rentId : Pubkey
  clockId : Pubkey
  minimumBalance : ℕ → ℕ
  maxPermittedDataLength : ℕ
  reduceRequiredDeployBalance : Bool
  findProgramAddress : Pubkey → Pubkey
  createExecutor : List UInt8 → Except InstructionError Unit
  createAccount : List Pubkey → CreateAccount → Accounts → Except InstructionError Accounts
  system : List Pubkey → System → Accounts → Except InstructionError Accounts
  /-- The addresses that somebody holds the secret key of. -/
  hasSecretKey : Pubkey → Prop
  verify : List KeyedAccount → Accounts → Accounts → Bool

/-- The documented behaviour of the system program and of program addresses. -/
structure Runtime.Lawful {System : Type} (rt : Runtime System) : Prop where
  /-- A program address is no public key. -/
  programAddress_noSecretKey : ∀ k, ¬ rt.hasSecretKey (rt.findProgramAddress k)
  /-- Both the funding and the new account sign. -/
  createAccount_signed : ∀ {signers c s s'}, rt.createAccount signers c s = .ok s' →
    c.fromPubkey ∈ signers ∧ c.newAccountPubkey ∈ signers
  /-- An account that is in use is not created again. -/
  createAccount_fresh : ∀ {signers c s s'}, rt.createAccount signers c s = .ok s' →
    (s c.newAccountPubkey).data = []
  /-- The new account is funded, holds zeros and belongs to the given program. -/
  createAccount_new : ∀ {signers c s s'}, rt.createAccount signers c s = .ok s' →
    (s' c.newAccountPubkey).data = List.replicate c.space 0 ∧
      (s' c.newAccountPubkey).owner = c.programId ∧
      c.lamports ≤ (s' c.newAccountPubkey).lamports
  /-- Other accounts stay, but for the lamports of the funding account. -/
  createAccount_frame : ∀ {signers c s s'}, rt.createAccount signers c s = .ok s' →
    ∀ k ≠ c.newAccountPubkey, (s' k).data = (s k).data ∧ (s' k).owner = (s k).owner ∧
      (k ≠ c.fromPubkey → (s k).lamports ≤ (s' k).lamports)
  /-- Without its signature an account is not debited, and if it is unused or the loader's it
  is not changed either. Addresses with a seed can be signed for by their base key, but a
  keypair or a program address is none of these. A program may change an account without data
  that it owns itself, and no signature is asked for: such instructions are not in `System`. -/
  system_frame : ∀ {signers ix s s'}, rt.system signers ix s = .ok s' →
    ∀ k ∉ signers, rt.hasSecretKey k ∨ (∃ p, rt.findProgramAddress p = k) →
      ((s k).data = [] ∨ (s k).owner = rt.loaderId) →
      (s' k).data = (s k).data ∧ (s' k).owner = (s k).owner ∧ (s k).lamports ≤ (s' k).lamports

/-- The address of a keypair is not derived from a program. -/
theorem Runtime.Lawful.programAddress_ne {System : Type} {rt : Runtime System} (hrt : rt.Lawful)
    {k : Pubkey} (hk : rt.hasSecretKey k) (program : Pubkey) :
    rt.findProgramAddress program ≠ k := by
  intro he
  rw [← he] at hk
  exact hrt.programAddress_noSecretKey program hk

end SolanaSample
