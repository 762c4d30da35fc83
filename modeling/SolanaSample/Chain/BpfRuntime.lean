import SolanaSample.Chain.Runtime
import SolanaSample.Library.Holdings

/-! The runtime with all three loaders of BPF programs. What the other programs do is a
parameter, with what is documented about it: to the accounts of a loader they may only add
lamports. -/
namespace SolanaSample
open Holdings

structure BpfRuntime (System : Type) extends Runtime System where
  bpfLoaderId : Pubkey
  bpfLoaderDeprecatedId : Pubkey
  /-- The owner of the loaders' own accounts. -/
  nativeLoaderId : Pubkey
  /-- The check of the accounts before and after an instruction of the given program. -/
  verifyProgram : Pubkey → List KeyedAccount → Accounts → Accounts → Bool

variable {System : Type}

namespace BpfRuntime

/-- `check_loader_id`. -/
def CheckLoaderId (rt : BpfRuntime System) (id : Pubkey) : Prop :=
  id = rt.bpfLoaderId ∨ id = rt.bpfLoaderDeprecatedId ∨ id = rt.loaderId

instance (rt : BpfRuntime System) (id : Pubkey) : Decidable (rt.CheckLoaderId id) :=
  inferInstanceAs (Decidable (_ ∨ _ ∨ _))

/-- The owners whose accounts no other program changes. -/
def Protected (rt : BpfRuntime System) (owner : Pubkey) : Prop :=
  rt.CheckLoaderId owner ∨ owner = rt.nativeLoaderId

instance (rt : BpfRuntime System) (owner : Pubkey) : Decidable (rt.Protected owner) :=
  inferInstanceAs (Decidable (_ ∨ _))

end BpfRuntime

def lamportsOf (s : Accounts) (k : Pubkey) : ℕ := (s k).lamports

theorem lamportsOf_update (s : Accounts) (k : Pubkey) (a : Account) :
    lamportsOf (Function.update s k a) = Function.update (lamportsOf s) k a.lamports := by
  funext j
  rw [lamportsOf, Function.update_apply, Function.update_apply, apply_ite Account.lamports]
  rfl

/-- Nothing happened to the account but to its lamports. -/
structure SameContents (a a' : Account) : Prop where
  data : a'.data = a.data
  owner : a'.owner = a.owner
  executable : a'.executable = a.executable

/-- Nothing happened to the account but that lamports may have come in. -/
structure OnlyCredited (a a' : Account) : Prop extends SameContents a a' where
  lamports : a.lamports ≤ a'.lamports

theorem SameContents.refl (a : Account) : SameContents a a := ⟨rfl, rfl, rfl⟩

theorem SameContents.trans {a b c : Account} (h : SameContents a b) (h' : SameContents b c) :
    SameContents a c :=
  ⟨h'.data.trans h.data, h'.owner.trans h.owner, h'.executable.trans h.executable⟩

theorem OnlyCredited.refl (a : Account) : OnlyCredited a a := ⟨SameContents.refl a, le_rfl⟩

theorem OnlyCredited.trans {a b c : Account} (h : OnlyCredited a b) (h' : OnlyCredited b c) :
    OnlyCredited a c :=
  ⟨h.toSameContents.trans h'.toSameContents, h.lamports.trans h'.lamports⟩

/-- The documented behaviour of the system program and of every other program that is not a
loader, and of the fixed addresses. -/
structure BpfRuntime.Lawful (rt : BpfRuntime System) : Prop extends rt.toRuntime.Lawful where
  loaders_differ : rt.bpfLoaderId ≠ rt.loaderId ∧ rt.bpfLoaderDeprecatedId ≠ rt.loaderId
  native_not_loader : ¬ rt.CheckLoaderId rt.nativeLoaderId
  system_not_protected : ¬ rt.Protected rt.systemId
  /-- Rent is due for an empty account too. -/
  minimumBalance_pos : ∀ n, 0 < rt.minimumBalance n
  createAccount_credits : ∀ {signers c s s'}, rt.createAccount signers c s = .ok s' →
    ∀ k, rt.Protected (s k).owner → OnlyCredited (s k) (s' k)
  createAccount_not_executable : ∀ {signers c s s'}, rt.createAccount signers c s = .ok s' →
    (s' c.newAccountPubkey).executable = false
  createAccount_total : ∀ {signers c s s' n}, rt.createAccount signers c s = .ok s' →
    Total (lamportsOf s) n → Total (lamportsOf s') n
  system_credits : ∀ {signers ix s s'}, rt.system signers ix s = .ok s' →
    ∀ k, rt.Protected (s k).owner → OnlyCredited (s k) (s' k)
  /-- An account is handed to a loader with zeros in it. -/
  system_assigns : ∀ {signers ix s s'}, rt.system signers ix s = .ok s' →
    ∀ k, ¬ rt.Protected (s k).owner → rt.Protected (s' k).owner →
      (∃ n, (s' k).data = List.replicate n 0) ∧ (s' k).executable = false
  system_total : ∀ {signers ix s s' n}, rt.system signers ix s = .ok s' →
    Total (lamportsOf s) n → Total (lamportsOf s') n
  /-- A program changes no data of an account that it does not own, and debits none that has. -/
  verifyProgram_foreign : ∀ {programId ks s s'}, rt.verifyProgram programId ks s s' = true →
    ∀ k ∈ ks, (s k.key).data ≠ [] → (s k.key).owner ≠ programId →
      (s' k.key).data = (s k.key).data ∧ (s k.key).lamports ≤ (s' k.key).lamports

end SolanaSample
