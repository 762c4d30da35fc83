import SolanaSample.Chain.BpfRuntime
import SolanaSample.Chain.TestValidator
import SolanaSample.Chain.Transaction

/-! What a runtime does not refuse. -/
namespace SolanaSample
open Loader Rejection

variable {System : Type} (rt : Runtime System)

/-- An address that was never used. -/
def Runtime.unused : Account := ⟨0, [], rt.systemId, false⟩

/-- The accounts after one more is created. -/
def fund (c : CreateAccount) (s : Accounts) : Accounts :=
  Function.update
    (Function.update s c.fromPubkey
      { s c.fromPubkey with lamports := (s c.fromPubkey).lamports - c.lamports })
    c.newAccountPubkey ⟨c.lamports, List.replicate c.space 0, c.programId, false⟩

/-- What an instruction of the loader may do to an account: move lamports, which takes a
signature when they leave; change its own account; create an account of its own. -/
inductive Permitted (signed : Prop) (a a' : Account) : Prop where
  | moved (contents : SameContents a a') (debit : a.lamports ≤ a'.lamports ∨ signed)
  | own (owner : a.owner = rt.loaderId) (owner' : a'.owner = rt.loaderId)
      (length : a'.data.length = a.data.length)
      (executable : a'.executable = a.executable ∨
        a.executable = false ∧ rt.minimumBalance a'.data.length ≤ a'.lamports)
  | created (unused : a = rt.unused) (owner : a'.owner = rt.loaderId)
      (executable : a'.executable = false) (rent : rt.minimumBalance a'.data.length ≤ a'.lamports)

/-- Only accounts that were handed over to be written have changed, in permitted ways, and
together they hold what they held. -/
structure Honest (ks : List KeyedAccount) (s s' : Accounts) : Prop where
  permitted : ∀ k, s' k = s k ∨
    (∃ a ∈ ks, a.key = k ∧ Permitted rt (a.isSigner = true) (s k) (s' k)) ∧
      ∀ a ∈ ks, a.key = k → a.isWritable = true
  balanced : ∃ t : Finset Pubkey, (∀ k ∉ t, s' k = s k) ∧
    ∑ k ∈ t, (s' k).lamports = ∑ k ∈ t, (s k).lamports

/-- A new account that is paid for is created, and the check after an instruction of the loader
lets through what is honest. -/
structure Runtime.Serves : Prop where
  minimumBalance_pos : ∀ n, 0 < rt.minimumBalance n
  createAccount_served : ∀ {signers c s}, c.fromPubkey ∈ signers → c.newAccountPubkey ∈ signers →
    (s c.fromPubkey).data = [] → (s c.fromPubkey).owner = rt.systemId →
    s c.newAccountPubkey = rt.unused → c.space ≤ rt.maxPermittedDataLength →
    rt.minimumBalance c.space ≤ c.lamports →
    c.lamports + rt.minimumBalance 0 ≤ (s c.fromPubkey).lamports →
      rt.createAccount signers c s = .ok (fund c s)
  verify_honest : ∀ {ks s s'}, Honest rt ks s s' → rt.verify ks s s' = true

section Fund
variable {c : CreateAccount} {s : Accounts} {k : Pubkey}

theorem fund_new : fund c s c.newAccountPubkey =
    ⟨c.lamports, List.replicate c.space 0, c.programId, false⟩ := Function.update_self ..

theorem fund_from (h : c.fromPubkey ≠ c.newAccountPubkey) : fund c s c.fromPubkey =
    { s c.fromPubkey with lamports := (s c.fromPubkey).lamports - c.lamports } := by
  rw [fund, Function.update_of_ne h, Function.update_self]

theorem fund_other (hnew : k ≠ c.newAccountPubkey) (hfrom : k ≠ c.fromPubkey) :
    fund c s k = s k := by
  rw [fund, Function.update_of_ne hnew, Function.update_of_ne hfrom]

end Fund

variable {rt}

theorem Permitted.mono {signed signed' : Prop} {a a' : Account} (h : Permitted rt signed a a')
    (hsigned : signed → signed') : Permitted rt signed' a a' := by
  cases h with
  | moved contents debit => exact .moved contents (debit.imp_right hsigned)
  | own owner owner' length executable => exact .own owner owner' length executable
  | created unused owner executable rent => exact .created unused owner executable rent

/-- An instruction of the loader that the processor accepts is executed. -/
theorem execute_loader_ok (hserve : rt.Serves) {slot : UInt64} {signers : List Pubkey}
    {keys : List AccountMeta} {ix : UpgradeableLoaderInstruction} {s s' : Accounts}
    (hlen : (UpgradeableLoaderInstruction.codec.encode ix).length ≤ 1232)
    (hsigned : ∀ m ∈ keys, m.isSigner = true → m.pubkey ∈ signers)
    (hp : processInstruction rt slot ix (keyedAccounts signers keys) s = .ok s')
    (hhonest : Honest rt (keyedAccounts signers keys) s s') :
    execute rt slot signers (.loader keys (UpgradeableLoaderInstruction.codec.encode ix)) s =
      .ok s' := by
  simp only [execute, processLoaderUpgradeableInstruction, do_ok_iff, exists_unit, reject_eq_ok,
    limitedDeserialize_encode_ok hlen, Except.ok.injEq]
  refine ⟨?_, s', ⟨ix, rfl, hp⟩, ?_, rfl⟩
  · rintro ⟨m, hm, hsigner, hnot⟩
    exact hnot (hsigned m hm hsigner)
  · rw [hserve.verify_honest hhonest]
    simp

/-- An account that one reference asks to write is writable in all of them. -/
theorem keyedAccounts_writable {signers : List Pubkey} {keys : List AccountMeta} {m : AccountMeta}
    (hm : m ∈ keys) (hw : m.isWritable = true) :
    (∃ a ∈ keyedAccounts signers keys, a.key = m.pubkey ∧
        (m.pubkey ∈ signers → a.isSigner = true)) ∧
      ∀ a ∈ keyedAccounts signers keys, a.key = m.pubkey → a.isWritable = true := by
  constructor
  · exact ⟨_, List.mem_map_of_mem hm, rfl, decide_eq_true⟩
  · intro a ha hkey
    obtain ⟨m', -, rfl⟩ := List.mem_map.mp ha
    exact decide_eq_true (.inr ⟨m, hm, hkey.symm, hw⟩)

/-- The change of the data of one account of the loader. -/
theorem honest_setData {ks : List KeyedAccount} {s : Accounts} {k : Pubkey} {data : List UInt8}
    (hmem : ∃ a ∈ ks, a.key = k) (hwritable : ∀ a ∈ ks, a.key = k → a.isWritable = true)
    (howner : (s k).owner = rt.loaderId) (hlen : data.length = (s k).data.length) :
    Honest rt ks s (setData s k data) where
  permitted j := by
    by_cases hj : j = k
    · subst hj
      obtain ⟨a, ha, hkey⟩ := hmem
      refine .inr ⟨⟨a, ha, hkey, ?_⟩, hwritable⟩
      rw [setData, Function.update_self]
      exact Permitted.own howner howner hlen (.inl rfl)
    · exact .inl (Function.update_of_ne hj _ _)
  balanced := by
    refine ⟨{k}, ?_, ?_⟩
    · intro j hj
      exact Function.update_of_ne (fun he => hj (Finset.mem_singleton.mpr he)) _ _
    · rw [Finset.sum_singleton, Finset.sum_singleton, setData_lamports]

/-- What is assumed can be had. -/
theorem TestValidator.runtime_serves : TestValidator.runtime.Serves where
  minimumBalance_pos n := by
    simp only [TestValidator.runtime]
    omega
  createAccount_served hfrom hnew hdata howner hunused hspace hrent hfunds := by
    simp only [TestValidator.runtime, TestValidator.createAccount, do_ok_iff, exists_unit,
      reject_eq_ok, not_or, not_not, ne_eq, Nat.not_lt]
    refine ⟨⟨hfrom, hnew⟩, ?_, ?_, rfl⟩
    · rw [hunused]
      exact ⟨rfl, rfl⟩
    · omega
  verify_honest {ks s s'} h := by
    simp only [TestValidator.runtime, TestValidator.verify, List.all_eq_true]
    intro a ha
    rcases h.permitted a.key with hsame | ⟨-, hwritable⟩
    · simp [hsame]
    · simp [hwritable a ha rfl]

end SolanaSample
