import SolanaSample.Loader.Cluster
import SolanaSample.Chain.TestCluster

/-! The loaders move lamports between accounts, and make and lose none. -/
namespace SolanaSample.Loader
open Holdings Rejection EventRun

variable {System : Type} {rt : BpfRuntime System}

/-- All accounts together hold as much as before. -/
def KeepsTotal (s s' : Accounts) : Prop :=
  ∀ n, Total (lamportsOf s) n → Total (lamportsOf s') n

theorem KeepsTotal.refl (s : Accounts) : KeepsTotal s s := fun _ h => h

theorem KeepsTotal.trans {s s₁ s₂ : Accounts} (h : KeepsTotal s s₁) (h' : KeepsTotal s₁ s₂) :
    KeepsTotal s s₂ := fun n hn => h' n (h n hn)

theorem keepsTotal_of_eq {s s' : Accounts} (h : lamportsOf s' = lamportsOf s) :
    KeepsTotal s s' := by
  intro n hn
  rwa [h]

theorem lamportsOf_setData (s : Accounts) (k : Pubkey) (data : List UInt8) :
    lamportsOf (setData s k data) = lamportsOf s :=
  funext fun j => setData_lamports s k j data

theorem lamportsOf_setState {s s' : Accounts} {k : Pubkey} {st : UpgradeableLoaderState}
    (h : setState s k st = .ok s') : lamportsOf s' = lamportsOf s := by
  obtain ⟨data, -, rfl⟩ := setState_eq_ok.mp h
  exact lamportsOf_setData s k data

theorem lamportsOf_writeProgramData {s s' : Accounts} {k : Pubkey} {off : ℕ}
    {bytes : List UInt8} (h : writeProgramData s k off bytes = .ok s') :
    lamportsOf s' = lamportsOf s := by
  obtain ⟨-, rfl⟩ := writeProgramData_eq_ok.mp h
  exact lamportsOf_setData s k _

theorem lamportsOf_setExecutable (s : Accounts) (k : Pubkey) :
    lamportsOf (setExecutable s k) = lamportsOf s :=
  funext fun j => setExecutable_lamports s k j

theorem lamportsOf_setLamports (s : Accounts) (k : Pubkey) (n : ℕ) :
    lamportsOf (setLamports s k n) = Function.update (lamportsOf s) k n :=
  lamportsOf_update s k _

theorem keepsTotal_drain {s s' : Accounts} {recipient source : Pubkey}
    (h : drain s recipient source = .ok s') : KeepsTotal s s' := by
  simp only [drain, checkedAddLamports, do_ok_iff, reject_eq_ok, exists_unit,
    Except.ok.injEq] at h
  obtain ⟨hne, s₁, ⟨-, rfl⟩, rfl⟩ := h
  intro n hn
  have hmove := hn.move (Ne.symm hne) (le_refl (lamportsOf s source))
  rw [Nat.sub_self] at hmove
  rw [lamportsOf_setLamports, lamportsOf_setLamports]
  exact hmove

theorem keepsTotal_drainWhen {c : Bool} {s s' : Accounts} {recipient source : Pubkey}
    (h : drainWhen c s recipient source = .ok s') : KeepsTotal s s' := by
  unfold drainWhen at h
  split_ifs at h with hc
  · exact keepsTotal_drain h
  · obtain rfl := Except.ok.inj h
    exact KeepsTotal.refl s

theorem keepsTotal_recordProgram {slot : UInt64} {authority programdata program buffer : Pubkey}
    {s s' : Accounts} (h : recordProgram slot authority programdata program buffer s = .ok s') :
    KeepsTotal s s' := by
  simp only [recordProgram, do_ok_iff, Except.ok.injEq] at h
  obtain ⟨s₁, h₁, s₂, h₂, s₃, h₃, rfl⟩ := h
  apply keepsTotal_of_eq
  rw [lamportsOf_setExecutable, lamportsOf_setState h₃, lamportsOf_writeProgramData h₂,
    lamportsOf_setState h₁]

theorem keepsTotal_deploy (hrt : rt.Lawful) {slot maxDataLen : UInt64} {ks : List KeyedAccount}
    {s s' : Accounts} (h : deployWithMaxDataLen rt.toRuntime slot maxDataLen ks s = .ok s') :
    KeepsTotal s s' := by
  simp only [deployWithMaxDataLen, do_ok_iff, exists_unit] at h
  obtain ⟨payer, -, programdata, -, program, -, buffer, -, rentAccount, -, -, clockAccount, -, -,
    authority, -, pst, -, -, -, -, bst, -, a, -, -, -, -, -, -, s₁, hdrain, s₂, hcreate, -, s₃,
    hrecord, hfinal⟩ := h
  exact (keepsTotal_drainWhen hdrain).trans
    (KeepsTotal.trans (fun n hn => hrt.createAccount_total hcreate hn)
      ((keepsTotal_recordProgram hrecord).trans (keepsTotal_drainWhen hfinal)))

/-- The buffer pays for the ProgramData account, and the rest is spilled. -/
theorem keepsTotal_upgrade {slot : UInt64} {ks : List KeyedAccount} {s s' : Accounts}
    (h : upgrade rt.toRuntime slot ks s = .ok s') : KeepsTotal s s' := by
  simp only [upgrade, checkedAddLamports, do_ok_iff, exists_unit, reject_eq_ok, state_eq_ok,
    demand_eq_ok, asBuffer_eq_some, asProgramData_eq_some, Except.ok.injEq, not_or,
    Nat.not_lt] at h
  obtain ⟨programdata, -, program, -, buffer, -, rentAccount, -, -, clockAccount, -, -,
    authority, -, -, -, -, pst, -, pda, -, -, bst, hbst, a, rfl, -, -, -, hfunds, dst, hdst, a',
    ⟨slot', rfl⟩, -, -, spill, -, s₁, h₁, s₂, h₂, ⟨hspd, hsb⟩, s₃, ⟨-, rfl⟩, rfl⟩ := h
  have hne : programdata.key ≠ buffer.key := by
    intro he
    rw [he, hbst] at hdst
    cases hdst
  have hsame : lamportsOf s₂ = lamportsOf s := by
    rw [lamportsOf_writeProgramData h₂, lamportsOf_setState h₁]
  have hspill : (s₂ spill.key).lamports = (s spill.key).lamports := congrFun hsame spill.key
  intro n hn
  rw [lamportsOf_setLamports, lamportsOf_setLamports, lamportsOf_setLamports, hsame, hspill]
  -- The spill is credited, the buffer emptied, and the ProgramData account set to its rent.
  set required := max 1 (rt.minimumBalance (s programdata.key).data.length)
  have hsum := hn.add_le hne
  simp only [lamportsOf] at hsum
  have hcredited := hn.update (k := spill.key)
    (v := (s spill.key).lamports + ((s programdata.key).lamports + (s buffer.key).lamports -
      required))
    (m := n + ((s programdata.key).lamports + (s buffer.key).lamports - required)) (by
      rw [lamportsOf]
      omega)
  have hemptied := hcredited.update (k := buffer.key) (v := 0)
    (m := n + ((s programdata.key).lamports + (s buffer.key).lamports - required) -
      (s buffer.key).lamports) (by
      rw [Function.update_of_ne (Ne.symm hsb), lamportsOf]
      omega)
  apply hemptied.update
  rw [Function.update_of_ne hne, Function.update_of_ne (Ne.symm hspd), lamportsOf]
  omega

theorem keepsTotal_commonCloseAccount {a : Option Pubkey} {authority : KeyedAccount}
    {closeAccount recipientAccount : Pubkey} {s s' : Accounts}
    (h : commonCloseAccount a authority closeAccount recipientAccount s = .ok s') :
    KeepsTotal s s' := by
  simp only [commonCloseAccount, do_ok_iff, exists_unit] at h
  obtain ⟨-, s₁, hdrain, hset⟩ := h
  exact (keepsTotal_drain hdrain).trans (keepsTotal_of_eq (lamportsOf_setState hset))

theorem keepsTotal_close {ks : List KeyedAccount} {s s' : Accounts}
    (h : close rt.toRuntime ks s = .ok s') : KeepsTotal s s' := by
  simp only [close, do_ok_iff, exists_unit] at h
  obtain ⟨closeAccount, -, recipientAccount, -, -, st, -, h⟩ := h
  cases st with
  | uninitialized => exact keepsTotal_drain h
  | buffer a =>
    obtain ⟨authority, -, h⟩ := do_ok_iff.mp h
    exact keepsTotal_commonCloseAccount h
  | program pd => cases h
  | programData slot a =>
    simp only [do_ok_iff, exists_unit] at h
    obtain ⟨programAccount, -, -, -, pst, -, pda, -, -, authority, -, h⟩ := h
    exact keepsTotal_commonCloseAccount h

theorem keepsTotal_setAuthority {ks : List KeyedAccount} {s s' : Accounts}
    (h : setAuthority ks s = .ok s') : KeepsTotal s s' := by
  obtain ⟨account, authority, data, -, rfl, -⟩ := setAuthority_effect h
  exact keepsTotal_of_eq (lamportsOf_setData s account.key data)

theorem keepsTotal_processInstruction (hrt : rt.Lawful) {slot : UInt64}
    {ix : UpgradeableLoaderInstruction} {ks : List KeyedAccount} {s s' : Accounts}
    (h : processInstruction rt.toRuntime slot ix ks s = .ok s') : KeepsTotal s s' := by
  cases ix with
  | initializeBuffer =>
    obtain ⟨buffer, authority, data, -, -, -, -, rfl⟩ := initializeBuffer_effect h
    exact keepsTotal_of_eq (lamportsOf_setData s buffer.key data)
  | write offset bytes =>
    obtain ⟨buffer, authority, -, -, -, -, -, rfl⟩ := write_effect h
    exact keepsTotal_of_eq (lamportsOf_setData s buffer.key _)
  | deployWithMaxDataLen maxDataLen => exact keepsTotal_deploy hrt h
  | upgrade => exact keepsTotal_upgrade h
  | setAuthority => exact keepsTotal_setAuthority h
  | close => exact keepsTotal_close h
  | extendProgram n => cases h
  | setAuthorityChecked => cases h

theorem keepsTotal_processLoaderInstruction {programId : Pubkey} {ks : List KeyedAccount}
    {data : List UInt8} {ctx ctx' : InvokeContext}
    (h : processLoaderInstruction rt programId ks data ctx = .ok ctx') :
    KeepsTotal ctx.accounts ctx'.accounts := by
  simp only [processLoaderInstruction, do_ok_iff, exists_unit] at h
  obtain ⟨program, -, -, ix, -, h⟩ := h
  cases ix with
  | write offset bytes =>
    simp only [do_ok_iff, exists_unit, Except.ok.injEq] at h
    obtain ⟨-, s, hw, rfl⟩ := h
    exact keepsTotal_of_eq (lamportsOf_writeProgramData hw)
  | finalize =>
    simp only [do_ok_iff, exists_unit, Except.ok.injEq] at h
    obtain ⟨-, executor, -, rfl⟩ := h
    exact keepsTotal_of_eq (lamportsOf_setExecutable ctx.accounts program.key)

theorem keepsTotal_processInstructionCommon (hrt : rt.Lawful) {slot : UInt64}
    {programId : Pubkey} {first : ℕ} {ks : List KeyedAccount} {data : List UInt8}
    {ctx ctx' : InvokeContext} {invocation : Option Invocation}
    (h : processInstructionCommon rt slot programId first ks data ctx = .ok (ctx', invocation)) :
    KeepsTotal ctx.accounts ctx'.accounts := by
  obtain ⟨program, next, -, ⟨-, i, -, hrun⟩ | ⟨-, -, ⟨-, hup⟩ | ⟨-, hold⟩⟩⟩ :=
    processInstructionCommon_cases h
  · obtain ⟨-, -, -, -, -, hsame, -⟩ := runProgram_eq_ok hrun
    rw [hsame]
    exact KeepsTotal.refl _
  · simp only [processUpgradeable, do_ok_iff, Except.ok.injEq] at hup
    obtain ⟨ix, -, s, hp, rfl⟩ := hup
    rw [install_accounts]
    exact keepsTotal_processInstruction hrt hp
  · exact keepsTotal_processLoaderInstruction hold

theorem keepsTotal_purge (s : Accounts) (k : Pubkey) : KeepsTotal s (purge rt s k) := by
  apply keepsTotal_of_eq
  funext j
  rcases purge_cases rt s k j with h | ⟨hzero, h⟩
  · rw [lamportsOf, h]
    rfl
  · rw [lamportsOf, h]
    exact hzero.symm

theorem keepsTotal_step (hrt : rt.Lawful) (ctx : InvokeContext) (e : ClusterEvent System) :
    KeepsTotal ctx.accounts (ctx.step rt e).accounts := by
  obtain h | ⟨signers, c, s, -, hc, h⟩ | ⟨signers, ix, s, -, hs, h⟩ |
    ⟨slot, programId, first, ks, data, invocation, -, h, -⟩ | ⟨k, -, h⟩ | ⟨programId, -, h⟩ :=
    step_cases rt ctx e
  · rw [h]
    exact KeepsTotal.refl _
  · rw [h]
    exact fun n hn => hrt.createAccount_total hc hn
  · rw [h]
    exact fun n hn => hrt.system_total hs hn
  · exact keepsTotal_processInstructionCommon hrt h
  · rw [h]
    exact keepsTotal_purge ctx.accounts k
  · rw [h]
    exact KeepsTotal.refl _

/-! While all lamports there are fit 64 bits, the additions of the loader do not overflow. -/

section Overflow
variable {s : Accounts} {n : ℕ}

theorem drain_no_overflow (hs : Total (lamportsOf s) n) (hn : n < 2 ^ 64)
    (recipient source : Pubkey) : drain s recipient source ≠ .error .arithmeticOverflow := by
  intro h
  simp only [drain, checkedAddLamports, do_error_iff, exists_unit, reject_eq_ok,
    reject_eq_error, reduceCtorEq, and_false, or_false, false_or, exists_false] at h
  obtain ⟨hne, hover⟩ := h
  have hle := hs.add_le hne
  simp only [lamportsOf] at hle
  omega

theorem setState_error {s : Accounts} {k : Pubkey} {st : UpgradeableLoaderState}
    {e : InstructionError} (h : setState s k st = .error e) : e = .accountDataTooSmall := by
  simp only [setState, do_error_iff, demand_eq_error, reduceCtorEq, and_false, exists_false,
    or_false] at h
  exact h.2.symm

theorem writeProgramData_error {s : Accounts} {k : Pubkey} {off : ℕ} {bytes : List UInt8}
    {e : InstructionError} (h : writeProgramData s k off bytes = .error e) :
    e = .accountDataTooSmall := by
  simp only [writeProgramData, do_error_iff, reject_eq_error, reduceCtorEq, and_false,
    exists_false, or_false] at h
  exact h.2.symm

theorem commonCloseAccount_no_overflow (hs : Total (lamportsOf s) n) (hn : n < 2 ^ 64)
    (a : Option Pubkey) (authority : KeyedAccount) (closeAccount recipientAccount : Pubkey) :
    commonCloseAccount a authority closeAccount recipientAccount s ≠
      .error .arithmeticOverflow := by
  intro h
  simp only [commonCloseAccount, requireAuthority, do_error_iff, exists_unit, reject_eq_error,
    reduceCtorEq, and_false, false_or] at h
  obtain ⟨-, hdrain | ⟨s₁, -, hset⟩⟩ := h
  · exact drain_no_overflow hs hn _ _ hdrain
  · cases setState_error hset

theorem close_no_overflow (hs : Total (lamportsOf s) n) (hn : n < 2 ^ 64)
    (ks : List KeyedAccount) : close rt.toRuntime ks s ≠ .error .arithmeticOverflow := by
  intro h
  simp only [close, keyedAccountAtIndex, state, do_error_iff, exists_unit, reject_eq_error,
    demand_eq_error, reduceCtorEq, and_false, false_or] at h
  obtain ⟨closeAccount, -, recipientAccount, -, -, st, -, h⟩ := h
  cases st with
  | uninitialized => exact drain_no_overflow hs hn _ _ h
  | buffer a =>
    simp only [do_error_iff, demand_eq_error, reduceCtorEq, and_false, false_or] at h
    obtain ⟨authority, -, h⟩ := h
    exact commonCloseAccount_no_overflow hs hn _ _ _ _ h
  | program pd => cases h
  | programData slot a =>
    simp only [do_error_iff, exists_unit, demand_eq_error, reject_eq_error, reduceCtorEq,
      and_false, false_or] at h
    obtain ⟨programAccount, -, -, -, pst, -, pda, -, -, authority, -, h⟩ := h
    exact commonCloseAccount_no_overflow hs hn _ _ _ _ h

/-- What is spilled comes from the two other accounts. -/
theorem upgrade_no_overflow (hs : Total (lamportsOf s) n) (hn : n < 2 ^ 64)
    (hexec : ∀ bytes, rt.createExecutor bytes ≠ .error .arithmeticOverflow) (slot : UInt64)
    (ks : List KeyedAccount) : upgrade rt.toRuntime slot ks s ≠ .error .arithmeticOverflow := by
  intro h
  simp only [upgrade, keyedAccountAtIndex, state, fromKeyedAccount, requireBufferAuthority,
    requireAuthority, checkedAddLamports, do_error_iff, exists_unit, reject_eq_error,
    demand_eq_error, hexec, reduceCtorEq, and_false, false_or, or_false, exists_false] at h
  obtain ⟨programdata, -, program, -, buffer, -, rentAccount, -, -, clockAccount, -, -,
    authority, -, -, -, -, pst, -, pda, -, -, bst, hbst, a, ha, -, -, -, hfunds, dst, hdst, a',
    ha', -, -, spill, -, hset | ⟨s₁, h₁, hwrite | ⟨s₂, h₂, hspill, hover⟩⟩⟩ := h
  · cases setState_error hset
  · cases writeProgramData_error hwrite
  · simp only [reject_eq_ok, demand_eq_ok, asBuffer_eq_some, asProgramData_eq_some, not_or,
      Nat.not_lt] at hbst ha hdst ha' hspill hfunds
    obtain ⟨slot', rfl⟩ := ha'
    obtain rfl := ha
    have hne : programdata.key ≠ buffer.key := by
      intro he
      rw [he, hbst] at hdst
      cases hdst
    have hsame : lamportsOf s₂ = lamportsOf s := by
      rw [lamportsOf_writeProgramData h₂, lamportsOf_setState h₁]
    have hkept : (s₂ spill.key).lamports = (s spill.key).lamports := congrFun hsame spill.key
    have hle := hs.add_add_le hspill.1 hspill.2 hne
    simp only [lamportsOf] at hle
    omega

end Overflow

/-- Whatever is submitted, by whom and in which order, the accounts together hold what they held
at the start. So neither closing an account nor an upgrade ever fails because of an overflow. -/
theorem lamports_conserved (hrt : rt.Lawful)
    (hexec : ∀ bytes, rt.createExecutor bytes ≠ .error .arithmeticOverflow) {n : ℕ}
    (hn : n < 2 ^ 64) {ctx : InvokeContext} (hctx : Total (lamportsOf ctx.accounts) n)
    (es : List (ClusterEvent System)) :
    EveryState (InvokeContext.step rt) (fun ctx => Total (lamportsOf ctx.accounts) n ∧
      ∀ slot ks, close rt.toRuntime ks ctx.accounts ≠ .error .arithmeticOverflow ∧
        upgrade rt.toRuntime slot ks ctx.accounts ≠ .error .arithmeticOverflow) ctx es := by
  have hrun : EveryState (InvokeContext.step rt) (fun ctx => Total (lamportsOf ctx.accounts) n)
      ctx es :=
    everyState_of_all (fun ctx e h => keepsTotal_step hrt ctx e n h) es hctx
  apply hrun.mono
  intro ctx h
  exact ⟨h, fun slot ks => ⟨close_no_overflow h hn ks, upgrade_no_overflow h hn hexec slot ks⟩⟩

open TestValidator TestCluster in
theorem lamports_conserved_transfers :
    EveryState (InvokeContext.step cluster) (fun ctx => Total (lamportsOf ctx.accounts) 1000000 ∧
      ∀ slot ks, close cluster.toRuntime ks ctx.accounts ≠ .error .arithmeticOverflow ∧
        upgrade cluster.toRuntime slot ks ctx.accounts ≠ .error .arithmeticOverflow)
      ⟨genesis, fun _ => none⟩
      [.system [Pubkey.filled 1] ⟨Pubkey.filled 1, Pubkey.filled 8, 300⟩,
        .createAccount [Pubkey.filled 1, Pubkey.filled 9]
          ⟨Pubkey.filled 1, Pubkey.filled 9, 500, 40, Pubkey.filled 2⟩,
        .bpf 1 (Pubkey.filled 2) 0 [⟨Pubkey.filled 9, false, true⟩, ⟨Pubkey.filled 8, false, true⟩]
          [5, 0, 0, 0]] := by
  apply lamports_conserved cluster_lawful _ (by decide) genesis_total
  intro bytes h
  simp only [cluster, runtime, TestValidator.createExecutor, reject_eq_error, reduceCtorEq,
    and_false] at h

end SolanaSample.Loader
