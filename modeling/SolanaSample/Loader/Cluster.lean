import SolanaSample.Loader.Dispatch

/-! The accounts and executors under instructions of any parties, in any order. -/
namespace SolanaSample.Loader
open Rejection EventRun

variable {System : Type} (rt : BpfRuntime System)

inductive ClusterEvent (System : Type) where
  | createAccount (signers : List Pubkey) (c : CreateAccount)
  /-- An instruction of the system program, or of another program that is not a loader, unless
  it is one with which a program changes an account without data that it owns. -/
  | system (signers : List Pubkey) (ix : System)
  /-- An instruction of a loader, or the call of a program that a loader runs. -/
  | bpf (slot : UInt64) (programId : Pubkey) (first : ℕ) (ks : List KeyedAccount)
      (data : List UInt8)
  /-- The runtime drops an account that has no lamports. -/
  | purge (k : Pubkey)
  /-- The runtime forgets an executor. -/
  | evict (programId : Pubkey)

/-- Who signed. -/
def ClusterEvent.signers : ClusterEvent System → List Pubkey
  | createAccount signers _ => signers
  | system signers _ => signers
  | bpf _ _ _ ks _ => signerKeys ks
  | purge _ => []
  | evict _ => []

def purge (s : Accounts) (k : Pubkey) : Accounts :=
  if (s k).lamports = 0 then Function.update s k ⟨0, [], rt.systemId, false⟩ else s

def InvokeContext.evict (ctx : InvokeContext) (programId : Pubkey) : InvokeContext :=
  { ctx with executors := Function.update ctx.executors programId none }

def submit (ctx : InvokeContext) : ClusterEvent System → Except InstructionError InvokeContext
  | .createAccount signers c => do
    let s ← rt.createAccount signers c ctx.accounts
    .ok { ctx with accounts := s }
  | .system signers ix => do
    let s ← rt.system signers ix ctx.accounts
    .ok { ctx with accounts := s }
  | .bpf slot programId first ks data => do
    let r ← processInstructionCommon rt slot programId first ks data ctx
    reject (rt.verifyProgram programId ks ctx.accounts r.1.accounts = false) (.external 0)
    .ok r.1
  | .purge k => .ok { ctx with accounts := purge rt ctx.accounts k }
  | .evict programId => .ok (ctx.evict programId)

/-- An instruction that fails leaves everything as it was. -/
def InvokeContext.step (ctx : InvokeContext) (e : ClusterEvent System) : InvokeContext :=
  orStay ctx (submit rt ctx e)

/-- The accounts an instruction of a loader refers to. -/
def ClusterEvent.keys : ClusterEvent System → List Pubkey
  | bpf _ _ _ ks _ => ks.map (·.key)
  | _ => []

variable {rt}

/-- What one event can have done. -/
theorem step_cases (rt : BpfRuntime System) (ctx : InvokeContext) (e : ClusterEvent System) :
    ctx.step rt e = ctx ∨
    (∃ signers c s, e = .createAccount signers c ∧
      rt.createAccount signers c ctx.accounts = .ok s ∧
      ctx.step rt e = { ctx with accounts := s }) ∨
    (∃ signers ix s, e = .system signers ix ∧ rt.system signers ix ctx.accounts = .ok s ∧
      ctx.step rt e = { ctx with accounts := s }) ∨
    (∃ slot programId first ks data invocation, e = .bpf slot programId first ks data ∧
      processInstructionCommon rt slot programId first ks data ctx =
        .ok (ctx.step rt e, invocation) ∧
      rt.verifyProgram programId ks ctx.accounts (ctx.step rt e).accounts = true) ∨
    (∃ k, e = .purge k ∧ ctx.step rt e = { ctx with accounts := purge rt ctx.accounts k }) ∨
    ∃ programId, e = .evict programId ∧ ctx.step rt e = ctx.evict programId := by
  cases h : submit rt ctx e with
  | error err =>
    left
    rw [InvokeContext.step, h, orStay_error]
  | ok ctx' =>
    have hstep : ctx.step rt e = ctx' := by rw [InvokeContext.step, h, orStay_ok]
    rw [hstep]
    right
    cases e with
    | createAccount signers c =>
      simp only [submit, do_ok_iff, Except.ok.injEq] at h
      obtain ⟨s, hs, rfl⟩ := h
      exact .inl ⟨signers, c, s, rfl, hs, rfl⟩
    | system signers ix =>
      simp only [submit, do_ok_iff, Except.ok.injEq] at h
      obtain ⟨s, hs, rfl⟩ := h
      exact .inr (.inl ⟨signers, ix, s, rfl, hs, rfl⟩)
    | bpf slot programId first ks data =>
      simp only [submit, do_ok_iff, reject_eq_ok, exists_unit, Except.ok.injEq,
        Bool.not_eq_false] at h
      obtain ⟨⟨ctx₁, invocation⟩, hp, hverify, rfl⟩ := h
      exact .inr (.inr (.inl ⟨slot, programId, first, ks, data, invocation, rfl, hp, hverify⟩))
    | purge k => exact .inr (.inr (.inr (.inl ⟨k, rfl, (Except.ok.inj h).symm⟩)))
    | evict programId =>
      exact .inr (.inr (.inr (.inr ⟨programId, rfl, (Except.ok.inj h).symm⟩)))

theorem evict_executors {ctx : InvokeContext} {programId k : Pubkey} {executor : List UInt8}
    (h : (ctx.evict programId).executors k = some executor) :
    ctx.executors k = some executor := by
  rw [InvokeContext.evict] at h
  by_cases hk : k = programId
  · simp [hk] at h
  · simpa [hk] using h

/-- An account that has lamports stays, and one that goes is empty. -/
theorem purge_cases (rt : BpfRuntime System) (s : Accounts) (k j : Pubkey) :
    purge rt s k j = s j ∨
      (s j).lamports = 0 ∧ purge rt s k j = ⟨0, [], rt.systemId, false⟩ := by
  unfold purge
  split_ifs with hzero
  · by_cases hj : j = k
    · subst hj
      exact .inr ⟨hzero, Function.update_self ..⟩
    · exact .inl (Function.update_of_ne hj _ _)
  · exact .inl rfl

/-- What an accepted instruction of a loader, or an accepted call of a program, has been: the
run of an executor, or the work of one of the loaders. -/
theorem processInstructionCommon_cases {slot : UInt64} {programId : Pubkey} {first : ℕ}
    {ks : List KeyedAccount} {data : List UInt8} {ctx ctx' : InvokeContext}
    {invocation : Option Invocation}
    (h : processInstructionCommon rt slot programId first ks data ctx = .ok (ctx', invocation)) :
    ∃ program next, selectProgram programId first ks ctx.accounts = .ok (program, next) ∧
      (((ctx.accounts program.key).executable = true ∧ ∃ i, invocation = some i ∧
        runProgram rt programId program.key first next ks data ctx = .ok (ctx', i)) ∨
      ((ctx.accounts program.key).executable = false ∧ invocation = none ∧
        (programId = rt.loaderId ∧
            processUpgradeable rt slot (ks.drop first) data ctx = .ok ctx' ∨
          (programId = rt.bpfLoaderId ∨ programId = rt.bpfLoaderDeprecatedId) ∧
            processLoaderInstruction rt programId (ks.drop first) data ctx = .ok ctx'))) := by
  simp only [processInstructionCommon, do_ok_iff] at h
  obtain ⟨⟨program, next⟩, hselect, h⟩ := h
  refine ⟨program, next, hselect, ?_⟩
  split_ifs at h with hexec hloader hold
  · obtain ⟨⟨ctx₁, i⟩, hrun, h⟩ := do_ok_iff.mp h
    obtain ⟨rfl, rfl⟩ := Prod.mk.inj (Except.ok.inj h)
    exact .inl ⟨hexec, i, rfl, hrun⟩
  · obtain ⟨ctx₁, hp, h⟩ := do_ok_iff.mp h
    obtain ⟨rfl, rfl⟩ := Prod.mk.inj (Except.ok.inj h)
    exact .inr ⟨Bool.eq_false_iff.mpr hexec, rfl, .inl ⟨hloader, hp⟩⟩
  · obtain ⟨ctx₁, hp, h⟩ := do_ok_iff.mp h
    obtain ⟨rfl, rfl⟩ := Prod.mk.inj (Except.ok.inj h)
    exact .inr ⟨Bool.eq_false_iff.mpr hexec, rfl, .inr ⟨hold, hp⟩⟩

/-- Running a program changes no account: what the program does comes as its own event. -/
theorem runProgram_eq_ok {programId program : Pubkey} {first next : ℕ} {ks : List KeyedAccount}
    {data : List UInt8} {ctx ctx' : InvokeContext} {i : Invocation}
    (h : runProgram rt programId program first next ks data ctx = .ok (ctx', i)) :
    ∃ firstAccount offset, ks[first]? = some firstAccount ∧
      rt.CheckLoaderId (ctx.accounts program).owner ∧
      programDataOffset rt program firstAccount.key ctx.accounts = .ok offset ∧
      ctx'.accounts = ctx.accounts ∧
      ((ctx.executors programId = some i.executor ∧ ctx'.executors = ctx.executors) ∨
        (i.executor = (ctx.accounts firstAccount.key).data.drop offset ∧
          ctx'.executors = Function.update ctx.executors programId (some i.executor))) := by
  simp only [runProgram, do_ok_iff, exists_unit, reject_eq_ok, keyedAccountAtIndex_eq_ok,
    not_not, Except.ok.injEq, Prod.mk.injEq] at h
  obtain ⟨firstAccount, hfirst, hloader, offset, hoffset, ⟨ctx₁, executor⟩, hget, rfl, rfl⟩ := h
  refine ⟨firstAccount, offset, hfirst, hloader, hoffset, ?_⟩
  unfold getExecutor at hget
  split at hget
  · rename_i kept hkept
    obtain ⟨rfl, rfl⟩ := Prod.mk.inj (Except.ok.inj hget)
    exact ⟨rfl, .inl ⟨hkept, rfl⟩⟩
  · simp only [createExecutor, do_ok_iff, exists_unit, reject_eq_ok, Except.ok.injEq,
      Prod.mk.injEq] at hget
    obtain ⟨made, ⟨-, -, rfl⟩, rfl, rfl⟩ := hget
    exact ⟨rfl, .inr ⟨rfl, rfl⟩⟩

end SolanaSample.Loader
