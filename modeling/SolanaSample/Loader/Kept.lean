import SolanaSample.Loader.Executors

/-! Which accounts of the loaders stay as they are, whatever is submitted. -/
namespace SolanaSample.Loader
open PrefixCodec Rejection Splice UpgradeableLoaderState EventRun

variable {System : Type} {rt : BpfRuntime System} {ctx : InvokeContext} {k : Pubkey}

/-- Who may change an account of the upgradeable loader. -/
def authorityOf : UpgradeableLoaderState → Option Pubkey
  | .uninitialized => none
  | .buffer authorityAddress => authorityAddress
  | .program _ => none
  | .programData _ upgradeAuthorityAddress => upgradeAuthorityAddress

/-- An initialised account whose authority did not sign is kept by every instruction. -/
theorem unsigned_kept {ix : UpgradeableLoaderInstruction} {ks : List KeyedAccount}
    {s s' : Accounts} (h : Lifecycle rt ix ks s s' k) (hprotected : rt.Protected (s k).owner)
    {st : UpgradeableLoaderState} (hst : stateOf (s k).data = some st) (hinit : st ≠ .uninitialized)
    (ha : ∀ a ∈ signerKeys ks, authorityOf st ≠ some a) : OnlyCredited (s k) (s' k) := by
  have hclash : ∀ {st' a}, a ∈ signerKeys ks → stateOf (s k).data = some st' →
      authorityOf st' ≠ some a := by
    intro st' a hsigned hst'
    obtain rfl := Option.some.inj (hst.symm.trans hst')
    exact ha a hsigned
  have hstarted : stateOf (s k).data ≠ some .uninitialized := by
    intro hu
    exact hinit (Option.some.inj (hst.symm.trans hu))
  cases h with
  | kept account => exact account
  | foreign unprotected => exact absurd hprotected unprotected
  | drained contents before =>
    rcases before with hb | ⟨a, hsigned, hb⟩
    · exact absurd hb hstarted
    · exact absurd rfl (hclash hsigned hb)
  | buffer before =>
    rcases before with hb | ⟨a, hsigned, hb⟩
    · exact absurd hb hstarted
    · exact absurd rfl (hclash hsigned hb)
  | deployed maxDataLen instruction account before => exact absurd before hstarted
  | created maxDataLen program buffer a slot instruction programAccount bufferAccount signed
      derived programFresh bufferState before =>
    rw [before] at hst
    cases hst
  | upgraded program buffer a slot slot' instruction programAccount bufferAccount signed
      programState programOwner bufferState before => exact absurd rfl (hclash signed before)
  | authority slot a a' signed before => exact absurd rfl (hclash signed before)
  | closed slot a signed before => exact absurd rfl (hclash signed before)

/-- What is left of an event for an account of a loader that has lamports. -/
theorem step_protected (hrt : rt.Lawful) (hprotected : rt.Protected (ctx.accounts k).owner)
    (hfunded : 0 < (ctx.accounts k).lamports) (e : ClusterEvent System) :
    OnlyCredited (ctx.accounts k) ((ctx.step rt e).accounts k) ∨
      ∃ slot programId first ks data program next, e = .bpf slot programId first ks data ∧
        selectProgram programId first ks ctx.accounts = .ok (program, next) ∧
        (ctx.accounts program.key).executable = false ∧
        rt.verifyProgram programId ks ctx.accounts (ctx.step rt e).accounts = true ∧
        ((programId = rt.loaderId ∧ ∃ ix, processInstruction rt.toRuntime slot ix (ks.drop first)
            ctx.accounts = .ok (ctx.step rt e).accounts) ∨
          (programId = rt.bpfLoaderId ∨ programId = rt.bpfLoaderDeprecatedId) ∧
            processLoaderInstruction rt programId (ks.drop first) data ctx =
              .ok (ctx.step rt e)) := by
  obtain h | ⟨signers, c, s, -, hc, h⟩ | ⟨signers, ix, s, -, hs, h⟩ |
    ⟨slot, programId, first, ks, data, invocation, rfl, h, hverify⟩ | ⟨j, -, h⟩ |
    ⟨programId, -, h⟩ := step_cases rt ctx e
  · rw [h]
    exact .inl (OnlyCredited.refl _)
  · rw [h]
    exact .inl (hrt.createAccount_credits hc k hprotected)
  · rw [h]
    exact .inl (hrt.system_credits hs k hprotected)
  · generalize ctx.step rt (.bpf slot programId first ks data) = ctx' at h hverify ⊢
    obtain ⟨program, next, hselect, ⟨-, i, -, hrun⟩ | ⟨hexec, -, hloader⟩⟩ :=
      processInstructionCommon_cases h
    · obtain ⟨-, -, -, -, -, hsame, -⟩ := runProgram_eq_ok hrun
      rw [hsame]
      exact .inl (OnlyCredited.refl _)
    · refine .inr
        ⟨slot, programId, first, ks, data, program, next, rfl, hselect, hexec, hverify, ?_⟩
      rcases hloader with ⟨hid, hup⟩ | ⟨hid, hold⟩
      · simp only [processUpgradeable, do_ok_iff, Except.ok.injEq] at hup
        obtain ⟨ix, -, s', hp, rfl⟩ := hup
        rw [install_accounts]
        exact .inl ⟨hid, ix, hp⟩
      · exact .inr ⟨hid, hold⟩
  · rw [h]
    rcases purge_cases rt ctx.accounts j k with hkept | ⟨hzero, -⟩
    · exact .inl (hkept ▸ OnlyCredited.refl _)
    · omega
  · rw [h]
    exact .inl (OnlyCredited.refl _)

/-- The older loaders change the account that comes first, which signed and is theirs. -/
theorem processLoaderInstruction_changes {programId : Pubkey} {ks : List KeyedAccount}
    {data : List UInt8} {ctx' : InvokeContext}
    (h : processLoaderInstruction rt programId ks data ctx = .ok ctx') :
    ∃ program, ks[0]? = some program ∧ program.isSigner = true ∧
      (ctx.accounts program.key).owner = programId ∧
      ∀ j ≠ program.key, ctx'.accounts j = ctx.accounts j := by
  simp only [processLoaderInstruction, do_ok_iff, exists_unit, reject_eq_ok,
    keyedAccountAtIndex_eq_ok, ne_eq, not_not] at h
  obtain ⟨program, hk₀, howned, ix, -, h⟩ := h
  cases ix with
  | write offset bytes =>
    simp only [do_ok_iff, exists_unit, reject_eq_ok, Bool.not_eq_false, writeProgramData_eq_ok,
      Except.ok.injEq] at h
    obtain ⟨hsigned, s, ⟨-, rfl⟩, rfl⟩ := h
    exact ⟨program, hk₀, hsigned, howned, fun j hj => Function.update_of_ne hj _ _⟩
  | finalize =>
    simp only [do_ok_iff, exists_unit, reject_eq_ok, Bool.not_eq_false, Except.ok.injEq] at h
    obtain ⟨hsigned, executor, -, rfl⟩ := h
    exact ⟨program, hk₀, hsigned, howned, fun j hj => Function.update_of_ne hj _ _⟩

theorem processLoaderInstruction_other {programId : Pubkey} {ks : List KeyedAccount}
    {data : List UInt8} {ctx' : InvokeContext}
    (h : processLoaderInstruction rt programId ks data ctx = .ok ctx')
    (hk : (ctx.accounts k).owner ≠ programId) : ctx'.accounts k = ctx.accounts k := by
  obtain ⟨program, -, -, howned, hother⟩ := processLoaderInstruction_changes h
  apply hother
  intro he
  rw [he] at hk
  exact hk howned

/-- An account of the upgradeable loader that is initialised is as it was, but for lamports that
come in, in every state of every run that its authority does not sign in. A program account has
no authority, and a final program has none either. -/
theorem unsigned_account_kept (hrt : rt.Lawful) {st : UpgradeableLoaderState}
    (howner : (ctx.accounts k).owner = rt.loaderId)
    (hst : stateOf (ctx.accounts k).data = some st) (hinit : st ≠ .uninitialized)
    (hfunded : 0 < (ctx.accounts k).lamports) {es : List (ClusterEvent System)}
    (hes : ∀ e ∈ es, ∀ a ∈ e.signers, authorityOf st ≠ some a) :
    EveryState (InvokeContext.step rt)
      (fun ctx' => OnlyCredited (ctx.accounts k) (ctx'.accounts k)) ctx es := by
  have hstep : ∀ c e, OnlyCredited (ctx.accounts k) (c.accounts k) →
      (∀ a ∈ ClusterEvent.signers e, authorityOf st ≠ some a) →
      OnlyCredited (ctx.accounts k) ((InvokeContext.step rt c e).accounts k) := by
    intro c e hc ha
    apply hc.trans
    have howner' : (c.accounts k).owner = rt.loaderId := hc.owner.trans howner
    have hst' : stateOf (c.accounts k).data = some st := by rw [hc.data]; exact hst
    obtain h | ⟨slot, programId, first, ks, data, program, next, rfl, -, -, -,
      ⟨-, ix, hp⟩ | ⟨hold, hp⟩⟩ :=
      step_protected hrt (protected_of_owner howner') (hfunded.trans_le hc.lamports) e
    · exact h
    · apply unsigned_kept (processInstruction_lifecycle hrt hp k) (protected_of_owner howner') hst'
        hinit
      intro a hsigned
      exact ha a (signerKeys_drop ks first a hsigned)
    · have hne : (c.accounts k).owner ≠ programId := by
        rw [howner']
        exact (old_ne_loaderId hrt hold).symm
      rw [processLoaderInstruction_other hp hne]
      exact OnlyCredited.refl _
  exact everyState_of_step hstep (OnlyCredited.refl _) (everyStep_of_forall hes)

open TestCluster

theorem released_state :
    stateOf (released.accounts (dataAddress (Pubkey.filled 9))).data =
      some (.programData 0 (some (Pubkey.filled 1))) := by
  decide +kernel

theorem unsigned_account_kept_intrusion :
    EveryState (InvokeContext.step cluster) (fun ctx' =>
      OnlyCredited (released.accounts (dataAddress (Pubkey.filled 9)))
        (ctx'.accounts (dataAddress (Pubkey.filled 9)))) released intrusion :=
  unsigned_account_kept cluster_lawful (by decide +kernel) released_state (by decide)
    (by decide +kernel) fun e he => (intrusion_respects e he).2

/-! The older loaders. -/

/-- The loaders themselves are programs of the native loader. -/
def Builtins (rt : BpfRuntime System) (s : Accounts) : Prop :=
  ∀ id, rt.CheckLoaderId id → (s id).owner = rt.nativeLoaderId ∧ (s id).executable = true ∧
    0 < (s id).lamports ∧ (s id).data ≠ []

/-- An account of another loader passes through an instruction of the upgradeable loader, because
of the check that is made afterwards. -/
theorem foreign_kept (hrt : rt.Lawful) {ix : UpgradeableLoaderInstruction}
    {ks ks' : List KeyedAccount} {s s' : Accounts} (h : Lifecycle rt ix ks s s' k)
    (hks : ∀ account ∈ ks, account ∈ ks')
    (hverify : rt.verifyProgram rt.loaderId ks' s s' = true)
    (hprotected : rt.Protected (s k).owner) (howner : (s k).owner ≠ rt.loaderId)
    (hdata : (s k).data ≠ []) : OnlyCredited (s k) (s' k) := by
  have hverified : (∃ account ∈ ks, account.key = k) →
      (s' k).data = (s k).data ∧ (s k).lamports ≤ (s' k).lamports := by
    rintro ⟨account, hmem, rfl⟩
    exact hrt.verifyProgram_foreign hverify account (hks account hmem) hdata howner
  cases h with
  | kept account => exact account
  | foreign unprotected => exact absurd hprotected unprotected
  | drained contents before member => exact ⟨contents, (hverified member).2⟩
  | buffer before after owner executable member =>
    obtain ⟨hsame, hle⟩ := hverified member
    exact ⟨⟨hsame, owner, executable⟩, hle⟩
  | deployed maxDataLen instruction account before after =>
    obtain ⟨hsame, -⟩ := hverified (mem_of_key account)
    rw [hsame, before] at after
    cases after
  | created maxDataLen program buffer a slot instruction programAccount bufferAccount signed
      derived programFresh bufferState before => exact absurd before hdata
  | upgraded program buffer a slot slot' instruction programAccount bufferAccount signed
      programState programOwner bufferState before after code owner executable lamports member =>
    obtain ⟨hsame, hle⟩ := hverified member
    exact ⟨⟨hsame, owner, executable⟩, hle⟩
  | authority slot a a' signed before after code owner executable lamports member =>
    obtain ⟨hsame, hle⟩ := hverified member
    exact ⟨⟨hsame, owner, executable⟩, hle⟩
  | closed slot a signed before after owner executable member =>
    obtain ⟨hsame, hle⟩ := hverified member
    exact ⟨⟨hsame, owner, executable⟩, hle⟩

/-- What a loader that is a program itself works on is the first account, which does not run. -/
theorem selectProgram_loader {programId : Pubkey} {first next : ℕ} {ks : List KeyedAccount}
    {s : Accounts} {program : KeyedAccount}
    (h : selectProgram programId first ks s = .ok (program, next))
    (hloader : (s programId).executable = true)
    (hexec : (s program.key).executable = false) : ks[first]? = some program := by
  simp only [selectProgram, do_ok_iff, keyedAccountAtIndex_eq_ok] at h
  obtain ⟨firstAccount, hfirst, h⟩ := h
  split_ifs at h with hkey
  · obtain ⟨rfl, -⟩ := Prod.mk.inj (Except.ok.inj h)
    exact hfirst
  · split at h
    · rename_i second hsecond
      obtain ⟨rfl, -⟩ := Prod.mk.inj (Except.ok.inj h)
      have hid : second.key = programId := by
        simpa using (Option.filter_eq_some_iff.mp hsecond).2
      rw [hid, hloader] at hexec
      cases hexec
    · simp only [do_ok_iff, exists_unit, reject_eq_ok, Except.ok.injEq, Prod.mk.injEq] at h
      obtain ⟨-, rfl, -⟩ := h
      exact hfirst

theorem native_ne_loader (hrt : rt.Lawful) {id : Pubkey} (hid : rt.CheckLoaderId id) :
    rt.nativeLoaderId ≠ id := by
  intro he
  rw [← he] at hid
  exact hrt.native_not_loader hid

theorem checkLoaderId_old {programId : Pubkey}
    (hold : programId = rt.bpfLoaderId ∨ programId = rt.bpfLoaderDeprecatedId) :
    rt.CheckLoaderId programId := by
  rcases hold with h | h
  · exact .inl h
  · exact .inr (.inl h)

theorem mem_of_mem_drop {ks : List KeyedAccount} {n : ℕ} :
    ∀ account ∈ ks.drop n, account ∈ ks := fun _ => List.mem_of_mem_drop

/-- Nobody changes the loaders. -/
theorem builtins_step (hrt : rt.Lawful) (h : Builtins rt ctx.accounts) (e : ClusterEvent System) :
    Builtins rt (ctx.step rt e).accounts := by
  intro id hid
  obtain ⟨howner, hexec, hfunded, hdata⟩ := h id hid
  have hprotected : rt.Protected (ctx.accounts id).owner := .inr howner
  have hkept : OnlyCredited (ctx.accounts id) ((ctx.step rt e).accounts id) := by
    obtain h | ⟨slot, programId, first, ks, data, program, next, rfl, -, -, hverify,
      ⟨rfl, ix, hp⟩ | ⟨hold, hp⟩⟩ := step_protected hrt hprotected hfunded e
    · exact h
    · apply foreign_kept hrt (processInstruction_lifecycle hrt hp id) mem_of_mem_drop hverify
        hprotected _ hdata
      rw [howner]
      exact native_ne_loader hrt (.inr (.inr rfl))
    · have hne : (ctx.accounts id).owner ≠ programId := by
        rw [howner]
        exact native_ne_loader hrt (checkLoaderId_old hold)
      rw [processLoaderInstruction_other hp hne]
      exact OnlyCredited.refl _
  refine ⟨hkept.owner.trans howner, hkept.executable.trans hexec,
    hfunded.trans_le hkept.lamports, ?_⟩
  rw [hkept.data]
  exact hdata

/-- The account of an older loader is as it was, but for lamports that come in, in every state of
every run that it does not sign in itself, and once it is finalized in every run. -/
theorem finalized_program_kept (hrt : rt.Lawful) (hbuiltins : Builtins rt ctx.accounts)
    (howner : (ctx.accounts k).owner = rt.bpfLoaderId ∨
      (ctx.accounts k).owner = rt.bpfLoaderDeprecatedId)
    (hdata : (ctx.accounts k).data ≠ []) (hfunded : 0 < (ctx.accounts k).lamports)
    {es : List (ClusterEvent System)}
    (hes : (ctx.accounts k).executable = true ∨ ∀ e ∈ es, k ∉ e.signers) :
    EveryState (InvokeContext.step rt)
      (fun ctx' => OnlyCredited (ctx.accounts k) (ctx'.accounts k)) ctx es := by
  have hstep : ∀ c e, (Builtins rt c.accounts ∧ OnlyCredited (ctx.accounts k) (c.accounts k)) →
      ((ctx.accounts k).executable = true ∨ k ∉ ClusterEvent.signers e) →
      Builtins rt (InvokeContext.step rt c e).accounts ∧
        OnlyCredited (ctx.accounts k) ((InvokeContext.step rt c e).accounts k) := by
    rintro c e ⟨hb, hc⟩ he
    refine ⟨builtins_step hrt hb e, hc.trans ?_⟩
    have howner' := howner
    rw [← hc.owner] at howner'
    have hprotected : rt.Protected (c.accounts k).owner := .inl (checkLoaderId_old howner')
    have hdata' : (c.accounts k).data ≠ [] := by rw [hc.data]; exact hdata
    obtain h | ⟨slot, programId, first, ks, data, program, next, rfl, hselect, hexec, hverify,
      ⟨rfl, ix, hp⟩ | ⟨hold, hp⟩⟩ := step_protected hrt hprotected (hfunded.trans_le hc.lamports) e
    · exact h
    · exact foreign_kept hrt (processInstruction_lifecycle hrt hp k) mem_of_mem_drop hverify
        hprotected (old_ne_loaderId hrt howner') hdata'
    · -- The account that is changed has signed, and does not run yet.
      obtain ⟨changed, hfirst, hsigned, -, hother⟩ := processLoaderInstruction_changes hp
      have hloader := (hb programId (checkLoaderId_old hold)).2.1
      have hprogram := selectProgram_loader hselect hloader hexec
      rw [List.getElem?_drop, Nat.add_zero, hprogram] at hfirst
      obtain rfl := Option.some.inj hfirst
      have hne : k ≠ program.key := by
        rintro rfl
        rcases he with hfinal | hunsigned
        · rw [← hc.executable, hexec] at hfinal
          cases hfinal
        · exact hunsigned (mem_signerKeys hprogram hsigned)
      rw [hother k hne]
      exact OnlyCredited.refl _
  have hok : ∀ e ∈ es, (ctx.accounts k).executable = true ∨ k ∉ ClusterEvent.signers e := by
    intro e he
    rcases hes with hfinal | hunsigned
    · exact .inl hfinal
    · exact .inr (hunsigned e he)
  have hrun := everyState_of_step hstep ⟨hbuiltins, OnlyCredited.refl _⟩ (everyStep_of_forall hok)
  exact hrun.mono fun _ h => h.2

/-- The loaders and a finalized program. -/
def finalized : InvokeContext where
  accounts k :=
    if cluster.CheckLoaderId k then ⟨1, [1], cluster.nativeLoaderId, true⟩
    else if k = Pubkey.filled 20 then
      ⟨5000000, [0x7f, 0x45, 0x4c, 0x46], cluster.bpfLoaderId, true⟩
    else genesis k
  executors _ := none

theorem finalized_program_kept_overwrite :
    EveryState (InvokeContext.step cluster) (fun ctx' =>
        OnlyCredited (finalized.accounts (Pubkey.filled 20))
          (ctx'.accounts (Pubkey.filled 20))) finalized
      [.bpf 1 (Pubkey.filled 5) 0 [⟨Pubkey.filled 20, true, true⟩]
          (LoaderInstruction.codec.encode .finalize),
        .bpf 1 (Pubkey.filled 2) 0
          [⟨Pubkey.filled 20, true, true⟩, ⟨Pubkey.filled 13, true, false⟩] [0, 0, 0, 0]] := by
  apply finalized_program_kept cluster_lawful
  · intro id hid
    simp only [finalized, if_pos hid]
    decide
  · exact .inl (by decide +kernel)
  · decide +kernel
  · decide +kernel
  · exact .inl (by decide +kernel)

end SolanaSample.Loader
