import SolanaSample.Loader.Registered
import SolanaSample.Chain.TestCluster

/-! The loader keeps a registry of programs, and what is run for an entry is its code, whether
the executor was kept or made anew. -/
namespace SolanaSample.Loader
open PrefixCodec Rejection Splice UpgradeableLoaderState EventRun Registry

variable {System : Type} {rt : BpfRuntime System} {P : Pubkey} {ctx : InvokeContext}

/-- The executor that is kept for a program is of its code. -/
structure Coherent (rt : BpfRuntime System) (P : Pubkey) (ctx : InvokeContext) : Prop
    extends Linked rt P ctx.accounts where
  executor : ∀ {executor code a}, ctx.executors P = some executor →
    entryOf rt P ctx.accounts = .live code a → stripZeros executor = code

/-- Nobody but the loader signs for the address of the program's data, and no other address
that is referred to leads to the same. -/
structure ClusterEvent.Respects (rt : BpfRuntime System) (P : Pubkey)
    (e : ClusterEvent System) : Prop where
  unsigned : rt.findProgramAddress P ∉ e.signers
  distinct : ∀ k ∈ e.keys, rt.findProgramAddress k = rt.findProgramAddress P → k = P

theorem coherent_of_fresh (h : ∀ k, (ctx.accounts k).owner ≠ rt.loaderId)
    (hdata : (ctx.accounts (rt.findProgramAddress P)).data = []) : Coherent rt P ctx where
  toLinked := linked_of_fresh h hdata
  executor _ hlive := by
    rw [entryOf, if_neg fun hp => h P hp.1] at hlive
    cases hlive

theorem isProgram_of_live {s : Accounts} {code : List UInt8} {a : Option Pubkey}
    (h : entryOf rt P s = .live code a) : IsProgram rt P s := by
  by_contra hn
  rw [entryOf, if_neg hn] at h
  cases h

theorem isProgram_of_closed {s : Accounts} (h : entryOf rt P s = .closed) :
    IsProgram rt P s := by
  by_contra hn
  rw [entryOf, if_neg hn] at h
  cases h

theorem Coherent.of_quiet {ctx' : InvokeContext} (h : Coherent rt P ctx)
    (hq : Quiet rt P ctx.accounts ctx'.accounts)
    (hexec : ∀ e, IsProgram rt P ctx.accounts → ctx'.executors P = some e →
      ctx.executors P = some e) : Coherent rt P ctx' where
  toLinked := hq.linked h.toLinked
  executor {e code a} he hlive := by
    rw [hq.entryOf_eq] at hlive
    exact h.executor (hexec e (isProgram_of_live hlive) he) hlive

/-- A program that is executable is the one that was called. -/
theorem selectProgram_executable {programId : Pubkey} {first next : ℕ} {ks : List KeyedAccount}
    {s : Accounts} {program : KeyedAccount}
    (h : selectProgram programId first ks s = .ok (program, next))
    (hexec : (s program.key).executable = true) : program.key = programId := by
  simp only [selectProgram, do_ok_iff] at h
  obtain ⟨firstAccount, -, h⟩ := h
  split_ifs at h with hfirst
  · obtain ⟨rfl, -⟩ := Prod.mk.inj (Except.ok.inj h)
    exact hfirst
  · split at h
    · rename_i second hsecond
      obtain ⟨rfl, -⟩ := Prod.mk.inj (Except.ok.inj h)
      simpa using (Option.filter_eq_some_iff.mp hsecond).2
    · simp only [do_ok_iff, exists_unit, reject_eq_ok, Except.ok.injEq, Prod.mk.injEq] at h
      obtain ⟨hnot, rfl, -⟩ := h
      exact absurd hexec hnot

theorem programDataOffset_eq_ok {program firstAccount : Pubkey} {s : Accounts} {offset : ℕ}
    (h : programDataOffset rt program firstAccount s = .ok offset)
    (howner : (s program).owner = rt.loaderId) :
    stateOf (s program).data = some (.program firstAccount) ∧
      (∃ slot a, stateOf (s firstAccount).data = some (.programData slot a)) ∧
      offset = programdataDataOffset := by
  rw [programDataOffset, if_pos howner] at h
  simp only [do_ok_iff, exists_unit, state_eq_ok, demand_eq_ok, reject_eq_ok, asProgram_eq_some,
    ne_eq, not_not, Except.ok.injEq] at h
  obtain ⟨st, hst, pd, rfl, rfl, fst, hfst, hdata, rfl⟩ := h
  refine ⟨hst, ?_, rfl⟩
  obtain ⟨a, ha⟩ := Option.ne_none_iff_exists'.mp hdata
  obtain ⟨slot, rfl⟩ := asProgramData_eq_some.mp ha
  exact ⟨slot, a, hfst⟩

/-- The run of a program of the upgradeable loader. -/
theorem runProgram_code {first next : ℕ} {ks : List KeyedAccount} {data : List UInt8}
    {ctx' : InvokeContext} {i : Invocation} (h : Coherent rt P ctx)
    (hp : IsProgram rt P ctx.accounts)
    (hrun : runProgram rt P P first next ks data ctx = .ok (ctx', i)) :
    ∃ a, entryOf rt P ctx.accounts = .live (stripZeros i.executor) a := by
  obtain ⟨firstAccount, offset, -, -, hoffset, -, hexec⟩ := runProgram_eq_ok hrun
  obtain ⟨hst, ⟨slot, a, hdata⟩, rfl⟩ := programDataOffset_eq_ok hoffset hp.1
  have hkey := h.own hp.1 hst
  rw [hkey] at hdata hexec
  have hlive : entryOf rt P ctx.accounts =
      .live (stripZeros (programCode (ctx.accounts (rt.findProgramAddress P)))) a := by
    rw [entryOf, if_pos hp, dataEntry_programData hdata]
  refine ⟨a, ?_⟩
  rcases hexec with ⟨hkept, -⟩ | ⟨hmade, -⟩
  · rw [h.executor hkept hlive]
    exact hlive
  · rw [hmade]
    exact hlive

theorem Coherent.runProgram (h : Coherent rt P ctx) {programId : Pubkey} {program : KeyedAccount}
    {first next : ℕ} {ks : List KeyedAccount} {data : List UInt8} {ctx' : InvokeContext}
    {i : Invocation} (hkey : program.key = programId)
    (hrun : runProgram rt programId program.key first next ks data ctx = .ok (ctx', i)) :
    Coherent rt P ctx' ∧ ctx'.accounts = ctx.accounts := by
  obtain ⟨firstAccount, offset, -, -, -, haccounts, hexec⟩ := runProgram_eq_ok hrun
  refine ⟨⟨by rw [haccounts]; exact h.toLinked, ?_⟩, haccounts⟩
  intro executor code a he hlive
  rw [haccounts] at hlive
  rcases hexec with ⟨-, hsame⟩ | ⟨-, hadded⟩
  · rw [hsame] at he
    exact h.executor he hlive
  by_cases hP : P = programId
  · subst hP
    rw [hadded, Function.update_self] at he
    obtain rfl := Option.some.inj he
    rw [hkey] at hrun
    obtain ⟨a', hcode⟩ := runProgram_code h (isProgram_of_live hlive) hrun
    rw [hlive] at hcode
    exact (Entry.live.inj hcode).1.symm
  · rw [hadded, Function.update_of_ne hP] at he
    exact h.executor he hlive

theorem install_executors (ctx : InvokeContext) (s : Accounts)
    (added : Option (Pubkey × List UInt8)) {executor : List UInt8}
    (h : (ctx.install s added).executors P = some executor) :
    added = some (P, executor) ∨
      (∀ e, added ≠ some (P, e)) ∧ ctx.executors P = some executor := by
  cases added with
  | none => exact .inr ⟨nofun, h⟩
  | some r =>
    obtain ⟨programId, e⟩ := r
    by_cases hP : P = programId
    · subst hP
      rw [InvokeContext.install, addExecutor_self] at h
      rw [Option.some.inj h]
      exact .inl rfl
    · rw [InvokeContext.install, addExecutor_of_ne _ _ hP] at h
      refine .inr ⟨?_, h⟩
      intro e' he
      exact hP (Prod.mk.inj (Option.some.inj he)).1.symm

/-- An instruction of the upgradeable loader that brings new code for the program brings its
executor, and the code of any other stays. -/
theorem Coherent.instruction (hrt : rt.Lawful) (h : Coherent rt P ctx) {slot : UInt64}
    {ix : UpgradeableLoaderInstruction} {ks : List KeyedAccount} {s' : Accounts}
    (hp : processInstruction rt.toRuntime slot ix ks ctx.accounts = .ok s')
    (hks : NoCollision rt P ix ks) :
    Coherent rt P (ctx.install s' (addedExecutor ix ks ctx.accounts)) := by
  have hlinked := linked_instruction hrt hp h.toLinked hks
  refine ⟨by rw [install_accounts]; exact hlinked, ?_⟩
  intro executor code a he hlive
  rw [install_accounts] at hlive
  rcases install_executors ctx s' _ he with hadded | ⟨hnone, hkept⟩
  · obtain ⟨pd, hpd, n, hcode⟩ := addedExecutor_code hrt hp hadded
    have hprogram := isProgram_of_live hlive
    have hkey : pd = rt.findProgramAddress P := by
      rcases hpd with hpd | ⟨howner, hst⟩
      · exact hpd.symm
      · exact h.own howner hst
    rw [entryOf, if_pos hprogram, ← hkey] at hlive
    rw [(dataEntry_live hlive).1, hcode, stripZeros_append]
  · rcases (entryOf_step hrt hp h.toLinked hks).code hlive with ⟨a', hbefore⟩ | ⟨e, hadded⟩
    · exact h.executor hkept hbefore
    · exact absurd hadded (hnone e)

theorem signerKeys_drop (ks : List KeyedAccount) (n : ℕ) :
    ∀ a ∈ signerKeys (ks.drop n), a ∈ signerKeys ks := by
  intro a ha
  obtain ⟨k, hk, rfl⟩ := List.mem_map.mp ha
  obtain ⟨hmem, hsig⟩ := List.mem_filter.mp hk
  exact List.mem_map.mpr ⟨k, List.mem_filter.mpr ⟨List.mem_of_mem_drop hmem, hsig⟩, rfl⟩

/-- The older loaders keep no executor for a program of the upgradeable loader. -/
theorem processLoaderInstruction_executors (hrt : rt.Lawful) {programId : Pubkey}
    {ks : List KeyedAccount} {data : List UInt8} {ctx' : InvokeContext}
    (hold : programId = rt.bpfLoaderId ∨ programId = rt.bpfLoaderDeprecatedId)
    (h : processLoaderInstruction rt programId ks data ctx = .ok ctx')
    (howner : (ctx.accounts P).owner = rt.loaderId) : ctx'.executors P = ctx.executors P := by
  simp only [processLoaderInstruction, do_ok_iff, exists_unit, reject_eq_ok, ne_eq,
    not_not] at h
  obtain ⟨program, -, howned, ix, -, h⟩ := h
  cases ix with
  | write offset bytes =>
    simp only [do_ok_iff, exists_unit, Except.ok.injEq] at h
    obtain ⟨-, s, -, rfl⟩ := h
    rfl
  | finalize =>
    simp only [do_ok_iff, exists_unit, Except.ok.injEq] at h
    obtain ⟨-, executor, -, rfl⟩ := h
    have hne : P ≠ program.key := by
      intro he
      rw [he, howned] at howner
      exact (old_ne_loaderId hrt hold) howner
    exact addExecutor_of_ne _ _ hne

/-- Every event is a step of the registry. -/
theorem step_simulates (hrt : rt.Lawful) (h : Coherent rt P ctx) {e : ClusterEvent System}
    (he : e.Respects rt P) : Coherent rt P (ctx.step rt e) ∧
      Step e.signers (Staged ctx.accounts) (entryOf rt P ctx.accounts)
        (entryOf rt P (ctx.step rt e).accounts) := by
  have hquiet : Quiet rt P ctx.accounts (ctx.step rt e).accounts →
      (∀ x, IsProgram rt P ctx.accounts → (ctx.step rt e).executors P = some x →
        ctx.executors P = some x) →
      Coherent rt P (ctx.step rt e) ∧ Step e.signers (Staged ctx.accounts)
        (entryOf rt P ctx.accounts) (entryOf rt P (ctx.step rt e).accounts) := by
    intro hq hexec
    rw [hq.entryOf_eq]
    exact ⟨h.of_quiet hq hexec, Step.stay _⟩
  obtain hs | ⟨signers, c, s, rfl, hc, hs⟩ | ⟨signers, ix, s, rfl, hsys, hs⟩ |
    ⟨slot, programId, first, ks, data, invocation, rfl, hp, -⟩ | ⟨k, rfl, hs⟩ |
    ⟨programId, rfl, hs⟩ := step_cases rt ctx e
  · rw [hs]
    exact ⟨h, Step.stay _⟩
  · rw [hs] at hquiet ⊢
    exact hquiet (quiet_createAccount hrt hc he.unsigned) fun _ _ hx => hx
  · rw [hs] at hquiet ⊢
    exact hquiet (quiet_system hrt hsys he.unsigned h.toLinked) fun _ _ hx => hx
  · generalize ctx.step rt (.bpf slot programId first ks data) = ctx' at hp hquiet ⊢
    obtain ⟨program, next, hselect, ⟨hexec, i, -, hrun⟩ | ⟨-, -, ⟨-, hup⟩ | ⟨hold, hrun⟩⟩⟩ :=
      processInstructionCommon_cases hp
    · obtain ⟨hcoherent, hsame⟩ := h.runProgram (selectProgram_executable hselect hexec) hrun
      rw [hsame]
      exact ⟨hcoherent, Step.stay _⟩
    · simp only [processUpgradeable, do_ok_iff, Except.ok.injEq] at hup
      obtain ⟨ix, -, s', hp', rfl⟩ := hup
      have hks : NoCollision rt P ix (ks.drop first) := by
        intro m k _ haccount
        obtain ⟨account, hk, rfl⟩ := mem_of_key haccount
        exact he.distinct _ (List.mem_map.mpr ⟨account, List.mem_of_mem_drop hk, rfl⟩)
      rw [install_accounts]
      exact ⟨h.instruction hrt hp' hks,
        (entryOf_step hrt hp' h.toLinked hks).step.mono (signerKeys_drop ks first)⟩
    · apply hquiet (quiet_processLoaderInstruction hrt hold hrun h.toLinked)
      intro x hprogram hx
      rwa [processLoaderInstruction_executors hrt hold hrun hprogram.1] at hx
  · rw [hs] at hquiet ⊢
    exact hquiet (quiet_purge hrt k h.toLinked) fun _ _ hx => hx
  · rw [hs] at hquiet ⊢
    exact hquiet (Quiet.refl P ctx.accounts) fun _ _ hx => evict_executors hx

/-- What is called is the program, unless a loader is. -/
theorem processInstructionCommon_runs {programId : Pubkey} {slot : UInt64} {first : ℕ}
    {ks : List KeyedAccount} {data : List UInt8} {ctx' : InvokeContext}
    {invocation : Option Invocation}
    (h : processInstructionCommon rt slot programId first ks data ctx = .ok (ctx', invocation))
    (hcall : invocation ≠ none ∨ ¬ rt.CheckLoaderId programId) :
    ∃ next i, invocation = some i ∧
      runProgram rt programId programId first next ks data ctx = .ok (ctx', i) := by
  obtain ⟨program, next, hselect, ⟨hexec, i, hi, hrun⟩ | ⟨-, hnone, hloader⟩⟩ :=
    processInstructionCommon_cases h
  · rw [selectProgram_executable hselect hexec] at hrun
    exact ⟨next, i, hi, hrun⟩
  · rcases hcall with hsome | hnot
    · exact absurd hnone hsome
    · rcases hloader with ⟨he, -⟩ | ⟨he | he, -⟩
      · exact absurd (.inr (.inr he)) hnot
      · exact absurd (.inl he) hnot
      · exact absurd (.inr (.inl he)) hnot

/-! A cluster with one program. -/

open TestValidator TestCluster

def releasedAccounts : Accounts :=
  Function.update (Function.update genesis (Pubkey.filled 9)
      ⟨5000000, codec.encode (.program (dataAddress (Pubkey.filled 9))), Pubkey.filled 2, true⟩)
    (dataAddress (Pubkey.filled 9))
    ⟨5000000, codec.encode (.programData 0 (some (Pubkey.filled 1))) ++ [0x7f, 0x45, 0x4c, 0x46, 0],
      Pubkey.filled 2, false⟩

def released : InvokeContext := ⟨releasedAccounts, fun _ => none⟩

theorem released_other {k : Pubkey} (h₁ : k ≠ Pubkey.filled 9)
    (h₂ : k ≠ dataAddress (Pubkey.filled 9)) :
    (releasedAccounts k).owner = runtime.systemId := by
  rw [releasedAccounts, Function.update_of_ne h₂, Function.update_of_ne h₁, genesis]
  by_cases hk : k = Pubkey.filled 1
  · rw [hk, Function.update_self]
  · rw [Function.update_of_ne hk]

theorem released_live : entryOf cluster (Pubkey.filled 9) releasedAccounts =
    .live [0x7f, 0x45, 0x4c, 0x46] (some (Pubkey.filled 1)) := by
  decide +kernel

theorem released_coherent : Coherent cluster (Pubkey.filled 9) released where
  own _ hst := by
    have he : stateOf (releasedAccounts (Pubkey.filled 9)).data =
      some (.program (dataAddress (Pubkey.filled 9))) := by decide +kernel
    cases he.symm.trans hst
    rfl
  only {Q} howner hst := by
    by_contra hQ
    by_cases hpd : Q = dataAddress (Pubkey.filled 9)
    · subst hpd
      revert hst
      decide +kernel
    · have hsystem := released_other hQ hpd
      rw [released, hsystem] at howner
      revert howner
      decide
  reserved := .inr (by decide +kernel)
  permanent _ := by decide +kernel
  funded _ := by decide +kernel
  executor he := by cases he

/-- The loader is a registry of programs, whoever submits what in which order: every event is a
step of the registry that its signers may take, the code that goes live was in a buffer of the
authority that signed, and what is run for a program is the code of its entry. -/
theorem registry_refined (hrt : rt.Lawful) (h : Coherent rt P ctx)
    {es : List (ClusterEvent System)} (hes : ∀ e ∈ es, e.Respects rt P) :
    EveryStep (InvokeContext.step rt) (fun ctx e => Step e.signers (Staged ctx.accounts)
        (entryOf rt P ctx.accounts) (entryOf rt P (ctx.step rt e).accounts)) ctx es ∧
      EveryState (InvokeContext.step rt) (fun ctx => IsProgram rt P ctx.accounts →
        ∀ slot first ks data ctx' i,
          processInstructionCommon rt slot P first ks data ctx = .ok (ctx', some i) →
            ∃ a, entryOf rt P ctx.accounts = .live (stripZeros i.executor) a) ctx es := by
  have hok : EveryStep (InvokeContext.step rt) (fun _ e => e.Respects rt P) ctx es :=
    everyStep_of_forall hes
  have hstep : ∀ ctx e, Coherent rt P ctx → ClusterEvent.Respects rt P e →
      Coherent rt P (ctx.step rt e) ∧ Step e.signers (Staged ctx.accounts)
        (entryOf rt P ctx.accounts) (entryOf rt P (ctx.step rt e).accounts) :=
    fun _ _ hc he => step_simulates hrt hc he
  constructor
  · exact everyStep_of_step hstep h hok
  · have hrun := everyState_of_step (fun ctx e hc he => (hstep ctx e hc he).1) h hok
    apply hrun.mono
    intro ctx hc hp slot first ks data ctx' i hcall
    obtain ⟨next, j, hj, hprogram⟩ := processInstructionCommon_runs hcall (.inl nofun)
    obtain rfl := Option.some.inj hj
    exact runProgram_code hc hp hprogram

/-- The authority gives up the program, a stranger calls it, and somebody pays it. -/
def retirement : List (ClusterEvent Transfer) :=
  [.bpf 1 (Pubkey.filled 2) 0
      [⟨dataAddress (Pubkey.filled 9), false, true⟩, ⟨Pubkey.filled 1, true, false⟩] [4, 0, 0, 0],
    .bpf 2 (Pubkey.filled 9) 0
      [⟨dataAddress (Pubkey.filled 9), false, false⟩, ⟨Pubkey.filled 9, false, false⟩] [],
    .system [Pubkey.filled 1] ⟨Pubkey.filled 1, dataAddress (Pubkey.filled 9), 10⟩]

theorem retirement_respects : ∀ e ∈ retirement, e.Respects cluster (Pubkey.filled 9) := by
  simp only [retirement, List.forall_mem_cons, List.not_mem_nil, false_imp_iff, implies_true,
    and_true]
  exact ⟨⟨by decide, by decide⟩, ⟨by decide, by decide⟩, ⟨by decide, by decide⟩⟩

theorem registry_refined_retirement :
    EveryStep (InvokeContext.step cluster) (fun ctx e => Step e.signers (Staged ctx.accounts)
        (entryOf cluster (Pubkey.filled 9) ctx.accounts)
        (entryOf cluster (Pubkey.filled 9) (ctx.step cluster e).accounts)) released retirement ∧
      EveryState (InvokeContext.step cluster) (fun ctx =>
        IsProgram cluster (Pubkey.filled 9) ctx.accounts →
          ∀ slot first ks data ctx' i, processInstructionCommon cluster slot (Pubkey.filled 9) first
            ks data ctx = .ok (ctx', some i) →
              ∃ a, entryOf cluster (Pubkey.filled 9) ctx.accounts =
                .live (stripZeros i.executor) a) released retirement :=
  registry_refined cluster_lawful released_coherent retirement_respects

/-- A program whose authority does not sign, or that has none, runs the same code for ever. -/
theorem unsigned_program_kept (hrt : rt.Lawful) (h : Coherent rt P ctx) {code : List UInt8}
    {authority : Option Pubkey} (hlive : entryOf rt P ctx.accounts = .live code authority)
    {es : List (ClusterEvent System)}
    (hes : ∀ e ∈ es, e.Respects rt P ∧ ∀ a ∈ e.signers, authority ≠ some a) :
    EveryState (InvokeContext.step rt) (fun ctx => entryOf rt P ctx.accounts =
        .live code authority ∧ ∀ slot first ks data ctx' i,
          processInstructionCommon rt slot P first ks data ctx = .ok (ctx', some i) →
            stripZeros i.executor = code) ctx es := by
  have hstep : ∀ ctx e, (Coherent rt P ctx ∧ entryOf rt P ctx.accounts = .live code authority) →
      (ClusterEvent.Respects rt P e ∧ ∀ a ∈ e.signers, authority ≠ some a) →
      Coherent rt P (ctx.step rt e) ∧
        entryOf rt P (ctx.step rt e).accounts = .live code authority := by
    rintro ctx e ⟨hc, hlive⟩ ⟨he, ha⟩
    obtain ⟨hcoherent, hs⟩ := step_simulates hrt hc he
    rw [hlive] at hs
    exact ⟨hcoherent, hs.of_unsigned ha⟩
  have hrun := everyState_of_step hstep ⟨h, hlive⟩ (everyStep_of_forall hes)
  apply hrun.mono
  rintro ctx ⟨hc, hlive⟩
  refine ⟨hlive, ?_⟩
  intro slot first ks data ctx' i hcall
  obtain ⟨next, j, hj, hprogram⟩ := processInstructionCommon_runs hcall (.inl nofun)
  obtain rfl := Option.some.inj hj
  obtain ⟨a, hcode⟩ := runProgram_code hc (isProgram_of_live hlive) hprogram
  rw [hlive] at hcode
  exact (Entry.live.inj hcode).1.symm

/-- A stranger tries to take the authority, and calls the program. -/
def intrusion : List (ClusterEvent Transfer) :=
  [.bpf 1 (Pubkey.filled 2) 0
      [⟨dataAddress (Pubkey.filled 9), false, true⟩, ⟨Pubkey.filled 13, true, false⟩,
        ⟨Pubkey.filled 13, true, false⟩] [4, 0, 0, 0],
    .bpf 2 (Pubkey.filled 9) 0
      [⟨dataAddress (Pubkey.filled 9), false, false⟩, ⟨Pubkey.filled 9, false, false⟩] []]

theorem intrusion_respects : ∀ e ∈ intrusion, e.Respects cluster (Pubkey.filled 9) ∧
    ∀ a ∈ e.signers, some (Pubkey.filled 1) ≠ some a := by
  simp only [intrusion, List.forall_mem_cons, List.not_mem_nil, false_imp_iff, implies_true,
    and_true]
  exact ⟨⟨⟨by decide, by decide⟩, by decide⟩, ⟨⟨by decide, by decide⟩, by decide⟩⟩

theorem unsigned_program_kept_intrusion :
    EveryState (InvokeContext.step cluster) (fun ctx =>
        entryOf cluster (Pubkey.filled 9) ctx.accounts =
          .live [0x7f, 0x45, 0x4c, 0x46] (some (Pubkey.filled 1)) ∧
        ∀ slot first ks data ctx' i, processInstructionCommon cluster slot (Pubkey.filled 9) first
          ks data ctx = .ok (ctx', some i) → stripZeros i.executor = [0x7f, 0x45, 0x4c, 0x46])
      released intrusion :=
  unsigned_program_kept cluster_lawful released_coherent released_live intrusion_respects

theorem closed_call (h : Coherent rt P ctx) (hclosed : entryOf rt P ctx.accounts = .closed)
    (hloader : ¬ rt.CheckLoaderId P) (slot : UInt64) (first : ℕ) (ks : List KeyedAccount)
    (data : List UInt8) :
    ∃ e, processInstructionCommon rt slot P first ks data ctx = .error e := by
  cases hcall : processInstructionCommon rt slot P first ks data ctx with
  | error e => exact ⟨e, rfl⟩
  | ok r =>
    obtain ⟨ctx', invocation⟩ := r
    obtain ⟨next, i, -, hrun⟩ := processInstructionCommon_runs hcall (.inr hloader)
    obtain ⟨a, hlive⟩ := runProgram_code h (isProgram_of_closed hclosed) hrun
    rw [hclosed] at hlive
    cases hlive

/-- Once the ProgramData account of a program is closed, no code ever goes live at its address
again, and no call of the program is accepted. -/
theorem closed_for_good (hrt : rt.Lawful) (h : Coherent rt P ctx)
    (hp : IsProgram rt P ctx.accounts) (hloader : ¬ rt.CheckLoaderId P) {ks : List KeyedAccount}
    {s' : Accounts} (hclose : close rt.toRuntime ks ctx.accounts = .ok s')
    (hk : ks[0]?.map (·.key) = some (rt.findProgramAddress P))
    {es : List (ClusterEvent System)} (hes : ∀ e ∈ es, e.Respects rt P) :
    EveryState (InvokeContext.step rt) (fun ctx => entryOf rt P ctx.accounts = .closed ∧
      ∀ slot first ks data, ∃ e, processInstructionCommon rt slot P first ks data ctx = .error e)
      { ctx with accounts := s' } es := by
  have hprocess : processInstruction rt.toRuntime 0 .close ks ctx.accounts = .ok s' := hclose
  have hcoherent : Coherent rt P { ctx with accounts := s' } :=
    h.instruction hrt hprocess nofun
  have hkept := program_kept hrt hprocess hp.1 hp.2
  have hp' : IsProgram rt P s' := ⟨hkept.owner.trans hp.1, by rw [hkept.data]; exact hp.2⟩
  have hclosed : entryOf rt P s' = .closed := by
    rw [entryOf, if_pos hp']
    exact dataEntry_closed (stateOf_ne_programData (close_uninitialized hclose hk) rfl)
  have hstep : ∀ ctx e, (Coherent rt P ctx ∧ entryOf rt P ctx.accounts = .closed) →
      ClusterEvent.Respects rt P e →
      Coherent rt P (ctx.step rt e) ∧ entryOf rt P (ctx.step rt e).accounts = .closed := by
    rintro ctx e ⟨hc, hclosed⟩ he
    obtain ⟨hcoherent, hs⟩ := step_simulates hrt hc he
    rw [hclosed] at hs
    exact ⟨hcoherent, hs.of_closed⟩
  have hrun := everyState_of_step hstep ⟨hcoherent, hclosed⟩ (everyStep_of_forall hes)
  exact hrun.mono fun ctx hc => ⟨hc.2, closed_call hc.1 hc.2 hloader⟩

def closeAccounts : List KeyedAccount :=
  [⟨dataAddress (Pubkey.filled 9), false, true⟩, ⟨Pubkey.filled 1, false, true⟩,
    ⟨Pubkey.filled 1, true, false⟩, ⟨Pubkey.filled 9, false, true⟩]

def closedAccounts : Accounts :=
  orStay releasedAccounts (close cluster.toRuntime closeAccounts releasedAccounts)

theorem close_released :
    close cluster.toRuntime closeAccounts releasedAccounts = .ok closedAccounts := rfl

theorem closed_for_good_released :
    EveryState (InvokeContext.step cluster) (fun ctx =>
      entryOf cluster (Pubkey.filled 9) ctx.accounts = .closed ∧
      ∀ slot first ks data, ∃ e, processInstructionCommon cluster slot (Pubkey.filled 9) first ks
        data ctx = .error e) ⟨closedAccounts, fun _ => none⟩ retirement :=
  closed_for_good cluster_lawful released_coherent (isProgram_of_live released_live) (by decide)
    close_released (by decide) retirement_respects

end SolanaSample.Loader
