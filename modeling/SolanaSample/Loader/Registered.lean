import SolanaSample.Loader.Lifecycle
import SolanaSample.Library.Registry
import Mathlib.Data.List.DropRight

/-! For each program address the upgradeable loader is a registry entry, whatever else happens
on the cluster. -/
namespace SolanaSample.Loader
open PrefixCodec Rejection Splice UpgradeableLoaderState EventRun Registry

variable {System : Type} {rt : BpfRuntime System}

/-- The zeros behind a program are no part of it. -/
def stripZeros (code : List UInt8) : List UInt8 := code.rdropWhile (· == 0)

theorem stripZeros_append (code : List UInt8) (n : ℕ) :
    stripZeros (code ++ List.replicate n 0) = stripZeros code := by
  induction n with
  | zero => rw [List.replicate_zero, List.append_nil]
  | succ n ih =>
    rw [List.replicate_succ', ← List.append_assoc, stripZeros,
      List.rdropWhile_concat_pos _ _ _ (by rfl)]
    exact ih

/-- The account belongs to the loader and points to its own ProgramData account. -/
def IsProgram (rt : BpfRuntime System) (P : Pubkey) (s : Accounts) : Prop :=
  (s P).owner = rt.loaderId ∧
    stateOf (s P).data = some (.program (rt.findProgramAddress P))

instance (P : Pubkey) (s : Accounts) : Decidable (IsProgram rt P s) :=
  inferInstanceAs (Decidable (_ ∧ _))

def dataEntry (a : Account) : Entry (List UInt8) Pubkey :=
  match stateOf a.data with
  | some (.programData _ authority) => .live (stripZeros (programCode a)) authority
  | _ => .closed

/-- What the registry holds for a program address. -/
def entryOf (rt : BpfRuntime System) (P : Pubkey) (s : Accounts) : Entry (List UInt8) Pubkey :=
  if IsProgram rt P s then dataEntry (s (rt.findProgramAddress P)) else .unused

/-- The code is in a buffer of the authority. -/
def Staged (s : Accounts) (a : Pubkey) (code : List UInt8) : Prop :=
  ∃ buffer, stateOf (s buffer).data = some (.buffer (some a)) ∧
    code = stripZeros (bufferCode (s buffer))

theorem dataEntry_programData {a : Account} {slot : UInt64} {authority : Option Pubkey}
    (h : stateOf a.data = some (.programData slot authority)) :
    dataEntry a = .live (stripZeros (programCode a)) authority := by
  rw [dataEntry, h]

theorem dataEntry_closed {a : Account}
    (h : ∀ slot authority, stateOf a.data ≠ some (.programData slot authority)) :
    dataEntry a = .closed := by
  unfold dataEntry
  split
  · exact absurd ‹_› (h _ _)
  · rfl

theorem dataEntry_live {a : Account} {code : List UInt8} {authority : Option Pubkey}
    (h : dataEntry a = .live code authority) :
    code = stripZeros (programCode a) ∧
      ∃ slot, stateOf a.data = some (.programData slot authority) := by
  unfold dataEntry at h
  split at h
  · obtain ⟨rfl, rfl⟩ := Entry.live.inj h
    exact ⟨rfl, _, ‹_›⟩
  · cases h

theorem dataEntry_congr {a a' : Account} (h : a'.data = a.data) : dataEntry a' = dataEntry a := by
  unfold dataEntry programCode
  rw [h]

theorem stateOf_zeros_eq {n : ℕ} {st : UpgradeableLoaderState}
    (h : stateOf (List.replicate n 0) = some st) : st = .uninitialized := by
  by_cases hn : 4 ≤ n
  · rw [stateOf_zeros hn] at h
    exact (Option.some.inj h).symm
  · obtain rfl | rfl | rfl | rfl : n = 0 ∨ n = 1 ∨ n = 2 ∨ n = 3 := by omega
    all_goals cases h

theorem systemId_ne_loaderId (hrt : rt.Lawful) : rt.systemId ≠ rt.loaderId := by
  intro he
  exact hrt.system_not_protected (.inl (.inr (.inr he)))

theorem protected_of_owner {a : Account} (h : a.owner = rt.loaderId) : rt.Protected a.owner :=
  .inl (.inr (.inr h))

/-- What holds of the accounts of a program address as long as nobody finds a collision of
program addresses and nobody but the loader signs for them. -/
structure Linked (rt : BpfRuntime System) (P : Pubkey) (s : Accounts) : Prop where
  own : ∀ {x}, (s P).owner = rt.loaderId → stateOf (s P).data = some (.program x) →
    x = rt.findProgramAddress P
  only : ∀ {Q}, (s Q).owner = rt.loaderId →
    stateOf (s Q).data = some (.program (rt.findProgramAddress P)) → Q = P
  reserved : (s (rt.findProgramAddress P)).data = [] ∨
    (s (rt.findProgramAddress P)).owner = rt.loaderId
  permanent : IsProgram rt P s → (s P).executable = true ∧ 0 < (s P).lamports
  funded : ∀ {slot a},
    stateOf (s (rt.findProgramAddress P)).data = some (.programData slot a) →
      0 < (s (rt.findProgramAddress P)).lamports

/-- Where the loader owns nothing yet. -/
theorem linked_of_fresh {P : Pubkey} {s : Accounts} (h : ∀ k, (s k).owner ≠ rt.loaderId)
    (hdata : (s (rt.findProgramAddress P)).data = []) : Linked rt P s where
  own howner := absurd howner (h P)
  only howner := absurd howner (h _)
  reserved := .inl hdata
  permanent hprogram := absurd hprogram.1 (h P)
  funded hst := by
    rw [hdata] at hst
    cases hst

/-- The effect of all that the upgradeable loader does not do. -/
structure Quiet (rt : BpfRuntime System) (P : Pubkey) (s s' : Accounts) : Prop where
  programs : ∀ {Q x}, (s' Q).owner = rt.loaderId → stateOf (s' Q).data = some (.program x) →
    (s Q).owner = rt.loaderId ∧ stateOf (s Q).data = some (.program x)
  program : IsProgram rt P s → OnlyCredited (s P) (s' P)
  programdata : ((s' (rt.findProgramAddress P)).data = (s (rt.findProgramAddress P)).data ∧
      (s' (rt.findProgramAddress P)).owner = (s (rt.findProgramAddress P)).owner ∧
      (s (rt.findProgramAddress P)).lamports ≤ (s' (rt.findProgramAddress P)).lamports) ∨
    ((s' (rt.findProgramAddress P)).data = [] ∧
      dataEntry (s (rt.findProgramAddress P)) = .closed)

theorem Quiet.refl (P : Pubkey) (s : Accounts) : Quiet rt P s s where
  programs howner hst := ⟨howner, hst⟩
  program _ := OnlyCredited.refl _
  programdata := .inl ⟨rfl, rfl, le_rfl⟩

theorem Quiet.isProgram_iff {P : Pubkey} {s s' : Accounts} (h : Quiet rt P s s') :
    IsProgram rt P s' ↔ IsProgram rt P s := by
  constructor
  · intro hp
    exact h.programs hp.1 hp.2
  · intro hp
    have hc := h.program hp
    exact ⟨hc.owner.trans hp.1, by rw [hc.data]; exact hp.2⟩

theorem Quiet.linked {P : Pubkey} {s s' : Accounts} (h : Quiet rt P s s') (hs : Linked rt P s) :
    Linked rt P s' where
  own howner hst := hs.own (h.programs howner hst).1 (h.programs howner hst).2
  only howner hst := hs.only (h.programs howner hst).1 (h.programs howner hst).2
  reserved := by
    rcases h.programdata with ⟨hdata, howner, -⟩ | ⟨hdata, -⟩
    · rw [hdata, howner]
      exact hs.reserved
    · exact .inl hdata
  permanent hp := by
    have hp' := h.isProgram_iff.mp hp
    have hc := h.program hp'
    obtain ⟨hexec, hpos⟩ := hs.permanent hp'
    exact ⟨hc.executable.trans hexec, hpos.trans_le hc.lamports⟩
  funded hst := by
    rcases h.programdata with ⟨hdata, -, hle⟩ | ⟨hdata, -⟩
    · rw [hdata] at hst
      exact (hs.funded hst).trans_le hle
    · rw [hdata] at hst
      cases hst

theorem Quiet.entryOf_eq {P : Pubkey} {s s' : Accounts} (h : Quiet rt P s s') :
    entryOf rt P s' = entryOf rt P s := by
  unfold entryOf
  simp only [h.isProgram_iff]
  split_ifs
  · rcases h.programdata with ⟨hdata, -, -⟩ | ⟨hdata, hclosed⟩
    · exact dataEntry_congr hdata
    · rw [hclosed]
      apply dataEntry_closed
      intro slot a hst
      rw [hdata] at hst
      cases hst
  · rfl

theorem quiet_createAccount (hrt : rt.Lawful) {P : Pubkey} {s s' : Accounts}
    {signers : List Pubkey} {c : CreateAccount}
    (h : rt.createAccount signers c s = .ok s')
    (hsigners : rt.findProgramAddress P ∉ signers) : Quiet rt P s s' where
  programs {Q x} howner hst := by
    by_cases hQ : Q = c.newAccountPubkey
    · subst hQ
      rw [(hrt.createAccount_new h).1] at hst
      cases stateOf_zeros_eq hst
    · obtain ⟨hdata, howner', -⟩ := hrt.createAccount_frame h Q hQ
      exact ⟨howner' ▸ howner, hdata ▸ hst⟩
  program hp := hrt.createAccount_credits h P (protected_of_owner hp.1)
  programdata := by
    obtain ⟨hfrom, hnew⟩ := hrt.createAccount_signed h
    have hne : rt.findProgramAddress P ≠ c.newAccountPubkey := fun he => hsigners (he ▸ hnew)
    have hne' : rt.findProgramAddress P ≠ c.fromPubkey := fun he => hsigners (he ▸ hfrom)
    obtain ⟨hdata, howner, hle⟩ := hrt.createAccount_frame h _ hne
    exact .inl ⟨hdata, howner, hle hne'⟩

theorem quiet_system (hrt : rt.Lawful) {P : Pubkey} {s s' : Accounts} {signers : List Pubkey}
    {ix : System} (h : rt.system signers ix s = .ok s')
    (hsigners : rt.findProgramAddress P ∉ signers) (hs : Linked rt P s) : Quiet rt P s s' where
  programs {Q x} howner hst := by
    by_cases hQ : rt.Protected (s Q).owner
    · have hc := hrt.system_credits h Q hQ
      rw [hc.owner] at howner
      rw [hc.data] at hst
      exact ⟨howner, hst⟩
    · obtain ⟨⟨n, hzeros⟩, -⟩ := hrt.system_assigns h Q hQ (protected_of_owner howner)
      rw [hzeros] at hst
      cases stateOf_zeros_eq hst
  program hp := hrt.system_credits h P (protected_of_owner hp.1)
  programdata := .inl (hrt.system_frame h _ hsigners (.inr ⟨P, rfl⟩) hs.reserved)

theorem quiet_purge (hrt : rt.Lawful) {P : Pubkey} {s : Accounts} (k : Pubkey)
    (hs : Linked rt P s) : Quiet rt P s (purge rt s k) where
  programs {Q x} howner hst := by
    rcases purge_cases rt s k Q with h | ⟨-, h⟩
    · rw [h] at howner hst
      exact ⟨howner, hst⟩
    · rw [h] at howner
      exact absurd howner (systemId_ne_loaderId hrt)
  program hp := by
    rcases purge_cases rt s k P with h | ⟨hzero, -⟩
    · rw [h]
      exact OnlyCredited.refl _
    · have hpos := (hs.permanent hp).2
      omega
  programdata := by
    rcases purge_cases rt s k (rt.findProgramAddress P) with h | ⟨hzero, h⟩
    · rw [h]
      exact .inl ⟨rfl, rfl, le_rfl⟩
    · refine .inr ⟨by rw [h], ?_⟩
      apply dataEntry_closed
      intro slot a hst
      have hpos := hs.funded hst
      omega

theorem splice_nil_of_fits {off : ℕ} {bytes : List UInt8} (h : off + bytes.length ≤ 0) :
    splice [] off bytes = [] := by
  obtain rfl : bytes = [] := List.eq_nil_of_length_eq_zero (by omega)
  simp [splice]

theorem old_ne_loaderId (hrt : rt.Lawful) {programId : Pubkey}
    (hold : programId = rt.bpfLoaderId ∨ programId = rt.bpfLoaderDeprecatedId) :
    programId ≠ rt.loaderId := by
  rcases hold with rfl | rfl
  · exact hrt.loaders_differ.1
  · exact hrt.loaders_differ.2

/-- The older loaders change accounts of their own. -/
theorem quiet_processLoaderInstruction (hrt : rt.Lawful) {P programId : Pubkey}
    {ks : List KeyedAccount} {data : List UInt8} {ctx ctx' : InvokeContext}
    (hold : programId = rt.bpfLoaderId ∨ programId = rt.bpfLoaderDeprecatedId)
    (h : processLoaderInstruction rt programId ks data ctx = .ok ctx')
    (hs : Linked rt P ctx.accounts) : Quiet rt P ctx.accounts ctx'.accounts := by
  have hne := old_ne_loaderId hrt hold
  simp only [processLoaderInstruction, do_ok_iff, exists_unit, reject_eq_ok, ne_eq,
    not_not] at h
  obtain ⟨program, -, howned, ix, -, h⟩ := h
  -- No account of the upgradeable loader is the one that is changed.
  have hother : ∀ {k}, (ctx.accounts k).owner = rt.loaderId → k ≠ program.key := by
    intro k hk he
    rw [he, howned] at hk
    exact hne hk
  cases ix with
  | write offset bytes =>
    simp only [do_ok_iff, exists_unit, writeProgramData_eq_ok, Except.ok.injEq] at h
    obtain ⟨-, s, ⟨hfit, rfl⟩, rfl⟩ := h
    refine ⟨?_, ?_, ?_⟩
    · intro Q x howner hst
      rw [setData_owner] at howner
      rw [setData_data, if_neg (hother howner)] at hst
      exact ⟨howner, hst⟩
    · intro hp
      exact ⟨⟨by simp [hother hp.1], by simp, by simp⟩, by simp⟩
    · refine .inl ⟨?_, by simp, by simp⟩
      rw [setData_data]
      split_ifs with he
      · rcases hs.reserved with hdata | howner
        · rw [← he, hdata] at hfit ⊢
          exact splice_nil_of_fits hfit
        · exact absurd he (hother howner)
      · rfl
  | finalize =>
    simp only [do_ok_iff, exists_unit, Except.ok.injEq] at h
    obtain ⟨-, executor, -, rfl⟩ := h
    rw [addExecutor_accounts]
    refine ⟨?_, ?_, .inl ⟨by simp, by simp, by simp⟩⟩
    · intro Q x howner hst
      rw [setExecutable_owner] at howner
      rw [setExecutable_data] at hst
      exact ⟨howner, hst⟩
    · intro hp
      exact ⟨⟨by simp, by simp, by simp [hother hp.1]⟩, by simp⟩

theorem mapKey {ks : List KeyedAccount} {i : ℕ} {account : KeyedAccount}
    (h : ks[i]? = some account) : ks[i]?.map (·.key) = some account.key := by
  rw [h]
  rfl

theorem mem_of_key {ks : List KeyedAccount} {i : ℕ} {k : Pubkey}
    (h : ks[i]?.map (·.key) = some k) : ∃ account ∈ ks, account.key = k := by
  obtain ⟨account, hk, rfl⟩ := Option.map_eq_some_iff.mp h
  exact ⟨account, List.mem_of_getElem? hk, rfl⟩

theorem addedExecutor_deploy {ks : List KeyedAccount} {s : Accounts} {maxDataLen : UInt64}
    {program buffer : Pubkey} (hprogram : ks[2]?.map (·.key) = some program)
    (hbuffer : ks[3]?.map (·.key) = some buffer) :
    addedExecutor (.deployWithMaxDataLen maxDataLen) ks s =
      some (program, bufferCode (s buffer)) := by
  obtain ⟨k, hk, rfl⟩ := Option.map_eq_some_iff.mp hprogram
  obtain ⟨b, hb, rfl⟩ := Option.map_eq_some_iff.mp hbuffer
  have hdef : addedExecutor (.deployWithMaxDataLen maxDataLen) ks s =
    ks[2]?.bind fun k => ks[3]?.bind fun b => some (k.key, bufferCode (s b.key)) := rfl
  rw [hdef, hk, hb]
  rfl

theorem addedExecutor_upgrade {ks : List KeyedAccount} {s : Accounts} {program buffer : Pubkey}
    (hprogram : ks[1]?.map (·.key) = some program)
    (hbuffer : ks[2]?.map (·.key) = some buffer) :
    addedExecutor .upgrade ks s = some (program, bufferCode (s buffer)) := by
  obtain ⟨k, hk, rfl⟩ := Option.map_eq_some_iff.mp hprogram
  obtain ⟨b, hb, rfl⟩ := Option.map_eq_some_iff.mp hbuffer
  have hdef : addedExecutor .upgrade ks s =
    ks[1]?.bind fun k => ks[2]?.bind fun b => some (k.key, bufferCode (s b.key)) := rfl
  rw [hdef, hk, hb]
  rfl

section Instruction

variable {slot : UInt64} {ix : UpgradeableLoaderInstruction} {ks : List KeyedAccount}
  {s s' : Accounts} {P : Pubkey}

/-- No instruction changes a program account. -/
theorem program_kept (hrt : rt.Lawful) (h : processInstruction rt.toRuntime slot ix ks s = .ok s')
    {Q x : Pubkey} (howner : (s Q).owner = rt.loaderId)
    (hst : stateOf (s Q).data = some (.program x)) : OnlyCredited (s Q) (s' Q) := by
  cases processInstruction_lifecycle hrt h Q with
  | kept account => exact account
  | foreign unprotected => exact absurd (protected_of_owner howner) unprotected
  | drained contents before =>
    rcases before with hb | ⟨a, -, hb⟩
    all_goals cases hb.symm.trans hst
  | buffer before =>
    rcases before with hb | ⟨a, -, hb⟩
    all_goals cases hb.symm.trans hst
  | deployed maxDataLen instruction account before => cases before.symm.trans hst
  | created maxDataLen program buffer a slot' instruction programAccount bufferAccount signed
      derived programFresh bufferState before =>
    rw [before] at hst
    cases hst
  | upgraded program buffer a slot' slot'' instruction programAccount bufferAccount signed
      programState programOwner bufferState before => cases before.symm.trans hst
  | authority slot' a a' signed before => cases before.symm.trans hst
  | closed slot' a signed before => cases before.symm.trans hst

/-- A program account was one before, or has been deployed. -/
theorem program_after (hrt : rt.Lawful)
    (h : processInstruction rt.toRuntime slot ix ks s = .ok s') {Q x : Pubkey}
    (howner : (s' Q).owner = rt.loaderId) (hst : stateOf (s' Q).data = some (.program x)) :
    ((s Q).owner = rt.loaderId ∧ stateOf (s Q).data = some (.program x)) ∨
      (x = rt.findProgramAddress Q ∧ (∃ m, ix = .deployWithMaxDataLen m) ∧
        ks[2]?.map (·.key) = some Q ∧ (s' Q).executable = true ∧
        rt.minimumBalance (s Q).data.length ≤ (s' Q).lamports) := by
  cases processInstruction_lifecycle hrt h Q with
  | kept account => exact .inl ⟨account.owner ▸ howner, account.data ▸ hst⟩
  | foreign unprotected data owner => exact .inl ⟨owner ▸ howner, data ▸ hst⟩
  | drained contents => exact .inl ⟨contents.owner ▸ howner, contents.data ▸ hst⟩
  | buffer before after =>
    rcases after with ha | ⟨a, ha⟩
    all_goals cases ha.symm.trans hst
  | deployed maxDataLen instruction account before after funded owner executable lamports =>
    right
    have hx := after.symm.trans hst
    refine ⟨?_, ⟨maxDataLen, instruction⟩, account, executable, ?_⟩
    · cases hx
      rfl
    · rw [owner] at howner
      exact funded.trans (lamports (protected_of_owner howner))
  | created maxDataLen program buffer a slot' instruction programAccount bufferAccount signed
      derived programFresh bufferState before after => cases after.symm.trans hst
  | upgraded program buffer a slot' slot'' instruction programAccount bufferAccount signed
      programState programOwner bufferState before after => cases after.symm.trans hst
  | authority slot' a a' signed before after => cases after.symm.trans hst
  | closed slot' a signed before after => cases after.symm.trans hst

/-- The executor that is added for a program is the code of its ProgramData account. -/
theorem addedExecutor_code (hrt : rt.Lawful)
    (h : processInstruction rt.toRuntime slot ix ks s = .ok s') {Q : Pubkey}
    {executor : List UInt8} (hadd : addedExecutor ix ks s = some (Q, executor)) :
    ∃ pd, (rt.findProgramAddress Q = pd ∨
        (s Q).owner = rt.loaderId ∧ stateOf (s Q).data = some (.program pd)) ∧
      ∃ n, programCode (s' pd) = executor ++ List.replicate n 0 := by
  cases ix with
  | deployWithMaxDataLen maxDataLen =>
    obtain ⟨payer, programdata, program, buffer, authority, -, hk₂, hk₃, -, -, -, hd⟩ :=
      deploy_effect hrt.toLawful h
    rw [addedExecutor_deploy (mapKey hk₂) (mapKey hk₃)] at hadd
    obtain ⟨rfl, rfl⟩ := Prod.mk.inj (Option.some.inj hadd)
    exact ⟨programdata.key, .inl hd.derived, hd.programdata_code⟩
  | upgrade =>
    obtain ⟨programdata, program, buffer, authority, slot', -, hk₁, hk₂, -, hu⟩ :=
      upgrade_upgraded h
    rw [addedExecutor_upgrade (mapKey hk₁) (mapKey hk₂)] at hadd
    obtain ⟨rfl, rfl⟩ := Prod.mk.inj (Option.some.inj hadd)
    exact ⟨programdata.key, .inr ⟨hu.program_owner, hu.program_state⟩, hu.code⟩
  | _ => cases hadd

/-- The ProgramData account stays the loader's, and is funded while it is in use. -/
theorem programdata_after (hrt : rt.Lawful)
    (h : processInstruction rt.toRuntime slot ix ks s = .ok s') (hs : Linked rt P s) :
    ((s' (rt.findProgramAddress P)).data = [] ∨
      (s' (rt.findProgramAddress P)).owner = rt.loaderId) ∧
    ∀ {slot' a}, stateOf (s' (rt.findProgramAddress P)).data = some (.programData slot' a) →
      0 < (s' (rt.findProgramAddress P)).lamports := by
  have howned : ∀ {st}, stateOf (s (rt.findProgramAddress P)).data = some st →
      (s (rt.findProgramAddress P)).owner = rt.loaderId := by
    intro st hst
    exact hs.reserved.resolve_left (ne_nil_of_stateOf hst)
  cases processInstruction_lifecycle hrt h (rt.findProgramAddress P) with
  | kept account =>
    rw [account.data, account.owner]
    exact ⟨hs.reserved, fun hst => (hs.funded hst).trans_le account.lamports⟩
  | foreign unprotected data owner =>
    rw [data, owner]
    exact ⟨hs.reserved, fun hst => absurd (protected_of_owner (howned hst)) unprotected⟩
  | drained contents before =>
    rw [contents.data, contents.owner]
    refine ⟨hs.reserved, ?_⟩
    intro slot' a hst
    rcases before with hb | ⟨a, -, hb⟩
    all_goals cases hb.symm.trans hst
  | buffer before after owner =>
    constructor
    · right
      rcases before with hb | ⟨a, -, hb⟩
      all_goals exact owner.trans (howned hb)
    · intro slot' a hst
      rcases after with ha | ⟨a, ha⟩
      all_goals cases ha.symm.trans hst
  | deployed maxDataLen instruction account before after funded owner =>
    exact ⟨.inr (owner.trans (howned before)), fun hst => by cases after.symm.trans hst⟩
  | created maxDataLen program buffer a slot' instruction programAccount bufferAccount signed
      derived programFresh bufferState before after code owner executable lamports =>
    exact ⟨.inr owner, fun _ => lamports⟩
  | upgraded program buffer a slot' slot'' instruction programAccount bufferAccount signed
      programState programOwner bufferState before after code owner executable lamports =>
    exact ⟨.inr (owner.trans (howned before)), fun _ => lamports⟩
  | authority slot' a a' signed before after code owner executable lamports =>
    refine ⟨.inr (owner.trans (howned before)), fun _ => ?_⟩
    rw [lamports]
    exact hs.funded before
  | closed slot' a signed before after owner =>
    exact ⟨.inr (owner.trans (howned before)), fun hst => by cases after.symm.trans hst⟩

/-- A program that is deployed does not share its ProgramData address with `P`. -/
def NoCollision (rt : BpfRuntime System) (P : Pubkey) (ix : UpgradeableLoaderInstruction)
    (ks : List KeyedAccount) : Prop :=
  ∀ maxDataLen k, ix = .deployWithMaxDataLen maxDataLen → ks[2]?.map (·.key) = some k →
    rt.findProgramAddress k = rt.findProgramAddress P → k = P

theorem linked_instruction (hrt : rt.Lawful)
    (h : processInstruction rt.toRuntime slot ix ks s = .ok s') (hs : Linked rt P s)
    (hks : NoCollision rt P ix ks) :
    Linked rt P s' where
  own {x} howner hst := by
    rcases program_after hrt h howner hst with ⟨howner', hst'⟩ | ⟨hx, -⟩
    · exact hs.own howner' hst'
    · exact hx
  only {Q} howner hst := by
    rcases program_after hrt h howner hst with ⟨howner', hst'⟩ | ⟨hx, ⟨m, hix⟩, haccount, -⟩
    · exact hs.only howner' hst'
    · exact hks m Q hix haccount hx.symm
  reserved := (programdata_after hrt h hs).1
  permanent hp := by
    rcases program_after hrt h hp.1 hp.2 with ⟨howner, hst⟩ | ⟨-, -, -, hexec, hfunded⟩
    · have hc := program_kept hrt h howner hst
      obtain ⟨hexec, hpos⟩ := hs.permanent ⟨howner, hst⟩
      exact ⟨hc.executable.trans hexec, hpos.trans_le hc.lamports⟩
    · exact ⟨hexec, (hrt.minimumBalance_pos _).trans_le hfunded⟩
  funded := (programdata_after hrt h hs).2

/-- An instruction takes an entry of the registry from `p` to `p'`, and new code comes with an
executor of its own. -/
structure Simulates (ix : UpgradeableLoaderInstruction) (ks : List KeyedAccount) (s : Accounts)
    (P : Pubkey) (p p' : Entry (List UInt8) Pubkey) : Prop where
  step : Step (signerKeys ks) (Staged s) p p'
  code : ∀ {code a}, p' = .live code a →
    (∃ a', p = .live code a') ∨ ∃ executor, addedExecutor ix ks s = some (P, executor)

theorem Simulates.of_eq {p p' : Entry (List UInt8) Pubkey} (h : p' = p) :
    Simulates ix ks s P p p' := by
  subst h
  exact ⟨Step.stay _, fun hlive => .inl ⟨_, hlive⟩⟩

theorem dataEntry_step (hrt : rt.Lawful)
    (h : processInstruction rt.toRuntime slot ix ks s = .ok s') (hs : Linked rt P s)
    (hks : NoCollision rt P ix ks)
    (hp : IsProgram rt P s) :
    Simulates ix ks s P (dataEntry (s (rt.findProgramAddress P)))
      (dataEntry (s' (rt.findProgramAddress P))) := by
  cases processInstruction_lifecycle hrt h (rt.findProgramAddress P) with
  | kept account => exact .of_eq (dataEntry_congr account.data)
  | foreign unprotected data owner => exact .of_eq (dataEntry_congr data)
  | drained contents => exact .of_eq (dataEntry_congr contents.data)
  | buffer before after =>
    apply Simulates.of_eq
    rw [dataEntry_closed, dataEntry_closed]
    · rcases before with hb | ⟨a, -, hb⟩
      all_goals exact stateOf_ne_programData hb rfl
    · rcases after with ha | ⟨a, ha⟩
      all_goals exact stateOf_ne_programData ha rfl
  | deployed maxDataLen instruction account before after =>
    apply Simulates.of_eq
    rw [dataEntry_closed (stateOf_ne_programData before rfl),
      dataEntry_closed (stateOf_ne_programData after rfl)]
  | created maxDataLen program buffer a slot' instruction programAccount bufferAccount signed
      derived programFresh =>
    -- The program would be a fresh account, and it is in use.
    rw [hks maxDataLen program instruction programAccount derived, hp.2] at programFresh
    cases programFresh
  | upgraded program buffer a slot' slot'' instruction programAccount bufferAccount signed
      programState programOwner bufferState before after code =>
    obtain rfl := hs.only programOwner programState
    obtain ⟨n, hcode⟩ := code
    rw [dataEntry_programData before, dataEntry_programData after, hcode, stripZeros_append]
    refine ⟨Step.upgrade signed ⟨buffer, bufferState, rfl⟩,
      fun _ => .inr ⟨bufferCode (s buffer), ?_⟩⟩
    rw [instruction]
    exact addedExecutor_upgrade programAccount bufferAccount
  | authority slot' a a' signed before after code =>
    rw [dataEntry_programData before, dataEntry_programData after, code]
    refine ⟨Step.setAuthority a' signed, ?_⟩
    intro code' a'' hlive
    obtain ⟨rfl, -⟩ := Entry.live.inj hlive
    exact .inl ⟨_, rfl⟩
  | closed slot' a signed before after =>
    rw [dataEntry_programData before, dataEntry_closed (stateOf_ne_programData after rfl)]
    exact ⟨Step.close signed, fun hlive => by cases hlive⟩

/-- An instruction of the loader is a step of the registry. -/
theorem entryOf_step (hrt : rt.Lawful)
    (h : processInstruction rt.toRuntime slot ix ks s = .ok s') (hs : Linked rt P s)
    (hks : NoCollision rt P ix ks) :
    Simulates ix ks s P (entryOf rt P s) (entryOf rt P s') := by
  by_cases hp : IsProgram rt P s
  · have hc := program_kept hrt h hp.1 hp.2
    have hp' : IsProgram rt P s' := ⟨hc.owner.trans hp.1, by rw [hc.data]; exact hp.2⟩
    rw [entryOf, entryOf, if_pos hp, if_pos hp']
    exact dataEntry_step hrt h hs hks hp
  rw [entryOf, if_neg hp]
  by_cases hp' : IsProgram rt P s'
  · rw [entryOf, if_pos hp']
    rcases program_after hrt h hp'.1 hp'.2 with hbefore | ⟨-, ⟨m, rfl⟩, haccount, -⟩
    · exact absurd hbefore hp
    · obtain ⟨payer, programdata, program, buffer, authority, -, hk₂, hk₃, hk₇, hsig, -, hd⟩ :=
        deploy_effect hrt.toLawful h
      have hkey : program.key = P := by simpa [hk₂] using haccount
      have hpd : rt.findProgramAddress P = programdata.key := by rw [← hkey, hd.derived]
      obtain ⟨n, hcode⟩ := hd.programdata_code
      rw [hpd, dataEntry_programData hd.programdata_state, programCode, hcode, stripZeros_append]
      refine ⟨Step.deploy (mem_signerKeys hk₇ hsig) ⟨buffer.key, hd.buffer_state, rfl⟩,
        fun _ => .inr ⟨bufferCode (s buffer.key), ?_⟩⟩
      exact addedExecutor_deploy haccount (by simp [hk₃])
  · rw [entryOf, if_neg hp']
    exact .of_eq rfl

end Instruction

end SolanaSample.Loader
