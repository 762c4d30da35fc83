import SolanaSample.Loader.Cluster

/-! What an instruction of the upgradeable loader may have done to one account: all that the
invariants of whole runs rest on. -/
namespace SolanaSample.Loader
open PrefixCodec Rejection Splice UpgradeableLoaderState

variable {System : Type} {rt : BpfRuntime System}

@[simp] theorem setData_executable (s : Accounts) (k j : Pubkey) (data : List UInt8) :
    (setData s k data j).executable = (s j).executable :=
  update_field_same (·.executable) s k { s k with data } rfl j

@[simp] theorem setLamports_executable (s : Accounts) (k j : Pubkey) (n : ℕ) :
    (setLamports s k n j).executable = (s j).executable :=
  update_field_same (·.executable) s k { s k with lamports := n } rfl j

@[simp] theorem setExecutable_executable (s : Accounts) (k j : Pubkey) :
    (setExecutable s k j).executable = if j = k then true else (s j).executable :=
  update_field (·.executable) s k _ j

/-- The code behind the header of a ProgramData account. -/
def programCode (a : Account) : List UInt8 := a.data.drop programdataDataOffset

/-- The code behind the header of a buffer. -/
def bufferCode (a : Account) : List UInt8 := a.data.drop bufferDataOffset

/-- The ways in which an accepted instruction of the upgradeable loader treats one account. -/
inductive Lifecycle (rt : BpfRuntime System) (ix : UpgradeableLoaderInstruction)
    (ks : List KeyedAccount) (s s' : Accounts) (k : Pubkey) : Prop where
  | kept (account : OnlyCredited (s k) (s' k))
  /-- No account of a loader. It may have paid. -/
  | foreign (unprotected : ¬ rt.Protected (s k).owner) (data : (s' k).data = (s k).data)
      (owner : (s' k).owner = (s k).owner)
  /-- Its lamports were taken, and nothing else. -/
  | drained (contents : SameContents (s k) (s' k))
      (before : stateOf (s k).data = some .uninitialized ∨
        ∃ a ∈ signerKeys ks, stateOf (s k).data = some (.buffer (some a)))
      (member : ∃ account ∈ ks, account.key = k)
  /-- It was uninitialised, or its authority signed, and it is a buffer now or uninitialised. -/
  | buffer (before : stateOf (s k).data = some .uninitialized ∨
        ∃ a ∈ signerKeys ks, stateOf (s k).data = some (.buffer (some a)))
      (after : stateOf (s' k).data = some .uninitialized ∨
        ∃ a, stateOf (s' k).data = some (.buffer a))
      (owner : (s' k).owner = (s k).owner) (executable : (s' k).executable = (s k).executable)
      (member : ∃ account ∈ ks, account.key = k)
  | deployed (maxDataLen : UInt64) (instruction : ix = .deployWithMaxDataLen maxDataLen)
      (account : ks[2]?.map (·.key) = some k)
      (before : stateOf (s k).data = some .uninitialized)
      (after : stateOf (s' k).data = some (.program (rt.findProgramAddress k)))
      (funded : rt.minimumBalance (s k).data.length ≤ (s k).lamports)
      (owner : (s' k).owner = (s k).owner) (executable : (s' k).executable = true)
      (lamports : rt.Protected (s k).owner → (s k).lamports ≤ (s' k).lamports)
  | created (maxDataLen : UInt64) (program buffer a : Pubkey) (slot : UInt64)
      (instruction : ix = .deployWithMaxDataLen maxDataLen)
      (programAccount : ks[2]?.map (·.key) = some program)
      (bufferAccount : ks[3]?.map (·.key) = some buffer)
      (signed : a ∈ signerKeys ks)
      (derived : rt.findProgramAddress program = k)
      (programFresh : stateOf (s program).data = some .uninitialized)
      (bufferState : stateOf (s buffer).data = some (.buffer (some a)))
      (before : (s k).data = [])
      (after : stateOf (s' k).data = some (.programData slot (some a)))
      (code : ∃ n, programCode (s' k) = bufferCode (s buffer) ++ List.replicate n 0)
      (owner : (s' k).owner = rt.loaderId)
      (executable : (s' k).executable = false) (lamports : 0 < (s' k).lamports)
  | upgraded (program buffer a : Pubkey) (slot slot' : UInt64) (instruction : ix = .upgrade)
      (programAccount : ks[1]?.map (·.key) = some program)
      (bufferAccount : ks[2]?.map (·.key) = some buffer)
      (signed : a ∈ signerKeys ks)
      (programState : stateOf (s program).data = some (.program k))
      (programOwner : (s program).owner = rt.loaderId)
      (bufferState : stateOf (s buffer).data = some (.buffer (some a)))
      (before : stateOf (s k).data = some (.programData slot (some a)))
      (after : stateOf (s' k).data = some (.programData slot' (some a)))
      (code : ∃ n, programCode (s' k) = bufferCode (s buffer) ++ List.replicate n 0)
      (owner : (s' k).owner = (s k).owner) (executable : (s' k).executable = (s k).executable)
      (lamports : 0 < (s' k).lamports) (member : ∃ account ∈ ks, account.key = k)
  | authority (slot : UInt64) (a : Pubkey) (a' : Option Pubkey) (signed : a ∈ signerKeys ks)
      (before : stateOf (s k).data = some (.programData slot (some a)))
      (after : stateOf (s' k).data = some (.programData slot a'))
      (code : programCode (s' k) = programCode (s k))
      (owner : (s' k).owner = (s k).owner) (executable : (s' k).executable = (s k).executable)
      (lamports : (s' k).lamports = (s k).lamports) (member : ∃ account ∈ ks, account.key = k)
  | closed (slot : UInt64) (a : Pubkey) (signed : a ∈ signerKeys ks)
      (before : stateOf (s k).data = some (.programData slot (some a)))
      (after : stateOf (s' k).data = some .uninitialized)
      (owner : (s' k).owner = (s k).owner) (executable : (s' k).executable = (s k).executable)
      (member : ∃ account ∈ ks, account.key = k)

theorem drain_contents {s s' : Accounts} {recipient source : Pubkey}
    (h : drain s recipient source = .ok s') (k : Pubkey) :
    SameContents (s k) (s' k) ∧ (k ≠ source → OnlyCredited (s k) (s' k)) := by
  have hlam := (drain_effect h k).2.2
  simp only [drain, checkedAddLamports, do_ok_iff, reject_eq_ok, exists_unit,
    Except.ok.injEq] at h
  obtain ⟨-, s₁, ⟨-, rfl⟩, rfl⟩ := h
  have hsame : SameContents (s k) (setLamports (setLamports s recipient
      ((s recipient).lamports + (s source).lamports)) source 0 k) :=
    ⟨by simp, by simp, by simp⟩
  exact ⟨hsame, fun hk => ⟨hsame, hlam hk⟩⟩

theorem drainWhen_contents {c : Bool} {s s' : Accounts} {recipient source : Pubkey}
    (h : drainWhen c s recipient source = .ok s') (k : Pubkey) :
    SameContents (s k) (s' k) ∧ (k ≠ source → OnlyCredited (s k) (s' k)) := by
  unfold drainWhen at h
  split_ifs at h with hc
  · exact drain_contents h k
  · obtain rfl := Except.ok.inj h
    exact ⟨SameContents.refl _, fun _ => OnlyCredited.refl _⟩

/-- Setting the data of one account keeps the others. -/
theorem Lifecycle.setData_other {ix : UpgradeableLoaderInstruction} {ks : List KeyedAccount}
    {s : Accounts} {j k : Pubkey} {data : List UInt8} (hk : k ≠ j) :
    Lifecycle rt ix ks s (setData s j data) k :=
  .kept ⟨⟨by simp [hk], by simp, by simp⟩, by simp⟩

theorem initializeBuffer_lifecycle {ks : List KeyedAccount} {s s' : Accounts}
    (h : initializeBuffer ks s = .ok s') (k : Pubkey) :
    Lifecycle rt .initializeBuffer ks s s' k := by
  obtain ⟨buffer, authority, data, hk₀, -, hst, hd, rfl⟩ := initializeBuffer_effect h
  obtain ⟨hnew, -, -⟩ := setStateOf_eq_some hd
  by_cases hk : k = buffer.key
  · subst hk
    apply Lifecycle.buffer
    · exact .inl hst
    · exact .inr ⟨_, by simpa using hnew⟩
    · simp
    · simp
    · exact ⟨buffer, List.mem_of_getElem? hk₀, rfl⟩
  · exact Lifecycle.setData_other hk

theorem write_lifecycle {offset : UInt32} {bytes : ByteString} {ks : List KeyedAccount}
    {s s' : Accounts} (h : write offset bytes ks s = .ok s') (k : Pubkey) :
    Lifecycle rt (.write offset bytes) ks s s' k := by
  obtain ⟨buffer, authority, hk₀, hk₁, hsig, hst, hfit, rfl⟩ := write_effect h
  by_cases hk : k = buffer.key
  · subst hk
    apply Lifecycle.buffer
    · exact .inr ⟨_, mem_signerKeys hk₁ hsig, hst⟩
    · right
      refine ⟨some authority.key, ?_⟩
      rw [setData_data, if_pos rfl]
      exact stateOf_splice hst (Nat.le_add_right _ _) hfit
    · simp
    · simp
    · exact ⟨buffer, List.mem_of_getElem? hk₀, rfl⟩
  · exact Lifecycle.setData_other hk

theorem serializedSize_programData_le (slot : UInt64) (a : Option Pubkey) :
    (programData slot a).serializedSize ≤ programdataDataOffset := by
  cases a with
  | none => exact Nat.le_of_ble_eq_true rfl
  | some a => exact le_rfl

/-- Setting the state of a buffer or of a ProgramData account. -/
theorem setAuthority_lifecycle {ks : List KeyedAccount} {s s' : Accounts}
    (h : setAuthority ks s = .ok s') (k : Pubkey) : Lifecycle rt .setAuthority ks s s' k := by
  simp only [setAuthority, do_ok_iff, keyedAccountAtIndex_eq_ok, state_eq_ok] at h
  obtain ⟨account, hk₀, authority, hk₁, st, hst, h⟩ := h
  cases st with
  | uninitialized => cases h
  | program pd => cases h
  | buffer a =>
    simp only [do_ok_iff, exists_unit, reject_eq_ok, requireAuthority_eq_ok, setState_eq_ok] at h
    obtain ⟨-, ⟨rfl, hsig⟩, data, hd, rfl⟩ := h
    by_cases hk : k = account.key
    · subst hk
      apply Lifecycle.buffer
      · exact .inr ⟨_, mem_signerKeys hk₁ hsig, hst⟩
      · exact .inr ⟨_, by simpa using (setStateOf_eq_some hd).1⟩
      · simp
      · simp
      · exact ⟨account, List.mem_of_getElem? hk₀, rfl⟩
    · exact Lifecycle.setData_other hk
  | programData slot a =>
    simp only [do_ok_iff, exists_unit, requireAuthority_eq_ok, setState_eq_ok] at h
    obtain ⟨⟨rfl, hsig⟩, data, hd, rfl⟩ := h
    obtain ⟨hnew, -, htail⟩ := setStateOf_eq_some hd
    by_cases hk : k = account.key
    · subst hk
      apply Lifecycle.authority slot authority.key (ks[2]?.map (·.key))
      · exact mem_signerKeys hk₁ hsig
      · exact hst
      · simpa using hnew
      · rw [programCode, setData_data, if_pos rfl,
          htail _ (serializedSize_programData_le slot _)]
        rfl
      · simp
      · simp
      · simp
      · exact ⟨account, List.mem_of_getElem? hk₀, rfl⟩
    · exact Lifecycle.setData_other hk

/-- A ProgramData account gets the authority that is named, or none, and its code stays. -/
theorem setAuthority_programData {ks : List KeyedAccount} {s s' : Accounts} {k : Pubkey}
    {slot : UInt64} {a : Option Pubkey} (h : setAuthority ks s = .ok s')
    (hk : ks[0]?.map (·.key) = some k)
    (hst : stateOf (s k).data = some (.programData slot a)) :
    stateOf (s' k).data = some (.programData slot (ks[2]?.map (·.key))) ∧
      programCode (s' k) = programCode (s k) := by
  simp only [setAuthority, do_ok_iff, keyedAccountAtIndex_eq_ok, state_eq_ok] at h
  obtain ⟨account, hk₀, authority, -, st, hst', h⟩ := h
  rw [hk₀] at hk
  obtain rfl : account.key = k := Option.some.inj hk
  obtain rfl := Option.some.inj (hst.symm.trans hst')
  simp only [do_ok_iff, exists_unit, setState_eq_ok] at h
  obtain ⟨-, data, hd, rfl⟩ := h
  obtain ⟨hnew, -, htail⟩ := setStateOf_eq_some hd
  simp only [programCode, setData_data, if_true]
  exact ⟨hnew, htail _ (serializedSize_programData_le slot _)⟩

theorem commonCloseAccount_contents {a : Option Pubkey} {authority : KeyedAccount}
    {closeAccount recipientAccount : Pubkey} {s s' : Accounts}
    (h : commonCloseAccount a authority closeAccount recipientAccount s = .ok s') :
    (s' closeAccount).executable = (s closeAccount).executable ∧
      ∀ k ≠ closeAccount, OnlyCredited (s k) (s' k) := by
  simp only [commonCloseAccount, do_ok_iff, exists_unit, setState_eq_ok] at h
  obtain ⟨-, s₁, hdrain, data, -, rfl⟩ := h
  constructor
  · rw [setData_executable]
    exact (drain_contents hdrain closeAccount).1.executable
  · intro k hk
    have h₁ := (drain_contents hdrain k).2 hk
    exact h₁.trans ⟨⟨by simp [hk], by simp, by simp⟩, by simp⟩

theorem close_lifecycle {ks : List KeyedAccount} {s s' : Accounts}
    (h : close rt.toRuntime ks s = .ok s') (k : Pubkey) : Lifecycle rt .close ks s s' k := by
  simp only [close, do_ok_iff, exists_unit, reject_eq_ok, keyedAccountAtIndex_eq_ok,
    state_eq_ok] at h
  obtain ⟨closeAccount, hk₀, recipientAccount, -, -, st, hst, h⟩ := h
  cases st with
  | uninitialized =>
    have h₁ := drain_contents h k
    by_cases hk : k = closeAccount.key
    · subst hk
      exact .drained h₁.1 (.inl hst) ⟨closeAccount, List.mem_of_getElem? hk₀, rfl⟩
    · exact .kept (h₁.2 hk)
  | buffer a =>
    simp only [do_ok_iff, keyedAccountAtIndex_eq_ok] at h
    obtain ⟨authority, hk₂, h⟩ := h
    obtain ⟨rfl, hsig, hnew, howner, -⟩ := commonCloseAccount_effect h
    obtain ⟨hexec, hframe⟩ := commonCloseAccount_contents h
    by_cases hk : k = closeAccount.key
    · subst hk
      exact .buffer (.inr ⟨_, mem_signerKeys hk₂ hsig, hst⟩) (.inl hnew) (howner _) hexec
        ⟨closeAccount, List.mem_of_getElem? hk₀, rfl⟩
    · exact .kept (hframe k hk)
  | program pd => cases h
  | programData slot a =>
    simp only [do_ok_iff, exists_unit, keyedAccountAtIndex_eq_ok] at h
    obtain ⟨programAccount, -, -, -, pst, -, pda, -, -, authority, hk₂, h⟩ := h
    obtain ⟨rfl, hsig, hnew, howner, -⟩ := commonCloseAccount_effect h
    obtain ⟨hexec, hframe⟩ := commonCloseAccount_contents h
    by_cases hk : k = closeAccount.key
    · subst hk
      exact .closed slot _ (mem_signerKeys hk₂ hsig) hst hnew (howner _) hexec
        ⟨closeAccount, List.mem_of_getElem? hk₀, rfl⟩
    · exact .kept (hframe k hk)

theorem close_uninitialized {ks : List KeyedAccount} {s s' : Accounts}
    (h : close rt.toRuntime ks s = .ok s') {k : Pubkey} (hk : ks[0]?.map (·.key) = some k) :
    stateOf (s' k).data = some .uninitialized := by
  simp only [close, do_ok_iff, exists_unit, reject_eq_ok, keyedAccountAtIndex_eq_ok,
    state_eq_ok] at h
  obtain ⟨closeAccount, hk₀, recipientAccount, -, -, st, hst, h⟩ := h
  obtain rfl : closeAccount.key = k := by simpa [hk₀] using hk
  cases st with
  | uninitialized =>
    rw [(drain_contents h _).1.data]
    exact hst
  | buffer a =>
    obtain ⟨authority, -, h⟩ := do_ok_iff.mp h
    exact (commonCloseAccount_effect h).2.2.1
  | program pd => cases h
  | programData slot a =>
    simp only [do_ok_iff, exists_unit] at h
    obtain ⟨programAccount, -, -, -, pst, -, pda, -, -, authority, -, h⟩ := h
    exact (commonCloseAccount_effect h).2.2.1

/-- What an accepted upgrade has checked and what it has done. -/
structure Upgraded (rt : BpfRuntime System) (slot slot' : UInt64)
    (programdata program buffer authority : Pubkey) (s s' : Accounts) : Prop where
  program_state : stateOf (s program).data = some (.program programdata)
  program_owner : (s program).owner = rt.loaderId
  buffer_state : stateOf (s buffer).data = some (.buffer (some authority))
  before : stateOf (s programdata).data = some (.programData slot' (some authority))
  after : stateOf (s' programdata).data = some (.programData slot (some authority))
  code : ∃ n, programCode (s' programdata) = bufferCode (s buffer) ++ List.replicate n 0
  owner : (s' programdata).owner = (s programdata).owner
  executable : (s' programdata).executable = (s programdata).executable
  funded : 0 < (s' programdata).lamports
  frame : ∀ k ≠ programdata, SameContents (s k) (s' k) ∧
    (k ≠ buffer → (s k).lamports ≤ (s' k).lamports)

/-- An upgrade writes the buffer behind the new state, and zeros over what was longer before. -/
theorem upgrade_upgraded {slot : UInt64} {ks : List KeyedAccount} {s s' : Accounts}
    (h : upgrade rt.toRuntime slot ks s = .ok s') :
    ∃ (programdata program buffer authority : KeyedAccount) (slot' : UInt64),
      ks[0]? = some programdata ∧ ks[1]? = some program ∧ ks[2]? = some buffer ∧
      authority.key ∈ signerKeys ks ∧
      Upgraded rt slot slot' programdata.key program.key buffer.key authority.key s s' := by
  simp only [upgrade, do_ok_iff, exists_unit, keyedAccountAtIndex_eq_ok, state_eq_ok,
    demand_eq_ok, reject_eq_ok, asBuffer_eq_some, asProgram_eq_some, asProgramData_eq_some,
    requireBufferAuthority_eq_ok, requireAuthority_eq_ok, setState_eq_ok, writeProgramData_eq_ok,
    checkedAddLamports, Except.ok.injEq, ne_eq, not_not] at h
  obtain ⟨programdata, hk₀, program, hk₁, buffer, hk₂, rentAccount, -, -, clockAccount, -, -,
    authority, hk₆, -, -, howner, pst, hpst, pda, rfl, rfl, bst, hbst, a, rfl, ⟨rfl, hsig⟩,
    -, -, -, dst, hdst, a', ⟨slot', rfl⟩, ⟨rfl, -⟩, -, spill, -, s₁, ⟨d, hd, rfl⟩, s₂,
    ⟨hfit, rfl⟩, hspill, s₃, ⟨-, rfl⟩, rfl⟩ := h
  have hne : buffer.key ≠ programdata.key := by
    intro he
    rw [he, hdst] at hbst
    cases hbst
  obtain ⟨hnew, hlen, -⟩ := setStateOf_eq_some hd
  simp only [setData_data, if_neg hne, if_true, List.length_append, List.length_drop,
    List.length_replicate] at hfit
  refine ⟨programdata, program, buffer, authority, slot', hk₀, hk₁, hk₂, mem_signerKeys hk₆ hsig,
    ⟨hpst, howner, hbst, hdst, ?_, ?_, ?_, ?_, ?_, ?_⟩⟩
  · simp only [setLamports_data, setData_data, if_neg hne, if_true]
    refine stateOf_splice hnew (serializedSize_programData_le slot _) ?_
    simpa using hfit
  · refine ⟨d.length - programdataDataOffset -
      ((s buffer.key).data.length - bufferDataOffset), ?_⟩
    simp only [programCode, setLamports_data, setData_data, if_neg hne, if_true]
    apply splice_drop_end
    simp only [List.length_append, List.length_drop, List.length_replicate]
    omega
  · simp
  · simp
  · simp only [setLamports_lamports, if_true]
    omega
  · intro k hk
    refine ⟨⟨by simp [hk], by simp, by simp⟩, ?_⟩
    intro hb
    rw [setLamports_lamports, if_neg hk, setLamports_lamports, if_neg hb, setLamports_lamports]
    split_ifs with he
    · subst he
      simp
    · simp

theorem upgrade_lifecycle {slot : UInt64} {ks : List KeyedAccount} {s s' : Accounts}
    (h : upgrade rt.toRuntime slot ks s = .ok s') (k : Pubkey) :
    Lifecycle rt .upgrade ks s s' k := by
  obtain ⟨programdata, program, buffer, authority, slot', hk₀, hk₁, hk₂, hsig, hu⟩ :=
    upgrade_upgraded h
  by_cases hk : k = programdata.key
  · subst hk
    apply Lifecycle.upgraded program.key buffer.key authority.key slot' slot rfl
    · simp [hk₁]
    · simp [hk₂]
    · exact hsig
    · exact hu.program_state
    · exact hu.program_owner
    · exact hu.buffer_state
    · exact hu.before
    · exact hu.after
    · exact hu.code
    · exact hu.owner
    · exact hu.executable
    · exact hu.funded
    · exact ⟨programdata, List.mem_of_getElem? hk₀, rfl⟩
  obtain ⟨hsame, hlamports⟩ := hu.frame k hk
  by_cases hb : k = buffer.key
  · subst hb
    exact .drained hsame (.inr ⟨_, hsig, hu.buffer_state⟩) ⟨buffer, List.mem_of_getElem? hk₂, rfl⟩
  · exact .kept ⟨hsame, hlamports hb⟩

theorem recordProgram_executable {slot : UInt64} {authority programdata program buffer : Pubkey}
    {s s' : Accounts} (h : recordProgram slot authority programdata program buffer s = .ok s')
    (k : Pubkey) : (s' k).executable = (if k = program then true else (s k).executable) ∧
      (s' k).lamports = (s k).lamports := by
  simp only [recordProgram, do_ok_iff, setState_eq_ok, writeProgramData_eq_ok,
    Except.ok.injEq] at h
  obtain ⟨s₁, ⟨d, -, rfl⟩, s₂, ⟨-, rfl⟩, s₃, ⟨p, -, rfl⟩, rfl⟩ := h
  simp

/-- The parts of a deployment that concern neither states nor code. -/
theorem deploy_executable (hrt : rt.Lawful) {slot maxDataLen : UInt64} {ks : List KeyedAccount}
    {s s' : Accounts} (h : deployWithMaxDataLen rt.toRuntime slot maxDataLen ks s = .ok s') :
    ∃ program buffer : KeyedAccount, ks[2]? = some program ∧ ks[3]? = some buffer ∧
      rt.minimumBalance (s program.key).data.length ≤ (s program.key).lamports ∧
      (s' program.key).executable = true ∧
      (program.key ≠ rt.findProgramAddress program.key →
        (s' (rt.findProgramAddress program.key)).executable = false) ∧
      ∀ k ≠ rt.findProgramAddress program.key, rt.Protected (s k).owner →
        (k ≠ program.key → (s' k).executable = (s k).executable) ∧
        (k ≠ buffer.key → (s k).lamports ≤ (s' k).lamports) := by
  simp only [deployWithMaxDataLen, do_ok_iff, exists_unit, keyedAccountAtIndex_eq_ok,
    reject_eq_ok, ne_eq, not_not, Nat.not_lt] at h
  obtain ⟨payer, -, programdata, -, program, hk₂, buffer, hk₃, rentAccount, -, -, clockAccount,
    -, -, authority, -, pst, -, -, -, hfunded, bst, -, a, -, -, -, -, -, hderived, s₁, hdrain, s₂,
    hcreate, -, s₃, hrecord, hfinal⟩ := h
  refine ⟨program, buffer, hk₂, hk₃, hfunded, ?_, ?_, ?_⟩
  · rw [(drainWhen_contents hfinal _).1.executable, (recordProgram_executable hrecord _).1,
      if_pos rfl]
  · intro hne
    rw [(drainWhen_contents hfinal _).1.executable, (recordProgram_executable hrecord _).1,
      if_neg (Ne.symm hne), hderived]
    exact hrt.createAccount_not_executable hcreate
  · intro k hk hprotected
    have h₁ := drainWhen_contents hdrain k
    have h₂ : OnlyCredited (s₁ k) (s₂ k) := by
      apply hrt.createAccount_credits hcreate
      rw [h₁.1.owner]
      exact hprotected
    have h₃ := recordProgram_executable hrecord k
    have h₄ := drainWhen_contents hfinal k
    constructor
    · intro hp
      rw [h₄.1.executable, h₃.1, if_neg hp, h₂.executable, h₁.1.executable]
    · intro hb
      have ha := (h₁.2 hb).lamports
      have hc := (h₄.2 hb).lamports
      have := h₂.lamports
      rw [h₃.2] at hc
      omega

theorem deploy_lifecycle (hrt : rt.Lawful) {slot maxDataLen : UInt64} {ks : List KeyedAccount}
    {s s' : Accounts} (h : deployWithMaxDataLen rt.toRuntime slot maxDataLen ks s = .ok s')
    (k : Pubkey) : Lifecycle rt (.deployWithMaxDataLen maxDataLen) ks s s' k := by
  obtain ⟨payer, programdata, program, buffer, authority, -, hk₂, hk₃, hk₇, hsig, -, hd⟩ :=
    deploy_effect hrt.toLawful h
  obtain ⟨program', buffer', hk₂', hk₃', hfunded, hexec, hnotExec, hrest⟩ := deploy_executable hrt h
  obtain rfl : program = program' := Option.some.inj (hk₂.symm.trans hk₂')
  obtain rfl : buffer = buffer' := Option.some.inj (hk₃.symm.trans hk₃')
  have hne : program.key ≠ programdata.key := by
    intro he
    have hfresh := hd.program_fresh
    rw [he, hd.programdata_fresh] at hfresh
    cases hfresh
  by_cases hpd : k = programdata.key
  · subst hpd
    apply Lifecycle.created maxDataLen program.key buffer.key authority.key slot rfl
    · simp [hk₂]
    · simp [hk₃]
    · exact mem_signerKeys hk₇ hsig
    · exact hd.derived
    · exact hd.program_fresh
    · exact hd.buffer_state
    · exact hd.programdata_fresh
    · exact hd.programdata_state
    · exact hd.programdata_code
    · exact hd.programdata_owner
    · rw [← hd.derived]
      exact hnotExec (by rwa [hd.derived])
    · exact hd.programdata_funded
  have hk : k ≠ rt.findProgramAddress program.key := by rwa [hd.derived]
  by_cases hp : k = program.key
  · subst hp
    apply Lifecycle.deployed maxDataLen rfl
    · simp [hk₂]
    · exact hd.program_fresh
    · rw [hd.derived]
      exact hd.program_state
    · exact hfunded
    · exact hd.owner_frame _ hpd
    · exact hexec
    · intro hprotected
      apply (hrest _ hk hprotected).2
      intro he
      have hbuffer := hd.buffer_state
      rw [← he, hd.program_fresh] at hbuffer
      cases hbuffer
  have hdata := hd.data_frame k hpd hp
  have howner := hd.owner_frame k hpd
  by_cases hprotected : rt.Protected (s k).owner
  · obtain ⟨hexec', hlamports⟩ := hrest k hk hprotected
    have hsame : SameContents (s k) (s' k) := ⟨hdata, howner, hexec' hp⟩
    by_cases hb : k = buffer.key
    · subst hb
      exact .drained hsame (.inr ⟨_, mem_signerKeys hk₇ hsig, hd.buffer_state⟩)
        ⟨buffer, List.mem_of_getElem? hk₃, rfl⟩
    · exact .kept ⟨hsame, hlamports hb⟩
  · exact .foreign hprotected hdata howner

/-- Every arm of the processor treats every account in one of these ways. -/
theorem processInstruction_lifecycle (hrt : rt.Lawful) {slot : UInt64}
    {ix : UpgradeableLoaderInstruction} {ks : List KeyedAccount} {s s' : Accounts}
    (h : processInstruction rt.toRuntime slot ix ks s = .ok s') (k : Pubkey) :
    Lifecycle rt ix ks s s' k := by
  cases ix with
  | initializeBuffer => exact initializeBuffer_lifecycle h k
  | write offset bytes => exact write_lifecycle h k
  | deployWithMaxDataLen maxDataLen => exact deploy_lifecycle hrt h k
  | upgrade => exact upgrade_lifecycle h k
  | setAuthority => exact setAuthority_lifecycle h k
  | close => exact close_lifecycle h k
  | extendProgram n => cases h
  | setAuthorityChecked => cases h

end SolanaSample.Loader
