import SolanaSample.Loader.Effects

/-! What one account may go through when anybody submits an instruction to the loader. -/
namespace SolanaSample.Loader
open PrefixCodec Splice UpgradeableLoaderState

variable {System : Type} {rt : Runtime System}

/-- The ways in which an accepted instruction may treat one account. -/
inductive Change (rt : Runtime System) (ix : UpgradeableLoaderInstruction)
    (ks : List KeyedAccount) (s s' : Accounts) (k : Pubkey) : Prop where
  | kept (data : (s' k).data = (s k).data) (owner : (s' k).owner = (s k).owner)
      (lamports : (s k).lamports ≤ (s' k).lamports ∨ k ∈ signerKeys ks ∨
        ∀ slot a, stateOf (s k).data ≠ some (.programData slot a))
  /-- Its authority signed. -/
  | authorizedBuffer (a : Pubkey) (signed : a ∈ signerKeys ks)
      (before : stateOf (s k).data = some (.buffer (some a)))
      (after : stateOf (s' k).data = some .uninitialized ∨
        ∃ a', stateOf (s' k).data = some (.buffer a'))
      (owner : (s' k).owner = (s k).owner)
  | authorizedProgramData (slot : UInt64) (a : Pubkey) (signed : a ∈ signerKeys ks)
      (before : stateOf (s k).data = some (.programData slot (some a)))
      (owner : (s' k).owner = (s k).owner)
  /-- It was uninitialised, and nobody in particular had to sign. -/
  | initialized (authority : Pubkey) (instruction : ix = .initializeBuffer)
      (account : (ks[0]?.map (·.key)) = some k)
      (second : (ks[1]?.map (·.key)) = some authority)
      (before : stateOf (s k).data = some .uninitialized)
      (after : stateOf (s' k).data = some (.buffer (some authority)))
      (contents : (s' k).data.drop bufferDataOffset = (s k).data.drop bufferDataOffset)
      (owner : (s' k).owner = (s k).owner)
  | deployed (maxDataLen : UInt64) (instruction : ix = .deployWithMaxDataLen maxDataLen)
      (account : (ks[2]?.map (·.key)) = some k)
      (before : stateOf (s k).data = some .uninitialized)
      (owner : (s' k).owner = (s k).owner)
  | created (program : Pubkey) (derived : rt.findProgramAddress program = k)
      (before : (s k).data = [])

theorem stateOf_ne_programData {data : List UInt8} {st : UpgradeableLoaderState}
    (h : stateOf data = some st) (hst : asProgramData st = none) (slot : UInt64)
    (a : Option Pubkey) : stateOf data ≠ some (.programData slot a) := by
  intro he
  obtain rfl := Option.some.inj (h.symm.trans he)
  cases hst

/-- Setting the data of one account keeps the others. -/
theorem Change.setData_other {ix : UpgradeableLoaderInstruction} {ks : List KeyedAccount}
    {s : Accounts} {j k : Pubkey} {data : List UInt8} (hk : k ≠ j) :
    Change rt ix ks s (setData s j data) k := by
  apply Change.kept
  · simp [hk]
  · simp
  · left
    simp

theorem initializeBuffer_change {ks : List KeyedAccount} {s s' : Accounts}
    (h : initializeBuffer ks s = .ok s') (k : Pubkey) :
    Change rt .initializeBuffer ks s s' k := by
  obtain ⟨buffer, authority, data, hk₀, hk₁, hst, hd, rfl⟩ := initializeBuffer_effect h
  obtain ⟨hnew, -, htail⟩ := setStateOf_eq_some hd
  by_cases hk : k = buffer.key
  · subst hk
    apply Change.initialized authority.key rfl
    · simp [hk₀]
    · simp [hk₁]
    · exact hst
    · simpa using hnew
    · simpa using htail bufferDataOffset le_rfl
    · simp
  · exact Change.setData_other hk

theorem write_change {offset : UInt32} {bytes : ByteString} {ks : List KeyedAccount}
    {s s' : Accounts} (h : write offset bytes ks s = .ok s') (k : Pubkey) :
    Change rt (.write offset bytes) ks s s' k := by
  obtain ⟨buffer, authority, -, hk₁, hsig, hst, hfit, rfl⟩ := write_effect h
  by_cases hk : k = buffer.key
  · subst hk
    apply Change.authorizedBuffer _ (mem_signerKeys hk₁ hsig) hst
    · right
      refine ⟨some authority.key, ?_⟩
      rw [setData_data, if_pos rfl]
      exact stateOf_splice hst (Nat.le_add_right _ _) hfit
    · simp
  · exact Change.setData_other hk

theorem deployWithMaxDataLen_change (hrt : rt.Lawful) {slot maxDataLen : UInt64}
    {ks : List KeyedAccount} {s s' : Accounts}
    (h : deployWithMaxDataLen rt slot maxDataLen ks s = .ok s') (k : Pubkey) :
    Change rt (.deployWithMaxDataLen maxDataLen) ks s s' k := by
  obtain ⟨payer, programdata, program, buffer, authority, -, hk₂, -, -, -, hpayer, hd⟩ :=
    deploy_effect hrt h
  by_cases hpd : k = programdata.key
  · subst hpd
    exact .created _ hd.derived hd.programdata_fresh
  by_cases hp : k = program.key
  · subst hp
    apply Change.deployed maxDataLen rfl
    · simp [hk₂]
    · exact hd.program_fresh
    · exact hd.owner_frame _ hpd
  apply Change.kept (hd.data_frame k hpd hp) (hd.owner_frame k hpd)
  by_cases hb : k = buffer.key
  · subst hb
    exact .inr (.inr (stateOf_ne_programData hd.buffer_state rfl))
  by_cases hpay : k = payer.key
  · subst hpay
    rcases List.mem_cons.mp hpayer with he | hmem
    · exact absurd he hpd
    · exact .inr (.inl hmem)
  · exact .inl (hd.lamports_frame k hpd hb hpay)

theorem upgrade_change {slot : UInt64} {ks : List KeyedAccount} {s s' : Accounts}
    (h : upgrade rt slot ks s = .ok s') (k : Pubkey) : Change rt .upgrade ks s s' k := by
  obtain ⟨programdata, buffer, authority, slot', hsig, hst, hbst, howner, hframe⟩ :=
    upgrade_effect h
  by_cases hpd : k = programdata.key
  · subst hpd
    exact .authorizedProgramData slot' authority.key hsig hst (howner _)
  obtain ⟨hdata, hlamports⟩ := hframe k hpd
  apply Change.kept hdata (howner k)
  by_cases hb : k = buffer.key
  · subst hb
    exact .inr (.inr (stateOf_ne_programData hbst rfl))
  · exact .inl (hlamports hb)

theorem setAuthority_change {ks : List KeyedAccount} {s s' : Accounts}
    (h : setAuthority ks s = .ok s') (k : Pubkey) : Change rt .setAuthority ks s s' k := by
  obtain ⟨account, authority, data, hsig, rfl, hst⟩ := setAuthority_effect h
  by_cases hk : k = account.key
  · subst hk
    rcases hst with ⟨hold, a, hnew⟩ | ⟨slot, a, hold, hnew⟩
    · apply Change.authorizedBuffer _ hsig hold
      · right
        exact ⟨a, by simpa using hnew⟩
      · simp
    · exact .authorizedProgramData slot _ hsig hold (by simp)
  · exact Change.setData_other hk

theorem close_change {ks : List KeyedAccount} {s s' : Accounts} (h : close rt ks s = .ok s')
    (k : Pubkey) : Change rt .close ks s s' k := by
  obtain ⟨closeAccount, howner, hframe, hclosed⟩ := close_effect h
  by_cases hk : k = closeAccount.key
  · subst hk
    rcases hclosed with ⟨hst, hdata⟩ | ⟨a, hsig, hnew, hst | ⟨slot, hst⟩⟩
    · exact .kept hdata (howner _) (.inr (.inr (stateOf_ne_programData hst rfl)))
    · exact .authorizedBuffer a hsig hst (.inl hnew) (howner _)
    · exact .authorizedProgramData slot a hsig hst (howner _)
  · obtain ⟨hdata, hlamports⟩ := hframe k hk
    exact .kept hdata (howner k) (.inl hlamports)

/-- Every arm of the processor changes every account in one of these ways. -/
theorem processInstruction_change (hrt : rt.Lawful) {slot : UInt64}
    {ix : UpgradeableLoaderInstruction} {ks : List KeyedAccount} {s s' : Accounts}
    (h : processInstruction rt slot ix ks s = .ok s') (k : Pubkey) : Change rt ix ks s s' k := by
  cases ix with
  | initializeBuffer => exact initializeBuffer_change h k
  | write offset bytes => exact write_change h k
  | deployWithMaxDataLen maxDataLen => exact deployWithMaxDataLen_change hrt h k
  | upgrade => exact upgrade_change h k
  | setAuthority => exact setAuthority_change h k
  | close => exact close_change h k
  | extendProgram n => cases h
  | setAuthorityChecked => cases h

end SolanaSample.Loader
