import SolanaSample.Loader.Process

/-! What an accepted instruction of the loader has checked and what it has changed, one
lemma for each arm of the processor. -/
namespace SolanaSample.Loader
open PrefixCodec Rejection Splice UpgradeableLoaderState

variable {System : Type} {rt : Runtime System}

/-- What a field of the accounts is after one of them is replaced. -/
theorem update_field {β : Type} (f : Account → β) (s : Accounts) (k : Pubkey) (a : Account)
    (j : Pubkey) : f (Function.update s k a j) = if j = k then f a else f (s j) := by
  rw [Function.update_apply, apply_ite f]

theorem update_field_same {β : Type} (f : Account → β) (s : Accounts) (k : Pubkey) (a : Account)
    (h : f a = f (s k)) (j : Pubkey) : f (Function.update s k a j) = f (s j) := by
  rw [update_field f, h]
  split_ifs with hj
  · rw [hj]
  · rfl

@[simp] theorem setData_data (s : Accounts) (k j : Pubkey) (data : List UInt8) :
    (setData s k data j).data = if j = k then data else (s j).data :=
  update_field (·.data) s k _ j

@[simp] theorem setData_owner (s : Accounts) (k j : Pubkey) (data : List UInt8) :
    (setData s k data j).owner = (s j).owner :=
  update_field_same (·.owner) s k { s k with data } rfl j

@[simp] theorem setData_lamports (s : Accounts) (k j : Pubkey) (data : List UInt8) :
    (setData s k data j).lamports = (s j).lamports :=
  update_field_same (·.lamports) s k { s k with data } rfl j

@[simp] theorem setLamports_data (s : Accounts) (k j : Pubkey) (n : ℕ) :
    (setLamports s k n j).data = (s j).data :=
  update_field_same (·.data) s k { s k with lamports := n } rfl j

@[simp] theorem setLamports_owner (s : Accounts) (k j : Pubkey) (n : ℕ) :
    (setLamports s k n j).owner = (s j).owner :=
  update_field_same (·.owner) s k { s k with lamports := n } rfl j

@[simp] theorem setLamports_lamports (s : Accounts) (k j : Pubkey) (n : ℕ) :
    (setLamports s k n j).lamports = if j = k then n else (s j).lamports :=
  update_field (·.lamports) s k _ j

@[simp] theorem setExecutable_data (s : Accounts) (k j : Pubkey) :
    (setExecutable s k j).data = (s j).data :=
  update_field_same (·.data) s k { s k with executable := true } rfl j

@[simp] theorem setExecutable_owner (s : Accounts) (k j : Pubkey) :
    (setExecutable s k j).owner = (s j).owner :=
  update_field_same (·.owner) s k { s k with executable := true } rfl j

@[simp] theorem setExecutable_lamports (s : Accounts) (k j : Pubkey) :
    (setExecutable s k j).lamports = (s j).lamports :=
  update_field_same (·.lamports) s k { s k with executable := true } rfl j

theorem keyedAccountAtIndex_eq_ok {ks : List KeyedAccount} {i : ℕ} {k : KeyedAccount} :
    keyedAccountAtIndex ks i = .ok k ↔ ks[i]? = some k := demand_eq_ok

theorem state_eq_ok {s : Accounts} {k : Pubkey} {st : UpgradeableLoaderState} :
    state s k = .ok st ↔ stateOf (s k).data = some st := demand_eq_ok

theorem setState_eq_ok {s s' : Accounts} {k : Pubkey} {st : UpgradeableLoaderState} :
    setState s k st = .ok s' ↔
      ∃ data, setStateOf st (s k).data = some data ∧ setData s k data = s' := by
  simp only [setState, do_ok_iff, demand_eq_ok, Except.ok.injEq]

theorem writeProgramData_eq_ok {s s' : Accounts} {k : Pubkey} {off : ℕ} {bytes : List UInt8} :
    writeProgramData s k off bytes = .ok s' ↔
      off + bytes.length ≤ (s k).data.length ∧
        setData s k (splice (s k).data off bytes) = s' := by
  simp only [writeProgramData, do_ok_iff, reject_eq_ok, exists_unit, Except.ok.injEq, Nat.not_lt]

theorem requireAuthority_eq_ok {authorityAddress : Option Pubkey} {authority : KeyedAccount} :
    requireAuthority authorityAddress authority = .ok () ↔
      authorityAddress = some authority.key ∧ authority.isSigner = true := by
  simp only [requireAuthority, do_ok_iff, reject_eq_ok, exists_unit, ne_eq, not_not,
    Bool.not_eq_false]
  constructor
  · intro h
    exact h.2
  · intro h
    exact ⟨by simp [h.1], h⟩

theorem requireBufferAuthority_eq_ok {authorityAddress : Option Pubkey}
    {authority : KeyedAccount} :
    requireBufferAuthority authorityAddress authority = .ok () ↔
      authorityAddress = some authority.key ∧ authority.isSigner = true := by
  simp only [requireBufferAuthority, do_ok_iff, reject_eq_ok, exists_unit, ne_eq, not_not,
    Bool.not_eq_false]

theorem asBuffer_eq_some {st : UpgradeableLoaderState} {a : Option Pubkey} :
    asBuffer st = some a ↔ st = .buffer a := by
  cases st <;> simp [asBuffer]

theorem asProgram_eq_some {st : UpgradeableLoaderState} {pd : Pubkey} :
    asProgram st = some pd ↔ st = .program pd := by
  cases st <;> simp [asProgram]

theorem asProgramData_eq_some {st : UpgradeableLoaderState} {a : Option Pubkey} :
    asProgramData st = some a ↔ ∃ slot, st = .programData slot a := by
  cases st <;> simp [asProgramData]

theorem mem_signerKeys {ks : List KeyedAccount} {i : ℕ} {k : KeyedAccount}
    (h : ks[i]? = some k) (hs : k.isSigner = true) : k.key ∈ signerKeys ks := by
  have hmem : k ∈ ks := List.mem_of_getElem? h
  exact List.mem_map.mpr ⟨k, List.mem_filter.mpr ⟨hmem, hs⟩, rfl⟩

theorem limitedDeserialize_eq_ok {data : List UInt8} {ix : UpgradeableLoaderInstruction} :
    limitedDeserialize data = .ok ix ↔ ∃ rest,
      data = UpgradeableLoaderInstruction.codec.encode ix ++ rest ∧
      data.length - rest.length ≤ 1232 := by
  simp only [limitedDeserialize, do_ok_iff, exists_unit, demand_eq_ok, reject_eq_ok,
    Except.ok.injEq, Nat.not_lt]
  constructor
  · rintro ⟨⟨ix', rest⟩, hd, hlen, rfl⟩
    exact ⟨rest, UpgradeableLoaderInstruction.codec.encode_decode _ _ _ hd, hlen⟩
  · rintro ⟨rest, rfl, hlen⟩
    exact ⟨(ix, rest), UpgradeableLoaderInstruction.codec.decode_encode ix rest, hlen, rfl⟩

theorem limitedDeserialize_encode_ok {ix : UpgradeableLoaderInstruction}
    (hlen : (UpgradeableLoaderInstruction.codec.encode ix).length ≤ 1232) :
    limitedDeserialize (UpgradeableLoaderInstruction.codec.encode ix) = .ok ix :=
  limitedDeserialize_eq_ok.mpr ⟨[], (List.append_nil _).symm, by simpa using hlen⟩

/-- Lamports move from the source alone, and nothing else changes. -/
theorem drain_effect {s s' : Accounts} {recipient source : Pubkey}
    (h : drain s recipient source = .ok s') (k : Pubkey) :
    (s' k).data = (s k).data ∧ (s' k).owner = (s k).owner ∧
      (k ≠ source → (s k).lamports ≤ (s' k).lamports) := by
  simp only [drain, checkedAddLamports, do_ok_iff, reject_eq_ok, exists_unit,
    Except.ok.injEq] at h
  obtain ⟨hne, s₁, ⟨-, rfl⟩, rfl⟩ := h
  refine ⟨by simp, by simp, ?_⟩
  intro hk
  rw [setLamports_lamports, if_neg hk, setLamports_lamports]
  split_ifs with he
  · subst he
    omega
  · exact le_rfl

theorem initializeBuffer_effect {ks : List KeyedAccount} {s s' : Accounts}
    (h : initializeBuffer ks s = .ok s') : ∃ buffer authority data,
      ks[0]? = some buffer ∧ ks[1]? = some authority ∧
      stateOf (s buffer.key).data = some .uninitialized ∧
      setStateOf (.buffer (some authority.key)) (s buffer.key).data = some data ∧
      s' = setData s buffer.key data := by
  simp only [initializeBuffer, do_ok_iff, reject_eq_ok, exists_unit, keyedAccountAtIndex_eq_ok,
    state_eq_ok, setState_eq_ok, ne_eq, not_not] at h
  obtain ⟨buffer, hb, st, hst, rfl, authority, ha, data, hd, rfl⟩ := h
  exact ⟨buffer, authority, data, hb, ha, hst, hd, rfl⟩

theorem write_effect {offset : UInt32} {bytes : ByteString} {ks : List KeyedAccount}
    {s s' : Accounts} (h : write offset bytes ks s = .ok s') : ∃ buffer authority,
      ks[0]? = some buffer ∧ ks[1]? = some authority ∧ authority.isSigner = true ∧
      stateOf (s buffer.key).data = some (.buffer (some authority.key)) ∧
      bufferDataOffset + offset.toNat + bytes.bytes.length ≤ (s buffer.key).data.length ∧
      s' = setData s buffer.key
        (splice (s buffer.key).data (bufferDataOffset + offset.toNat) bytes.bytes) := by
  simp only [write, do_ok_iff, exists_unit, keyedAccountAtIndex_eq_ok, state_eq_ok, demand_eq_ok,
    asBuffer_eq_some, requireAuthority_eq_ok, writeProgramData_eq_ok] at h
  obtain ⟨buffer, hb, authority, ha, st, hst, a, rfl, ⟨rfl, hsig⟩, hfit, rfl⟩ := h
  exact ⟨buffer, authority, hb, ha, hsig, hst, hfit, rfl⟩

theorem drainWhen_effect {c : Bool} {s s' : Accounts} {recipient source : Pubkey}
    (h : drainWhen c s recipient source = .ok s') (k : Pubkey) :
    (s' k).data = (s k).data ∧ (s' k).owner = (s k).owner ∧
      (k ≠ source → (s k).lamports ≤ (s' k).lamports) := by
  unfold drainWhen at h
  split_ifs at h with hc
  · exact drain_effect h k
  · obtain rfl := Except.ok.inj h
    exact ⟨rfl, rfl, fun _ => le_rfl⟩

/-- The fresh ProgramData account gets its state and the bytes of the buffer, and the zeros
it was created with stay behind them. -/
theorem recordProgram_effect {slot : UInt64} {authority programdata program buffer : Pubkey}
    {s s' : Accounts} {n : ℕ} (hpd : (s programdata).data = List.replicate n 0)
    (hprogram : program ≠ programdata) (hbuffer : buffer ≠ programdata)
    (h : recordProgram slot authority programdata program buffer s = .ok s') :
    stateOf (s' program).data = some (.program programdata) ∧
      stateOf (s' programdata).data = some (.programData slot (some authority)) ∧
      (∃ m, (s' programdata).data.drop programdataDataOffset =
        (s buffer).data.drop bufferDataOffset ++ List.replicate m 0) ∧
      (∀ k, (s' k).owner = (s k).owner ∧ (s' k).lamports = (s k).lamports) ∧
      ∀ k, k ≠ programdata → k ≠ program → (s' k).data = (s k).data := by
  simp only [recordProgram, do_ok_iff, setState_eq_ok, writeProgramData_eq_ok,
    Except.ok.injEq] at h
  obtain ⟨s₁, ⟨d, hd, rfl⟩, s₂, ⟨hfit, rfl⟩, s₃, ⟨p, hp, rfl⟩, rfl⟩ := h
  obtain ⟨hpst, -, -⟩ := setStateOf_eq_some hp
  obtain ⟨hdst, hdlen, htail⟩ := setStateOf_eq_some hd
  have hcode := htail programdataDataOffset le_rfl
  simp only [setData_data, if_neg hbuffer, if_true] at hfit
  refine ⟨?_, ?_, ?_, fun k => by simp, fun k hk hk' => by simp [hk, hk']⟩
  · simpa using hpst
  · simp only [setExecutable_data, setData_data, if_neg hprogram.symm, if_neg hbuffer, if_true]
    exact stateOf_splice hdst le_rfl hfit
  · -- Behind the header the new bytes lie at the front, the rest is what was there.
    have hsplice := @splice_drop _ _ _ 0 programdataDataOffset hfit
    refine ⟨n - programdataDataOffset - ((s buffer).data.drop bufferDataOffset).length, ?_⟩
    simp only [setExecutable_data, setData_data, if_neg hprogram.symm, if_neg hbuffer, if_true]
    rw [Nat.add_zero] at hsplice
    rw [hsplice, hcode, hpd, splice, List.take_zero, List.nil_append, Nat.zero_add,
      List.drop_replicate, List.drop_replicate]

/-- What an accepted deployment has checked and what it has done. -/
structure Deployed (rt : Runtime System) (slot : UInt64)
    (payer programdata program buffer authority : Pubkey) (s s' : Accounts) : Prop where
  program_fresh : stateOf (s program).data = some .uninitialized
  buffer_state : stateOf (s buffer).data = some (.buffer (some authority))
  derived : rt.findProgramAddress program = programdata
  programdata_fresh : (s programdata).data = []
  program_state : stateOf (s' program).data = some (.program programdata)
  programdata_state : stateOf (s' programdata).data = some (.programData slot (some authority))
  programdata_code : ∃ m, (s' programdata).data.drop programdataDataOffset =
    (s buffer).data.drop bufferDataOffset ++ List.replicate m 0
  programdata_owner : (s' programdata).owner = rt.loaderId
  programdata_funded : 0 < (s' programdata).lamports
  owner_frame : ∀ k ≠ programdata, (s' k).owner = (s k).owner
  data_frame : ∀ k ≠ programdata, k ≠ program → (s' k).data = (s k).data
  lamports_frame : ∀ k ≠ programdata, k ≠ buffer → k ≠ payer → (s k).lamports ≤ (s' k).lamports

theorem deploy_effect (hrt : rt.Lawful) {slot maxDataLen : UInt64} {ks : List KeyedAccount}
    {s s' : Accounts} (h : deployWithMaxDataLen rt slot maxDataLen ks s = .ok s') :
    ∃ payer programdata program buffer authority : KeyedAccount, ks[0]? = some payer ∧
      ks[2]? = some program ∧ ks[3]? = some buffer ∧ ks[7]? = some authority ∧
      authority.isSigner = true ∧
      payer.key ∈ programdata.key :: signerKeys ks ∧
      Deployed rt slot payer.key programdata.key program.key buffer.key authority.key s s' := by
  simp only [deployWithMaxDataLen, do_ok_iff, exists_unit, keyedAccountAtIndex_eq_ok, state_eq_ok,
    demand_eq_ok, reject_eq_ok, asBuffer_eq_some, requireBufferAuthority_eq_ok, ne_eq,
    not_not] at h
  obtain ⟨payer, hk₀, programdata, -, program, hk₂, buffer, hk₃, rentAccount, -, -, clockAccount,
    -, -, authority, hk₇, pst, hpst, rfl, -, -, bst, hbst, a, rfl, ⟨rfl, hsig⟩, -, -, -,
    hderived, s₁, hdrain, s₂, hcreate, -, s₃, hrecord, hfinal⟩ := h
  have h₁ := drainWhen_effect hdrain
  have hfresh := hrt.createAccount_fresh hcreate
  obtain ⟨hzeros, howner, hfunded⟩ := hrt.createAccount_new hcreate
  have h₂ := hrt.createAccount_frame hcreate
  have hsigned := (hrt.createAccount_signed hcreate).1
  simp only [hderived] at hfresh hzeros howner hfunded h₂ hsigned
  rw [(h₁ _).1] at hfresh
  have hprogram : program.key ≠ programdata.key := by
    intro he
    rw [he] at hpst
    exact ne_nil_of_stateOf hpst hfresh
  have hbuffer : buffer.key ≠ programdata.key := by
    intro he
    rw [he] at hbst
    exact ne_nil_of_stateOf hbst hfresh
  have hpb : buffer.key ≠ program.key := by
    intro he
    rw [he, hpst] at hbst
    cases hbst
  obtain ⟨hps, hpds, ⟨m, hcode⟩, hkeep, hdata⟩ :=
    recordProgram_effect hzeros hprogram hbuffer hrecord
  have h₄ := drainWhen_effect hfinal
  refine ⟨payer, programdata, program, buffer, authority, hk₀, hk₂, hk₃, hk₇, hsig, hsigned,
    ⟨hpst, hbst, hderived, hfresh, ?_, ?_, ⟨m, ?_⟩, ?_, ?_, ?_, ?_, ?_⟩⟩
  · rw [(h₄ _).1, hps]
  · rw [(h₄ _).1, hpds]
  · rw [(h₄ _).1, hcode, (h₂ _ hbuffer).1, (h₁ _).1]
  · rw [(h₄ _).2.1, (hkeep _).1, howner]
  · have hle := (h₄ programdata.key).2.2 hbuffer.symm
    rw [(hkeep _).2] at hle
    have hone : 1 ≤ max 1 (rt.minimumBalance (programdataLen maxDataLen.toNat)) := le_max_left _ _
    omega
  · intro k hk
    rw [(h₄ k).2.1, (hkeep k).1, (h₂ k hk).2.1, (h₁ k).2.1]
  · intro k hk hk'
    rw [(h₄ k).1, hdata k hk hk', (h₂ k hk).1, (h₁ k).1]
  · intro k hk hkb hkp
    have ha := (h₁ k).2.2 hkb
    have hb := (h₂ k hk).2.2 hkp
    have hc := (h₄ k).2.2 hkb
    rw [(hkeep k).2] at hc
    omega

theorem upgrade_effect {slot : UInt64} {ks : List KeyedAccount} {s s' : Accounts}
    (h : upgrade rt slot ks s = .ok s') :
    ∃ (programdata buffer authority : KeyedAccount) (slot' : UInt64),
      authority.key ∈ signerKeys ks ∧
      stateOf (s programdata.key).data = some (.programData slot' (some authority.key)) ∧
      stateOf (s buffer.key).data = some (.buffer (some authority.key)) ∧
      (∀ k, (s' k).owner = (s k).owner) ∧
      ∀ k ≠ programdata.key, (s' k).data = (s k).data ∧
        (k ≠ buffer.key → (s k).lamports ≤ (s' k).lamports) := by
  simp only [upgrade, do_ok_iff, exists_unit, keyedAccountAtIndex_eq_ok, state_eq_ok,
    demand_eq_ok, reject_eq_ok, asBuffer_eq_some, asProgram_eq_some, asProgramData_eq_some,
    requireBufferAuthority_eq_ok, requireAuthority_eq_ok, setState_eq_ok, writeProgramData_eq_ok,
    checkedAddLamports, Except.ok.injEq, ne_eq, not_not] at h
  obtain ⟨programdata, -, program, -, buffer, -, rentAccount, -, -, clockAccount, -, -,
    authority, hk₆, -, -, -, pst, -, pda, -, -, bst, hbst, a, rfl, ⟨rfl, hsig⟩, -, -, -, dst,
    hdst, a', ⟨slot', rfl⟩, ⟨rfl, -⟩, -, spill, -, s₁, ⟨d, -, rfl⟩, s₂, ⟨-, rfl⟩, hspill, s₃,
    ⟨-, rfl⟩, rfl⟩ := h
  refine ⟨programdata, buffer, authority, slot', mem_signerKeys hk₆ hsig, hdst, hbst,
    fun k => by simp, ?_⟩
  intro k hk
  refine ⟨by simp [hk], ?_⟩
  intro hkb
  rw [setLamports_lamports, if_neg hk, setLamports_lamports, if_neg hkb, setLamports_lamports]
  split_ifs with he
  · subst he
    simp
  · simp

theorem setAuthority_effect {ks : List KeyedAccount} {s s' : Accounts}
    (h : setAuthority ks s = .ok s') :
    ∃ (account authority : KeyedAccount) (data : List UInt8), authority.key ∈ signerKeys ks ∧
      s' = setData s account.key data ∧
      ((stateOf (s account.key).data = some (.buffer (some authority.key)) ∧
          ∃ a, stateOf data = some (.buffer a)) ∨
        ∃ slot a, stateOf (s account.key).data = some (.programData slot (some authority.key)) ∧
          stateOf data = some (.programData slot a)) := by
  simp only [setAuthority, do_ok_iff, keyedAccountAtIndex_eq_ok, state_eq_ok] at h
  obtain ⟨account, -, authority, hk₁, st, hst, h⟩ := h
  cases st with
  | uninitialized => cases h
  | program pd => cases h
  | buffer a =>
    simp only [do_ok_iff, exists_unit, reject_eq_ok, requireAuthority_eq_ok, setState_eq_ok] at h
    obtain ⟨-, ⟨rfl, hsig⟩, data, hd, rfl⟩ := h
    exact ⟨account, authority, data, mem_signerKeys hk₁ hsig, rfl,
      .inl ⟨hst, _, (setStateOf_eq_some hd).1⟩⟩
  | programData slot a =>
    simp only [do_ok_iff, exists_unit, requireAuthority_eq_ok, setState_eq_ok] at h
    obtain ⟨⟨rfl, hsig⟩, data, hd, rfl⟩ := h
    exact ⟨account, authority, data, mem_signerKeys hk₁ hsig, rfl,
      .inr ⟨_, _, hst, (setStateOf_eq_some hd).1⟩⟩

theorem commonCloseAccount_effect {a : Option Pubkey} {authority : KeyedAccount}
    {closeAccount recipientAccount : Pubkey} {s s' : Accounts}
    (h : commonCloseAccount a authority closeAccount recipientAccount s = .ok s') :
    a = some authority.key ∧ authority.isSigner = true ∧
      stateOf (s' closeAccount).data = some .uninitialized ∧
      (∀ k, (s' k).owner = (s k).owner) ∧
      ∀ k ≠ closeAccount, (s' k).data = (s k).data ∧ (s k).lamports ≤ (s' k).lamports := by
  simp only [commonCloseAccount, do_ok_iff, exists_unit, requireAuthority_eq_ok,
    setState_eq_ok] at h
  obtain ⟨⟨ha, hsig⟩, s₁, hdrain, data, hd, rfl⟩ := h
  have h₁ := drain_effect hdrain
  refine ⟨ha, hsig, by simpa using (setStateOf_eq_some hd).1, fun k => by simp [(h₁ k).2.1], ?_⟩
  intro k hk
  have hlam := (h₁ k).2.2 hk
  exact ⟨by simp [hk, (h₁ k).1], by simpa using hlam⟩

/-- An uninitialised account is closed by anybody, which takes its lamports. -/
theorem close_effect {ks : List KeyedAccount} {s s' : Accounts} (h : close rt ks s = .ok s') :
    ∃ closeAccount : KeyedAccount, (∀ k, (s' k).owner = (s k).owner) ∧
      (∀ k ≠ closeAccount.key, (s' k).data = (s k).data ∧ (s k).lamports ≤ (s' k).lamports) ∧
      ((stateOf (s closeAccount.key).data = some .uninitialized ∧
          (s' closeAccount.key).data = (s closeAccount.key).data) ∨
        ∃ a ∈ signerKeys ks, stateOf (s' closeAccount.key).data = some .uninitialized ∧
          (stateOf (s closeAccount.key).data = some (.buffer (some a)) ∨
            ∃ slot, stateOf (s closeAccount.key).data = some (.programData slot (some a)))) := by
  simp only [close, do_ok_iff, exists_unit, reject_eq_ok, keyedAccountAtIndex_eq_ok,
    state_eq_ok] at h
  obtain ⟨closeAccount, -, recipientAccount, -, -, st, hst, h⟩ := h
  refine ⟨closeAccount, ?_⟩
  cases st with
  | uninitialized =>
    have h₁ := drain_effect h
    exact ⟨fun k => (h₁ k).2.1, fun k hk => ⟨(h₁ k).1, (h₁ k).2.2 hk⟩,
      .inl ⟨hst, (h₁ _).1⟩⟩
  | buffer a =>
    simp only [do_ok_iff, keyedAccountAtIndex_eq_ok] at h
    obtain ⟨authority, hk₂, h⟩ := h
    obtain ⟨rfl, hsig, hnew, howner, hframe⟩ := commonCloseAccount_effect h
    exact ⟨howner, hframe, .inr ⟨_, mem_signerKeys hk₂ hsig, hnew, .inl hst⟩⟩
  | program pd => cases h
  | programData slot a =>
    simp only [do_ok_iff, exists_unit, keyedAccountAtIndex_eq_ok] at h
    obtain ⟨programAccount, -, -, -, pst, -, pda, -, -, authority, hk₂, h⟩ := h
    obtain ⟨rfl, hsig, hnew, howner, hframe⟩ := commonCloseAccount_effect h
    exact ⟨howner, hframe, .inr ⟨_, mem_signerKeys hk₂ hsig, hnew, .inr ⟨slot, hst⟩⟩⟩

end SolanaSample.Loader
