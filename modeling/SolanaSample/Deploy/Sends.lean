import SolanaSample.Deploy.Script

/-! What the five kinds of transactions of `deployProgram` do when they are executed. -/
namespace SolanaSample.Deploy
open PrefixCodec Splice Rejection Loader UpgradeableLoaderState

variable {System : Type} {rt : Runtime System} {d : Deployment rt} {slot : UInt64}
  {s s' : Accounts} {tx : Transaction System}

theorem limitedDeserialize_encode {ix ix' : UpgradeableLoaderInstruction} {data : List UInt8}
    (hd : data = UpgradeableLoaderInstruction.codec.encode ix)
    (h : limitedDeserialize data = .ok ix') : ix' = ix := by
  subst hd
  simp only [limitedDeserialize, Codec.decode_encode_nil, do_ok_iff, demand_eq_ok, reject_eq_ok,
    exists_unit, Except.ok.injEq] at h
  obtain ⟨r, hr, -, rfl⟩ := h
  rw [← Option.some.inj hr]

/-- A new account with the given number of zeros, and no change elsewhere. -/
structure Created (rt : Runtime System) (k : Pubkey) (space : ℕ) (s s' : Accounts) : Prop where
  fresh : (s k).data = []
  data : (s' k).data = List.replicate space 0
  owner : (s' k).owner = rt.loaderId
  frame : ∀ j ≠ k, (s' j).data = (s j).data ∧ (s' j).owner = (s j).owner

theorem createAccount_created (hrt : rt.Lawful) {signers : List Pubkey} {k payer : Pubkey}
    {lamports space : ℕ}
    (h : rt.createAccount signers ⟨payer, k, lamports, space, rt.loaderId⟩ s = .ok s') :
    Created rt k space s s' := by
  obtain ⟨hzeros, howner, -⟩ := hrt.createAccount_new h
  refine ⟨hrt.createAccount_fresh h, hzeros, howner, ?_⟩
  intro j hj
  obtain ⟨hd, ho, -⟩ := hrt.createAccount_frame h j hj
  exact ⟨hd, ho⟩

theorem execute_createAccountTransaction (hrt : rt.Lawful) {blockhash lamports : ℕ}
    (htx : tx = d.createAccountTransaction blockhash lamports)
    (h : execute rt slot tx.signers tx.instruction s = .ok s') :
    Created rt d.program programAccountSpace s s' := by
  subst htx
  exact createAccount_created hrt h

theorem execute_createBufferAccountTransaction (hrt : rt.Lawful) {blockhash lamports : ℕ}
    (htx : tx = d.createBufferAccountTransaction blockhash lamports)
    (h : execute rt slot tx.signers tx.instruction s = .ok s') :
    Created rt d.buffer d.bufferSize s s' := by
  subst htx
  exact createAccount_created hrt h

theorem execute_createBufferTransaction {blockhash : ℕ}
    (htx : tx = d.createBufferTransaction blockhash)
    (h : execute rt slot tx.signers tx.instruction s = .ok s') :
    ∃ data, stateOf (s d.buffer).data = some .uninitialized ∧
      setStateOf (.buffer (some d.payer)) (s d.buffer).data = some data ∧
      s' = setData s d.buffer data := by
  subst htx
  obtain ⟨ix, hix, hp⟩ := execute_loader_eq_ok h
  have hdata : [0, 0, 0, 0] = UpgradeableLoaderInstruction.codec.encode .initializeBuffer := by
    decide
  obtain rfl := limitedDeserialize_encode hdata hix
  obtain ⟨buffer, authority, data, hk₀, hk₁, hst, hd, rfl⟩ := initializeBuffer_effect hp
  obtain rfl := Option.some.inj hk₀
  obtain rfl := Option.some.inj hk₁
  exact ⟨data, hst, hd, rfl⟩

theorem execute_chunkTransaction {i blockhash : ℕ} (htx : d.chunkTransaction i blockhash = some tx)
    (h : execute rt slot tx.signers tx.instruction s = .ok s') :
    stateOf (s d.buffer).data = some (.buffer (some d.payer)) ∧
      bufferDataOffset + offset i + (chunk d.programData i).bytes.length ≤
        (s d.buffer).data.length ∧
      s' = setData s d.buffer (splice (s d.buffer).data (bufferDataOffset + offset i)
        (chunk d.programData i).bytes) := by
  obtain ⟨hlt, rfl⟩ := Deployment.chunkTransaction_eq_some htx
  obtain ⟨ix, hix, hp⟩ := execute_loader_eq_ok h
  obtain rfl := limitedDeserialize_encode rfl hix
  obtain ⟨buffer, authority, hk₀, hk₁, -, hst, hfit, rfl⟩ := write_effect hp
  obtain rfl := Option.some.inj hk₀
  obtain rfl := Option.some.inj hk₁
  rw [UInt32.toNat_ofNat_of_lt' hlt] at hfit ⊢
  exact ⟨hst, hfit, rfl⟩

theorem execute_finalizeTransaction (hrt : rt.Lawful) {blockhash : ℕ}
    (htx : d.finalizeTransaction blockhash = some tx)
    (h : execute rt slot tx.signers tx.instruction s = .ok s') :
    Deployed rt slot d.payer d.programDataAddress d.program d.buffer d.payer s s' := by
  obtain ⟨-, rfl⟩ := Deployment.finalizeTransaction_eq_some htx
  obtain ⟨ix, hix, hp⟩ := execute_loader_eq_ok h
  obtain rfl := limitedDeserialize_encode rfl hix
  obtain ⟨payer, programdata, program, buffer, authority, hk₀, hk₂, hk₃, hk₇, -, -, hd⟩ :=
    deploy_effect hrt hp
  obtain rfl := Option.some.inj hk₀
  obtain rfl := Option.some.inj hk₂
  obtain rfl := Option.some.inj hk₃
  obtain rfl := Option.some.inj hk₇
  have hpd : d.programDataAddress = programdata.key := hd.derived
  rw [hpd]
  exact hd

end SolanaSample.Deploy
