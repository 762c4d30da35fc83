import SolanaSample.Chain.Service
import SolanaSample.Deploy.World
import SolanaSample.Deploy.Writes

/-! The five kinds of transactions of `deployProgram` are executed when the accounts are as the
transactions before have left them. -/
namespace SolanaSample.Deploy
open PrefixCodec Rejection Loader Splice UpgradeableLoaderState

variable {System : Type} {rt : Runtime System}

namespace Deployment
variable (d : Deployment rt)

def programRent (_ : Deployment rt) : ℕ := rt.minimumBalance programAccountSpace

def bufferRent : ℕ := rt.minimumBalance d.bufferSize

def programDataRent : ℕ := max 1 (rt.minimumBalance (programdataLen d.bufferSize))

/-- The account of the program before it is deployed. -/
def programAccount : Account :=
  ⟨d.programRent, List.replicate programAccountSpace 0, rt.loaderId, false⟩

end Deployment

/-- The payer has the lamports that are still needed, and the ProgramData account is unused. -/
structure Funded (d : Deployment rt) (need : ℕ) (s : Accounts) : Prop where
  payer_owner : (s d.payer).owner = rt.systemId
  payer_data : (s d.payer).data = []
  payer_ne_program : d.payer ≠ d.program
  payer_ne_buffer : d.payer ≠ d.buffer
  funds : need + rt.minimumBalance 0 ≤ (s d.payer).lamports
  bounded : (s d.payer).lamports + (s d.buffer).lamports < 2 ^ 64
  programdata : s d.programDataAddress = rt.unused

structure Unstarted (d : Deployment rt) (s : Accounts) : Prop
    extends Funded d (d.programRent + d.bufferRent + d.programDataRent) s where
  program : s d.program = rt.unused
  buffer : s d.buffer = rt.unused

structure ProgramCreated (d : Deployment rt) (s : Accounts) : Prop
    extends Funded d (d.bufferRent + d.programDataRent) s where
  program : s d.program = d.programAccount
  buffer : s d.buffer = rt.unused

structure BufferCreated (d : Deployment rt) (s : Accounts) : Prop
    extends Funded d d.programDataRent s where
  program : s d.program = d.programAccount
  buffer : s d.buffer = ⟨d.bufferRent, List.replicate d.bufferSize 0, rt.loaderId, false⟩

/-- The buffer takes writes of the payer. -/
structure BufferOpen (d : Deployment rt) (s : Accounts) : Prop
    extends Funded d d.programDataRent s where
  program : s d.program = d.programAccount
  buffer_owner : (s d.buffer).owner = rt.loaderId
  buffer_lamports : (s d.buffer).lamports = d.bufferRent
  buffer_state : stateOf (s d.buffer).data = some (.buffer (some d.payer))
  buffer_length : (s d.buffer).data.length = d.bufferSize

variable {d : Deployment rt} {slot : UInt64} {s s' : Accounts} {need : ℕ}

theorem programDataAddress_ne_program (hrt : rt.Lawful) (d : Deployment rt) :
    d.programDataAddress ≠ d.program := hrt.programAddress_ne d.program_secret d.program

theorem programDataAddress_ne_buffer (hrt : rt.Lawful) (d : Deployment rt) :
    d.programDataAddress ≠ d.buffer := hrt.programAddress_ne d.buffer_secret d.program

theorem Funded.payer_pos (h : Funded d need s) (hserve : rt.Serves) :
    0 < (s d.payer).lamports := by
  have hfunds := h.funds
  have hpos := hserve.minimumBalance_pos 0
  omega

theorem Funded.programDataAddress_ne_payer (h : Funded d need s) (hserve : rt.Serves) :
    d.programDataAddress ≠ d.payer := by
  intro he
  have hpos := h.payer_pos hserve
  rw [← he, h.programdata] at hpos
  exact absurd hpos (lt_irrefl 0)

/-- The payer pays for the account of one of the keypairs. -/
theorem Funded.fund (h : Funded d need s) (hserve : rt.Serves) {c : CreateAccount}
    (hfrom : c.fromPubkey = d.payer) (hnew : c.newAccountPubkey = d.program ∨
      c.newAccountPubkey = d.buffer) (hpd : d.programDataAddress ≠ c.newAccountPubkey)
    {need' : ℕ} (hneed : need = c.lamports + need') : Funded d need' (fund c s) := by
  have hfunds := h.funds
  have hbounded := h.bounded
  have hne : c.fromPubkey ≠ c.newAccountPubkey := by
    rw [hfrom]
    rcases hnew with he | he
    · rw [he]
      exact h.payer_ne_program
    · rw [he]
      exact h.payer_ne_buffer
  have hpayer : SolanaSample.fund c s d.payer =
      { s d.payer with lamports := (s d.payer).lamports - c.lamports } := by
    rw [← hfrom]
    exact fund_from hne
  refine ⟨?_, ?_, h.payer_ne_program, h.payer_ne_buffer, ?_, ?_, ?_⟩
  · rw [hpayer]
    exact h.payer_owner
  · rw [hpayer]
    exact h.payer_data
  · rw [hpayer]
    dsimp only
    omega
  · rw [hpayer]
    by_cases hb : d.buffer = c.newAccountPubkey
    · rw [hb, fund_new]
      dsimp only
      omega
    · have hfrom' : d.buffer ≠ c.fromPubkey := by
        rw [hfrom]
        exact h.payer_ne_buffer.symm
      rw [fund_other hb hfrom']
      dsimp only
      omega
  · have hfrom' : d.programDataAddress ≠ c.fromPubkey := by
      rw [hfrom]
      exact h.programDataAddress_ne_payer hserve
    rw [fund_other hpd hfrom']
    exact h.programdata

theorem programAccount_served (hrt : rt.Lawful) (hserve : rt.Serves) (h : Unstarted d s)
    (hspace : programAccountSpace ≤ rt.maxPermittedDataLength) (blockhash : ℕ) :
    ∃ s', execute rt slot (d.createAccountTransaction blockhash d.programRent).signers
        (d.createAccountTransaction blockhash d.programRent).instruction s = .ok s' ∧
      ProgramCreated d s' := by
  have hfunds := h.funds
  refine ⟨_, hserve.createAccount_served (by simp [Transaction.signers,
    Deployment.createAccountTransaction]) (by simp [Transaction.signers,
    Deployment.createAccountTransaction]) h.payer_data h.payer_owner h.program hspace le_rfl
    (by dsimp only; omega), ?_⟩
  refine ⟨h.toFunded.fund hserve rfl (.inl rfl) (programDataAddress_ne_program hrt d)
    (by dsimp only; omega), fund_new, ?_⟩
  rw [fund_other d.program_ne_buffer.symm h.payer_ne_buffer.symm]
  exact h.buffer

theorem bufferAccount_served (hrt : rt.Lawful) (hserve : rt.Serves) (h : ProgramCreated d s)
    (hspace : d.bufferSize ≤ rt.maxPermittedDataLength) (blockhash : ℕ) :
    ∃ s', execute rt slot (d.createBufferAccountTransaction blockhash d.bufferRent).signers
        (d.createBufferAccountTransaction blockhash d.bufferRent).instruction s = .ok s' ∧
      BufferCreated d s' := by
  have hfunds := h.funds
  refine ⟨_, hserve.createAccount_served (by simp [Transaction.signers,
    Deployment.createBufferAccountTransaction]) (by simp [Transaction.signers,
    Deployment.createBufferAccountTransaction]) h.payer_data h.payer_owner h.buffer hspace le_rfl
    (by dsimp only; omega), ?_⟩
  refine ⟨h.toFunded.fund hserve rfl (.inr rfl) (programDataAddress_ne_buffer hrt d)
    rfl, ?_, fund_new⟩
  rw [fund_other d.program_ne_buffer h.payer_ne_program.symm]
  exact h.program

/-- Only the data of the buffer changes. -/
theorem Funded.setData (h : Funded d need s) (hrt : rt.Lawful) (data : List UInt8) :
    Funded d need (setData s d.buffer data) := by
  refine ⟨?_, ?_, h.payer_ne_program, h.payer_ne_buffer, ?_, ?_, ?_⟩
  · rw [setData_owner]
    exact h.payer_owner
  · rw [setData_data, if_neg h.payer_ne_buffer]
    exact h.payer_data
  · rw [setData_lamports]
    exact h.funds
  · rw [setData_lamports, setData_lamports]
    exact h.bounded
  · rw [Loader.setData, Function.update_of_ne (programDataAddress_ne_buffer hrt d)]
    exact h.programdata

/-- An instruction of the script that changes the data of the buffer. -/
theorem execute_buffer_ok (hserve : rt.Serves) {ix : UpgradeableLoaderInstruction}
    {data : List UInt8} {signs : Bool} {keys : List AccountMeta}
    (hkeys : keys = [⟨d.buffer, false, true⟩, ⟨d.payer, signs, false⟩])
    (hpayer : d.payer ≠ d.buffer)
    (hlen : (UpgradeableLoaderInstruction.codec.encode ix).length ≤ 1232)
    (howner : (s d.buffer).owner = rt.loaderId) (hdata : data.length = (s d.buffer).data.length)
    (hp : processInstruction rt slot ix (keyedAccounts [d.payer] keys) s =
      .ok (setData s d.buffer data)) :
    execute rt slot [d.payer] (.loader keys (UpgradeableLoaderInstruction.codec.encode ix)) s =
      .ok (setData s d.buffer data) := by
  subst hkeys
  apply execute_loader_ok hserve hlen _ hp
  · apply honest_setData ⟨_, List.mem_cons_self, rfl⟩ _ howner hdata
    simp [hpayer]
  · simp

theorem initialize_served (hrt : rt.Lawful) (hserve : rt.Serves) (h : BufferCreated d s)
    (blockhash : ℕ) :
    ∃ s', execute rt slot (d.createBufferTransaction blockhash).signers
        (d.createBufferTransaction blockhash).instruction s = .ok s' ∧ BufferOpen d s' := by
  have hsize := d.bufferSize_ge
  have hlen : (s d.buffer).data.length = d.bufferSize := by rw [h.buffer, List.length_replicate]
  have howner : (s d.buffer).owner = rt.loaderId := by rw [h.buffer]
  have hst : stateOf (s d.buffer).data = some .uninitialized := by
    rw [h.buffer]
    exact stateOf_zeros (by omega)
  obtain ⟨data, hdata⟩ : ∃ data, setStateOf (.buffer (some d.payer)) (s d.buffer).data =
      some data := by
    have hfits : serializedSize (.buffer (some d.payer)) ≤ (s d.buffer).data.length := by
      have hserialized : serializedSize (.buffer (some d.payer)) = 37 := rfl
      omega
    exact ⟨_, if_pos hfits⟩
  obtain ⟨hnew, hsame, -⟩ := setStateOf_eq_some hdata
  have hcode : [0, 0, 0, 0] = UpgradeableLoaderInstruction.codec.encode .initializeBuffer := by
    decide
  refine ⟨setData s d.buffer data, ?_, h.toFunded.setData hrt data, ?_, ?_, ?_, ?_, ?_⟩
  · rw [Deployment.createBufferTransaction, hcode]
    apply execute_buffer_ok hserve rfl h.payer_ne_buffer (by decide) howner hsame
    simp only [processInstruction, initializeBuffer, do_ok_iff, reject_eq_ok, exists_unit,
      keyedAccountAtIndex_eq_ok, state_eq_ok, setState_eq_ok, ne_eq, not_not]
    exact ⟨_, rfl, _, hst, rfl, _, rfl, data, hdata, rfl⟩
  · rw [setData, Function.update_of_ne d.program_ne_buffer]
    exact h.program
  · rw [setData_owner, howner]
  · rw [setData_lamports, h.buffer]
  · rw [setData_data, if_pos rfl]
    exact hnew
  · rw [setData_data, if_pos rfl, hsame, hlen]

theorem encode_write_length (off : UInt32) (bytes : ByteString) :
    (UpgradeableLoaderInstruction.codec.encode (.write off bytes)).length =
      16 + bytes.bytes.length := by
  rw [UpgradeableLoaderInstruction.codec_encode, UpgradeableLoaderInstruction.encodeFields_write]
  simp only [List.length_append, leBytes_length]
  omega

theorem write_served (hrt : rt.Lawful) (hserve : rt.Serves) (h : BufferOpen d s) {i : ℕ}
    {blockhash : ℕ} {tx : Transaction System} (htx : d.chunkTransaction i blockhash = some tx)
    (hfit : bufferDataOffset + offset i + chunkLength d.programData.length i ≤ d.bufferSize) :
    ∃ s', execute rt slot tx.signers tx.instruction s = .ok s' ∧ BufferOpen d s' := by
  obtain ⟨hlt, rfl⟩ := Deployment.chunkTransaction_eq_some htx
  have hfits : bufferDataOffset + offset i + (chunk d.programData i).bytes.length ≤
      (s d.buffer).data.length := by
    rw [chunk_length, h.buffer_length]
    exact hfit
  have hsplice := splice_length hfits
  have hchunk : (chunk d.programData i).bytes.length ≤ 600 := by
    rw [chunk_length, chunkLength, chunkSize_eq]
    exact Nat.min_le_left _ _
  refine ⟨setData s d.buffer (splice (s d.buffer).data (bufferDataOffset + offset i)
    (chunk d.programData i).bytes), ?_, h.toFunded.setData hrt _, ?_, ?_, ?_, ?_, ?_⟩
  · apply execute_buffer_ok hserve rfl h.payer_ne_buffer _ h.buffer_owner hsplice
    · simp only [processInstruction, write, do_ok_iff, exists_unit, keyedAccountAtIndex_eq_ok,
        state_eq_ok, demand_eq_ok, asBuffer_eq_some, requireAuthority_eq_ok,
        writeProgramData_eq_ok, UInt32.toNat_ofNat_of_lt' hlt]
      exact ⟨_, rfl, _, rfl, _, h.buffer_state, _, rfl, ⟨rfl, by simp⟩, hfits, rfl⟩
    · rw [encode_write_length]
      omega
  · rw [setData, Function.update_of_ne d.program_ne_buffer]
    exact h.program
  · rw [setData_owner, h.buffer_owner]
  · rw [setData_lamports, h.buffer_lamports]
  · rw [setData_data, if_pos rfl]
    exact stateOf_splice h.buffer_state (Nat.le_add_right _ _) hfits
  · rw [setData_data, if_pos rfl, hsplice, h.buffer_length]

/-! The deployment itself. -/

theorem setState_ok {s : Accounts} {k : Pubkey} {st : UpgradeableLoaderState}
    (h : st.serializedSize ≤ (s k).data.length) : ∃ data, setState s k st = .ok (setData s k data) ∧
      data.length = (s k).data.length := by
  have hdata : setStateOf st (s k).data =
      some (splice (s k).data 0 (codec.encode st)) := if_pos h
  exact ⟨_, setState_eq_ok.mpr ⟨_, hdata, rfl⟩, (setStateOf_eq_some hdata).2.1⟩

theorem drain_ok {s : Accounts} {recipient source : Pubkey} (hne : recipient ≠ source)
    (hsum : (s recipient).lamports + (s source).lamports < 2 ^ 64) :
    drain s recipient source = .ok (setLamports
      (setLamports s recipient ((s recipient).lamports + (s source).lamports)) source 0) := by
  simp only [drain, checkedAddLamports, do_ok_iff, reject_eq_ok, exists_unit, Except.ok.injEq]
  exact ⟨hne, _, ⟨by omega, rfl⟩, rfl⟩

/-- The two accounts that are recorded keep all but their data and the flag. -/
theorem recordProgram_ok (slot : UInt64) (authority : Pubkey) {programdata program buffer : Pubkey}
    {s : Accounts} (hprogram : program ≠ programdata) (hbuffer : buffer ≠ programdata)
    (hmeta : programdataDataOffset + ((s buffer).data.drop bufferDataOffset).length ≤
      (s programdata).data.length)
    (hlen : programLen ≤ (s program).data.length) :
    ∃ s', recordProgram slot authority programdata program buffer s = .ok s' ∧
      (∃ data, data.length = (s programdata).data.length ∧
        s' programdata = { s programdata with data }) ∧
      (∃ data, data.length = (s program).data.length ∧
        s' program = { s program with data, executable := true }) ∧
      ∀ k, k ≠ programdata → k ≠ program → s' k = s k := by
  have hstate : serializedSize (.programData slot (some authority)) ≤
      (s programdata).data.length := (Nat.le_add_right programdataDataOffset _).trans hmeta
  obtain ⟨d₁, h₁, hlen₁⟩ := setState_ok hstate
  have hkept : (setData s programdata d₁ buffer).data = (s buffer).data := by
    rw [setData_data, if_neg hbuffer]
  have hfits : programdataDataOffset + ((setData s programdata d₁ buffer).data.drop
      bufferDataOffset).length ≤ (setData s programdata d₁ programdata).data.length := by
    rw [hkept, setData_data, if_pos rfl, hlen₁]
    exact hmeta
  have h₂ := writeProgramData_eq_ok.mpr ⟨hfits, rfl⟩
  have hlen₂ := splice_length hfits
  set d₂ := splice (setData s programdata d₁ programdata).data programdataDataOffset
    ((setData s programdata d₁ buffer).data.drop bufferDataOffset)
  rw [setData_setData] at h₂
  have hpointer : serializedSize (.program programdata) ≤
      (setData s programdata d₂ program).data.length := by
    rw [setData_data, if_neg hprogram]
    exact hlen
  obtain ⟨d₃, h₃, hlen₃⟩ := setState_ok hpointer
  refine ⟨setExecutable (setData (setData s programdata d₂) program d₃) program, ?_, ?_, ?_, ?_⟩
  · simp only [recordProgram, do_ok_iff, Except.ok.injEq]
    exact ⟨_, h₁, _, h₂, _, h₃, rfl⟩
  · refine ⟨d₂, ?_, ?_⟩
    · rw [hlen₂, setData_data, if_pos rfl, hlen₁]
    · simp only [setExecutable, setData, Function.update_of_ne hprogram.symm,
        Function.update_self]
  · refine ⟨d₃, ?_, ?_⟩
    · rw [hlen₃, setData_data, if_neg hprogram]
    · simp only [setExecutable, setData, Function.update_of_ne hprogram, Function.update_self]
  · intro k hpd hp
    simp only [setExecutable, setData, Function.update_of_ne hp, Function.update_of_ne hpd]

/-- The four accounts of a deployment are different. -/
structure Distinct (d : Deployment rt) : Prop where
  payer_program : d.payer ≠ d.program
  payer_buffer : d.payer ≠ d.buffer
  programdata_payer : d.programDataAddress ≠ d.payer
  programdata_program : d.programDataAddress ≠ d.program
  programdata_buffer : d.programDataAddress ≠ d.buffer

theorem Funded.distinct (h : Funded d need s) (hrt : rt.Lawful) (hserve : rt.Serves) :
    Distinct d where
  payer_program := h.payer_ne_program
  payer_buffer := h.payer_ne_buffer
  programdata_payer := h.programDataAddress_ne_payer hserve
  programdata_program := programDataAddress_ne_program hrt d
  programdata_buffer := programDataAddress_ne_buffer hrt d

/-- The accounts that a deployment leaves. -/
structure DeployedFrom (d : Deployment rt) (s s' : Accounts) : Prop where
  payer : s' d.payer = { s d.payer with
    lamports := (s d.payer).lamports + d.bufferRent - d.programDataRent }
  programdata : ∃ data, data.length = programdataLen d.bufferSize ∧
    s' d.programDataAddress = ⟨d.programDataRent, data, rt.loaderId, false⟩
  program : ∃ data, data.length = programAccountSpace ∧
    s' d.program = ⟨d.programRent, data, rt.loaderId, true⟩
  buffer : s' d.buffer = { s d.buffer with lamports := 0 }
  other : ∀ k, k ≠ d.payer → k ≠ d.programDataAddress → k ≠ d.program → k ≠ d.buffer →
    s' k = s k

def Deployment.createProgramData (d : Deployment rt) : CreateAccount :=
  ⟨d.payer, d.programDataAddress, d.programDataRent, programdataLen d.bufferSize, rt.loaderId⟩

/-- The ProgramData account is created and recorded. -/
theorem record_ok (slot : UInt64) {s : Accounts} (h : Distinct d) (hsize : d.bufferSize ≤ 10485715)
    (hprogram : s d.program = d.programAccount)
    (hbuffer : (s d.buffer).data.length = d.bufferSize) :
    ∃ s', recordProgram slot d.payer d.programDataAddress d.program d.buffer
        (fund d.createProgramData s) = .ok s' ∧
      (∃ data, data.length = programdataLen d.bufferSize ∧
        s' d.programDataAddress = ⟨d.programDataRent, data, rt.loaderId, false⟩) ∧
      (∃ data, data.length = programAccountSpace ∧
        s' d.program = ⟨d.programRent, data, rt.loaderId, true⟩) ∧
      ∀ k, k ≠ d.programDataAddress → k ≠ d.program → s' k = fund d.createProgramData s k := by
  have hkept : ∀ k, k ≠ d.programDataAddress → k ≠ d.payer → fund d.createProgramData s k = s k :=
    fun k hnew hfrom => fund_other hnew hfrom
  have hnew : fund d.createProgramData s d.programDataAddress =
      ⟨d.programDataRent, List.replicate (programdataLen d.bufferSize) 0, rt.loaderId, false⟩ :=
    fund_new
  have hold := hkept d.program h.programdata_program.symm h.payer_program.symm
  have hlen : programdataLen d.bufferSize = 45 + d.bufferSize := by
    have hmeta : sizeOfProgramdataMetadata = 45 := rfl
    rw [programdataLen, sizeOfProgramdata, saturatingAdd, hmeta]
    omega
  have hmeta : programdataDataOffset + ((fund d.createProgramData s d.buffer).data.drop
      bufferDataOffset).length ≤ (fund d.createProgramData s d.programDataAddress).data.length := by
    rw [hnew, hkept _ h.programdata_buffer.symm h.payer_buffer.symm, List.length_drop, hbuffer,
      List.length_replicate, hlen]
    have hoff : programdataDataOffset = 45 := rfl
    omega
  have hspace : programLen ≤ (fund d.createProgramData s d.program).data.length := by
    rw [hold, hprogram, Deployment.programAccount, List.length_replicate]
    decide
  obtain ⟨s', hrecord, ⟨data, hdata, hpd⟩, ⟨data', hdata', hp⟩, hother⟩ :=
    recordProgram_ok slot d.payer h.programdata_program.symm
      h.programdata_buffer.symm hmeta hspace
  refine ⟨s', hrecord, ⟨data, ?_, ?_⟩, ⟨data', ?_, ?_⟩, hother⟩
  · rw [hdata, hnew, List.length_replicate]
  · rw [hpd, hnew]
  · rw [hdata', hold, hprogram, Deployment.programAccount, List.length_replicate]
  · rw [hp, hold, hprogram, Deployment.programAccount]

/-- The moves of a deployment, whether the buffer pays for the ProgramData account or is emptied
afterwards. -/
theorem deploy_moves (slot : UInt64) (hserve : rt.Serves) (hd : Distinct d) (h : BufferOpen d s)
    (hsize : d.bufferSize ≤ 10485715)
    (hmax : programdataLen d.bufferSize ≤ rt.maxPermittedDataLength) {signers : List Pubkey}
    (hpayer : d.payer ∈ signers) (hpd : d.programDataAddress ∈ signers) :
    ∃ s₁ s₂ s₃ s', drainWhen rt.reduceRequiredDeployBalance s d.payer d.buffer = .ok s₁ ∧
      rt.createAccount signers d.createProgramData s₁ = .ok s₂ ∧
      (s₂ d.buffer).data = (s d.buffer).data ∧
      recordProgram slot d.payer d.programDataAddress d.program d.buffer s₂ = .ok s₃ ∧
      drainWhen (!rt.reduceRequiredDeployBalance) s₃ d.payer d.buffer = .ok s' ∧
      DeployedFrom d s s' := by
  have hfunds := h.funds
  have hbounded := h.bounded
  have hlam := h.buffer_lamports
  have hrent : rt.minimumBalance (programdataLen d.bufferSize) ≤ d.programDataRent :=
    le_max_right _ _
  have hdrain := drain_ok hd.payer_buffer hbounded
  cases rt.reduceRequiredDeployBalance with
  | true =>
    set s₁ := setLamports (setLamports s d.payer ((s d.payer).lamports + (s d.buffer).lamports))
      d.buffer 0 with hs₁
    have hother : ∀ k, k ≠ d.payer → k ≠ d.buffer → s₁ k = s k := by
      intro k hk hk'
      simp only [hs₁, setLamports, Function.update_of_ne hk, Function.update_of_ne hk']
    have hpayer₁ : s₁ d.payer =
        { s d.payer with lamports := (s d.payer).lamports + (s d.buffer).lamports } := by
      simp only [hs₁, setLamports, Function.update_of_ne hd.payer_buffer, Function.update_self]
    have hbuffer₁ : s₁ d.buffer = { s d.buffer with lamports := 0 } := by
      simp only [hs₁, setLamports, Function.update_of_ne hd.payer_buffer.symm,
        Function.update_self]
    obtain ⟨s', hrecord, hpd', hprogram', hrest⟩ := record_ok slot (s := s₁) hd hsize
      ((hother _ hd.payer_program.symm d.program_ne_buffer).trans h.program) (by
        rw [hbuffer₁]
        exact h.buffer_length)
    refine ⟨s₁, fund d.createProgramData s₁, s', s', hdrain, ?_, ?_, hrecord, rfl, ?_⟩
    · apply hserve.createAccount_served hpayer hpd
      · rw [Deployment.createProgramData, hpayer₁]
        exact h.payer_data
      · rw [Deployment.createProgramData, hpayer₁]
        exact h.payer_owner
      · exact (hother _ hd.programdata_payer hd.programdata_buffer).trans h.programdata
      · exact hmax
      · exact hrent
      · rw [Deployment.createProgramData, hpayer₁]
        dsimp only
        omega
    · rw [fund_other hd.programdata_buffer.symm hd.payer_buffer.symm, hbuffer₁]
    · refine ⟨?_, hpd', hprogram', ?_, ?_⟩
      · rw [hrest _ hd.programdata_payer.symm hd.payer_program]
        have hfrom : fund d.createProgramData s₁ d.payer = { s₁ d.payer with
            lamports := (s₁ d.payer).lamports - d.programDataRent } :=
          fund_from hd.programdata_payer.symm
        rw [hfrom, hpayer₁, hlam]
      · rw [hrest _ hd.programdata_buffer.symm d.program_ne_buffer.symm,
          fund_other hd.programdata_buffer.symm hd.payer_buffer.symm, hbuffer₁]
      · intro k hk₁ hk₂ hk₃ hk₄
        rw [hrest k hk₂ hk₃, fund_other hk₂ hk₁, hother k hk₁ hk₄]
  | false =>
    obtain ⟨s₃, hrecord, hpd', hprogram', hrest⟩ := record_ok slot hd hsize h.program
      h.buffer_length
    have hpayer₃ : s₃ d.payer = { s d.payer with
        lamports := (s d.payer).lamports - d.programDataRent } := by
      rw [hrest _ hd.programdata_payer.symm hd.payer_program]
      exact fund_from hd.programdata_payer.symm
    have hbuffer₃ : s₃ d.buffer = s d.buffer := by
      rw [hrest _ hd.programdata_buffer.symm d.program_ne_buffer.symm,
        fund_other hd.programdata_buffer.symm hd.payer_buffer.symm]
    have hsum : (s₃ d.payer).lamports + (s₃ d.buffer).lamports < 2 ^ 64 := by
      rw [hpayer₃, hbuffer₃]
      dsimp only
      omega
    refine ⟨s, fund d.createProgramData s, s₃, _, rfl, ?_, ?_, hrecord,
      drain_ok hd.payer_buffer hsum, ?_⟩
    · apply hserve.createAccount_served hpayer hpd h.payer_data h.payer_owner h.programdata hmax
        hrent
      dsimp only [Deployment.createProgramData]
      omega
    · rw [fund_other hd.programdata_buffer.symm hd.payer_buffer.symm]
    · have hkept : ∀ k, k ≠ d.payer → k ≠ d.buffer → setLamports (setLamports s₃ d.payer
          ((s₃ d.payer).lamports + (s₃ d.buffer).lamports)) d.buffer 0 k = s₃ k := by
        intro k hk hk'
        simp only [setLamports, Function.update_of_ne hk, Function.update_of_ne hk']
      refine ⟨?_, ?_, ?_, ?_, ?_⟩
      · simp only [setLamports, Function.update_of_ne hd.payer_buffer, Function.update_self,
          hpayer₃, hbuffer₃, hlam]
        congr 1
        omega
      · rw [hkept _ hd.programdata_payer hd.programdata_buffer]
        exact hpd'
      · rw [hkept _ hd.payer_program.symm d.program_ne_buffer]
        exact hprogram'
      · simp only [setLamports, Function.update_of_ne hd.payer_buffer.symm, Function.update_self,
          hbuffer₃]
      · intro k hk₁ hk₂ hk₃ hk₄
        rw [hkept k hk₁ hk₄, hrest k hk₂ hk₃, fund_other hk₂ hk₁]

/-- What is paid for the ProgramData account comes from the payer and the buffer. -/
theorem deploy_honest (hd : Distinct d) (h : BufferOpen d s) (h' : DeployedFrom d s s')
    {ks : List KeyedAccount}
    (hkeys : ∀ k ∈ [d.payer, d.programDataAddress, d.program, d.buffer],
      (∃ a ∈ ks, a.key = k ∧ (k = d.payer → a.isSigner = true)) ∧
        ∀ a ∈ ks, a.key = k → a.isWritable = true) : Honest rt ks s s' := by
  have hfunds := h.funds
  obtain ⟨data, hdata, hpd⟩ := h'.programdata
  obtain ⟨data', hdata', hp⟩ := h'.program
  have hpermitted : ∀ k ∈ [d.payer, d.programDataAddress, d.program, d.buffer],
      Permitted rt (k = d.payer) (s k) (s' k) := by
    simp only [List.forall_mem_cons, List.not_mem_nil, false_imp_iff, implies_true, and_true]
    refine ⟨?_, ?_, ?_, ?_⟩
    · rw [h'.payer]
      exact .moved ⟨rfl, rfl, rfl⟩ (.inr trivial)
    · rw [hpd]
      exact .created h.programdata rfl rfl (by rw [hdata]; exact le_max_right _ _)
    · rw [hp, h.program]
      refine .own rfl rfl ?_ (.inr ⟨rfl, ?_⟩)
      · rw [hdata', Deployment.programAccount, List.length_replicate]
      · rw [hdata']
        exact le_rfl
    · rw [h'.buffer]
      exact .own h.buffer_owner h.buffer_owner rfl (.inl rfl)
  constructor
  · intro k
    by_cases hk : k ∈ [d.payer, d.programDataAddress, d.program, d.buffer]
    · obtain ⟨⟨a, ha, hkey, hsigner⟩, hwritable⟩ := hkeys k hk
      exact .inr ⟨⟨a, ha, hkey, (hpermitted k hk).mono hsigner⟩, hwritable⟩
    · simp only [List.mem_cons, List.not_mem_nil, or_false, not_or] at hk
      exact .inl (h'.other k hk.1 hk.2.1 hk.2.2.1 hk.2.2.2)
  · refine ⟨{d.payer, d.programDataAddress, d.program, d.buffer}, ?_, ?_⟩
    · intro k hk
      simp only [Finset.mem_insert, Finset.mem_singleton, not_or] at hk
      exact h'.other k hk.1 hk.2.1 hk.2.2.1 hk.2.2.2
    · have hlam := h.buffer_lamports
      rw [Finset.sum_insert (by simp [hd.programdata_payer.symm, hd.payer_program,
        hd.payer_buffer]), Finset.sum_insert (by simp [hd.programdata_program,
        hd.programdata_buffer]), Finset.sum_pair d.program_ne_buffer,
        Finset.sum_insert (by simp [hd.programdata_payer.symm, hd.payer_program,
        hd.payer_buffer]), Finset.sum_insert (by simp [hd.programdata_program,
        hd.programdata_buffer]), Finset.sum_pair d.program_ne_buffer, h'.payer, hpd, hp,
        h'.buffer, h.program, h.programdata]
      simp only [Deployment.programAccount, Runtime.unused]
      omega

theorem finalizeKeys_writable {k : Pubkey}
    (hk : k ∈ [d.payer, d.programDataAddress, d.program, d.buffer]) :
    ∃ m ∈ d.finalizeKeys, m.pubkey = k ∧ m.isWritable = true := by
  simp only [List.mem_cons, List.not_mem_nil, or_false] at hk
  rcases hk with rfl | rfl | rfl | rfl <;> simp [Deployment.finalizeKeys]

theorem payer_mem_signerKeys (d : Deployment rt) :
    d.payer ∈ signerKeys (keyedAccounts [d.payer] d.finalizeKeys) :=
  mem_signerKeys (i := 0) (k := ⟨d.payer, decide (d.payer ∈ [d.payer]), _⟩) rfl
    (by simp)

theorem deploy_accepted (hrt : rt.Lawful) (hserve : rt.Serves) (h : BufferOpen d s)
    (hsize : d.bufferSize ≤ 10485715)
    (hmax : programdataLen d.bufferSize ≤ rt.maxPermittedDataLength)
    (hload : rt.createExecutor ((s d.buffer).data.drop bufferDataOffset) = .ok ()) :
    ∃ s', deployWithMaxDataLen rt slot (UInt64.ofNat d.bufferSize)
        (keyedAccounts [d.payer] d.finalizeKeys) s = .ok s' ∧ DeployedFrom d s s' := by
  have hd := h.distinct hrt hserve
  have hsize' := d.bufferSize_ge
  have hlen := h.buffer_length
  have hoff : bufferDataOffset = 37 := rfl
  have hspace : programAccountSpace = 44 := rfl
  have hnat : (UInt64.ofNat d.bufferSize).toNat = d.bufferSize :=
    UInt64.toNat_ofNat_of_lt' (lt_of_le_of_lt hsize (by decide))
  obtain ⟨s₁, s₂, s₃, s', hdrain, hcreate, hkept, hrecord, hfinal, hresult⟩ :=
    deploy_moves slot hserve hd h hsize hmax
      (List.mem_cons_of_mem d.programDataAddress (payer_mem_signerKeys d))
      List.mem_cons_self
  refine ⟨s', ?_, hresult⟩
  have hfresh : stateOf (s d.program).data = some .uninitialized := by
    rw [h.program]
    exact stateOf_zeros (by decide)
  have hprogramLen : (s d.program).data.length = programAccountSpace := by
    rw [h.program, Deployment.programAccount, List.length_replicate]
  have hprogramRent : (s d.program).lamports = d.programRent := by
    rw [h.program, Deployment.programAccount]
  simp only [deployWithMaxDataLen, do_ok_iff, exists_unit, keyedAccountAtIndex_eq_ok, state_eq_ok,
    demand_eq_ok, reject_eq_ok, asBuffer_eq_some, requireBufferAuthority_eq_ok, fromKeyedAccount,
    ne_eq, not_not, hnat]
  refine ⟨_, rfl, _, rfl, _, rfl, _, rfl, _, rfl, rfl, _, rfl, rfl, _, rfl, _, hfresh, rfl, ?_,
    ?_, _, h.buffer_state, _, rfl, ⟨rfl, by simp⟩, ?_, ?_, ?_, rfl, s₁, hdrain, s₂, hcreate, ?_,
    s₃, hrecord, hfinal⟩
  · dsimp only
    rw [hprogramLen]
    decide
  · dsimp only
    rw [hprogramLen, hprogramRent, Deployment.programRent]
    exact lt_irrefl _
  · dsimp only
    omega
  · dsimp only
    omega
  · exact Nat.not_lt.mpr hmax
  · dsimp only
    rw [hkept]
    exact hload

theorem deploy_served (hrt : rt.Lawful) (hserve : rt.Serves) (h : BufferOpen d s)
    (hsize : d.bufferSize ≤ 10485715)
    (hmax : programdataLen d.bufferSize ≤ rt.maxPermittedDataLength)
    (hload : rt.createExecutor ((s d.buffer).data.drop bufferDataOffset) = .ok ())
    {blockhash : ℕ} {tx : Transaction System} (htx : d.finalizeTransaction blockhash = some tx) :
    ∃ s', execute rt slot tx.signers tx.instruction s = .ok s' ∧ DeployedFrom d s s' := by
  obtain ⟨-, rfl⟩ := Deployment.finalizeTransaction_eq_some htx
  have hd := h.distinct hrt hserve
  obtain ⟨s', hdeploy, hresult⟩ := deploy_accepted hrt hserve h hsize hmax hload
  have hprocess : processInstruction rt slot (.deployWithMaxDataLen (UInt64.ofNat d.bufferSize))
      (keyedAccounts [d.payer] d.finalizeKeys) s = .ok s' := hdeploy
  refine ⟨s', execute_loader_ok hserve ?_ ?_ hprocess (deploy_honest hd h hresult ?_), hresult⟩
  · rw [UpgradeableLoaderInstruction.codec_encode,
      UpgradeableLoaderInstruction.encodeFields_deployWithMaxDataLen, List.length_append,
      leBytes_length, leBytes_length]
    decide
  · simp [Transaction.signers, Deployment.finalizeKeys]
  · intro k hk
    obtain ⟨m, hm, rfl, hw⟩ := finalizeKeys_writable hk
    obtain ⟨⟨a, ha, hkey, hsigner⟩, hwritable⟩ := keyedAccounts_writable hm hw
    exact ⟨⟨a, ha, hkey, fun he => hsigner (List.mem_singleton.mpr he)⟩, hwritable⟩

end SolanaSample.Deploy
