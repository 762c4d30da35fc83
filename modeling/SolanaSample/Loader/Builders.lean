import SolanaSample.Chain.Transaction
import SolanaSample.Loader.Kept

/-! The instructions that clients of the upgradeable loader build. -/
namespace SolanaSample.BpfLoaderUpgradeable
open PrefixCodec Rejection EventRun Registry Loader UpgradeableLoaderState

variable {System : Type} (rt : Runtime System)

/-- `AccountMeta::new`. -/
def accountMeta (pubkey : Pubkey) (isSigner : Bool) : AccountMeta := ⟨pubkey, isSigner, true⟩

/-- `AccountMeta::new_readonly`. -/
def readonlyMeta (pubkey : Pubkey) (isSigner : Bool) : AccountMeta := ⟨pubkey, isSigner, false⟩

/-- `Instruction::new_with_bincode`, for the loader. -/
def newWithBincode (ix : UpgradeableLoaderInstruction) (metas : List AccountMeta) :
    Instruction System :=
  .loader metas (UpgradeableLoaderInstruction.codec.encode ix)

def sizeOfBuffer (programLen : ℕ) : ℕ := saturatingAdd sizeOfBufferMetadata programLen

def getProgramDataAddress (programAddress : Pubkey) : Pubkey :=
  rt.findProgramAddress programAddress

def createBuffer (payerAddress bufferAddress authorityAddress : Pubkey) (lamports programLen : ℕ) :
    List (Instruction System) :=
  [.createAccount ⟨payerAddress, bufferAddress, lamports, sizeOfBuffer programLen, rt.loaderId⟩,
    newWithBincode .initializeBuffer
      [accountMeta bufferAddress false, readonlyMeta authorityAddress false]]

def write (bufferAddress authorityAddress : Pubkey) (offset : UInt32) (bytes : ByteString) :
    Instruction System :=
  newWithBincode (.write offset bytes)
    [accountMeta bufferAddress false, readonlyMeta authorityAddress true]

def deployWithMaxProgramLen (payerAddress programAddress bufferAddress upgradeAuthorityAddress :
    Pubkey) (programLamports : ℕ) (maxDataLen : UInt64) : List (Instruction System) :=
  [.createAccount ⟨payerAddress, programAddress, programLamports, sizeOfProgram, rt.loaderId⟩,
    newWithBincode (.deployWithMaxDataLen maxDataLen)
      [accountMeta payerAddress true, accountMeta (getProgramDataAddress rt programAddress) false,
        accountMeta programAddress false, accountMeta bufferAddress false,
        readonlyMeta rt.rentId false, readonlyMeta rt.clockId false,
        readonlyMeta rt.systemId false, readonlyMeta upgradeAuthorityAddress true]]

def upgrade (programAddress bufferAddress authorityAddress spillAddress : Pubkey) :
    Instruction System :=
  newWithBincode .upgrade
    [accountMeta (getProgramDataAddress rt programAddress) false,
      accountMeta programAddress false, accountMeta bufferAddress false,
      accountMeta spillAddress false, readonlyMeta rt.rentId false, readonlyMeta rt.clockId false,
      readonlyMeta authorityAddress true]

/-- The predicates on instruction data look at the first byte. -/
def startsWith (b : UInt8) (instructionData : List UInt8) : Bool :=
  match instructionData with
  | [] => false
  | first :: _ => b == first

def isUpgradeInstruction (instructionData : List UInt8) : Bool := startsWith 3 instructionData

def isSetAuthorityInstruction (instructionData : List UInt8) : Bool :=
  startsWith 4 instructionData

def isCloseInstruction (instructionData : List UInt8) : Bool := startsWith 5 instructionData

def isSetAuthorityCheckedInstruction (instructionData : List UInt8) : Bool :=
  startsWith 7 instructionData

def setBufferAuthority (bufferAddress currentAuthorityAddress newAuthorityAddress : Pubkey) :
    Instruction System :=
  newWithBincode .setAuthority
    [accountMeta bufferAddress false, readonlyMeta currentAuthorityAddress true,
      readonlyMeta newAuthorityAddress false]

def setBufferAuthorityChecked (bufferAddress currentAuthorityAddress newAuthorityAddress : Pubkey) :
    Instruction System :=
  newWithBincode .setAuthorityChecked
    [accountMeta bufferAddress false, readonlyMeta currentAuthorityAddress true,
      readonlyMeta newAuthorityAddress true]

def setUpgradeAuthority (programAddress currentAuthorityAddress : Pubkey)
    (newAuthorityAddress : Option Pubkey) : Instruction System :=
  newWithBincode .setAuthority
    ([accountMeta (getProgramDataAddress rt programAddress) false,
      readonlyMeta currentAuthorityAddress true] ++
        (newAuthorityAddress.map (readonlyMeta · false)).toList)

def setUpgradeAuthorityChecked (programAddress currentAuthorityAddress newAuthorityAddress :
    Pubkey) : Instruction System :=
  newWithBincode .setAuthorityChecked
    [accountMeta (getProgramDataAddress rt programAddress) false,
      readonlyMeta currentAuthorityAddress true, readonlyMeta newAuthorityAddress true]

def closeAny (closeAddress recipientAddress : Pubkey) (authorityAddress programAddress :
    Option Pubkey) : Instruction System :=
  newWithBincode .close
    ([accountMeta closeAddress false, accountMeta recipientAddress false] ++
      (authorityAddress.map (readonlyMeta · true)).toList ++
      (programAddress.map (accountMeta · false)).toList)

def close (closeAddress recipientAddress authorityAddress : Pubkey) : Instruction System :=
  closeAny closeAddress recipientAddress (some authorityAddress) none

def extendProgram (programAddress : Pubkey) (payerAddress : Option Pubkey)
    (additionalBytes : UInt32) : Instruction System :=
  newWithBincode (.extendProgram additionalBytes)
    ([accountMeta (getProgramDataAddress rt programAddress) false,
      accountMeta programAddress false] ++
      (payerAddress.map fun payer => [readonlyMeta rt.systemId false,
        accountMeta payer true]).getD [])

/-! What the predicates recognise. -/

theorem startsWith_encode (b : UInt8) (ix : UpgradeableLoaderInstruction) (rest : List UInt8) :
    startsWith b (UpgradeableLoaderInstruction.codec.encode ix ++ rest) =
      (b == UInt8.ofNat ix.variantIndex.toNat) := rfl

/-- On whatever the loader reads, whichever bytes follow, each predicate tells the instruction
it is named after from all others. -/
theorem predicates_agree {data : List UInt8} {ix : UpgradeableLoaderInstruction}
    (h : limitedDeserialize data = .ok ix) :
    (isUpgradeInstruction data = true ↔ ix = .upgrade) ∧
      (isSetAuthorityInstruction data = true ↔ ix = .setAuthority) ∧
      (isCloseInstruction data = true ↔ ix = .close) ∧
      (isSetAuthorityCheckedInstruction data = true ↔ ix = .setAuthorityChecked) := by
  obtain ⟨rest, rfl, -⟩ := limitedDeserialize_eq_ok.mp h
  simp only [isUpgradeInstruction, isSetAuthorityInstruction, isCloseInstruction,
    isSetAuthorityCheckedInstruction, startsWith_encode]
  cases ix <;> simp [UpgradeableLoaderInstruction.variantIndex]

/-! What the processor does with what is built. -/

theorem execute_newWithBincode {signers : List Pubkey} {ix : UpgradeableLoaderInstruction}
    {metas : List AccountMeta} {slot : UInt64} {s s' : Accounts}
    (hlen : (UpgradeableLoaderInstruction.codec.encode ix).length ≤ 1232)
    (h : execute rt slot signers (newWithBincode ix metas) s = .ok s') :
    processInstruction rt slot ix (keyedAccounts signers metas) s = .ok s' := by
  obtain ⟨ix', hix, hp⟩ := execute_loader_eq_ok h
  rw [limitedDeserialize_encode_ok hlen] at hix
  rwa [Except.ok.inj hix]

/-- The builders of the two newest variants build what this processor refuses. -/
theorem newest_refused (slot : UInt64) (signers : List Pubkey) (s s' : Accounts) :
    (∀ buffer current new,
      execute rt slot signers (setBufferAuthorityChecked buffer current new) s ≠ .ok s') ∧
    (∀ program current new,
      execute rt slot signers (setUpgradeAuthorityChecked rt program current new) s ≠ .ok s') ∧
    ∀ program payer additionalBytes,
      execute rt slot signers (extendProgram rt program payer additionalBytes) s ≠ .ok s' := by
  refine ⟨?_, ?_, ?_⟩
  · intro buffer current new h
    cases execute_newWithBincode rt (by decide) h
  · intro program current new h
    cases execute_newWithBincode rt (by decide) h
  · intro program payer additionalBytes h
    have hlen : (UpgradeableLoaderInstruction.codec.encode
        (.extendProgram additionalBytes)).length ≤ 1232 := Nat.le_of_ble_eq_true rfl
    cases execute_newWithBincode rt hlen h

/-- The authority of a buffer that signs hands it over, and no contents change. -/
theorem setBufferAuthority_hands_over {slot : UInt64} {signers : List Pubkey} {s s' : Accounts}
    {buffer current new : Pubkey} {authority : Option Pubkey}
    (hst : stateOf (s buffer).data = some (.buffer authority))
    (h : execute rt slot signers (setBufferAuthority buffer current new) s = .ok s') :
    authority = some current ∧ current ∈ signers ∧
      stateOf (s' buffer).data = some (.buffer (some new)) ∧
      (s' buffer).data.drop bufferDataOffset = (s buffer).data.drop bufferDataOffset := by
  have hp : setAuthority _ s = .ok s' := execute_newWithBincode rt (by decide) h
  simp only [setAuthority, do_ok_iff, keyedAccountAtIndex_eq_ok, state_eq_ok] at hp
  obtain ⟨account, hk₀, present, hk₁, st, hst', hp⟩ := hp
  obtain rfl := Option.some.inj hk₀
  obtain rfl := Option.some.inj hk₁
  obtain rfl := Option.some.inj (hst.symm.trans hst')
  simp only [do_ok_iff, exists_unit, reject_eq_ok, requireAuthority_eq_ok, setState_eq_ok] at hp
  obtain ⟨-, ⟨hauthority, hsigner⟩, data, hd, rfl⟩ := hp
  obtain ⟨hnew, -, htail⟩ := setStateOf_eq_some hd
  have hdata : (setData s (accountMeta buffer false).pubkey data buffer).data = data := by
    rw [setData_data]
    exact if_pos rfl
  refine ⟨hauthority, of_decide_eq_true hsigner, ?_, ?_⟩
  · rw [hdata]
    exact hnew
  · rw [hdata]
    exact htail bufferDataOffset le_rfl

/-! What giving up the upgrade authority means. -/

section Cluster
variable {System : Type} {rt : BpfRuntime System} {P current : Pubkey} {ctx : InvokeContext}
  {code : List UInt8} {authority : Option Pubkey}

/-- The instruction names the ProgramData account and no new authority. -/
theorem setUpgradeAuthority_none {signers : List Pubkey} {slot : UInt64} {s' : Accounts}
    (hlive : entryOf rt P ctx.accounts = .live code authority)
    (h : processInstruction rt.toRuntime slot .setAuthority (keyedAccounts signers
      [accountMeta (rt.findProgramAddress P) false, readonlyMeta current true]) ctx.accounts =
        .ok s') (hp : IsProgram rt P s') : entryOf rt P s' = .live code none := by
  rw [entryOf, if_pos (isProgram_of_live hlive)] at hlive
  obtain ⟨hcode, slot', hst⟩ := dataEntry_live hlive
  obtain ⟨hnew, hsame⟩ := setAuthority_programData (k := rt.findProgramAddress P) h rfl hst
  rw [entryOf, if_pos hp, dataEntry_programData hnew, hsame, ← hcode]
  rfl

/-- When the authority of a program hands it over to nobody, the program runs the code that it
then has for ever, whoever signs whatever later on. -/
theorem revoked_for_good (hrt : rt.Lawful) (h : Coherent rt P ctx)
    (hlive : entryOf rt P ctx.accounts = .live code authority) {slot : UInt64}
    {signers : List Pubkey} {s' : Accounts}
    (hrevoke : execute rt.toRuntime slot signers (setUpgradeAuthority rt.toRuntime P current none)
      ctx.accounts = .ok s')
    {es : List (ClusterEvent System)} (hes : ∀ e ∈ es, e.Respects rt P) :
    EveryState (InvokeContext.step rt) (fun ctx => entryOf rt P ctx.accounts = .live code none ∧
      ∀ slot first ks data ctx' i,
        processInstructionCommon rt slot P first ks data ctx = .ok (ctx', some i) →
          stripZeros i.executor = code) { ctx with accounts := s' } es := by
  have hp := execute_newWithBincode rt.toRuntime (by decide) hrevoke
  have hprogram := isProgram_of_live hlive
  have hkept := program_kept hrt hp hprogram.1 hprogram.2
  have hprogram' : IsProgram rt P s' :=
    ⟨hkept.owner.trans hprogram.1, by rw [hkept.data]; exact hprogram.2⟩
  have hcoherent : Coherent rt P { ctx with accounts := s' } := h.instruction hrt hp nofun
  apply unsigned_program_kept hrt hcoherent (setUpgradeAuthority_none hlive hp hprogram')
  intro e he
  exact ⟨hes e he, nofun⟩

open TestCluster

def revokedAccounts : Accounts :=
  orStay releasedAccounts (execute cluster.toRuntime 1 [Pubkey.filled 1]
    (setUpgradeAuthority cluster.toRuntime (Pubkey.filled 9) (Pubkey.filled 1) none)
    releasedAccounts)

theorem revoke_released : execute cluster.toRuntime 1 [Pubkey.filled 1]
    (setUpgradeAuthority cluster.toRuntime (Pubkey.filled 9) (Pubkey.filled 1) none)
    releasedAccounts = .ok revokedAccounts := by
  rfl

/-- The authority gives up the program, and then tries to close it. -/
theorem revoked_for_good_released :
    EveryState (InvokeContext.step cluster) (fun ctx =>
      entryOf cluster (Pubkey.filled 9) ctx.accounts = .live [0x7f, 0x45, 0x4c, 0x46] none ∧
      ∀ slot first ks data ctx' i,
        processInstructionCommon cluster slot (Pubkey.filled 9) first ks data ctx =
          .ok (ctx', some i) → stripZeros i.executor = [0x7f, 0x45, 0x4c, 0x46])
      ⟨revokedAccounts, fun _ => none⟩ [.bpf 2 (Pubkey.filled 2) 0 closeAccounts [5, 0, 0, 0]] :=
  revoked_for_good cluster_lawful released_coherent released_live revoke_released (by
    simp only [List.forall_mem_cons, List.not_mem_nil, false_imp_iff, implies_true, and_true]
    exact ⟨by decide, by decide⟩)

end Cluster

end SolanaSample.BpfLoaderUpgradeable
