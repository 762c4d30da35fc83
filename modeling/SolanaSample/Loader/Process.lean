import SolanaSample.Chain.Runtime
import SolanaSample.Loader.Instruction
import SolanaSample.Loader.State

/-! The upgradeable loader: `process_loader_upgradeable_instruction`, one function for each of
its arms. Two references to one account are one account here as they are there. -/
namespace SolanaSample.Loader
open PrefixCodec Rejection Splice UpgradeableLoaderState

variable {System : Type} (rt : Runtime System)

def keyedAccountAtIndex (ks : List KeyedAccount) (i : ℕ) : Except InstructionError KeyedAccount :=
  demand ks[i]? .notEnoughAccountKeys

/-- The keys that signed. -/
def signerKeys (ks : List KeyedAccount) : List Pubkey := (ks.filter (·.isSigner)).map (·.key)

/-- `from_keyed_account` of a sysvar looks at the address before it reads the data. -/
def fromKeyedAccount (sysvarId : Pubkey) (k : KeyedAccount) : Except InstructionError Unit :=
  reject (k.key ≠ sysvarId) .invalidArgument

def state (s : Accounts) (k : Pubkey) : Except InstructionError UpgradeableLoaderState :=
  demand (stateOf (s k).data) .invalidAccountData

def setData (s : Accounts) (k : Pubkey) (data : List UInt8) : Accounts :=
  Function.update s k { s k with data }

def setState (s : Accounts) (k : Pubkey) (st : UpgradeableLoaderState) :
    Except InstructionError Accounts := do
  let data ← demand (setStateOf st (s k).data) .accountDataTooSmall
  .ok (setData s k data)

def setLamports (s : Accounts) (k : Pubkey) (n : ℕ) : Accounts :=
  Function.update s k { s k with lamports := n }

def setExecutable (s : Accounts) (k : Pubkey) : Accounts :=
  Function.update s k { s k with executable := true }

def checkedAddLamports (s : Accounts) (k : Pubkey) (n : ℕ) : Except InstructionError Accounts := do
  reject ((s k).lamports + n ≥ 2 ^ 64) .arithmeticOverflow
  .ok (setLamports s k ((s k).lamports + n))

/-- Move all lamports of `source` to `recipient`. The recipient is borrowed while the lamports
of the source are read, which fails when they are one account. -/
def drain (s : Accounts) (recipient source : Pubkey) : Except InstructionError Accounts := do
  reject (recipient = source) .accountBorrowFailed
  let s ← checkedAddLamports s recipient (s source).lamports
  .ok (setLamports s source 0)

def drainWhen (c : Bool) (s : Accounts) (recipient source : Pubkey) :
    Except InstructionError Accounts :=
  if c then drain s recipient source else .ok s

/-- The three checks of an authority that must still be there, be the given one, and sign. -/
def requireAuthority (authorityAddress : Option Pubkey) (authority : KeyedAccount) :
    Except InstructionError Unit := do
  reject (authorityAddress = none) .immutable
  reject (authorityAddress ≠ some authority.key) .incorrectAuthority
  reject (authority.isSigner = false) .missingRequiredSignature

/-- The two checks of a buffer that is deployed: there is none for an immutable buffer. -/
def requireBufferAuthority (authorityAddress : Option Pubkey) (authority : KeyedAccount) :
    Except InstructionError Unit := do
  reject (authorityAddress ≠ some authority.key) .incorrectAuthority
  reject (authority.isSigner = false) .missingRequiredSignature

def writeProgramData (s : Accounts) (program : Pubkey) (programDataOffset : ℕ)
    (bytes : List UInt8) : Except InstructionError Accounts := do
  reject ((s program).data.length < programDataOffset + bytes.length) .accountDataTooSmall
  .ok (setData s program (splice (s program).data programDataOffset bytes))

/-- The authority in `UpgradeableLoaderState::Buffer`. -/
def asBuffer : UpgradeableLoaderState → Option (Option Pubkey)
  | .buffer authorityAddress => some authorityAddress
  | _ => none

def asProgram : UpgradeableLoaderState → Option Pubkey
  | .program programdataAddress => some programdataAddress
  | _ => none

def asProgramData : UpgradeableLoaderState → Option (Option Pubkey)
  | .programData _ upgradeAuthorityAddress => some upgradeAuthorityAddress
  | _ => none

def initializeBuffer (ks : List KeyedAccount) (s : Accounts) :
    Except InstructionError Accounts := do
  let buffer ← keyedAccountAtIndex ks 0
  let bufferState ← state s buffer.key
  reject (bufferState ≠ .uninitialized) .accountAlreadyInitialized
  let authority ← keyedAccountAtIndex ks 1
  setState s buffer.key (.buffer (some authority.key))

def write (offset : UInt32) (bytes : ByteString) (ks : List KeyedAccount) (s : Accounts) :
    Except InstructionError Accounts := do
  let buffer ← keyedAccountAtIndex ks 0
  let authority ← keyedAccountAtIndex ks 1
  let bufferState ← state s buffer.key
  let authorityAddress ← demand (asBuffer bufferState) .invalidAccountData
  requireAuthority authorityAddress authority
  writeProgramData s buffer.key (bufferDataOffset + offset.toNat) bytes.bytes

/-- The last part of a deployment, once the ProgramData account exists: record the state, the
program bits and the address of the ProgramData account. -/
def recordProgram (slot : UInt64) (authority programdata program buffer : Pubkey) (s : Accounts) :
    Except InstructionError Accounts := do
  let s ← setState s programdata (.programData slot (some authority))
  let s ← writeProgramData s programdata programdataDataOffset
    ((s buffer).data.drop bufferDataOffset)
  let s ← setState s program (.program programdata)
  .ok (setExecutable s program)

def deployWithMaxDataLen (slot : UInt64) (maxDataLen : UInt64) (ks : List KeyedAccount)
    (s : Accounts) : Except InstructionError Accounts := do
  let payer ← keyedAccountAtIndex ks 0
  let programdata ← keyedAccountAtIndex ks 1
  let program ← keyedAccountAtIndex ks 2
  let buffer ← keyedAccountAtIndex ks 3
  let rentAccount ← keyedAccountAtIndex ks 4
  fromKeyedAccount rt.rentId rentAccount
  let clockAccount ← keyedAccountAtIndex ks 5
  fromKeyedAccount rt.clockId clockAccount
  let authority ← keyedAccountAtIndex ks 7
  -- Verify Program account
  let programState ← state s program.key
  reject (programState ≠ .uninitialized) .accountAlreadyInitialized
  reject ((s program.key).data.length < programLen) .accountDataTooSmall
  reject ((s program.key).lamports < rt.minimumBalance (s program.key).data.length)
    .executableAccountNotRentExempt
  -- Verify Buffer account
  let bufferState ← state s buffer.key
  let authorityAddress ← demand (asBuffer bufferState) .invalidArgument
  requireBufferAuthority authorityAddress authority
  reject ((s buffer.key).data.length < bufferDataOffset ∨
    (s buffer.key).data.length - bufferDataOffset = 0) .invalidAccountData
  reject (maxDataLen.toNat < (s buffer.key).data.length - bufferDataOffset) .accountDataTooSmall
  reject (programdataLen maxDataLen.toNat > rt.maxPermittedDataLength) .invalidArgument
  -- Create ProgramData account
  reject (rt.findProgramAddress program.key ≠ programdata.key) .invalidArgument
  let predrainBuffer := rt.reduceRequiredDeployBalance
  let s ← drainWhen predrainBuffer s payer.key buffer.key
  let s ← rt.createAccount (rt.findProgramAddress program.key :: signerKeys ks)
    ⟨payer.key, programdata.key, max 1 (rt.minimumBalance (programdataLen maxDataLen.toNat)),
      programdataLen maxDataLen.toNat, rt.loaderId⟩ s
  -- Load and verify the program bits
  rt.createExecutor ((s buffer.key).data.drop bufferDataOffset)
  let s ← recordProgram slot authority.key programdata.key program.key buffer.key s
  drainWhen (!predrainBuffer) s payer.key buffer.key

def upgrade (slot : UInt64) (ks : List KeyedAccount) (s : Accounts) :
    Except InstructionError Accounts := do
  let programdata ← keyedAccountAtIndex ks 0
  let program ← keyedAccountAtIndex ks 1
  let buffer ← keyedAccountAtIndex ks 2
  let rentAccount ← keyedAccountAtIndex ks 4
  fromKeyedAccount rt.rentId rentAccount
  let clockAccount ← keyedAccountAtIndex ks 5
  fromKeyedAccount rt.clockId clockAccount
  let authority ← keyedAccountAtIndex ks 6
  -- Verify Program account
  reject ((s program.key).executable = false) .accountNotExecutable
  reject (program.isWritable = false) .invalidArgument
  reject ((s program.key).owner ≠ rt.loaderId) .incorrectProgramId
  let programState ← state s program.key
  let programdataAddress ← demand (asProgram programState) .invalidAccountData
  reject (programdataAddress ≠ programdata.key) .invalidArgument
  -- Verify Buffer account
  let bufferState ← state s buffer.key
  let authorityAddress ← demand (asBuffer bufferState) .invalidArgument
  requireBufferAuthority authorityAddress authority
  let bufferDataLen := (s buffer.key).data.length - bufferDataOffset
  let balanceRequired := max 1 (rt.minimumBalance (s programdata.key).data.length)
  reject ((s buffer.key).data.length < bufferDataOffset ∨ bufferDataLen = 0) .invalidAccountData
  -- Verify ProgramData account
  reject ((s programdata.key).data.length < programdataLen bufferDataLen) .accountDataTooSmall
  let balance := (s programdata.key).lamports + (s buffer.key).lamports
  reject (balance < balanceRequired) .insufficientFunds
  let programdataState ← state s programdata.key
  let upgradeAuthorityAddress ← demand (asProgramData programdataState) .invalidAccountData
  requireAuthority upgradeAuthorityAddress authority
  -- Load and verify the program bits
  rt.createExecutor ((s buffer.key).data.drop bufferDataOffset)
  let spill ← keyedAccountAtIndex ks 3
  let s ← setState s programdata.key (.programData slot (some authority.key))
  let s ← writeProgramData s programdata.key programdataDataOffset
    ((s buffer.key).data.drop bufferDataOffset ++ List.replicate
      ((s programdata.key).data.length - programdataDataOffset - bufferDataLen) 0)
  -- Fund ProgramData to rent-exemption, spill the rest
  reject (spill.key = programdata.key ∨ spill.key = buffer.key) .accountBorrowFailed
  let s ← checkedAddLamports s spill.key (balance - balanceRequired)
  .ok (setLamports (setLamports s buffer.key 0) programdata.key balanceRequired)

def setAuthority (ks : List KeyedAccount) (s : Accounts) : Except InstructionError Accounts := do
  let account ← keyedAccountAtIndex ks 0
  let presentAuthority ← keyedAccountAtIndex ks 1
  let newAuthority := ks[2]?.map (·.key)
  let accountState ← state s account.key
  match accountState with
  | .buffer authorityAddress =>
    reject (newAuthority = none) .incorrectAuthority
    requireAuthority authorityAddress presentAuthority
    setState s account.key (.buffer newAuthority)
  | .programData slot upgradeAuthorityAddress =>
    requireAuthority upgradeAuthorityAddress presentAuthority
    setState s account.key (.programData slot newAuthority)
  | _ => .error .invalidArgument

def commonCloseAccount (authorityAddress : Option Pubkey) (authority : KeyedAccount)
    (closeAccount recipientAccount : Pubkey) (s : Accounts) :
    Except InstructionError Accounts := do
  requireAuthority authorityAddress authority
  let s ← drain s recipientAccount closeAccount
  setState s closeAccount .uninitialized

def close (ks : List KeyedAccount) (s : Accounts) : Except InstructionError Accounts := do
  let closeAccount ← keyedAccountAtIndex ks 0
  let recipientAccount ← keyedAccountAtIndex ks 1
  reject (closeAccount.key = recipientAccount.key) .invalidArgument
  let closeState ← state s closeAccount.key
  match closeState with
  | .uninitialized => drain s recipientAccount.key closeAccount.key
  | .buffer authorityAddress =>
    let authority ← keyedAccountAtIndex ks 2
    commonCloseAccount authorityAddress authority closeAccount.key recipientAccount.key s
  | .programData _ authorityAddress =>
    let programAccount ← keyedAccountAtIndex ks 3
    reject (programAccount.isWritable = false) .invalidArgument
    reject ((s programAccount.key).owner ≠ rt.loaderId) .incorrectProgramId
    let programState ← state s programAccount.key
    let programdataAddress ← demand (asProgram programState) .invalidArgument
    reject (programdataAddress ≠ closeAccount.key) .invalidArgument
    let authority ← keyedAccountAtIndex ks 2
    commonCloseAccount authorityAddress authority closeAccount.key recipientAccount.key s
  | _ => .error .invalidArgument

/-- The arms of the processor. It has none for the two newest variants. -/
def processInstruction (slot : UInt64) (ix : UpgradeableLoaderInstruction)
    (ks : List KeyedAccount) (s : Accounts) : Except InstructionError Accounts :=
  match ix with
  | .initializeBuffer => initializeBuffer ks s
  | .write offset bytes => write offset bytes ks s
  | .deployWithMaxDataLen maxDataLen => deployWithMaxDataLen rt slot maxDataLen ks s
  | .upgrade => upgrade rt slot ks s
  | .setAuthority => setAuthority ks s
  | .close => close rt ks s
  | .extendProgram _ => .error .invalidInstructionData
  | .setAuthorityChecked => .error .invalidInstructionData

/-- `limited_deserialize`: bincode, of at most the bytes that fit a packet. -/
def limitedDeserialize (data : List UInt8) :
    Except InstructionError UpgradeableLoaderInstruction := do
  let r ← demand (UpgradeableLoaderInstruction.codec.decode data) .invalidInstructionData
  reject (data.length - r.2.length > 1232) .invalidInstructionData
  .ok r.1

def processLoaderUpgradeableInstruction (slot : UInt64) (data : List UInt8)
    (ks : List KeyedAccount) (s : Accounts) : Except InstructionError Accounts := do
  let ix ← limitedDeserialize data
  processInstruction rt slot ix ks s

end SolanaSample.Loader
