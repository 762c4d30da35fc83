import SolanaSample.Chain.BpfRuntime
import SolanaSample.Loader.Change
import SolanaSample.Library.Run

/-! The entry of the loaders: `process_instruction_common` runs the code of a program, or hands
the instruction to a loader. An executor is kept for each program that was run or deployed. -/
namespace SolanaSample.Loader
open PrefixCodec Rejection EventRun

/-! The instructions of the two older loaders. -/

inductive LoaderInstruction where
  | write (offset : UInt32) (bytes : ByteString)
  | finalize
  deriving DecidableEq

namespace LoaderInstruction

def variantIndex : LoaderInstruction → UInt32
  | write _ _ => 0
  | finalize => 1

def encodeFields : LoaderInstruction → List UInt8
  | write offset bytes => (u32.pair byteString).encode (offset, bytes)
  | finalize => []

def decodeFields (i : UInt32) (bs : List UInt8) : Option (LoaderInstruction × List UInt8) :=
  if i = 0 then ((u32.pair byteString).decode bs).map fun r => (write r.1.1 r.1.2, r.2)
  else if i = 1 then some (finalize, bs)
  else none

theorem decodeFields_encodeFields (ix : LoaderInstruction) (rest : List UInt8) :
    decodeFields ix.variantIndex (ix.encodeFields ++ rest) = some (ix, rest) := by
  cases ix <;> simp [decodeFields, variantIndex, encodeFields, Codec.decode_encode]

theorem encodeFields_decodeFields (i : UInt32) (bs : List UInt8) (ix : LoaderInstruction)
    (rest : List UInt8) (h : decodeFields i bs = some (ix, rest)) :
    i = ix.variantIndex ∧ bs = ix.encodeFields ++ rest := by
  unfold decodeFields at h
  split_ifs at h
  case pos =>
    obtain ⟨⟨offset, bytes⟩, rfl, hbs⟩ :=
      Codec.encode_decode_map (u32.pair byteString) (fun p => write p.1 p.2) h
    exact ⟨‹_›, hbs⟩
  case pos => cases h; exact ⟨‹_›, rfl⟩

def codec : Codec LoaderInstruction :=
  enumeration variantIndex encodeFields decodeFields decodeFields_encodeFields
    encodeFields_decodeFields

/-- `limited_deserialize`. -/
def limitedDeserialize (data : List UInt8) : Except InstructionError LoaderInstruction := do
  let r ← demand (codec.decode data) .invalidInstructionData
  reject (data.length - r.2.length > 1232) .invalidInstructionData
  .ok r.1

end LoaderInstruction

/-- The accounts, and the executors by program. An executor is known by the bytes it was made
of. -/
structure InvokeContext where
  accounts : Accounts
  executors : Pubkey → Option (List UInt8)

def InvokeContext.addExecutor (ctx : InvokeContext) (programId : Pubkey)
    (executor : List UInt8) : InvokeContext :=
  { ctx with executors := Function.update ctx.executors programId (some executor) }

@[simp] theorem addExecutor_accounts (ctx : InvokeContext) (programId : Pubkey)
    (executor : List UInt8) : (ctx.addExecutor programId executor).accounts = ctx.accounts := rfl

theorem addExecutor_self (ctx : InvokeContext) (programId : Pubkey) (executor : List UInt8) :
    (ctx.addExecutor programId executor).executors programId = some executor :=
  Function.update_self ..

theorem addExecutor_of_ne (ctx : InvokeContext) {programId k : Pubkey} (executor : List UInt8)
    (h : k ≠ programId) : (ctx.addExecutor programId executor).executors k = ctx.executors k :=
  Function.update_of_ne h _ _

/-- The call of an executor. -/
structure Invocation where
  executor : List UInt8
  accounts : List KeyedAccount
  instructionData : List UInt8

variable {System : Type} (rt : BpfRuntime System)

/-- Slicing the data past its end is a panic. -/
def createExecutor (data : List UInt8) (offset : ℕ) : Except InstructionError (List UInt8) := do
  reject (data.length < offset) (.external 1)
  rt.createExecutor (data.drop offset)
  .ok (data.drop offset)

/-- The program an instruction is for: the first account or the one behind it. When it is
neither, the instruction is for the loader itself, and the first account must not be a program
that runs. -/
def selectProgram (programId : Pubkey) (first : ℕ) (ks : List KeyedAccount) (s : Accounts) :
    Except InstructionError (KeyedAccount × ℕ) := do
  let firstAccount ← keyedAccountAtIndex ks first
  if firstAccount.key = programId then .ok (firstAccount, first)
  else
    match ks[first + 1]?.filter (·.key = programId) with
    | some secondAccount => .ok (secondAccount, first + 1)
    | none => do
      reject ((s firstAccount.key).executable = true) .incorrectProgramId
      .ok (firstAccount, first)

/-- Where the code of a program starts in the first account. A program of the upgradeable loader
has its code in its ProgramData account, which must not have been closed. -/
def programDataOffset (program firstAccount : Pubkey) (s : Accounts) :
    Except InstructionError ℕ :=
  if (s program).owner = rt.loaderId then do
    let programState ← state s program
    let programdataAddress ← demand (asProgram programState) .invalidAccountData
    reject (programdataAddress ≠ firstAccount) .invalidArgument
    let firstState ← state s firstAccount
    reject (asProgramData firstState = none) .invalidAccountData
    .ok UpgradeableLoaderState.programdataDataOffset
  else .ok 0

/-- The executor that is kept, or one made of the first account. -/
def getExecutor (programId firstAccount : Pubkey) (offset : ℕ) (ctx : InvokeContext) :
    Except InstructionError (InvokeContext × List UInt8) :=
  match ctx.executors programId with
  | some executor => .ok (ctx, executor)
  | none => do
    let executor ← createExecutor rt (ctx.accounts firstAccount).data offset
    .ok (ctx.addExecutor programId executor, executor)

def runProgram (programId program : Pubkey) (first next : ℕ) (ks : List KeyedAccount)
    (data : List UInt8) (ctx : InvokeContext) :
    Except InstructionError (InvokeContext × Invocation) := do
  let firstAccount ← keyedAccountAtIndex ks first
  reject (¬ rt.CheckLoaderId (ctx.accounts program).owner) .incorrectProgramId
  let offset ← programDataOffset rt program firstAccount.key ctx.accounts
  let (ctx, executor) ← getExecutor rt programId firstAccount.key offset ctx
  .ok (ctx, ⟨executor, ks.drop (next + 1), data⟩)

/-- The executor that an accepted instruction of the upgradeable loader leaves for the program,
made of the buffer. Nothing but the lamports of the buffer changes on the way. -/
def addedExecutor (ix : UpgradeableLoaderInstruction) (ks : List KeyedAccount) (s : Accounts) :
    Option (Pubkey × List UInt8) :=
  match ix with
  | .deployWithMaxDataLen _ => do
    let program ← ks[2]?
    let buffer ← ks[3]?
    some (program.key, (s buffer.key).data.drop UpgradeableLoaderState.bufferDataOffset)
  | .upgrade => do
    let program ← ks[1]?
    let buffer ← ks[2]?
    some (program.key, (s buffer.key).data.drop UpgradeableLoaderState.bufferDataOffset)
  | _ => none

def InvokeContext.install (ctx : InvokeContext) (s : Accounts) :
    Option (Pubkey × List UInt8) → InvokeContext
  | some (programId, executor) => { ctx with accounts := s }.addExecutor programId executor
  | none => { ctx with accounts := s }

@[simp] theorem install_accounts (ctx : InvokeContext) (s : Accounts)
    (added : Option (Pubkey × List UInt8)) : (ctx.install s added).accounts = s := by
  cases added <;> rfl

/-- `process_loader_upgradeable_instruction` with its executors. -/
def processUpgradeable (slot : UInt64) (ks : List KeyedAccount) (data : List UInt8)
    (ctx : InvokeContext) : Except InstructionError InvokeContext := do
  let ix ← Loader.limitedDeserialize data
  let s ← processInstruction rt.toRuntime slot ix ks ctx.accounts
  .ok (ctx.install s (addedExecutor ix ks ctx.accounts))

/-- `process_loader_instruction`. -/
def processLoaderInstruction (programId : Pubkey) (ks : List KeyedAccount) (data : List UInt8)
    (ctx : InvokeContext) : Except InstructionError InvokeContext := do
  let program ← keyedAccountAtIndex ks 0
  reject ((ctx.accounts program.key).owner ≠ programId) .incorrectProgramId
  let ix ← LoaderInstruction.limitedDeserialize data
  match ix with
  | .write offset bytes =>
    reject (program.isSigner = false) .missingRequiredSignature
    let s ← writeProgramData ctx.accounts program.key offset.toNat bytes.bytes
    .ok { ctx with accounts := s }
  | .finalize =>
    reject (program.isSigner = false) .missingRequiredSignature
    let executor ← createExecutor rt (ctx.accounts program.key).data 0
    .ok ({ ctx with accounts := setExecutable ctx.accounts program.key }.addExecutor
      program.key executor)

/-- `process_instruction_common`. The call of the executor is part of the result. -/
def processInstructionCommon (slot : UInt64) (programId : Pubkey) (first : ℕ)
    (ks : List KeyedAccount) (data : List UInt8) (ctx : InvokeContext) :
    Except InstructionError (InvokeContext × Option Invocation) := do
  let (program, next) ← selectProgram programId first ks ctx.accounts
  if (ctx.accounts program.key).executable then
    let (ctx, invocation) ← runProgram rt programId program.key first next ks data ctx
    .ok (ctx, some invocation)
  else if programId = rt.loaderId then
    let ctx ← processUpgradeable rt slot (ks.drop first) data ctx
    .ok (ctx, none)
  else if programId = rt.bpfLoaderId ∨ programId = rt.bpfLoaderDeprecatedId then
    let ctx ← processLoaderInstruction rt programId (ks.drop first) data ctx
    .ok (ctx, none)
  else .error .incorrectProgramId

end SolanaSample.Loader
