import SolanaSample.Chain.Transaction
import SolanaSample.Deploy.Chunks
import SolanaSample.Deploy.Encode
import SolanaSample.Library.Run

/-! `deployProgram` as a state machine: it waits for one call after the other, and each call
returns or throws. -/
namespace SolanaSample.Deploy
open EventRun Loader PrefixCodec

variable {System : Type} {rt : Runtime System}

/-- What a deployment is made with: the vault account's address, the two keypairs of the
environment, and the program file. -/
structure Deployment (rt : Runtime System) where
  payer : Pubkey
  program : Pubkey
  buffer : Pubkey
  programData : List UInt8
  program_secret : rt.hasSecretKey program
  buffer_secret : rt.hasSecretKey buffer
  program_ne_buffer : program ≠ buffer

def programAccountSpace : ℕ := 44

def maxRetries : ℕ := 3

namespace Deployment

variable (d : Deployment rt)

def bufferSize : ℕ := Deploy.bufferSize d.programData.length

def totalChunks : ℕ := Deploy.totalChunks d.programData.length

def programDataAddress : Pubkey := rt.findProgramAddress d.program

def createAccountTransaction (blockhash lamports : ℕ) : Transaction System where
  feePayer := d.payer
  recentBlockhash := blockhash
  instruction := .createAccount ⟨d.payer, d.program, lamports, programAccountSpace, rt.loaderId⟩
  partialSigners := [d.program]

def createBufferAccountTransaction (blockhash lamports : ℕ) : Transaction System where
  feePayer := d.payer
  recentBlockhash := blockhash
  instruction := .createAccount ⟨d.payer, d.buffer, lamports, d.bufferSize, rt.loaderId⟩
  partialSigners := [d.buffer]

def createBufferTransaction (blockhash : ℕ) : Transaction System where
  feePayer := d.payer
  recentBlockhash := blockhash
  instruction := .loader [⟨d.buffer, false, true⟩, ⟨d.payer, false, false⟩] [0, 0, 0, 0]
  partialSigners := []

/-- `none` when the offset does not fit the instruction. -/
def chunkTransaction (i blockhash : ℕ) : Option (Transaction System) := do
  let data ← encodeWriteInstruction (offset i) (chunk d.programData i)
  some
    { feePayer := d.payer
      recentBlockhash := blockhash
      instruction := .loader [⟨d.buffer, false, true⟩, ⟨d.payer, true, false⟩] data
      partialSigners := [] }

/-- The accounts that the last transaction refers to. -/
def finalizeKeys : List AccountMeta :=
  [⟨d.payer, true, true⟩, ⟨d.programDataAddress, false, true⟩, ⟨d.program, false, true⟩,
    ⟨d.buffer, false, true⟩, ⟨rt.rentId, false, false⟩, ⟨rt.clockId, false, false⟩,
    ⟨rt.systemId, false, false⟩, ⟨d.payer, true, false⟩]

def finalizeTransaction (blockhash : ℕ) : Option (Transaction System) := do
  let data ← encodeDeployWithMaxDataLenInstruction d.bufferSize
  some
    { feePayer := d.payer
      recentBlockhash := blockhash
      instruction := .loader d.finalizeKeys data
      partialSigners := [] }

variable {d}

theorem bufferSize_ge (d : Deployment rt) : 1024 ≤ d.bufferSize := by
  have h := bufferSize_eq d.programData.length
  unfold Deployment.bufferSize
  omega

/-- A transaction that writes a chunk has its offset in 32 bits. -/
theorem chunkTransaction_eq_some {i blockhash : ℕ} {tx : Transaction System}
    (h : d.chunkTransaction i blockhash = some tx) : offset i < 2 ^ 32 ∧
      tx = ⟨d.payer, blockhash, .loader [⟨d.buffer, false, true⟩, ⟨d.payer, true, false⟩]
        (UpgradeableLoaderInstruction.codec.encode
          (.write (UInt32.ofNat (offset i)) (chunk d.programData i))), []⟩ := by
  obtain ⟨data, hdata, htx⟩ := Option.bind_eq_some_iff.mp h
  have hlt : offset i < 2 ^ 32 := by
    by_contra hge
    rw [encodeWriteInstruction_eq_none (Nat.not_lt.mp hge)] at hdata
    cases hdata
  rw [encodeWriteInstruction_eq hlt] at hdata
  obtain rfl := Option.some.inj hdata
  exact ⟨hlt, (Option.some.inj htx).symm⟩

theorem finalizeTransaction_eq_some {blockhash : ℕ} {tx : Transaction System}
    (h : d.finalizeTransaction blockhash = some tx) : d.bufferSize < 2 ^ 64 ∧
      tx = ⟨d.payer, blockhash, .loader d.finalizeKeys
        (UpgradeableLoaderInstruction.codec.encode
          (.deployWithMaxDataLen (UInt64.ofNat d.bufferSize))), []⟩ := by
  obtain ⟨data, hdata, htx⟩ := Option.bind_eq_some_iff.mp h
  have hlt : d.bufferSize < 2 ^ 64 := by
    by_contra hge
    rw [encodeDeployWithMaxDataLenInstruction_eq_none (Nat.not_lt.mp hge)] at hdata
    cases hdata
  rw [encodeDeployWithMaxDataLenInstruction_eq hlt] at hdata
  obtain rfl := Option.some.inj hdata
  exact ⟨hlt, (Option.some.inj htx).symm⟩

end Deployment

/-- The calls the script waits for, each with the variables that are still needed. A send waits
in `sendAndConfirmTransaction`, a poll in `getTransaction`. Not among them are the `create` that
came before and the `confirmTransaction` between a send and its polls, which the adapter answers
at once. -/
inductive Await (System : Type) where
  | minimumBalance
  | programBlockhash
  | programRent (blockhash : ℕ)
  | programSend (tx : Transaction System)
  | bufferBlockhash
  | bufferRent (blockhash : ℕ)
  | bufferSend (tx : Transaction System)
  | initializeBlockhash
  | initializeSend (tx : Transaction System)
  | initializePoll
  | chunkBlockhash (i : ℕ)
  | chunkFee (i : ℕ) (tx : Transaction System)
  | chunkSend (i : ℕ) (tx : Transaction System)
  | chunkPoll (i : ℕ) (tx : Transaction System)
  | chunkRetry (i : ℕ) (tx : Transaction System) (retries : ℕ)
  | finalizeBlockhash
  | finalizeSend (tx : Transaction System)
  | finished
  | failed

/-- What a call comes back with. The value is the blockhash, the lamports, or the slot of a
poll, which is 0 for a transaction that is not there yet. -/
inductive Reply where
  | returned (value : ℕ)
  | threw
  deriving DecidableEq

def Reply.isReturned : Reply → Bool
  | returned _ => true
  | threw => false

variable (d : Deployment rt)

/-- The head of the chunk loop. -/
def nextChunk (i : ℕ) : Await System :=
  if i < d.totalChunks then .chunkBlockhash i else .finalizeBlockhash

/-- The code between one call and the next. -/
def next : Await System → Reply → Await System
  | .minimumBalance, .returned _ => .programBlockhash
  | .programBlockhash, .returned blockhash => .programRent blockhash
  | .programRent blockhash, .returned lamports =>
    .programSend (d.createAccountTransaction blockhash lamports)
  | .programSend _, .returned _ => .bufferBlockhash
  | .bufferBlockhash, .returned blockhash => .bufferRent blockhash
  | .bufferRent blockhash, .returned lamports =>
    .bufferSend (d.createBufferAccountTransaction blockhash lamports)
  | .bufferSend _, .returned _ => .initializeBlockhash
  | .initializeBlockhash, .returned blockhash =>
    .initializeSend (d.createBufferTransaction blockhash)
  | .initializeSend _, .returned _ => .initializePoll
  | .initializePoll, .returned slot => if slot > 0 then nextChunk d 0 else .initializePoll
  | .chunkBlockhash i, .returned blockhash =>
    match d.chunkTransaction i blockhash with
    | some tx => .chunkFee i tx
    | none => .failed
  -- From here on an exception is caught by the chunk's own `catch`, which starts the retries.
  | .chunkFee i tx, .returned _ => .chunkSend i tx
  | .chunkFee i tx, .threw => .chunkRetry i tx 0
  | .chunkSend i tx, .returned _ => .chunkPoll i tx
  | .chunkSend i tx, .threw => .chunkRetry i tx 0
  | .chunkPoll i tx, .returned slot => if slot > 0 then nextChunk d (i + 1) else .chunkPoll i tx
  | .chunkPoll i tx, .threw => .chunkRetry i tx 0
  | .chunkRetry i _ _, .returned _ => nextChunk d (i + 1)
  | .chunkRetry i tx retries, .threw =>
    if retries + 1 < maxRetries then .chunkRetry i tx (retries + 1) else .failed
  | .finalizeBlockhash, .returned blockhash =>
    match d.finalizeTransaction blockhash with
    | some tx => .finalizeSend tx
    | none => .failed
  | .finalizeSend _, .returned _ => .finished
  | .finished, _ => .finished
  -- The outer `catch` ends the run.
  | _, _ => .failed

/-- What a transaction is sent for. -/
inductive Purpose where
  | createProgramAccount
  | createBufferAccount
  | initializeBuffer
  | write (i : ℕ)
  | deploy
  deriving DecidableEq

/-- The transaction that is being sent, if the script waits for a send. -/
def Await.sending : Await System → Option (Purpose × Transaction System)
  | .programSend tx => some (.createProgramAccount, tx)
  | .bufferSend tx => some (.createBufferAccount, tx)
  | .initializeSend tx => some (.initializeBuffer, tx)
  | .chunkSend i tx => some (.write i, tx)
  | .chunkRetry i tx _ => some (.write i, tx)
  | .finalizeSend tx => some (.deploy, tx)
  | _ => none

def Await.isOver : Await System → Bool
  | .finished => true
  | .failed => true
  | _ => false

/-- A transaction that was passed to `sendAndConfirmTransaction`, whether it was executed, and
whether the call returned. -/
structure Sent (System : Type) where
  purpose : Purpose
  transaction : Transaction System
  executed : Bool
  returned : Bool

structure Script (System : Type) where
  await : Await System
  sent : List (Sent System)

def Script.start : Script System := ⟨.minimumBalance, []⟩

/-- What becomes of the call the script waits for. -/
structure Outcome where
  executed : Bool
  reply : Reply
  deriving DecidableEq

def Script.step (s : Script System) (o : Outcome) : Script System where
  await := next d s.await o.reply
  sent :=
    match s.await.sending with
    | some (purpose, tx) => s.sent ++ [⟨purpose, tx, o.executed, o.reply.isReturned⟩]
    | none => s.sent

theorem Await.sending_of_isOver {a : Await System} (h : a.isOver = true) : a.sending = none := by
  cases a <;> first | cases h; done | rfl

theorem next_of_isOver {a : Await System} (h : a.isOver = true) (reply : Reply) :
    next d a reply = a := by
  cases a <;> first | cases h; done | (cases reply <;> rfl)

/-- A run that is over stays as it is. -/
theorem Script.step_of_isOver {s : Script System} (h : s.await.isOver = true) (o : Outcome) :
    s.step d o = s := by
  unfold Script.step
  rw [next_of_isOver d h, Await.sending_of_isOver h]

/-- The transactions that wait to be sent are the ones the script builds. -/
def WellBuilt : Await System → Prop
  | .programSend tx => ∃ blockhash lamports, tx = d.createAccountTransaction blockhash lamports
  | .bufferSend tx => ∃ blockhash lamports, tx = d.createBufferAccountTransaction blockhash lamports
  | .initializeSend tx => ∃ blockhash, tx = d.createBufferTransaction blockhash
  | .chunkFee i tx => ∃ blockhash, d.chunkTransaction i blockhash = some tx
  | .chunkSend i tx => ∃ blockhash, d.chunkTransaction i blockhash = some tx
  | .chunkPoll i tx => ∃ blockhash, d.chunkTransaction i blockhash = some tx
  | .chunkRetry i tx _ => ∃ blockhash, d.chunkTransaction i blockhash = some tx
  | .finalizeSend tx => ∃ blockhash, d.finalizeTransaction blockhash = some tx
  | _ => True

theorem wellBuilt_nextChunk (i : ℕ) : WellBuilt d (nextChunk d i) := by
  unfold nextChunk
  split_ifs <;> trivial

theorem wellBuilt_next {await : Await System} (h : WellBuilt d await) (reply : Reply) :
    WellBuilt d (next d await reply) := by
  cases await with
  | programRent blockhash => cases reply <;> first | exact ⟨_, _, rfl⟩ | trivial
  | bufferRent blockhash => cases reply <;> first | exact ⟨_, _, rfl⟩ | trivial
  | initializeBlockhash => cases reply <;> first | exact ⟨_, rfl⟩ | trivial
  | initializePoll =>
    cases reply with
    | threw => trivial
    | returned slot =>
      simp only [next]
      split_ifs
      · exact wellBuilt_nextChunk d 0
      · trivial
  | chunkBlockhash i =>
    cases reply with
    | threw => trivial
    | returned blockhash =>
      simp only [next]
      cases htx : d.chunkTransaction i blockhash with
      | none => trivial
      | some tx => exact ⟨blockhash, htx⟩
  | chunkFee i tx => cases reply <;> exact h
  | chunkSend i tx => cases reply <;> exact h
  | chunkPoll i tx =>
    cases reply with
    | threw => exact h
    | returned slot =>
      simp only [next]
      split_ifs
      · exact wellBuilt_nextChunk d (i + 1)
      · exact h
  | chunkRetry i tx retries =>
    cases reply with
    | threw =>
      simp only [next]
      split_ifs
      · exact h
      · trivial
    | returned txHash => exact wellBuilt_nextChunk d (i + 1)
  | finalizeBlockhash =>
    cases reply with
    | threw => trivial
    | returned blockhash =>
      simp only [next]
      cases htx : d.finalizeTransaction blockhash with
      | none => trivial
      | some tx => exact ⟨blockhash, htx⟩
  | _ => cases reply <;> trivial

/-- The script after its first calls came back in these ways. -/
def Script.after (os : List Outcome) : Script System := run (Script.step d) Script.start os

end SolanaSample.Deploy
