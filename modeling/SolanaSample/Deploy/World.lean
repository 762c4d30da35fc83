import SolanaSample.Deploy.ChunkLoop
import SolanaSample.Deploy.Sends
import SolanaSample.Chain.TestValidator

/-! The script and the accounts together, with everybody else's instructions in between. -/
namespace SolanaSample.Deploy
open EventRun Rejection Loader Splice

variable {System : Type} {rt : Runtime System}

/-- An instruction of another party: the payer and the two keypairs of the deployment do not
sign it, and who signs it has a secret key. -/
structure Outsider (d : Deployment rt) where
  signers : List Pubkey
  instruction : Instruction System
  signers_secret : ∀ k ∈ signers, rt.hasSecretKey k
  payer_notMem : d.payer ∉ signers
  program_notMem : d.program ∉ signers
  buffer_notMem : d.buffer ∉ signers

structure World (System : Type) where
  accounts : Accounts
  script : Script System

inductive Event (d : Deployment rt) where
  /-- The call the script waits for comes back. If it was a send, `landed` tells whether its
  transaction has reached the chain. -/
  | resume (slot : UInt64) (landed : Bool) (reply : Reply)
  | other (slot : UInt64) (ix : Outsider d)
  /-- The runtime drops an account that has no lamports. -/
  | collect (k : Pubkey)

variable (d : Deployment rt)

/-- The accounts after the transaction that is being sent, when it is executed. -/
def World.executed (rt : Runtime System) (w : World System) (slot : UInt64) (landed : Bool) :
    Option Accounts :=
  match w.script.await.sending with
  | some (_, tx) =>
    if landed then (execute rt slot tx.signers tx.instruction w.accounts).toOption else none
  | none => none

def emptyAccount (rt : Runtime System) : Account := ⟨0, [], rt.systemId, false⟩

def collect (rt : Runtime System) (s : Accounts) (k : Pubkey) : Accounts :=
  if (s k).lamports = 0 then Function.update s k (emptyAccount rt) else s

def World.step (w : World System) : Event d → World System
  | .resume slot landed reply =>
    match w.executed rt slot landed with
    | some s' => ⟨s', w.script.step d ⟨true, reply⟩⟩
    | none => ⟨w.accounts, w.script.step d ⟨false, reply⟩⟩
  | .other slot ix =>
    ⟨orStay w.accounts (execute rt slot ix.signers ix.instruction w.accounts), w.script⟩
  | .collect k => ⟨collect rt w.accounts k, w.script⟩

def World.start (s : Accounts) : World System := ⟨s, .start⟩

/-- The chunks that were written: what is sent may or may not be executed. -/
def writtenPieces (log : List (Sent System)) : List (Piece UInt8) :=
  log.filterMap fun x =>
    match x.purpose with
    | .write i => if x.executed then some (piece d.programData i) else none
    | _ => none

/-- The contents of the buffer, as far as they are the deployer's: zeros, and what the
executed writes have put over them. -/
def bufferContents (log : List (Sent System)) : List UInt8 :=
  spliceAll (List.replicate (d.bufferSize - UpgradeableLoaderState.bufferDataOffset) 0)
    (writtenPieces d log)

variable {d}

theorem World.step_other_ok {w : World System} {slot : UInt64} {ix : Outsider d} {s' : Accounts}
    (h : execute rt slot ix.signers ix.instruction w.accounts = .ok s') :
    w.step d (.other slot ix) = ⟨s', w.script⟩ := by
  rw [World.step, h, orStay_ok]

theorem World.step_other_error {w : World System} {slot : UInt64} {ix : Outsider d}
    {e : InstructionError}
    (h : execute rt slot ix.signers ix.instruction w.accounts = .error e) :
    w.step d (.other slot ix) = w := by
  rw [World.step, h, orStay_error]

theorem World.step_resume_some {w : World System} {slot : UInt64} {landed : Bool} {reply : Reply}
    {s' : Accounts} (h : w.executed rt slot landed = some s') :
    w.step d (.resume slot landed reply) = ⟨s', w.script.step d ⟨true, reply⟩⟩ := by
  rw [World.step, h]

theorem World.step_resume_none {w : World System} {slot : UInt64} {landed : Bool} {reply : Reply}
    (h : w.executed rt slot landed = none) :
    w.step d (.resume slot landed reply) = ⟨w.accounts, w.script.step d ⟨false, reply⟩⟩ := by
  rw [World.step, h]

/-- An account that has lamports stays, and one that goes is empty. -/
theorem collect_cases (rt : Runtime System) (s : Accounts) (k j : Pubkey) : collect rt s k j = s j ∨
    ((s j).lamports = 0 ∧ (collect rt s k j).data = []) := by
  unfold collect
  split_ifs with hzero
  · by_cases hj : j = k
    · subst hj
      exact .inr ⟨hzero, by simp [emptyAccount]⟩
    · exact .inl (Function.update_of_ne hj _ _)
  · exact .inl rfl

theorem World.executed_eq_some {w : World System} {slot : UInt64} {landed : Bool} {s' : Accounts}
    (h : w.executed rt slot landed = some s') : ∃ purpose tx,
      w.script.await.sending = some (purpose, tx) ∧
      execute rt slot tx.signers tx.instruction w.accounts = .ok s' := by
  unfold World.executed at h
  cases hs : w.script.await.sending with
  | none =>
    rw [hs] at h
    cases h
  | some p =>
    obtain ⟨purpose, tx⟩ := p
    rw [hs] at h
    simp only at h
    split_ifs at h
    refine ⟨purpose, tx, rfl, ?_⟩
    cases he : execute rt slot tx.signers tx.instruction w.accounts with
    | ok s₁ =>
      rw [he] at h
      rw [Option.some.inj h]
    | error e =>
      rw [he] at h
      cases h

theorem writtenPieces_concat (log : List (Sent System)) (x : Sent System) :
    writtenPieces d (log ++ [x]) = writtenPieces d log ++ writtenPieces d [x] :=
  List.filterMap_append

/-- Only an executed write changes the contents. -/
theorem bufferContents_concat {log : List (Sent System)} {x : Sent System}
    (h : writtenPieces d [x] = []) : bufferContents d (log ++ [x]) = bufferContents d log := by
  rw [bufferContents, writtenPieces_concat, h, List.append_nil]
  rfl

theorem bufferContents_write {log : List (Sent System)} {x : Sent System} {i : ℕ}
    (hp : x.purpose = .write i) (hx : x.executed = true) :
    bufferContents d (log ++ [x]) =
      splice (bufferContents d log) (offset i) (chunk d.programData i).bytes := by
  have hone : writtenPieces d [x] = [piece d.programData i] := by
    simp [writtenPieces, hp, hx]
  rw [bufferContents, writtenPieces_concat, hone, spliceAll_append]
  rfl

theorem bufferContents_beforeChunks {log : List (Sent System)} (h : BeforeChunks log) :
    bufferContents d log =
      List.replicate (d.bufferSize - UpgradeableLoaderState.bufferDataOffset) 0 := by
  have hnone : writtenPieces d log = [] := by
    unfold writtenPieces
    rw [List.filterMap_eq_nil_iff]
    intro x hx
    cases hp : x.purpose with
    | write i => exact absurd hp (h.2 i x hx)
    | _ => rfl
  rw [bufferContents, hnone, spliceAll_nil]

/-- A send that was not executed has written nothing. -/
theorem writtenPieces_step_of_not_executed (d : Deployment rt) (s : Script System)
    (reply : Reply) :
    writtenPieces d (s.step d ⟨false, reply⟩).sent = writtenPieces d s.sent := by
  unfold Script.step
  cases s.await.sending with
  | none => rfl
  | some p =>
    have hnone : writtenPieces d [⟨p.1, p.2, false, reply.isReturned⟩] = [] := by
      cases p.1 <;> rfl
    rw [writtenPieces_concat, hnone, List.append_nil]

theorem bufferContents_step_of_not_executed (d : Deployment rt) (s : Script System)
    (reply : Reply) :
    bufferContents d (s.step d ⟨false, reply⟩).sent = bufferContents d s.sent := by
  unfold bufferContents
  rw [writtenPieces_step_of_not_executed]

theorem Script.sent_step {s : Script System} {purpose : Purpose} {tx : Transaction System}
    (h : s.await.sending = some (purpose, tx)) (o : Outcome) :
    (s.step d o).sent = s.sent ++ [⟨purpose, tx, o.executed, o.reply.isReturned⟩] := by
  unfold Script.step
  rw [h]

/-! A deployment on the test validator. -/

def sample : Deployment TestValidator.runtime where
  payer := Pubkey.filled 10
  program := Pubkey.filled 11
  buffer := Pubkey.filled 12
  programData := [0x7f, 0x45, 0x4c, 0x46]
  program_secret := by simp [TestValidator.runtime, Pubkey.filled]
  buffer_secret := by simp [TestValidator.runtime, Pubkey.filled]
  program_ne_buffer := by decide

/-- Only the payer has an account yet. -/
def sampleAccounts : Accounts := fun k =>
  ⟨if k = sample.payer then 10 ^ 12 else 0, [], TestValidator.runtime.systemId, false⟩

end SolanaSample.Deploy
