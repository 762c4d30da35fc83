import SolanaSample.Deploy.Calls
import SolanaSample.Deploy.Delivery
import SolanaSample.Deploy.Served
import SolanaSample.Deploy.Sizes

/-! When a deployment that nobody disturbs succeeds. -/
namespace SolanaSample.Deploy
open EventRun AppendLog Rejection Loader Splice UpgradeableLoaderState

variable {System : Type} {rt : Runtime System}

/-- What the buffer holds behind its header when all is written. -/
def Deployment.image (d : Deployment rt) : List UInt8 :=
  d.programData ++ List.replicate (d.bufferSize - bufferDataOffset - d.programData.length) 0

/-- The loader has room for the program, the buffer account has it too, and the runtime can load
what is deployed. -/
structure Deployable (d : Deployment rt) : Prop where
  length_le : d.programData.length ≤ 10484703
  fits : ¬ (988 ≤ d.programData.length % 1024 ∧ d.programData.length % 1024 ≤ 991)
  loads : rt.createExecutor d.image = .ok ()

/-- The program runs, with the payer as its authority. -/
structure Live (d : Deployment rt) (s : Accounts) : Prop extends Holds d s d.programData where
  program_owner : (s d.program).owner = rt.loaderId
  program_executable : (s d.program).executable = true
  program_funded : 0 < (s d.program).lamports
  programdata_owner : (s d.programDataAddress).owner = rt.loaderId
  programdata_funded : 0 < (s d.programDataAddress).lamports

/-- The four accounts of the deployment are as they were. -/
structure Agree (d : Deployment rt) (s s' : Accounts) : Prop where
  payer : s' d.payer = s d.payer
  program : s' d.program = s d.program
  buffer : s' d.buffer = s d.buffer
  programdata : s' d.programDataAddress = s d.programDataAddress

instance (d : Deployment rt) (s s' : Accounts) : Decidable (Agree d s s') :=
  decidable_of_iff (s' d.payer = s d.payer ∧ s' d.program = s d.program ∧
      s' d.buffer = s d.buffer ∧ s' d.programDataAddress = s d.programDataAddress)
    ⟨fun h => ⟨h.1, h.2.1, h.2.2.1, h.2.2.2⟩,
      fun h => ⟨h.payer, h.program, h.buffer, h.programdata⟩⟩

def Reply.isConfirmed : Reply → Bool
  | returned slot => 0 < slot
  | threw => false

/-- What a call that is no send comes back with: the rents are those of the runtime, and a
transaction that was sent is found. -/
def answered (d : Deployment rt) : Await System → Reply → Bool
  | .programRent _, reply => reply = .returned d.programRent
  | .bufferRent _, reply => reply = .returned d.bufferRent
  | .initializePoll, reply => reply.isConfirmed
  | .chunkPoll _ _, reply => reply.isConfirmed
  | _, reply => reply.isReturned

/-- Every transaction reaches the chain, its send returns exactly if it is executed, and nobody
else touches the four accounts. -/
def Cooperative (d : Deployment rt) (w : World System) : Event d → Prop
  | .resume slot landed reply =>
    (w.script.await.sending = none → answered d w.script.await reply = true) ∧
      (w.script.await.sending.isSome = true →
        landed = true ∧ reply.isReturned = (w.executed rt slot landed).isSome)
  | .other slot ix => Agree d w.accounts (w.step d (.other slot ix)).accounts
  | .collect _ => True

instance (d : Deployment rt) (w : World System) : (e : Event d) → Decidable (Cooperative d w e)
  | .resume slot landed reply => inferInstanceAs (Decidable
      ((w.script.await.sending = none → answered d w.script.await reply = true) ∧
        (w.script.await.sending.isSome = true →
          landed = true ∧ reply.isReturned = (w.executed rt slot landed).isSome)))
  | .other slot ix => inferInstanceAs (Decidable
      (Agree d w.accounts (w.step d (.other slot ix)).accounts))
  | .collect _ => inferInstanceAs (Decidable True)

/-- The calls the script waited for that have come back. -/
def Event.isResume {d : Deployment rt} : Event d → Bool
  | .resume _ _ _ => true
  | _ => false

variable {d : Deployment rt}

theorem Cooperative.undisturbed {w : World System} {e : Event d} (h : Cooperative d w e) :
    Undisturbed d w e := by
  cases e with
  | resume slot landed reply =>
    intro hs hr
    rw [← (h.2 hs).2]
    exact hr
  | other slot ix => exact h.buffer
  | collect k => trivial

/-! What the runs that succeed have in common. -/

theorem deploy_loads (hrt : rt.Lawful) {slot maxDataLen : UInt64} {ks : List KeyedAccount}
    {s s' : Accounts} (h : deployWithMaxDataLen rt slot maxDataLen ks s = .ok s') :
    ∃ buffer : KeyedAccount, ks[3]? = some buffer ∧
      programdataLen maxDataLen.toNat ≤ rt.maxPermittedDataLength ∧
      rt.createExecutor ((s buffer.key).data.drop bufferDataOffset) = .ok () := by
  simp only [deployWithMaxDataLen, do_ok_iff, exists_unit, keyedAccountAtIndex_eq_ok, state_eq_ok,
    demand_eq_ok, reject_eq_ok, asBuffer_eq_some, requireBufferAuthority_eq_ok, ne_eq,
    not_not] at h
  obtain ⟨payer, -, programdata, -, program, -, buffer, hk₃, rentAccount, -, -, clockAccount,
    -, -, authority, -, pst, -, rfl, -, -, bst, hbst, a, rfl, -, -, -, hlimit, hderived, s₁,
    hdrain, s₂, hcreate, hload, -⟩ := h
  have hbuffer : buffer.key ≠ programdata.key := by
    intro he
    have hfresh := hrt.createAccount_fresh hcreate
    rw [(drainWhen_effect hdrain _).1, ← he] at hfresh
    exact ne_nil_of_stateOf hbst hfresh
  refine ⟨buffer, hk₃, by omega, ?_⟩
  rw [(hrt.createAccount_frame hcreate _ hbuffer).1, (drainWhen_effect hdrain _).1] at hload
  exact hload

/-- Once all chunks are written the buffer holds the image. -/
theorem Delivering.image {w : World System} (h : Delivering d w)
    (hb : w.script.await.bufferCreated = true) (hdone : ∀ i < d.totalChunks, Done w.script.sent i)
    {st : UpgradeableLoaderState} (hst : stateOf (w.accounts d.buffer).data = some st) :
    (w.accounts d.buffer).data.drop bufferDataOffset = d.image := by
  obtain ⟨hlen, hcontents⟩ := (h.buffer hb).of_stateOf hst
  obtain ⟨m, hm⟩ := bufferContents_complete h hdone
  rw [hm] at hcontents
  have hlength := congrArg List.length hcontents
  rw [List.length_drop, hlen, List.length_append, List.length_replicate] at hlength
  rw [hcontents, Deployment.image, hlength, Nat.add_sub_cancel_left]

theorem Delivering.chunksFit {w : World System} (h : Delivering d w)
    (hdone : ∀ i < d.totalChunks, Done w.script.sent i) : ChunksFit d.programData.length := by
  intro i hi
  obtain ⟨x, hx, hp, hr⟩ := hdone i hi
  have hfits := h.fits _ (mem_writtenPieces.mpr ⟨i, ⟨x, hx, hp, h.executed x hx hr⟩, rfl⟩)
  rw [← chunk_length]
  exact hfits

/-- The transaction of the deployment is a `DeployWithMaxDataLen` of the buffer's size. -/
theorem execute_finalizeTransaction_deploys {slot : UInt64} {s s' : Accounts}
    {tx : Transaction System} {blockhash : ℕ} (htx : d.finalizeTransaction blockhash = some tx)
    (h : execute rt slot tx.signers tx.instruction s = .ok s') :
    ∃ maxDataLen : UInt64, maxDataLen.toNat = d.bufferSize ∧
      deployWithMaxDataLen rt slot maxDataLen (keyedAccounts [d.payer] d.finalizeKeys) s =
        .ok s' := by
  obtain ⟨hlt, rfl⟩ := Deployment.finalizeTransaction_eq_some htx
  obtain ⟨ix, hix, hp⟩ := execute_loader_eq_ok h
  obtain rfl := limitedDeserialize_encode rfl hix
  exact ⟨_, UInt64.toNat_ofNat_of_lt' hlt, hp⟩

/-- A deployment that is executed was one that could be. -/
theorem deployable_of_executed (hrt : rt.Lawful)
    (hmax : rt.maxPermittedDataLength = maxPermittedDataLength) {w : World System}
    (h : Delivering d w) {tx : Transaction System} (ha : w.script.await = .finalizeSend tx)
    {slot : UInt64} {s' : Accounts}
    (hexec : execute rt slot tx.signers tx.instruction w.accounts = .ok s') : Deployable d := by
  have hdone : ∀ i < d.totalChunks, Done w.script.sent i := by
    have hstage := h.discipline.2
    rw [ha] at hstage
    exact hstage.2
  obtain ⟨blockhash, htx⟩ : ∃ blockhash, d.finalizeTransaction blockhash = some tx := by
    have hbuilt := h.built
    rw [ha] at hbuilt
    exact hbuilt
  obtain ⟨maxDataLen, hsize, hdeploy⟩ := execute_finalizeTransaction_deploys htx hexec
  obtain ⟨buffer, hk₃, hlimit, hload⟩ := deploy_loads hrt hdeploy
  obtain rfl := Option.some.inj hk₃
  have hstate := (execute_finalizeTransaction hrt htx hexec).buffer_state
  have himage := h.image (by rw [ha]; rfl) hdone hstate
  refine ⟨?_, (chunksFit_iff _).mp (h.chunksFit hdone), ?_⟩
  · rw [hmax, programdataLen_le_iff, hsize] at hlimit
    have hb := bufferSize_eq d.programData.length
    have heq : d.bufferSize = bufferSize d.programData.length := rfl
    omega
  · rw [← himage]
    exact hload

/-! The way to success. -/

section Agree
variable {s s' : Accounts} {need : ℕ}

theorem Funded.agree (h : Funded d need s) (ha : Agree d s s') : Funded d need s' where
  payer_owner := by rw [ha.payer]; exact h.payer_owner
  payer_data := by rw [ha.payer]; exact h.payer_data
  payer_ne_program := h.payer_ne_program
  payer_ne_buffer := h.payer_ne_buffer
  funds := by rw [ha.payer]; exact h.funds
  bounded := by rw [ha.payer, ha.buffer]; exact h.bounded
  programdata := ha.programdata.trans h.programdata

theorem Unstarted.agree (h : Unstarted d s) (ha : Agree d s s') : Unstarted d s' :=
  ⟨h.toFunded.agree ha, ha.program.trans h.program, ha.buffer.trans h.buffer⟩

theorem ProgramCreated.agree (h : ProgramCreated d s) (ha : Agree d s s') : ProgramCreated d s' :=
  ⟨h.toFunded.agree ha, ha.program.trans h.program, ha.buffer.trans h.buffer⟩

theorem BufferCreated.agree (h : BufferCreated d s) (ha : Agree d s s') : BufferCreated d s' :=
  ⟨h.toFunded.agree ha, ha.program.trans h.program, ha.buffer.trans h.buffer⟩

theorem BufferOpen.agree (h : BufferOpen d s) (ha : Agree d s s') : BufferOpen d s' where
  toFunded := h.toFunded.agree ha
  program := ha.program.trans h.program
  buffer_owner := by rw [ha.buffer]; exact h.buffer_owner
  buffer_lamports := by rw [ha.buffer]; exact h.buffer_lamports
  buffer_state := by rw [ha.buffer]; exact h.buffer_state
  buffer_length := by rw [ha.buffer]; exact h.buffer_length

theorem Live.congr (h : Live d s) (hp : s' d.program = s d.program)
    (hpd : s' d.programDataAddress = s d.programDataAddress) : Live d s' where
  program := by rw [hp]; exact h.program
  authority := by rw [hpd]; exact h.authority
  code := by rw [hpd]; exact h.code
  program_owner := by rw [hp]; exact h.program_owner
  program_executable := by rw [hp]; exact h.program_executable
  program_funded := by rw [hp]; exact h.program_funded
  programdata_owner := by rw [hpd]; exact h.programdata_owner
  programdata_funded := by rw [hpd]; exact h.programdata_funded

/-- The runtime drops nothing that is paid for, and an unused account is dropped already. -/
theorem collect_kept {k : Pubkey} (h : s k = rt.unused ∨ 0 < (s k).lamports) (j : Pubkey) :
    collect rt s j k = s k := by
  unfold collect
  split_ifs with hzero
  · by_cases hk : k = j
    · subst hk
      rw [Function.update_self]
      rcases h with hunused | hpos
      · exact hunused.symm
      · omega
    · exact Function.update_of_ne hk _ _
  · rfl

theorem Funded.collect (h : Funded d need s) (hserve : rt.Serves)
    (hprogram : s d.program = rt.unused ∨ 0 < (s d.program).lamports)
    (hbuffer : s d.buffer = rt.unused ∨ 0 < (s d.buffer).lamports) (j : Pubkey) :
    Agree d s (collect rt s j) where
  payer := collect_kept (.inr (h.payer_pos hserve)) j
  program := collect_kept hprogram j
  buffer := collect_kept hbuffer j
  programdata := collect_kept (.inl h.programdata) j

theorem programAccount_funded (hserve : rt.Serves) (h : s d.program = d.programAccount) :
    0 < (s d.program).lamports := by
  rw [h]
  exact hserve.minimumBalance_pos _

end Agree

/-- How far the accounts are when the script waits at the given place. -/
def OnTrack (d : Deployment rt) (s : Accounts) : Await System → Prop
  | .minimumBalance => Unstarted d s
  | .programBlockhash => Unstarted d s
  | .programRent _ => Unstarted d s
  | .programSend tx => Unstarted d s ∧
      ∃ blockhash, tx = d.createAccountTransaction blockhash d.programRent
  | .bufferBlockhash => ProgramCreated d s
  | .bufferRent _ => ProgramCreated d s
  | .bufferSend tx => ProgramCreated d s ∧
      ∃ blockhash, tx = d.createBufferAccountTransaction blockhash d.bufferRent
  | .initializeBlockhash => BufferCreated d s
  | .initializeSend _ => BufferCreated d s
  | .finished => Live d s
  | .failed => False
  | _ => BufferOpen d s

variable {s s' : Accounts} {a : Await System}

theorem OnTrack.agree (h : OnTrack d s a) (ha : Agree d s s') : OnTrack d s' a := by
  cases a with
  | minimumBalance => exact Unstarted.agree h ha
  | programBlockhash => exact Unstarted.agree h ha
  | programRent blockhash => exact Unstarted.agree h ha
  | programSend tx => exact ⟨h.1.agree ha, h.2⟩
  | bufferBlockhash => exact ProgramCreated.agree h ha
  | bufferRent blockhash => exact ProgramCreated.agree h ha
  | bufferSend tx => exact ⟨h.1.agree ha, h.2⟩
  | initializeBlockhash => exact BufferCreated.agree h ha
  | initializeSend tx => exact BufferCreated.agree h ha
  | finished => exact Live.congr h ha.program ha.programdata
  | failed => exact h
  | _ => exact BufferOpen.agree h ha

theorem OnTrack.collect (h : OnTrack d s a) (hserve : rt.Serves) (j : Pubkey) :
    OnTrack d (collect rt s j) a := by
  have hunstarted : Unstarted d s → Agree d s (Deploy.collect rt s j) := fun h =>
    h.toFunded.collect hserve (.inl h.program) (.inl h.buffer) j
  have hprogram : ProgramCreated d s → Agree d s (Deploy.collect rt s j) := fun h =>
    h.toFunded.collect hserve (.inr (programAccount_funded hserve h.program)) (.inl h.buffer) j
  have hbuffer : BufferCreated d s → Agree d s (Deploy.collect rt s j) := fun h =>
    h.toFunded.collect hserve (.inr (programAccount_funded hserve h.program))
      (.inr (by rw [h.buffer]; exact hserve.minimumBalance_pos _)) j
  have hopen : BufferOpen d s → Agree d s (Deploy.collect rt s j) := fun h =>
    h.toFunded.collect hserve (.inr (programAccount_funded hserve h.program))
      (.inr (by rw [h.buffer_lamports]; exact hserve.minimumBalance_pos _)) j
  cases a with
  | minimumBalance => exact Unstarted.agree h (hunstarted h)
  | programBlockhash => exact Unstarted.agree h (hunstarted h)
  | programRent blockhash => exact Unstarted.agree h (hunstarted h)
  | programSend tx => exact ⟨h.1.agree (hunstarted h.1), h.2⟩
  | bufferBlockhash => exact ProgramCreated.agree h (hprogram h)
  | bufferRent blockhash => exact ProgramCreated.agree h (hprogram h)
  | bufferSend tx => exact ⟨h.1.agree (hprogram h.1), h.2⟩
  | initializeBlockhash => exact BufferCreated.agree h (hbuffer h)
  | initializeSend tx => exact BufferCreated.agree h (hbuffer h)
  | finished =>
    exact Live.congr h (collect_kept (.inr h.program_funded) j)
      (collect_kept (.inr h.programdata_funded) j)
  | failed => exact h
  | _ => exact BufferOpen.agree h (hopen h)

theorem onTrack_nextChunk (h : BufferOpen d s) (i : ℕ) : OnTrack d s (nextChunk d i) := by
  unfold nextChunk
  split_ifs <;> exact h

theorem Reply.eq_returned {reply : Reply} (h : reply.isReturned = true) :
    ∃ value, reply = .returned value := by
  cases reply with
  | returned value => exact ⟨value, rfl⟩
  | threw => cases h

theorem Reply.eq_confirmed {reply : Reply} (h : reply.isConfirmed = true) :
    ∃ slot > 0, reply = .returned slot := by
  cases reply with
  | returned slot => exact ⟨slot, of_decide_eq_true h, rfl⟩
  | threw => cases h

theorem chunkTransaction_isSome (hd : Deployable d) {i : ℕ} (hi : i < d.totalChunks)
    (blockhash : ℕ) : ∃ tx, d.chunkTransaction i blockhash = some tx := by
  have hlt : offset i < 2 ^ 32 := by
    have hoff := lt_totalChunks_iff.mp hi
    have hlen := hd.length_le
    omega
  rw [Deployment.chunkTransaction, encodeWriteInstruction_eq hlt]
  exact ⟨_, rfl⟩

theorem Deployable.bufferSize_le (hd : Deployable d) : d.bufferSize ≤ 10485715 := by
  have hb := bufferSize_eq d.programData.length
  have heq : d.bufferSize = bufferSize d.programData.length := rfl
  have hlen := hd.length_le
  omega

theorem finalizeTransaction_isSome (hd : Deployable d) (blockhash : ℕ) :
    ∃ tx, d.finalizeTransaction blockhash = some tx := by
  have hlt : d.bufferSize < 2 ^ 64 := lt_of_le_of_lt hd.bufferSize_le (by decide)
  rw [Deployment.finalizeTransaction, encodeDeployWithMaxDataLenInstruction_eq hlt]
  exact ⟨_, rfl⟩

/-- A call that is no send leads on. -/
theorem OnTrack.answered {log : List (Sent System)} (hd : Deployable d) (hstage : Stage d log a)
    (h : OnTrack d s a) (hsend : a.sending = none) {reply : Reply}
    (hreply : answered d a reply = true) : OnTrack d s (next d a reply) := by
  cases a with
  | minimumBalance =>
    obtain ⟨value, rfl⟩ := Reply.eq_returned hreply
    exact h
  | programBlockhash =>
    obtain ⟨value, rfl⟩ := Reply.eq_returned hreply
    exact h
  | programRent blockhash =>
    obtain rfl : reply = .returned d.programRent := of_decide_eq_true hreply
    exact ⟨h, blockhash, rfl⟩
  | bufferBlockhash =>
    obtain ⟨value, rfl⟩ := Reply.eq_returned hreply
    exact h
  | bufferRent blockhash =>
    obtain rfl : reply = .returned d.bufferRent := of_decide_eq_true hreply
    exact ⟨h, blockhash, rfl⟩
  | initializeBlockhash =>
    obtain ⟨value, rfl⟩ := Reply.eq_returned hreply
    exact h
  | initializePoll =>
    obtain ⟨slot, hslot, rfl⟩ := Reply.eq_confirmed hreply
    simp only [next, if_pos hslot]
    exact onTrack_nextChunk h 0
  | chunkBlockhash i =>
    obtain ⟨blockhash, rfl⟩ := Reply.eq_returned hreply
    obtain ⟨tx, htx⟩ := chunkTransaction_isSome hd hstage.index_lt blockhash
    simp only [next, htx]
    exact h
  | chunkFee i tx =>
    obtain ⟨value, rfl⟩ := Reply.eq_returned hreply
    exact h
  | chunkPoll i tx =>
    obtain ⟨slot, hslot, rfl⟩ := Reply.eq_confirmed hreply
    simp only [next, if_pos hslot]
    exact onTrack_nextChunk h (i + 1)
  | finalizeBlockhash =>
    obtain ⟨blockhash, rfl⟩ := Reply.eq_returned hreply
    obtain ⟨tx, htx⟩ := finalizeTransaction_isSome hd blockhash
    simp only [next, htx]
    exact h
  | finished => exact h
  | failed => exact h
  | _ => cases hsend

/-- The deployment leaves a program that runs. -/
theorem live_of_deployed (hrt : rt.Lawful) (hserve : rt.Serves) {slot : UInt64}
    {tx : Transaction System} {blockhash : ℕ} (htx : d.finalizeTransaction blockhash = some tx)
    (hexec : execute rt slot tx.signers tx.instruction s = .ok s') (h : DeployedFrom d s s')
    (himage : (s d.buffer).data.drop bufferDataOffset = d.image) : Live d s' := by
  have hd := execute_finalizeTransaction hrt htx hexec
  obtain ⟨data, -, hpd⟩ := h.programdata
  obtain ⟨data', -, hp⟩ := h.program
  obtain ⟨n, hn⟩ := hd.programdata_code
  refine ⟨⟨hd.program_state, ⟨slot, hd.programdata_state⟩,
    ⟨d.bufferSize - bufferDataOffset - d.programData.length + n, ?_⟩⟩, ?_, ?_, ?_, ?_, ?_⟩
  · rw [hn, himage, Deployment.image, List.append_assoc, ← List.replicate_add]
  · rw [hp]
  · rw [hp]
  · rw [hp]
    exact hserve.minimumBalance_pos _
  · rw [hpd]
  · exact hd.programdata_funded

/-- A transaction that is sent is executed, and leads on. -/
theorem OnTrack.sent (hrt : rt.Lawful) (hserve : rt.Serves)
    (hmax : rt.maxPermittedDataLength = maxPermittedDataLength) (hd : Deployable d)
    {w : World System} (hw : Delivering d w) (h : OnTrack d w.accounts w.script.await)
    {purpose : Purpose} {tx : Transaction System}
    (hsend : w.script.await.sending = some (purpose, tx)) (slot : UInt64) :
    ∃ s', execute rt slot tx.signers tx.instruction w.accounts = .ok s' ∧
      ∀ value, OnTrack d s' (next d w.script.await (.returned value)) := by
  have hsize := hd.bufferSize_le
  have hlimit : programdataLen d.bufferSize ≤ rt.maxPermittedDataLength := by
    rw [hmax]
    exact (programdataLen_le_iff _).mpr hsize
  have hten : rt.maxPermittedDataLength = 10485760 := hmax
  have hspace : programAccountSpace = 44 := rfl
  have hwrite : ∀ {i tx}, (∃ blockhash, d.chunkTransaction i blockhash = some tx) →
      i < d.totalChunks → BufferOpen d w.accounts →
      ∃ s', execute rt slot tx.signers tx.instruction w.accounts = .ok s' ∧ BufferOpen d s' := by
    rintro i tx ⟨blockhash, htx⟩ hi hopen
    exact write_served hrt hserve hopen htx ((chunksFit_iff _).mpr hd.fits i hi)
  obtain ⟨⟨-, hstage⟩, hbuilt, -, -, -⟩ := id hw
  cases ha : w.script.await with
  | programSend tx' =>
    rw [ha] at h hsend
    cases hsend
    obtain ⟨hun, blockhash, rfl⟩ := h
    obtain ⟨s', hexec, hs'⟩ := programAccount_served hrt hserve hun (by omega) blockhash
    exact ⟨s', hexec, fun _ => hs'⟩
  | bufferSend tx' =>
    rw [ha] at h hsend
    cases hsend
    obtain ⟨hprogram, blockhash, rfl⟩ := h
    obtain ⟨s', hexec, hs'⟩ := bufferAccount_served hrt hserve hprogram (by omega) blockhash
    exact ⟨s', hexec, fun _ => hs'⟩
  | initializeSend tx' =>
    rw [ha] at h hsend hbuilt
    cases hsend
    obtain ⟨blockhash, rfl⟩ := hbuilt
    obtain ⟨s', hexec, hs'⟩ := initialize_served hrt hserve h blockhash
    exact ⟨s', hexec, fun _ => hs'⟩
  | chunkSend i tx' =>
    rw [ha] at h hsend hbuilt hstage
    cases hsend
    obtain ⟨s', hexec, hs'⟩ := hwrite hbuilt hstage.1.index_lt h
    exact ⟨s', hexec, fun _ => hs'⟩
  | chunkRetry i tx' retries =>
    rw [ha] at h hsend hbuilt hstage
    cases hsend
    obtain ⟨s', hexec, hs'⟩ := hwrite hbuilt hstage.1.index_lt h
    exact ⟨s', hexec, fun _ => onTrack_nextChunk hs' (i + 1)⟩
  | finalizeSend tx' =>
    have himage : BufferOpen d w.accounts →
        (w.accounts d.buffer).data.drop bufferDataOffset = d.image := by
      intro hopen
      rw [ha] at hstage
      exact hw.image (by rw [ha]; rfl) hstage.2 hopen.buffer_state
    rw [ha] at h hsend hbuilt
    cases hsend
    obtain ⟨blockhash, htx⟩ := hbuilt
    have hload : rt.createExecutor ((w.accounts d.buffer).data.drop bufferDataOffset) =
        .ok () := by
      rw [himage h]
      exact hd.loads
    obtain ⟨s', hexec, hs'⟩ := deploy_served hrt hserve h hsize hlimit hload htx
    exact ⟨s', hexec, fun _ => live_of_deployed hrt hserve htx hexec hs' (himage h)⟩
  | _ =>
    rw [ha] at hsend
    cases hsend

/-- A cooperative event keeps a deployment that can succeed on its track. -/
theorem onTrack_step (hrt : rt.Lawful) (hserve : rt.Serves)
    (hmax : rt.maxPermittedDataLength = maxPermittedDataLength) (hd : Deployable d)
    {w : World System} (hw : Delivering d w) (h : OnTrack d w.accounts w.script.await)
    {e : Event d} (he : Cooperative d w e) :
    OnTrack d (w.step d e).accounts (w.step d e).script.await := by
  cases e with
  | resume slot landed reply =>
    cases hs : w.script.await.sending with
    | none =>
      have hnone : w.executed rt slot landed = none := by
        unfold World.executed
        rw [hs]
      rw [World.step_resume_none hnone]
      exact h.answered hd hw.discipline.2 hs (he.1 hs)
    | some p =>
      obtain ⟨purpose, tx⟩ := p
      obtain ⟨rfl, hreply⟩ := he.2 (by rw [hs]; rfl)
      obtain ⟨s', hexec, hnext⟩ := h.sent hrt hserve hmax hd hw hs slot
      have hsome : w.executed rt slot true = some s' := by
        unfold World.executed
        rw [hs]
        simp only [if_true, hexec]
        rfl
      rw [hsome] at hreply
      obtain ⟨value, rfl⟩ := Reply.eq_returned hreply
      rw [World.step_resume_some hsome]
      exact hnext value
  | other slot ix => exact h.agree he
  | collect k => exact h.collect hserve k

theorem nextChunk_ne_finished (d : Deployment rt) (i : ℕ) : nextChunk d i ≠ .finished := by
  unfold nextChunk
  split_ifs <;> nofun

/-- Only the send of the deployment finishes a run. -/
theorem next_eq_finished {reply : Reply} (h : next d a reply = .finished) :
    a = .finished ∨ ∃ tx value, a = .finalizeSend tx ∧ reply = .returned value := by
  cases a with
  | finished => exact .inl rfl
  | finalizeSend tx =>
    cases reply with
    | returned value => exact .inr ⟨tx, value, rfl, rfl⟩
    | threw => cases h
  | initializePoll =>
    cases reply with
    | threw => cases h
    | returned slot =>
      simp only [next] at h
      split_ifs at h
      exact absurd h (nextChunk_ne_finished d 0)
  | chunkPoll i tx =>
    cases reply with
    | threw => cases h
    | returned slot =>
      simp only [next] at h
      split_ifs at h
      exact absurd h (nextChunk_ne_finished d (i + 1))
  | chunkRetry i tx retries =>
    cases reply with
    | returned value => exact absurd h (nextChunk_ne_finished d (i + 1))
    | threw =>
      simp only [next] at h
      split_ifs at h
  | chunkBlockhash i =>
    cases reply with
    | threw => cases h
    | returned blockhash =>
      simp only [next] at h
      cases htx : d.chunkTransaction i blockhash <;> rw [htx] at h <;> cases h
  | finalizeBlockhash =>
    cases reply with
    | threw => cases h
    | returned blockhash =>
      simp only [next] at h
      cases htx : d.finalizeTransaction blockhash <;> rw [htx] at h <;> cases h
  | _ => cases reply <;> cases h

/-- A run that finishes has deployed. -/
theorem finished_step (hrt : rt.Lawful)
    (hmax : rt.maxPermittedDataLength = maxPermittedDataLength) {w : World System}
    (hw : Delivering d w) (h : w.script.await = .finished → Deployable d) {e : Event d}
    (he : Undisturbed d w e) (hfinished : (w.step d e).script.await = .finished) :
    Deployable d := by
  cases e with
  | resume slot landed reply =>
    have hnext : next d w.script.await reply = .finished := by
      cases hx : w.executed rt slot landed with
      | none =>
        rw [World.step_resume_none hx] at hfinished
        exact hfinished
      | some s' =>
        rw [World.step_resume_some hx] at hfinished
        exact hfinished
    rcases next_eq_finished hnext with ha | ⟨tx, value, ha, rfl⟩
    · exact h ha
    · obtain ⟨s', hx⟩ := Option.isSome_iff_exists.mp (he (by rw [ha]; rfl) rfl)
      obtain ⟨purpose, tx', hs, hexec⟩ := World.executed_eq_some hx
      rw [ha] at hs
      cases hs
      exact deployable_of_executed hrt hmax hw ha hexec
  | other slot ix => exact h hfinished
  | collect k => exact h hfinished

theorem not_inVain {reply : Reply} (h : a.sending = none → answered d a reply = true) :
    ¬ InVain a reply := by
  have hslot : ∀ slot, (Reply.returned slot).isConfirmed = true → slot ≠ 0 :=
    fun slot hslot => (of_decide_eq_true hslot).ne'
  cases a with
  | initializePoll =>
    cases reply with
    | returned slot => exact hslot slot (h rfl)
    | threw => exact id
  | chunkPoll i tx =>
    cases reply with
    | returned slot => exact hslot slot (h rfl)
    | threw => exact id
  | _ => cases reply <;> exact id

/-- Every call that comes back cooperatively is one of those the script could still wait for. -/
theorem waitsLeft_worldStep {w : World System} (hw : Delivering d w) {e : Event d}
    (he : Cooperative d w e) : waitsLeft d (w.step d e).script.await ≤
      waitsLeft d w.script.await - if e.isResume then 1 else 0 := by
  cases e with
  | resume slot landed reply =>
    have hnext := waitsLeft_next hw.discipline.2 (not_inVain he.1)
    cases hx : w.executed rt slot landed with
    | none =>
      rw [World.step_resume_none hx]
      exact hnext
    | some s' =>
      rw [World.step_resume_some hx]
      exact hnext
  | other slot ix => exact le_rfl
  | collect k => exact le_rfl

/-- The payer can pay, and the addresses were never used. -/
structure Ready (d : Deployment rt) (s : Accounts) : Prop where
  payer_owner : (s d.payer).owner = rt.systemId
  payer_data : (s d.payer).data = []
  funds : d.programRent + d.bufferRent + d.programDataRent + rt.minimumBalance 0 ≤
    (s d.payer).lamports
  bounded : (s d.payer).lamports < 2 ^ 64
  program : s d.program = rt.unused
  buffer : s d.buffer = rt.unused
  programdata : s d.programDataAddress = rt.unused

theorem Ready.unstarted (h : Ready d s) (hserve : rt.Serves) : Unstarted d s := by
  have hpos := hserve.minimumBalance_pos 0
  have hfunds := h.funds
  have hne : ∀ k, s k = rt.unused → d.payer ≠ k := by
    rintro k hk rfl
    rw [hk, Runtime.unused] at hfunds
    dsimp only at hfunds
    omega
  refine ⟨⟨h.payer_owner, h.payer_data, hne _ h.program, hne _ h.buffer, hfunds, ?_,
    h.programdata⟩, h.program, h.buffer⟩
  rw [h.buffer, Runtime.unused]
  exact h.bounded

/-- What a run has come to. -/
structure Completed (d : Deployment rt) (w : World System) : Prop where
  ended : w.script.await.isOver = true
  finished_iff : w.script.await = .finished ↔ Deployable d
  live : w.script.await = .finished → Live d w.accounts

/-- On a cluster that serves and executes what is sent to it, with a payer who can pay and
addresses that were never used, while nobody else touches the accounts of the deployment, the
script comes to an end: seven of the calls it waits for, for each chunk, and twelve besides
suffice, `create` and the confirmations not counted. It succeeds exactly if the program is one
that can be deployed, and then the program on the chain runs what is in the file. -/
theorem deployment_completed (hrt : rt.Lawful) (hserve : rt.Serves)
    (hmax : rt.maxPermittedDataLength = maxPermittedDataLength) (hs : Ready d s)
    {es : List (Event d)}
    (hes : EveryStep (World.step d) (Cooperative d) (World.start s) es)
    (hlong : 7 * d.totalChunks + 12 ≤ es.countP Event.isResume) :
    Completed d (run (World.step d) (World.start s) es) := by
  have hdelivering : ∀ w e, Delivering d w → Cooperative d w e →
      Delivering d (World.step d w e) :=
    fun w e hw he => delivering_step hrt hw he.undisturbed
  have hrank := rank_run_le (fun w => waitsLeft d w.script.await) Event.isResume
    (fun w e hw he => ⟨hdelivering w e hw he, waitsLeft_worldStep hw he⟩)
    (delivering_start d s) hes
  have hlast := (everyState_of_step hdelivering (delivering_start d s) hes).last
  have hover : (run (World.step d) (World.start s) es).script.await.isOver = true := by
    apply isOver_of_waitsLeft (d := d) _ hlast.discipline.2
    have hstart : waitsLeft d (World.start s : World System).script.await =
      7 * d.totalChunks + 12 := rfl
    omega
  have hfinished : (run (World.step d) (World.start s) es).script.await = .finished →
      Deployable d := by
    have hstep : ∀ w e, (Delivering d w ∧ (w.script.await = .finished → Deployable d)) →
        Cooperative d w e → Delivering d (World.step d w e) ∧
          ((World.step d w e).script.await = .finished → Deployable d) :=
      fun w e hw he => ⟨hdelivering w e hw.1 he,
        finished_step hrt hmax hw.1 hw.2 he.undisturbed⟩
    exact (everyState_of_step hstep ⟨delivering_start d s, nofun⟩ hes).last.2
  have htrack : Deployable d → OnTrack d (run (World.step d) (World.start s) es).accounts
      (run (World.step d) (World.start s) es).script.await := by
    intro hd
    have hstep : ∀ w e, (Delivering d w ∧ OnTrack d w.accounts w.script.await) →
        Cooperative d w e → Delivering d (World.step d w e) ∧
          OnTrack d (World.step d w e).accounts (World.step d w e).script.await :=
      fun w e hw he => ⟨hdelivering w e hw.1 he,
        onTrack_step hrt hserve hmax hd hw.1 hw.2 he⟩
    exact (everyState_of_step hstep ⟨delivering_start d s, hs.unstarted hserve⟩ hes).last.2
  generalize run (World.step d) (World.start s) es = w at *
  refine ⟨hover, ⟨hfinished, ?_⟩, ?_⟩
  · intro hd
    have h := htrack hd
    cases ha : w.script.await with
    | finished => rfl
    | failed =>
      rw [ha] at h
      exact h.elim
    | _ =>
      rw [ha] at hover
      cases hover
  · intro ha
    have h := htrack (hfinished ha)
    rw [ha] at h
    exact h

/-- Every call comes back at once, and the emptied buffer is dropped in the end. -/
def smoothRun : List (Event sample) :=
  [.resume 1 false (.returned 925680), .resume 1 false (.returned 1),
    .resume 1 false (.returned 1197120), .resume 1 true (.returned 1),
    .resume 2 false (.returned 2), .resume 2 false (.returned 8017920),
    .resume 2 true (.returned 2), .resume 3 false (.returned 3), .resume 3 true (.returned 3),
    .resume 3 false (.returned 3), .resume 4 false (.returned 4), .resume 4 false (.returned 5000),
    .resume 4 true (.returned 4), .resume 4 false (.returned 4), .resume 5 false (.returned 5),
    .resume 5 true (.returned 5), .collect sample.buffer, .resume 6 false (.returned 0),
    .resume 6 false (.returned 0), .resume 6 false (.returned 0)]

theorem sample_ready : Ready sample sampleAccounts := by
  constructor <;> decide +kernel

theorem deployment_completed_sample :
    Completed sample (run (World.step sample) (World.start sampleAccounts) smoothRun) :=
  deployment_completed TestValidator.runtime_lawful TestValidator.runtime_serves rfl sample_ready
    (by decide +kernel) (by decide +kernel)

end SolanaSample.Deploy
