import SolanaSample.Deploy.World

/-! What a run that deploys has deployed, whatever calls failed and were repeated before. -/
namespace SolanaSample.Deploy
open EventRun AppendLog Rejection Loader Splice UpgradeableLoaderState

variable {System : Type} {rt : Runtime System}

/-- A send that returns has executed its transaction, one that throws may have, and nobody else
touches the buffer account. The other two accounts need not even be left alone. -/
def Undisturbed (d : Deployment rt) (w : World System) : Event d → Prop
  | .resume slot landed reply =>
    w.script.await.sending.isSome = true → reply.isReturned = true →
      (w.executed rt slot landed).isSome = true
  | .other slot ix => (w.step d (.other slot ix)).accounts d.buffer = w.accounts d.buffer
  | .collect _ => True

instance (d : Deployment rt) (w : World System) :
    (e : Event d) → Decidable (Undisturbed d w e)
  | .resume slot landed reply => inferInstanceAs (Decidable
      (w.script.await.sending.isSome = true → reply.isReturned = true →
        (w.executed rt slot landed).isSome = true))
  | .other slot ix => inferInstanceAs (Decidable
      ((w.step d (.other slot ix)).accounts d.buffer = w.accounts d.buffer))
  | .collect _ => inferInstanceAs (Decidable True)

/-- The send of the buffer account has returned. -/
def Await.bufferCreated : Await System → Bool
  | .minimumBalance => false
  | .programBlockhash => false
  | .programRent _ => false
  | .programSend _ => false
  | .bufferBlockhash => false
  | .bufferRent _ => false
  | .bufferSend _ => false
  | .finished => false
  | .failed => false
  | _ => true

/-- The buffer account holds what the executed writes have put there, unless the runtime has
dropped it. -/
def BufferHolds (d : Deployment rt) (log : List (Sent System)) (a : Account) : Prop :=
  a.data = [] ∨
    (a.data.length = d.bufferSize ∧ a.data.drop bufferDataOffset = bufferContents d log)

structure Delivering (d : Deployment rt) (w : World System) : Prop where
  discipline : Discipline d w.script
  built : WellBuilt d w.script.await
  executed : ∀ x ∈ w.script.sent, x.returned = true → x.executed = true
  fits : ∀ p ∈ writtenPieces d w.script.sent,
    bufferDataOffset + p.off + p.bytes.length ≤ d.bufferSize
  buffer : w.script.await.bufferCreated = true →
    BufferHolds d w.script.sent (w.accounts d.buffer)

variable {d : Deployment rt}

theorem mem_writtenPieces {log : List (Sent System)} {p : Piece UInt8} :
    p ∈ writtenPieces d log ↔ ∃ i, (∃ x ∈ log, x.purpose = .write i ∧ x.executed = true) ∧
      p = piece d.programData i := by
  unfold writtenPieces
  rw [List.mem_filterMap]
  constructor
  · intro h
    obtain ⟨x, hx, hp⟩ := h
    cases hw : x.purpose with
    | write i =>
      rw [hw] at hp
      simp only at hp
      split_ifs at hp with he
      exact ⟨i, ⟨x, hx, hw, he⟩, (Option.some.inj hp).symm⟩
    | _ =>
      rw [hw] at hp
      cases hp
  · intro h
    obtain ⟨i, ⟨x, hx, hw, he⟩, rfl⟩ := h
    refine ⟨x, hx, ?_⟩
    simp [hw, he]

/-- Once every chunk has a send that returned, the buffer holds the program, and after it the
zeros it was created with. -/
theorem bufferContents_complete {w : World System} (h : Delivering d w)
    (hdone : ∀ i < d.totalChunks, Done w.script.sent i) :
    ∃ m, bufferContents d w.script.sent = d.programData ++ List.replicate m 0 := by
  have hwritten : ∀ i < d.totalChunks, piece d.programData i ∈ writtenPieces d w.script.sent := by
    intro i hi
    obtain ⟨x, hx, hp, hr⟩ := hdone i hi
    exact mem_writtenPieces.mpr ⟨i, ⟨x, hx, hp, h.executed x hx hr⟩, rfl⟩
  have hslice : ∀ p ∈ writtenPieces d w.script.sent, p.IsSliceOf d.programData := by
    intro p hp
    obtain ⟨i, ⟨x, hx, hw, -⟩, rfl⟩ := mem_writtenPieces.mp hp
    apply piece_isSliceOf
    obtain ⟨pre, post, he⟩ := List.append_of_mem hx
    have hl := h.discipline.1 pre x post he
    unfold Lawful at hl
    rw [hw] at hl
    exact hl.1
  have hfit : d.programData.length ≤ d.bufferSize - bufferDataOffset := by
    -- The last chunk was written, and it ends where the program ends.
    by_cases hzero : d.totalChunks = 0
    · have htotal := totalChunks_eq d.programData.length
      have heq : d.totalChunks = totalChunks d.programData.length := rfl
      omega
    · have hlast : d.totalChunks - 1 < d.totalChunks := by omega
      have hf := h.fits _ (hwritten _ hlast)
      have hend := (offset_add_chunkLength_le d.programData.length _ hlast).2 (by
        have heq : d.totalChunks = totalChunks d.programData.length := rfl
        omega)
      rw [piece, chunk_length] at hf
      simp only at hf
      omega
  refine ⟨d.bufferSize - bufferDataOffset - d.programData.length, ?_⟩
  unfold bufferContents
  rw [spliceAll_eq_image hslice (by rw [List.length_replicate]; exact hfit), List.drop_replicate]
  intro k hk
  obtain ⟨i, hi, hcov⟩ := exists_piece_covers hk
  exact ⟨_, hwritten i hi, hcov⟩

/-- The buffer account is there before the next call, or it has just been created. -/
theorem bufferCreated_next {a : Await System} {reply : Reply}
    (h : (next d a reply).bufferCreated = true) : a.bufferCreated = true ∨
      ∃ tx, a.sending = some (.createBufferAccount, tx) ∧ reply.isReturned = true := by
  cases a with
  | minimumBalance => cases reply <;> cases h
  | programBlockhash => cases reply <;> cases h
  | programRent b => cases reply <;> cases h
  | programSend tx => cases reply <;> cases h
  | bufferBlockhash => cases reply <;> cases h
  | bufferRent b => cases reply <;> cases h
  | bufferSend tx =>
    cases reply with
    | returned v => exact .inr ⟨tx, rfl, rfl⟩
    | threw => cases h
  | finished => cases h
  | failed => cases reply <;> cases h
  | _ => exact .inl rfl

theorem BufferHolds.frame {log log' : List (Sent System)} {a a' : Account}
    (h : BufferHolds d log a) (hlog : bufferContents d log' = bufferContents d log)
    (hdata : a'.data = a.data) : BufferHolds d log' a' := by
  unfold BufferHolds
  rw [hdata, hlog]
  exact h

/-- An account with a state is not the dropped one. -/
theorem BufferHolds.of_stateOf {log : List (Sent System)} {a : Account}
    {st : UpgradeableLoaderState} (h : BufferHolds d log a) (hst : stateOf a.data = some st) :
    a.data.length = d.bufferSize ∧ a.data.drop bufferDataOffset = bufferContents d log := by
  rcases h with he | hl
  · exact absurd he (ne_nil_of_stateOf hst)
  · exact hl

/-- An attempt at a chunk, the first one or a retry. -/
theorem delivering_chunk {log : List (Sent System)} {s s' : Accounts} {slot : UInt64}
    {x : Sent System} {i : ℕ} (hholds : BufferHolds d log (s d.buffer))
    (hp : x.purpose = .write i) (hexec : x.executed = true)
    (hbuilt : ∃ blockhash, d.chunkTransaction i blockhash = some x.transaction)
    (hx : execute rt slot x.transaction.signers x.transaction.instruction s = .ok s') :
    (∀ p ∈ writtenPieces d [x], bufferDataOffset + p.off + p.bytes.length ≤ d.bufferSize) ∧
      BufferHolds d (log ++ [x]) (s' d.buffer) := by
  obtain ⟨b, htx⟩ := hbuilt
  obtain ⟨hold, hfit, rfl⟩ := execute_chunkTransaction htx hx
  obtain ⟨hlen, hcontents⟩ := hholds.of_stateOf hold
  constructor
  · intro p hmem
    obtain ⟨j, ⟨y, hy, hw, -⟩, rfl⟩ := mem_writtenPieces.mp hmem
    obtain rfl := List.mem_singleton.mp hy
    obtain rfl := Purpose.write.inj (hp.symm.trans hw)
    rw [← hlen]
    exact hfit
  · right
    rw [setData_data, if_pos rfl, splice_length hfit, splice_drop hfit, hcontents,
      bufferContents_write hp hexec]
    exact ⟨hlen, rfl⟩

/-- What an executed send does to the buffer: the pieces written so far fit, and the account
holds them. -/
theorem delivering_sent (hrt : rt.Lawful) {w : World System} (h : Delivering d w) {slot : UInt64}
    (reply : Reply) {s' : Accounts} {purpose : Purpose} {tx : Transaction System}
    (hsend : w.script.await.sending = some (purpose, tx))
    (hx : execute rt slot tx.signers tx.instruction w.accounts = .ok s') :
    (∀ p ∈ writtenPieces d [⟨purpose, tx, true, reply.isReturned⟩],
      bufferDataOffset + p.off + p.bytes.length ≤ d.bufferSize) ∧
    ((next d w.script.await reply).bufferCreated = true →
      BufferHolds d (w.script.sent ++ [⟨purpose, tx, true, reply.isReturned⟩])
        (s' d.buffer)) := by
  obtain ⟨⟨-, hstage⟩, hbuilt, -, -, hbuffer⟩ := h
  obtain ⟨accounts, await, log⟩ := w
  cases await with
  | programSend tx' =>
    cases hsend
    refine ⟨(fun p hp => by cases hp), ?_⟩
    intro hb
    cases reply <;> cases hb
  | bufferSend tx' =>
    cases hsend
    obtain ⟨b, l, htx⟩ := hbuilt
    have hc := execute_createBufferAccountTransaction hrt htx hx
    refine ⟨(fun p hp => by cases hp), ?_⟩
    intro _
    right
    rw [hc.data, bufferContents_concat rfl, bufferContents_beforeChunks hstage,
      List.length_replicate, List.drop_replicate]
    exact ⟨rfl, rfl⟩
  | initializeSend tx' =>
    cases hsend
    obtain ⟨b, htx⟩ := hbuilt
    obtain ⟨data, hold, hset, rfl⟩ := execute_createBufferTransaction htx hx
    obtain ⟨hlen, hcontents⟩ := (hbuffer rfl).of_stateOf hold
    obtain ⟨-, hlen', htail⟩ := setStateOf_eq_some hset
    refine ⟨(fun p hp => by cases hp), ?_⟩
    intro _
    right
    rw [setData_data, if_pos rfl, hlen', htail bufferDataOffset le_rfl, hcontents,
      bufferContents_concat rfl]
    exact ⟨hlen, rfl⟩
  | chunkSend i tx' =>
    cases hsend
    obtain ⟨hfits, hholds⟩ := delivering_chunk (x := ⟨.write i, tx, true, reply.isReturned⟩)
      (hbuffer rfl) rfl rfl hbuilt hx
    exact ⟨hfits, fun _ => hholds⟩
  | chunkRetry i tx' retries =>
    cases hsend
    obtain ⟨hfits, hholds⟩ := delivering_chunk (x := ⟨.write i, tx, true, reply.isReturned⟩)
      (hbuffer rfl) rfl rfl hbuilt hx
    exact ⟨hfits, fun _ => hholds⟩
  | finalizeSend tx' =>
    cases hsend
    refine ⟨(fun p hp => by cases hp), ?_⟩
    intro hb
    cases reply <;> cases hb
  | _ => cases hsend

theorem delivering_resume (hrt : rt.Lawful) {w : World System} (h : Delivering d w)
    {slot : UInt64} {landed : Bool} {reply : Reply}
    (hok : Undisturbed d w (.resume slot landed reply)) :
    Delivering d (w.step d (.resume slot landed reply)) := by
  cases hx : w.executed rt slot landed with
  | none =>
    have hthrew : w.script.await.sending.isSome = true → reply.isReturned ≠ true := by
      intro hs hr
      have hsome := hok hs hr
      rw [hx] at hsome
      cases hsome
    rw [World.step_resume_none hx]
    refine ⟨discipline_step h.discipline _, wellBuilt_next d h.built _, ?_, ?_, ?_⟩
    · cases hs : w.script.await.sending with
      | none =>
        have hsent : (w.script.step d ⟨false, reply⟩).sent = w.script.sent := by
          unfold Script.step
          rw [hs]
        rw [hsent]
        exact h.executed
      | some p =>
        obtain ⟨purpose, tx⟩ := p
        rw [Script.sent_step hs]
        refine forall_mem_concat.mpr ⟨h.executed, ?_⟩
        intro hr
        exact absurd hr (hthrew (by rw [hs]; rfl))
    · rw [writtenPieces_step_of_not_executed]
      exact h.fits
    · intro hb
      apply BufferHolds.frame _ (bufferContents_step_of_not_executed d w.script reply) rfl
      rcases bufferCreated_next hb with hb | ⟨tx, hs, hr⟩
      · exact h.buffer hb
      · exact absurd hr (hthrew (by rw [hs]; rfl))
  | some s' =>
    obtain ⟨purpose, tx, hsend, hs'⟩ := World.executed_eq_some hx
    obtain ⟨hfits, hholds⟩ := delivering_sent hrt h reply hsend hs'
    rw [World.step_resume_some hx]
    refine ⟨discipline_step h.discipline _, wellBuilt_next d h.built _, ?_, ?_, ?_⟩
    · rw [Script.sent_step hsend]
      exact forall_mem_concat.mpr ⟨h.executed, fun _ => rfl⟩
    · rw [Script.sent_step hsend, writtenPieces_concat]
      intro p hp
      rcases List.mem_append.mp hp with hp | hp
      · exact h.fits p hp
      · exact hfits p hp
    · intro hb
      rw [Script.sent_step hsend]
      exact hholds hb

theorem delivering_step (hrt : rt.Lawful) {w : World System} {e : Event d} (h : Delivering d w)
    (hok : Undisturbed d w e) : Delivering d (w.step d e) := by
  cases e with
  | resume slot landed reply => exact delivering_resume hrt h hok
  | other slot ix =>
    refine ⟨h.discipline, h.built, h.executed, h.fits, ?_⟩
    intro hb
    exact (h.buffer hb).frame rfl (congrArg Account.data hok)
  | collect k =>
    refine ⟨h.discipline, h.built, h.executed, h.fits, ?_⟩
    intro hb
    rcases collect_cases rt w.accounts k d.buffer with he | ⟨-, he⟩
    · exact (h.buffer hb).frame rfl (congrArg Account.data he)
    · exact .inl he

theorem delivering_start (d : Deployment rt) (s : Accounts) : Delivering d (World.start s) := by
  refine ⟨discipline_after d [], trivial, ?_, ?_, ?_⟩
  · intro x hx
    cases hx
  · intro p hp
    cases hp
  · intro hb
    cases hb

/-- The program account points to a ProgramData account of the payer that holds the bytes and
behind them only zeros. -/
structure Holds (d : Deployment rt) (s : Accounts) (bytes : List UInt8) : Prop where
  program : stateOf (s d.program).data = some (.program d.programDataAddress)
  authority : ∃ slot, stateOf (s d.programDataAddress).data =
    some (.programData slot (some d.payer))
  code : ∃ m, (s d.programDataAddress).data.drop programdataDataOffset =
    bytes ++ List.replicate m 0

/-- From any accounts on, in every run in which a send that returns has executed its transaction
and nobody else touches the buffer account: if the deployment is executed, whether or not its
send returns, the program that is deployed is the one in the file. -/
theorem deployed_is_programData (hrt : rt.Lawful) (d : Deployment rt) (s : Accounts)
    (es : List (Event d))
    (hes : EveryStep (World.step d) (Undisturbed d) (World.start s) es)
    (slot : UInt64) (landed : Bool) (reply : Reply)
    (hsend : (run (World.step d) (World.start s) es).script.await.sending.map Prod.fst =
      some .deploy)
    (hx : ((run (World.step d) (World.start s) es).executed rt slot landed).isSome = true) :
    Holds d (run (World.step d) (World.start s) (es ++ [.resume slot landed reply])).accounts
      d.programData := by
  have h : Delivering d (run (World.step d) (World.start s) es) :=
    (everyState_of_step (fun w e hw hok => delivering_step hrt hw hok) (delivering_start d s)
      hes).last
  rw [run_append, run_cons, run_nil]
  generalize run (World.step d) (World.start s) es = w at *
  obtain ⟨s', hs'⟩ := Option.isSome_iff_exists.mp hx
  rw [World.step_resume_some hs']
  obtain ⟨purpose, tx, hs, hexec⟩ := World.executed_eq_some hs'
  obtain ⟨⟨-, hstage⟩, hbuilt, -, -, hbuffer⟩ := id h
  cases ha : w.script.await with
  | finalizeSend tx' =>
    rw [ha] at hs hbuilt hstage hbuffer
    cases hs
    obtain ⟨b, htx⟩ := hbuilt
    have hd := execute_finalizeTransaction hrt htx hexec
    obtain ⟨-, hcontents⟩ := (hbuffer rfl).of_stateOf hd.buffer_state
    obtain ⟨m, hm⟩ := bufferContents_complete h hstage.2
    obtain ⟨n, hn⟩ := hd.programdata_code
    refine ⟨hd.program_state, ⟨slot, hd.programdata_state⟩, ⟨m + n, ?_⟩⟩
    rw [hn, hcontents, hm, List.append_assoc, ← List.replicate_add]
  | _ =>
    rw [ha] at hsend
    cases hsend

/-- A program of two chunks. -/
def longSample : Deployment TestValidator.runtime :=
  { sample with programData := [0x7f, 0x45, 0x4c, 0x46] ++ List.replicate 700 0x90 }

/-- The first attempt at the first chunk is executed and throws, the second chunk is looked for
twice, and the deployment throws. -/
def repeatedChunkRun : List (Event longSample) :=
  [.resume 1 false (.returned 5790720), .resume 1 false (.returned 1),
    .resume 1 false (.returned 1197120), .resume 1 true (.returned 1),
    .resume 2 false (.returned 2), .resume 2 false (.returned 8017920),
    .resume 2 true (.returned 2), .resume 3 false (.returned 3), .resume 3 true (.returned 3),
    .resume 3 false (.returned 3), .resume 4 false (.returned 4), .resume 4 false .threw,
    .resume 4 true .threw, .resume 5 true (.returned 5), .resume 6 false (.returned 6),
    .resume 6 false (.returned 5000), .resume 6 true (.returned 6), .resume 6 false (.returned 0),
    .resume 7 false (.returned 7), .resume 8 false (.returned 8)]

theorem deployed_is_programData_sample :
    Holds longSample (run (World.step longSample) (World.start sampleAccounts)
      (repeatedChunkRun ++ [.resume 9 true .threw])).accounts
      ([0x7f, 0x45, 0x4c, 0x46] ++ List.replicate 700 0x90) :=
  deployed_is_programData TestValidator.runtime_lawful longSample sampleAccounts repeatedChunkRun
    (by decide +kernel) 9 true .threw (by decide +kernel) (by decide +kernel)

end SolanaSample.Deploy
