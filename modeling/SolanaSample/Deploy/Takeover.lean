import SolanaSample.Deploy.Outsiders

/-! Whether somebody else can take the buffer account or the program account over before the
deployment is complete: exactly when a takeover is accepted. -/
namespace SolanaSample.Deploy
open EventRun Rejection Loader Splice UpgradeableLoaderState

variable {System : Type} {rt : Runtime System} {d : Deployment rt}

/-! The runtime, and the script itself. -/

theorem guarded_collect {w : World System} (h : Guarded d w) (k : Pubkey) :
    Guarded d (w.step d (.collect k)) := by
  refine ⟨h.discipline, h.built, ?_, ?_⟩
  · rcases collect_cases rt w.accounts k d.buffer with he | ⟨-, he⟩
    · have hb := h.buffer
      rw [← he] at hb
      exact hb
    · exact ⟨.inl he, .inl he, fun hne => absurd he hne⟩
  · rcases collect_cases rt w.accounts k d.program with he | ⟨-, he⟩
    · refine ⟨?_, ?_⟩
      · have howner := h.program.owner
        rw [← he] at howner
        exact howner
      · have hstate := h.program.state
        rw [← he] at hstate
        rcases hstate with hs | hs | hs | ⟨hs, hover, hi⟩
        · exact .inl hs
        · exact .inr (.inl hs)
        · exact .inr (.inr (.inl hs))
        · -- The ProgramData account has lamports, so it is not the one that goes.
          refine .inr (.inr (.inr ⟨hs, hover, ?_⟩))
          rcases collect_cases rt w.accounts k d.programDataAddress with hpd | ⟨hz, -⟩
          · rw [← hpd] at hi
            exact hi
          · exact absurd hi.funded (by omega)
    · exact ⟨.inl he, .inl he⟩

/-- An account the script has just created. -/
theorem stateOf_created {k : Pubkey} {space : ℕ} {s s' : Accounts} (h : Created rt k space s s')
    (hspace : 4 ≤ space) : stateOf (s' k).data = some .uninitialized := by
  rw [h.data]
  exact stateOf_zeros hspace

/-- As long as the script is sending, the program account is no program. -/
theorem ProgramGuarded.notYet {script : Script System} {s : Accounts}
    (h : ProgramGuarded d script s) (hs : script.await.isOver = false) :
    (s d.program).data = [] ∨ stateOf (s d.program).data = some .uninitialized ∨
      ∃ a, stateOf (s d.program).data = some (.buffer a) := by
  rcases h.state with h₁ | h₁ | h₁ | ⟨-, hover, -⟩
  · exact .inl h₁
  · exact .inr (.inl h₁)
  · exact .inr (.inr h₁)
  · rw [hs] at hover
    cases hover

/-- The script goes on, and the program account is as it was. -/
theorem ProgramGuarded.frame {script script' : Script System} {s s' : Accounts}
    (h : ProgramGuarded d script s) (hs : script.await.isOver = false)
    (hdata : (s' d.program).data = (s d.program).data)
    (howner : (s' d.program).owner = (s d.program).owner) : ProgramGuarded d script' s' := by
  refine ⟨by rw [hdata, howner]; exact h.owner, ?_⟩
  rw [hdata]
  rcases h.notYet hs with h₁ | h₁ | h₁
  · exact .inl h₁
  · exact .inr (.inl h₁)
  · exact .inr (.inr (.inl h₁))

/-- An attempt at a chunk, the first one or a retry. -/
theorem guarded_chunk {log : List (Sent System)} {script script' : Script System}
    {s s' : Accounts} {slot : UInt64} {x : Sent System} {i : ℕ}
    (hbuffer : BufferGuarded d log (s d.buffer)) (hprogram : ProgramGuarded d script s)
    (hover : script.await.isOver = false) (hp : x.purpose = .write i) (hexec : x.executed = true)
    (hbuilt : ∃ blockhash, d.chunkTransaction i blockhash = some x.transaction)
    (hx : execute rt slot x.transaction.signers x.transaction.instruction s = .ok s') :
    BufferGuarded d (log ++ [x]) (s' d.buffer) ∧ ProgramGuarded d script' s' := by
  obtain ⟨b, htx⟩ := hbuilt
  obtain ⟨hold, hfit, rfl⟩ := execute_chunkTransaction htx hx
  refine ⟨⟨.inr ?_, .inr (.inr ?_), ?_⟩,
    hprogram.frame hover (by simp [d.program_ne_buffer]) (by simp)⟩
  · rw [setData_owner]
    exact owner_of_stateOf hbuffer.owner hold
  · rw [setData_data, if_pos rfl]
    exact stateOf_splice hold (Nat.le_add_right _ _) hfit
  · intro _
    rw [setData_data, if_pos rfl, splice_drop hfit,
      hbuffer.contents (ne_nil_of_stateOf hold), bufferContents_write hp hexec]

theorem guarded_sent (hrt : rt.Lawful) {w : World System} (h : Guarded d w) {slot : UInt64}
    (reply : Reply) {s' : Accounts} {purpose : Purpose} {tx : Transaction System}
    (hsend : w.script.await.sending = some (purpose, tx))
    (hx : execute rt slot tx.signers tx.instruction w.accounts = .ok s') :
    BufferGuarded d (w.script.sent ++ [⟨purpose, tx, true, reply.isReturned⟩]) (s' d.buffer) ∧
      ProgramGuarded d (w.script.step d ⟨true, reply⟩) s' := by
  obtain ⟨⟨-, hstage⟩, hbuilt, hbuffer, hprogram⟩ := h
  obtain ⟨accounts, await, log⟩ := w
  have hne := d.program_ne_buffer
  cases await with
  | programSend tx' =>
    cases hsend
    obtain ⟨b, l, htx⟩ := hbuilt
    have hc := execute_createAccountTransaction hrt htx hx
    obtain ⟨hd, ho⟩ := hc.frame d.buffer hne.symm
    exact ⟨hbuffer.frame (bufferContents_concat rfl) hd ho,
      ⟨.inr hc.owner, .inr (.inl (stateOf_created hc (by decide)))⟩⟩
  | bufferSend tx' =>
    cases hsend
    obtain ⟨b, l, htx⟩ := hbuilt
    have hc := execute_createBufferAccountTransaction hrt htx hx
    obtain ⟨hd, ho⟩ := hc.frame d.program hne
    have hsize := d.bufferSize_ge
    refine ⟨⟨.inr hc.owner, .inr (.inl (stateOf_created hc (by omega))), ?_⟩,
      hprogram.frame rfl hd ho⟩
    intro _
    rw [bufferContents_concat rfl, bufferContents_beforeChunks hstage, hc.data,
      List.drop_replicate]
  | initializeSend tx' =>
    cases hsend
    obtain ⟨b, htx⟩ := hbuilt
    obtain ⟨data, hold, hset, rfl⟩ := execute_createBufferTransaction htx hx
    obtain ⟨hnew, -, htail⟩ := setStateOf_eq_some hset
    refine ⟨⟨.inr ?_, .inr (.inr ?_), ?_⟩, hprogram.frame rfl (by simp [hne]) (by simp)⟩
    · rw [setData_owner]
      exact owner_of_stateOf hbuffer.owner hold
    · simpa using hnew
    · intro _
      rw [bufferContents_concat rfl, ← hbuffer.contents (ne_nil_of_stateOf hold), setData_data,
        if_pos rfl]
      exact htail bufferDataOffset le_rfl
  | chunkSend i tx' =>
    cases hsend
    exact guarded_chunk hbuffer hprogram rfl rfl rfl hbuilt hx
  | chunkRetry i tx' retries =>
    cases hsend
    exact guarded_chunk hbuffer hprogram rfl rfl rfl hbuilt hx
  | finalizeSend tx' =>
    cases hsend
    obtain ⟨b, htx⟩ := hbuilt
    have hd := execute_finalizeTransaction hrt htx hx
    have hpb : d.buffer ≠ d.programDataAddress :=
      (hrt.programAddress_ne d.buffer_secret d.program).symm
    have hpp : d.program ≠ d.programDataAddress :=
      (hrt.programAddress_ne d.program_secret d.program).symm
    have hlog : bufferContents d (log ++ [⟨.deploy, tx, true, reply.isReturned⟩]) =
        bufferContents d log := bufferContents_concat rfl
    refine ⟨hbuffer.frame hlog (hd.data_frame _ hpb hne.symm) (hd.owner_frame _ hpb), ?_, ?_⟩
    · right
      rw [hd.owner_frame _ hpp]
      exact owner_of_stateOf hprogram.owner hd.program_fresh
    · refine .inr (.inr (.inr ⟨hd.program_state, by cases reply <;> rfl, ?_⟩))
      refine ⟨hd.programdata_owner, ⟨slot, hd.programdata_state⟩, ?_, hd.programdata_funded⟩
      obtain ⟨m, hm⟩ := hd.programdata_code
      refine ⟨m, ?_⟩
      rw [hm, hbuffer.contents (ne_nil_of_stateOf hd.buffer_state)]
      exact congrArg (· ++ List.replicate m 0) hlog.symm
  | _ => cases hsend

theorem guarded_resume (hrt : rt.Lawful) {w : World System} (h : Guarded d w) (slot : UInt64)
    (landed : Bool) (reply : Reply) : Guarded d (w.step d (.resume slot landed reply)) := by
  cases hx : w.executed rt slot landed with
  | none =>
    have hlog := bufferContents_step_of_not_executed d w.script reply
    rw [World.step_resume_none hx]
    refine ⟨discipline_step h.discipline _, wellBuilt_next d h.built _,
      h.buffer.frame hlog rfl rfl, ?_⟩
    cases hover : w.script.await.isOver with
    | true =>
      rw [Script.step_of_isOver d hover]
      exact h.program
    | false => exact h.program.frame hover rfl rfl
  | some s' =>
    obtain ⟨purpose, tx, hsend, hs'⟩ := World.executed_eq_some hx
    obtain ⟨hbuffer, hprogram⟩ := guarded_sent hrt h reply hsend hs'
    rw [World.step_resume_some hx]
    refine ⟨discipline_step h.discipline _, wellBuilt_next d h.built _, ?_, hprogram⟩
    rw [← Script.sent_step hsend ⟨true, reply⟩] at hbuffer
    exact hbuffer

theorem guarded_step (hrt : rt.Lawful) {w : World System} {e : Event d} (h : Guarded d w)
    (hok : ¬ Takeover d w e) : Guarded d (w.step d e) := by
  cases e with
  | resume slot landed reply => exact guarded_resume hrt h slot landed reply
  | other slot ix => exact guarded_other hrt h hok
  | collect k => exact guarded_collect h k

/-- An accepted takeover is one: afterwards an account belongs to somebody else. -/
theorem not_safe_of_takeover (hrt : rt.Lawful) {w : World System} {e : Event d}
    (h : Takeover d w e) : ¬ Safe d (w.step d e) := by
  cases e with
  | resume slot landed reply => exact absurd h id
  | collect k => exact absurd h id
  | other slot ix =>
    obtain ⟨⟨s', hx⟩, hj⟩ := h
    rw [World.step_other_ok hx]
    intro hsafe
    cases hix : ix.instruction with
    | createAccount args =>
      rw [hix] at hj
      exact hj
    | system sys =>
      rw [hix] at hj
      exact hj
    | loader keys data =>
      rw [hix] at hx hj
      obtain ⟨ix', hdec, hp⟩ := execute_loader_eq_ok hx
      rcases hj with ⟨hinit, hk₀, hk₁⟩ | ⟨maxDataLen, hdeploy, hk₂⟩
      · rw [hinit] at hdec
        obtain rfl := Except.ok.inj hdec
        obtain ⟨buffer, authority, data', hb, ha, -, hd, rfl⟩ := initializeBuffer_effect hp
        rw [← keyedAccounts_getElem? ix.signers, hb] at hk₀
        rw [← keyedAccounts_getElem? ix.signers, ha] at hk₁
        obtain hkey := Option.some.inj hk₀
        have hauth := hsafe.buffer (some authority.key) (by
          rw [authorityAt, setData_data, if_pos hkey.symm, (setStateOf_eq_some hd).1])
        exact hk₁ hauth
      · rw [hdeploy] at hdec
        obtain rfl := Except.ok.inj hdec
        obtain ⟨payer, programdata, program, buffer, authority, -, hprog, -, hauthority, hsig, -,
          hd⟩ := deploy_effect hrt hp
        have hne : some authority.key ≠ some d.payer := by
          intro he
          have hmem := signerKeys_keyedAccounts (mem_signerKeys hauthority hsig)
          rw [Option.some.inj he] at hmem
          exact ix.payer_notMem hmem
        rw [← keyedAccounts_getElem? ix.signers, hprog] at hk₂
        rcases hk₂ with hk₂ | hk₂
        · obtain hkey := Option.some.inj hk₂
          apply hne
          apply hsafe.program
          rw [upgradeAuthorityAt, ← hkey, hd.program_state]
          simp [hd.programdata_state, asProgramData]
        · obtain hkey := Option.some.inj hk₂
          apply hne
          apply hsafe.buffer
          rw [authorityAt, ← hkey, hd.program_state]
          simp [hd.programdata_state, asProgramData]

theorem guarded_start {s : Accounts} (hbuffer : (s d.buffer).data = [])
    (hprogram : (s d.program).data = []) : Guarded d (World.start s) := by
  refine ⟨discipline_after d [], trivial, ⟨.inl hbuffer, .inl hbuffer, ?_⟩, .inl hprogram,
    .inl hprogram⟩
  intro hne
  exact absurd hbuffer hne

/-- From two unused accounts on, whatever the other parties do and however the script's calls
end: the accounts are the payer's in every state of the run exactly if no takeover was accepted
in it. -/
theorem safe_iff_no_takeover (hrt : rt.Lawful) (d : Deployment rt) {s : Accounts}
    (hbuffer : (s d.buffer).data = []) (hprogram : (s d.program).data = [])
    (es : List (Event d)) :
    EveryState (World.step d) (Safe d) (World.start s) es ↔
      EveryStep (World.step d) (fun w e => ¬ Takeover d w e) (World.start s) es := by
  have hkeep : ∀ w e, Guarded d w → ¬ Takeover d w e → Guarded d (w.step d e) :=
    fun w e hw hok => guarded_step hrt hw hok
  have hbreak : ∀ w e, Guarded d w → ¬ ¬ Takeover d w e → ¬ Safe d (w.step d e) :=
    fun w e _ hn => not_safe_of_takeover hrt (not_not.mp hn)
  exact everyState_iff_everyStep (fun w hw => hw.safe) hkeep hbreak
    (guarded_start hbuffer hprogram)

/-! The run that goes wrong. -/

def stranger : Outsider sample where
  signers := [Pubkey.filled 13]
  instruction := .loader [⟨sample.buffer, false, true⟩, ⟨Pubkey.filled 13, false, false⟩]
    [0, 0, 0, 0]
  signers_secret := by
    intro k hk
    obtain rfl := List.mem_singleton.mp hk
    simp [TestValidator.runtime, Pubkey.filled]
  payer_notMem := by decide
  program_notMem := by decide
  buffer_notMem := by decide

def takeoverRun : List (Event sample) :=
  [.resume 1 false (.returned 925680), .resume 1 false (.returned 1),
    .resume 1 false (.returned 1197120), .resume 1 true (.returned 1),
    .resume 2 false (.returned 2), .resume 2 false (.returned 8017920),
    .resume 2 true (.returned 2), .other 3 stranger]

theorem safe_iff_no_takeover_sample :
    EveryState (World.step sample) (Safe sample) (World.start sampleAccounts) takeoverRun ↔
      EveryStep (World.step sample) (fun w e => ¬ Takeover sample w e)
        (World.start sampleAccounts) takeoverRun :=
  safe_iff_no_takeover TestValidator.runtime_lawful sample rfl rfl takeoverRun

/-- Once the buffer account is created a stranger initialises it with a key of his own. -/
theorem takeoverRun_not_safe :
    ¬ EveryState (World.step sample) (Safe sample) (World.start sampleAccounts) takeoverRun := by
  intro h
  have htaken : authorityAt
      (run (World.step sample) (World.start sampleAccounts) takeoverRun).accounts sample.buffer =
        some (some (Pubkey.filled 13)) := by
    decide +kernel
  have hpayer := h.last.buffer _ htaken
  revert hpayer
  decide

end SolanaSample.Deploy
