import SolanaSample.Deploy.Script
import SolanaSample.Library.Log

/-! The order and the number of the sends of `deployProgram`, for every way in which its calls
return or throw. -/
namespace SolanaSample.Deploy
open EventRun AppendLog

variable {System : Type} {rt : Runtime System}

/-- How often chunk `i` was passed to `sendAndConfirmTransaction`. -/
def attempts (log : List (Sent System)) (i : ℕ) : ℕ := log.countP (·.purpose = .write i)

/-- Some send of chunk `i` returned. -/
def Done (log : List (Sent System)) (i : ℕ) : Prop :=
  ∃ x ∈ log, x.purpose = .write i ∧ x.returned = true

def NoDeploy (log : List (Sent System)) : Prop := ∀ x ∈ log, x.purpose ≠ .deploy

/-- No chunk was sent yet, nor the deployment. -/
def BeforeChunks (log : List (Sent System)) : Prop :=
  NoDeploy log ∧ ∀ i, ∀ x ∈ log, x.purpose ≠ .write i

/-- What a send may rely on: the sends before it. A chunk follows only chunks that are not
later, all earlier ones have a send that returned, and each attempt repeats one transaction. -/
def Lawful (d : Deployment rt) (log : List (Sent System)) (x : Sent System) : Prop :=
  match x.purpose with
  | .write i => i < d.totalChunks ∧
      (∃ blockhash, d.chunkTransaction i blockhash = some x.transaction) ∧
      (∀ y ∈ log, y.purpose = .write i → y.transaction = x.transaction) ∧
      (∀ j < i, Done log j) ∧ (∀ j, ∀ y ∈ log, y.purpose = .write j → j ≤ i) ∧
      attempts log i ≤ maxRetries ∧ NoDeploy log
  | .deploy => (∀ i < d.totalChunks, Done log i) ∧ NoDeploy log
  | _ => BeforeChunks log

section Log

variable {log : List (Sent System)} {x : Sent System} {i : ℕ}

theorem attempts_concat : attempts (log ++ [x]) i =
    attempts log i + if x.purpose = .write i then 1 else 0 := by
  simp [attempts, List.countP_cons]

theorem Done.concat (h : Done log i) : Done (log ++ [x]) i := by
  obtain ⟨y, hy, hp⟩ := h
  exact ⟨y, List.mem_append_left _ hy, hp⟩

theorem forall_mem_concat {p : Sent System → Prop} :
    (∀ y ∈ log ++ [x], p y) ↔ (∀ y ∈ log, p y) ∧ p x := by
  simp [or_imp, forall_and]

theorem BeforeChunks.concat (h : BeforeChunks log) (hd : x.purpose ≠ .deploy)
    (hw : ∀ i, x.purpose ≠ .write i) : BeforeChunks (log ++ [x]) := by
  refine ⟨forall_mem_concat.mpr ⟨h.1, hd⟩, ?_⟩
  intro i
  exact forall_mem_concat.mpr ⟨h.2 i, hw i⟩

theorem attempts_eq_zero_iff : attempts log i = 0 ↔ ∀ y ∈ log, y.purpose ≠ .write i := by
  simp [attempts]

end Log

/-- The script is at chunk `i`, after at most `n` attempts. -/
structure AtChunk (d : Deployment rt) (log : List (Sent System)) (i n : ℕ) : Prop where
  index_lt : i < d.totalChunks
  done : ∀ j < i, Done log j
  latest : ∀ j, ∀ x ∈ log, x.purpose = .write j → j ≤ i
  attempts_le : attempts log i ≤ n
  noDeploy : NoDeploy log

theorem AtChunk.mono {d : Deployment rt} {log : List (Sent System)} {i n m : ℕ}
    (h : AtChunk d log i n) (hnm : n ≤ m) : AtChunk d log i m :=
  ⟨h.index_lt, h.done, h.latest, h.attempts_le.trans hnm, h.noDeploy⟩

/-- `tx` is the transaction of chunk `i`, and the only one sent for it. -/
structure CarriesChunk (d : Deployment rt) (log : List (Sent System)) (i : ℕ)
    (tx : Transaction System) : Prop where
  built : ∃ blockhash, d.chunkTransaction i blockhash = some tx
  only : ∀ x ∈ log, x.purpose = .write i → x.transaction = tx

/-- What the log holds when the script waits at the given place. -/
def Stage (d : Deployment rt) (log : List (Sent System)) : Await System → Prop
  | .chunkBlockhash i => AtChunk d log i 0
  | .chunkFee i tx => AtChunk d log i 0 ∧ CarriesChunk d log i tx
  | .chunkSend i tx => AtChunk d log i 0 ∧ CarriesChunk d log i tx
  | .chunkPoll i tx => AtChunk d log i 1 ∧ CarriesChunk d log i tx ∧ Done log i
  | .chunkRetry i tx retries =>
    AtChunk d log i (retries + 1) ∧ CarriesChunk d log i tx ∧ retries < maxRetries
  | .finalizeBlockhash => NoDeploy log ∧ ∀ i < d.totalChunks, Done log i
  | .finalizeSend _ => NoDeploy log ∧ ∀ i < d.totalChunks, Done log i
  | .finished => True
  | .failed => True
  | _ => BeforeChunks log

def Discipline (d : Deployment rt) (s : Script System) : Prop :=
  EveryEntry (Lawful d) s.sent ∧ Stage d s.sent s.await

variable {d : Deployment rt} {log : List (Sent System)}

/-- The head of the loop, with the chunks below `i` done. -/
theorem stage_nextChunk {i : ℕ} (hdone : ∀ j < i, Done log j)
    (hlatest : ∀ j, ∀ x ∈ log, x.purpose = .write j → j < i) (hnd : NoDeploy log) :
    Stage d log (nextChunk d i) := by
  unfold nextChunk
  split_ifs with hi
  · have hzero : attempts log i = 0 := by
      rw [attempts_eq_zero_iff]
      intro x hx hp
      exact lt_irrefl i (hlatest i x hx hp)
    exact ⟨hi, hdone, fun j x hx hp => (hlatest j x hx hp).le, hzero.le, hnd⟩
  · exact ⟨hnd, fun j hj => hdone j (by omega)⟩

/-- A chunk that was sent, and returned or not. -/
theorem AtChunk.concat {i n : ℕ} (h : AtChunk d log i n) {x : Sent System}
    (hp : x.purpose = .write i) : AtChunk d (log ++ [x]) i (n + 1) where
  index_lt := h.index_lt
  done j hj := (h.done j hj).concat
  latest j := forall_mem_concat.mpr ⟨h.latest j, fun hj => by
    rw [hp] at hj
    cases hj
    exact le_rfl⟩
  attempts_le := by
    have hle := h.attempts_le
    rw [attempts_concat, if_pos hp]
    omega
  noDeploy := forall_mem_concat.mpr ⟨h.noDeploy, by rw [hp]; simp⟩

theorem CarriesChunk.concat {i : ℕ} {tx : Transaction System} (h : CarriesChunk d log i tx)
    {x : Sent System} (hx : x.transaction = tx) : CarriesChunk d (log ++ [x]) i tx where
  built := h.built
  only := forall_mem_concat.mpr ⟨h.only, fun _ => hx⟩

theorem AtChunk.lawful {i n : ℕ} (h : AtChunk d log i n) (hn : n ≤ maxRetries) {x : Sent System}
    (hp : x.purpose = .write i) (hc : CarriesChunk d log i x.transaction) : Lawful d log x := by
  unfold Lawful
  rw [hp]
  exact ⟨h.index_lt, hc.built, hc.only, h.done, h.latest, h.attempts_le.trans hn, h.noDeploy⟩

/-- After a chunk is done the loop goes on to the next one. -/
theorem AtChunk.stage_succ {i n : ℕ} (h : AtChunk d log i n) (hdone : Done log i) :
    Stage d log (nextChunk d (i + 1)) := by
  apply stage_nextChunk
  · intro j hj
    rcases Nat.lt_succ_iff_lt_or_eq.mp hj with hlt | rfl
    · exact h.done j hlt
    · exact hdone
  · intro j x hx hp
    exact Nat.lt_succ_of_le (h.latest j x hx hp)
  · exact h.noDeploy

theorem BeforeChunks.stage_nextChunk (h : BeforeChunks log) : Stage d log (nextChunk d 0) :=
  Deploy.stage_nextChunk (fun j hj => absurd hj (Nat.not_lt_zero j))
    (fun j x hx hp => absurd hp (h.2 j x hx)) h.1

/-- The sends in front of the chunk loop. -/
theorem discipline_early {purpose : Purpose} {tx : Transaction System} {o : Outcome}
    {await : Await System} (hlog : EveryEntry (Lawful d) log) (h : BeforeChunks log)
    (hd : purpose ≠ .deploy) (hw : ∀ i, purpose ≠ .write i)
    (hnext : ∀ log', BeforeChunks log' → Stage d log' await) :
    Discipline d ⟨await, log ++ [⟨purpose, tx, o.executed, o.reply.isReturned⟩]⟩ := by
  refine ⟨everyEntry_concat.mpr ⟨hlog, ?_⟩, hnext _ (h.concat hd hw)⟩
  unfold Lawful
  cases purpose with
  | write i => exact absurd rfl (hw i)
  | deploy => exact absurd rfl hd
  | createProgramAccount => exact h
  | createBufferAccount => exact h
  | initializeBuffer => exact h

/-- An attempt at a chunk, the first one or a retry. -/
theorem discipline_chunk {i n : ℕ} {tx : Transaction System} {o : Outcome} {await : Await System}
    (hlog : EveryEntry (Lawful d) log) (h : AtChunk d log i n) (hc : CarriesChunk d log i tx)
    (hn : n ≤ maxRetries)
    (hnext : ∀ log', AtChunk d log' i (n + 1) → CarriesChunk d log' i tx →
      (o.reply.isReturned = true → Done log' i) → Stage d log' await) :
    Discipline d ⟨await, log ++ [⟨.write i, tx, o.executed, o.reply.isReturned⟩]⟩ := by
  refine ⟨everyEntry_concat.mpr ⟨hlog, h.lawful hn rfl hc⟩, ?_⟩
  apply hnext
  · exact h.concat rfl
  · exact hc.concat rfl
  · intro hr
    exact ⟨_, List.mem_append_right _ (List.mem_singleton.mpr rfl), rfl, hr⟩

theorem discipline_step {s : Script System} (h : Discipline d s) (o : Outcome) :
    Discipline d (s.step d o) := by
  obtain ⟨await, log⟩ := s
  obtain ⟨executed, reply⟩ := o
  obtain ⟨hlog, hstage⟩ := h
  cases await with
  | minimumBalance => cases reply <;> exact ⟨hlog, by trivial⟩
  | programBlockhash => cases reply <;> exact ⟨hlog, by trivial⟩
  | programRent b => cases reply <;> exact ⟨hlog, by trivial⟩
  | programSend tx =>
    apply discipline_early hlog hstage (by simp) (by simp)
    intro log' h'
    cases reply
    · exact h'
    · trivial
  | bufferBlockhash => cases reply <;> exact ⟨hlog, by trivial⟩
  | bufferRent b => cases reply <;> exact ⟨hlog, by trivial⟩
  | bufferSend tx =>
    apply discipline_early hlog hstage (by simp) (by simp)
    intro log' h'
    cases reply
    · exact h'
    · trivial
  | initializeBlockhash => cases reply <;> exact ⟨hlog, by trivial⟩
  | initializeSend tx =>
    apply discipline_early hlog hstage (by simp) (by simp)
    intro log' h'
    cases reply
    · exact h'
    · trivial
  | initializePoll =>
    refine ⟨hlog, ?_⟩
    cases reply with
    | threw => trivial
    | returned slot =>
      simp only [Script.step, next, Await.sending]
      split_ifs
      · exact hstage.stage_nextChunk
      · exact hstage
  | chunkBlockhash i =>
    refine ⟨hlog, ?_⟩
    cases reply with
    | threw => trivial
    | returned b =>
      simp only [Script.step, next, Await.sending]
      cases htx : d.chunkTransaction i b with
      | none => trivial
      | some tx =>
        refine ⟨hstage, ⟨b, htx⟩, ?_⟩
        -- No attempt was made yet, so there is no other transaction.
        intro x hx hp
        have hzero : attempts log i = 0 := Nat.le_zero.mp hstage.attempts_le
        exact absurd hp (attempts_eq_zero_iff.mp hzero x hx)
  | chunkFee i tx =>
    obtain ⟨hat, hc⟩ := hstage
    cases reply with
    | threw => exact ⟨hlog, hat.mono (Nat.zero_le 1), hc, by decide⟩
    | returned b => exact ⟨hlog, hat, hc⟩
  | chunkSend i tx =>
    obtain ⟨hat, hc⟩ := hstage
    apply discipline_chunk hlog hat hc (by decide)
    intro log' hat' hc' hdone
    cases reply with
    | threw => exact ⟨hat', hc', by decide⟩
    | returned b => exact ⟨hat', hc', hdone rfl⟩
  | chunkPoll i tx =>
    obtain ⟨hat, hc, hdone⟩ := hstage
    refine ⟨hlog, ?_⟩
    cases reply with
    | threw => exact ⟨hat, hc, by decide⟩
    | returned slot =>
      simp only [Script.step, next, Await.sending]
      split_ifs
      · exact hat.stage_succ hdone
      · exact ⟨hat, hc, hdone⟩
  | chunkRetry i tx retries =>
    obtain ⟨hat, hc, hlt⟩ := hstage
    apply discipline_chunk hlog hat hc hlt
    intro log' hat' hc' hdone
    cases reply with
    | threw =>
      simp only [next]
      split_ifs with hmore
      · exact ⟨hat', hc', hmore⟩
      · trivial
    | returned b => exact hat'.stage_succ (hdone rfl)
  | finalizeBlockhash =>
    refine ⟨hlog, ?_⟩
    cases reply with
    | threw => trivial
    | returned b =>
      simp only [Script.step, next, Await.sending]
      cases d.finalizeTransaction b with
      | none => trivial
      | some tx => exact hstage
  | finalizeSend tx =>
    refine ⟨everyEntry_concat.mpr ⟨hlog, hstage.2, hstage.1⟩, ?_⟩
    cases reply <;> trivial
  | finished => cases reply <;> exact ⟨hlog, trivial⟩
  | failed => cases reply <;> exact ⟨hlog, trivial⟩

/-- The invariant over a whole run. -/
theorem discipline_after (d : Deployment rt) (os : List Outcome) :
    Discipline d (Script.after d os) := by
  have hstart : Discipline d Script.start := by
    refine ⟨everyEntry_nil, ?_, ?_⟩
    · intro x hx
      cases hx
    · intro i x hx
      cases hx
  have hstep : ∀ (s : Script System) (o : Outcome), Discipline d s → Discipline d (s.step d o) :=
    fun s o h => discipline_step h o
  exact (everyState_of_all hstep os hstart).last

/-- The run is over for good. -/
theorem run_of_isOver (d : Deployment rt) {s : Script System} (h : s.await.isOver = true)
    (os : List Outcome) : run (Script.step d) s os = s := by
  induction os with
  | nil => rfl
  | cons o os ih => rw [run_cons, Script.step_of_isOver d h, ih]

theorem attempts_le_of_everyEntry {d : Deployment rt} (h : EveryEntry (Lawful d) log) (i : ℕ) :
    attempts log i ≤ maxRetries + 1 := by
  induction log using List.reverseRecOn with
  | nil => exact Nat.zero_le _
  | append_singleton log x ih =>
    obtain ⟨hlog, hx⟩ := everyEntry_concat.mp h
    have hle := ih hlog
    rw [attempts_concat]
    split_ifs with hp
    · unfold Lawful at hx
      rw [hp] at hx
      have := hx.2.2.2.2.2.1
      omega
    · exact hle

/-- The chunk the loop is at. -/
def Await.chunkIndex : Await System → Option ℕ
  | .chunkBlockhash i => some i
  | .chunkFee i _ => some i
  | .chunkSend i _ => some i
  | .chunkPoll i _ => some i
  | .chunkRetry i _ _ => some i
  | _ => none

/-- Inside the loop, where there are attempts left. -/
theorem Stage.atChunk {a : Await System} (h : Stage d log a) {i : ℕ}
    (ha : a.chunkIndex = some i) : ∃ n ≤ maxRetries, AtChunk d log i n := by
  cases a with
  | chunkBlockhash j =>
    cases ha
    exact ⟨0, by decide, h⟩
  | chunkFee j tx =>
    cases ha
    exact ⟨0, by decide, h.1⟩
  | chunkSend j tx =>
    cases ha
    exact ⟨0, by decide, h.1⟩
  | chunkPoll j tx =>
    cases ha
    exact ⟨1, by decide, h.1⟩
  | chunkRetry j tx retries =>
    cases ha
    exact ⟨retries + 1, h.2.2, h.1⟩
  | _ => cases ha

/-- Outside of it: in front of the loop, behind it, or no longer running. -/
theorem Stage.outside {a : Await System} (h : Stage d log a) (ha : a.chunkIndex = none) :
    BeforeChunks log ∨ (NoDeploy log ∧ ∀ i < d.totalChunks, Done log i) ∨ a.isOver = true := by
  cases a with
  | chunkBlockhash j => cases ha
  | chunkFee j tx => cases ha
  | chunkSend j tx => cases ha
  | chunkPoll j tx => cases ha
  | chunkRetry j tx retries => cases ha
  | finalizeBlockhash => exact .inr (.inl h)
  | finalizeSend tx => exact .inr (.inl h)
  | finished => exact .inr (.inr rfl)
  | failed => exact .inr (.inr rfl)
  | _ => exact .inl h

/-- A chunk that was sent and never came back is the one the loop is at, with attempts left,
or the run is over. -/
theorem unfinished_chunk {s : Script System} (h : Discipline d s) {i : ℕ}
    (hsent : ∃ x ∈ s.sent, x.purpose = .write i) (hdone : ¬ Done s.sent i) :
    s.await.isOver = true ∨
      (s.await.chunkIndex = some i ∧ attempts s.sent i ≤ maxRetries) := by
  obtain ⟨hlog, hstage⟩ := h
  obtain ⟨x, hx, hp⟩ := hsent
  cases hj : s.await.chunkIndex with
  | some j =>
    obtain ⟨n, hn, hat⟩ := hstage.atChunk hj
    rcases Nat.lt_or_eq_of_le (hat.latest i x hx hp) with hlt | rfl
    · exact absurd (hat.done i hlt) hdone
    · exact .inr ⟨rfl, hat.attempts_le.trans hn⟩
  | none =>
    rcases hstage.outside hj with hbefore | ⟨-, hall⟩ | hover
    · exact absurd hp (hbefore.2 i x hx)
    · have hi : i < d.totalChunks := by
        obtain ⟨pre, post, he⟩ := List.append_of_mem hx
        have hl := hlog pre x post he
        unfold Lawful at hl
        rw [hp] at hl
        exact hl.1
      exact absurd (hall i hi) hdone
    · exact .inl hover

/-- The deployment is the last thing that is sent. -/
theorem isOver_of_deploy_sent {s : Script System} (h : Discipline d s)
    (hsent : ∃ x ∈ s.sent, x.purpose = .deploy) : s.await.isOver = true := by
  obtain ⟨-, hstage⟩ := h
  obtain ⟨x, hx, hp⟩ := hsent
  cases hj : s.await.chunkIndex with
  | some j =>
    obtain ⟨n, -, hat⟩ := hstage.atChunk hj
    exact absurd hp (hat.noDeploy x hx)
  | none =>
    rcases hstage.outside hj with hbefore | ⟨hnd, -⟩ | hover
    · exact absurd hp (hbefore.1 x hx)
    · exact absurd hp (hnd x hx)
    · exact hover

/-- The law of the chunk loop, in every run: each send was lawful when it was made, no chunk is
sent more than four times, a chunk without a send that returned keeps the loop where it is until
the run is over, the deployment ends the run, and a run that is over sends nothing more. Fewer
sends can end it too: nothing is sent of a chunk whose `getLatestBlockhash` throws or whose offset
does not fit the instruction, and when the fee call throws, three retries that fail are all. -/
theorem chunk_loop_discipline (d : Deployment rt) (os : List Outcome) :
    EveryEntry (Lawful d) (Script.after d os).sent ∧
    (∀ i, attempts (Script.after d os).sent i ≤ maxRetries + 1) ∧
    (∀ i, (∃ x ∈ (Script.after d os).sent, x.purpose = .write i) →
      ¬ Done (Script.after d os).sent i →
      (Script.after d os).await.isOver = true ∨
        ((Script.after d os).await.chunkIndex = some i ∧
          attempts (Script.after d os).sent i ≤ maxRetries)) ∧
    ((∃ x ∈ (Script.after d os).sent, x.purpose = .deploy) →
      (Script.after d os).await.isOver = true) ∧
    ((Script.after d os).await.isOver = true → ∀ os',
      (Script.after d (os ++ os')).sent = (Script.after d os).sent) := by
  have h := discipline_after d os
  refine ⟨h.1, attempts_le_of_everyEntry h.1, fun i => unfinished_chunk h,
    isOver_of_deploy_sent h, ?_⟩
  intro hover os'
  rw [Script.after, run_append]
  exact congrArg Script.sent (run_of_isOver d hover os')

end SolanaSample.Deploy
