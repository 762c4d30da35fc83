import SolanaSample.Deploy.World

/-! How many transactions `deployProgram` sends, and how many calls it makes. -/
namespace SolanaSample.Deploy
open EventRun

variable {System : Type} {rt : Runtime System} (d : Deployment rt)

/-- The sends that may still come. -/
def sendsLeft : Await System → ℕ
  | .minimumBalance => 4 * d.totalChunks + 4
  | .programBlockhash => 4 * d.totalChunks + 4
  | .programRent _ => 4 * d.totalChunks + 4
  | .programSend _ => 4 * d.totalChunks + 4
  | .bufferBlockhash => 4 * d.totalChunks + 3
  | .bufferRent _ => 4 * d.totalChunks + 3
  | .bufferSend _ => 4 * d.totalChunks + 3
  | .initializeBlockhash => 4 * d.totalChunks + 2
  | .initializeSend _ => 4 * d.totalChunks + 2
  | .initializePoll => 4 * d.totalChunks + 1
  | .chunkBlockhash i => 4 * (d.totalChunks - i) + 1
  | .chunkFee i _ => 4 * (d.totalChunks - i) + 1
  | .chunkSend i _ => 4 * (d.totalChunks - i) + 1
  | .chunkPoll i _ => 4 * (d.totalChunks - i)
  | .chunkRetry i _ retries => 4 * (d.totalChunks - i) - retries
  | .finalizeBlockhash => 1
  | .finalizeSend _ => 1
  | .finished => 0
  | .failed => 0

/-- The calls the script may still wait for, when no poll is in vain. -/
def waitsLeft : Await System → ℕ
  | .minimumBalance => 7 * d.totalChunks + 12
  | .programBlockhash => 7 * d.totalChunks + 11
  | .programRent _ => 7 * d.totalChunks + 10
  | .programSend _ => 7 * d.totalChunks + 9
  | .bufferBlockhash => 7 * d.totalChunks + 8
  | .bufferRent _ => 7 * d.totalChunks + 7
  | .bufferSend _ => 7 * d.totalChunks + 6
  | .initializeBlockhash => 7 * d.totalChunks + 5
  | .initializeSend _ => 7 * d.totalChunks + 4
  | .initializePoll => 7 * d.totalChunks + 3
  | .chunkBlockhash i => 7 * (d.totalChunks - i) + 2
  | .chunkFee i _ => 7 * (d.totalChunks - i) + 1
  | .chunkSend i _ => 7 * (d.totalChunks - i)
  | .chunkPoll i _ => 7 * (d.totalChunks - i) - 1
  | .chunkRetry i _ retries => 7 * (d.totalChunks - i) - 2 - retries
  | .finalizeBlockhash => 2
  | .finalizeSend _ => 1
  | .finished => 0
  | .failed => 0

/-- The confirmations that may still come. -/
def confirmsLeft : Await System → ℕ
  | .initializePoll => d.totalChunks
  | .chunkBlockhash i => d.totalChunks - i
  | .chunkFee i _ => d.totalChunks - i
  | .chunkSend i _ => d.totalChunks - i
  | .chunkPoll i _ => d.totalChunks - (i + 1)
  | .chunkRetry i _ _ => d.totalChunks - (i + 1)
  | .finalizeBlockhash => 0
  | .finalizeSend _ => 0
  | .finished => 0
  | .failed => 0
  | _ => d.totalChunks + 1

/-- The `confirmTransaction` of the adapter answers at once, and so it is no place where the script
waits. It is called when an initialisation or the first send of a chunk returns. -/
def confirms : Await System → Reply → ℕ
  | .initializeSend _, .returned _ => 1
  | .chunkSend _ _, .returned _ => 1
  | _, _ => 0

/-- The calls of one step: the one that comes back, and a confirmation. -/
def callsOf (a : Await System) (reply : Reply) : ℕ :=
  if a.isOver then 0 else 1 + confirms a reply

/-- All calls that came back: `create`, the ones the script waited for, and the confirmations. -/
def callsMade (os : List Outcome) : ℕ :=
  1 + runCost (Script.step d) (fun s o => callsOf s.await o.reply) Script.start os

/-- A poll that finds no slot yet. -/
def InVain : Await System → Reply → Prop
  | .initializePoll, .returned slot => slot = 0
  | .chunkPoll _ _, .returned slot => slot = 0
  | _, _ => False

variable {d}

/-- What is left at the head of the loop. -/
theorem nextChunk_le {left : Await System → ℕ} {i n : ℕ} (hchunk : left (.chunkBlockhash i) ≤ n)
    (hlast : left .finalizeBlockhash ≤ n) : left (nextChunk d i) ≤ n := by
  unfold nextChunk
  split_ifs
  · exact hchunk
  · exact hlast

theorem sendsLeft_nextChunk (i : ℕ) :
    sendsLeft d (nextChunk d i) ≤ 4 * (d.totalChunks - i) + 1 :=
  nextChunk_le le_rfl (Nat.le_add_left 1 _)

theorem waitsLeft_nextChunk (i : ℕ) :
    waitsLeft d (nextChunk d i) ≤ 7 * (d.totalChunks - i) + 2 :=
  nextChunk_le le_rfl (Nat.le_add_left 2 _)

theorem confirmsLeft_nextChunk (i : ℕ) : confirmsLeft d (nextChunk d i) ≤ d.totalChunks - i :=
  nextChunk_le le_rfl (Nat.zero_le _)

/-- Every send is one of those that were left. -/
theorem sendsLeft_next {log : List (Sent System)} {a : Await System} (h : Stage d log a)
    (reply : Reply) :
    sendsLeft d (next d a reply) + a.sending.toList.length ≤ sendsLeft d a := by
  cases a with
  | initializePoll =>
    cases reply with
    | threw => exact Nat.zero_le _
    | returned slot =>
      simp only [next]
      split_ifs
      · exact sendsLeft_nextChunk 0
      · exact le_rfl
  | chunkBlockhash i =>
    cases reply with
    | threw => exact Nat.zero_le _
    | returned blockhash =>
      simp only [next]
      cases d.chunkTransaction i blockhash with
      | none => exact Nat.zero_le _
      | some tx => exact le_rfl
  | chunkFee i tx =>
    cases reply with
    | threw => exact Nat.le_succ _
    | returned fee => exact le_rfl
  | chunkSend i tx => cases reply <;> exact le_rfl
  | chunkPoll i tx =>
    have hlt := h.1.index_lt
    cases reply with
    | threw => exact le_rfl
    | returned slot =>
      simp only [next]
      split_ifs
      · have hnext := sendsLeft_nextChunk (d := d) (i + 1)
        change sendsLeft d (nextChunk d (i + 1)) + 0 ≤ 4 * (d.totalChunks - i)
        omega
      · exact le_rfl
  | chunkRetry i tx retries =>
    have hlt := h.1.index_lt
    have hretries : retries < 3 := h.2.2
    cases reply with
    | threw =>
      simp only [next]
      split_ifs
      · change 4 * (d.totalChunks - i) - (retries + 1) + 1 ≤ 4 * (d.totalChunks - i) - retries
        omega
      · change 0 + 1 ≤ 4 * (d.totalChunks - i) - retries
        omega
    | returned txHash =>
      have hnext := sendsLeft_nextChunk (d := d) (i + 1)
      change sendsLeft d (nextChunk d (i + 1)) + 1 ≤ 4 * (d.totalChunks - i) - retries
      omega
  | finalizeBlockhash =>
    cases reply with
    | threw => exact Nat.zero_le _
    | returned blockhash =>
      simp only [next]
      cases d.finalizeTransaction blockhash with
      | none => exact Nat.zero_le _
      | some tx => exact le_rfl
  | _ => cases reply <;> simp [next, sendsLeft, Await.sending]

theorem waitsLeft_next {log : List (Sent System)} {a : Await System} (h : Stage d log a)
    {reply : Reply} (hpoll : ¬ InVain a reply) :
    waitsLeft d (next d a reply) ≤ waitsLeft d a - 1 := by
  cases a with
  | initializePoll =>
    cases reply with
    | threw => exact Nat.zero_le _
    | returned slot =>
      have hslot : slot > 0 := Nat.pos_of_ne_zero hpoll
      simp only [next, if_pos hslot]
      exact waitsLeft_nextChunk 0
  | chunkBlockhash i =>
    cases reply with
    | threw => exact Nat.zero_le _
    | returned blockhash =>
      simp only [next]
      cases d.chunkTransaction i blockhash with
      | none => exact Nat.zero_le _
      | some tx => exact le_rfl
  | chunkFee i tx =>
    cases reply with
    | threw => exact (Nat.sub_le _ _).trans (Nat.sub_le _ _)
    | returned fee => exact le_rfl
  | chunkSend i tx =>
    cases reply with
    | threw => exact Nat.sub_le_sub_left (by decide : 1 ≤ 2) _
    | returned txHash => exact le_rfl
  | chunkPoll i tx =>
    have hlt := h.1.index_lt
    cases reply with
    | threw => exact le_rfl
    | returned slot =>
      have hslot : slot > 0 := Nat.pos_of_ne_zero hpoll
      have hnext := waitsLeft_nextChunk (d := d) (i + 1)
      simp only [next, if_pos hslot]
      change waitsLeft d (nextChunk d (i + 1)) ≤ 7 * (d.totalChunks - i) - 1 - 1
      omega
  | chunkRetry i tx retries =>
    have hlt := h.1.index_lt
    have hretries : retries < 3 := h.2.2
    cases reply with
    | threw =>
      simp only [next]
      split_ifs
      · exact le_rfl
      · exact Nat.zero_le _
    | returned txHash =>
      have hnext := waitsLeft_nextChunk (d := d) (i + 1)
      change waitsLeft d (nextChunk d (i + 1)) ≤ 7 * (d.totalChunks - i) - 2 - retries - 1
      omega
  | finalizeBlockhash =>
    cases reply with
    | threw => exact Nat.zero_le _
    | returned blockhash =>
      simp only [next]
      cases d.finalizeTransaction blockhash with
      | none => exact Nat.zero_le _
      | some tx => exact le_rfl
  | _ => cases reply <;> simp [next, waitsLeft]

theorem isOver_of_waitsLeft {a : Await System} (h : waitsLeft d a = 0) {log : List (Sent System)}
    (hstage : Stage d log a) : a.isOver = true := by
  cases a with
  | finished => rfl
  | failed => rfl
  | chunkSend i tx =>
    have hlt := hstage.1.index_lt
    change 7 * (d.totalChunks - i) = 0 at h
    omega
  | chunkPoll i tx =>
    have hlt := hstage.1.index_lt
    change 7 * (d.totalChunks - i) - 1 = 0 at h
    omega
  | chunkRetry i tx retries =>
    have hlt := hstage.1.index_lt
    have hretries : retries < 3 := hstage.2.2
    change 7 * (d.totalChunks - i) - 2 - retries = 0 at h
    omega
  | _ => cases h

/-- A chunk is confirmed once, after its first send. -/
theorem confirmsLeft_next {log : List (Sent System)} {a : Await System} (h : Stage d log a)
    (reply : Reply) : confirms a reply + confirmsLeft d (next d a reply) ≤ confirmsLeft d a := by
  cases a with
  | initializeSend tx =>
    cases reply with
    | threw => exact Nat.zero_le _
    | returned txHash => exact (Nat.add_comm 1 d.totalChunks).le
  | initializePoll =>
    cases reply with
    | threw => exact Nat.zero_le _
    | returned slot =>
      have hnext := confirmsLeft_nextChunk (d := d) 0
      simp only [next]
      split_ifs
      · change 0 + confirmsLeft d (nextChunk d 0) ≤ d.totalChunks
        omega
      · exact (Nat.zero_add _).le
  | chunkBlockhash i =>
    cases reply with
    | threw => exact Nat.zero_le _
    | returned blockhash =>
      simp only [next]
      cases d.chunkTransaction i blockhash with
      | none => exact Nat.zero_le _
      | some tx => exact (Nat.zero_add _).le
  | chunkFee i tx =>
    cases reply with
    | threw =>
      change 0 + (d.totalChunks - (i + 1)) ≤ d.totalChunks - i
      omega
    | returned fee => exact (Nat.zero_add _).le
  | chunkSend i tx =>
    have hlt := h.1.index_lt
    cases reply with
    | threw =>
      change 0 + (d.totalChunks - (i + 1)) ≤ d.totalChunks - i
      omega
    | returned txHash =>
      change 1 + (d.totalChunks - (i + 1)) ≤ d.totalChunks - i
      omega
  | chunkPoll i tx =>
    cases reply with
    | threw => exact (Nat.zero_add _).le
    | returned slot =>
      have hnext := confirmsLeft_nextChunk (d := d) (i + 1)
      simp only [next]
      split_ifs
      · exact (Nat.zero_add _).trans_le hnext
      · exact (Nat.zero_add _).le
  | chunkRetry i tx retries =>
    cases reply with
    | threw =>
      simp only [next]
      split_ifs
      · exact (Nat.zero_add _).le
      · exact Nat.zero_le _
    | returned txHash => exact (Nat.zero_add _).trans_le (confirmsLeft_nextChunk (i + 1))
  | finalizeBlockhash =>
    cases reply with
    | threw => exact Nat.zero_le _
    | returned blockhash =>
      simp only [next]
      cases d.finalizeTransaction blockhash <;> exact Nat.zero_le _
  | _ => cases reply <;> simp [next, confirms, confirmsLeft]

/-- What a step calls is paid for by the waits and the confirmations that were left. -/
theorem callsOf_add_le {log : List (Sent System)} {a : Await System} (h : Stage d log a)
    {reply : Reply} (hpoll : ¬ InVain a reply) :
    callsOf a reply + (waitsLeft d (next d a reply) + confirmsLeft d (next d a reply)) ≤
      waitsLeft d a + confirmsLeft d a := by
  unfold callsOf
  split_ifs with hover
  · rw [next_of_isOver d hover]
    exact (Nat.zero_add _).le
  · have hleft : waitsLeft d a ≠ 0 := fun hzero => hover (isOver_of_waitsLeft hzero h)
    have hcalls := waitsLeft_next h hpoll
    have hconfirms := confirmsLeft_next h reply
    omega

theorem sendsLeft_step {s : Script System} (h : Discipline d s) (o : Outcome) :
    (s.step d o).sent.length + sendsLeft d (s.step d o).await ≤
      s.sent.length + sendsLeft d s.await := by
  have hnext := sendsLeft_next h.2 o.reply
  unfold Script.step
  cases hs : s.await.sending with
  | none =>
    rw [hs] at hnext
    simpa using hnext
  | some p =>
    rw [hs] at hnext
    simp only [List.length_append, List.length_cons, List.length_nil]
    simp only [Option.toList_some, List.length_cons, List.length_nil] at hnext
    omega

theorem sent_length_le (d : Deployment rt) (os : List Outcome) :
    (Script.after d os).sent.length ≤ 4 * d.totalChunks + 4 := by
  have hstep : ∀ s o, (Discipline d s ∧
      s.sent.length + sendsLeft d s.await ≤ 4 * d.totalChunks + 4) →
      Discipline d (s.step d o) ∧ (s.step d o).sent.length + sendsLeft d (s.step d o).await ≤
        4 * d.totalChunks + 4 :=
    fun s o h => ⟨discipline_step h.1 o, (sendsLeft_step h.1 o).trans h.2⟩
  have hstart : Discipline d (Script.after d []) ∧ (Script.after d []).sent.length +
      sendsLeft d (Script.after d []).await ≤ 4 * d.totalChunks + 4 :=
    ⟨discipline_after d [], (Nat.zero_add _).le⟩
  have hrun := (everyState_of_all hstep os hstart).last
  exact (Nat.le_add_right _ _).trans hrun.2

section Polls
variable {os : List Outcome}

theorem callsMade_le
    (hpolls : EveryStep (Script.step d) (fun s o => ¬ InVain s.await o.reply) Script.start os) :
    callsMade d os ≤ 8 * d.totalChunks + 14 := by
  have hstep : ∀ s o, Discipline d s → ¬ InVain s.await o.reply →
      Discipline d (Script.step d s o) ∧ callsOf s.await o.reply +
        (waitsLeft d (Script.step d s o).await + confirmsLeft d (Script.step d s o).await) ≤
          waitsLeft d s.await + confirmsLeft d s.await :=
    fun s o h ho => ⟨discipline_step h o, callsOf_add_le h.2 ho⟩
  have hstart : Discipline d Script.start := discipline_after d []
  have hpaid := runCost_add_rank_le
    (fun s : Script System => waitsLeft d s.await + confirmsLeft d s.await)
    (fun s o => callsOf s.await o.reply) hstep hstart hpolls
  have hleft : waitsLeft d (Script.start : Script System).await +
      confirmsLeft d (Script.start : Script System).await =
        7 * d.totalChunks + 12 + (d.totalChunks + 1) := rfl
  unfold callsMade
  omega

theorem isOver_of_length_ge
    (hpolls : EveryStep (Script.step d) (fun s o => ¬ InVain s.await o.reply) Script.start os)
    (hlong : 7 * d.totalChunks + 12 ≤ os.length) : (Script.after d os).await.isOver = true := by
  have hstep : ∀ s o, Discipline d s → ¬ InVain s.await o.reply →
      Discipline d (Script.step d s o) ∧
        waitsLeft d (Script.step d s o).await ≤ waitsLeft d s.await - 1 :=
    fun s o h ho => ⟨discipline_step h o, waitsLeft_next h.2 ho⟩
  have hrank := rank_run_le (fun s => waitsLeft d s.await) (fun _ => true) hstep
    (discipline_after d []) hpolls
  have hzero : waitsLeft d (Script.after d os).await = 0 := by
    have hstart : waitsLeft d (Script.after d []).await = 7 * d.totalChunks + 12 := rfl
    rw [List.countP_true, hstart, Nat.sub_eq_zero_of_le hlong] at hrank
    exact Nat.le_zero.mp hrank
  exact isOver_of_waitsLeft hzero (discipline_after d os).2

end Polls

/-- However its calls come back, the script sends at most four transactions for each chunk and four
besides. When its polls are not in vain, it calls at most eight times for each chunk and fourteen
times besides, with `create` and every `confirmTransaction` counted; and it is over once seven
of the calls it waits for, for each chunk, and twelve besides have come back. -/
theorem script_bounded (d : Deployment rt) (os : List Outcome) :
    (Script.after d os).sent.length ≤ 4 * d.totalChunks + 4 ∧
      (EveryStep (Script.step d) (fun s o => ¬ InVain s.await o.reply) Script.start os →
        callsMade d os ≤ 8 * d.totalChunks + 14 ∧
          (7 * d.totalChunks + 12 ≤ os.length → (Script.after d os).await.isOver = true)) := by
  refine ⟨sent_length_le d os, ?_⟩
  intro hpolls
  exact ⟨callsMade_le hpolls, isOver_of_length_ge hpolls⟩

/-- The bounds are reached: the poll of the only chunk throws, and so do two of its retries. -/
example :
    let os : List Outcome :=
      List.replicate 13 ⟨false, .returned 1⟩ ++ List.replicate 3 ⟨false, .threw⟩ ++
        List.replicate 3 ⟨false, .returned 1⟩
    (Script.after sample os).sent.length = 8 ∧ callsMade sample os = 22 := by decide +kernel

end SolanaSample.Deploy
