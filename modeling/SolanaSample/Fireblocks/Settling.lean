import SolanaSample.Fireblocks.Resubmission
import SolanaSample.Fireblocks.Polling

/-! How long a call still polls when Fireblocks has decided about its transaction, whatever else
goes on in the session. -/
namespace SolanaSample.Fireblocks
open EventRun

variable {E Signature : Type} {host : Host E Signature}

/-- Either the loop goes on after one more poll, or it has a result. -/
theorem waiting_of_sendTransaction_none {errorMessage : E → String}
    {polls : List (Except E TransactionResponse)} {p : Except E TransactionResponse}
    (hpolls : Waiting polls) (h : sendTransaction errorMessage (polls ++ [p]) = none) :
    Waiting (polls ++ [p]) := by
  have hnone : waitForSignature (polls ++ [p]) = none := by
    simpa [sendTransaction] using h
  rw [waiting_concat]
  refine ⟨hpolls, ?_⟩
  intro result hsettles
  have hsome : waitForSignature (polls ++ [p]) = some (result, []) :=
    waitForSignature_eq_some_iff.mpr ⟨polls, p, rfl, hpolls, hsettles⟩
  rw [hnone] at hsome
  cases hsome

def Event.isPollOf (call : ℕ) : Event E → Bool
  | .polled call' _ => call' = call
  | _ => false

/-- The answers after which a polling call is over, when all of them are errors. -/
def Stage.pollsLeft : Stage E → ℕ
  | .polling _ polls => maxRetries + 1 - polls.countP isError
  | _ => 0

namespace Session

variable {s s' : Session E Signature} {call object : ℕ} {signers : List Pubkey} {id : String}

/-- Fireblocks has decided about the transaction: it is completed or broadcast, or it has come to
nothing. -/
def Decided (s : Session E Signature) (id : String) : Prop :=
  ∃ r, s.answer id = some r ∧
    r.status ∈ [.completed, .broadcasting, .blocked, .cancelled, .failed, .rejected]

/-- What is decided ends the loop. -/
theorem checkStatus_of_decided {r : TransactionResponse}
    (h : r.status ∈
      [.completed, .broadcasting, .blocked, .cancelled, .failed, .rejected]) :
    checkStatus E r ≠ none := by
  have hstatus : r.status ∈ acceptedStatuses ∨ r.status ∈ failedStatuses := by
    rw [mem_acceptedStatuses, mem_failedStatuses]
    simp only [List.mem_cons, List.not_mem_nil, or_false] at h
    grind
  rcases hstatus with hstatus | hstatus
  · rw [checkStatus_eq_some.mpr (.inl ⟨hstatus, rfl⟩)]
    simp
  · rw [checkStatus_eq_some.mpr (.inr ⟨hstatus, rfl⟩)]
    simp

/-- A call that polls has had no answer that ends the loop. -/
def PollsOn (s : Session E Signature) : Prop :=
  ∀ call object signers id polls, s.calls call = some ⟨object, signers, .polling id polls⟩ →
    Waiting polls

theorem PollsOn.put (h : s.PollsOn) {c : SendCall E}
    (hc : ∀ id polls, c.stage = .polling id polls → Waiting polls) : (s.put call c).PollsOn := by
  intro call' object signers id polls hcall
  by_cases he : call' = call
  · rw [he, put_self] at hcall
    obtain rfl := Option.some.inj hcall
    exact hc id polls rfl
  · rw [put_of_ne he] at hcall
    exact h call' object signers id polls hcall

theorem PollsOn.leaves (h : s.PollsOn) {t : TransactionObject Signature}
    (hleaves : s.Leaves host call object signers t s') : s'.PollsOn := by
  have hput : ∀ stage : Stage E, (∀ id polls, stage ≠ .polling id polls) →
      (s.put call ⟨object, signers, stage⟩).PollsOn := by
    intro stage hstage
    apply h.put
    intro id polls hpolling
    exact absurd hpolling (hstage id polls)
  rcases hleaves with ⟨text, rfl⟩ | ⟨programCallData, -, rfl⟩
  · exact hput _ (by simp)
  · exact hput .submitting (by simp)

theorem pollsOn_moves {e : Event E} (h : s.PollsOn) (hmoves : s.Moves host e s') :
    s'.PollsOn := by
  cases hmoves with
  | stay => exact h
  | set settings => exact h
  | begin hcall hmissing => exact h.put (by simp)
  | leave hcall hpresent hleaves => exact h.leaves hleaves
  | resume hcall ht hleaves => exact h.leaves hleaves
  | throw text hcall hstage => exact h.put (by simp)
  | created hcall =>
    apply h.put
    intro id polls hpolling
    obtain ⟨-, rfl⟩ := Stage.polling.inj hpolling
    exact waiting_nil
  | @polled error call object signers id polls p hcall hp =>
    apply h.put
    intro id' polls' hpolling
    cases hresult : Fireblocks.sendTransaction host.errorMessage (polls ++ [p]) with
    | none =>
      rw [hresult] at hpolling
      obtain ⟨-, rfl⟩ := Stage.polling.inj hpolling
      exact waiting_of_sendTransaction_none (h call object signers id polls hcall) hresult
    | some result =>
      rw [hresult] at hpolling
      cases hpolling
  | take hrequest => exact h
  | advance id status subStatus txHash => exact h

/-- A call that polls, or did so and is over. -/
def Settling (s : Session E Signature) (call object : ℕ) (signers : List Pubkey)
    (id : String) : Prop :=
  ∃ stage, s.calls call = some ⟨object, signers, stage⟩ ∧
    ((∃ polls, stage = .polling id polls ∧ Waiting polls) ∨ ∃ result, stage = .settled result)

def pollsLeft (s : Session E Signature) (call : ℕ) : ℕ :=
  match s.calls call with
  | some c => c.stage.pollsLeft
  | none => 0

/-- No other event gets at a call that polls or is over. -/
theorem calls_of_moves {e : Event E} (h : s.Settling call object signers id)
    (he : e.isPollOf call = false) (hmoves : s.Moves host e s') :
    s'.calls call = s.calls call := by
  obtain ⟨stage, hcall, hstage⟩ := h
  have hfree : ∀ call' c, (s.calls call' = none ∨
      ∃ object' signers' stage', s.calls call' = some ⟨object', signers', stage'⟩ ∧
        (stage' = .preparing ∨ stage' = .submitting)) →
      (s.put call' c).calls call = s.calls call := by
    intro call' c hother
    apply put_of_ne
    rintro rfl
    rcases hother with hnone | ⟨object', signers', stage', hsome, hearly⟩
    · rw [hcall] at hnone
      cases hnone
    · rw [hcall] at hsome
      cases hsome
      rcases hstage with ⟨polls, rfl, -⟩ | ⟨result, rfl⟩
      · rcases hearly with hearly | hearly <;> cases hearly
      · rcases hearly with hearly | hearly <;> cases hearly
  have hleaves : ∀ {call' object' signers' t}, s.Leaves host call' object' signers' t s' →
      (s.calls call' = none ∨
        ∃ object' signers' stage', s.calls call' = some ⟨object', signers', stage'⟩ ∧
          (stage' = .preparing ∨ stage' = .submitting)) → s'.calls call = s.calls call := by
    intro call' object' signers' t hleaves hother
    rcases hleaves with ⟨text, rfl⟩ | ⟨programCallData, -, rfl⟩
    · exact hfree call' _ hother
    · exact hfree call' _ hother
  cases hmoves with
  | stay => rfl
  | set settings => rfl
  | begin hcall' hmissing => exact hfree _ _ (.inl hcall')
  | leave hcall' hpresent hl => exact hleaves hl (.inl hcall')
  | resume hcall' ht hl => exact hleaves hl (.inr ⟨_, _, _, hcall', .inl rfl⟩)
  | throw text hcall' hearly => exact hfree _ _ (.inr ⟨_, _, _, hcall', hearly⟩)
  | created hcall' => exact hfree _ _ (.inr ⟨_, _, _, hcall', .inr rfl⟩)
  | @polled error call' object' signers' id' polls p hcall' hp =>
    apply put_of_ne
    rintro rfl
    simp [Event.isPollOf] at he
  | take hrequest => rfl
  | advance id status subStatus txHash => rfl

/-- The answer to a poll ends the call, or it is one more error. -/
theorem poll_settling {polls : List (Except E TransactionResponse)}
    {p : Except E TransactionResponse} (hpolls : Waiting polls)
    (hp : ∀ r, p = .ok r → checkStatus E r ≠ none) :
    (s.poll host call ⟨object, signers, .polling id polls⟩ id (polls ++ [p])).Settling call object
        signers id ∧
      (s.poll host call ⟨object, signers, .polling id polls⟩ id (polls ++ [p])).pollsLeft call ≤
        maxRetries + 1 - polls.countP isError - 1 := by
  rw [Session.poll, pollsLeft, put_self]
  cases hresult : Fireblocks.sendTransaction host.errorMessage (polls ++ [p]) with
  | some result => exact ⟨⟨_, put_self .., .inr ⟨result, rfl⟩⟩, Nat.zero_le _⟩
  | none =>
    have hwaiting := waiting_of_sendTransaction_none hpolls hresult
    refine ⟨⟨_, put_self .., .inl ⟨_, rfl, hwaiting⟩⟩, ?_⟩
    cases p with
    | ok r =>
      have hopen := hwaiting.1.1 r (by simp)
      exact absurd hopen (hp r rfl)
    | error e =>
      simp only [Stage.pollsLeft, List.countP_append, countP_isError_error, List.countP_nil]
      omega

theorem settling_step (host : Host E Signature) (h : s.Settling call object signers id)
    (hdecided : s.Decided id) (e : Event E) :
    (s.step host e).Settling call object signers id ∧
      (s.step host e).pollsLeft call ≤
        s.pollsLeft call - if e.isPollOf call then 1 else 0 := by
  by_cases he : e.isPollOf call = true
  · obtain ⟨stage, hcall, hstage⟩ := h
    cases e with
    | polled call' error =>
      obtain rfl : call' = call := by simpa [Event.isPollOf] using he
      rcases hstage with ⟨polls, rfl, hpolls⟩ | ⟨result, rfl⟩
      · obtain ⟨r, hr, hsaid⟩ := hdecided
        have hleft : s.pollsLeft call' = maxRetries + 1 - polls.countP isError := by
          rw [pollsLeft, hcall]
          rfl
        rw [hleft, if_pos he]
        cases error with
        | some e =>
          simp only [step, hcall]
          exact poll_settling hpolls (by simp)
        | none =>
          simp only [step, hcall, hr]
          refine poll_settling hpolls ?_
          intro r' hr'
          obtain rfl := Except.ok.inj hr'
          exact checkStatus_of_decided hsaid
      · have hsame : s.step host (.polled call' error) = s := by
          simp only [step, hcall]
        rw [hsame, pollsLeft, hcall]
        exact ⟨⟨_, hcall, .inr ⟨result, rfl⟩⟩, Nat.zero_le _⟩
    | _ => cases he
  · have hfalse := Bool.eq_false_iff.mpr he
    have hcalls := calls_of_moves h hfalse (step_moves host s e)
    rw [hfalse, pollsLeft, pollsLeft, hcalls]
    refine ⟨?_, by simp⟩
    obtain ⟨stage, hcall, hstage⟩ := h
    exact ⟨stage, hcalls.trans hcall, hstage⟩

/-- Once Fireblocks has decided about the transaction of a call, the call is over after at most
four more answers to its polls, errors included, whatever else happens between them. -/
theorem settles_after_decision (host : Host E Signature) (settings : Settings)
    (objects : ℕ → TransactionObject Signature) {es fs : List (Event E)}
    {polls : List (Except E TransactionResponse)}
    (hpolling : (run (step host) (start settings objects) es).calls call =
      some ⟨object, signers, .polling id polls⟩)
    (hdecided : EveryStep (step host) (fun s _ => s.Decided id)
      (run (step host) (start settings objects) es) fs)
    (hpolls : 4 ≤ fs.countP (·.isPollOf call)) :
    ∃ result, (run (step host) (start settings objects) (es ++ fs)).calls call =
      some ⟨object, signers, .settled result⟩ := by
  have hkeep : ∀ (s : Session E Signature) (e : Event E), s.PollsOn → (s.step host e).PollsOn :=
    fun s e h => pollsOn_moves h (step_moves host s e)
  have hstart : (start settings objects : Session E Signature).PollsOn := by
    intro call object signers id polls hcall
    cases hcall
  have hwaiting := (everyState_of_all hkeep es hstart).last call object signers id polls hpolling
  have hsettling : (run (step host) (start settings objects) es).Settling call object signers id :=
    ⟨_, hpolling, .inl ⟨polls, rfl, hwaiting⟩⟩
  have hstep : ∀ (s : Session E Signature) (e : Event E), s.Settling call object signers id →
      s.Decided id → (s.step host e).Settling call object signers id ∧
        (s.step host e).pollsLeft call ≤ s.pollsLeft call - if e.isPollOf call then 1 else 0 :=
    fun s e h hd => settling_step host h hd e
  have hlast : (run (step host) (run (step host) (start settings objects) es) fs).Settling call
      object signers id :=
    (everyState_of_step (fun s e h hd => (hstep s e h hd).1) hsettling hdecided).last
  have hrank := rank_run_le (pollsLeft · call) (·.isPollOf call) hstep hsettling hdecided
  have hfirst : (run (step host) (start settings objects) es).pollsLeft call ≤ 4 := by
    rw [pollsLeft, hpolling]
    exact Nat.sub_le _ _
  rw [run_append]
  obtain ⟨stage, hcall, ⟨polls', rfl, hpolls'⟩ | ⟨result, rfl⟩⟩ := hlast
  · -- The loop would have thrown at the fourth error.
    have hleft : (run (step host) (run (step host) (start settings objects) es) fs).pollsLeft call =
        maxRetries + 1 - polls'.countP isError := by
      rw [pollsLeft, hcall]
      rfl
    have hcount : polls'.countP isError ≤ maxRetries := hpolls'.1.2
    omega
  · exact ⟨result, hcall⟩

/-- The transaction is completed, and three answers to the polls are lost. -/
def completedRun : List (Event String) :=
  [.sendTransaction 0 0 [], .blockhash 0 (.ok "first"), .take 0 "id" (.other "SUBMITTED"),
    .created 0 (.ok "id"), .polled 0 none, .advance "id" .completed "" (some "hash")]

def lostPolls : List (Event String) :=
  [.polled 0 (some "timeout"), .polled 0 (some "timeout"), .polled 0 (some "timeout"),
    .polled 0 none]

theorem settles_after_decision_completedRun :
    ∃ result, (run (step soloHost) (start ⟨"", none, .medium⟩ blankObjects)
      (completedRun ++ lostPolls)).calls 0 = some ⟨0, [], .settled result⟩ := by
  have hpolling : (run (step soloHost) (start ⟨"", none, .medium⟩ blankObjects)
      completedRun).calls 0 =
        some ⟨0, [], .polling "id" [.ok ⟨"id", .other "SUBMITTED", "", none⟩]⟩ := by
    decide
  refine settles_after_decision soloHost ⟨"", none, .medium⟩ blankObjects hpolling ?_ (by decide)
  have hcompleted : TransactionStatus.completed ∈
      [.completed, .broadcasting, .blocked, .cancelled, .failed, .rejected] := by
    decide
  exact ⟨⟨_, rfl, hcompleted⟩, ⟨_, rfl, hcompleted⟩, ⟨_, rfl, hcompleted⟩, ⟨_, rfl, hcompleted⟩,
    trivial⟩

end Session
end SolanaSample.Fireblocks
