import SolanaSample.Fireblocks.Polling
import SolanaSample.Fireblocks.SoloHost
import Mathlib.Data.List.Nodup

/-! What a session of calls hands over to Fireblocks, and what a resolved call says about it. -/
namespace SolanaSample.Fireblocks
open EventRun

variable {E Signature : Type} {host : Host E Signature}

/-- The message asks for what the other one did: it is the same, or it is the other one with the
blockhash that it lacked and the account as its fee payer. -/
def Message.DerivedFrom (account : Pubkey) (m₀ m : Message) : Prop :=
  m = m₀ ∨ m₀.recentBlockhash = "" ∧ ∃ blockhash, m = m₀.assign account blockhash

theorem Message.DerivedFrom.assign {account : Pubkey} {m₀ m : Message}
    (h : m₀.DerivedFrom account m) (hmissing : m₀.recentBlockhash = "") (blockhash : String) :
    m₀.DerivedFrom account (m.assign account blockhash) := by
  right
  refine ⟨hmissing, blockhash, ?_⟩
  rcases h with rfl | ⟨-, blockhash', rfl⟩
  · rfl
  · exact Message.assign_assign ..

theorem Message.DerivedFrom.missing {account : Pubkey} {m₀ m : Message}
    (h : m₀.DerivedFrom account m) (hmissing : m.recentBlockhash = "") :
    m₀.recentBlockhash = "" := by
  rcases h with rfl | ⟨h₀, -⟩
  · exact hmissing
  · exact h₀

namespace Session

variable {objects : ℕ → TransactionObject Signature} {s s' : Session E Signature}

/-- The payload is of a transaction that asks for what `m₀` did. -/
def HandsOver (host : Host E Signature) (m₀ : Message) (payload : Payload) : Prop :=
  ∃ t, host.serialize t = .ok payload.programCallData ∧ m₀.DerivedFrom host.account t.message

/-- Fireblocks has said of a transaction that it has made for this call that it is completed or
broadcast, under this hash. -/
def Reported (s : Session E Signature) (call : ℕ) (txHash : String) : Prop :=
  ∃ x ∈ s.table, x.call = call ∧ ∃ r ∈ x.responses,
    (r.status = .completed ∨ r.status = .broadcasting) ∧ r.txHash = some txHash ∧ txHash ≠ ""

/-- No call submits twice, each submits its own transaction, and those that resolve do so with what
Fireblocks has said of that. -/
structure Sound (host : Host E Signature) (objects : ℕ → TransactionObject Signature)
    (s : Session E Signature) : Prop where
  once : (s.requests.map (·.call)).Nodup
  own : ∀ x ∈ s.requests, ∃ c, s.calls x.call = some c ∧
    HandsOver host (objects c.object).message x.payload
  resolved : ∀ call c txHash, s.calls call = some c → c.stage = .settled (.ok txHash) →
    s.Reported call txHash

/-- The answers a call has had are of its own transaction. -/
def Answered (s : Session E Signature) (call : ℕ) (id : String)
    (polls : List (Except E TransactionResponse)) : Prop :=
  ∃ x ∈ s.table, x.id = id ∧ x.call = call ∧ ∀ r, .ok r ∈ polls → r ∈ x.responses

/-- What holds of the stage of a call. -/
def Founded (objects : ℕ → TransactionObject Signature) (s : Session E Signature) (call : ℕ)
    (c : SendCall E) : Prop :=
  match c.stage with
  | .preparing => (objects c.object).message.recentBlockhash = ""
  | .submitting => True
  | .polling id polls => s.Answered call id polls
  | .settled (.ok txHash) => s.Reported call txHash
  | .settled (.error _) => True

/-- The invariant. -/
structure Accounted (host : Host E Signature) (objects : ℕ → TransactionObject Signature)
    (s : Session E Signature) : Prop where
  once : (s.requests.map (·.call)).Nodup
  own : ∀ x ∈ s.requests, ∃ c, s.calls x.call = some c ∧ c.stage ≠ .preparing ∧
    HandsOver host (objects c.object).message x.payload
  derived : ∀ object,
    (objects object).message.DerivedFrom host.account (s.objects object).message
  ids : (s.table.map (·.id)).Nodup
  founded : ∀ call c, s.calls call = some c → s.Founded objects call c

theorem Accounted.sound (h : s.Accounted host objects) : s.Sound host objects where
  once := h.once
  own := by
    intro x hx
    obtain ⟨c, hc, -, hover⟩ := h.own x hx
    exact ⟨c, hc, hover⟩
  resolved := by
    intro call c txHash hc hstage
    have hfounded := h.founded call c hc
    rwa [Founded, hstage] at hfounded

theorem accounted_start (host : Host E Signature) (settings : Settings)
    (objects : ℕ → TransactionObject Signature) :
    (start settings objects : Session E Signature).Accounted host objects where
  once := List.nodup_nil
  own := fun x hx => absurd hx List.not_mem_nil
  derived := fun object => .inl rfl
  ids := List.nodup_nil
  founded := by
    intro call c hc
    cases hc

/-! Fireblocks forgets nothing. -/

/-- The transactions of `s` are still there, with all that was said of them. -/
def TableKept (s s' : Session E Signature) : Prop :=
  ∀ x ∈ s.table, ∃ x' ∈ s'.table, x'.id = x.id ∧ x'.call = x.call ∧
    ∀ r ∈ x.responses, r ∈ x'.responses

theorem Answered.mono {call : ℕ} {id : String} {polls : List (Except E TransactionResponse)}
    (h : s.Answered call id polls) (hkept : s.TableKept s') : s'.Answered call id polls := by
  obtain ⟨x, hx, hid, hcall, hpolls⟩ := h
  obtain ⟨x', hx', hid', hcall', hresponses⟩ := hkept x hx
  exact ⟨x', hx', hid'.trans hid, hcall'.trans hcall, fun r hr => hresponses r (hpolls r hr)⟩

theorem Reported.mono {call : ℕ} {txHash : String} (h : s.Reported call txHash)
    (hkept : s.TableKept s') : s'.Reported call txHash := by
  obtain ⟨x, hx, hcall, r, hr, hsaid⟩ := h
  obtain ⟨x', hx', -, hcall', hresponses⟩ := hkept x hx
  exact ⟨x', hx', hcall'.trans hcall, r, hresponses r hr, hsaid⟩

theorem Founded.mono {call : ℕ} {c : SendCall E} (h : s.Founded objects call c)
    (hkept : s.TableKept s') : s'.Founded objects call c := by
  obtain ⟨object, signers, stage⟩ := c
  cases stage with
  | preparing => exact h
  | submitting => trivial
  | polling id polls => exact Answered.mono h hkept
  | settled result =>
    cases result with
    | error text => trivial
    | ok txHash => exact Reported.mono h hkept

/-! What each step does to the invariant. -/

theorem Accounted.write (h : s.Accounted host objects) (object : ℕ)
    {t : TransactionObject Signature}
    (ht : (objects object).message.DerivedFrom host.account t.message) :
    (s.write object t).Accounted host objects where
  once := h.once
  own := h.own
  derived := by
    intro object'
    by_cases ho : object' = object
    · subst ho
      rwa [write_self]
    · rw [write_of_ne ho]
      exact h.derived object'
  ids := h.ids
  founded := h.founded

/-- A call gets to another stage. What it has handed over, it has handed over before. -/
theorem Accounted.put (h : s.Accounted host objects) {call : ℕ} {c : SendCall E}
    (hobject : ∀ c₀, s.calls call = some c₀ → c₀.object = c.object)
    (hstage : c.stage = .preparing → s.calls call = none)
    (hfounded : s.Founded objects call c) : (s.put call c).Accounted host objects where
  once := h.once
  own := by
    intro x hx
    obtain ⟨c₀, hc₀, hne, hover⟩ := h.own x hx
    by_cases hcall : x.call = call
    · rw [hcall] at hc₀ ⊢
      rw [hobject c₀ hc₀] at hover
      refine ⟨c, put_self .., ?_, hover⟩
      intro hpreparing
      rw [hstage hpreparing] at hc₀
      cases hc₀
    · exact ⟨c₀, by rw [put_of_ne hcall, hc₀], hne, hover⟩
  derived := h.derived
  ids := h.ids
  founded := by
    intro call' c' hc'
    by_cases hcall : call' = call
    · subst hcall
      rw [put_self] at hc'
      obtain rfl := Option.some.inj hc'
      exact hfounded
    · rw [put_of_ne hcall] at hc'
      exact h.founded call' c' hc'

/-- The call has submitted nothing yet. -/
theorem Accounted.notMem (h : s.Accounted host objects) {call : ℕ}
    (hfree : ∀ c, s.calls call = some c → c.stage = .preparing) :
    call ∉ s.requests.map (·.call) := by
  intro hmem
  obtain ⟨x, hx, rfl⟩ := List.mem_map.mp hmem
  obtain ⟨c, hc, hne, -⟩ := h.own x hx
  exact hne (hfree c hc)

/-- The only step that submits something. -/
theorem Accounted.request (h : s.Accounted host objects) {call object : ℕ} {signers : List Pubkey}
    {programCallData : String}
    (hfree : ∀ c, s.calls call = some c → c.object = object ∧ c.stage = .preparing)
    (hover : HandsOver host (objects object).message ⟨programCallData, s.settings.payload⟩) :
    (s.request call object signers programCallData).Accounted host objects := by
  have hput : (s.put call ⟨object, signers, .submitting⟩).Accounted host objects := by
    refine h.put (fun c₀ hc₀ => (hfree c₀ hc₀).1) ?_ trivial
    intro hpreparing
    cases hpreparing
  refine ⟨?_, ?_, h.derived, h.ids, hput.founded⟩
  · have hnotMem := h.notMem fun c hc => (hfree c hc).2
    rw [Session.request, List.map_append, List.map_cons, List.map_nil, ← List.concat_eq_append]
    exact h.once.concat hnotMem
  · intro x hx
    rcases List.mem_append.mp hx with hx | hx
    · exact hput.own x hx
    · obtain rfl := List.mem_singleton.mp hx
      refine ⟨⟨object, signers, .submitting⟩, Function.update_self .., ?_, hover⟩
      intro hpreparing
      cases hpreparing

theorem Accounted.throw (h : s.Accounted host objects) {call object : ℕ} (signers : List Pubkey)
    (text : String) (hobject : ∀ c, s.calls call = some c → c.object = object) :
    (s.throw call object signers text).Accounted host objects := by
  refine h.put hobject ?_ trivial
  intro hpreparing
  cases hpreparing

theorem Accounted.leaves (h : s.Accounted host objects) {call object : ℕ} {signers : List Pubkey}
    {t : TransactionObject Signature}
    (hfree : ∀ c, s.calls call = some c → c.object = object ∧ c.stage = .preparing)
    (ht : (objects object).message.DerivedFrom host.account t.message)
    (hleaves : s.Leaves host call object signers t s') : s'.Accounted host objects := by
  have hwrite := h.write object ht
  rcases hleaves with ⟨text, rfl⟩ | ⟨programCallData, hdata, rfl⟩
  · exact hwrite.throw signers text fun c hc => (hfree c hc).1
  · exact hwrite.request hfree ⟨t, hdata, ht⟩

/-- An answer is of the transaction that was asked for. -/
theorem Accounted.answered (h : s.Accounted host objects) {call : ℕ} {id : String}
    {polls : List (Except E TransactionResponse)} (hpolls : s.Answered call id polls)
    {p : Except E TransactionResponse} (hp : ∀ r, p = .ok r → s.answer id = some r) :
    s.Answered call id (polls ++ [p]) := by
  obtain ⟨x, hx, hid, hcall, hold⟩ := hpolls
  refine ⟨x, hx, hid, hcall, ?_⟩
  intro r hr
  rcases List.mem_append.mp hr with hr | hr
  · exact hold r hr
  · obtain ⟨x', hx', hhead⟩ := Option.bind_eq_some_iff.mp (hp r (List.mem_singleton.mp hr).symm)
    have hid' : x'.id = id := by simpa using List.find?_some hx'
    have hsame : x' = x :=
      List.inj_on_of_nodup_map h.ids (List.mem_of_find?_eq_some hx') hx (hid'.trans hid.symm)
    subst hsame
    exact List.mem_of_mem_head? hhead

/-- A call that resolves has been told so. -/
theorem Answered.reported {call : ℕ} {id : String} {polls : List (Except E TransactionResponse)}
    (h : s.Answered call id polls) {txHash : String}
    (hresult : Fireblocks.sendTransaction host.errorMessage polls = some (.ok txHash)) :
    s.Reported call txHash := by
  obtain ⟨x, hx, -, hcall, hpolls⟩ := h
  obtain ⟨r, post, hwait, hhash, hne⟩ := sendTransaction_eq_ok_iff.mp hresult
  obtain ⟨pre, rfl, -, haccepted⟩ := waitForSignature_eq_ok_iff.mp hwait
  exact ⟨x, hx, hcall, r, hpolls r (by simp), mem_acceptedStatuses.mp haccepted, hhash, hne⟩

theorem Accounted.poll (h : s.Accounted host objects) {call object : ℕ} {signers : List Pubkey}
    {id : String} {polls : List (Except E TransactionResponse)}
    {p : Except E TransactionResponse}
    (hcall : s.calls call = some ⟨object, signers, .polling id polls⟩)
    (hp : ∀ r, p = .ok r → s.answer id = some r) :
    (s.poll host call ⟨object, signers, .polling id polls⟩ id (polls ++ [p])).Accounted host
      objects := by
  have hpolls : s.Answered call id polls := h.founded call _ hcall
  have hnew := h.answered hpolls hp
  have hobject : ∀ c₀, s.calls call = some c₀ → c₀.object = object := of_call hcall rfl
  rw [Session.poll]
  cases hresult : Fireblocks.sendTransaction host.errorMessage (polls ++ [p]) with
  | none =>
    refine h.put hobject ?_ hnew
    intro hpreparing
    cases hpreparing
  | some result =>
    refine h.put hobject ?_ ?_
    · intro hpreparing
      cases hpreparing
    · cases result with
      | error text => trivial
      | ok txHash => exact hnew.reported hresult

theorem Accounted.accept (h : s.Accounted host objects) (request : Request) {id : String}
    (hid : ∀ x ∈ s.table, x.id ≠ id) (status : TransactionStatus) :
    (s.accept request id status).Accounted host objects := by
  refine ⟨h.once, h.own, h.derived, ?_, ?_⟩
  · have hnew : id ∉ s.table.map (·.id) := by
      intro hmem
      obtain ⟨x, hx, hxid⟩ := List.mem_map.mp hmem
      exact hid x hx hxid
    rw [Session.accept, List.map_append, List.map_cons, List.map_nil, ← List.concat_eq_append]
    exact h.ids.concat hnew
  · intro call' c hc
    apply (h.founded call' c hc).mono
    intro x hx
    exact ⟨x, List.mem_append_left _ hx, rfl, rfl, fun r hr => hr⟩

/-- What is said of a transaction does not change its id. -/
theorem report_ids (s : Session E Signature) (r : TransactionResponse) :
    (s.report r).table.map (·.id) = s.table.map (·.id) := by
  rw [report, List.map_map]
  apply List.map_congr_left
  intro x _
  rw [Function.comp_apply]
  split_ifs <;> rfl

theorem Accounted.report (h : s.Accounted host objects) (r : TransactionResponse) :
    (s.report r).Accounted host objects := by
  refine ⟨h.once, h.own, h.derived, ?_, ?_⟩
  · rw [report_ids]
    exact h.ids
  · intro call c hc
    apply (h.founded call c hc).mono
    intro x hx
    refine ⟨_, List.mem_map_of_mem hx, ?_⟩
    split_ifs
    · exact ⟨rfl, rfl, fun r' hr' => List.mem_cons_of_mem r hr'⟩
    · exact ⟨rfl, rfl, fun r' hr' => hr'⟩

theorem accounted_moves (hhost : host.Lawful) {e : Event E} (h : s.Accounted host objects)
    (htrue : s.Truthful e) (hmoves : s.Moves host e s') : s'.Accounted host objects := by
  cases hmoves with
  | stay => exact h
  | set settings => exact ⟨h.once, h.own, h.derived, h.ids, h.founded⟩
  | @begin call object signers hcall hmissing =>
    exact h.put (of_no_call hcall) (fun _ => hcall) ((h.derived object).missing hmissing)
  | @leave call object signers s' hcall hpresent hleaves =>
    refine h.leaves (of_no_call hcall) ?_ hleaves
    rw [hhost.message_signedBy]
    exact h.derived object
  | @resume call object signers blockhash t s' hcall ht hleaves =>
    have hmissing : (objects object).message.recentBlockhash = "" := h.founded call _ hcall
    have hassigned := (h.derived object).assign hmissing blockhash
    refine h.leaves (of_call hcall ⟨rfl, rfl⟩) ?_ hleaves
    rcases ht with rfl | rfl
    · rw [TransactionObject.message_assign]
      exact hassigned
    · rw [hhost.message_signedBy, TransactionObject.message_assign]
      exact hassigned
  | @throw e call object signers stage text hcall hstage =>
    exact h.throw signers text (of_call hcall rfl)
  | created hcall =>
    obtain ⟨x, hx, hid, hxcall⟩ := htrue
    refine h.put (of_call hcall rfl) ?_ ⟨x, hx, hid, hxcall, by simp⟩
    intro hpreparing
    cases hpreparing
  | polled p hcall hp => exact h.poll hcall hp
  | take hrequest => exact h.accept _ htrue _
  | advance id status subStatus txHash => exact h.report ⟨id, status, subStatus, txHash⟩

/-- In every interleaving of any number of calls, of the setters and of what Fireblocks does, each
call submits at most once and its own transaction, whatever objects the calls share, and a call
that resolves does so with the hash of a transaction that was made for it. -/
theorem handed_over_once (hhost : host.Lawful) (settings : Settings)
    (objects : ℕ → TransactionObject Signature) {es : List (Event E)}
    (htrue : EveryStep (step host) Truthful (start settings objects) es) :
    EveryState (step host) (Sound host objects) (start settings objects) es := by
  have hstep : ∀ (s : Session E Signature) (e : Event E), s.Accounted host objects →
      s.Truthful e → (s.step host e).Accounted host objects :=
    fun s e h he => accounted_moves hhost h he (step_moves host s e)
  exact (everyState_of_step hstep (accounted_start host settings objects) htrue).mono
    fun s h => h.sound

def blankObjects : ℕ → TransactionObject (Pubkey × Message) :=
  fun _ => .transaction ⟨none, "", []⟩ []

/-- The answer of Fireblocks is lost, and the transaction is sent again. -/
def lostAnswerRun : List (Event String) :=
  [.sendTransaction 0 0 [], .blockhash 0 (.ok "first"), .take 0 "id" (.other "SUBMITTED"),
    .created 0 (.error "timeout"), .sendTransaction 1 0 []]

/-- The second call is told of its own transaction. -/
def resentRun : List (Event String) :=
  lostAnswerRun ++ [.take 1 "again" (.other "SUBMITTED"), .created 1 (.ok "again"),
    .advance "again" .completed "" (some "hash"), .polled 1 none]

theorem handed_over_once_resentRun :
    EveryState (step soloHost) (Sound soloHost blankObjects)
      (start ⟨"", none, .medium⟩ blankObjects) resentRun := by
  apply handed_over_once soloHost_lawful
  have hnew : ∀ x ∈ (run (step soloHost) (start ⟨"", none, .medium⟩ blankObjects)
      lostAnswerRun).table, x.id ≠ "again" := by decide
  exact ⟨trivial, trivial, nofun, trivial, trivial, hnew, ⟨_, .tail _ (.head _), rfl, rfl⟩,
    trivial, trivial, trivial⟩

end Session
end SolanaSample.Fireblocks
