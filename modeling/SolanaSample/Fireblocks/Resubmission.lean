import SolanaSample.Fireblocks.Handover

/-! Transactions that are sent again. An object keeps the message that its first call has given
it, unless two calls wait for a blockhash for it at once; then the later one writes over what the
other has signed and handed over. -/
namespace SolanaSample.Fireblocks
open EventRun Slots

variable {E Signature : Type} {host : Host E Signature}

namespace TransactionObject

/-- All signatures that are serialised are of its own message. -/
def Signed (host : Host E Signature) (t : TransactionObject Signature) : Prop :=
  ∀ key signature, (key, some signature) ∈ host.slots t → signature = host.signature t key

def Unsigned (t : TransactionObject Signature) : Prop := ∀ key signature, ¬ t.Carries key signature

/-- Nothing is signed before there is a blockhash. -/
structure WellSigned (host : Host E Signature) (t : TransactionObject Signature) : Prop where
  signed : t.Signed host
  unsigned : t.message.recentBlockhash = "" → t.Unsigned

/-- A signature that is made is of the message. -/
theorem Signed.signBy (hhost : host.Lawful) {t t' : TransactionObject Signature} {signer : Pubkey}
    (h : t.Signed host) (hsign : host.signBy signer t = .ok t') : t'.Signed host := by
  intro key signature hmem
  rw [hhost.signBy_slots hsign] at hmem
  rw [hhost.signBy_signature hsign]
  rcases mem_fill hmem with hold | hnew
  · exact h key signature hold
  · obtain ⟨rfl, hvalue⟩ := Prod.mk.inj hnew
    exact Option.some.inj hvalue

theorem Signed.signedBy (hhost : host.Lawful) {t : TransactionObject Signature}
    (h : t.Signed host) (signers : List Pubkey) : (host.signedBy signers t).Signed host :=
  Web3.signLoop_induct (fun _ _ _ hsigned hsign => hsigned.signBy hhost hsign) signers h

theorem Unsigned.signed (hhost : host.Lawful) {t : TransactionObject Signature}
    (h : t.Unsigned) : t.Signed host :=
  fun key signature hmem => absurd (hhost.slots_carried hmem) (h key signature)

theorem Unsigned.assign {t : TransactionObject Signature} (h : t.Unsigned) (account : Pubkey)
    (blockhash : String) : (t.assign account blockhash).Unsigned := by
  cases t with
  | transaction tx signatures => exact h
  | versionedTransaction m signatures => exact h

/-- An object that has a blockhash may be signed. -/
theorem wellSigned_of_signed {t : TransactionObject Signature} (h : t.Signed host)
    (hpresent : t.message.recentBlockhash ≠ "") : t.WellSigned host :=
  ⟨h, fun hmissing => absurd hmissing hpresent⟩

end TransactionObject

namespace Session

variable {s s' : Session E Signature}

/-- No call begins with an object that another call still waits to prepare, and a blockhash is
not empty. -/
def Apart (s : Session E Signature) : Event E → Prop
  | .sendTransaction _ object _ =>
    ∀ call c, s.calls call = some c → c.stage = .preparing → c.object ≠ object
  | .blockhash _ (.ok blockhash) => blockhash ≠ ""
  | _ => True

/-- The payload is of the message `m`, and so are all signatures in it. -/
def OfMessage (host : Host E Signature) (m : Message) (payload : Payload) : Prop :=
  ∃ t, host.serialize t = .ok payload.programCallData ∧ t.message = m ∧ t.Signed host

/-- All payloads of calls with one object are of one message, which the object still has, and so
are the signatures in them. -/
def Agreeing (host : Host E Signature) (s : Session E Signature) : Prop :=
  ∀ x ∈ s.requests, ∃ c, s.calls x.call = some c ∧
    OfMessage host (s.objects c.object).message x.payload

/-- The invariant: an object is prepared by one call at a time, and for good. -/
structure Settled (host : Host E Signature) (s : Session E Signature) : Prop where
  objects : ∀ object, (s.objects object).WellSigned host
  waiting : ∀ call c, s.calls call = some c → c.stage = .preparing →
    (s.objects c.object).message.recentBlockhash = ""
  alone : ∀ call call' c c', s.calls call = some c → s.calls call' = some c' →
    c.stage = .preparing → c'.stage = .preparing → c.object = c'.object → call = call'
  own : ∀ x ∈ s.requests, ∃ c, s.calls x.call = some c ∧ c.stage ≠ .preparing ∧
    (s.objects c.object).message.recentBlockhash ≠ "" ∧
    OfMessage host (s.objects c.object).message x.payload

theorem Settled.agreeing (h : s.Settled host) : s.Agreeing host := by
  intro x hx
  obtain ⟨c, hc, -, -, hover⟩ := h.own x hx
  exact ⟨c, hc, hover⟩

theorem settled_start (settings : Settings) {objects : ℕ → TransactionObject Signature}
    (h : ∀ object, (objects object).WellSigned host) :
    (start settings objects : Session E Signature).Settled host where
  objects := h
  waiting := by
    intro call c hc
    cases hc
  alone := by
    intro call call' c c' hc
    cases hc
  own := fun x hx => absurd hx List.not_mem_nil

/-- A call gets to a stage at which it does not wait for a blockhash. -/
theorem Settled.put (h : s.Settled host) {call : ℕ} {c : SendCall E}
    (hobject : ∀ c₀, s.calls call = some c₀ → c₀.object = c.object)
    (hstage : c.stage ≠ .preparing) : (s.put call c).Settled host where
  objects := h.objects
  waiting := by
    intro call' c' hc' hpreparing
    by_cases hcall : call' = call
    · rw [hcall, put_self] at hc'
      obtain rfl := Option.some.inj hc'
      exact absurd hpreparing hstage
    · rw [put_of_ne hcall] at hc'
      exact h.waiting call' c' hc' hpreparing
  alone := by
    intro call₁ call₂ c₁ c₂ hc₁ hc₂ hp₁ hp₂ he
    by_cases h₁ : call₁ = call
    · rw [h₁, put_self] at hc₁
      obtain rfl := Option.some.inj hc₁
      exact absurd hp₁ hstage
    · by_cases h₂ : call₂ = call
      · rw [h₂, put_self] at hc₂
        obtain rfl := Option.some.inj hc₂
        exact absurd hp₂ hstage
      · rw [put_of_ne h₁] at hc₁
        rw [put_of_ne h₂] at hc₂
        exact h.alone call₁ call₂ c₁ c₂ hc₁ hc₂ hp₁ hp₂ he
  own := by
    intro x hx
    obtain ⟨c₀, hc₀, hne, hover⟩ := h.own x hx
    by_cases hcall : x.call = call
    · rw [hcall] at hc₀ ⊢
      rw [hobject c₀ hc₀] at hover
      exact ⟨c, put_self .., hstage, hover⟩
    · exact ⟨c₀, by rw [put_of_ne hcall, hc₀], hne, hover⟩

/-- A call begins to wait for a blockhash. -/
theorem Settled.begin (h : s.Settled host) {call object : ℕ} {signers : List Pubkey}
    (hcall : s.calls call = none) (hmissing : (s.objects object).message.recentBlockhash = "")
    (hapart : ∀ call' c, s.calls call' = some c → c.stage = .preparing → c.object ≠ object) :
    (s.put call ⟨object, signers, .preparing⟩).Settled host where
  objects := h.objects
  waiting := by
    intro call' c' hc' hpreparing
    by_cases he : call' = call
    · rw [he, put_self] at hc'
      obtain rfl := Option.some.inj hc'
      exact hmissing
    · rw [put_of_ne he] at hc'
      exact h.waiting call' c' hc' hpreparing
  alone := by
    intro call₁ call₂ c₁ c₂ hc₁ hc₂ hp₁ hp₂ he
    by_cases h₁ : call₁ = call
    · by_cases h₂ : call₂ = call
      · rw [h₁, h₂]
      · rw [h₁, put_self] at hc₁
        rw [put_of_ne h₂] at hc₂
        obtain rfl := Option.some.inj hc₁
        exact absurd he.symm (hapart call₂ c₂ hc₂ hp₂)
    · rw [put_of_ne h₁] at hc₁
      by_cases h₂ : call₂ = call
      · rw [h₂, put_self] at hc₂
        obtain rfl := Option.some.inj hc₂
        exact absurd he (hapart call₁ c₁ hc₁ hp₁)
      · rw [put_of_ne h₂] at hc₂
        exact h.alone call₁ call₂ c₁ c₂ hc₁ hc₂ hp₁ hp₂ he
  own := by
    intro x hx
    obtain ⟨c₀, hc₀, hover⟩ := h.own x hx
    have hne : x.call ≠ call := by
      intro he
      rw [he, hcall] at hc₀
      cases hc₀
    exact ⟨c₀, by rw [put_of_ne hne, hc₀], hover⟩

/-- An object is written that no call waits with: it keeps its message or gets its first. -/
theorem Settled.write (h : s.Settled host) {object : ℕ} {t : TransactionObject Signature}
    (hidle : ∀ call c, s.calls call = some c → c.stage = .preparing → c.object ≠ object)
    (ht : t.Signed host) (hpresent : t.message.recentBlockhash ≠ "")
    (hkept : t.message = (s.objects object).message ∨
      (s.objects object).message.recentBlockhash = "") : (s.write object t).Settled host where
  objects := by
    intro object'
    by_cases ho : object' = object
    · rw [ho, write_self]
      exact TransactionObject.wellSigned_of_signed ht hpresent
    · rw [write_of_ne ho]
      exact h.objects object'
  waiting := by
    intro call c hc hpreparing
    rw [write_of_ne (hidle call c hc hpreparing)]
    exact h.waiting call c hc hpreparing
  alone := h.alone
  own := by
    intro x hx
    obtain ⟨c, hc, hne, hblockhash, hover⟩ := h.own x hx
    refine ⟨c, hc, hne, ?_⟩
    by_cases ho : c.object = object
    · rw [ho, write_self]
      rw [ho] at hblockhash hover
      rcases hkept with hsame | hmissing
      · rw [hsame]
        exact ⟨hblockhash, hover⟩
      · exact absurd hmissing hblockhash
    · rw [write_of_ne ho]
      exact ⟨hblockhash, hover⟩

/-- A payload is on its way. -/
theorem Settled.push (h : s.Settled host) {request : Request} {c : SendCall E}
    (hc : s.calls request.call = some c) (hne : c.stage ≠ .preparing)
    (hpresent : (s.objects c.object).message.recentBlockhash ≠ "")
    (hover : OfMessage host (s.objects c.object).message request.payload) :
    ({ s with requests := s.requests ++ [request] } : Session E Signature).Settled host where
  objects := h.objects
  waiting := h.waiting
  alone := h.alone
  own := by
    intro x hx
    rcases List.mem_append.mp hx with hx | hx
    · exact h.own x hx
    · obtain rfl := List.mem_singleton.mp hx
      exact ⟨c, hc, hne, hpresent, hover⟩

theorem Settled.leaves (h : s.Settled host) {call object : ℕ} {signers : List Pubkey}
    {t : TransactionObject Signature} (hcall : ∀ c, s.calls call = some c → c.object = object)
    (hidle : ∀ call' c, call' ≠ call → s.calls call' = some c → c.stage = .preparing →
      c.object ≠ object)
    (ht : t.Signed host) (hpresent : t.message.recentBlockhash ≠ "")
    (hkept : t.message = (s.objects object).message ∨
      (s.objects object).message.recentBlockhash = "")
    (hleaves : s.Leaves host call object signers t s') : s'.Settled host := by
  -- The call gets to its next stage before it writes its object, which is no longer waited with.
  have hboth : ∀ stage : Stage E, stage ≠ .preparing →
      ((s.put call ⟨object, signers, stage⟩).write object t).Settled host := by
    intro stage hstage
    refine (h.put hcall hstage).write ?_ ht hpresent hkept
    intro call' c hc hpreparing
    by_cases he : call' = call
    · rw [he, put_self] at hc
      obtain rfl := Option.some.inj hc
      exact absurd hpreparing hstage
    · rw [put_of_ne he] at hc
      exact hidle call' c he hc hpreparing
  rcases hleaves with ⟨text, rfl⟩ | ⟨programCallData, hdata, rfl⟩
  · exact hboth _ (by simp)
  · have hmessage : (((s.put call ⟨object, signers, .submitting⟩).write object t).objects
        object).message = t.message := by
      rw [write_self]
    refine (hboth .submitting (by simp)).push (put_self ..) (by simp) ?_ ?_
    · rw [hmessage]
      exact hpresent
    · exact ⟨t, hdata, hmessage.symm, ht⟩

theorem settled_moves (hhost : host.Lawful) {e : Event E} (h : s.Settled host)
    (hapart : s.Apart e) (hmoves : s.Moves host e s') : s'.Settled host := by
  cases hmoves with
  | stay => exact h
  | set settings => exact ⟨h.objects, h.waiting, h.alone, h.own⟩
  | begin hcall hmissing => exact h.begin hcall hmissing hapart
  | @leave call object signers s' hcall hpresent hleaves =>
    have hmessage := hhost.message_signedBy signers (s.objects object)
    have hsigned := (h.objects object).signed.signedBy hhost signers
    refine h.leaves (of_no_call hcall) ?_ hsigned ?_ (.inl hmessage) hleaves
    · intro call' c _ hc hpreparing ho
      have hmissing := h.waiting call' c hc hpreparing
      rw [ho] at hmissing
      exact hpresent hmissing
    · rw [hmessage]
      exact hpresent
  | @resume call object signers blockhash t s' hcall ht hleaves =>
    have hmissing : (s.objects object).message.recentBlockhash = "" :=
      h.waiting call _ hcall rfl
    have hunsigned := (h.objects object).unsigned hmissing
    have hassigned : ((s.objects object).assign host.account blockhash).Signed host :=
      (hunsigned.assign host.account blockhash).signed hhost
    have hblockhash : t.message.recentBlockhash = blockhash := by
      rcases ht with rfl | rfl
      · simp
      · simp [hhost.message_signedBy]
    refine h.leaves (of_call hcall rfl) ?_ ?_ ?_ (.inr hmissing) hleaves
    · intro call' c hne hc hpreparing ho
      exact hne (h.alone call' call c _ hc hcall hpreparing rfl ho)
    · rcases ht with rfl | rfl
      · exact hassigned
      · exact hassigned.signedBy hhost signers
    · rw [hblockhash]
      exact hapart
  | throw text hcall hstage => exact h.put (of_call hcall rfl) (by simp)
  | created hcall => exact h.put (of_call hcall rfl) (by simp)
  | polled p hcall hp =>
    refine h.put (of_call hcall rfl) ?_
    simp only
    split <;> simp
  | take hrequest => exact ⟨h.objects, h.waiting, h.alone, h.own⟩
  | advance id status subStatus txHash => exact ⟨h.objects, h.waiting, h.alone, h.own⟩

/-- In every interleaving in which no call begins with an object that another call still waits to
prepare, all calls with one object submit the same message, with signatures of no other. So what is
sent again is the same transaction, and what was signed stays signed. -/
theorem resubmissions_agree (hhost : host.Lawful) (settings : Settings)
    {objects : ℕ → TransactionObject Signature}
    (hobjects : ∀ object, (objects object).WellSigned host) {es : List (Event E)}
    (hapart : EveryStep (step host) Apart (start settings objects) es) :
    EveryState (step host) (Agreeing host) (start settings objects) es := by
  have hstep : ∀ (s : Session E Signature) (e : Event E), s.Settled host → s.Apart e →
      (s.step host e).Settled host :=
    fun s e h he => settled_moves hhost h he (step_moves host s e)
  exact (everyState_of_step hstep (settled_start settings hobjects) hapart).mono
    fun s h => h.agreeing

theorem resubmissions_agree_lostAnswerRun :
    EveryState (step soloHost) (Agreeing soloHost) (start ⟨"", none, .medium⟩ blankObjects)
      lostAnswerRun := by
  refine resubmissions_agree soloHost_lawful ⟨"", none, .medium⟩ ?_ ?_
  · intro object
    have hunsigned : (blankObjects object).Unsigned := nofun
    exact ⟨hunsigned.signed soloHost_lawful, fun _ => hunsigned⟩
  · have hblockhash : "first" ≠ "" := by decide
    refine ⟨?_, hblockhash, trivial, trivial, ?_, trivial⟩
    · intro call c hc
      cases hc
    · intro call c hc hpreparing
      cases call with
      | zero =>
        cases hc
        cases hpreparing
      | succ call => cases hc

/-- Both calls wait for a blockhash at once. -/
example : (run (step soloHost) (start ⟨"", none, .medium⟩ blankObjects)
    [.sendTransaction 0 0 [], .sendTransaction 1 0 [], .blockhash 0 (.ok "first"),
      .blockhash 1 (.ok "second")]).requests.map (·.payload.programCallData) =
    ["first", "second"] := by decide

end Session
end SolanaSample.Fireblocks
