import SolanaSample.Fireblocks.Confirmation
import SolanaSample.Fireblocks.Message
import SolanaSample.Fireblocks.Settings
import SolanaSample.Fireblocks.Signers
import SolanaSample.Library.Run
import Mathlib.Logic.Function.Basic

/-! The calls of `sendTransaction` on one adapter, Fireblocks, and what is under way between
them. The calls may share transaction objects, which they write. -/
namespace SolanaSample.Fireblocks
open EventRun

/-! The writes behind `getLatestBlockhash`. That the blockhash is missing was found before it. -/

def LegacyTransaction.assign (account : Pubkey) (blockhash : String) (tx : LegacyTransaction) :
    LegacyTransaction :=
  { tx with recentBlockhash := blockhash, feePayer := some account }

def VersionedMessage.assign (account : Pubkey) (blockhash : String) (m : VersionedMessage) :
    VersionedMessage where
  header := m.header
  staticAccountKeys :=
    match m.staticAccountKeys with
    | [] => []
    | key :: keys => if key ≠ account then account :: keys else key :: keys
  recentBlockhash := blockhash
  compiledInstructions := m.compiledInstructions
  loadedAddresses := m.loadedAddresses

/-- The part of a transaction that is signed. -/
inductive Message where
  | legacy (tx : LegacyTransaction)
  | versioned (m : VersionedMessage)
  deriving DecidableEq

namespace Message

def recentBlockhash : Message → String
  | legacy tx => tx.recentBlockhash
  | versioned m => m.recentBlockhash

def assign (account : Pubkey) (blockhash : String) : Message → Message
  | legacy tx => legacy (tx.assign account blockhash)
  | versioned m => versioned (m.assign account blockhash)

/-- The key that the versioned branch reads is there. -/
def hasFirstKey : Message → Bool
  | legacy _ => true
  | versioned m => !m.staticAccountKeys.isEmpty

@[simp] theorem recentBlockhash_assign (account : Pubkey) (blockhash : String) (m : Message) :
    (m.assign account blockhash).recentBlockhash = blockhash := by
  cases m <;> rfl

/-- A second assignment replaces the first. -/
@[simp] theorem assign_assign (account : Pubkey) (blockhash blockhash' : String) (m : Message) :
    (m.assign account blockhash).assign account blockhash' = m.assign account blockhash' := by
  cases m with
  | legacy tx => rfl
  | versioned m =>
    simp only [assign, VersionedMessage.assign]
    cases m.staticAccountKeys with
    | nil => rfl
    | cons key keys =>
      by_cases hkey : key = account
      · simp [hkey]
      · simp [hkey]

theorem prepareLegacy_eq_assign (account : Pubkey) (blockhash : String) (tx : LegacyTransaction) :
    legacy (prepareLegacy account blockhash tx) =
      if tx.recentBlockhash = "" then (legacy tx).assign account blockhash else legacy tx := by
  unfold prepareLegacy
  split_ifs <;> rfl

theorem prepareVersioned_eq_assign (account : Pubkey) (blockhash : String) (m : VersionedMessage) :
    (prepareVersioned account blockhash m).map versioned =
      if m.recentBlockhash = "" then
        if (versioned m).hasFirstKey then some ((versioned m).assign account blockhash) else none
      else some (versioned m) := by
  unfold prepareVersioned
  split_ifs with hmissing hfirst
  · simp only [hasFirstKey] at hfirst
    cases hkeys : m.staticAccountKeys with
    | nil => simp [hkeys] at hfirst
    | cons key keys => simp [assign, VersionedMessage.assign, hkeys]
  · simp only [hasFirstKey] at hfirst
    cases hkeys : m.staticAccountKeys with
    | nil => rfl
    | cons key keys => simp [hkeys] at hfirst
  · rfl

end Message

/-- A transaction with its signatures. A legacy one notes the keys they are of, a versioned one
goes by the places of the keys in its message. -/
inductive TransactionObject (Signature : Type) where
  | transaction (tx : LegacyTransaction) (signatures : List (Pubkey × Option Signature))
  | versionedTransaction (message : VersionedMessage) (signatures : List (Option Signature))
  deriving DecidableEq

/-- The account of the adapter, and what it takes from web3.js. The text is that of the exception
for a versioned message without keys. -/
structure Host (E Signature : Type) extends Web3 (TransactionObject Signature) Signature where
  account : Pubkey
  errorMessage : E → String
  noFirstKey : String

variable {E Signature : Type} (host : Host E Signature)

namespace TransactionObject

def message : TransactionObject Signature → Message
  | transaction tx _ => .legacy tx
  | versionedTransaction m _ => .versioned m

def assign (account : Pubkey) (blockhash : String) :
    TransactionObject Signature → TransactionObject Signature
  | transaction tx signatures => transaction (tx.assign account blockhash) signatures
  | versionedTransaction m signatures =>
    versionedTransaction (m.assign account blockhash) signatures

/-- The signature is one of those that the transaction has. -/
def Carries (key : Pubkey) (signature : Signature) : TransactionObject Signature → Prop
  | transaction _ signatures => (key, some signature) ∈ signatures
  | versionedTransaction _ signatures => some signature ∈ signatures

end TransactionObject

/-- The documented behaviour of web3.js. -/
structure Host.Lawful (host : Host E Signature) : Prop extends host.toWeb3.Lawful where
  /-- Signing changes nothing but the signatures. -/
  signBy_message : ∀ {key t t'}, host.signBy key t = .ok t' → t'.message = t.message
  /-- No signature is serialised that the transaction does not have. -/
  slots_carried : ∀ {key signature t}, (key, some signature) ∈ host.slots t →
    t.Carries key signature

/-- What is submitted to Fireblocks: the serialised transaction and the settings. -/
structure Payload where
  programCallData : String
  settings : PayloadSettings
  deriving DecidableEq

/-- A payload that a call has submitted. -/
structure Request where
  call : ℕ
  payload : Payload
  deriving DecidableEq

/-- A transaction that Fireblocks has made of a payload, with all it has said about it, the newest
first. -/
structure FireblocksTransaction where
  id : String
  call : ℕ
  payload : Payload
  responses : List TransactionResponse
  deriving DecidableEq

/-- Where a call of `sendTransaction` is. -/
inductive Stage (E : Type) where
  /-- It awaits `getLatestBlockhash`. -/
  | preparing
  /-- It awaits `createTransaction`. -/
  | submitting
  /-- It awaits `getTransactionById`, and has had these answers. -/
  | polling (id : String) (polls : List (Except E TransactionResponse))
  | settled (result : Except String String)
  deriving DecidableEq

structure SendCall (E : Type) where
  object : ℕ
  signers : List Pubkey
  stage : Stage E
  deriving DecidableEq

/-- The requests are all that were ever made. -/
structure Session (E Signature : Type) where
  settings : Settings
  objects : ℕ → TransactionObject Signature
  calls : ℕ → Option (SendCall E)
  requests : List Request
  table : List FireblocksTransaction

/-- The setters, the calls, and the answers they get; what Fireblocks does. -/
inductive Event (E : Type) where
  | set (settings : Settings)
  | sendTransaction (call object : ℕ) (signers : List Pubkey)
  | blockhash (call : ℕ) (answer : Except E String)
  /-- The answer is an id. -/
  | created (call : ℕ) (answer : Except E String)
  /-- Without an error the answer is what Fireblocks has to say. -/
  | polled (call : ℕ) (error : Option E)
  /-- Fireblocks makes a transaction of the request of a call. Nothing is said about how often it
  does so. -/
  | take (call : ℕ) (id : String) (status : TransactionStatus)
  /-- A transaction gets on. -/
  | advance (id : String) (status : TransactionStatus) (subStatus : String)
      (txHash : Option String)

namespace Session

def start (settings : Settings) (objects : ℕ → TransactionObject Signature) :
    Session E Signature where
  settings := settings
  objects := objects
  calls := fun _ => none
  requests := []
  table := []

variable (s : Session E Signature)

def put (call : ℕ) (c : SendCall E) : Session E Signature :=
  { s with calls := Function.update s.calls call (some c) }

def write (object : ℕ) (t : TransactionObject Signature) : Session E Signature :=
  { s with objects := Function.update s.objects object t }

/-- The call throws. -/
def throw (call object : ℕ) (signers : List Pubkey) (text : String) : Session E Signature :=
  s.put call ⟨object, signers, .settled (.error ("Failed to send transaction: " ++ text))⟩

/-- The payload is under way to Fireblocks. -/
def request (call object : ℕ) (signers : List Pubkey) (programCallData : String) :
    Session E Signature :=
  { s.put call ⟨object, signers, .submitting⟩ with
    requests := s.requests ++ [⟨call, programCallData, s.settings.payload⟩] }

/-- `signWithFireblocks`, to its await. -/
def submit (call object : ℕ) (signers : List Pubkey) : Session E Signature :=
  match host.serialize (s.objects object) with
  | .error text =>
    s.throw call object signers ("Failed to sign transaction with Fireblocks: " ++ text)
  | .ok programCallData => s.request call object signers programCallData

/-- `sendTransaction` once the transaction has a blockhash. -/
def signAndSubmit (call object : ℕ) (signers : List Pubkey) : Session E Signature :=
  match host.signLoop host.account signers (s.objects object) with
  | (t, some text) => (s.write object t).throw call object signers text
  | (t, none) => (s.write object t).submit host call object signers

/-- The blockhash is there. -/
def prepare (call object : ℕ) (signers : List Pubkey) (blockhash : String) :
    Session E Signature :=
  let s' := s.write object ((s.objects object).assign host.account blockhash)
  if (s.objects object).message.hasFirstKey then s'.signAndSubmit host call object signers
  else s'.throw call object signers host.noFirstKey

/-- `sendTransaction` with the answers to its polls. -/
def poll (call : ℕ) (c : SendCall E) (id : String) (polls : List (Except E TransactionResponse)) :
    Session E Signature :=
  s.put call { c with
    stage :=
      match Fireblocks.sendTransaction host.errorMessage polls with
      | some result => .settled result
      | none => .polling id polls }

/-- Fireblocks takes a request. -/
def accept (request : Request) (id : String) (status : TransactionStatus) :
    Session E Signature :=
  { s with
    table := s.table ++ [⟨id, request.call, request.payload, [⟨id, status, "", none⟩]⟩] }

/-- Fireblocks says something new about a transaction. -/
def report (r : TransactionResponse) : Session E Signature :=
  { s with
    table := s.table.map fun x =>
      if x.id = r.id then { x with responses := r :: x.responses } else x }

def find (id : String) : Option FireblocksTransaction := s.table.find? (·.id = id)

/-- What `getTransactionById` says, when it says something. -/
def answer (id : String) : Option TransactionResponse :=
  (s.find id).bind (·.responses.head?)

def step (s : Session E Signature) : Event E → Session E Signature
  | .set settings => { s with settings := settings }
  | .sendTransaction call object signers =>
    match s.calls call with
    | some _ => s
    | none =>
      if (s.objects object).message.recentBlockhash = "" then
        s.put call ⟨object, signers, .preparing⟩
      else s.signAndSubmit host call object signers
  | .blockhash call answer =>
    match s.calls call with
    | some ⟨object, signers, .preparing⟩ =>
      match answer with
      | .error e => s.throw call object signers (host.errorMessage e)
      | .ok blockhash => s.prepare host call object signers blockhash
    | _ => s
  | .created call answer =>
    match s.calls call with
    | some ⟨object, signers, .submitting⟩ =>
      match answer with
      | .error e =>
        s.throw call object signers
          ("Failed to sign transaction with Fireblocks: " ++ host.errorMessage e)
      | .ok id => s.put call ⟨object, signers, .polling id []⟩
    | _ => s
  | .polled call error =>
    match s.calls call with
    | some ⟨object, signers, .polling id polls⟩ =>
      match error, s.answer id with
      | some e, _ => s.poll host call ⟨object, signers, .polling id polls⟩ id (polls ++ [.error e])
      | none, some r => s.poll host call ⟨object, signers, .polling id polls⟩ id (polls ++ [.ok r])
      | none, none => s
    | _ => s
  | .take call id status =>
    match s.requests.find? (·.call = call) with
    | some request => s.accept request id status
    | none => s
  | .advance id status subStatus txHash => s.report ⟨id, status, subStatus, txHash⟩

/-- The documented behaviour of Fireblocks: a call is answered with the id of a transaction that
was made of its request, and no two transactions have one id. -/
def Truthful (s : Session E Signature) : Event E → Prop
  | .created call (.ok id) => ∃ x ∈ s.table, x.id = id ∧ x.call = call
  | .take _ id _ => ∀ x ∈ s.table, x.id ≠ id
  | _ => True

end Session

/-! What signing leaves. -/

variable {host}

namespace TransactionObject

@[simp] theorem message_assign (account : Pubkey) (blockhash : String)
    (t : TransactionObject Signature) :
    (t.assign account blockhash).message = t.message.assign account blockhash := by
  cases t <;> rfl

end TransactionObject

/-- The transaction that the loop leaves. -/
def Host.signedBy (host : Host E Signature) (signers : List Pubkey)
    (t : TransactionObject Signature) : TransactionObject Signature :=
  (host.signLoop host.account signers t).1

theorem Host.Lawful.message_signedBy (hhost : host.Lawful) (signers : List Pubkey)
    (t : TransactionObject Signature) : (host.signedBy signers t).message = t.message := by
  have hsign : ∀ signer (t₁ t₂ : TransactionObject Signature), t₁.message = t.message →
      host.signBy signer t₁ = .ok t₂ → t₂.message = t.message := by
    intro signer t₁ t₂ h₁ h
    rw [hhost.signBy_message h, h₁]
  exact Web3.signLoop_induct hsign signers rfl

/-! What a step can do. -/

namespace Session

/-- A call goes from the object `t` it has made to its next await, or throws on the way. -/
def Leaves (host : Host E Signature) (s : Session E Signature) (call object : ℕ)
    (signers : List Pubkey) (t : TransactionObject Signature) (s' : Session E Signature) : Prop :=
  (∃ text, s' = (s.write object t).throw call object signers text) ∨
  ∃ programCallData, host.serialize t = .ok programCallData ∧
    s' = (s.write object t).request call object signers programCallData

inductive Moves (host : Host E Signature) (s : Session E Signature) :
    Event E → Session E Signature → Prop where
  | stay {e : Event E} : Moves host s e s
  | set (settings : Settings) : Moves host s (.set settings) { s with settings := settings }
  | begin {call object : ℕ} {signers : List Pubkey} (hcall : s.calls call = none)
      (hmissing : (s.objects object).message.recentBlockhash = "") :
      Moves host s (.sendTransaction call object signers)
        (s.put call ⟨object, signers, .preparing⟩)
  | leave {call object : ℕ} {signers : List Pubkey} {s' : Session E Signature}
      (hcall : s.calls call = none)
      (hpresent : (s.objects object).message.recentBlockhash ≠ "")
      (hleaves : s.Leaves host call object signers
        (host.signedBy signers (s.objects object)) s') :
      Moves host s (.sendTransaction call object signers) s'
  | resume {call object : ℕ} {signers : List Pubkey} {blockhash : String}
      {t : TransactionObject Signature} {s' : Session E Signature}
      (hcall : s.calls call = some ⟨object, signers, .preparing⟩)
      (ht : t = (s.objects object).assign host.account blockhash ∨
        t = host.signedBy signers ((s.objects object).assign host.account blockhash))
      (hleaves : s.Leaves host call object signers t s') :
      Moves host s (.blockhash call (.ok blockhash)) s'
  | throw {e : Event E} {call object : ℕ} {signers : List Pubkey} {stage : Stage E}
      (text : String) (hcall : s.calls call = some ⟨object, signers, stage⟩)
      (hstage : stage = .preparing ∨ stage = .submitting) :
      Moves host s e (s.throw call object signers text)
  | created {call object : ℕ} {signers : List Pubkey} {id : String}
      (hcall : s.calls call = some ⟨object, signers, .submitting⟩) :
      Moves host s (.created call (.ok id)) (s.put call ⟨object, signers, .polling id []⟩)
  | polled {error : Option E} {call object : ℕ} {signers : List Pubkey} {id : String}
      {polls : List (Except E TransactionResponse)} (p : Except E TransactionResponse)
      (hcall : s.calls call = some ⟨object, signers, .polling id polls⟩)
      (hp : ∀ r, p = .ok r → s.answer id = some r) :
      Moves host s (.polled call error)
        (s.poll host call ⟨object, signers, .polling id polls⟩ id (polls ++ [p]))
  | take {call : ℕ} {id : String} {status : TransactionStatus} {request : Request}
      (hrequest : s.requests.find? (·.call = call) = some request) :
      Moves host s (.take call id status) (s.accept request id status)
  | advance (id : String) (status : TransactionStatus) (subStatus : String)
      (txHash : Option String) :
      Moves host s (.advance id status subStatus txHash)
        (s.report ⟨id, status, subStatus, txHash⟩)

variable {s : Session E Signature}

@[simp] theorem write_write (object : ℕ) (t t' : TransactionObject Signature) :
    (s.write object t).write object t' = s.write object t' := by
  simp [write]

@[simp] theorem write_self (object : ℕ) (t : TransactionObject Signature) :
    (s.write object t).objects object = t := Function.update_self ..

theorem write_of_ne {object object' : ℕ} (h : object' ≠ object)
    (t : TransactionObject Signature) :
    (s.write object t).objects object' = s.objects object' := Function.update_of_ne h _ _

@[simp] theorem put_self (call : ℕ) (c : SendCall E) : (s.put call c).calls call = some c :=
  Function.update_self ..

theorem put_of_ne {call call' : ℕ} (h : call' ≠ call) (c : SendCall E) :
    (s.put call c).calls call' = s.calls call' := Function.update_of_ne h _ _

/-- What holds of the call holds of whatever stands under its number. -/
theorem of_call {P : SendCall E → Prop} {call : ℕ} {c : SendCall E}
    (hcall : s.calls call = some c) (hc : P c) : ∀ c', s.calls call = some c' → P c' := by
  intro c' hc'
  rw [hcall] at hc'
  obtain rfl := Option.some.inj hc'
  exact hc

theorem of_no_call {P : SendCall E → Prop} {call : ℕ} (hcall : s.calls call = none) :
    ∀ c, s.calls call = some c → P c := by
  intro c hc
  rw [hcall] at hc
  cases hc

theorem signAndSubmit_leaves (host : Host E Signature) (s : Session E Signature)
    (call object : ℕ) (signers : List Pubkey) :
    s.Leaves host call object signers (host.signedBy signers (s.objects object))
      (s.signAndSubmit host call object signers) := by
  rw [signAndSubmit, Host.signedBy]
  rcases host.signLoop host.account signers (s.objects object) with ⟨t, text | text⟩
  · simp only [submit, write_self]
    cases hdata : host.serialize t with
    | error text => exact .inl ⟨_, rfl⟩
    | ok programCallData => exact .inr ⟨programCallData, hdata, rfl⟩
  · exact .inl ⟨text, rfl⟩

theorem prepare_leaves (host : Host E Signature) (s : Session E Signature)
    (call object : ℕ) (signers : List Pubkey) (blockhash : String) :
    ∃ t, (t = (s.objects object).assign host.account blockhash ∨
        t = host.signedBy signers ((s.objects object).assign host.account blockhash)) ∧
      s.Leaves host call object signers t (s.prepare host call object signers blockhash) := by
  rw [prepare]
  split_ifs
  · refine ⟨_, .inr rfl, ?_⟩
    have hleaves := signAndSubmit_leaves host
      (s.write object ((s.objects object).assign host.account blockhash)) call object signers
    simpa only [Leaves, write_write, write_self] using hleaves
  · exact ⟨_, .inl rfl, .inl ⟨_, rfl⟩⟩

theorem step_moves (host : Host E Signature) (s : Session E Signature) (e : Event E) :
    s.Moves host e (s.step host e) := by
  cases e with
  | set settings => exact .set settings
  | sendTransaction call object signers =>
    rw [step]
    cases hcall : s.calls call with
    | some c => exact .stay
    | none =>
      simp only
      split_ifs with hmissing
      · exact .begin hcall hmissing
      · exact .leave hcall hmissing (signAndSubmit_leaves host s call object signers)
  | blockhash call answer =>
    rw [step]
    split
    · cases answer with
      | error e => exact .throw _ ‹_› (.inl rfl)
      | ok blockhash =>
        obtain ⟨t, ht, hleaves⟩ := prepare_leaves host s call _ _ blockhash
        exact .resume ‹_› ht hleaves
    · exact .stay
  | created call answer =>
    rw [step]
    split
    · cases answer with
      | error e => exact .throw _ ‹_› (.inr rfl)
      | ok id => exact .created ‹_›
    · exact .stay
  | polled call error =>
    rw [step]
    split
    · split
      · refine .polled _ ‹_› ?_
        intro r hr
        cases hr
      · refine .polled _ ‹_› ?_
        intro r hr
        obtain rfl := Except.ok.inj hr
        assumption
      · exact .stay
    · exact .stay
  | take call id status =>
    rw [step]
    split
    · exact .take ‹_›
    · exact .stay
  | advance id status subStatus txHash => exact .advance id status subStatus txHash

end Session
end SolanaSample.Fireblocks
