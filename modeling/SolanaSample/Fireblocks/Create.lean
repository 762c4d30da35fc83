import SolanaSample.Library.Run
import Mathlib.Tactic.SplitIfs

/-! `FireblocksConnectionAdapter.create`, called any number of times with one config object.
Between its awaits a call runs alone, and at each of them any other call may go on. -/
namespace SolanaSample.Fireblocks
open EventRun

/-- `ASSET_IDS`: `SOL_TEST` and `SOL`. -/
inductive AssetId where
  | solanaDevnet
  | solanaMainnet
  deriving DecidableEq

def AssetId.name : AssetId → String
  | solanaDevnet => "SOL_TEST"
  | solanaMainnet => "SOL"

/-- The field of the caller's config object that `create` writes. -/
structure Config where
  devnet : Option Bool
  deriving DecidableEq

/-- What an adapter has of its assets: the fields, the assets it has looked an address up for,
and those of the payloads it has submitted. -/
structure CreatedAdapter where
  endpoint : String
  devnet : Bool
  assetId : AssetId
  account : String
  lookedUp : List AssetId
  submitted : List AssetId
  deriving DecidableEq

/-- `endpoint.split(".")[1]`. -/
def environment (endpoint : String) : Option (List Char) := (endpoint.toList.splitOn '.')[1]?

def isDevnet (endpoint : String) : Bool :=
  environment endpoint = some "devnet".toList ∨ environment endpoint = some "testnet".toList

/-- A missing flag is falsy. -/
def assetIdOf (devnet : Option Bool) : AssetId :=
  if devnet = some true then .solanaDevnet else .solanaMainnet

/-- The constructor. -/
def construct (endpoint : String) (config : Config) : CreatedAdapter :=
  let devnet := config.devnet.getD false
  { endpoint
    devnet
    assetId := assetIdOf (some devnet)
    account := ""
    lookedUp := []
    submitted := [] }

/-- `setAccount` up to its await. -/
def beginSetAccount (devnet : Option Bool) (adapter : CreatedAdapter) : CreatedAdapter :=
  { adapter with lookedUp := adapter.lookedUp ++ [assetIdOf devnet] }

/-- What `create` does in one go once the secret key is read: the config object is written, and
it is read twice. -/
def afterReadFile (endpoint : String) (config : Config) : Config × CreatedAdapter :=
  let config := { config with devnet := some (isDevnet endpoint) }
  let adapter := construct endpoint config
  (config, beginSetAccount config.devnet adapter)

/-- `signWithFireblocks`: the payload carries the asset of the adapter. -/
def CreatedAdapter.submit (adapter : CreatedAdapter) : CreatedAdapter :=
  { adapter with submitted := adapter.submitted ++ [adapter.assetId] }

/-- Where a call of `create` is. -/
inductive CreateStage where
  | readingFile
  | lookingUp (adapter : CreatedAdapter)
  | awaitingAccount (adapter : CreatedAdapter)
  | returned (adapter : CreatedAdapter)
  | threw
  deriving DecidableEq

structure CreateCall where
  endpoint : String
  stage : CreateStage
  deriving DecidableEq

/-- What a call goes on with. An address that is missing or empty is no address. -/
inductive Resumption where
  | fileRead
  | addresses (first : Option String)
  | accountSet
  | submit
  | threw
  deriving DecidableEq

/-- One call goes on up to its next await. A resumption it does not wait for does nothing. -/
def CreateCall.resume (config : Config) (call : CreateCall) : Resumption → Config × CreateCall
  | .fileRead =>
    match call.stage with
    | .readingFile =>
      let (config, adapter) := afterReadFile call.endpoint config
      (config, { call with stage := .lookingUp adapter })
    | _ => (config, call)
  | .addresses first =>
    match call.stage with
    | .lookingUp adapter =>
      if first.getD "" = "" then (config, { call with stage := .threw })
      else (config, { call with
        stage := .awaitingAccount { adapter with account := first.getD "" } })
    | _ => (config, call)
  | .accountSet =>
    match call.stage with
    | .awaitingAccount adapter => (config, { call with stage := .returned adapter })
    | _ => (config, call)
  | .submit =>
    match call.stage with
    | .returned adapter => (config, { call with stage := .returned adapter.submit })
    | _ => (config, call)
  | .threw =>
    match call.stage with
    | .readingFile => (config, { call with stage := .threw })
    | .lookingUp _ => (config, { call with stage := .threw })
    | _ => (config, call)

/-- The config object and the calls that share it. -/
structure CreateSession where
  config : Config
  calls : List CreateCall
  deriving DecidableEq

inductive CreateEvent where
  | create (endpoint : String)
  | resume (i : ℕ) (r : Resumption)
  /-- The caller, or anyone who has it from `getConfig`, writes the config object. -/
  | setDevnet (devnet : Option Bool)
  deriving DecidableEq

namespace CreateSession

def step (s : CreateSession) : CreateEvent → CreateSession
  | .create endpoint =>
    { s with calls := s.calls ++ [⟨endpoint, if endpoint = "" then .threw else .readingFile⟩] }
  | .resume i r =>
    match s.calls[i]? with
    | none => s
    | some call =>
      let (config, call) := call.resume s.config r
      ⟨config, s.calls.set i call⟩
  | .setDevnet devnet => { s with config := ⟨devnet⟩ }

end CreateSession

/-- The asset an endpoint selects with its second part. -/
def selectedAsset (endpoint : String) : AssetId :=
  if (endpoint.toList.splitOn '.')[1]? ∈ [some "devnet".toList, some "testnet".toList] then
    .solanaDevnet
  else
    .solanaMainnet

/-- Every adapter that was returned has looked its address up for the asset its endpoint
selects, and submits payloads for that asset alone. -/
def CreateSession.AssetsMatch (s : CreateSession) : Prop :=
  ∀ call ∈ s.calls, ∀ adapter, call.stage = .returned adapter →
    adapter.lookedUp = [selectedAsset call.endpoint] ∧
    ∀ asset ∈ adapter.submitted, asset = selectedAsset call.endpoint

/-- The adapter is made for the endpoint. -/
structure CreatedAdapter.For (adapter : CreatedAdapter) (endpoint : String) : Prop where
  assetId : adapter.assetId = selectedAsset endpoint
  lookedUp : adapter.lookedUp = [selectedAsset endpoint]
  submitted : ∀ asset ∈ adapter.submitted, asset = selectedAsset endpoint

/-- The invariant of a call. -/
def CreateCall.Sound (call : CreateCall) : Prop :=
  match call.stage with
  | .lookingUp adapter => adapter.For call.endpoint
  | .awaitingAccount adapter => adapter.For call.endpoint
  | .returned adapter => adapter.For call.endpoint
  | _ => True

theorem assetIdOf_isDevnet (endpoint : String) :
    assetIdOf (some (isDevnet endpoint)) = selectedAsset endpoint := by
  unfold assetIdOf isDevnet environment selectedAsset
  simp only [Option.some.injEq, decide_eq_true_eq, List.mem_cons, List.not_mem_nil, or_false]

/-- Nothing comes between the write and the two reads, so both read what was written. -/
theorem afterReadFile_for (endpoint : String) (config : Config) :
    (afterReadFile endpoint config).2.For endpoint where
  assetId := assetIdOf_isDevnet endpoint
  lookedUp := congrArg (fun asset => [asset]) (assetIdOf_isDevnet endpoint)
  submitted := List.forall_mem_nil _

theorem CreatedAdapter.For.submit {adapter : CreatedAdapter} {endpoint : String}
    (h : adapter.For endpoint) : adapter.submit.For endpoint where
  assetId := h.assetId
  lookedUp := h.lookedUp
  submitted := by
    intro asset hmem
    rcases List.mem_append.mp hmem with hmem | hmem
    · exact h.submitted asset hmem
    · rw [List.mem_singleton.mp hmem]
      exact h.assetId

/-- The step lemma: one case for each way to go on, whatever the others did to the config. -/
theorem CreateCall.Sound.resume {call : CreateCall} (h : call.Sound) (config : Config)
    (r : Resumption) : (call.resume config r).2.Sound := by
  obtain ⟨endpoint, stage⟩ := call
  cases r with
  | fileRead =>
    cases stage with
    | readingFile => exact afterReadFile_for endpoint config
    | _ => exact h
  | addresses first =>
    cases stage with
    | lookingUp adapter =>
      simp only [CreateCall.resume]
      split_ifs
      · trivial
      · exact ⟨h.assetId, h.lookedUp, h.submitted⟩
    | _ => exact h
  | accountSet => cases stage <;> exact h
  | submit =>
    cases stage with
    | returned adapter => exact CreatedAdapter.For.submit h
    | _ => exact h
  | threw =>
    cases stage with
    | readingFile => trivial
    | lookingUp adapter => trivial
    | _ => exact h

theorem sound_step {s : CreateSession} (h : ∀ call ∈ s.calls, call.Sound) (e : CreateEvent) :
    ∀ call ∈ (s.step e).calls, call.Sound := by
  cases e with
  | create endpoint =>
    intro call hmem
    rcases List.mem_append.mp hmem with hmem | hmem
    · exact h call hmem
    · rw [List.mem_singleton.mp hmem]
      unfold CreateCall.Sound
      split_ifs <;> trivial
  | resume i r =>
    simp only [CreateSession.step]
    cases hi : s.calls[i]? with
    | none => exact h
    | some call =>
      intro call' hmem
      rcases List.mem_or_eq_of_mem_set hmem with hmem | rfl
      · exact h call' hmem
      · exact (h call (List.mem_of_getElem? hi)).resume s.config r
  | setDevnet devnet => exact h

/-- In every interleaving, at every moment. -/
theorem assets_never_mixed (config : Config) (es : List CreateEvent) :
    EveryState CreateSession.step CreateSession.AssetsMatch ⟨config, []⟩ es := by
  have hall : EveryState CreateSession.step (fun s => ∀ call ∈ s.calls, call.Sound)
      ⟨config, []⟩ es := everyState_of_all (fun s e h => sound_step h e) es (List.forall_mem_nil _)
  refine hall.mono ?_
  intro s h call hmem adapter hstage
  have hsound := h call hmem
  rw [CreateCall.Sound, hstage] at hsound
  exact ⟨hsound.lookedUp, hsound.submitted⟩

/-- Two calls, for devnet and for mainnet, read their keys before either goes on. -/
example : (run CreateSession.step ⟨⟨none⟩, []⟩
    [.create "https://api.devnet.solana.com", .create "https://api.mainnet-beta.solana.com",
      .resume 1 .fileRead, .resume 0 .fileRead, .resume 1 (.addresses "address"),
      .resume 1 .accountSet, .resume 1 .submit]).calls.map (·.stage) =
    [.lookingUp ⟨"https://api.devnet.solana.com", true, .solanaDevnet, "", [.solanaDevnet], []⟩,
      .returned ⟨"https://api.mainnet-beta.solana.com", false, .solanaMainnet, "address",
        [.solanaMainnet], [.solanaMainnet]⟩] := by decide +kernel

end SolanaSample.Fireblocks
