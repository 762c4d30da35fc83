import SolanaSample.Deploy.World

/-! What other parties can do to the buffer account and the program account while the script
is between two of its transactions. -/
namespace SolanaSample.Deploy
open EventRun Rejection Loader Splice UpgradeableLoaderState

variable {System : Type} {rt : Runtime System}

/-- The authority an account was initialised with; for a program it stands in the ProgramData
account. -/
def authorityAt (s : Accounts) (k : Pubkey) : Option (Option Pubkey) :=
  match stateOf (s k).data with
  | some (.buffer authorityAddress) => some authorityAddress
  | some (.program programdataAddress) => (stateOf (s programdataAddress).data).bind asProgramData
  | some (.programData _ upgradeAuthorityAddress) => some upgradeAuthorityAddress
  | _ => none

def upgradeAuthorityAt (s : Accounts) (k : Pubkey) : Option (Option Pubkey) :=
  match stateOf (s k).data with
  | some (.program programdataAddress) => (stateOf (s programdataAddress).data).bind asProgramData
  | _ => none

/-- The program bytes a program account points to. -/
def codeAt (s : Accounts) (k : Pubkey) : Option (List UInt8) :=
  match stateOf (s k).data with
  | some (.program programdataAddress) =>
    some ((s programdataAddress).data.drop programdataDataOffset)
  | _ => none

/-- The buffer, once it is initialised, belongs to the payer, and so does the program account once
it is a program, whose code is then the deployer's. A program account that is no program has
neither an upgrade authority nor code: it counts as safe, also when a stranger made a buffer of
it. -/
structure Safe (d : Deployment rt) (w : World System) : Prop where
  buffer : ∀ a, authorityAt w.accounts d.buffer = some a → a = some d.payer
  program : ∀ a, upgradeAuthorityAt w.accounts d.program = some a → a = some d.payer
  code : ∀ bytes, codeAt w.accounts d.program = some bytes →
    ∃ m, bytes = bufferContents d w.script.sent ++ List.replicate m 0

/-- The instructions that need no signature of the account they initialise, when they are
aimed at the accounts of the deployment. -/
def Hijacks (d : Deployment rt) : Instruction System → Prop
  | .loader keys data =>
    (limitedDeserialize data = .ok .initializeBuffer ∧
      keys[0]?.map (·.pubkey) = some d.buffer ∧ keys[1]?.map (·.pubkey) ≠ some d.payer) ∨
    ∃ maxDataLen, limitedDeserialize data = .ok (.deployWithMaxDataLen maxDataLen) ∧
      (keys[2]?.map (·.pubkey) = some d.program ∨ keys[2]?.map (·.pubkey) = some d.buffer)
  | _ => False

/-- Another party's instruction of this kind that the loader accepts in the state it meets. -/
def Takeover (d : Deployment rt) (w : World System) : Event d → Prop
  | .other slot ix => (∃ s', execute rt slot ix.signers ix.instruction w.accounts = .ok s') ∧
      Hijacks d ix.instruction
  | _ => False

/-- The buffer account as long as nobody else has taken it. -/
structure BufferGuarded (d : Deployment rt) (log : List (Sent System)) (a : Account) : Prop where
  owner : a.data = [] ∨ a.owner = rt.loaderId
  state : a.data = [] ∨ stateOf a.data = some .uninitialized ∨
    stateOf a.data = some (.buffer (some d.payer))
  contents : a.data ≠ [] → a.data.drop bufferDataOffset = bufferContents d log

/-- The ProgramData account once the program is deployed. -/
structure Installed (d : Deployment rt) (log : List (Sent System)) (a : Account) : Prop where
  owner : a.owner = rt.loaderId
  state : ∃ slot, stateOf a.data = some (.programData slot (some d.payer))
  code : ∃ m, a.data.drop programdataDataOffset = bufferContents d log ++ List.replicate m 0
  funded : 0 < a.lamports

/-- The program account as long as nobody else has taken it. Anybody may turn it into a buffer,
which only keeps the script from deploying. -/
structure ProgramGuarded (d : Deployment rt) (script : Script System) (s : Accounts) :
    Prop where
  owner : (s d.program).data = [] ∨ (s d.program).owner = rt.loaderId
  state : (s d.program).data = [] ∨ stateOf (s d.program).data = some .uninitialized ∨
    (∃ a, stateOf (s d.program).data = some (.buffer a)) ∨
    (stateOf (s d.program).data = some (.program d.programDataAddress) ∧
      script.await.isOver = true ∧ Installed d script.sent (s d.programDataAddress))

structure Guarded (d : Deployment rt) (w : World System) : Prop where
  discipline : Discipline d w.script
  built : WellBuilt d w.script.await
  buffer : BufferGuarded d w.script.sent (w.accounts d.buffer)
  program : ProgramGuarded d w.script w.accounts

variable {d : Deployment rt}

theorem BufferGuarded.authority {log : List (Sent System)} {s : Accounts}
    (h : BufferGuarded d log (s d.buffer)) {a : Option Pubkey}
    (ha : authorityAt s d.buffer = some a) : a = some d.payer := by
  unfold authorityAt at ha
  rcases h.state with hs | hs | hs
  · rw [hs, stateOf_nil] at ha
    cases ha
  · rw [hs] at ha
    cases ha
  · rw [hs] at ha
    exact (Option.some.inj ha).symm

/-- The buffer account is as it was, and no write was executed. -/
theorem BufferGuarded.frame {log log' : List (Sent System)} {a a' : Account}
    (h : BufferGuarded d log a) (hlog : bufferContents d log' = bufferContents d log)
    (hdata : a'.data = a.data) (howner : a'.owner = a.owner) : BufferGuarded d log' a' :=
  ⟨by rw [hdata, howner]; exact h.owner, by rw [hdata]; exact h.state,
    by rw [hdata, hlog]; exact h.contents⟩

/-- The account is used, and so it belongs to the loader. -/
theorem owner_of_stateOf {a : Account} {st : UpgradeableLoaderState}
    (h : a.data = [] ∨ a.owner = rt.loaderId) (hst : stateOf a.data = some st) :
    a.owner = rt.loaderId := h.resolve_left (ne_nil_of_stateOf hst)

/-- Once the program account is a program, it is the deployed one. -/
theorem ProgramGuarded.installed {script : Script System} {s : Accounts}
    (h : ProgramGuarded d script s) {pd : Pubkey}
    (hst : stateOf (s d.program).data = some (.program pd)) :
    pd = d.programDataAddress ∧ Installed d script.sent (s d.programDataAddress) := by
  rcases h.state with hs | hs | ⟨a, hs⟩ | ⟨hs, -, hi⟩
  · exact absurd hs (ne_nil_of_stateOf hst)
  · rw [hs] at hst
    cases hst
  · rw [hs] at hst
    cases hst
  · rw [hs] at hst
    cases hst
    exact ⟨rfl, hi⟩

theorem Guarded.safe {w : World System} (h : Guarded d w) : Safe d w := by
  refine ⟨fun a ha => h.buffer.authority ha, ?_, ?_⟩
  · intro a ha
    unfold upgradeAuthorityAt at ha
    split at ha
    · rename_i pd hs
      obtain ⟨rfl, hi⟩ := h.program.installed hs
      obtain ⟨slot, hst⟩ := hi.state
      rw [hst] at ha
      exact (Option.some.inj ha).symm
    · cases ha
  · intro bytes hb
    unfold codeAt at hb
    split at hb
    · rename_i pd hs
      obtain ⟨rfl, hi⟩ := h.program.installed hs
      obtain rfl := Option.some.inj hb
      exact hi.code
    · cases hb

/-! Instructions of other parties. -/

section Other

variable {log : List (Sent System)} {s s' : Accounts} {slot : UInt64} {ix : Outsider d}

theorem Outsider.not_signed {keys : List AccountMeta} (ix : Outsider d) {k : Pubkey}
    (hk : k ∉ ix.signers) : k ∉ signerKeys (keyedAccounts ix.signers keys) :=
  fun h => hk (signerKeys_keyedAccounts h)

/-- The authority of the buffer can only be the payer, who has not signed. -/
theorem BufferGuarded.authority_not_signed (h : BufferGuarded d log (s d.buffer))
    (ix : Outsider d) {keys : List AccountMeta} {a : Pubkey}
    (ha : authorityAt s d.buffer = some (some a)) :
    a ∉ signerKeys (keyedAccounts ix.signers keys) := by
  obtain rfl := Option.some.inj (h.authority ha)
  exact ix.not_signed ix.payer_notMem

theorem bufferGuarded_other (hrt : rt.Lawful) (h : BufferGuarded d log (s d.buffer))
    (hx : execute rt slot ix.signers ix.instruction s = .ok s')
    (hno : ¬ Hijacks d ix.instruction) : BufferGuarded d log (s' d.buffer) := by
  rcases execute_unsigned hrt hx ix.buffer_notMem (.inl d.buffer_secret) h.owner with
    ⟨hd, ho, -⟩ | ⟨keys, data, ix', hix, hdec, hchange⟩
  · exact h.frame rfl hd ho
  rw [hix] at hno
  cases hchange with
  | kept hd ho hl => exact h.frame rfl hd ho
  | authorizedBuffer a hsig hbefore hafter ho =>
    exact absurd hsig (h.authority_not_signed ix (by rw [authorityAt, hbefore]))
  | authorizedProgramData slot' a hsig hbefore ho =>
    exact absurd hsig (h.authority_not_signed ix (by rw [authorityAt, hbefore]))
  | initialized authority hi hk₀ hk₁ hbefore hafter hcontents ho =>
    rw [keyedAccounts_getElem?] at hk₀ hk₁
    have hpayer : authority = d.payer := by
      by_contra hne
      apply hno
      left
      refine ⟨hi ▸ hdec, hk₀, ?_⟩
      rw [hk₁]
      exact fun he => hne (Option.some.inj he)
    refine ⟨.inr ?_, .inr (.inr ?_), ?_⟩
    · rw [ho]
      exact owner_of_stateOf h.owner hbefore
    · rw [hafter, hpayer]
    · intro _
      rw [hcontents, h.contents (ne_nil_of_stateOf hbefore)]
  | deployed maxDataLen hi hk₂ hbefore ho =>
    rw [keyedAccounts_getElem?] at hk₂
    exact absurd (.inr ⟨maxDataLen, hi ▸ hdec, .inr hk₂⟩) hno
  | created program hp hbefore =>
    exact absurd hp (hrt.programAddress_ne d.buffer_secret program)

/-- The ProgramData account of a deployed program is out of reach. -/
theorem installed_other (hrt : rt.Lawful) (h : Installed d log (s d.programDataAddress))
    (hx : execute rt slot ix.signers ix.instruction s = .ok s') :
    Installed d log (s' d.programDataAddress) := by
  obtain ⟨slot', hst⟩ := h.state
  have hns : d.programDataAddress ∉ ix.signers := by
    intro hmem
    exact hrt.programAddress_ne (ix.signers_secret _ hmem) d.program rfl
  have keep : (s' d.programDataAddress).data = (s d.programDataAddress).data →
      (s' d.programDataAddress).owner = (s d.programDataAddress).owner →
      (s d.programDataAddress).lamports ≤ (s' d.programDataAddress).lamports →
      Installed d log (s' d.programDataAddress) := by
    intro hd ho hl
    exact ⟨by rw [ho]; exact h.owner, by rw [hd]; exact h.state, by rw [hd]; exact h.code,
      h.funded.trans_le hl⟩
  rcases execute_unsigned hrt hx hns (.inr ⟨_, rfl⟩) (.inr h.owner) with
    ⟨hd, ho, hl⟩ | ⟨keys, data, ix', hix, hdec, hchange⟩
  · exact keep hd ho hl
  cases hchange with
  | kept hd ho hl =>
    rcases hl with hl | hl | hl
    · exact keep hd ho hl
    · exact absurd hl (ix.not_signed hns)
    · exact absurd hst (hl _ _)
  | authorizedBuffer a hsig hbefore hafter ho =>
    rw [hst] at hbefore
    cases hbefore
  | authorizedProgramData slot'' a hsig hbefore ho =>
    rw [hst] at hbefore
    cases hbefore
    exact absurd hsig (ix.not_signed ix.payer_notMem)
  | initialized authority hi hk₀ hk₁ hbefore hafter hcontents ho =>
    rw [hst] at hbefore
    cases hbefore
  | deployed maxDataLen hi hk₂ hbefore ho =>
    rw [hst] at hbefore
    cases hbefore
  | created program hp hbefore => exact absurd hbefore (ne_nil_of_stateOf hst)

theorem programGuarded_other (hrt : rt.Lawful) {script : Script System}
    (h : ProgramGuarded d script s)
    (hx : execute rt slot ix.signers ix.instruction s = .ok s')
    (hno : ¬ Hijacks d ix.instruction) : ProgramGuarded d script s' := by
  have keep : (s' d.program).data = (s d.program).data →
      (s' d.program).owner = (s d.program).owner → ProgramGuarded d script s' := by
    intro hd ho
    refine ⟨by rw [hd, ho]; exact h.owner, ?_⟩
    rw [hd]
    rcases h.state with hs | hs | hs | ⟨hs, hover, hi⟩
    · exact .inl hs
    · exact .inr (.inl hs)
    · exact .inr (.inr (.inl hs))
    · exact .inr (.inr (.inr ⟨hs, hover, installed_other hrt hi hx⟩))
  rcases execute_unsigned hrt hx ix.program_notMem (.inl d.program_secret) h.owner with
    ⟨hd, ho, -⟩ | ⟨keys, data, ix', hix, hdec, hchange⟩
  · exact keep hd ho
  rw [hix] at hno
  cases hchange with
  | kept hd ho hl => exact keep hd ho
  | authorizedBuffer a hsig hbefore hafter ho =>
    refine ⟨.inr (ho.trans (owner_of_stateOf h.owner hbefore)), ?_⟩
    rcases hafter with hs | hs
    · exact .inr (.inl hs)
    · exact .inr (.inr (.inl hs))
  | authorizedProgramData slot' a hsig hbefore ho =>
    rcases h.state with hs | hs | ⟨b, hs⟩ | ⟨hs, -, -⟩
    · exact absurd hs (ne_nil_of_stateOf hbefore)
    · rw [hs] at hbefore
      cases hbefore
    · rw [hs] at hbefore
      cases hbefore
    · rw [hs] at hbefore
      cases hbefore
  | initialized authority hi hk₀ hk₁ hbefore hafter hcontents ho =>
    exact ⟨.inr (ho.trans (owner_of_stateOf h.owner hbefore)), .inr (.inr (.inl ⟨_, hafter⟩))⟩
  | deployed maxDataLen hi hk₂ hbefore ho =>
    rw [keyedAccounts_getElem?] at hk₂
    exact absurd (.inr ⟨maxDataLen, hi ▸ hdec, .inl hk₂⟩) hno
  | created program hp hbefore =>
    exact absurd hp (hrt.programAddress_ne d.program_secret program)

theorem guarded_other (hrt : rt.Lawful) {w : World System} (h : Guarded d w)
    (hok : ¬ Takeover d w (.other slot ix)) : Guarded d (w.step d (.other slot ix)) := by
  cases hx : execute rt slot ix.signers ix.instruction w.accounts with
  | error e =>
    rw [World.step_other_error hx]
    exact h
  | ok s₁ =>
    have hno : ¬ Hijacks d ix.instruction := fun hj => hok ⟨⟨s₁, hx⟩, hj⟩
    rw [World.step_other_ok hx]
    exact ⟨h.discipline, h.built, bufferGuarded_other hrt h.buffer hx hno,
      programGuarded_other hrt h.program hx hno⟩

end Other

end SolanaSample.Deploy
