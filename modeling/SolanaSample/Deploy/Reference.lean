import SolanaSample.Deploy.World
import SolanaSample.Loader.Builders

/-! What the script sends, beside what the reference client of the loader builds. -/
namespace SolanaSample.Deploy
open EventRun PrefixCodec Loader UpgradeableLoaderState BpfLoaderUpgradeable

variable {System : Type} {rt : Runtime System}

/-- Who has to sign for an instruction. -/
def Requires : Instruction System → Pubkey → Prop
  | .createAccount c, k => k = c.fromPubkey ∨ k = c.newAccountPubkey
  | .system _, _ => False
  | .loader keys _, k => ∃ m ∈ keys, m.isSigner = true ∧ m.pubkey = k

variable (d : Deployment rt)

/-- What the reference client builds for the program of the deployment, with the buffer's size as
the longest program. -/
def referenceInstruction (lamports : ℕ) : Purpose → Option (Instruction System)
  | .createProgramAccount => (deployWithMaxProgramLen rt d.payer d.program d.buffer d.payer lamports
      (UInt64.ofNat d.bufferSize))[0]?
  | .createBufferAccount =>
    (createBuffer rt d.payer d.buffer d.payer lamports d.programData.length)[0]?
  | .initializeBuffer =>
    (createBuffer rt d.payer d.buffer d.payer lamports d.programData.length)[1]?
  | .write i => some (write d.buffer d.payer (UInt32.ofNat (offset i)) (chunk d.programData i))
  | .deploy => (deployWithMaxProgramLen rt d.payer d.program d.buffer d.payer lamports
      (UInt64.ofNat d.bufferSize))[1]?

/-- The new account with another size. -/
def withSpace (space : ℕ) : Instruction System → Instruction System
  | .createAccount c => .createAccount { c with space }
  | ix => ix

/-- Where the script goes its own way: the sizes of the two accounts that it creates. -/
def resized : Purpose → Instruction System → Instruction System
  | .createProgramAccount => withSpace (sizeOfProgram + 8)
  | .createBufferAccount => withSpace ((d.programData.length + 33 + 1023) / 1024 * 1024)
  | _ => id

/-- The script has asked what an account of the size costs, and this was the answer. -/
def Quoted (os : List Outcome) (lamports : ℕ) : Purpose → Prop
  | .createProgramAccount => ∃ pre o post blockhash, os = pre ++ o :: post ∧
      (Script.after d pre).await = .programRent blockhash ∧ o.reply = .returned lamports
  | .createBufferAccount => ∃ pre o post blockhash, os = pre ++ o :: post ∧
      (Script.after d pre).await = .bufferRent blockhash ∧ o.reply = .returned lamports
  | _ => True

/-- Built like the reference client does but for the two sizes, with the lamports that the script
was told, without an offset or a size cut off, and signed by everybody who has to. -/
structure FollowsReference (os : List Outcome) (purpose : Purpose) (tx : Transaction System) :
    Prop where
  instruction : ∃ lamports, Quoted d os lamports purpose ∧
    (referenceInstruction d lamports purpose).map (resized d purpose) = some tx.instruction
  offset_lt : ∀ i, purpose = .write i → offset i < 2 ^ 32
  size_lt : purpose = .deploy → d.bufferSize < 2 ^ 64
  signed : ∀ k, Requires tx.instruction k → k ∈ tx.signers

variable {d}

theorem Quoted.concat {os : List Outcome} {lamports : ℕ} {purpose : Purpose}
    (h : Quoted d os lamports purpose) (o : Outcome) : Quoted d (os ++ [o]) lamports purpose := by
  cases purpose with
  | createProgramAccount =>
    obtain ⟨pre, o', post, blockhash, rfl, hawait, hreply⟩ := h
    exact ⟨pre, o', post ++ [o], blockhash, by simp, hawait, hreply⟩
  | createBufferAccount =>
    obtain ⟨pre, o', post, blockhash, rfl, hawait, hreply⟩ := h
    exact ⟨pre, o', post ++ [o], blockhash, by simp, hawait, hreply⟩
  | _ => trivial

theorem FollowsReference.concat {os : List Outcome} {purpose : Purpose} {tx : Transaction System}
    (h : FollowsReference d os purpose tx) (o : Outcome) :
    FollowsReference d (os ++ [o]) purpose tx := by
  obtain ⟨lamports, hquoted, hinstruction⟩ := h.instruction
  exact ⟨⟨lamports, hquoted.concat o, hinstruction⟩, h.offset_lt, h.size_lt, h.signed⟩

/-- The only way to the creation of the program account. -/
theorem next_eq_programSend {a : Await System} {reply : Reply} {tx : Transaction System}
    (h : next d a reply = .programSend tx) : ∃ blockhash lamports, a = .programRent blockhash ∧
      reply = .returned lamports ∧ tx = d.createAccountTransaction blockhash lamports := by
  cases a <;> cases reply <;> grind [next, nextChunk]

theorem next_eq_bufferSend {a : Await System} {reply : Reply} {tx : Transaction System}
    (h : next d a reply = .bufferSend tx) : ∃ blockhash lamports, a = .bufferRent blockhash ∧
      reply = .returned lamports ∧ tx = d.createBufferAccountTransaction blockhash lamports := by
  cases a <;> cases reply <;> grind [next, nextChunk]

theorem mem_of_requires_createAccount {c : CreateAccount} {k : Pubkey}
    (h : Requires (.createAccount c : Instruction System) k) :
    k ∈ [c.fromPubkey, c.newAccountPubkey] := by
  rcases h with rfl | rfl
  · exact List.mem_cons_self
  · exact List.mem_cons_of_mem _ (List.mem_singleton_self _)

theorem createAccountTransaction_follows {os : List Outcome} {lamports : ℕ}
    (h : Quoted d os lamports .createProgramAccount) (blockhash : ℕ) :
    FollowsReference d os .createProgramAccount
      (d.createAccountTransaction blockhash lamports) where
  instruction := ⟨lamports, h, rfl⟩
  offset_lt := nofun
  size_lt := nofun
  signed _ hk := mem_of_requires_createAccount hk

theorem createBufferAccountTransaction_follows {os : List Outcome} {lamports : ℕ}
    (h : Quoted d os lamports .createBufferAccount) (blockhash : ℕ) :
    FollowsReference d os .createBufferAccount
      (d.createBufferAccountTransaction blockhash lamports) where
  instruction := by
    have hsize : (d.programData.length + 33 + 1023) / 1024 * 1024 = d.bufferSize :=
      (bufferSize_eq d.programData.length).symm
    refine ⟨lamports, h, ?_⟩
    rw [resized, hsize]
    rfl
  offset_lt := nofun
  size_lt := nofun
  signed _ hk := mem_of_requires_createAccount hk

theorem createBufferTransaction_follows (os : List Outcome) (blockhash : ℕ) :
    FollowsReference d os .initializeBuffer (d.createBufferTransaction blockhash) where
  instruction := ⟨0, trivial, rfl⟩
  offset_lt := nofun
  size_lt := nofun
  signed k hk := by
    obtain ⟨m, hm, hsigner, -⟩ := hk
    simp only [List.mem_cons, List.not_mem_nil, or_false] at hm
    rcases hm with rfl | rfl <;> cases hsigner

theorem chunkTransaction_follows (os : List Outcome) {i blockhash : ℕ} {tx : Transaction System}
    (h : d.chunkTransaction i blockhash = some tx) : FollowsReference d os (.write i) tx := by
  obtain ⟨hlt, rfl⟩ := Deployment.chunkTransaction_eq_some h
  refine ⟨⟨0, trivial, rfl⟩, ?_, nofun, ?_⟩
  · rintro j ⟨⟩
    exact hlt
  · rintro k ⟨m, hm, hsigner, rfl⟩
    simp only [List.mem_cons, List.not_mem_nil, or_false] at hm
    rcases hm with rfl | rfl
    · cases hsigner
    · exact List.mem_cons_self

theorem finalizeTransaction_follows (os : List Outcome) {blockhash : ℕ} {tx : Transaction System}
    (h : d.finalizeTransaction blockhash = some tx) : FollowsReference d os .deploy tx := by
  obtain ⟨hlt, rfl⟩ := Deployment.finalizeTransaction_eq_some h
  refine ⟨⟨0, trivial, rfl⟩, nofun, fun _ => hlt, ?_⟩
  rintro k ⟨m, hm, hsigner, rfl⟩
  simp only [Deployment.finalizeKeys, List.mem_cons, List.not_mem_nil, or_false] at hm
  -- The payer is the only signer among the eight accounts.
  rcases hm with rfl | rfl | rfl | rfl | rfl | rfl | rfl | rfl
  case inl | inr.inr.inr.inr.inr.inr.inr => exact List.mem_cons_self
  all_goals cases hsigner

/-- The creation that waits to be sent is paid with what the script was told. -/
def Informed (d : Deployment rt) (os : List Outcome) : Await System → Prop
  | .programSend tx => ∃ blockhash lamports, tx = d.createAccountTransaction blockhash lamports ∧
      Quoted d os lamports .createProgramAccount
  | .bufferSend tx => ∃ blockhash lamports,
      tx = d.createBufferAccountTransaction blockhash lamports ∧
        Quoted d os lamports .createBufferAccount
  | _ => True

theorem informed_concat (d : Deployment rt) (os : List Outcome) (o : Outcome) :
    Informed d (os ++ [o]) (next d (Script.after d os).await o.reply) := by
  cases hnext : next d (Script.after d os).await o.reply with
  | programSend tx =>
    obtain ⟨blockhash, lamports, hawait, hreply, rfl⟩ := next_eq_programSend hnext
    exact ⟨blockhash, lamports, rfl, os, o, [], blockhash, rfl, hawait, hreply⟩
  | bufferSend tx =>
    obtain ⟨blockhash, lamports, hawait, hreply, rfl⟩ := next_eq_bufferSend hnext
    exact ⟨blockhash, lamports, rfl, os, o, [], blockhash, rfl, hawait, hreply⟩
  | _ => trivial

/-- What waits to be sent follows the reference. -/
theorem sending_follows {os : List Outcome} {await : Await System} {purpose : Purpose}
    {tx : Transaction System} (h : WellBuilt d await) (hinformed : Informed d os await)
    (hs : await.sending = some (purpose, tx)) : FollowsReference d os purpose tx := by
  cases await with
  | programSend tx' =>
    cases hs
    obtain ⟨blockhash, lamports, rfl, hquoted⟩ := hinformed
    exact createAccountTransaction_follows hquoted blockhash
  | bufferSend tx' =>
    cases hs
    obtain ⟨blockhash, lamports, rfl, hquoted⟩ := hinformed
    exact createBufferAccountTransaction_follows hquoted blockhash
  | initializeSend tx' =>
    cases hs
    obtain ⟨blockhash, rfl⟩ := h
    exact createBufferTransaction_follows os blockhash
  | chunkSend i tx' =>
    cases hs
    obtain ⟨blockhash, htx⟩ := h
    exact chunkTransaction_follows os htx
  | chunkRetry i tx' retries =>
    cases hs
    obtain ⟨blockhash, htx⟩ := h
    exact chunkTransaction_follows os htx
  | finalizeSend tx' =>
    cases hs
    obtain ⟨blockhash, htx⟩ := h
    exact finalizeTransaction_follows os htx
  | _ => cases hs

/-- The invariant of the script, with the answers it has had. -/
structure Following (d : Deployment rt) (os : List Outcome) : Prop where
  built : WellBuilt d (Script.after d os).await
  informed : Informed d os (Script.after d os).await
  sent : ∀ x ∈ (Script.after d os).sent, FollowsReference d os x.purpose x.transaction

theorem Following.concat {os : List Outcome} (h : Following d os) (o : Outcome) :
    Following d (os ++ [o]) := by
  have hafter : Script.after d (os ++ [o]) = (Script.after d os).step d o := run_append ..
  refine ⟨?_, ?_, ?_⟩
  · rw [hafter]
    exact wellBuilt_next d h.built o.reply
  · rw [hafter]
    exact informed_concat d os o
  · rw [hafter, Script.step]
    cases hs : (Script.after d os).await.sending with
    | none => exact fun x hx => (h.sent x hx).concat o
    | some p =>
      refine forall_mem_concat.mpr ⟨fun x hx => (h.sent x hx).concat o, ?_⟩
      exact (sending_follows h.built h.informed hs).concat o

/-- However its calls come back, all that the script ever sends is what the reference client builds
for the same program and purpose, with the signatures this needs, but for two sizes: the program
account gets 44 bytes, where 36 are needed, and the buffer a multiple of 1024 bytes that is not
always as much as the 37 bytes and the program need. -/
theorem script_follows_reference (d : Deployment rt) (os : List Outcome) :
    ∀ x ∈ (Script.after d os).sent, FollowsReference d os x.purpose x.transaction := by
  have hall : Following d os := by
    induction os using List.reverseRecOn with
    | nil => exact ⟨trivial, trivial, nofun⟩
    | append_singleton os o ih => exact ih.concat o
  exact hall.sent

/-- The script has sent both creations. -/
def creations : List Outcome :=
  [⟨false, .returned 925680⟩, ⟨false, .returned 1⟩, ⟨false, .returned 1197120⟩,
    ⟨true, .returned 1⟩, ⟨false, .returned 2⟩, ⟨false, .returned 8017920⟩, ⟨true, .returned 2⟩]

/-- The buffer of 1024 bytes is paid with what was asked for it. -/
theorem script_follows_reference_creations :
    FollowsReference sample creations .createBufferAccount
      (sample.createBufferAccountTransaction 2 8017920) := by
  have hsent : (Script.after sample creations).sent[1]? = some ⟨.createBufferAccount,
      sample.createBufferAccountTransaction 2 8017920, true, true⟩ := by
    rfl
  exact script_follows_reference sample creations _ (List.mem_of_getElem? hsent)

end SolanaSample.Deploy
