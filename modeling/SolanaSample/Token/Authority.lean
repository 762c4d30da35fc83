import SolanaSample.Token.Program
import Mathlib.Data.List.Induction

/-! Who may move the tokens of an account. Signatures are looked at when an account is
created and by no instruction after that. -/
namespace SolanaSample.SimpleToken
open Rejection EventRun

/-- The run created the account `key` in a successful `initialize` with `user` as its user. -/
def InitializedBy (txs : List Submission) (key user : Pubkey) : Prop :=
  ∃ pre s post, txs = pre ++ s :: post ∧ s.instruction = .initializeMint ⟨key, user⟩ ∧
    ∃ l', process (run step noAccounts pre) s = .ok l'

/-- The submission spends, burns or issues tokens of `key`. -/
def Moves (l : Ledger) (s : Submission) (key : Pubkey) : Prop :=
  stored (step l s) key < stored l key ∨
    (∃ n, s.instruction = .mint ⟨key⟩ n) ∧ stored l key < stored (step l s) key

/-- Only the user an account was created by, or the account's own key, ever moves its tokens. -/
def MovesAreSigned (txs : List Submission) : Prop :=
  ∀ pre s post key user, txs = pre ++ s :: post → InitializedBy pre key user →
    Moves (run step noAccounts pre) s key → user ∈ s.signers ∨ key ∈ s.signers

/-- What a step can do to one stored amount. -/
theorem step_stored_cases (l : Ledger) (s : Submission) (key : Pubkey) :
    stored (step l s) key = stored l key ∨
    (∃ n, s.instruction = .mint ⟨key⟩ n ∧ stored l key ≤ stored (step l s) key) ∨
    (∃ n, s.instruction = .burn ⟨key⟩ n ∧ stored (step l s) key ≤ stored l key) ∨
    (∃ n to_, s.instruction = .transfer ⟨key, to_⟩ n ∧ stored (step l s) key ≤ stored l key) ∨
    (∃ n from_, s.instruction = .transfer ⟨from_, key⟩ n ∧
      stored l key ≤ stored (step l s) key) := by
  cases hp : process l s with
  | error e => exact .inl (by simp only [step, hp, orStay_error])
  | ok l' =>
    simp only [step, hp, orStay_ok]
    rcases process_cases hp with ⟨accounts, hi, -, -, -, hfresh, rfl⟩ |
      ⟨accounts, n, m, m', hi, hm, hm', rfl⟩ | ⟨accounts, n, m, m', hi, hm, hm', rfl⟩ |
      ⟨accounts, n, f, t, f', t', hi, hf, ht, hft, rfl⟩
    · left
      have h0 := stored_none hfresh
      rw [stored_update]
      split_ifs with hk
      · rw [hk, h0]
        rfl
      · rfl
    · rw [stored_update]
      split_ifs with hk
      · subst hk
        have hadd := (mint_eq_ok.mp hm').2
        have h0 := stored_some hm
        exact .inr (.inl ⟨n, hi, by omega⟩)
      · exact .inl rfl
    · rw [stored_update]
      split_ifs with hk
      · subst hk
        have hsub := (burn_eq_ok.mp hm').2
        have h0 := stored_some hm
        exact .inr (.inr (.inl ⟨n, hi, by omega⟩))
      · exact .inl rfl
    · obtain ⟨-, -, hdebit, hcredit⟩ := transfer_eq_ok.mp hft
      have hf0 := stored_some hf
      have ht0 := stored_some ht
      rw [stored_update, stored_update]
      split_ifs with hkt hkf
      · subst hkt
        exact .inr (.inr (.inr (.inr ⟨n, accounts.from_, hi, by omega⟩)))
      · subst hkf
        exact .inr (.inr (.inr (.inl ⟨n, accounts.to_, hi, by omega⟩)))
      · exact .inl rfl

/-- Past creation the outcome of a submission does not depend on who signed it. -/
theorem process_signers_irrelevant (l : Ledger) (s : Submission) (signers : List Pubkey)
    (h : ∀ accounts, s.instruction ≠ .initializeMint accounts) :
    process l ⟨signers, s.instruction⟩ = process l s := by
  cases hi : s.instruction with
  | initializeMint accounts => exact absurd hi (h accounts)
  | _ => simp only [process, hi]

/-- A token account is never removed. -/
theorem step_keeps_account {l : Ledger} {key : Pubkey} (s : Submission) (h : (l key).isSome) :
    (step l s key).isSome := by
  have hupd : ∀ (l₀ : Ledger) (k : Pubkey) (a : TokenAccount), (l₀ key).isSome →
      (Function.update l₀ k (some a) key).isSome := by
    intro l₀ k a h₀
    by_cases hk : key = k
    · subst hk
      simp
    · simpa [hk] using h₀
  cases hp : process l s with
  | error e => simpa only [step, hp, orStay_error] using h
  | ok l' =>
    simp only [step, hp, orStay_ok]
    rcases process_cases hp with ⟨accounts, -, -, -, -, -, rfl⟩ |
      ⟨accounts, n, m, m', -, -, -, rfl⟩ | ⟨accounts, n, m, m', -, -, -, rfl⟩ |
      ⟨accounts, n, f, t, f', t', -, -, -, -, rfl⟩
    · exact hupd _ _ _ h
    · exact hupd _ _ _ h
    · exact hupd _ _ _ h
    · exact hupd _ _ _ (hupd _ _ _ h)

theorem run_keeps_account {l : Ledger} {key : Pubkey} (txs : List Submission)
    (h : (l key).isSome) : (run step l txs key).isSome := by
  have hall : EveryState step (fun l : Ledger => (l key).isSome = true) l txs :=
    everyState_of_all (fun _ s hs => step_keeps_account s hs) txs h
  exact hall.last

/-- An account that appears in a step was created by a signed `initialize` in that step. -/
theorem step_creates {l : Ledger} {s : Submission} {key : Pubkey} (hnone : l key = none)
    (hsome : (step l s key).isSome) :
    ∃ user, s.instruction = .initializeMint ⟨key, user⟩ ∧ ∃ l', process l s = .ok l' := by
  cases hp : process l s with
  | error e => simp [step, hp, hnone] at hsome
  | ok l' =>
    simp only [step, hp, orStay_ok] at hsome
    have hne : ∀ k a, l k = some a → key ≠ k := by
      intro k a hk he
      subst he
      simp [hnone] at hk
    rcases process_cases hp with ⟨accounts, hi, -, -, -, -, rfl⟩ |
      ⟨accounts, n, m, m', -, hm, -, rfl⟩ | ⟨accounts, n, m, m', -, hm, -, rfl⟩ |
      ⟨accounts, n, f, t, f', t', -, hf, ht, -, rfl⟩
    · by_cases hk : key = accounts.mint
      · subst hk
        exact ⟨accounts.user, hi, _, rfl⟩
      · simp [hk, hnone] at hsome
    · simp [hne _ _ hm, hnone] at hsome
    · simp [hne _ _ hm, hnone] at hsome
    · simp [hne _ _ hf, hne _ _ ht, hnone] at hsome

theorem InitializedBy.append {txs : List Submission} {key user : Pubkey}
    (h : InitializedBy txs key user) (more : List Submission) :
    InitializedBy (txs ++ more) key user := by
  obtain ⟨pre, s, post, rfl, hi, hok⟩ := h
  exact ⟨pre, s, post ++ more, by simp, hi, hok⟩

/-- Every account of a run has someone who created it. -/
theorem exists_initializer (txs : List Submission) (key : Pubkey)
    (h : (run step noAccounts txs key).isSome) : ∃ user, InitializedBy txs key user := by
  induction txs using List.reverseRecOn with
  | nil => simp [noAccounts] at h
  | append_singleton pre s ih =>
    by_cases hpre : (run step noAccounts pre key).isSome
    · obtain ⟨user, hu⟩ := ih hpre
      exact ⟨user, hu.append [s]⟩
    · rw [run_append, run_cons, run_nil] at h
      obtain ⟨user, hi, hok⟩ := step_creates (by simpa using hpre) h
      exact ⟨user, pre, s, [], rfl, hi, hok⟩

/-- A successful creation in the run leaves the account there, so it cannot happen twice. -/
theorem InitializedBy.isSome {txs : List Submission} {key user : Pubkey}
    (h : InitializedBy txs key user) : (run step noAccounts txs key).isSome := by
  obtain ⟨pre, s, post, rfl, hi, l', hl'⟩ := h
  rw [run_append, run_cons]
  apply run_keeps_account
  simp only [step, hl', orStay_ok]
  rcases process_cases hl' with ⟨accounts, hi', -, -, -, -, rfl⟩ | ⟨_, _, _, _, hi', -⟩ |
    ⟨_, _, _, _, hi', -⟩ | ⟨_, _, _, _, _, _, hi', -⟩
  · rw [hi] at hi'
    cases hi'
    simp
  · simp [hi] at hi'
  · simp [hi] at hi'
  · simp [hi] at hi'

/-- The creation of an account was signed by its user and by the key of the account. -/
theorem InitializedBy.signed {txs : List Submission} {key user : Pubkey}
    (h : InitializedBy txs key user) :
    ∃ s ∈ txs, s.instruction = .initializeMint ⟨key, user⟩ ∧ user ∈ s.signers ∧
      key ∈ s.signers := by
  obtain ⟨pre, s, post, rfl, hi, l', hl'⟩ := h
  refine ⟨s, by simp, hi, ?_⟩
  rcases process_cases hl' with ⟨accounts, hi', huser, -, hmint, -⟩ | ⟨_, _, _, _, hi', -⟩ |
    ⟨_, _, _, _, hi', -⟩ | ⟨_, _, _, _, _, _, hi', -⟩
  · rw [hi] at hi'
    cases hi'
    exact ⟨huser, hmint⟩
  · simp [hi] at hi'
  · simp [hi] at hi'
  · simp [hi] at hi'

/-- In every run the creation of an account carries the signatures of its user and of its own
key; after that its amount falls only by a `burn` of it or a `transfer` out of it and rises only
by a `mint` to it or a `transfer` into it, and each of these has the same outcome whoever signs. -/
theorem signatures_only_at_creation (txs : List Submission) (key : Pubkey) :
    (∀ user, InitializedBy txs key user → ∃ s ∈ txs,
      s.instruction = .initializeMint ⟨key, user⟩ ∧ user ∈ s.signers ∧ key ∈ s.signers) ∧
    ((run step noAccounts txs key).isSome ↔ ∃ user, InitializedBy txs key user) ∧
    EveryStep step (fun l s =>
      (stored (step l s) key < stored l key → ∃ n, s.instruction = .burn ⟨key⟩ n ∨
        ∃ to_, s.instruction = .transfer ⟨key, to_⟩ n) ∧
      (stored l key < stored (step l s) key → ∃ n, s.instruction = .mint ⟨key⟩ n ∨
        ∃ from_, s.instruction = .transfer ⟨from_, key⟩ n) ∧
      ((∀ accounts, s.instruction ≠ .initializeMint accounts) → ∀ signers,
        process l ⟨signers, s.instruction⟩ = process l s)) noAccounts txs := by
  refine ⟨fun user h => h.signed, ⟨exists_initializer txs key, fun ⟨_, h⟩ => h.isSome⟩, ?_⟩
  rw [everyStep_iff_splits]
  intro pre s post _
  have hcases := step_stored_cases (run step noAccounts pre) s key
  refine ⟨fun hlt => ?_, fun hlt => ?_, fun h signers => process_signers_irrelevant _ s signers h⟩
  · rcases hcases with he | ⟨n, -, hle⟩ | ⟨n, hi, -⟩ | ⟨n, to_, hi, -⟩ | ⟨n, from_, -, hle⟩
    · omega
    · omega
    · exact ⟨n, .inl hi⟩
    · exact ⟨n, .inr ⟨to_, hi⟩⟩
    · omega
  · rcases hcases with he | ⟨n, hi, -⟩ | ⟨n, -, hle⟩ | ⟨n, to_, -, hle⟩ | ⟨n, from_, hi, -⟩
    · omega
    · exact ⟨n, .inl hi⟩
    · omega
    · omega
    · exact ⟨n, .inr ⟨from_, hi⟩⟩

/-- A user creates an account, and somebody else mints to it. -/
def strangerMintRun : List Submission :=
  [⟨[.filled 1, .filled 2], .initializeMint ⟨.filled 2, .filled 1⟩⟩,
   ⟨[.filled 3], .mint ⟨.filled 2⟩ 7⟩]

theorem strangerMintRun_not_signed : ¬ MovesAreSigned strangerMintRun := by
  intro h
  have hinit : InitializedBy (strangerMintRun.take 1) (.filled 2) (.filled 1) :=
    ⟨[], _, [], rfl, rfl, _, rfl⟩
  have hmoves : Moves (run step noAccounts (strangerMintRun.take 1))
      ⟨[.filled 3], .mint ⟨.filled 2⟩ 7⟩ (.filled 2) :=
    .inr ⟨⟨7, rfl⟩, by decide +kernel⟩
  have hsigned := h _ _ [] (.filled 2) (.filled 1) rfl hinit hmoves
  revert hsigned
  decide +kernel

end SolanaSample.SimpleToken
