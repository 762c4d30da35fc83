import SolanaSample.Library.Reach
import SolanaSample.Token.Program

/-! How far the ledger is open to strangers: which ledgers can be made of it by transactions that
are signed with certain keys alone, whoever the accounts and their users are. -/
namespace SolanaSample.SimpleToken
open Rejection EventRun

/-- A transaction has a signature, that of its fee payer, and it has none but from these keys. -/
def SignedWithin (keys : Set Pubkey) (s : Submission) : Prop :=
  s.signers ≠ [] ∧ ∀ k ∈ s.signers, k ∈ keys

/-- Every account stays and may have any amount. An account may come whose own key is among these,
and another of them for its user. -/
def MayBecome (keys : Set Pubkey) (key : Pubkey) : Option TokenAccount → Option TokenAccount → Prop
  | some _, b => b.isSome = true
  | none, some _ => key ∈ keys ∧ ∃ user ∈ keys, user ≠ key
  | none, none => True

variable {keys : Set Pubkey}

theorem mayBecome_refl (key : Pubkey) (a : Option TokenAccount) : MayBecome keys key a a := by
  cases a with
  | none => trivial
  | some a => rfl

theorem MayBecome.trans (key : Pubkey) (a b c : Option TokenAccount)
    (hab : MayBecome keys key a b) (hbc : MayBecome keys key b c) : MayBecome keys key a c := by
  cases a with
  | none =>
    cases b with
    | none => exact hbc
    | some b =>
      cases c with
      | none => trivial
      | some c => exact hab
  | some a =>
    cases b with
    | none => cases hab
    | some b => exact hbc

/-- A step changes the places of its accounts. -/
theorem step_finitelyChanged (l : Ledger) {s : Submission} (hs : SignedWithin keys s) :
    FinitelyChanged (MayBecome keys) l (step l s) := by
  have hwrite : ∀ {l : Ledger} {k : Pubkey} {a : TokenAccount} (b : TokenAccount),
      l k = some a → FinitelyChanged (MayBecome keys) l (Function.update l k (some b)) := by
    intro l k a b hk
    apply FinitelyChanged.update mayBecome_refl
    rw [hk]
    rfl
  cases hp : process l s with
  | error e =>
    simp only [step, hp, orStay_error]
    exact .refl mayBecome_refl l
  | ok l' =>
    simp only [step, hp, orStay_ok]
    rcases process_cases hp with ⟨accounts, -, huser, hne, hmint, hfresh, rfl⟩ |
      ⟨accounts, n, m, m', -, hm, -, rfl⟩ | ⟨accounts, n, m, m', -, hm, -, rfl⟩ |
      ⟨accounts, n, f, t, f', t', -, hf, ht, -, rfl⟩
    · apply FinitelyChanged.update mayBecome_refl
      rw [hfresh]
      exact ⟨hs.2 _ hmint, accounts.user, hs.2 _ huser, hne⟩
    · exact hwrite m' hm
    · exact hwrite m' hm
    · have hto : ∃ a, Function.update l accounts.from_ (some f') accounts.to_ = some a := by
        by_cases he : accounts.to_ = accounts.from_
        · exact ⟨f', by rw [he, Function.update_self]⟩
        · exact ⟨t, by rw [Function.update_of_ne he, ht]⟩
      obtain ⟨a, ha⟩ := hto
      exact (hwrite f' hf).trans MayBecome.trans (hwrite t' ha)

theorem signedWithin_cons {k : Pubkey} {signers : List Pubkey} (h : ∀ k' ∈ k :: signers, k' ∈ keys)
    (ix : Instruction) : SignedWithin keys ⟨k :: signers, ix⟩ := ⟨List.cons_ne_nil _ _, h⟩

/-- Everything is burned, and the new amount is minted. It does not matter who signs. -/
theorem reaches_amount {Ok : Submission → Prop} {signers : List Pubkey}
    (hok : ∀ ix, Ok ⟨signers, ix⟩) {l : Ledger} {key : Pubkey} {a : TokenAccount}
    (ha : l key = some a) (b : TokenAccount) :
    Reaches step Ok l (Function.update l key (some b)) := by
  have hburn : burn a a.amount = .ok ⟨0⟩ := burn_eq_ok.mpr ⟨le_rfl, by simp⟩
  have hmint : mint ⟨0⟩ b.amount = .ok b := by
    apply mint_eq_ok.mpr
    have hlt := b.amount.toNat_lt
    simpa using hlt
  have hfirst : step l ⟨signers, .burn ⟨key⟩ a.amount⟩ = Function.update l key (some ⟨0⟩) := by
    have hp : process l ⟨signers, .burn ⟨key⟩ a.amount⟩ = .ok (store l [(key, ⟨0⟩)]) := by
      simp only [process, do_ok_iff, load_eq_ok]
      exact ⟨a, ha, ⟨0⟩, hburn, rfl⟩
    rw [step, hp]
    rfl
  have hsecond : step (Function.update l key (some ⟨0⟩)) ⟨signers, .mint ⟨key⟩ b.amount⟩ =
      Function.update l key (some b) := by
    have hp : process (Function.update l key (some ⟨0⟩)) ⟨signers, .mint ⟨key⟩ b.amount⟩ =
        .ok (store (Function.update l key (some ⟨0⟩)) [(key, b)]) := by
      simp only [process, do_ok_iff, load_eq_ok]
      exact ⟨⟨0⟩, Function.update_self .., b, hmint, rfl⟩
    rw [step, hp]
    exact Function.update_idem ..
  have h₁ : Reaches step Ok l (Function.update l key (some ⟨0⟩)) := hfirst ▸ .of_step l (hok _)
  have h₂ : Reaches step Ok (Function.update l key (some ⟨0⟩)) (Function.update l key (some b)) :=
    hsecond ▸ .of_step _ (hok _)
  exact h₁.trans h₂

/-- An account is created by its own key and a user that pays. -/
theorem reaches_created {l : Ledger} {key user : Pubkey} (hkey : key ∈ keys) (huser : user ∈ keys)
    (hne : user ≠ key) (hfresh : l key = none) (b : TokenAccount) :
    Reaches step (SignedWithin keys) l (Function.update l key (some b)) := by
  have hsigned : ∀ ix, SignedWithin keys ⟨[key, user], ix⟩ :=
    signedWithin_cons (by simp [hkey, huser])
  have hfirst : step l ⟨[key, user], .initializeMint ⟨key, user⟩⟩ =
      Function.update l key (some ⟨0⟩) := by
    have hp : process l ⟨[key, user], .initializeMint ⟨key, user⟩⟩ =
        .ok (store l [(key, ⟨0⟩)]) := by
      simp [process, reject, initializeMint, hfresh, hne, bind, Except.bind]
    rw [step, hp]
    rfl
  have h₁ : Reaches step (SignedWithin keys) l (Function.update l key (some ⟨0⟩)) :=
    hfirst ▸ .of_step l (hsigned _)
  have h₂ : Reaches step (SignedWithin keys) (Function.update l key (some ⟨0⟩))
      (Function.update (Function.update l key (some ⟨0⟩)) key (some b)) :=
    reaches_amount hsigned (Function.update_self ..) b
  rw [Function.update_idem] at h₂
  exact h₁.trans h₂

/-- Transactions that only these keys sign make of a ledger exactly those that keep its accounts,
with other amounts in finitely many of them, and have finitely many accounts more, each at one of
these keys with another of them to pay. So nobody's signature guards an account that exists. -/
theorem signed_reaches_iff (hkeys : keys.Nonempty) {l l' : Ledger} :
    Reaches step (SignedWithin keys) l l' ↔ FinitelyChanged (MayBecome keys) l l' := by
  apply reaches_iff_finitelyChanged mayBecome_refl MayBecome.trans
  · intro l s hs
    exact step_finitelyChanged l hs
  · intro l key v hv
    cases ha : l key with
    | none =>
      rw [ha] at hv
      cases v with
      | none =>
        rw [← ha, Function.update_eq_self]
        exact .refl l
      | some b =>
        obtain ⟨hkey, user, huser, hne⟩ := hv
        exact reaches_created hkey huser hne ha b
    | some a =>
      rw [ha] at hv
      cases v with
      | none => cases hv
      | some b =>
        obtain ⟨payer, hpayer⟩ := hkeys
        have hsigned : ∀ ix, SignedWithin keys ⟨[payer], ix⟩ :=
          signedWithin_cons (by simp [hpayer])
        exact reaches_amount hsigned ha b

/-- A stranger empties an account and creates none. -/
theorem signed_reaches_iff_stranger :
    let owned := Function.update noAccounts (Pubkey.filled 1) (some ⟨1000⟩)
    Reaches step (SignedWithin {Pubkey.filled 9}) owned
        (Function.update noAccounts (Pubkey.filled 1) (some ⟨0⟩)) ∧
      ¬ Reaches step (SignedWithin {Pubkey.filled 9}) owned
        (Function.update owned (Pubkey.filled 9) (some ⟨0⟩)) := by
  intro owned
  have hkeys : ({Pubkey.filled 9} : Set Pubkey).Nonempty := Set.singleton_nonempty _
  constructor
  · apply (signed_reaches_iff hkeys).mpr
    have h : FinitelyChanged (MayBecome {Pubkey.filled 9}) owned
        (Function.update owned (Pubkey.filled 1) (some ⟨0⟩)) := .update mayBecome_refl owned rfl
    rwa [Function.update_idem] at h
  · intro hreaches
    have hlegal := ((signed_reaches_iff hkeys).mp hreaches).legal (Pubkey.filled 9)
    rw [Function.update_self] at hlegal
    obtain ⟨-, user, huser, hne⟩ := hlegal
    exact hne huser

end SolanaSample.SimpleToken
