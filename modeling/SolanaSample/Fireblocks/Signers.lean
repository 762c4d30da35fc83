import SolanaSample.Chain.Pubkey
import SolanaSample.Library.Slots
import Mathlib.Data.List.TakeWhile

/-! The signers that `sendTransaction` is given besides Fireblocks. The loop over them ends at
the key of the vault account, where it means to skip one signer. Signing and serialising is the
work of web3.js and a parameter, with what is documented about it. -/
namespace SolanaSample.Fireblocks
open Slots

/-- What is used of web3.js, for both kinds of transactions. An error is the text of an
exception. -/
structure Web3 (Tx Signature : Type) where
  /-- `partialSign` of a legacy transaction, `sign` of a versioned one, with the keypair of the
  key. -/
  signBy : Pubkey → Tx → Except String Tx
  /-- `serialize`, without asking for all signatures. -/
  serialize : Tx → Except String String
  /-- The keys that the message asks to sign, each with its signature if that is there, as they
  are serialised. -/
  slots : Tx → List (Pubkey × Option Signature)
  /-- The signature that the keypair of a key makes of the message. -/
  signature : Tx → Pubkey → Signature

namespace Web3

variable {Tx Signature : Type}

/-- The documented behaviour of signing. -/
structure Lawful (w : Web3 Tx Signature) : Prop where
  /-- A keypair signs if the message asks for its key. -/
  signBy_isOk : ∀ key t, (∃ t', w.signBy key t = .ok t') ↔ key ∈ (w.slots t).map Prod.fst
  /-- The signature is put where it belongs. -/
  signBy_slots : ∀ {key t t'}, w.signBy key t = .ok t' →
    w.slots t' = fill (w.signature t) key (w.slots t)
  /-- The message stays the same. -/
  signBy_signature : ∀ {key t t'}, w.signBy key t = .ok t' → w.signature t' = w.signature t
  /-- A missing signature takes as much room as one that is there. -/
  signBy_serialize : ∀ {key t t'}, w.signBy key t = .ok t' →
    ((∃ data, w.serialize t' = .ok data) ↔ ∃ data, w.serialize t = .ok data)

variable (w : Web3 Tx Signature) (account : Pubkey)

/-- The loop, with the exception that ended it. The signatures made before it stay. At the key of
the account it breaks. -/
def signLoop : List Pubkey → Tx → Tx × Option String
  | [], t => (t, none)
  | signer :: signers, t =>
    if signer = account then (t, none)
    else
      match w.signBy signer t with
      | .error text => (t, some text)
      | .ok t' => signLoop signers t'

/-- The signatures in the serialised transaction. -/
def serialized (t : Tx) : Option (List (Pubkey × Option Signature)) :=
  match w.serialize t with
  | .error _ => none
  | .ok _ => some (w.slots t)

/-- The signatures in what is handed to Fireblocks. Nothing is when one of the calls throws. -/
def handedOver (signers : List Pubkey) (t : Tx) : Option (List (Pubkey × Option Signature)) :=
  match w.signLoop account signers t with
  | (_, some _) => none
  | (t', none) => w.serialized t'

/-- In whatever order the signers are given, what is handed over carries the signatures of all of
them but the vault account, and any other order would have handed over the same. -/
def CoSigned (signers : List Pubkey) (t : Tx) : Prop :=
  ∀ signers₁ signatures, signers.Perm signers₁ →
    w.handedOver account signers₁ t = some signatures →
    (∀ signer ∈ signers, signer ≠ account → Filled (w.signature t) signer signatures) ∧
    ∀ signers₂, signers.Perm signers₂ → w.handedOver account signers₂ t = some signatures

/-- All that have to sign have signed before. -/
def AlreadySigned (signers : List Pubkey) (t : Tx) : Prop :=
  ∀ signer ∈ signers, signer ≠ account → Filled (w.signature t) signer (w.slots t)

def Serializable (t : Tx) : Prop := ∃ data, w.serialize t = .ok data

/-- The signers in front of the vault account. -/
def signersBefore (signers : List Pubkey) : List Pubkey := signers.takeWhile (· ≠ account)

variable {w} {account} {signers : List Pubkey} {t : Tx}
  {signatures : List (Pubkey × Option Signature)}

/-- The rule of the loop: what one signature keeps, the loop keeps, wherever it ends. -/
theorem signLoop_induct {P : Tx → Prop}
    (hsign : ∀ signer t t', P t → w.signBy signer t = .ok t' → P t') (signers : List Pubkey)
    {t : Tx} (ht : P t) : P (w.signLoop account signers t).1 := by
  induction signers generalizing t with
  | nil => exact ht
  | cons signer signers ih =>
    rw [signLoop]
    split_ifs
    · exact ht
    · cases hs : w.signBy signer t with
      | error text => exact ht
      | ok t' => exact ih (hsign signer t t' ht hs)

theorem signersBefore_cons_self (account : Pubkey) (signers : List Pubkey) :
    signersBefore account (account :: signers) = [] := List.takeWhile_cons_of_neg (by simp)

theorem signersBefore_cons_of_ne {signer : Pubkey} (h : signer ≠ account)
    (signers : List Pubkey) :
    signersBefore account (signer :: signers) = signer :: signersBefore account signers :=
  List.takeWhile_cons_of_pos (by simp [h])

theorem mem_signersBefore {signer : Pubkey} (h : signer ∈ signersBefore account signers) :
    signer ∈ signers ∧ signer ≠ account := by
  refine ⟨(List.takeWhile_sublist _).subset h, ?_⟩
  simpa using List.mem_takeWhile_imp h

theorem signersBefore_of_notMem (h : account ∉ signers) :
    signersBefore account signers = signers := by
  rw [signersBefore, List.takeWhile_eq_self_iff]
  intro signer hmem
  exact decide_eq_true fun he => h (he ▸ hmem)

theorem serialized_eq_some_iff :
    w.serialized t = some signatures ↔ w.Serializable t ∧ signatures = w.slots t := by
  rw [serialized, Serializable]
  cases w.serialize t with
  | error text => simp
  | ok data => simp [eq_comm]

/-- The loop signs for those in front of the vault account, and for no one else. -/
theorem handedOver_eq_some_iff (hw : w.Lawful) :
    w.handedOver account signers t = some signatures ↔
      w.Serializable t ∧ (∀ signer ∈ signersBefore account signers,
        signer ∈ (w.slots t).map Prod.fst) ∧
      signatures = fillAll (w.signature t) (signersBefore account signers) (w.slots t) := by
  induction signers generalizing t with
  | nil =>
    simp only [handedOver, signLoop, serialized_eq_some_iff]
    simp [signersBefore]
  | cons signer signers ih =>
    rw [handedOver, signLoop]
    split_ifs with hs
    · subst hs
      simp only [serialized_eq_some_iff]
      simp [signersBefore_cons_self]
    · rw [signersBefore_cons_of_ne hs, fillAll_cons, List.forall_mem_cons]
      have hasks := hw.signBy_isOk signer t
      cases hsign : w.signBy signer t with
      | error text =>
        have hnot : signer ∉ (w.slots t).map Prod.fst := by
          rw [← hasks, hsign]
          simp
        simp only [hnot, reduceCtorEq, false_and, and_false]
      | ok t' =>
        have hmem : signer ∈ (w.slots t).map Prod.fst := hasks.mp ⟨t', hsign⟩
        have hserial : w.Serializable t' ↔ w.Serializable t := hw.signBy_serialize hsign
        have hrest := @ih t'
        rw [hw.signBy_slots hsign, hw.signBy_signature hsign, fill_keys, hserial] at hrest
        simp only [hmem, true_and, ← hrest]
        rfl

/-- A list that begins with the vault account is handed over as it came. -/
theorem handedOver_account_first (hw : w.Lawful) (ht : w.Serializable t) :
    w.handedOver account (account :: signers) t = some (w.slots t) := by
  rw [handedOver_eq_some_iff hw, signersBefore_cons_self]
  exact ⟨ht, List.forall_mem_nil _, rfl⟩

/-- Signing again changes nothing, wherever the loop breaks. -/
theorem handedOver_of_alreadySigned (hw : w.Lawful) (h : w.AlreadySigned account signers t)
    (ht : w.Serializable t) : w.handedOver account signers t = some (w.slots t) := by
  have hfilled : ∀ signer ∈ signersBefore account signers,
      Filled (w.signature t) signer (w.slots t) := by
    intro signer hs
    obtain ⟨hmem, hne⟩ := mem_signersBefore hs
    exact h signer hmem hne
  rw [handedOver_eq_some_iff hw, fillAll_of_filled hfilled]
  exact ⟨ht, fun signer hs => mem_keys_of_filled (hfilled signer hs), rfl⟩

/-- Without the vault account in the list everybody signs, and the order makes no difference. -/
theorem coSigned_of_notMem (hw : w.Lawful) (h : account ∉ signers) :
    w.CoSigned account signers t := by
  have hbefore : ∀ {signers'}, signers.Perm signers' →
      signersBefore account signers' = signers' := by
    intro signers' hperm
    exact signersBefore_of_notMem fun hmem => h (hperm.mem_iff.mpr hmem)
  intro signers₁ signatures hperm₁ hover
  rw [handedOver_eq_some_iff hw, hbefore hperm₁] at hover
  obtain ⟨ht, hall, rfl⟩ := hover
  refine ⟨?_, ?_⟩
  · intro signer hs _
    have hs₁ := hperm₁.mem_iff.mp hs
    exact filled_fillAll hs₁ (hall signer hs₁)
  · intro signers₂ hperm₂
    have hperm := hperm₁.symm.trans hperm₂
    rw [handedOver_eq_some_iff hw, hbefore hperm₂, fillAll_perm hperm]
    exact ⟨ht, fun signer hs => hall signer (hperm.mem_iff.mpr hs), rfl⟩

/-- The loop does what it should exactly when the vault account is not in the list, or nobody
in the list is missing; or the transaction cannot be serialised, and nothing is handed over. -/
theorem coSigned_iff (hw : w.Lawful) (account : Pubkey) (signers : List Pubkey) (t : Tx) :
    w.CoSigned account signers t ↔
      account ∉ signers ∨ w.AlreadySigned account signers t ∨ ¬ w.Serializable t := by
  constructor
  · intro h
    by_cases haccount : account ∈ signers
    · by_cases ht : w.Serializable t
      · -- The order with the vault account in front leaves the transaction as it came.
        have hperm := List.perm_cons_erase haccount
        exact .inr (.inl (h _ _ hperm (handedOver_account_first hw ht)).1)
      · exact .inr (.inr ht)
    · exact .inl haccount
  · intro h
    rcases h with h | h | h
    · exact coSigned_of_notMem hw h
    · intro signers₁ signatures hperm₁ hover
      have hall : ∀ signers₂, signers.Perm signers₂ → w.AlreadySigned account signers₂ t :=
        fun signers₂ hperm signer hs => h signer (hperm.mem_iff.mpr hs)
      have ht := ((handedOver_eq_some_iff hw).mp hover).1
      rw [handedOver_of_alreadySigned hw (hall signers₁ hperm₁) ht] at hover
      obtain rfl := Option.some.inj hover
      exact ⟨h, fun signers₂ hperm₂ => handedOver_of_alreadySigned hw (hall signers₂ hperm₂) ht⟩
    · intro signers₁ signatures _ hover
      exact absurd ((handedOver_eq_some_iff hw).mp hover).1 h

/-- A versioned transaction with the slots of its message. The signature of a key is the key, and
what is serialised besides is left out. -/
def versioned : Web3 (List (Pubkey × Option Pubkey)) Pubkey where
  signBy key slots :=
    if key ∈ slots.map Prod.fst then .ok (fill id key slots)
    else .error "Cannot sign with non signer key"
  serialize _ := .ok ""
  slots := id
  signature _ := id

theorem versioned_signBy {key : Pubkey} {t t' : List (Pubkey × Option Pubkey)} :
    versioned.signBy key t = .ok t' ↔ key ∈ t.map Prod.fst ∧ t' = fill id key t := by
  simp only [versioned]
  split_ifs with h
  · simp [h, eq_comm]
  · simp [h]

theorem versioned_lawful : versioned.Lawful where
  signBy_isOk key t := by
    simp only [versioned_signBy]
    exact ⟨fun ⟨_, h, _⟩ => h, fun h => ⟨_, h, rfl⟩⟩
  signBy_slots h := (versioned_signBy.mp h).2
  signBy_signature _ := rfl
  signBy_serialize _ := Iff.rfl

/-- The vault account and a cosigner. -/
theorem coSigned_iff_versioned :
    versioned.CoSigned (.filled 1) [.filled 1, .filled 2] [(.filled 1, none), (.filled 2, none)] ↔
      Pubkey.filled 1 ∉ [Pubkey.filled 1, Pubkey.filled 2] ∨
      versioned.AlreadySigned (.filled 1) [.filled 1, .filled 2]
        [(.filled 1, none), (.filled 2, none)] ∨
      ¬ versioned.Serializable [(.filled 1, none), (.filled 2, none)] :=
  coSigned_iff versioned_lawful _ _ _

/-- In the order in which the vault account comes first. -/
theorem cosigner_not_signed :
    ¬ versioned.CoSigned (.filled 1) [.filled 1, .filled 2]
      [(.filled 1, none), (.filled 2, none)] := by
  intro h
  have hsigned := (h _ [(.filled 1, none), (.filled 2, none)] (.refl _) (by rfl)).1 (.filled 2)
    (by decide) (by decide)
  revert hsigned
  simp [Filled, Pubkey.filled]

end Web3
end SolanaSample.Fireblocks
