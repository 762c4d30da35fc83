import Mathlib.Data.List.Basic

/-! A registry of programs, one entry for each name. An entry is used once, its code is replaced
only by its authority, and it is closed for good. -/
namespace Registry

variable {Code Key : Type*}

inductive Entry (Code Key : Type*) where
  | unused
  | live (code : Code) (authority : Option Key)
  | closed
  deriving DecidableEq

/-- What a request with these signatures may do to an entry. `Staged a code` says that the code
has been put up under the authority `a`. -/
inductive Step (signers : List Key) (Staged : Key → Code → Prop) :
    Entry Code Key → Entry Code Key → Prop where
  | stay (p : Entry Code Key) : Step signers Staged p p
  | deploy {a : Key} {code : Code} (signed : a ∈ signers) (staged : Staged a code) :
      Step signers Staged .unused (.live code (some a))
  | upgrade {a : Key} {old code : Code} (signed : a ∈ signers) (staged : Staged a code) :
      Step signers Staged (.live old (some a)) (.live code (some a))
  | setAuthority {a : Key} {code : Code} (a' : Option Key) (signed : a ∈ signers) :
      Step signers Staged (.live code (some a)) (.live code a')
  | close {a : Key} {code : Code} (signed : a ∈ signers) :
      Step signers Staged (.live code (some a)) .closed

variable {signers : List Key} {Staged : Key → Code → Prop} {p p' : Entry Code Key}

theorem Step.mono {signers' : List Key} (h : Step signers Staged p p')
    (hs : ∀ a ∈ signers, a ∈ signers') : Step signers' Staged p p' := by
  cases h with
  | stay => exact .stay p
  | deploy signed staged => exact .deploy (hs _ signed) staged
  | upgrade signed staged => exact .upgrade (hs _ signed) staged
  | setAuthority a' signed => exact .setAuthority a' (hs _ signed)
  | close signed => exact .close (hs _ signed)

theorem Step.of_closed (h : Step signers Staged .closed p) : p = .closed := by
  cases h
  rfl

/-- An entry that is in use stays as it is while its authority, if it has one, does not sign. -/
theorem Step.of_unsigned {code : Code} {authority : Option Key}
    (h : Step signers Staged (.live code authority) p)
    (ha : ∀ a ∈ signers, authority ≠ some a) : p = .live code authority := by
  cases h with
  | stay => rfl
  | upgrade signed staged => exact absurd rfl (ha _ signed)
  | setAuthority a' signed => exact absurd rfl (ha _ signed)
  | close signed => exact absurd rfl (ha _ signed)

end Registry
