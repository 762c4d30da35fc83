import SolanaSample.Chain.Pubkey
import Mathlib.Data.List.Nodup
import Mathlib.Tactic.SplitIfs
import Mathlib.Tactic.Push

/-! The fee payer that `sendTransaction` puts into a message: in a versioned transaction it
overwrites the first key of the table that the compiled instructions point into. -/
namespace SolanaSample.Fireblocks

structure MessageHeader where
  numRequiredSignatures : ℕ
  numReadonlySignedAccounts : ℕ
  numReadonlyUnsignedAccounts : ℕ
  deriving DecidableEq

structure CompiledInstruction where
  programIdIndex : ℕ
  accountKeyIndexes : List ℕ
  data : List UInt8
  deriving DecidableEq

/-- A versioned message. `loadedAddresses` are the keys its lookup tables add behind the static
ones. A blockhash that is missing is empty. -/
structure VersionedMessage where
  header : MessageHeader
  staticAccountKeys : List Pubkey
  recentBlockhash : String
  compiledInstructions : List CompiledInstruction
  loadedAddresses : List Pubkey
  deriving DecidableEq

def VersionedMessage.accountKeys (m : VersionedMessage) : List Pubkey :=
  m.staticAccountKeys ++ m.loadedAddresses

/-- An instruction with the keys its indices stand for; an index past the table stands for
none. -/
structure ResolvedInstruction where
  programId : Option Pubkey
  keys : List (Option Pubkey)
  data : List UInt8
  deriving DecidableEq

def CompiledInstruction.resolve (ix : CompiledInstruction) (table : List Pubkey) :
    ResolvedInstruction :=
  ⟨table[ix.programIdIndex]?, ix.accountKeyIndexes.map (table[·]?), ix.data⟩

/-- The instruction list a message means. -/
def VersionedMessage.instructions (m : VersionedMessage) : List ResolvedInstruction :=
  m.compiledInstructions.map (·.resolve m.accountKeys)

/-- A legacy transaction is compiled only when it is serialised. -/
structure LegacyTransaction where
  feePayer : Option Pubkey
  recentBlockhash : String
  instructions : List ResolvedInstruction
  deriving DecidableEq

/-- The legacy branch of `sendTransaction`. -/
def prepareLegacy (account : Pubkey) (blockhash : String) (tx : LegacyTransaction) :
    LegacyTransaction :=
  if tx.recentBlockhash = "" then
    { tx with recentBlockhash := blockhash, feePayer := some account }
  else tx

/-- The versioned branch; `none` is the exception of an empty key table. -/
def prepareVersioned (account : Pubkey) (blockhash : String) (m : VersionedMessage) :
    Option VersionedMessage :=
  if m.recentBlockhash = "" then
    match m.staticAccountKeys with
    | [] => none
    | key :: keys =>
      some { m with
        recentBlockhash := blockhash
        staticAccountKeys := if key ≠ account then account :: keys else key :: keys }
  else some m

/-- What a fee payer that is only a fee payer leaves: the account in front, keys as distinct as
before, and the instructions, which are also those of the legacy transaction made of them. -/
def FeePayerOnly (account : Pubkey) (blockhash : String) (m : VersionedMessage) : Prop :=
  ∀ m', prepareVersioned account blockhash m = some m' →
    m'.accountKeys[0]? = some account ∧
    (m.accountKeys.Nodup → m'.accountKeys.Nodup) ∧
    m'.instructions = m.instructions ∧
    ∀ tx : LegacyTransaction, tx.instructions = m.instructions →
      m'.instructions = (prepareLegacy account blockhash tx).instructions

theorem prepareLegacy_instructions (account : Pubkey) (blockhash : String)
    (tx : LegacyTransaction) :
    (prepareLegacy account blockhash tx).instructions = tx.instructions := by
  unfold prepareLegacy
  split_ifs <;> rfl

/-- An instruction that refers to the first key, as its program or as an account. -/
def CompiledInstruction.UsesFirstKey (ix : CompiledInstruction) : Prop :=
  ix.programIdIndex = 0 ∨ 0 ∈ ix.accountKeyIndexes

theorem getElem?_first_key (key key' : Pubkey) (keys : List Pubkey) (hne : key ≠ key') (i : ℕ) :
    (key :: keys)[i]? = (key' :: keys)[i]? ↔ i ≠ 0 := by
  cases i with
  | zero => simp [hne]
  | succ i => simp

/-- Another first key is noticed by the instructions that refer to it, and by no others. -/
theorem resolve_first_key (ix : CompiledInstruction) {key key' : Pubkey} (keys : List Pubkey)
    (hne : key ≠ key') :
    ix.resolve (key :: keys) = ix.resolve (key' :: keys) ↔ ¬ ix.UsesFirstKey := by
  unfold CompiledInstruction.resolve CompiledInstruction.UsesFirstKey
  rw [ResolvedInstruction.mk.injEq, getElem?_first_key key key' keys hne, List.map_inj_left]
  simp only [getElem?_first_key key key' keys hne, and_true, not_or]
  constructor
  · intro h
    exact ⟨h.1, fun hmem => h.2 0 hmem rfl⟩
  · intro h
    refine ⟨h.1, ?_⟩
    intro i hi he
    exact h.2 (he ▸ hi)

theorem instructions_eq_iff {m m' : VersionedMessage} {key key' : Pubkey} {keys : List Pubkey}
    (hne : key ≠ key') (hix : m'.compiledInstructions = m.compiledInstructions)
    (hm : m.accountKeys = key :: keys) (hm' : m'.accountKeys = key' :: keys) :
    m'.instructions = m.instructions ↔ ∀ ix ∈ m.compiledInstructions, ¬ ix.UsesFirstKey := by
  unfold VersionedMessage.instructions
  rw [hix, hm, hm', List.map_inj_left]
  constructor
  · intro h ix hmem
    exact (resolve_first_key ix keys hne).mp (h ix hmem).symm
  · intro h ix hmem
    exact ((resolve_first_key ix keys hne).mpr (h ix hmem)).symm

theorem nodup_first_key_iff {key key' : Pubkey} (keys : List Pubkey) (hne : key ≠ key') :
    ((key :: keys).Nodup → (key' :: keys).Nodup) ↔ ((key :: keys).Nodup → key' ∉ key :: keys) := by
  simp only [List.nodup_cons, List.mem_cons, not_or]
  constructor
  · intro h hk
    exact ⟨hne.symm, (h hk).1⟩
  · intro h hk
    exact ⟨(h hk).2, hk.2⟩

/-- The versioned branch replaces no more than the fee payer exactly when the account is the
first key already, or no instruction refers to the first key and the account does not occur
elsewhere. -/
theorem feePayerOnly_iff (account : Pubkey) (blockhash : String) (m : VersionedMessage)
    (hblockhash : m.recentBlockhash = "") :
    FeePayerOnly account blockhash m ↔
      m.staticAccountKeys = [] ∨ m.staticAccountKeys[0]? = some account ∨
        ((∀ ix ∈ m.compiledInstructions, ¬ ix.UsesFirstKey) ∧
          (m.accountKeys.Nodup → account ∉ m.accountKeys)) := by
  unfold FeePayerOnly
  simp only [prepareVersioned, if_pos hblockhash]
  cases hkeys : m.staticAccountKeys with
  | nil => simp
  | cons key keys =>
    have hm : m.accountKeys = key :: (keys ++ m.loadedAddresses) := by
      rw [VersionedMessage.accountKeys, hkeys, List.cons_append]
    by_cases hkey : key = account
    · -- The account pays already, and only the blockhash is new.
      subst hkey
      constructor
      · intro _
        exact .inr (.inl rfl)
      · intro _ m' hm'
        obtain rfl := Option.some.inj hm'
        have hsame : VersionedMessage.accountKeys
            { m with recentBlockhash := blockhash, staticAccountKeys := key :: keys } =
              m.accountKeys := hm.symm
        simp only [ne_eq, not_true_eq_false, if_false, VersionedMessage.instructions, hsame]
        refine ⟨by rw [hm]; rfl, id, trivial, ?_⟩
        intro tx htx
        rw [prepareLegacy_instructions, htx]
    · have hnew : VersionedMessage.accountKeys
          { m with recentBlockhash := blockhash, staticAccountKeys := account :: keys } =
            account :: (keys ++ m.loadedAddresses) := rfl
      have hix : VersionedMessage.instructions
          { m with recentBlockhash := blockhash, staticAccountKeys := account :: keys } =
            m.instructions ↔ _ := instructions_eq_iff hkey rfl hm hnew
      have hnodup := nodup_first_key_iff (keys ++ m.loadedAddresses) hkey
      simp only [ne_eq, hkey, not_false_eq_true, if_true, Option.some.injEq, forall_eq']
      constructor
      · intro h
        obtain ⟨-, hd, hi, -⟩ := h
        refine .inr (.inr ⟨hix.mp hi, ?_⟩)
        rw [hm, hnew] at hd
        rw [hm]
        exact hnodup.mp hd
      · intro h
        rcases h with h | h | ⟨hfirst, hdistinct⟩
        · cases h
        · exact absurd (Option.some.inj h) hkey
        · have hi := hix.mpr hfirst
          refine ⟨rfl, ?_, hi, ?_⟩
          · rw [hm] at hdistinct
            rw [hm, hnew]
            exact hnodup.mpr hdistinct
          · intro tx htx
            rw [prepareLegacy_instructions, htx, hi]

/-- A message that another key pays for and whose instruction names that key. -/
def foreignMessage : VersionedMessage where
  header := ⟨1, 0, 1⟩
  staticAccountKeys := [Pubkey.filled 1, Pubkey.filled 2]
  recentBlockhash := ""
  compiledInstructions := [⟨1, [0], [7]⟩]
  loadedAddresses := []

theorem feePayerOnly_iff_foreignMessage :
    FeePayerOnly (Pubkey.filled 3) "blockhash" foreignMessage ↔
      foreignMessage.staticAccountKeys = [] ∨
        foreignMessage.staticAccountKeys[0]? = some (Pubkey.filled 3) ∨
        ((∀ ix ∈ foreignMessage.compiledInstructions, ¬ ix.UsesFirstKey) ∧
          (foreignMessage.accountKeys.Nodup → Pubkey.filled 3 ∉ foreignMessage.accountKeys)) :=
  feePayerOnly_iff (Pubkey.filled 3) "blockhash" foreignMessage rfl

theorem foreignMessage_not_feePayerOnly :
    foreignMessage.recentBlockhash = "" ∧
      ¬ FeePayerOnly (Pubkey.filled 3) "blockhash" foreignMessage := by
  refine ⟨rfl, ?_⟩
  intro h
  have hi := (h _ rfl).2.2.1
  revert hi
  decide

end SolanaSample.Fireblocks
