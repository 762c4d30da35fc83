import SolanaSample.Fireblocks.Session

/-! A host for legacy transactions that nobody but the fee payer signs. A signature is made of its
key and its message, and a serialised transaction is told by its blockhash. -/
namespace SolanaSample.Fireblocks
open Slots

/-- There are none when the message does not compile: without a fee payer, or when a signature is
noted for another key. -/
def soloSlots : TransactionObject (Pubkey × Message) → List (Pubkey × Option (Pubkey × Message))
  | .transaction ⟨some payer, _, _⟩ signatures =>
    if signatures = [] then [(payer, none)]
    else if signatures.map Prod.fst = [payer] then signatures
    else []
  | _ => []

def soloHost : Host String (Pubkey × Message) where
  signBy key t :=
    match t with
    | .transaction tx _ =>
      if key ∈ (soloSlots t).map Prod.fst then
        .ok (.transaction tx (fill (fun key => (key, t.message)) key (soloSlots t)))
      else .error "unknown signer"
    | .versionedTransaction _ _ => .error "Cannot sign with non signer key"
  serialize t :=
    if soloSlots t = [] then .error "Transaction fee payer required"
    else .ok t.message.recentBlockhash
  slots := soloSlots
  signature t key := (key, t.message)
  account := .filled 1
  errorMessage := id
  noFirstKey := "Cannot read properties of undefined (reading 'equals')"

variable {key : Pubkey} {t t' : TransactionObject (Pubkey × Message)}

/-- The fee payer is the only key that is asked for. -/
theorem mem_soloSlots_keys (h : key ∈ (soloSlots t).map Prod.fst) :
    (∃ blockhash instructions signatures,
      t = .transaction ⟨some key, blockhash, instructions⟩ signatures) ∧
      (soloSlots t).map Prod.fst = [key] := by
  match t with
  | .transaction ⟨some payer, blockhash, instructions⟩ signatures =>
    have hkeys : (soloSlots (.transaction ⟨some payer, blockhash, instructions⟩ signatures)).map
        Prod.fst = [payer] := by
      rw [soloSlots] at h ⊢
      split_ifs at h ⊢ with hnil hsolo
      · rfl
      · exact hsolo
      · cases h
    rw [hkeys] at h ⊢
    obtain rfl := List.mem_singleton.mp h
    exact ⟨⟨blockhash, instructions, signatures, rfl⟩, rfl⟩

theorem soloHost_signBy : soloHost.signBy key t = .ok t' ↔
    key ∈ (soloSlots t).map Prod.fst ∧ ∃ tx signatures, t = .transaction tx signatures ∧
      t' = .transaction tx (fill (fun key => (key, t.message)) key (soloSlots t)) := by
  cases t with
  | transaction tx signatures =>
    simp only [soloHost]
    split_ifs with h
    · simp [h, eq_comm]
    · simp [h]
  | versionedTransaction m signatures => simp [soloHost]

theorem soloSlots_of_keys {payer : Pubkey} (blockhash : String)
    (instructions : List ResolvedInstruction) {slots : List (Pubkey × Option (Pubkey × Message))}
    (h : slots.map Prod.fst = [payer]) :
    soloSlots (.transaction ⟨some payer, blockhash, instructions⟩ slots) = slots := by
  rw [soloSlots]
  split_ifs with hnil
  · rw [hnil] at h
    cases h
  · rfl

/-- The slots keep their keys when they are filled, and so they are valid. -/
theorem soloSlots_signBy (h : soloHost.signBy key t = .ok t') :
    soloSlots t' = fill (fun key => (key, t.message)) key (soloSlots t) := by
  obtain ⟨hmem, tx, signatures, ht, rfl⟩ := soloHost_signBy.mp h
  obtain ⟨⟨blockhash, instructions, signatures', rfl⟩, hkeys⟩ := mem_soloSlots_keys hmem
  obtain ⟨rfl, -⟩ := TransactionObject.transaction.inj ht
  apply soloSlots_of_keys
  rw [fill_keys, hkeys]

theorem soloHost_serialize : (∃ data, soloHost.serialize t = .ok data) ↔ soloSlots t ≠ [] := by
  simp only [soloHost]
  split_ifs with h
  · simp [h]
  · simp [h]

/-- What is assumed of the host can be had. -/
theorem soloHost_lawful : soloHost.Lawful where
  signBy_isOk key t := by
    simp only [soloHost_signBy]
    constructor
    · intro h
      obtain ⟨t', hmem, -⟩ := h
      exact hmem
    · intro hmem
      obtain ⟨⟨blockhash, instructions, signatures, rfl⟩, -⟩ := mem_soloSlots_keys hmem
      exact ⟨_, hmem, _, _, rfl, rfl⟩
  signBy_slots h := soloSlots_signBy h
  signBy_signature h := by
    obtain ⟨-, tx, signatures, rfl, rfl⟩ := soloHost_signBy.mp h
    rfl
  signBy_serialize {key t t'} h := by
    have hmem := (soloHost_signBy.mp h).1
    rw [soloHost_serialize, soloHost_serialize, soloSlots_signBy h]
    refine iff_of_true ?_ ?_
    · intro hnil
      rw [← fill_keys key, hnil] at hmem
      cases hmem
    · intro hnil
      rw [hnil] at hmem
      cases hmem
  signBy_message h := by
    obtain ⟨-, tx, signatures, rfl, rfl⟩ := soloHost_signBy.mp h
    rfl
  slots_carried {key signature t} h := by
    change (key, some signature) ∈ soloSlots t at h
    match t with
    | .transaction ⟨some payer, blockhash, instructions⟩ signatures =>
      rw [soloSlots] at h
      split_ifs at h with hnil hsolo
      · simp at h
      · exact h
      · cases h

end SolanaSample.Fireblocks
