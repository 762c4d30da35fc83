import SolanaSample.Library.Run
import Mathlib.Tactic.SplitIfs

/-! The settings of the adapter that end up in the payload of a transaction, while several
calls of `sendTransaction` are under way. -/
namespace SolanaSample.Fireblocks
open EventRun

inductive FeeLevel where
  | high
  | medium
  | low
  deriving DecidableEq

/-- The fields that the setters write. -/
structure Settings where
  txNote : String
  externalTxId : Option String
  feeLevel : FeeLevel
  deriving DecidableEq

/-- The part of the payload that is read from them. -/
structure PayloadSettings where
  note : String
  externalTxId : Option String
  feeLevel : FeeLevel
  deriving DecidableEq

/-- How `signWithFireblocks` fills the payload in: an empty note is replaced, and an empty id is
left out. -/
def Settings.payload (s : Settings) : PayloadSettings where
  note := if s.txNote = "" then "Created by Solana Web3 Adapter" else s.txNote
  externalTxId := if s.externalTxId = some "" then none else s.externalTxId
  feeLevel := s.feeLevel

/-- What the payload says is what the settings say. Settings may leave the note and the id open,
with an empty text or without an id: then the payload has the note of the adapter, and no id. -/
structure PayloadSettings.Carries (payload : PayloadSettings) (s : Settings) : Prop where
  note : s.txNote ≠ "" → payload.note = s.txNote
  noNote : s.txNote = "" → payload.note = "Created by Solana Web3 Adapter"
  externalTxId : ∀ id ≠ "", s.externalTxId = some id → payload.externalTxId = some id
  noExternalTxId : s.externalTxId = none ∨ s.externalTxId = some "" → payload.externalTxId = none
  feeLevel : payload.feeLevel = s.feeLevel

namespace Settings

/-- The notes that come to the adapter's own. -/
def ownNotes : List String := ["", "Created by Solana Web3 Adapter"]

/-- The ids that are none. -/
def noIds : List (Option String) := [none, some ""]

/-- The same note, id and fee level are in force. -/
structure Agrees (s t : Settings) : Prop where
  txNote : s.txNote = t.txNote ∨ s.txNote ∈ ownNotes ∧ t.txNote ∈ ownNotes
  externalTxId : s.externalTxId = t.externalTxId ∨
    s.externalTxId ∈ noIds ∧ t.externalTxId ∈ noIds
  feeLevel : s.feeLevel = t.feeLevel

theorem Agrees.refl (s : Settings) : s.Agrees s := ⟨.inl rfl, .inl rfl, rfl⟩

theorem payload_note_iff {s t : Settings} :
    (t.txNote ≠ "" → s.payload.note = t.txNote) ∧
        (t.txNote = "" → s.payload.note = "Created by Solana Web3 Adapter") ↔
      s.txNote = t.txNote ∨ s.txNote ∈ ownNotes ∧ t.txNote ∈ ownNotes := by
  have hmem : ∀ note, note ∈ ownNotes ↔ note = "" ∨ note = "Created by Solana Web3 Adapter" := by
    simp [ownNotes]
  have hpayload : s.payload.note = if s.txNote = "" then "Created by Solana Web3 Adapter"
    else s.txNote := rfl
  rw [hmem, hmem, hpayload]
  generalize "Created by Solana Web3 Adapter" = own
  grind

theorem payload_externalTxId_iff {s t : Settings} :
    (∀ id ≠ "", t.externalTxId = some id → s.payload.externalTxId = some id) ∧
        (t.externalTxId = none ∨ t.externalTxId = some "" → s.payload.externalTxId = none) ↔
      s.externalTxId = t.externalTxId ∨ s.externalTxId ∈ noIds ∧ t.externalTxId ∈ noIds := by
  have hmem : ∀ id, id ∈ noIds ↔ id = none ∨ id = some "" := by
    simp [noIds]
  have hpayload : s.payload.externalTxId =
    if s.externalTxId = some "" then none else s.externalTxId := rfl
  rw [hmem, hmem, hpayload]
  cases t.externalTxId with
  | none => grind
  | some id =>
    by_cases hid : id = ""
    · grind
    · have hnot : some id ≠ some "" := fun he => hid (Option.some.inj he)
      simp only [reduceCtorEq, hnot, or_self, false_imp_iff, and_false, or_false, and_true]
      constructor
      · intro h
        have hsame := h id hid rfl
        grind
      · intro h id' _ he
        rw [h, if_neg hnot, he]

/-- What the code fills in carries other settings exactly if those agree. -/
theorem payload_carries_iff {s t : Settings} : s.payload.Carries t ↔ s.Agrees t := by
  constructor
  · intro h
    exact ⟨payload_note_iff.mp ⟨h.note, h.noNote⟩,
      payload_externalTxId_iff.mp ⟨h.externalTxId, h.noExternalTxId⟩, h.feeLevel⟩
  · intro h
    obtain ⟨hnote, hnone⟩ := payload_note_iff.mpr h.txNote
    obtain ⟨hid, hnoId⟩ := payload_externalTxId_iff.mpr h.externalTxId
    exact ⟨hnote, hnone, hid, hnoId, h.feeLevel⟩

end Settings

/-- A payload that was submitted, with the settings in force when its call was made. -/
structure Submitted where
  inForce : Settings
  payload : PayloadSettings
  deriving DecidableEq

/-- `waiting` are the calls whose transaction had no blockhash and that wait for
`getLatestBlockhash`; each is noted with the settings in force when it was made, which the code
does not keep. -/
structure Adapter where
  settings : Settings
  waiting : List Settings
  submitted : List Submitted
  deriving DecidableEq

inductive Call where
  | setTxNote (txNote : String)
  | setExternalTxId (externalTxId : Option String)
  | setFeeLevel (feeLevel : FeeLevel)
  /-- `sendTransaction` runs up to its first await: with a blockhash that is the submission,
  unless a signer throws before it. -/
  | sendTransaction (recentBlockhash : Bool) (signed : Bool)
  /-- The blockhash of the `i`-th waiting call arrives, or its call has thrown before it came to
  the payload. -/
  | resume (i : ℕ) (signed : Bool)
  deriving DecidableEq

namespace Adapter

def submit (a : Adapter) (inForce : Settings) : Adapter :=
  { a with submitted := a.submitted ++ [⟨inForce, a.settings.payload⟩] }

def step (a : Adapter) : Call → Adapter
  | .setTxNote txNote => { a with settings := { a.settings with txNote } }
  | .setExternalTxId externalTxId => { a with settings := { a.settings with externalTxId } }
  | .setFeeLevel feeLevel => { a with settings := { a.settings with feeLevel } }
  | .sendTransaction recentBlockhash signed =>
    if recentBlockhash then if signed then a.submit a.settings else a
    else { a with waiting := a.waiting ++ [a.settings] }
  | .resume i signed =>
    match a.waiting[i]? with
    | none => a
    | some inForce =>
      let a' := { a with waiting := a.waiting.eraseIdx i }
      if signed then a'.submit inForce else a'

/-- Every payload carries the note, the id and the fee level that were in force at its call. -/
def Faithful (a : Adapter) : Prop := ∀ x ∈ a.submitted, x.payload.Carries x.inForce

/-- When a waiting call goes on to its payload, the settings are again what they were when it was
made. -/
def Unchanged (a : Adapter) : Call → Prop
  | .resume i true => ∀ inForce ∈ a.waiting[i]?, a.settings.Agrees inForce
  | _ => True

theorem faithful_submit {a : Adapter} {inForce : Settings} :
    (a.submit inForce).Faithful ↔ a.Faithful ∧ a.settings.Agrees inForce := by
  rw [← Settings.payload_carries_iff]
  unfold Faithful submit
  simp [or_imp, forall_and]

theorem faithful_step {a : Adapter} {c : Call} (h : a.Faithful) (hc : a.Unchanged c) :
    (a.step c).Faithful := by
  cases c with
  | setTxNote txNote => exact h
  | setExternalTxId externalTxId => exact h
  | setFeeLevel feeLevel => exact h
  | sendTransaction recentBlockhash signed =>
    rw [step]
    split_ifs
    · exact faithful_submit.mpr ⟨h, .refl a.settings⟩
    · exact h
    · exact h
  | resume i signed =>
    cases hi : a.waiting[i]? with
    | none =>
      rw [step, hi]
      exact h
    | some inForce =>
      rw [step, hi]
      cases signed with
      | false => exact h
      | true => exact faithful_submit.mpr ⟨h, hc inForce (by rw [hi]; rfl)⟩

/-- A payload with other settings stays wrong. -/
theorem not_faithful_step {a : Adapter} {c : Call} (hc : ¬ a.Unchanged c) :
    ¬ (a.step c).Faithful := by
  cases c with
  | resume i signed =>
    cases signed with
    | false => exact absurd trivial hc
    | true =>
      cases hi : a.waiting[i]? with
      | none =>
        apply absurd _ hc
        intro inForce hmem
        rw [hi] at hmem
        cases hmem
      | some inForce =>
        intro h
        apply hc
        intro inForce' hmem
        rw [hi] at hmem
        obtain rfl := Option.some.inj hmem
        simp only [step, hi, if_true] at h
        exact (faithful_submit.mp h).2
  | _ => exact absurd trivial hc

/-- In every interleaving of calls, from any settings on: all payloads carry the note, the id and
the fee level of their calls exactly if these are back in force whenever a waiting call goes on. -/
theorem faithful_iff_unchanged (settings : Settings) (cs : List Call) :
    EveryState step Faithful ⟨settings, [], []⟩ cs ↔
      EveryStep step Unchanged ⟨settings, [], []⟩ cs := by
  have hstart : Faithful ⟨settings, [], []⟩ := by
    intro x hx
    cases hx
  exact everyState_iff_everyStep (fun a h => h) (fun a c h hc => faithful_step h hc)
    (fun a c _ hc => not_faithful_step hc) hstart

/-- The note is changed while the call waits for its blockhash. -/
def lateNoteRun : List Call :=
  [.setTxNote "first", .sendTransaction false true, .setTxNote "second", .resume 0 true]

theorem lateNoteRun_not_faithful :
    ¬ EveryState step Faithful ⟨⟨"", none, .medium⟩, [], []⟩ lateNoteRun := by
  intro h
  have hlast := h.last ⟨⟨"first", none, .medium⟩, ⟨"second", none, .medium⟩⟩ (by decide)
  have hnote := hlast.note (by decide)
  revert hnote
  decide

end Adapter
end SolanaSample.Fireblocks
