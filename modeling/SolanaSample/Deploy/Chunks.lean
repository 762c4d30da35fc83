import SolanaSample.Library.Splice
import SolanaSample.Loader.Effects
import Mathlib.Algebra.Order.Floor.Div

/-! How `deploy.ts` sizes the buffer account and cuts the program into chunks. -/
namespace SolanaSample.Deploy
open PrefixCodec Splice Loader Rejection UpgradeableLoaderState

/-- Rounded up to whole kilobytes: one byte for the state and 32 for the authority are added. -/
def bufferSize (programLength : ℕ) : ℕ := (programLength + 33) ⌈/⌉ 1024 * 1024

def maxTransactionSize : ℕ := 1232
def transactionMetadataSize : ℕ := 400
def instructionHeaderSize : ℕ := 5
def safetyMargin : ℕ := 150

def maxDataSize : ℕ :=
  maxTransactionSize - transactionMetadataSize - instructionHeaderSize - safetyMargin

def chunkSize : ℕ := min maxDataSize 600

def totalChunks (dataLength : ℕ) : ℕ := dataLength ⌈/⌉ chunkSize

def offset (i : ℕ) : ℕ := i * chunkSize

/-- `programData.slice(offset, offset + chunkSize)`. -/
def chunk (programData : List UInt8) (i : ℕ) : ByteString where
  bytes := (programData.drop (offset i)).take chunkSize
  length_lt := by
    have h := List.length_take_le chunkSize (programData.drop (offset i))
    have hc : chunkSize = 600 := rfl
    omega

def chunkLength (programLength i : ℕ) : ℕ := min chunkSize (programLength - offset i)

/-- A chunk with the place it belongs to. -/
def piece (programData : List UInt8) (i : ℕ) : Piece UInt8 :=
  ⟨offset i, (chunk programData i).bytes⟩

theorem chunkSize_eq : chunkSize = 600 := rfl

theorem chunk_length (programData : List UInt8) (i : ℕ) :
    (chunk programData i).bytes.length = chunkLength programData.length i := by
  simp [chunk, chunkLength]

theorem bufferSize_eq (n : ℕ) : bufferSize n = (n + 33 + 1024 - 1) / 1024 * 1024 := by
  rw [bufferSize, Nat.ceilDiv_eq_add_pred_div]

theorem totalChunks_eq (n : ℕ) : totalChunks n = (n + 600 - 1) / 600 := by
  rw [totalChunks, Nat.ceilDiv_eq_add_pred_div, chunkSize_eq]

theorem lt_totalChunks_iff {i n : ℕ} : i < totalChunks n ↔ offset i < n := by
  rw [totalChunks_eq, offset, chunkSize_eq]
  omega

/-- The last chunk ends where the program ends, and the others before. -/
theorem offset_add_chunkLength_le (n i : ℕ) (h : i < totalChunks n) :
    offset i + chunkLength n i ≤ n ∧ (totalChunks n = i + 1 → offset i + chunkLength n i = n) := by
  rw [totalChunks_eq] at *
  simp only [offset, chunkLength, chunkSize_eq]
  omega

theorem piece_isSliceOf (programData : List UInt8) {i : ℕ}
    (h : i < totalChunks programData.length) : (piece programData i).IsSliceOf programData :=
  isSliceOf_slice programData (lt_totalChunks_iff.mp h).le

/-- Every byte of the program is in a chunk. -/
theorem exists_piece_covers {programData : List UInt8} {k : ℕ} (hk : k < programData.length) :
    ∃ i < totalChunks programData.length, (piece programData i).covers k := by
  refine ⟨k / 600, ?_, ?_, ?_⟩
  · rw [lt_totalChunks_iff, offset, chunkSize_eq]
    omega
  · simp only [piece, offset, chunkSize_eq]
    omega
  · simp only [piece, chunk_length, chunkLength, offset, chunkSize_eq]
    omega

/-! Whether the chunks fit the buffer account. -/

theorem write_accountDataTooSmall {offset : UInt32} {bytes : ByteString} {ks : List KeyedAccount}
    {buffer : KeyedAccount} {s : Accounts} (hk : ks[0]? = some buffer)
    (h : write offset bytes ks s = .error .accountDataTooSmall) :
    (s buffer.key).data.length < bufferDataOffset + offset.toNat + bytes.bytes.length := by
  simp only [write, keyedAccountAtIndex, hk, state, requireAuthority, writeProgramData,
    do_error_iff, demand_eq_error, demand_eq_ok, reject_eq_error, reject_eq_ok, exists_unit,
    reduceCtorEq, and_false, false_or, or_false, exists_false] at h
  obtain ⟨b, hb, authority, -, st, -, a, -, -, hlt, -⟩ := h
  obtain rfl := Option.some.inj hb
  exact hlt

theorem write_refused {offset : UInt32} {bytes : ByteString} {ks : List KeyedAccount}
    {buffer authority : KeyedAccount} {s : Accounts} (hk₀ : ks[0]? = some buffer)
    (hk₁ : ks[1]? = some authority) (hsig : authority.isSigner = true)
    (hst : stateOf (s buffer.key).data = some (.buffer (some authority.key)))
    (hlt : (s buffer.key).data.length < bufferDataOffset + offset.toNat + bytes.bytes.length) :
    write offset bytes ks s = .error .accountDataTooSmall := by
  simp [write, keyedAccountAtIndex, hk₀, hk₁, state, requireAuthority, writeProgramData, hst,
    asBuffer, hsig, hlt, reject, demand, bind, Except.bind]

/-- What the script takes for granted: every chunk fits behind the header of the buffer. -/
def ChunksFit (n : ℕ) : Prop :=
  ∀ i < totalChunks n, bufferDataOffset + offset i + chunkLength n i ≤ bufferSize n

/-- The header takes 37 bytes where 33 were added. The difference shows when rounding up
leaves less than that, which is in four lengths out of 1024. -/
theorem chunksFit_iff (n : ℕ) : ChunksFit n ↔ ¬ (988 ≤ n % 1024 ∧ n % 1024 ≤ 991) := by
  have hoff : bufferDataOffset = 37 := rfl
  have hb := bufferSize_eq n
  have htotal := totalChunks_eq n
  constructor
  · intro h hn
    have hlast : totalChunks n - 1 < totalChunks n := by omega
    have hend := (offset_add_chunkLength_le n _ hlast).2 (by omega)
    have hfit := h _ hlast
    omega
  · intro hn i hi
    have hend := (offset_add_chunkLength_le n i hi).1
    omega

/-- No chunk of the program is refused as too large for the buffer account, whatever else the
loader finds there. -/
def NoChunkRefused (programData : List UInt8) : Prop :=
  ∀ i < totalChunks programData.length, ∀ (off : UInt32) (ks : List KeyedAccount)
    (buffer : KeyedAccount) (s : Accounts), off.toNat = offset i → ks[0]? = some buffer →
    (s buffer.key).data.length = bufferSize programData.length →
    write off (chunk programData i) ks s ≠ .error .accountDataTooSmall

/-- The buffer account holds the program exactly outside the four lengths. -/
theorem buffer_holds_program_iff (programData : List UInt8) :
    (ChunksFit programData.length ∧ NoChunkRefused programData) ↔
      ¬ (988 ≤ programData.length % 1024 ∧ programData.length % 1024 ≤ 991) := by
  constructor
  · intro h
    exact (chunksFit_iff _).mp h.1
  · intro h
    have hfit := (chunksFit_iff _).mpr h
    refine ⟨hfit, ?_⟩
    intro i hi off ks buffer s hoff hk hlen he
    have hlt := write_accountDataTooSmall hk he
    have hle := hfit i hi
    rw [chunk_length, hoff, hlen] at hlt
    omega

theorem bufferSize_fails_at_988 : 1 ≤ 988 ∧ ¬ ChunksFit 988 := by
  refine ⟨by decide, ?_⟩
  intro h
  have hsecond := h 1 (by decide)
  revert hsecond
  decide

/-- For these lengths it is the last chunk that the loader refuses, once all others are
written. -/
theorem last_chunk_refused {programData : List UInt8} {ks : List KeyedAccount}
    {buffer authority : KeyedAccount} {s : Accounts} (hN : programData.length ≤ 2 ^ 32)
    (h : 988 ≤ programData.length % 1024 ∧ programData.length % 1024 ≤ 991)
    (hk₀ : ks[0]? = some buffer) (hk₁ : ks[1]? = some authority)
    (hsig : authority.isSigner = true)
    (hst : stateOf (s buffer.key).data = some (.buffer (some authority.key)))
    (hlen : (s buffer.key).data.length = bufferSize programData.length) :
    write (UInt32.ofNat (offset (totalChunks programData.length - 1)))
      (chunk programData (totalChunks programData.length - 1)) ks s =
        .error .accountDataTooSmall := by
  have hoff : bufferDataOffset = 37 := rfl
  have hb := bufferSize_eq programData.length
  have htotal := totalChunks_eq programData.length
  have hlast : totalChunks programData.length - 1 < totalChunks programData.length := by omega
  have hend := (offset_add_chunkLength_le programData.length _ hlast).2 (by omega)
  have hoff' : offset (totalChunks programData.length - 1) < 2 ^ 32 := by
    have hlt := lt_totalChunks_iff.mp hlast
    omega
  apply write_refused hk₀ hk₁ hsig hst
  rw [hlen, chunk_length, UInt32.toNat_ofNat_of_lt' hoff']
  omega

end SolanaSample.Deploy
