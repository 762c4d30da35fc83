import SolanaSample.Deploy.Chunks
import SolanaSample.Deploy.Encode

/-! The chunks as the loader receives them: any sequence of `Write`s in which each chunk occurs
leaves the program in the buffer. -/
namespace SolanaSample.Deploy
open PrefixCodec Splice Loader Rejection UpgradeableLoaderState

/-- A `Write`: an offset and the bytes that go there. -/
abbrev BufferWrite := UInt32 × ByteString

/-- The `Write` of the chunk `i`. -/
def IsWriteOf (programData : List UInt8) (i : ℕ) (w : BufferWrite) : Prop :=
  w.1.toNat = offset i ∧ w.2 = chunk programData i

/-- One `Write` after the other, until one fails. -/
def writeAll (ks : List KeyedAccount) (ws : List BufferWrite) (s : Accounts) :
    Except InstructionError Accounts :=
  ws.foldlM (fun s w => write w.1 w.2 ks s) s

theorem writeAll_cons (ks : List KeyedAccount) (w : BufferWrite) (ws : List BufferWrite)
    (s : Accounts) :
    writeAll ks (w :: ws) s = (do let s ← write w.1 w.2 ks s; writeAll ks ws s) :=
  List.foldlM_cons

def BufferWrite.piece (w : BufferWrite) : Piece UInt8 := ⟨w.1.toNat, w.2.bytes⟩

/-- The accounts of a `Write` that the loader admits, with a buffer of `size` bytes. -/
structure Writable (ks : List KeyedAccount) (s : Accounts) (buffer : Pubkey) (size : ℕ) :
    Prop where
  account : ∃ k, ks[0]? = some k ∧ k.key = buffer
  authority : ∃ k, ks[1]? = some k ∧ k.isSigner = true ∧
    stateOf (s buffer).data = some (.buffer (some k.key))
  length : (s buffer).data.length = size

variable {ks : List KeyedAccount} {s : Accounts} {buffer : Pubkey} {size : ℕ}

theorem write_ok (h : Writable ks s buffer size) {w : BufferWrite}
    (hfit : bufferDataOffset + w.piece.off + w.piece.bytes.length ≤ size) :
    write w.1 w.2 ks s = .ok (setData s buffer
      (splice (s buffer).data (bufferDataOffset + w.piece.off) w.piece.bytes)) := by
  obtain ⟨⟨b, hb, rfl⟩, ⟨a, ha, hsig, hst⟩, rfl⟩ := h
  simp only [write, do_ok_iff, exists_unit, keyedAccountAtIndex_eq_ok, state_eq_ok,
    demand_eq_ok, asBuffer_eq_some, requireAuthority_eq_ok, writeProgramData_eq_ok]
  exact ⟨b, hb, a, ha, _, hst, _, rfl, ⟨rfl, hsig⟩, hfit, rfl⟩

/-- A `Write` leaves the header, so the next one is admitted too. -/
theorem Writable.splice (h : Writable ks s buffer size) {w : BufferWrite}
    (hfit : bufferDataOffset + w.piece.off + w.piece.bytes.length ≤ size) :
    Writable ks (setData s buffer
      (splice (s buffer).data (bufferDataOffset + w.piece.off) w.piece.bytes)) buffer size := by
  obtain ⟨hb, ⟨a, ha, hsig, hst⟩, rfl⟩ := h
  refine ⟨hb, ⟨a, ha, hsig, ?_⟩, ?_⟩
  · rw [setData_data, if_pos rfl]
    exact stateOf_splice hst (Nat.le_add_right _ _) hfit
  · rw [setData_data, if_pos rfl, splice_length hfit]

theorem setData_setData (s : Accounts) (k : Pubkey) (data data' : List UInt8) :
    setData (setData s k data) k data' = setData s k data' := by
  unfold setData
  rw [Function.update_self, Function.update_idem]

theorem setData_self (s : Accounts) (k : Pubkey) : setData s k (s k).data = s :=
  Function.update_eq_self k s

/-- All `Write`s of a sequence are accepted when each fits, and together they splice. -/
theorem writeAll_ok (h : Writable ks s buffer size) {ws : List BufferWrite}
    (hfit : ∀ w ∈ ws, bufferDataOffset + w.piece.off + w.piece.bytes.length ≤ size) :
    writeAll ks ws s = .ok (setData s buffer
      (spliceAll (s buffer).data
        ((ws.map BufferWrite.piece).map (Piece.behind bufferDataOffset)))) := by
  induction ws generalizing s with
  | nil =>
    rw [List.map_nil, List.map_nil, spliceAll_nil, setData_self]
    rfl
  | cons w ws ih =>
    have hw := hfit w List.mem_cons_self
    have hrest := ih (h.splice hw) fun w' hw' => hfit w' (List.mem_cons_of_mem w hw')
    rw [setData_setData, setData_data, if_pos rfl] at hrest
    rw [writeAll_cons, do_ok_iff]
    exact ⟨_, write_ok h hw, hrest⟩

/-- The chunks split the program, and delivered in any order and with any repetitions they
put it together again. -/
structure ChunksAssemble (programData : List UInt8) : Prop where
  sent : ∀ i bs, encodeWriteInstruction (offset i) (chunk programData i) = some bs →
    ∃ w, IsWriteOf programData i w ∧
      bs = UpgradeableLoaderInstruction.codec.encode (.write w.1 w.2)
  slice : ∀ i < totalChunks programData.length, (chunk programData i).bytes =
    (programData.drop (offset i)).take (min (offset (i + 1)) programData.length - offset i)
  nonempty : ∀ i < totalChunks programData.length, (chunk programData i).bytes ≠ []
  disjoint : ∀ i j k, (piece programData i).covers k → (piece programData j).covers k → i = j
  cover : ∀ k, k < programData.length ↔
    ∃ i < totalChunks programData.length, (piece programData i).covers k
  assembled : ∀ ks s buffer size (ws : List BufferWrite), Writable ks s buffer size →
    bufferDataOffset + programData.length ≤ size →
    (∀ w ∈ ws, ∃ i < totalChunks programData.length, IsWriteOf programData i w) →
    (∀ i < totalChunks programData.length, ∃ w ∈ ws, IsWriteOf programData i w) →
    ∃ data, writeAll ks ws s = .ok (setData s buffer data) ∧
      data.drop bufferDataOffset = programData ++
        ((s buffer).data.drop bufferDataOffset).drop programData.length ∧
      data.take bufferDataOffset = (s buffer).data.take bufferDataOffset

/-- What the script encodes for a chunk is its `Write`; past `u32` it encodes nothing. -/
theorem chunk_sent {programData : List UInt8} {i : ℕ} {bs : List UInt8}
    (h : encodeWriteInstruction (offset i) (chunk programData i) = some bs) :
    ∃ w, IsWriteOf programData i w ∧
      bs = UpgradeableLoaderInstruction.codec.encode (.write w.1 w.2) := by
  by_cases hlt : offset i < 2 ^ 32
  · rw [encodeWriteInstruction_eq hlt] at h
    exact ⟨(UInt32.ofNat (offset i), chunk programData i),
      ⟨UInt32.toNat_ofNat_of_lt' hlt, rfl⟩, (Option.some.inj h).symm⟩
  · rw [encodeWriteInstruction_eq_none (Nat.not_lt.mp hlt)] at h
    cases h

theorem chunk_slice (programData : List UInt8) (i : ℕ) : (chunk programData i).bytes =
    (programData.drop (offset i)).take (min (offset (i + 1)) programData.length - offset i) := by
  have hnext : offset (i + 1) = offset i + chunkSize := Nat.succ_mul i chunkSize
  rw [chunk, List.take_eq_take_iff, List.length_drop, hnext]
  omega

theorem chunk_nonempty {programData : List UInt8} {i : ℕ}
    (h : i < totalChunks programData.length) : (chunk programData i).bytes ≠ [] := by
  have hlt := lt_totalChunks_iff.mp h
  have hpos : 0 < (chunk programData i).bytes.length := by
    rw [chunk_length, chunkLength, chunkSize_eq]
    omega
  exact List.ne_nil_of_length_pos hpos

theorem chunks_disjoint {programData : List UInt8} {i j k : ℕ}
    (hi : (piece programData i).covers k) (hj : (piece programData j).covers k) : i = j := by
  simp only [Piece.covers, piece, chunk_length, chunkLength, offset, chunkSize_eq] at hi hj
  omega

theorem chunks_cover (programData : List UInt8) (k : ℕ) : k < programData.length ↔
    ∃ i < totalChunks programData.length, (piece programData i).covers k := by
  constructor
  · exact exists_piece_covers
  · intro h
    obtain ⟨i, hi, hcov⟩ := h
    exact Nat.lt_of_lt_of_le hcov.2 (piece_isSliceOf programData hi).1

theorem IsWriteOf.piece_eq {programData : List UInt8} {i : ℕ} {w : BufferWrite}
    (h : IsWriteOf programData i w) : w.piece = piece programData i := by
  rw [BufferWrite.piece, h.1, h.2, piece]

theorem chunks_assemble (programData : List UInt8) : ChunksAssemble programData where
  sent _ _ h := chunk_sent h
  slice i _ := chunk_slice programData i
  nonempty i hi := chunk_nonempty hi
  disjoint i j k hi hj := chunks_disjoint hi hj
  cover := chunks_cover programData
  assembled ks s buffer size ws h hsize hws hall := by
    have hslice : ∀ w ∈ ws, w.piece.IsSliceOf programData := by
      intro w hw
      obtain ⟨i, hi, hiw⟩ := hws w hw
      rw [hiw.piece_eq]
      exact piece_isSliceOf programData hi
    have hfit : ∀ w ∈ ws, bufferDataOffset + w.piece.off + w.piece.bytes.length ≤ size := by
      intro w hw
      have hend := (hslice w hw).1
      omega
    have hlen := h.length
    have hpieces : ∀ p ∈ ws.map BufferWrite.piece,
        bufferDataOffset + p.off + p.bytes.length ≤ (s buffer).data.length := by
      rw [hlen]
      exact List.forall_mem_map.mpr hfit
    have hcover : ∀ k < programData.length, ∃ p ∈ ws.map BufferWrite.piece, p.covers k := by
      intro k hk
      obtain ⟨i, hi, hcov⟩ := exists_piece_covers hk
      obtain ⟨w, hw, hiw⟩ := hall i hi
      exact ⟨w.piece, List.mem_map_of_mem hw, by rw [hiw.piece_eq]; exact hcov⟩
    have hregion : programData.length ≤ ((s buffer).data.drop bufferDataOffset).length := by
      rw [List.length_drop, hlen]
      omega
    refine ⟨_, writeAll_ok h hfit, ?_, ?_⟩
    · rw [spliceAll_behind_drop hpieces]
      exact spliceAll_eq_image (List.forall_mem_map.mpr hslice) hregion hcover
    · exact spliceAll_behind_take hpieces

end SolanaSample.Deploy
