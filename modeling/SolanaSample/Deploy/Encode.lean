import SolanaSample.Loader.Instruction

/-! The instruction bytes that `deploy.ts` builds by hand, read with the loader's codec. -/
namespace SolanaSample.Deploy
open PrefixCodec Loader

/-- `Buffer.writeUInt32LE` into four fresh bytes; it throws when the value is out of range. -/
def writeUInt32LE (n : ℕ) : Option (List UInt8) :=
  if n < 2 ^ 32 then some (leBytes 4 n) else none

/-- `Buffer.writeBigUInt64LE` into eight fresh bytes. -/
def writeBigUInt64LE (n : ℕ) : Option (List UInt8) :=
  if n < 2 ^ 64 then some (leBytes 8 n) else none

/-- `none` is the exception of a number that does not fit its field. -/
def encodeWriteInstruction (offset : ℕ) (data : ByteString) : Option (List UInt8) := do
  let discriminator : List UInt8 := [1, 0, 0, 0]
  let offsetBuffer ← writeUInt32LE offset
  let dataLenBuffer ← writeBigUInt64LE data.bytes.length
  some (discriminator ++ offsetBuffer ++ dataLenBuffer ++ data.bytes)

def encodeDeployWithMaxDataLenInstruction (bufferSize : ℕ) : Option (List UInt8) := do
  let discriminator : List UInt8 := [2, 0, 0, 0]
  let maxDataLenBuffer ← writeBigUInt64LE bufferSize
  some (discriminator ++ maxDataLenBuffer)

/-- The instructions that are built this way. -/
inductive BuiltInstruction where
  | write (offset : ℕ) (data : ByteString)
  | deployWithMaxDataLen (bufferSize : ℕ)
  deriving DecidableEq

def BuiltInstruction.encode : BuiltInstruction → Option (List UInt8)
  | write offset data => encodeWriteInstruction offset data
  | deployWithMaxDataLen bufferSize => encodeDeployWithMaxDataLenInstruction bufferSize

/-- The bytes of a `Write` are those bincode writes. -/
theorem encodeWriteInstruction_eq {offset : ℕ} (h : offset < 2 ^ 32) (data : ByteString) :
    encodeWriteInstruction offset data =
      some (UpgradeableLoaderInstruction.codec.encode (.write (UInt32.ofNat offset) data)) := by
  have ho : (UInt32.ofNat offset).toNat = offset := UInt32.toNat_ofNat_of_lt' h
  have hl : (UInt64.ofNat data.bytes.length).toNat = data.bytes.length :=
    UInt64.toNat_ofNat_of_lt' data.length_lt
  have hd : leBytes 4 1 = [1, 0, 0, 0] := by decide
  rw [UpgradeableLoaderInstruction.codec_encode, UpgradeableLoaderInstruction.encodeFields_write,
    ho, hl]
  have h₄ : writeUInt32LE offset = some (leBytes 4 offset) := if_pos h
  have h₈ : writeBigUInt64LE data.bytes.length = some (leBytes 8 data.bytes.length) :=
    if_pos data.length_lt
  simp [encodeWriteInstruction, h₄, h₈, UpgradeableLoaderInstruction.variantIndex, hd]

theorem encodeWriteInstruction_eq_none {offset : ℕ} (h : 2 ^ 32 ≤ offset) (data : ByteString) :
    encodeWriteInstruction offset data = none := by
  have hn : ¬ offset < 2 ^ 32 := by omega
  simp only [encodeWriteInstruction, writeUInt32LE, if_neg hn]
  rfl

theorem encodeDeployWithMaxDataLenInstruction_eq {n : ℕ} (h : n < 2 ^ 64) :
    encodeDeployWithMaxDataLenInstruction n =
      some (UpgradeableLoaderInstruction.codec.encode
        (.deployWithMaxDataLen (UInt64.ofNat n))) := by
  have hn : (UInt64.ofNat n).toNat = n := UInt64.toNat_ofNat_of_lt' h
  have hd : leBytes 4 2 = [2, 0, 0, 0] := by decide
  rw [UpgradeableLoaderInstruction.codec_encode,
    UpgradeableLoaderInstruction.encodeFields_deployWithMaxDataLen, hn]
  have h₈ : writeBigUInt64LE n = some (leBytes 8 n) := if_pos h
  simp [encodeDeployWithMaxDataLenInstruction, h₈, UpgradeableLoaderInstruction.variantIndex, hd]

theorem encodeDeployWithMaxDataLenInstruction_eq_none {n : ℕ} (h : 2 ^ 64 ≤ n) :
    encodeDeployWithMaxDataLenInstruction n = none := by
  have hn : ¬ n < 2 ^ 64 := by omega
  simp only [encodeDeployWithMaxDataLenInstruction, writeBigUInt64LE, if_neg hn]
  rfl

/-- An encoded instruction is the bincode of the loader instruction it stands for. -/
theorem BuiltInstruction.encode_eq_some {ix : BuiltInstruction} {bs : List UInt8}
    (h : ix.encode = some bs) :
    (∃ offset data, ix = .write offset data ∧ offset < 2 ^ 32 ∧
      bs = UpgradeableLoaderInstruction.codec.encode (.write (UInt32.ofNat offset) data)) ∨
    (∃ n, ix = .deployWithMaxDataLen n ∧ n < 2 ^ 64 ∧
      bs = UpgradeableLoaderInstruction.codec.encode
        (.deployWithMaxDataLen (UInt64.ofNat n))) := by
  cases ix with
  | write offset data =>
    by_cases hlt : offset < 2 ^ 32
    · rw [encode, encodeWriteInstruction_eq hlt] at h
      exact .inl ⟨offset, data, rfl, hlt, (Option.some.inj h).symm⟩
    · rw [encode, encodeWriteInstruction_eq_none (by omega)] at h
      cases h
  | deployWithMaxDataLen n =>
    by_cases hlt : n < 2 ^ 64
    · rw [encode, encodeDeployWithMaxDataLenInstruction_eq hlt] at h
      exact .inr ⟨n, rfl, hlt, (Option.some.inj h).symm⟩
    · rw [encode, encodeDeployWithMaxDataLenInstruction_eq_none (by omega)] at h
      cases h

/-- Two built instructions with the same bytes are the same instruction. -/
theorem BuiltInstruction.encode_injective {ix ix' : BuiltInstruction} {bs : List UInt8}
    (h : ix.encode = some bs) (h' : ix'.encode = some bs) : ix = ix' := by
  rcases encode_eq_some h with ⟨o, d, rfl, ho, rfl⟩ | ⟨n, rfl, hn, rfl⟩ <;>
    rcases encode_eq_some h' with ⟨o', d', rfl, ho', he⟩ | ⟨n', rfl, hn', he⟩
  · have heq := Codec.encode_injective _ he
    injection heq with hoff hdata
    have hnat := congrArg UInt32.toNat hoff
    rw [UInt32.toNat_ofNat_of_lt' ho, UInt32.toNat_ofNat_of_lt' ho'] at hnat
    rw [hnat, hdata]
  · exact absurd (Codec.encode_injective _ he) (by simp)
  · exact absurd (Codec.encode_injective _ he) (by simp)
  · have heq := Codec.encode_injective _ he
    injection heq with hlen
    have hnat := congrArg UInt64.toNat hlen
    rw [UInt64.toNat_ofNat_of_lt' hn, UInt64.toNat_ofNat_of_lt' hn'] at hnat
    rw [hnat]

/-- The script and the loader agree on the wire format: the loader reads back the offset, the
bytes and the length that were encoded and nothing is left over, an offset past `u32` is not
encoded at all, and no two instructions share their bytes. -/
theorem wire_format_agrees :
    (∀ offset (data : ByteString), offset < 2 ^ 32 → ∃ bs o,
      encodeWriteInstruction offset data = some bs ∧ o.toNat = offset ∧
      UpgradeableLoaderInstruction.codec.decode bs = some (.write o data, [])) ∧
    (∀ offset (data : ByteString), 2 ^ 32 ≤ offset → encodeWriteInstruction offset data = none) ∧
    (∀ bufferSize, bufferSize < 2 ^ 64 → ∃ bs n,
      encodeDeployWithMaxDataLenInstruction bufferSize = some bs ∧ n.toNat = bufferSize ∧
      UpgradeableLoaderInstruction.codec.decode bs = some (.deployWithMaxDataLen n, [])) ∧
    (∀ (ix ix' : BuiltInstruction) bs, ix.encode = some bs → ix'.encode = some bs → ix = ix') := by
  refine ⟨?_, fun _ data h => encodeWriteInstruction_eq_none h data, ?_,
    fun _ _ _ h h' => BuiltInstruction.encode_injective h h'⟩
  · intro offset data h
    exact ⟨_, _, encodeWriteInstruction_eq h data, UInt32.toNat_ofNat_of_lt' h,
      Codec.decode_encode_nil _ _⟩
  · intro bufferSize h
    exact ⟨_, _, encodeDeployWithMaxDataLenInstruction_eq h, UInt64.toNat_ofNat_of_lt' h,
      Codec.decode_encode_nil _ _⟩

example : encodeWriteInstruction 600 ⟨[7, 8], by decide⟩ =
    some [1, 0, 0, 0, 88, 2, 0, 0, 2, 0, 0, 0, 0, 0, 0, 0, 7, 8] := by decide +kernel

end SolanaSample.Deploy
