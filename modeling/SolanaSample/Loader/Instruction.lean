import SolanaSample.Library.PrefixCodec

/-! The instructions of the upgradeable loader and their wire format: bincode, which writes
an enumeration as the `u32` index of the variant, in the order of the declaration. -/
namespace SolanaSample.Loader
open PrefixCodec

inductive UpgradeableLoaderInstruction where
  | initializeBuffer
  | write (offset : UInt32) (bytes : ByteString)
  | deployWithMaxDataLen (maxDataLen : UInt64)
  | upgrade
  | setAuthority
  | close
  | extendProgram (additionalBytes : UInt32)
  | setAuthorityChecked
  deriving DecidableEq

namespace UpgradeableLoaderInstruction

def variantIndex : UpgradeableLoaderInstruction → UInt32
  | initializeBuffer => 0
  | write _ _ => 1
  | deployWithMaxDataLen _ => 2
  | upgrade => 3
  | setAuthority => 4
  | close => 5
  | extendProgram _ => 6
  | setAuthorityChecked => 7

def encodeFields : UpgradeableLoaderInstruction → List UInt8
  | write offset bytes => (u32.pair byteString).encode (offset, bytes)
  | deployWithMaxDataLen maxDataLen => u64.encode maxDataLen
  | extendProgram additionalBytes => u32.encode additionalBytes
  | _ => []

def decodeFields (i : UInt32) (bs : List UInt8) :
    Option (UpgradeableLoaderInstruction × List UInt8) :=
  if i = 0 then some (initializeBuffer, bs)
  else if i = 1 then ((u32.pair byteString).decode bs).map fun r => (write r.1.1 r.1.2, r.2)
  else if i = 2 then (u64.decode bs).map fun r => (deployWithMaxDataLen r.1, r.2)
  else if i = 3 then some (upgrade, bs)
  else if i = 4 then some (setAuthority, bs)
  else if i = 5 then some (close, bs)
  else if i = 6 then (u32.decode bs).map fun r => (extendProgram r.1, r.2)
  else if i = 7 then some (setAuthorityChecked, bs)
  else none

theorem decodeFields_encodeFields (ix : UpgradeableLoaderInstruction) (rest : List UInt8) :
    decodeFields ix.variantIndex (ix.encodeFields ++ rest) = some (ix, rest) := by
  cases ix <;>
    simp [decodeFields, variantIndex, encodeFields, Codec.decode_encode]

theorem encodeFields_decodeFields (i : UInt32) (bs : List UInt8)
    (ix : UpgradeableLoaderInstruction) (rest : List UInt8)
    (h : decodeFields i bs = some (ix, rest)) :
    i = ix.variantIndex ∧ bs = ix.encodeFields ++ rest := by
  unfold decodeFields at h
  split_ifs at h
  case pos => cases h; exact ⟨‹_›, rfl⟩
  case pos =>
    obtain ⟨⟨offset, bytes⟩, rfl, hbs⟩ :=
      Codec.encode_decode_map (u32.pair byteString) (fun p => write p.1 p.2) h
    exact ⟨‹_›, hbs⟩
  case pos =>
    obtain ⟨maxDataLen, rfl, hbs⟩ := Codec.encode_decode_map u64 deployWithMaxDataLen h
    exact ⟨‹_›, hbs⟩
  case pos => cases h; exact ⟨‹_›, rfl⟩
  case pos => cases h; exact ⟨‹_›, rfl⟩
  case pos => cases h; exact ⟨‹_›, rfl⟩
  case pos =>
    obtain ⟨additionalBytes, rfl, hbs⟩ := Codec.encode_decode_map u32 extendProgram h
    exact ⟨‹_›, hbs⟩
  case pos => cases h; exact ⟨‹_›, rfl⟩

def codec : Codec UpgradeableLoaderInstruction :=
  enumeration variantIndex encodeFields decodeFields decodeFields_encodeFields
    encodeFields_decodeFields

theorem codec_encode (ix : UpgradeableLoaderInstruction) :
    codec.encode ix = leBytes 4 ix.variantIndex.toNat ++ ix.encodeFields := rfl

theorem encodeFields_write (offset : UInt32) (bytes : ByteString) :
    (write offset bytes).encodeFields =
      leBytes 4 offset.toNat ++ (leBytes 8 (UInt64.ofNat bytes.bytes.length).toNat ++
        bytes.bytes) := rfl

theorem encodeFields_deployWithMaxDataLen (maxDataLen : UInt64) :
    (deployWithMaxDataLen maxDataLen).encodeFields = leBytes 8 maxDataLen.toNat := rfl

end UpgradeableLoaderInstruction
end SolanaSample.Loader
