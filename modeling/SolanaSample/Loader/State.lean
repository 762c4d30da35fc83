import SolanaSample.Chain.Pubkey
import SolanaSample.Library.PrefixCodec
import SolanaSample.Library.Splice
import SolanaSample.Library.Rejection

/-! The states of an account of the upgradeable loader. A state is serialised at the front
of the account's data; the bytes of a buffer or of a program follow it. -/
namespace SolanaSample.Loader
open PrefixCodec Rejection Splice

def pubkeyEquiv : {bs : List UInt8 // bs.length = 32} ≃ Pubkey where
  toFun bs := ⟨bs.1, bs.2⟩
  invFun k := ⟨k.bytes, k.length_eq⟩
  left_inv _ := rfl
  right_inv _ := rfl

def pubkey : Codec Pubkey := (Codec.fixed 32).map pubkeyEquiv

inductive UpgradeableLoaderState where
  | uninitialized
  | buffer (authorityAddress : Option Pubkey)
  | program (programdataAddress : Pubkey)
  | programData (slot : UInt64) (upgradeAuthorityAddress : Option Pubkey)
  deriving DecidableEq

namespace UpgradeableLoaderState

def variantIndex : UpgradeableLoaderState → UInt32
  | uninitialized => 0
  | buffer _ => 1
  | program _ => 2
  | programData _ _ => 3

def encodeFields : UpgradeableLoaderState → List UInt8
  | uninitialized => []
  | buffer authorityAddress => (option pubkey).encode authorityAddress
  | program programdataAddress => pubkey.encode programdataAddress
  | programData slot upgradeAuthorityAddress =>
    (u64.pair (option pubkey)).encode (slot, upgradeAuthorityAddress)

def decodeFields (i : UInt32) (bs : List UInt8) : Option (UpgradeableLoaderState × List UInt8) :=
  if i = 0 then some (uninitialized, bs)
  else if i = 1 then ((option pubkey).decode bs).map fun r => (buffer r.1, r.2)
  else if i = 2 then (pubkey.decode bs).map fun r => (program r.1, r.2)
  else if i = 3 then
    ((u64.pair (option pubkey)).decode bs).map fun r => (programData r.1.1 r.1.2, r.2)
  else none

theorem decodeFields_encodeFields (st : UpgradeableLoaderState) (rest : List UInt8) :
    decodeFields st.variantIndex (st.encodeFields ++ rest) = some (st, rest) := by
  cases st <;> simp [decodeFields, variantIndex, encodeFields, Codec.decode_encode]

theorem encodeFields_decodeFields (i : UInt32) (bs : List UInt8) (st : UpgradeableLoaderState)
    (rest : List UInt8) (h : decodeFields i bs = some (st, rest)) :
    i = st.variantIndex ∧ bs = st.encodeFields ++ rest := by
  unfold decodeFields at h
  split_ifs at h
  case pos => cases h; exact ⟨‹_›, rfl⟩
  case pos =>
    obtain ⟨authorityAddress, rfl, hbs⟩ := Codec.encode_decode_map (option pubkey) buffer h
    exact ⟨‹_›, hbs⟩
  case pos =>
    obtain ⟨programdataAddress, rfl, hbs⟩ := Codec.encode_decode_map pubkey program h
    exact ⟨‹_›, hbs⟩
  case pos =>
    obtain ⟨⟨slot, upgradeAuthorityAddress⟩, rfl, hbs⟩ :=
      Codec.encode_decode_map (u64.pair (option pubkey)) (fun p => programData p.1 p.2) h
    exact ⟨‹_›, hbs⟩

def codec : Codec UpgradeableLoaderState :=
  enumeration variantIndex encodeFields decodeFields decodeFields_encodeFields
    encodeFields_decodeFields

theorem codec_encode (st : UpgradeableLoaderState) :
    codec.encode st = leBytes 4 st.variantIndex.toNat ++ st.encodeFields := rfl

/-! The sizes the loader declares. `usize` is 64 bits wide. -/

def saturatingAdd (a b : ℕ) : ℕ := min (a + b) (2 ^ 64 - 1)

def sizeOfUninitialized : ℕ := 4

def sizeOfBufferMetadata : ℕ := 37

def sizeOfProgramdataMetadata : ℕ := 45

def sizeOfProgram : ℕ := 36

def sizeOfProgramdata (programLen : ℕ) : ℕ := saturatingAdd sizeOfProgramdataMetadata programLen

def bufferDataOffset : ℕ := sizeOfBufferMetadata

def programLen : ℕ := sizeOfProgram

def programdataLen (programLen : ℕ) : ℕ := sizeOfProgramdata programLen

def programdataDataOffset : ℕ := sizeOfProgramdataMetadata

/-- The size a state takes when it is serialised. -/
def serializedSize : UpgradeableLoaderState → ℕ
  | uninitialized => sizeOfUninitialized
  | buffer none => 5
  | buffer (some _) => sizeOfBufferMetadata
  | program _ => sizeOfProgram
  | programData _ none => 13
  | programData _ (some _) => sizeOfProgramdataMetadata

theorem pubkey_encode_length (k : Pubkey) : (pubkey.encode k).length = 32 := k.length_eq

/-- The declared sizes are those of the wire format. -/
theorem codec_encode_length (st : UpgradeableLoaderState) :
    (codec.encode st).length = st.serializedSize := by
  rw [codec_encode, List.length_append, leBytes_length]
  cases st with
  | uninitialized => rfl
  | buffer authorityAddress =>
    cases authorityAddress with
    | none => rfl
    | some k => simp [encodeFields, option, pubkey_encode_length, serializedSize,
        sizeOfBufferMetadata]
  | program programdataAddress =>
    simp [encodeFields, pubkey_encode_length, serializedSize, sizeOfProgram]
  | programData slot upgradeAuthorityAddress =>
    cases upgradeAuthorityAddress with
    | none => simp [encodeFields, Codec.pair, option, u64_encode, serializedSize]
    | some k => simp [encodeFields, Codec.pair, option, u64_encode, pubkey_encode_length,
        serializedSize, sizeOfProgramdataMetadata]

end UpgradeableLoaderState

/-- `account.state()`: the state at the front of the data, whatever follows. -/
def stateOf (data : List UInt8) : Option UpgradeableLoaderState :=
  (UpgradeableLoaderState.codec.decode data).map Prod.fst

/-- `account.set_state()`: overwrite the front of the data; `none` when it is too short. -/
def setStateOf (st : UpgradeableLoaderState) (data : List UInt8) : Option (List UInt8) :=
  if st.serializedSize ≤ data.length then
    some (splice data 0 (UpgradeableLoaderState.codec.encode st)) else none

theorem stateOf_encode (st : UpgradeableLoaderState) (rest : List UInt8) :
    stateOf (UpgradeableLoaderState.codec.encode st ++ rest) = some st := by
  simp [stateOf, Codec.decode_encode]

@[simp] theorem stateOf_nil : stateOf [] = none := rfl

/-- An account with a state is in use. -/
theorem ne_nil_of_stateOf {data : List UInt8} {st : UpgradeableLoaderState}
    (h : stateOf data = some st) : data ≠ [] := by
  intro he
  rw [he, stateOf_nil] at h
  cases h

/-- What setting the state does to the data of an account. -/
theorem setStateOf_eq_some {st : UpgradeableLoaderState} {data data' : List UInt8}
    (h : setStateOf st data = some data') :
    stateOf data' = some st ∧ data'.length = data.length ∧
      ∀ n, st.serializedSize ≤ n → data'.drop n = data.drop n := by
  unfold setStateOf at h
  split_ifs at h with hle
  obtain rfl := Option.some.inj h
  have hlen := UpgradeableLoaderState.codec_encode_length st
  refine ⟨?_, splice_length (by omega), ?_⟩
  · rw [splice, List.take_zero, List.nil_append, stateOf_encode]
  · intro n hn
    rw [splice, List.take_zero, List.nil_append, Nat.zero_add, hlen, List.drop_append,
      List.drop_eq_nil_of_le (by omega), List.nil_append, List.drop_drop, hlen]
    congr 1
    omega

/-- Bytes behind the serialised state do not matter to it. -/
theorem stateOf_splice {data bytes : List UInt8} {off : ℕ} {st : UpgradeableLoaderState}
    (h : stateOf data = some st) (hoff : st.serializedSize ≤ off)
    (hfit : off + bytes.length ≤ data.length) : stateOf (splice data off bytes) = some st := by
  obtain ⟨⟨st', rest⟩, hd, he⟩ := Option.map_eq_some_iff.mp h
  obtain rfl : st' = st := he
  have hlen := UpgradeableLoaderState.codec_encode_length st'
  have hsplit := (List.take_append_drop off data).symm
  rw [hsplit] at hd
  have hfront : (UpgradeableLoaderState.codec.encode st').length ≤ (data.take off).length := by
    rw [List.length_take]
    omega
  obtain ⟨rest', hd'⟩ : ∃ rest', UpgradeableLoaderState.codec.decode
      (data.take off ++ (bytes ++ data.drop (off + bytes.length))) = some (st', rest') :=
    UpgradeableLoaderState.codec.decode_append_congr hd hfront
  rw [stateOf, splice, List.append_assoc, hd']
  rfl

/-- Fresh data, all zeros, is uninitialised. -/
theorem stateOf_zeros {n : ℕ} (h : 4 ≤ n) :
    stateOf (List.replicate n 0) = some .uninitialized := by
  have hz : UpgradeableLoaderState.codec.encode .uninitialized = List.replicate 4 0 := by decide
  obtain ⟨m, rfl⟩ := Nat.exists_eq_add_of_le h
  rw [List.replicate_add, ← hz]
  exact stateOf_encode _ _

end SolanaSample.Loader
