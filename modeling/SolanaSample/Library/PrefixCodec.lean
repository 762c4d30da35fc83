import Mathlib.Logic.Equiv.Defs
import Mathlib.Tactic.Ring

/-! Byte formats that are read from the front of a byte string. A codec reads back what it
wrote, whatever follows, and reads nothing it could not have written. -/
namespace PrefixCodec

structure Codec (α : Type*) where
  encode : α → List UInt8
  decode : List UInt8 → Option (α × List UInt8)
  decode_encode : ∀ a rest, decode (encode a ++ rest) = some (a, rest)
  encode_decode : ∀ bs a rest, decode bs = some (a, rest) → bs = encode a ++ rest

namespace Codec
variable {α β : Type*}

theorem decode_encode_nil (c : Codec α) (a : α) : c.decode (c.encode a) = some (a, []) := by
  simpa using c.decode_encode a []

theorem encode_injective (c : Codec α) {a b : α} (h : c.encode a = c.encode b) : a = b := by
  have ha := c.decode_encode_nil a
  rw [h, c.decode_encode_nil b] at ha
  exact (Prod.mk.inj (Option.some.inj ha)).1.symm

/-- A value that is made of one that was read. -/
theorem encode_decode_map (c : Codec α) (f : α → β) {bs rest : List UInt8} {b : β}
    (h : (c.decode bs).map (fun r => (f r.1, r.2)) = some (b, rest)) :
    ∃ a, b = f a ∧ bs = c.encode a ++ rest := by
  obtain ⟨⟨a, rest'⟩, hd, he⟩ := Option.map_eq_some_iff.mp h
  obtain ⟨rfl, rfl⟩ := Prod.mk.inj he
  exact ⟨a, rfl, c.encode_decode _ _ _ hd⟩

/-- What is read at the front is read again when only bytes behind it are changed. -/
theorem decode_append_congr (c : Codec α) {front back back' rest : List UInt8} {a : α}
    (h : c.decode (front ++ back) = some (a, rest)) (hlen : (c.encode a).length ≤ front.length) :
    ∃ rest', c.decode (front ++ back') = some (a, rest') := by
  have hbs := c.encode_decode _ _ _ h
  have hfront : front = c.encode a ++ front.drop (c.encode a).length := by
    have htake := congrArg (List.take (c.encode a).length) hbs
    rw [List.take_append_of_le_length hlen, List.take_left] at htake
    conv_lhs => rw [← List.take_append_drop (c.encode a).length front, htake]
  refine ⟨front.drop (c.encode a).length ++ back', ?_⟩
  rw [hfront, List.append_assoc, c.decode_encode]
  congr 3
  rw [← hfront]

/-- Read a value of another type through a bijection. -/
def map (c : Codec α) (e : α ≃ β) : Codec β where
  encode b := c.encode (e.symm b)
  decode bs := (c.decode bs).map fun r => (e r.1, r.2)
  decode_encode b rest := by simp [c.decode_encode]
  encode_decode bs b rest h := by
    obtain ⟨⟨a, rest'⟩, hd, he⟩ := Option.map_eq_some_iff.mp h
    obtain ⟨rfl, rfl⟩ := Prod.mk.inj he
    simpa using c.encode_decode _ _ _ hd

/-- Two values in a row. -/
def pair (c : Codec α) (d : Codec β) : Codec (α × β) where
  encode p := c.encode p.1 ++ d.encode p.2
  decode bs := (c.decode bs).bind fun r => (d.decode r.2).map fun t => ((r.1, t.1), t.2)
  decode_encode p rest := by simp [c.decode_encode, d.decode_encode]
  encode_decode bs p rest h := by
    obtain ⟨⟨a, mid⟩, hc, h⟩ := Option.bind_eq_some_iff.mp h
    obtain ⟨⟨b, rest'⟩, hd, he⟩ := Option.map_eq_some_iff.mp h
    obtain ⟨rfl, rfl⟩ := Prod.mk.inj he
    rw [c.encode_decode _ _ _ hc]
    dsimp only at hd ⊢
    rw [d.encode_decode _ _ _ hd, List.append_assoc]

/-- A fixed number of bytes, as they are. -/
def fixed (n : ℕ) : Codec {bs : List UInt8 // bs.length = n} where
  encode bs := bs.1
  decode bs := if h : n ≤ bs.length then
    some (⟨bs.take n, List.length_take_of_le h⟩, bs.drop n) else none
  decode_encode bs rest := by
    obtain ⟨bs, rfl⟩ := bs
    simp
  encode_decode bs a rest h := by
    split_ifs at h with hn
    obtain ⟨rfl, rfl⟩ := Prod.mk.inj (Option.some.inj h)
    exact (List.take_append_drop n bs).symm

end Codec

/-! Little-endian naturals. -/

def leBytes : ℕ → ℕ → List UInt8
  | 0, _ => []
  | w + 1, n => UInt8.ofNat n :: leBytes w (n / 256)

def leValue : List UInt8 → ℕ
  | [] => 0
  | b :: bs => b.toNat + 256 * leValue bs

@[simp] theorem leBytes_length (w n : ℕ) : (leBytes w n).length = w := by
  induction w generalizing n with
  | zero => rfl
  | succ w ih => rw [leBytes, List.length_cons, ih]

theorem leValue_lt (bs : List UInt8) : leValue bs < 256 ^ bs.length := by
  induction bs with
  | nil => simp [leValue]
  | cons b bs ih =>
    have hb := b.toNat_lt
    rw [leValue, List.length_cons, pow_succ]
    omega

theorem leValue_leBytes {w n : ℕ} (h : n < 256 ^ w) : leValue (leBytes w n) = n := by
  induction w generalizing n with
  | zero =>
    rw [pow_zero] at h
    rw [leBytes, leValue]
    omega
  | succ w ih =>
    have hq : n / 256 < 256 ^ w := by
      rw [pow_succ] at h
      exact Nat.div_lt_of_lt_mul (by omega)
    have hb : (UInt8.ofNat n).toNat = n % 256 := by simp
    rw [leBytes, leValue, ih hq, hb]
    omega

theorem leBytes_leValue (bs : List UInt8) : leBytes bs.length (leValue bs) = bs := by
  induction bs with
  | nil => rfl
  | cons b bs ih =>
    have hb := b.toNat_lt
    have hdiv : (b.toNat + 256 * leValue bs) / 256 = leValue bs := by omega
    have hbyte : UInt8.ofNat (b.toNat + 256 * leValue bs) = b := by
      apply UInt8.toNat_inj.mp
      rw [UInt8.toNat_ofNat']
      omega
    rw [List.length_cons, leValue, leBytes, hdiv, ih, hbyte]

/-- `w` bytes are the numbers below `256 ^ w`. -/
def leEquiv (w : ℕ) : {bs : List UInt8 // bs.length = w} ≃ Fin (256 ^ w) where
  toFun bs := ⟨leValue bs.1, by simpa [bs.2] using leValue_lt bs.1⟩
  invFun n := ⟨leBytes w n, leBytes_length w n⟩
  left_inv bs := by
    obtain ⟨bs, rfl⟩ := bs
    exact Subtype.ext (leBytes_leValue bs)
  right_inv n := Fin.ext (leValue_leBytes n.isLt)

def u32Equiv : Fin (256 ^ 4) ≃ UInt32 where
  toFun n := UInt32.ofNat n
  invFun u := ⟨u.toNat, u.toNat_lt⟩
  left_inv n := by
    apply Fin.ext
    exact Nat.mod_eq_of_lt n.isLt
  right_inv u := UInt32.ofNat_toNat

def u64Equiv : Fin (256 ^ 8) ≃ UInt64 where
  toFun n := UInt64.ofNat n
  invFun u := ⟨u.toNat, u.toNat_lt⟩
  left_inv n := by
    apply Fin.ext
    exact Nat.mod_eq_of_lt n.isLt
  right_inv u := UInt64.ofNat_toNat

def u32 : Codec UInt32 := ((Codec.fixed 4).map (leEquiv 4)).map u32Equiv

def u64 : Codec UInt64 := ((Codec.fixed 8).map (leEquiv 8)).map u64Equiv

theorem u64_encode (u : UInt64) : u64.encode u = leBytes 8 u.toNat := rfl

/-- A byte string whose length fits the length prefix it is written with. -/
structure ByteString where
  bytes : List UInt8
  length_lt : bytes.length < 2 ^ 64
  deriving DecidableEq

theorem ByteString.ext {a b : ByteString} (h : a.bytes = b.bytes) : a = b := by
  cases a
  cases b
  simpa using h

/-- A byte string behind its length, a `u64`. -/
def byteString : Codec ByteString where
  encode s := u64.encode (UInt64.ofNat s.bytes.length) ++ s.bytes
  decode bs := (u64.decode bs).bind fun r =>
    if h : r.1.toNat ≤ r.2.length then
      some (⟨r.2.take r.1.toNat, (List.length_take_le _ _).trans_lt r.1.toNat_lt⟩,
        r.2.drop r.1.toNat)
    else none
  decode_encode s rest := by
    have hlen : (UInt64.ofNat s.bytes.length).toNat = s.bytes.length :=
      UInt64.toNat_ofNat_of_lt' s.length_lt
    simp [u64.decode_encode, hlen]
  encode_decode bs s rest h := by
    obtain ⟨⟨n, mid⟩, hd, h⟩ := Option.bind_eq_some_iff.mp h
    split_ifs at h with hn
    obtain ⟨rfl, rfl⟩ := Prod.mk.inj (Option.some.inj h)
    have hlen : (mid.take n.toNat).length = n.toNat := List.length_take_of_le hn
    rw [u64.encode_decode _ _ _ hd]
    change u64.encode n ++ mid = u64.encode (UInt64.ofNat (mid.take n.toNat).length) ++
      mid.take n.toNat ++ mid.drop n.toNat
    rw [hlen, UInt64.ofNat_toNat, List.append_assoc, List.take_append_drop]

/-- A byte that says whether a value follows. -/
def option {α : Type*} (c : Codec α) : Codec (Option α) where
  encode
    | none => [0]
    | some a => 1 :: c.encode a
  decode
    | 0 :: bs => some (none, bs)
    | 1 :: bs => (c.decode bs).map fun r => (some r.1, r.2)
    | _ => none
  decode_encode o rest := by
    cases o with
    | none => rfl
    | some a => simp [c.decode_encode]
  encode_decode bs o rest h := by
    split at h
    · obtain ⟨rfl, rfl⟩ := Prod.mk.inj (Option.some.inj h)
      rfl
    · obtain ⟨⟨a, rest'⟩, hd, he⟩ := Option.map_eq_some_iff.mp h
      obtain ⟨rfl, rfl⟩ := Prod.mk.inj he
      rw [c.encode_decode _ _ _ hd]
      rfl
    · exact absurd h (by simp)

/-- An enumeration: the index of the variant as a `u32`, then the fields of that variant. -/
def enumeration {α : Type*} (index : α → UInt32) (encodeFields : α → List UInt8)
    (decodeFields : UInt32 → List UInt8 → Option (α × List UInt8))
    (hde : ∀ a rest, decodeFields (index a) (encodeFields a ++ rest) = some (a, rest))
    (hed : ∀ i bs a rest, decodeFields i bs = some (a, rest) →
      i = index a ∧ bs = encodeFields a ++ rest) : Codec α where
  encode a := u32.encode (index a) ++ encodeFields a
  decode bs := (u32.decode bs).bind fun r => decodeFields r.1 r.2
  decode_encode a rest := by simp [u32.decode_encode, hde]
  encode_decode bs a rest h := by
    obtain ⟨⟨i, mid⟩, hd, h⟩ := Option.bind_eq_some_iff.mp h
    obtain ⟨rfl, rfl⟩ := hed _ _ _ _ h
    rw [u32.encode_decode _ _ _ hd, List.append_assoc]

end PrefixCodec
