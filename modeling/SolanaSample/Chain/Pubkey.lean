import Mathlib.Data.List.Basic

/-! Account addresses. -/
namespace SolanaSample

/-- A public key: 32 bytes. -/
structure Pubkey where
  bytes : List UInt8
  length_eq : bytes.length = 32
  deriving DecidableEq

namespace Pubkey

/-- The key that repeats one byte. -/
def filled (b : UInt8) : Pubkey := ⟨List.replicate 32 b, List.length_replicate⟩

end Pubkey
end SolanaSample
