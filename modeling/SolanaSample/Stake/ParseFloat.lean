import Mathlib.Algebra.Order.Ring.Rat
import Mathlib.Data.List.TakeWhile
import Mathlib.Tactic.SplitIfs

/-! `parseFloat`: the longest front of a text that is a decimal literal, behind white space. -/
namespace SolanaSample.Stake

/-- A number of the language. The zeros are one zero here, and no test tells them apart. -/
inductive Number where
  | nan
  | infinity (negative : Bool)
  | finite (value : ℚ)
  deriving DecidableEq

namespace Number

/-- Being truthy. -/
def isTruthy : Number → Bool
  | nan => false
  | infinity _ => true
  | finite value => value ≠ 0

def isNaN : Number → Bool
  | nan => true
  | _ => false

/-- `n <= 0`. -/
def isNonpositive : Number → Bool
  | nan => false
  | infinity negative => negative
  | finite value => value ≤ 0

/-- `n > 0`. -/
def isPositive : Number → Bool
  | nan => false
  | infinity negative => !negative
  | finite value => 0 < value

/-- The product with a positive number, unrounded. -/
def scale (factor : ℚ) : Number → Number
  | nan => nan
  | infinity negative => infinity negative
  | finite value => finite (value * factor)

end Number

/-- What `String.prototype.trim` takes off: white space and line ends. -/
def isWhitespace (c : Char) : Bool :=
  c.toNat ∈ [0x9, 0xA, 0xB, 0xC, 0xD, 0x20, 0xA0, 0x1680, 0x2028, 0x2029, 0x202F, 0x205F, 0x3000,
    0xFEFF] || (0x2000 ≤ c.toNat && c.toNat ≤ 0x200A)

/-- The digits at the front, and the rest. -/
def spanDigits (cs : List Char) : List Char × List Char :=
  (cs.takeWhile Char.isDigit, cs.dropWhile Char.isDigit)

def digitsValue (ds : List Char) : ℕ := ds.foldl (fun n c => 10 * n + (c.toNat - 48)) 0

/-- Whether a minus is in front, and what is behind the sign. -/
def takeSign : List Char → Bool × List Char
  | [] => (false, [])
  | c :: rest =>
    if c = '+' then (false, rest) else if c = '-' then (true, rest) else (false, c :: rest)

/-- `SignedInteger`: digits with or without a sign. -/
def signedInteger (cs : List Char) : Option ℤ :=
  let (negative, cs) := takeSign cs
  match (spanDigits cs).1 with
  | [] => none
  | ds => some (if negative then -(digitsValue ds : ℤ) else digitsValue ds)

/-- The exponent at the front, if there is one. -/
def exponentPart : List Char → ℤ
  | [] => 0
  | c :: rest => if c = 'e' ∨ c = 'E' then (signedInteger rest).getD 0 else 0

/-- The digits behind a point, and the rest. -/
def fractionPart : List Char → List Char × List Char
  | [] => ([], [])
  | c :: rest => if c = '.' then spanDigits rest else ([], c :: rest)

inductive Literal where
  | infinity
  | decimal (value : ℚ)
  deriving DecidableEq

/-- The digits before and behind the point, times a power of ten. -/
def decimalValue (whole fraction : List Char) (exponent : ℤ) : ℚ :=
  mkRat (digitsValue (whole ++ fraction) * 10 ^ exponent.toNat)
    (10 ^ (fraction.length + (-exponent).toNat))

/-- `StrUnsignedDecimalLiteral` at the front of a text. A point needs digits on one side of it
only, and an exponent that is not complete is not part of the literal. -/
def unsignedDecimalLiteral (cs : List Char) : Option Literal :=
  if "Infinity".toList.isPrefixOf cs then some .infinity
  else
    let (whole, rest) := spanDigits cs
    let (fraction, rest) := fractionPart rest
    if whole = [] ∧ fraction = [] then none
    else some (.decimal (decimalValue whole fraction (exponentPart rest)))

/-- `round` takes a decimal value to the nearest number. -/
def Literal.toNumber (round : ℚ → Number) (negative : Bool) : Literal → Number
  | infinity => .infinity negative
  | decimal value => round (if negative then -value else value)

def parseFloat (round : ℚ → Number) (string : String) : Number :=
  let (negative, cs) := takeSign (string.toList.dropWhile isWhitespace)
  match unsignedDecimalLiteral cs with
  | none => .nan
  | some literal => literal.toNumber round negative

theorem parseFloat_empty (round : ℚ → Number) : parseFloat round "" = .nan := by
  simp [parseFloat, takeSign, unsignedDecimalLiteral, spanDigits, fractionPart]

theorem ne_of_isDigit {c d : Char} (h : c.isDigit = true) (hd : d.isDigit = false) : c ≠ d := by
  intro he
  rw [he, hd] at h
  cases h

theorem isWhitespace_of_isDigit {c : Char} (h : c.isDigit = true) : isWhitespace c = false := by
  have hc : 48 ≤ c.toNat ∧ c.toNat ≤ 57 := Char.isDigit_iff_toNat.mp h
  simp only [isWhitespace, List.mem_cons, List.not_mem_nil, or_false, Bool.or_eq_false_iff,
    decide_eq_false_iff_not, Bool.and_eq_false_iff]
  omega

theorem spanDigits_append {ds rest : List Char} (hds : ∀ c ∈ ds, c.isDigit = true)
    (hrest : ∀ c ∈ rest.head?, c.isDigit = false) : spanDigits (ds ++ rest) = (ds, rest) := by
  induction ds with
  | nil =>
    cases rest with
    | nil => rfl
    | cons c rest =>
      have hc : c.isDigit = false := hrest c rfl
      simp [spanDigits, hc]
  | cons d ds ih =>
    have hd := hds d List.mem_cons_self
    have htail := ih fun c hc => hds c (List.mem_cons_of_mem d hc)
    simp only [spanDigits, Prod.mk.injEq] at htail ⊢
    rw [List.cons_append, List.takeWhile_cons_of_pos hd, List.dropWhile_cons_of_pos hd, htail.1,
      htail.2]
    exact ⟨rfl, rfl⟩

theorem decimalValue_whole (ds : List Char) : decimalValue ds [] 0 = digitsValue ds := by
  simp only [decimalValue, List.append_nil, Int.toNat_zero, pow_zero, mul_one, List.length_nil,
    neg_zero, Nat.add_zero, Rat.mkRat_one]
  rfl

/-- Digits are read as the number they write, whatever text follows that does not continue
them. -/
theorem parseFloat_digits (round : ℚ → Number) {ds rest : List Char} (hne : ds ≠ [])
    (hds : ∀ c ∈ ds, c.isDigit = true)
    (hrest : ∀ c ∈ rest.head?, c.isDigit = false ∧ c ≠ '.' ∧ c ≠ 'e' ∧ c ≠ 'E') :
    parseFloat round (String.ofList (ds ++ rest)) = round (digitsValue ds) := by
  have hspan := spanDigits_append hds fun c hc => (hrest c hc).1
  have hfollow : exponentPart rest = 0 ∧ fractionPart rest = ([], rest) := by
    cases rest with
    | nil => exact ⟨rfl, rfl⟩
    | cons c rest =>
      obtain ⟨-, hpoint, he, hE⟩ := hrest c rfl
      simp only [exponentPart, fractionPart, hpoint, he, hE, or_self, ↓reduceIte, and_self]
  obtain ⟨d, tail, rfl⟩ := List.exists_cons_of_ne_nil hne
  have hd := hds d List.mem_cons_self
  have hplus : d ≠ '+' := ne_of_isDigit hd rfl
  have hminus : d ≠ '-' := ne_of_isDigit hd rfl
  have hI : 'I' ≠ d := (ne_of_isDigit hd rfl).symm
  rw [List.cons_append] at hspan
  have hliteral : unsignedDecimalLiteral (d :: (tail ++ rest)) =
      some (.decimal (digitsValue (d :: tail))) := by
    have hfinite : "Infinity".toList.isPrefixOf (d :: (tail ++ rest)) = false := by
      simp [List.isPrefixOf, hI]
    simp only [unsignedDecimalLiteral, hfinite, hspan, hfollow, Bool.false_eq_true, ↓reduceIte,
      reduceCtorEq, false_and, decimalValue_whole]
  rw [parseFloat, String.toList_ofList, List.cons_append,
    List.dropWhile_cons_of_neg (by simp [isWhitespace_of_isDigit hd])]
  simp only [takeSign, hplus, hminus, ↓reduceIte, hliteral, Literal.toNumber, Bool.false_eq_true]

example : parseFloat .finite "  -1.50e1 SOL" = .finite (-15) := by decide +kernel
example : parseFloat .finite ".5e-" = .finite (1 / 2) := by decide +kernel
example : parseFloat .finite "all" = .nan := by decide +kernel

end SolanaSample.Stake
