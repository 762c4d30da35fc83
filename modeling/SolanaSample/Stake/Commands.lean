import SolanaSample.Stake.ParseFloat
import Mathlib.Data.Rat.Floor

/-! The command line of `stake.ts`: `create` looks at the number it is given, `withdraw` at
whether there is one. How `StakeProgram.withdraw` encodes its lamports is a parameter. -/
namespace SolanaSample.Stake

/-- `LAMPORTS_PER_SOL`. -/
def lamportsPerSol : ℚ := 1000000000

/-- What `main` does; `invalid` is an exit with an error. -/
inductive Command where
  | usage
  | invalid
  | create (amount : Number) (validatorVoteAccount : String)
  | deactivate (stakeAccount : String)
  | withdraw (stakeAccount : String) (amount : Option Number)
  | info
  deriving DecidableEq

/-- `args[2] ? parseFloat(args[2]) : undefined`. An empty argument counts as none. -/
def amountArgument (round : ℚ → Number) : Option String → Option Number
  | none => none
  | some arg => if arg = "" then none else some (parseFloat round arg)

def main (round : ℚ → Number) : List String → Command
  | [] => .usage
  | command :: args =>
    if command = "" then .usage
    else if command = "create" then
      match args with
      | amountArg :: validatorVoteAccount :: _ =>
        let amount := parseFloat round amountArg
        if amount.isNaN ∨ amount.isNonpositive then .invalid
        else .create amount validatorVoteAccount
      | _ => .invalid
    else if command = "deactivate" then
      match args with
      | stakeAccount :: _ => .deactivate stakeAccount
      | [] => .invalid
    else if command = "withdraw" then
      match args with
      | stakeAccount :: args => .withdraw stakeAccount (amountArgument round args.head?)
      | [] => .invalid
    else if command = "info" then
      match args with
      | _ :: _ => .info
      | [] => .invalid
    else .invalid

inductive StakeState where
  | active
  | inactive
  | activating
  | deactivating
  deriving DecidableEq

-- The whole number that is written for a number of lamports; `none` is an exception.
variable (encode : Number → Option ℤ)

/-- The lamports of the withdraw instruction. No transaction is sent when the account is not
inactive, or when the instruction cannot be built. -/
def withdrawStake (amount : Option Number) (state : StakeState) (balance : ℕ) : Option ℤ :=
  if state ≠ .inactive then none
  else
    match amount with
    | some amount =>
      encode (if amount.isTruthy then amount.scale lamportsPerSol else .finite balance)
    | none => encode (.finite balance)

/-- The withdrawal that a command line sends. -/
def withdrawal (round : ℚ → Number) (args : List String) (state : StakeState) (balance : ℕ) :
    Option ℤ :=
  match main round args with
  | .withdraw _ amount => withdrawStake encode amount state balance
  | _ => none

/-- The documented behaviour of the encoding, which is a signed field of 64 bits: of fractions in
its range nothing is said. -/
structure SignedField (encode : Number → Option ℤ) : Prop where
  carries : ∀ n : ℤ, -2 ^ 63 ≤ n → n < 2 ^ 63 → encode (.finite n) = some n
  refuses : ∀ v : ℚ, v < -2 ^ 63 ∨ 2 ^ 63 ≤ v → encode (.finite v) = none
  refuses_infinity : ∀ negative, encode (.infinity negative) = none

/-- `create` takes the text as an amount. -/
def CreateAccepts (round : ℚ → Number) (arg : String) : Prop :=
  ∀ validatorVoteAccount, main round ["create", arg, validatorVoteAccount] =
    .create (parseFloat round arg) validatorVoteAccount

/-- A withdrawal from an inactive account takes what it was asked for: a positive amount, or
everything when no amount was given. Another text is refused, as `create` refuses it. -/
structure AsAsked (round : ℚ → Number) (stakeAccount : String) (arg : Option String)
    (balance : ℕ) : Prop where
  absent : arg = none → balance < 2 ^ 63 →
    withdrawal encode round ["withdraw", stakeAccount] .inactive balance = some (balance : ℤ)
  positive : ∀ text, arg = some text → (parseFloat round text).isPositive = true →
    ∃ n : ℤ, withdrawal encode round ["withdraw", stakeAccount, text] .inactive balance = some n ∧
      (parseFloat round text).scale lamportsPerSol = .finite n
  refused : ∀ text, arg = some text → (parseFloat round text).isPositive = false →
    withdrawal encode round ["withdraw", stakeAccount, text] .inactive balance = none
  asCreate : ∀ text, arg = some text →
    ((withdrawal encode round ["withdraw", stakeAccount, text] .inactive balance).isSome = true ↔
      CreateAccepts round text)

/-- The numbers that are dealt with as they should: a positive one that is a whole number of
lamports and fits the field, a negative one that does not get through the encoding, and one that
stands for the balance when that does not fit either. -/
def Served (balance : ℕ) : Number → Prop
  | .nan => 2 ^ 63 ≤ balance
  | .infinity negative => negative = true
  | .finite a =>
    (a = 0 ∧ 2 ^ 63 ≤ balance) ∨
    (0 < a ∧ ∃ n : ℤ, a * lamportsPerSol = n ∧ n < 2 ^ 63) ∨
    (a < 0 ∧ encode (.finite (a * lamportsPerSol)) = none)

variable {encode} {round : ℚ → Number} {stakeAccount text : String} {balance : ℕ}

theorem isPositive_iff (n : Number) :
    n.isPositive = true ↔ ¬ (n.isNaN = true ∨ n.isNonpositive = true) := by
  cases n with
  | nan => simp [Number.isPositive, Number.isNaN]
  | infinity negative => simp [Number.isPositive, Number.isNaN, Number.isNonpositive]
  | finite value => simp [Number.isPositive, Number.isNaN, Number.isNonpositive]

theorem isTruthy_of_isPositive {n : Number} (h : n.isPositive = true) : n.isTruthy = true := by
  cases n with
  | nan => cases h
  | infinity negative => rfl
  | finite value =>
    have hpos : 0 < value := by simpa [Number.isPositive] using h
    simpa [Number.isTruthy] using hpos.ne'

/-- `create` takes the positive numbers. -/
theorem createAccepts_iff :
    CreateAccepts round text ↔ (parseFloat round text).isPositive = true := by
  rw [isPositive_iff]
  unfold CreateAccepts
  constructor
  · intro h hbad
    have hcreate := h ""
    simp [main, hbad] at hcreate
  · intro h validatorVoteAccount
    simp [main, h]

theorem withdrawal_absent :
    withdrawal encode round ["withdraw", stakeAccount] .inactive balance =
      encode (.finite balance) := by
  simp [withdrawal, main, amountArgument, withdrawStake]

theorem withdrawal_text :
    withdrawal encode round ["withdraw", stakeAccount, text] .inactive balance =
      encode (if (parseFloat round text).isTruthy then
        (parseFloat round text).scale lamportsPerSol else .finite balance) := by
  by_cases h : text = ""
  · subst h
    simp [withdrawal, main, amountArgument, withdrawStake, parseFloat_empty, Number.isTruthy]
  · simp [withdrawal, main, amountArgument, withdrawStake, h]

/-- Whole numbers that fit are carried, and no others. -/
theorem SignedField.eq_some_iff (hencode : SignedField encode) (m n : ℤ) :
    encode (.finite m) = some n ↔ m = n ∧ -2 ^ 63 ≤ m ∧ m < 2 ^ 63 := by
  by_cases hm : -2 ^ 63 ≤ m ∧ m < 2 ^ 63
  · rw [hencode.carries m hm.1 hm.2, Option.some.injEq, and_iff_left hm]
  · have hout : (m : ℚ) < -2 ^ 63 ∨ 2 ^ 63 ≤ (m : ℚ) := by
      rw [not_and_or, not_le, not_lt] at hm
      exact_mod_cast hm
    have hnone : encode (.finite m) ≠ some n := by
      rw [hencode.refuses m hout]
      exact Option.some_ne_none n |>.symm
    exact iff_of_false hnone fun h => hm h.2

theorem SignedField.balance_eq_some_iff (hencode : SignedField encode) (n : ℤ) :
    encode (.finite balance) = some n ↔ balance = n ∧ balance < 2 ^ 63 := by
  have hiff := hencode.eq_some_iff balance n
  rw [Int.cast_natCast] at hiff
  rw [hiff]
  omega

theorem SignedField.balance_eq_none_iff (hencode : SignedField encode) :
    encode (.finite balance) = none ↔ 2 ^ 63 ≤ balance := by
  rw [Option.eq_none_iff_forall_ne_some]
  constructor
  · intro h
    by_contra hlt
    exact h balance ((hencode.balance_eq_some_iff balance).mpr ⟨rfl, Nat.not_le.mp hlt⟩)
  · intro h n hn
    have hlt := ((hencode.balance_eq_some_iff n).mp hn).2
    omega

theorem lamportsPerSol_pos : 0 < lamportsPerSol := by decide +kernel

/-- What `withdraw` makes of a number: served is a positive one that is carried as it is, and
any other one for which nothing is sent. -/
theorem served_iff (hencode : SignedField encode) (a : Number) :
    Served encode balance a ↔
      (a.isPositive = true ∧ ∃ n : ℤ,
        encode (a.scale lamportsPerSol) = some n ∧ a.scale lamportsPerSol = .finite n) ∨
      (a.isPositive = false ∧
        encode (if a.isTruthy then a.scale lamportsPerSol else .finite balance) = none) := by
  cases a with
  | nan => simp [Served, Number.isPositive, Number.isTruthy, hencode.balance_eq_none_iff]
  | infinity negative =>
    simp [Served, Number.isPositive, Number.isTruthy, Number.scale,
      hencode.refuses_infinity negative]
  | finite a =>
    rcases lt_trichotomy a 0 with ha | rfl | ha
    · have hne := ha.ne
      have hnot := ha.not_gt
      simp [Served, Number.isPositive, Number.isTruthy, Number.scale, ha, hne, hnot]
    · simp [Served, Number.isPositive, Number.isTruthy, hencode.balance_eq_none_iff]
    · have hne := ha.ne'
      have hnot := ha.not_gt
      have hwhole : (∃ n : ℤ, a * lamportsPerSol = n ∧ n < 2 ^ 63) ↔
          ∃ n : ℤ, encode (.finite (a * lamportsPerSol)) = some n ∧ a * lamportsPerSol = n := by
        have hlamports : 0 < a * lamportsPerSol := mul_pos ha lamportsPerSol_pos
        apply exists_congr
        intro n
        rw [and_comm (b := a * lamportsPerSol = n)]
        apply and_congr_right
        intro hn
        rw [hn] at hlamports ⊢
        have hpos : 0 < n := by exact_mod_cast hlamports
        rw [hencode.eq_some_iff]
        omega
      simpa [Served, Number.isPositive, Number.scale, ha, hne, hnot] using hwhole

/-- `withdraw` does as it is asked exactly when no amount is given, or one of these. -/
theorem asAsked_iff (hencode : SignedField encode) (round : ℚ → Number) (stakeAccount : String)
    (arg : Option String) (balance : ℕ) : AsAsked encode round stakeAccount arg balance ↔
      arg = none ∨ ∃ text, arg = some text ∧ Served encode balance (parseFloat round text) := by
  constructor
  · intro h
    cases arg with
    | none => exact .inl rfl
    | some text =>
      refine .inr ⟨text, rfl, (served_iff hencode _).mpr ?_⟩
      cases hpos : (parseFloat round text).isPositive with
      | true =>
        obtain ⟨n, hn, hscale⟩ := h.positive text rfl hpos
        rw [withdrawal_text, if_pos (isTruthy_of_isPositive hpos)] at hn
        exact .inl ⟨rfl, n, hn, hscale⟩
      | false =>
        have hnone := h.refused text rfl hpos
        rw [withdrawal_text] at hnone
        exact .inr ⟨rfl, hnone⟩
  · intro h
    rcases h with rfl | ⟨text, rfl, hserved⟩
    · refine ⟨?_, nofun, nofun, nofun⟩
      intro _ hlt
      rw [withdrawal_absent]
      exact (hencode.balance_eq_some_iff balance).mpr ⟨rfl, hlt⟩
    · rw [served_iff hencode] at hserved
      refine ⟨nofun, ?_, ?_, ?_⟩
      · rintro _ ⟨⟩ hpos
        obtain ⟨-, n, hn, hscale⟩ | ⟨hnot, -⟩ := hserved
        · rw [withdrawal_text, if_pos (isTruthy_of_isPositive hpos)]
          exact ⟨n, hn, hscale⟩
        · rw [hpos] at hnot
          cases hnot
      · rintro _ ⟨⟩ hnot
        obtain ⟨hpos, -⟩ | ⟨-, hnone⟩ := hserved
        · rw [hpos] at hnot
          cases hnot
        · rw [withdrawal_text, hnone]
      · rintro _ ⟨⟩
        rw [withdrawal_text, createAccepts_iff]
        obtain ⟨hpos, n, hn, -⟩ | ⟨hnot, hnone⟩ := hserved
        · simp [isTruthy_of_isPositive hpos, hn, hpos]
        · simp [hnone, hnot]

/-- The field, with the fraction of a number cut off when the lower half of it does not overflow. -/
def ns64 : Number → Option ℤ
  | .nan => some 0
  | .infinity _ => none
  | .finite v =>
    let high := ⌊v / (2 ^ 32 : ℕ)⌋
    if v - high * 2 ^ 32 ≤ 2 ^ 32 - 1 ∧ -2 ^ 31 ≤ high ∧ high < 2 ^ 31 then some ⌊v⌋ else none

theorem ns64_signedField : SignedField ns64 where
  carries n hlow hhigh := by
    have hfloor : ⌊(n : ℚ) / (2 ^ 32 : ℕ)⌋ = n / 2 ^ 32 := Rat.floor_intCast_div_natCast n _
    have hrest : (n : ℚ) - (n / 2 ^ 32 : ℤ) * 2 ^ 32 ≤ 2 ^ 32 - 1 := by
      have hint : n - n / 2 ^ 32 * 2 ^ 32 ≤ 2 ^ 32 - 1 := by omega
      exact_mod_cast hint
    simp only [ns64, hfloor, Int.floor_intCast]
    rw [if_pos]
    exact ⟨hrest, by omega, by omega⟩
  refuses v hv := by
    simp only [ns64]
    rw [if_neg]
    rintro ⟨-, hlow, hhigh⟩
    rw [Int.le_floor, le_div_iff₀ (by norm_num)] at hlow
    rw [Int.floor_lt, div_lt_iff₀ (by norm_num)] at hhigh
    rcases hv with hv | hv
    · norm_num at hlow hv
      linarith
    · norm_num at hhigh hv
      linarith
  refuses_infinity _ := rfl

/-- Half a SOL. -/
theorem asAsked_iff_half : AsAsked ns64 .finite "stake" (some "0.5") 5000000000 ↔
    some "0.5" = none ∨ ∃ text, some "0.5" = some text ∧
      Served ns64 5000000000 (parseFloat .finite text) :=
  asAsked_iff ns64_signedField .finite "stake" (some "0.5") 5000000000

/-- Asked for nothing, it withdraws everything. -/
theorem zero_withdraws_everything :
    ¬ AsAsked ns64 .finite "stake" (some "0") 5000000000 := by
  intro h
  have hnone := h.refused "0" rfl (by decide +kernel)
  rw [withdrawal_text] at hnone
  revert hnone
  decide +kernel

end SolanaSample.Stake
