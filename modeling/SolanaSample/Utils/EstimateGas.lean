import SolanaSample.Fireblocks.Message
import SolanaSample.Library.LastWrite
import SolanaSample.Library.PrefixCodec
import Mathlib.Data.Nat.Log

/-! What `estimate-gas.ts` reads out of a transaction: the limit and the price that its compute
budget instructions set. -/
namespace SolanaSample.EstimateGas
open Fireblocks PrefixCodec LastWrite

/-- `ComputeBudget111111111111111111111111111111`. -/
def computeBudgetProgramId : Pubkey where
  bytes := [3, 6, 70, 111, 229, 33, 23, 50, 255, 236, 173, 186, 114, 195, 155, 231,
    188, 140, 229, 187, 197, 247, 18, 107, 44, 67, 155, 58, 64, 0, 0, 0]
  length_eq := rfl

/-- A message as it is fetched. -/
inductive Message where
  | legacy (accountKeys : List Pubkey) (instructions : List CompiledInstruction)
  | versioned (message : VersionedMessage)

namespace Message

/-- The keys that the scan looks programs up in. -/
def keys : Message → List Pubkey
  | legacy accountKeys _ => accountKeys
  | versioned message => message.staticAccountKeys

def compiledInstructions : Message → List CompiledInstruction
  | legacy _ instructions => instructions
  | versioned message => message.compiledInstructions

end Message

/-- `Buffer.readUInt8`; outside of the buffer it throws. -/
def readUInt8 (buffer : List UInt8) (offset : ℕ) : Option UInt8 := buffer[offset]?

/-- `Buffer.readUInt32LE` and `Buffer.readBigUInt64LE`, by their width. -/
def readUIntLE (width : ℕ) (buffer : List UInt8) (offset : ℕ) : Option ℕ :=
  if offset + width ≤ buffer.length then some (leValue ((buffer.drop offset).take width))
  else none

def roundHalfEven (n d : ℕ) : ℕ :=
  if d < 2 * (n % d) ∨ (2 * (n % d) = d ∧ n / d % 2 = 1) then n / d + 1 else n / d

/-- `Number(n)`: a number has 53 significant bits. -/
def toNumber (n : ℕ) : ℕ :=
  let unit := 2 ^ (Nat.log 2 n - 52)
  roundHalfEven n unit * unit

/-- The two variables of the scan. -/
structure Found where
  computeUnitsRequested : Option ℕ
  computeUnitPrice : Option ℕ
  deriving DecidableEq

/-- The body of the loop; `none` is an exception. There is no assignment in front of anything
that can throw. -/
def scanInstruction (keys : List Pubkey) (instruction : CompiledInstruction) (found : Found) :
    Option Found := do
  let key ← keys[instruction.programIdIndex]?
  if key = computeBudgetProgramId then
    let buffer := instruction.data
    if buffer.length ≥ 5 then
      let instructionType ← readUInt8 buffer 0
      let found ← if instructionType = 2 ∧ buffer.length ≥ 5 then
          (readUIntLE 4 buffer 1).map fun n => { found with computeUnitsRequested := some n }
        else some found
      if instructionType = 3 ∧ buffer.length ≥ 9 then
        (readUIntLE 8 buffer 1).map fun n => { found with computeUnitPrice := some (toNumber n) }
      else some found
    else some found
  else some found

/-- The loop. An exception is caught, and the next instruction is looked at. -/
def scan (message : Message) : Found :=
  message.compiledInstructions.foldl
    (fun found instruction => (scanInstruction message.keys instruction found).getD found)
    ⟨none, none⟩

structure TransactionMeta where
  fee : ℕ
  err : Option String
  deriving DecidableEq

/-- The result of `getTransaction`. -/
structure FetchedTransaction where
  message : Option Message
  meta_ : Option TransactionMeta
  blockTime : Option ℕ
  slot : ℕ

structure TransactionGasInfo where
  signature : String
  computeUnitsConsumed : Option ℕ
  computeUnitsRequested : Option ℕ
  computeUnitPrice : Option ℕ
  totalFee : ℕ
  success : Bool
  blockTime : Option ℕ
  slot : ℕ
  deriving DecidableEq

/-- `none` is the result for a transaction that is not found. -/
def getTransactionGasInfo (signature : String) (transaction : Option FetchedTransaction) :
    Option TransactionGasInfo :=
  transaction.map fun transaction =>
    let found := (transaction.message.map scan).getD ⟨none, none⟩
    { signature
      computeUnitsConsumed := none
      computeUnitsRequested := found.computeUnitsRequested
      computeUnitPrice := found.computeUnitPrice
      totalFee := (transaction.meta_.map (·.fee)).getD 0
      success := transaction.meta_.map (·.err) = some none
      blockTime := transaction.blockTime
      slot := transaction.slot }

/-! What the compute budget program reads out of one instruction. -/

/-- The arguments that follow the type byte, in an instruction of the compute budget program. -/
def budgetArgument (type : UInt8) (width : ℕ) (keys : List Pubkey)
    (instruction : CompiledInstruction) : Option ℕ :=
  if keys[instruction.programIdIndex]? = some computeBudgetProgramId then
    match instruction.data with
    | [] => none
    | b :: rest => if b = type ∧ width ≤ rest.length then some (leValue (rest.take width)) else none
  else none

def unitLimit : List Pubkey → CompiledInstruction → Option ℕ := budgetArgument 2 4

def unitPrice : List Pubkey → CompiledInstruction → Option ℕ := budgetArgument 3 8

/-- `ComputeBudgetProgram.setComputeUnitLimit`. -/
def setComputeUnitLimit (units : UInt32) : List UInt8 := 2 :: leBytes 4 units.toNat

/-- `ComputeBudgetProgram.setComputeUnitPrice`. -/
def setComputeUnitPrice (microLamports : UInt64) : List UInt8 := 3 :: leBytes 8 microLamports.toNat

theorem toNumber_of_dvd {n : ℕ} (h : 2 ^ (Nat.log 2 n - 52) ∣ n) : toNumber n = n := by
  have hmod := Nat.mod_eq_zero_of_dvd h
  have hpos : 0 < 2 ^ (Nat.log 2 n - 52) := Nat.two_pow_pos _
  rw [toNumber, roundHalfEven, hmod, if_neg (by omega), Nat.div_mul_cancel h]

theorem toNumber_of_le {n : ℕ} (h : n ≤ 2 ^ 53) : toNumber n = n := by
  apply toNumber_of_dvd
  rcases Nat.lt_or_eq_of_le h with hlt | rfl
  · have hlog : Nat.log 2 n ≤ 52 := Nat.le_of_lt_succ (Nat.log_lt_of_lt_pow' (by decide) hlt)
    rw [Nat.sub_eq_zero_of_le hlog]
    exact one_dvd n
  · rw [Nat.log_pow (by decide)]
    decide

theorem readUIntLE_cons (width : ℕ) (b : UInt8) (rest : List UInt8) :
    readUIntLE width (b :: rest) 1 =
      if width ≤ rest.length then some (leValue (rest.take width)) else none := by
  unfold readUIntLE
  simp only [List.length_cons, Nat.add_comm 1 width, Nat.add_le_add_iff_right, List.drop_succ_cons,
    List.drop_zero]

/-- The step lemma: each variable is overwritten by its own kind of instruction, and an
exception leaves both. -/
theorem scanInstruction_getD (keys : List Pubkey) (instruction : CompiledInstruction)
    (found : Found) :
    (scanInstruction keys instruction found).getD found =
      ⟨overwrite (unitLimit keys) found.computeUnitsRequested instruction,
        overwrite (fun ix => (unitPrice keys ix).map toNumber) found.computeUnitPrice
          instruction⟩ := by
  obtain ⟨i, accounts, data⟩ := instruction
  cases hkey : keys[i]? with
  | none => simp [scanInstruction, overwrite, unitLimit, unitPrice, budgetArgument, hkey]
  | some key =>
    by_cases hbudget : key = computeBudgetProgramId
    · subst hbudget
      cases data with
      | nil => simp [scanInstruction, overwrite, unitLimit, unitPrice, budgetArgument, hkey]
      | cons b rest =>
        by_cases h4 : 4 ≤ rest.length
        · by_cases h2 : b = 2
          · subst h2
            simp [scanInstruction, overwrite, unitLimit, unitPrice, budgetArgument, hkey,
              readUInt8, readUIntLE_cons, h4]
          · by_cases h3 : b = 3 ∧ 8 ≤ rest.length
            · obtain ⟨rfl, h8⟩ := h3
              simp [scanInstruction, overwrite, unitLimit, unitPrice, budgetArgument, hkey,
                readUInt8, readUIntLE_cons, h4, h8]
            · simp [scanInstruction, overwrite, unitLimit, unitPrice, budgetArgument, hkey,
                readUInt8, h4, h2, h3]
        · have h8 : ¬ 8 ≤ rest.length := by omega
          simp [scanInstruction, overwrite, unitLimit, unitPrice, budgetArgument, hkey, h4, h8]
    · simp [scanInstruction, overwrite, unitLimit, unitPrice, budgetArgument, hkey, hbudget]

/-- The run lemma. -/
theorem scan_eq (message : Message) : scan message =
    ⟨lastWrite (unitLimit message.keys) message.compiledInstructions,
      (lastWrite (unitPrice message.keys) message.compiledInstructions).map toNumber⟩ := by
  have hrun : ∀ (instructions : List CompiledInstruction) (found : Found),
      instructions.foldl
        (fun found ix => (scanInstruction message.keys ix found).getD found) found =
      ⟨instructions.foldl (overwrite (unitLimit message.keys)) found.computeUnitsRequested,
        instructions.foldl (overwrite fun ix => (unitPrice message.keys ix).map toNumber)
          found.computeUnitPrice⟩ := by
    intro instructions
    induction instructions with
    | nil => exact fun found => rfl
    | cons ix rest ih =>
      intro found
      rw [List.foldl_cons, scanInstruction_getD, ih, List.foldl_cons, List.foldl_cons]
  rw [scan, hrun, foldl_overwrite, foldl_overwrite, lastWrite_map, Option.or_none, Option.or_none]

/-- An instruction throws exactly when its program is not among the keys: the lengths are tested
before anything is read. -/
theorem scanInstruction_eq_none_iff (keys : List Pubkey) (instruction : CompiledInstruction)
    (found : Found) : scanInstruction keys instruction found = none ↔
      keys.length ≤ instruction.programIdIndex := by
  obtain ⟨i, accounts, data⟩ := instruction
  rw [← List.getElem?_eq_none_iff]
  cases hkey : keys[i]? with
  | none => simp [scanInstruction, hkey]
  | some key =>
    simp only [scanInstruction, hkey, reduceCtorEq, iff_false]
    by_cases hbudget : key = computeBudgetProgramId
    · cases data with
      | nil => simp
      | cons b rest =>
        by_cases h4 : 4 ≤ rest.length
        · by_cases h8 : 8 ≤ rest.length
          · by_cases h2 : b = 2 <;> by_cases h3 : b = 3 <;>
              simp [hbudget, readUInt8, readUIntLE_cons, h4, h8, h2, h3]
          · by_cases h2 : b = 2 <;>
              simp [hbudget, readUInt8, readUIntLE_cons, h4, h8, h2]
        · simp [h4]
    · simp [hbudget]

theorem budgetArgument_encoded {keys : List Pubkey} {instruction : CompiledInstruction}
    {type : UInt8} {width n : ℕ} (hn : n < 256 ^ width)
    (hkey : keys[instruction.programIdIndex]? = some computeBudgetProgramId)
    (hdata : instruction.data = type :: leBytes width n) :
    budgetArgument type width keys instruction = some n := by
  have hlen : width ≤ (leBytes width n).length := Nat.le_of_eq (leBytes_length width n).symm
  have htake : (leBytes width n).take width = leBytes width n :=
    List.take_of_length_le (Nat.le_of_eq (leBytes_length width n))
  simp only [budgetArgument, hkey, hdata, hlen, htake, leValue_leBytes hn, ↓reduceIte, and_self]

/-- The message with other instructions. -/
def Message.withInstructions (instructions : List CompiledInstruction) : Message → Message
  | legacy accountKeys _ => legacy accountKeys instructions
  | versioned message => versioned { message with compiledInstructions := instructions }

/-- What is reported about a message: the last limit and the last price that its compute budget
instructions set, and nothing when there is none. The other instructions do not matter, and what
the SDK has encoded is found. -/
structure ScanReports (message : Message) : Prop where
  requested : (scan message).computeUnitsRequested =
    lastWrite (unitLimit message.keys) message.compiledInstructions
  price : (scan message).computeUnitPrice =
    (lastWrite (unitPrice message.keys) message.compiledInstructions).map toNumber
  exact : ∀ n, lastWrite (unitPrice message.keys) message.compiledInstructions = some n →
    n ≤ 2 ^ 53 → (scan message).computeUnitPrice = some n
  ignored : ∀ pre ix post, message.compiledInstructions = pre ++ ix :: post →
    unitLimit message.keys ix = none → unitPrice message.keys ix = none →
    scan message = scan (message.withInstructions (pre ++ post))
  recoversLimit : ∀ pre ix post units, message.compiledInstructions = pre ++ ix :: post →
    message.keys[ix.programIdIndex]? = some computeBudgetProgramId →
    ix.data = setComputeUnitLimit units → (∀ ix' ∈ post, unitLimit message.keys ix' = none) →
    (scan message).computeUnitsRequested = some units.toNat
  recoversPrice : ∀ pre ix post microLamports, message.compiledInstructions = pre ++ ix :: post →
    message.keys[ix.programIdIndex]? = some computeBudgetProgramId →
    ix.data = setComputeUnitPrice microLamports →
    (∀ ix' ∈ post, unitPrice message.keys ix' = none) → microLamports.toNat ≤ 2 ^ 53 →
    (scan message).computeUnitPrice = some microLamports.toNat
  reported : ∀ signature transaction, transaction.message = some message →
    ∃ info, getTransactionGasInfo signature (some transaction) = some info ∧
      info.computeUnitsRequested = (scan message).computeUnitsRequested ∧
      info.computeUnitPrice = (scan message).computeUnitPrice

theorem keys_withInstructions (message : Message) (instructions : List CompiledInstruction) :
    (message.withInstructions instructions).keys = message.keys := by
  cases message <;> rfl

theorem compiledInstructions_withInstructions (message : Message)
    (instructions : List CompiledInstruction) :
    (message.withInstructions instructions).compiledInstructions = instructions := by
  cases message <;> rfl

theorem scan_price_of_le {message : Message} {n : ℕ}
    (h : lastWrite (unitPrice message.keys) message.compiledInstructions = some n)
    (hn : n ≤ 2 ^ 53) : (scan message).computeUnitPrice = some n := by
  rw [scan_eq, h, Option.map_some, toNumber_of_le hn]

theorem scan_reports (message : Message) : ScanReports message where
  requested := by rw [scan_eq]
  price := by rw [scan_eq]
  exact n h hn := scan_price_of_le h hn
  ignored pre ix post he hlimit hprice := by
    rw [scan_eq, scan_eq, keys_withInstructions, compiledInstructions_withInstructions, he,
      lastWrite_erase hlimit, lastWrite_erase hprice]
  recoversLimit pre ix post units he hkey hdata hpost := by
    have hlimit : unitLimit message.keys ix = some units.toNat :=
      budgetArgument_encoded units.toNat_lt hkey hdata
    rw [scan_eq, he, lastWrite_append_cons hlimit hpost]
  recoversPrice pre ix post microLamports he hkey hdata hpost hle := by
    have hprice : unitPrice message.keys ix = some microLamports.toNat :=
      budgetArgument_encoded microLamports.toNat_lt hkey hdata
    apply scan_price_of_le _ hle
    rw [he, lastWrite_append_cons hprice hpost]
  reported signature transaction h := by
    refine ⟨_, rfl, ?_, ?_⟩
    · simp only [h, Option.map_some, Option.getD_some]
    · simp only [h, Option.map_some, Option.getD_some]

end SolanaSample.EstimateGas
