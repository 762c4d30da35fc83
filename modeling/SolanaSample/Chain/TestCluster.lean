import SolanaSample.Chain.BpfRuntime
import SolanaSample.Chain.TestValidator

/-! The runtime that can be run, with all three loaders. Lamports are debited from accounts of
the system program only. -/
namespace SolanaSample.TestCluster
open Holdings Rejection TestValidator

def createAccount (signers : List Pubkey) (c : CreateAccount) (s : Accounts) :
    Except InstructionError Accounts := do
  reject (c.fromPubkey ∉ signers ∨ c.newAccountPubkey ∉ signers) .missingRequiredSignature
  reject ((s c.newAccountPubkey).lamports ≠ 0 ∨ (s c.newAccountPubkey).data ≠ [] ∨
    (s c.newAccountPubkey).owner ≠ runtime.systemId) .accountAlreadyInitialized
  reject ((s c.fromPubkey).data ≠ [] ∨ (s c.fromPubkey).owner ≠ runtime.systemId)
    .invalidArgument
  reject ((s c.fromPubkey).lamports < c.lamports) .insufficientFunds
  let s := Function.update s c.fromPubkey
    { s c.fromPubkey with lamports := (s c.fromPubkey).lamports - c.lamports }
  .ok (Function.update s c.newAccountPubkey
    ⟨c.lamports, List.replicate c.space 0, c.programId, false⟩)

def transfer (signers : List Pubkey) (t : Transfer) (s : Accounts) :
    Except InstructionError Accounts := do
  reject (t.source ∉ signers) .missingRequiredSignature
  reject ((s t.source).data ≠ [] ∨ (s t.source).owner ≠ runtime.systemId) .invalidArgument
  reject ((s t.source).lamports < t.lamports) .insufficientFunds
  let s := Function.update s t.source
    { s t.source with lamports := (s t.source).lamports - t.lamports }
  .ok (Function.update s t.recipient
    { s t.recipient with lamports := (s t.recipient).lamports + t.lamports })

/-- The ProgramData address of a program differs from the program's own and from its own. -/
def dataAddress (k : Pubkey) : Pubkey where
  bytes := 255 :: k.bytes.take 31
  length_eq := by
    have h := k.length_eq
    simp only [List.length_cons, List.length_take]
    omega

/-- What is not owned is as before, or has more lamports. -/
def verifyProgram (programId : Pubkey) (ks : List KeyedAccount) (s s' : Accounts) : Bool :=
  ks.all fun k => decide ((s k.key).owner = programId) || decide ((s k.key).data = []) ||
    (decide ((s' k.key).data = (s k.key).data) &&
      decide ((s k.key).lamports ≤ (s' k.key).lamports))

def cluster : BpfRuntime Transfer :=
  { runtime with
    findProgramAddress := dataAddress
    createAccount := createAccount
    system := transfer
    bpfLoaderId := Pubkey.filled 5
    bpfLoaderDeprecatedId := Pubkey.filled 6
    nativeLoaderId := Pubkey.filled 7
    verifyProgram := verifyProgram }

/-- One account has lamports. -/
def genesis : Accounts :=
  Function.update (fun _ => ⟨0, [], runtime.systemId, false⟩) (Pubkey.filled 1)
    ⟨1000000, [], runtime.systemId, false⟩

theorem genesis_total : Total (lamportsOf genesis) 1000000 := by
  rw [genesis, lamportsOf_update]
  exact total_zero.update rfl

theorem system_not_protected : ¬ cluster.Protected runtime.systemId := by decide

theorem createAccount_eq_ok {signers : List Pubkey} {c : CreateAccount} {s s' : Accounts}
    (h : createAccount signers c s = .ok s') :
    TestValidator.createAccount signers c s = .ok s' ∧
      (s c.newAccountPubkey).lamports = 0 ∧
      (s c.newAccountPubkey).owner = runtime.systemId ∧
      (s c.fromPubkey).owner = runtime.systemId ∧
      c.lamports ≤ (s c.fromPubkey).lamports := by
  simp only [createAccount, do_ok_iff, reject_eq_ok, exists_unit, not_or, not_not, ne_eq,
    Except.ok.injEq, Nat.not_lt] at h
  obtain ⟨hsigned, ⟨hzero, hdata, howner⟩, ⟨-, hfrom⟩, hfunds, rfl⟩ := h
  refine ⟨?_, hzero, howner, hfrom, hfunds⟩
  simp only [TestValidator.createAccount, do_ok_iff, reject_eq_ok, exists_unit, not_or, not_not,
    ne_eq, Nat.not_lt]
  exact ⟨hsigned, ⟨hzero, hdata⟩, hfunds, trivial⟩

theorem transfer_eq_ok {signers : List Pubkey} {t : Transfer} {s s' : Accounts}
    (h : transfer signers t s = .ok s') :
    TestValidator.transfer signers t s = .ok s' ∧ (s t.source).owner = runtime.systemId ∧
      t.lamports ≤ (s t.source).lamports := by
  simp only [transfer, do_ok_iff, reject_eq_ok, exists_unit, not_or, not_not, ne_eq,
    Except.ok.injEq, Nat.not_lt] at h
  obtain ⟨hsigned, ⟨hdata, howner⟩, hfunds, rfl⟩ := h
  refine ⟨?_, howner, hfunds⟩
  simp only [TestValidator.transfer, do_ok_iff, reject_eq_ok, exists_unit, not_not, ne_eq,
    Nat.not_lt]
  exact ⟨hsigned, hdata, hfunds, trivial⟩

/-- An account of a loader is not that of the system program. -/
theorem ne_of_protected {s : Accounts} {j k : Pubkey} (hj : (s j).owner = runtime.systemId)
    (hk : cluster.Protected (s k).owner) : k ≠ j := by
  intro he
  rw [he, hj] at hk
  exact system_not_protected hk

theorem createAccount_same {signers : List Pubkey} {c : CreateAccount} {s s' : Accounts}
    (h : TestValidator.createAccount signers c s = .ok s') {k : Pubkey}
    (hfrom : k ≠ c.fromPubkey) (hnew : k ≠ c.newAccountPubkey) : s' k = s k := by
  simp only [TestValidator.createAccount, do_ok_iff, reject_eq_ok, exists_unit,
    Except.ok.injEq] at h
  obtain ⟨-, -, -, rfl⟩ := h
  rw [Function.update_of_ne hnew, Function.update_of_ne hfrom]

theorem debited {s : Accounts} {k : Pubkey} {v n : ℕ} (hn : Total (lamportsOf s) n)
    (hv : v ≤ (s k).lamports) :
    Total (lamportsOf (Function.update s k { s k with lamports := (s k).lamports - v }))
      (n - v) := by
  have hle := hn.le k
  rw [lamportsOf] at hle
  rw [lamportsOf_update]
  apply hn.update
  change n + ((s k).lamports - v) = n - v + (s k).lamports
  omega

theorem credited {s : Accounts} {k : Pubkey} {n : ℕ} {a : Account}
    (hn : Total (lamportsOf s) n) (ha : (s k).lamports ≤ a.lamports) :
    Total (lamportsOf (Function.update s k a)) (n + (a.lamports - (s k).lamports)) := by
  rw [lamportsOf_update]
  apply hn.update
  rw [lamportsOf]
  omega

theorem createAccount_total {signers : List Pubkey} {c : CreateAccount} {s s' : Accounts} {n : ℕ}
    (h : createAccount signers c s = .ok s') (hn : Total (lamportsOf s) n) :
    Total (lamportsOf s') n := by
  obtain ⟨h, hzero, -, -, hfunds⟩ := createAccount_eq_ok h
  simp only [TestValidator.createAccount, do_ok_iff, reject_eq_ok, exists_unit,
    Except.ok.injEq] at h
  obtain ⟨-, -, -, rfl⟩ := h
  have hle := hn.le c.fromPubkey
  rw [lamportsOf] at hle
  have hempty : (Function.update s c.fromPubkey
      { s c.fromPubkey with lamports := (s c.fromPubkey).lamports - c.lamports }
      c.newAccountPubkey).lamports = 0 := by
    rw [Function.update_apply]
    split_ifs with he
    · rw [he] at hzero
      simp [hzero]
    · exact hzero
  have hcredit := credited (k := c.newAccountPubkey)
    (a := ⟨c.lamports, List.replicate c.space 0, c.programId, false⟩) (debited hn hfunds) (by
      rw [hempty]
      exact Nat.zero_le _)
  rw [hempty] at hcredit
  have hback : n - c.lamports + (c.lamports - 0) = n := by omega
  rwa [hback] at hcredit

theorem transfer_same {signers : List Pubkey} {t : Transfer} {s s' : Accounts}
    (h : TestValidator.transfer signers t s = .ok s') {k : Pubkey} (hk : k ≠ t.source) :
    OnlyCredited (s k) (s' k) := by
  simp only [TestValidator.transfer, do_ok_iff, reject_eq_ok, exists_unit,
    Except.ok.injEq] at h
  obtain ⟨-, -, -, rfl⟩ := h
  by_cases hr : k = t.recipient
  · subst hr
    rw [Function.update_self, Function.update_of_ne hk]
    exact ⟨⟨rfl, rfl, rfl⟩, Nat.le_add_right _ _⟩
  · rw [Function.update_of_ne hr, Function.update_of_ne hk]
    exact OnlyCredited.refl _

theorem transfer_owner {signers : List Pubkey} {t : Transfer} {s s' : Accounts}
    (h : TestValidator.transfer signers t s = .ok s') (k : Pubkey) :
    (s' k).owner = (s k).owner := by
  simp only [TestValidator.transfer, do_ok_iff, reject_eq_ok, exists_unit,
    Except.ok.injEq] at h
  obtain ⟨-, -, -, rfl⟩ := h
  simp only [Function.update_apply]
  split_ifs <;> simp_all

theorem transfer_total {signers : List Pubkey} {t : Transfer} {s s' : Accounts} {n : ℕ}
    (h : transfer signers t s = .ok s') (hn : Total (lamportsOf s) n) :
    Total (lamportsOf s') n := by
  obtain ⟨h, -, hfunds⟩ := transfer_eq_ok h
  simp only [TestValidator.transfer, do_ok_iff, reject_eq_ok, exists_unit,
    Except.ok.injEq] at h
  obtain ⟨-, -, -, rfl⟩ := h
  have hle := hn.le t.source
  rw [lamportsOf] at hle
  have hcredit := credited (k := t.recipient) (debited hn hfunds)
    (a := { (Function.update s t.source { s t.source with
      lamports := (s t.source).lamports - t.lamports }) t.recipient with
      lamports := (Function.update s t.source { s t.source with
        lamports := (s t.source).lamports - t.lamports } t.recipient).lamports + t.lamports })
    (Nat.le_add_right _ _)
  rw [Nat.add_sub_cancel_left, Nat.sub_add_cancel (by omega)] at hcredit
  exact hcredit

theorem verifyProgram_foreign {programId : Pubkey} {ks : List KeyedAccount} {s s' : Accounts}
    (h : verifyProgram programId ks s s' = true) (k : KeyedAccount) (hk : k ∈ ks)
    (hdata : (s k.key).data ≠ []) (howner : (s k.key).owner ≠ programId) :
    (s' k.key).data = (s k.key).data ∧ (s k.key).lamports ≤ (s' k.key).lamports := by
  have hall := List.all_eq_true.mp h k hk
  simpa [hdata, howner] using hall

/-- What is assumed of the runtime can be had. -/
theorem cluster_lawful : cluster.Lawful where
  programAddress_noSecretKey k := by simp [cluster, runtime, dataAddress]
  createAccount_signed h := runtime_lawful.createAccount_signed (createAccount_eq_ok h).1
  createAccount_fresh h := runtime_lawful.createAccount_fresh (createAccount_eq_ok h).1
  createAccount_new h := runtime_lawful.createAccount_new (createAccount_eq_ok h).1
  createAccount_frame h := runtime_lawful.createAccount_frame (createAccount_eq_ok h).1
  system_frame h k hk _ _ := transfer_frame (transfer_eq_ok h).1 hk
  loaders_differ := by decide
  native_not_loader := by decide
  system_not_protected := system_not_protected
  minimumBalance_pos n := by
    simp only [cluster, runtime]
    omega
  createAccount_credits h k hk := by
    obtain ⟨hc, -, hnew, hfrom, -⟩ := createAccount_eq_ok h
    rw [createAccount_same hc (ne_of_protected hfrom hk) (ne_of_protected hnew hk)]
    exact OnlyCredited.refl _
  createAccount_not_executable h := by
    rw [(TestValidator.createAccount_eq_ok (createAccount_eq_ok h).1).2.2.1]
  createAccount_total := createAccount_total
  system_credits h k hk := by
    obtain ⟨ht, hsource, -⟩ := transfer_eq_ok h
    exact transfer_same ht (ne_of_protected hsource hk)
  system_assigns h k hk hk' := by
    rw [transfer_owner (transfer_eq_ok h).1 k] at hk'
    exact absurd hk' hk
  system_total := transfer_total
  verifyProgram_foreign := verifyProgram_foreign

end SolanaSample.TestCluster
