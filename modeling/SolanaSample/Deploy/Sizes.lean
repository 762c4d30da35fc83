import SolanaSample.Deploy.Chunks

/-! The sizes a deployment asks for: the buffer account is created with the rounded size, and
the same number is passed on as `max_data_len`, which counts the program without a header. -/
namespace SolanaSample.Deploy
open PrefixCodec Loader Rejection UpgradeableLoaderState

/-- 10 MiB. -/
def maxPermittedDataLength : ℕ := 10 * 1024 * 1024

/-- The loader can hold a program of this length. -/
def Holdable (n : ℕ) : Prop := programdataLen n ≤ maxPermittedDataLength

/-- The size checks of account creation and of `DeployWithMaxDataLen`. -/
structure SizesPass (n : ℕ) : Prop where
  buffer : bufferSize n ≤ maxPermittedDataLength
  nonempty : 0 < bufferSize n - bufferDataOffset
  maxDataLen : bufferSize n - bufferDataOffset ≤ bufferSize n
  programdata : programdataLen (bufferSize n) ≤ maxPermittedDataLength

theorem programdataLen_le_iff (n : ℕ) :
    programdataLen n ≤ maxPermittedDataLength ↔ n ≤ 10485715 := by
  have hmeta : sizeOfProgramdataMetadata = 45 := rfl
  have hmax : maxPermittedDataLength = 10485760 := rfl
  unfold programdataLen sizeOfProgramdata saturatingAdd
  omega

/-- A holdable program always gets its buffer account, and the loader finds bytes in it that
`max_data_len` allows. Only the size of the ProgramData account can be too large. -/
theorem sizesPass_iff_programdata {n : ℕ} (h : Holdable n) :
    SizesPass n ↔ programdataLen (bufferSize n) ≤ maxPermittedDataLength := by
  have hmax : maxPermittedDataLength = 10485760 := rfl
  have hoff : bufferDataOffset = 37 := rfl
  have hb := bufferSize_eq n
  have hn := (programdataLen_le_iff n).mp h
  constructor
  · intro hs
    exact hs.programdata
  · intro hp
    exact ⟨by omega, by omega, Nat.sub_le _ _, hp⟩

/-- The last kilobyte that may be handed out is the 10239th, and 33 bytes of it are added to the
program before rounding. -/
theorem sizesPass_iff (n : ℕ) : SizesPass n ↔ n ≤ 10484703 := by
  have hb := bufferSize_eq n
  constructor
  · intro h
    have hp := (programdataLen_le_iff _).mp h.programdata
    omega
  · intro h
    have hn : Holdable n := (programdataLen_le_iff n).mpr (by omega)
    rw [sizesPass_iff_programdata hn, programdataLen_le_iff]
    omega

/-- The longest program the loader can hold. -/
theorem sizes_fail_at_limit : Holdable 10485715 ∧ ¬ SizesPass 10485715 := by
  have hb := bufferSize_eq 10485715
  constructor
  · exact (programdataLen_le_iff _).mpr le_rfl
  · intro h
    have hp := (programdataLen_le_iff _).mp h.programdata
    omega

variable {System : Type} {rt : Runtime System}

/-- What a deployment has checked of the sizes. -/
theorem deploy_sizes {slot maxDataLen : UInt64} {ks : List KeyedAccount} {s s' : Accounts}
    (h : deployWithMaxDataLen rt slot maxDataLen ks s = .ok s') : ∃ buffer : KeyedAccount,
      ks[3]? = some buffer ∧ bufferDataOffset < (s buffer.key).data.length ∧
      (s buffer.key).data.length - bufferDataOffset ≤ maxDataLen.toNat ∧
      programdataLen maxDataLen.toNat ≤ rt.maxPermittedDataLength := by
  simp only [deployWithMaxDataLen, do_ok_iff, exists_unit, keyedAccountAtIndex_eq_ok, state_eq_ok,
    demand_eq_ok, reject_eq_ok, asBuffer_eq_some, requireBufferAuthority_eq_ok, ne_eq,
    not_not] at h
  obtain ⟨payer, -, programdata, -, program, -, buffer, hk₃, rentAccount, -, -, clockAccount,
    -, -, authority, -, pst, -, rfl, -, -, bst, -, a, rfl, -, hnonempty, hcovers, hlimit, -⟩ := h
  exact ⟨buffer, hk₃, by omega, by omega, by omega⟩

/-- A longer program is never deployed: the loader refuses the last transaction, once the
buffer is paid for and written. -/
theorem long_program_not_deployed (hrt : rt.maxPermittedDataLength = maxPermittedDataLength)
    {n : ℕ} (hn : 10484703 < n) {slot maxDataLen : UInt64} (hlen : maxDataLen.toNat = bufferSize n)
    (ks : List KeyedAccount) (s s' : Accounts) :
    deployWithMaxDataLen rt slot maxDataLen ks s ≠ .ok s' := by
  intro h
  obtain ⟨buffer, -, -, -, hlimit⟩ := deploy_sizes h
  have hb := bufferSize_eq n
  rw [hrt, programdataLen_le_iff, hlen] at hlimit
  omega

end SolanaSample.Deploy
