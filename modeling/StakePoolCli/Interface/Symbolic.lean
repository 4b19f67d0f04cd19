import Mathlib.Data.Nat.GCD.Basic
import StakePoolCli.Interface.Lib

/-!
# A library with symbolic addresses

The hypotheses on `StakePoolLib` can be met: `symbolic` derives an address by writing down what it
is derived from, and compares fees by their reduced fractions. Its addresses are injective
(`vsaInjective_symbolic`), its fees are ordered by their rates (`feeOrder_symbolic`), and its
comparisons of fees are equivalences (`feeEquality_symbolic`).
-/

namespace StakePoolCli

open Checked

/-- An address, as the term that derives it. -/
inductive Address
  | key (n : ℕ)
  | withdrawAuthority (programId pool : Address)
  | depositAuthority (programId pool : Address)
  | validatorStake (programId pool vote : Address) (seed : Option NonZeroU32)
  | transientStake (programId pool vote : Address) (seed : UInt64)
  | ephemeralStake (programId pool : Address) (seed : UInt64)
  | wellKnown (name : String)
  deriving DecidableEq

/-- A fee as a reduced fraction; all zero fees are one. -/
def Fee.rate (f : Fee) : ℕ × ℕ :=
  let n := f.numerator.toNat
  let d := f.denominator.toNat
  if n = 0 ∨ d = 0 then (0, 1) else (n / n.gcd d, d / n.gcd d)

theorem Fee.rate_pos (f : Fee) : 0 < f.rate.2 := by
  unfold Fee.rate
  dsimp only
  split_ifs with h
  · exact Nat.one_pos
  · push Not at h
    exact Nat.div_pos (Nat.le_of_dvd (Nat.pos_of_ne_zero h.2) (Nat.gcd_dvd_right _ _))
      (Nat.gcd_pos_of_pos_right _ (Nat.pos_of_ne_zero h.2))

theorem Fee.rate_coprime (f : Fee) : f.rate.1.Coprime f.rate.2 := by
  unfold Fee.rate
  dsimp only
  split_ifs with h
  · exact Nat.coprime_one_right 0
  · push Not at h
    exact Nat.coprime_div_gcd_div_gcd (Nat.gcd_pos_of_pos_right _ (Nat.pos_of_ne_zero h.2))

/-- Reduced fractions are equal when they cross-multiply. -/
theorem Fee.rate_eq_iff (f g : Fee) :
    f.rate = g.rate ↔ f.rate.1 * g.rate.2 = g.rate.1 * f.rate.2 := by
  constructor
  · intro h
    rw [h]
  · intro h
    have hf := f.rate_coprime
    have hg := g.rate_coprime
    apply Prod.ext
    · apply Nat.dvd_antisymm
      · exact hf.dvd_of_dvd_mul_right (Dvd.intro _ h)
      · exact hg.dvd_of_dvd_mul_right (Dvd.intro _ h.symm)
    · apply Nat.dvd_antisymm
      · exact hf.symm.dvd_of_dvd_mul_left (Dvd.intro_left _ h.symm)
      · exact hg.symm.dvd_of_dvd_mul_left (Dvd.intro_left _ h)

/-- What `EqFeeType` compares: the kind and the rate. -/
def FeeType.rate : FeeType → ℕ × ℕ × ℕ
  | .solReferral fee => (0, fee.toNat, 1)
  | .stakeReferral fee => (1, fee.toNat, 1)
  | .epoch fee => (2, fee.rate)
  | .stakeWithdrawal fee => (3, fee.rate)
  | .solDeposit fee => (4, fee.rate)
  | .stakeDeposit fee => (5, fee.rate)
  | .solWithdrawal fee => (6, fee.rate)

/-- The text of an address, with its terms in parentheses. -/
def Address.display : Address → String
  | key n => "key" ++ toString n
  | withdrawAuthority programId pool =>
    "withdraw(" ++ programId.display ++ "," ++ pool.display ++ ")"
  | depositAuthority programId pool =>
    "deposit(" ++ programId.display ++ "," ++ pool.display ++ ")"
  | validatorStake programId pool vote seed =>
    "validator(" ++ programId.display ++ "," ++ pool.display ++ "," ++ vote.display ++ "," ++
      toString ((seed.map (·.val.toNat)).getD 0) ++ ")"
  | transientStake programId pool vote seed =>
    "transient(" ++ programId.display ++ "," ++ pool.display ++ "," ++ vote.display ++ "," ++
      toString seed.toNat ++ ")"
  | ephemeralStake programId pool seed =>
    "ephemeral(" ++ programId.display ++ "," ++ pool.display ++ "," ++ toString seed.toNat ++ ")"
  | wellKnown name => name

namespace StakePoolLib

def symbolic : StakePoolLib Address where
  minActiveStake := 1000000
  lamportsForNewVsa rent := saturatingAdd (rent.minimumBalance stakeStateSize) 1000000
  findWithdrawAuthority := .withdrawAuthority
  findDepositAuthority := .depositAuthority
  findValidatorStakeAccount := .validatorStake
  findTransientStakeAccount := .transientStake
  findEphemeralStakeAccount := .ephemeralStake
  cmpFeeEq f g := f.rate = g.rate
  cmpFee f g := compare (f.rate.1 * g.rate.2) (g.rate.1 * f.rate.2)
  eqFeeType f g := f.rate = g.rate
  zeroFee := ⟨1, 0⟩
  display := Address.display
  defaultPubkey := .wellKnown "default"
  clock := .wellKnown "clock"
  rent := .wellKnown "rent"
  stakeHistory := .wellKnown "stake_history"
  stakeConfig := .wellKnown "stake_config"
  systemProgram := .wellKnown "system_program"
  stakeProgram := .wellKnown "stake_program"

theorem vsaInjective_symbolic : symbolic.VsaInjective := by
  intro programId pool pool' vote vote' seed seed' h
  obtain ⟨-, hpool, hvote, hseed⟩ := Address.validatorStake.inj h
  exact ⟨hpool, hvote, hseed⟩

theorem feeEquality_symbolic : symbolic.FeeEquality where
  refl _ := decide_eq_true rfl
  symm _ _ h := decide_eq_true (of_decide_eq_true h).symm
  trans _ _ _ h h' := decide_eq_true ((of_decide_eq_true h).trans (of_decide_eq_true h'))
  epoch _ _ := by simp [symbolic, FeeType.rate]
  stakeWithdrawal _ _ := by simp [symbolic, FeeType.rate]
  solWithdrawal _ _ := by simp [symbolic, FeeType.rate]

/-- The rates are ordered as fractions. -/
theorem feeOrder_symbolic : symbolic.FeeOrder where
  swap f g := Nat.compare_swap _ _
  trans f g h hfg hgh := by
    simp only [symbolic, Nat.isLE_compare] at hfg hgh ⊢
    apply Nat.le_of_mul_le_mul_right _ g.rate_pos
    calc f.rate.1 * h.rate.2 * g.rate.2
        = f.rate.1 * g.rate.2 * h.rate.2 := Nat.mul_right_comm _ _ _
      _ ≤ g.rate.1 * f.rate.2 * h.rate.2 := Nat.mul_le_mul_right _ hfg
      _ = g.rate.1 * h.rate.2 * f.rate.2 := Nat.mul_right_comm _ _ _
      _ ≤ h.rate.1 * g.rate.2 * f.rate.2 := Nat.mul_le_mul_right _ hgh
      _ = h.rate.1 * f.rate.2 * g.rate.2 := Nat.mul_right_comm _ _ _
  eq f g := by
    simp [symbolic, Fee.rate_eq_iff]
  eqFeeType f g := by
    cases f <;> cases g <;>
      simp [symbolic, compareFeeType, FeeType.rate, Fee.rate_eq_iff, ← UInt8.toNat_inj]

end StakePoolLib

/-- A pool of zero fees, with no authorities but the default one and nothing pending. -/
def StakePool.fresh : StakePool Address where
  manager := .key 100
  staker := .key 101
  stakeDepositAuthority := .depositAuthority (.key 0) (.key 1)
  validatorList := .key 102
  reserveStake := .key 103
  poolMint := .key 105
  managerFeeAccount := .key 104
  tokenProgram := .wellKnown "token_program"
  totalLamports := 0
  poolTokenSupply := 0
  lastUpdateEpoch := 6
  epochFee := ⟨1, 0⟩
  nextEpochFee := .none
  preferredDepositValidatorVoteAddress := none
  preferredWithdrawValidatorVoteAddress := none
  stakeDepositFee := ⟨1, 0⟩
  stakeWithdrawalFee := ⟨1, 0⟩
  nextStakeWithdrawalFee := .none
  stakeReferralFee := 0
  solDepositAuthority := none
  solDepositFee := ⟨1, 0⟩
  solReferralFee := 0
  solWithdrawAuthority := none
  solWithdrawalFee := ⟨1, 0⟩
  nextSolWithdrawalFee := .none
  lastEpochPoolTokenSupply := 0
  lastEpochTotalLamports := 0

/-- The default rent schedule: two years at 3480 lamports for each byte and year. -/
def Rent.default : Rent where
  minimumBalance size := UInt64.ofNat ((128 + size) * 6960)

end StakePoolCli
