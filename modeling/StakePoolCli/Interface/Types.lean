import StakePoolCli.Foundations.Checked

/-!
# The on-chain data

The accounts the commands read, as they are deserialized: stake accounts, the stake pool, its
validator list, the rent. Addresses are an arbitrary type `Pubkey`, amounts and epochs are 64-bit
words. Of each record, the fields some command reads.
-/

namespace StakePoolCli

/-! ## Stake accounts -/

/-- A delegation of stake to a validator. `deactivationEpoch = u64Max` while it is active. -/
structure Delegation where
  stake : UInt64
  activationEpoch : UInt64
  deactivationEpoch : UInt64
  deriving DecidableEq, Repr

/-- The state of a stake account. -/
inductive StakeStateV2
  | uninitialized
  | initialized
  | stake (delegation : Delegation)
  | rewardsPool
  deriving DecidableEq, Repr

/-- The delegation of a stake account, if it has one. -/
def StakeStateV2.delegation : StakeStateV2 → Option Delegation
  | .stake d => some d
  | _ => none

@[simp] theorem StakeStateV2.delegation_stake (d : Delegation) :
    (StakeStateV2.stake d).delegation = some d := rfl

/-- The authorities of a stake account. -/
structure Authorized (Pubkey : Type) where
  staker : Pubkey
  withdrawer : Pubkey
  deriving DecidableEq, Repr

/-- The size of a serialized stake account, `size_of::<StakeStateV2>()`. -/
def stakeStateSize : ℕ := 200

/-- The rent schedule, as the minimum balance that makes an account of a given size exempt. -/
structure Rent where
  minimumBalance : ℕ → UInt64

/-! ## Fees -/

structure Fee where
  denominator : UInt64
  numerator : UInt64
  deriving DecidableEq, Repr

/-- A fee of each kind that `SetFee` can set. -/
inductive FeeType
  | solReferral (fee : UInt8)
  | stakeReferral (fee : UInt8)
  | epoch (fee : Fee)
  | stakeWithdrawal (fee : Fee)
  | solDeposit (fee : Fee)
  | stakeDeposit (fee : Fee)
  | solWithdrawal (fee : Fee)
  deriving DecidableEq, Repr

/-- A fee that takes effect at a later epoch boundary: the next one, or the one after. -/
inductive FutureEpochFee
  | none
  | one (fee : Fee)
  | two (fee : Fee)
  deriving DecidableEq, Repr

/-- The authorities that `SetFundingAuthority` can set. -/
inductive FundingType
  | stakeDeposit
  | solDeposit
  | solWithdraw
  deriving DecidableEq, Repr

inductive PreferredValidatorType
  | deposit
  | withdraw
  deriving DecidableEq, Repr

/-! ## The validator list -/

inductive StakeStatus
  | active
  | deactivatingTransient
  | readyForRemoval
  | deactivatingValidator
  | deactivatingAll
  deriving DecidableEq, Repr

/-- An entry of the validator list. -/
structure ValidatorStakeInfo (Pubkey : Type) where
  activeStakeLamports : UInt64
  transientStakeLamports : UInt64
  lastUpdateEpoch : UInt64
  transientSeedSuffix : UInt64
  validatorSeedSuffix : UInt32
  status : StakeStatus
  voteAccountAddress : Pubkey
  deriving DecidableEq, Repr

structure ValidatorList (Pubkey : Type) where
  maxValidators : UInt32
  validators : List (ValidatorStakeInfo Pubkey)

/-! ## The stake pool -/

structure StakePool (Pubkey : Type) where
  manager : Pubkey
  staker : Pubkey
  stakeDepositAuthority : Pubkey
  validatorList : Pubkey
  reserveStake : Pubkey
  poolMint : Pubkey
  managerFeeAccount : Pubkey
  tokenProgram : Pubkey
  totalLamports : UInt64
  poolTokenSupply : UInt64
  lastUpdateEpoch : UInt64
  epochFee : Fee
  nextEpochFee : FutureEpochFee
  preferredDepositValidatorVoteAddress : Option Pubkey
  preferredWithdrawValidatorVoteAddress : Option Pubkey
  stakeDepositFee : Fee
  stakeWithdrawalFee : Fee
  nextStakeWithdrawalFee : FutureEpochFee
  stakeReferralFee : UInt8
  solDepositAuthority : Option Pubkey
  solDepositFee : Fee
  solReferralFee : UInt8
  solWithdrawAuthority : Option Pubkey
  solWithdrawalFee : Fee
  nextSolWithdrawalFee : FutureEpochFee
  lastEpochPoolTokenSupply : UInt64
  lastEpochTotalLamports : UInt64
  deriving DecidableEq, Repr

/-! ## Accounts -/

/-- An account as it is fetched. The commands deserialize the data of some accounts as stake
accounts; `stakeState` is the result, `none` when that fails. -/
structure Account (Pubkey : Type) where
  owner : Pubkey
  lamports : UInt64
  stakeState : Option StakeStateV2
  deriving DecidableEq, Repr

end StakePoolCli
