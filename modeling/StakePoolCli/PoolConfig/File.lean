import StakePoolCli.Parse

/-!
# The config files

`pool_config/file.rs`: the entries of a delegation scheme and the check that at most one of them
takes the remainder, the entry of a validator in the listing of a pool, and the config file of a
pool, which is also the form in which a pool is listed. The files are deserialized before any of
this. In a delegation scheme addresses are given as such, in a pool's config they are text.
-/

namespace StakePoolCli

variable {Pubkey : Type}

inductive ValidatorDelegationTarget
  | lamports (lamports : UInt64)
  | remainder
  deriving DecidableEq, Repr

structure ValidatorDelegation (Pubkey : Type) where
  vote : Pubkey
  target : ValidatorDelegationTarget
  deriving DecidableEq, Repr

/-- The loop of `is_delegation_scheme_valid`, with its flag. -/
def isDelegationSchemeValidGo (hasRemainder : Bool) :
    List ValidatorDelegationTarget → Except String Unit
  | [] => .ok ()
  | .lamports _ :: targets => isDelegationSchemeValidGo hasRemainder targets
  | .remainder :: targets =>
    if hasRemainder then .error "Can only have at most one validator with target=remainder"
    else isDelegationSchemeValidGo true targets

/-- `is_delegation_scheme_valid` -/
def isDelegationSchemeValid (targets : List ValidatorDelegationTarget) : Except String Unit :=
  isDelegationSchemeValidGo false targets

/-- The listing of a validator. -/
structure ValidatorConfigRaw (Pubkey : Type) where
  vote : Pubkey
  activeStakeLamports : Option UInt64
  transientStakeLamports : Option UInt64
  lastUpdateEpoch : Option UInt64
  validatorSeedSuffix : Option NonZeroU32
  transientSeedSuffix : Option UInt64
  status : Option StakeStatus
  validatorStakeAccount : Option Pubkey
  transientStakeAccount : Option Pubkey

/-- `ValidatorConfigRaw::from_vsi_program_pool` -/
def ValidatorConfigRaw.fromVsiProgramPool (lib : StakePoolLib Pubkey)
    (vsi : ValidatorStakeInfo Pubkey) (programId pool : Pubkey) : ValidatorConfigRaw Pubkey :=
  let validatorSeedSuffix := NonZeroU32.new vsi.validatorSeedSuffix
  { vote := vsi.voteAccountAddress
    activeStakeLamports := some vsi.activeStakeLamports
    transientStakeLamports := some vsi.transientStakeLamports
    lastUpdateEpoch := some vsi.lastUpdateEpoch
    validatorSeedSuffix
    transientSeedSuffix := some vsi.transientSeedSuffix
    status := some vsi.status
    validatorStakeAccount :=
      some (lib.findValidatorStakeAccount programId pool vsi.voteAccountAddress validatorSeedSuffix)
    transientStakeAccount :=
      some (lib.findTransientStakeAccount programId pool vsi.voteAccountAddress
        vsi.transientSeedSuffix) }

/-- The listing of a validator with its addresses in another form. -/
def ValidatorConfigRaw.map {α β : Type} (f : α → β) (v : ValidatorConfigRaw α) :
    ValidatorConfigRaw β :=
  { v with
    vote := f v.vote
    validatorStakeAccount := v.validatorStakeAccount.map f
    transientStakeAccount := v.transientStakeAccount.map f }

structure ReserveConfigRaw where
  address : String
  lamports : Option UInt64
  deriving DecidableEq, Repr

/-- `ReserveConfigRaw::from_pk` -/
def ReserveConfigRaw.fromPk (lib : StakePoolLib Pubkey) (pk : Pubkey) : ReserveConfigRaw where
  address := lib.display pk
  lamports := none

/-- `ReserveConfigRaw::from_reserve_stake_acc` -/
def ReserveConfigRaw.fromReserveStakeAcc (lib : StakePoolLib Pubkey) (pk : Pubkey)
    (lamports : UInt64) : ReserveConfigRaw :=
  { ReserveConfigRaw.fromPk lib pk with lamports := some lamports }

/-- The config file of a pool. Every entry may be left out. -/
structure ConfigRaw (Pubkey : Type) where
  program : Option (SplStakePoolProgram Pubkey) := none
  mint : Option String := none
  tokenProgram : Option String := none
  pool : Option String := none
  validatorList : Option String := none
  manager : Option String := none
  managerFeeAccount : Option String := none
  staker : Option String := none
  stakeDepositAuth : Option String := none
  stakeWithdrawAuth : Option String := none
  solDepositAuth : Option String := none
  solWithdrawAuth : Option String := none
  preferredDepositValidator : Option String := none
  preferredWithdrawValidator : Option String := none
  maxValidators : Option UInt32 := none
  stakeDepositReferralFee : Option UInt8 := none
  solDepositReferralFee : Option UInt8 := none
  epochFee : Option Fee := none
  stakeWithdrawalFee : Option Fee := none
  solWithdrawalFee : Option Fee := none
  stakeDepositFee : Option Fee := none
  solDepositFee : Option Fee := none
  totalLamports : Option UInt64 := none
  poolTokenSupply : Option UInt64 := none
  lastUpdateEpoch : Option UInt64 := none
  nextEpochFee : Option FutureEpochFee := none
  nextStakeWithdrawalFee : Option FutureEpochFee := none
  nextSolWithdrawalFee : Option FutureEpochFee := none
  lastEpochPoolTokenSupply : Option UInt64 := none
  lastEpochTotalLamports : Option UInt64 := none
  /-- Only for `sync-pool`, when the manager changes. -/
  oldManager : Option String := none
  /-- Only for `set-staker`. -/
  oldStaker : Option String := none
  reserve : Option ReserveConfigRaw := none
  validators : Option (List (ValidatorConfigRaw String)) := none

end StakePoolCli
