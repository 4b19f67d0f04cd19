import StakePoolCli.PoolConfig.SyncDelegation
import StakePoolCli.Subcmd.Fetch

/-!
# `increase-validator-stake` and `decrease-validator-stake`

`subcmd/increase_validator_stake.rs` and `subcmd/decrease_validator_stake.rs`. Both fetch the two
stake accounts of one validator, turn the amount asked for into a stake the validator should have,
and send the instructions of a changeset of that one entry. They differ in that stake only.
-/

namespace StakePoolCli

open Checked

variable {Pubkey : Type}

/-- An amount of tokens, or all there is. -/
inductive TokenAmtOrAll
  | all
  | amt (amt : UInt64)
  deriving DecidableEq, Repr

/-- The arguments of both commands, with the pool and the signers from the config file. -/
structure ValidatorStakeArgs (Pubkey : Type) where
  pool : Pubkey
  payer : Pubkey
  staker : Pubkey
  validator : Pubkey
  stake : TokenAmtOrAll

namespace ValidatorStakeArgs

variable (lib : StakePoolLib Pubkey) (args : ValidatorStakeArgs Pubkey) (fetched : Fetched Pubkey)

def vsaPubkey : Pubkey :=
  lib.findValidatorStakeAccount fetched.programId args.pool args.validator none

def tsaPubkey (vsi : ValidatorStakeInfo Pubkey) : Pubkey :=
  lib.findTransientStakeAccount fetched.programId args.pool args.validator vsi.transientSeedSuffix

def syncDelegationConfig : SyncDelegationConfig Pubkey where
  programId := fetched.programId
  payer := args.payer
  staker := args.staker
  pool := args.pool
  validatorList := fetched.stakePool.validatorList
  reserve := fetched.stakePool.reserveStake
  reserveLamports := fetched.reserveLamports
  currEpoch := fetched.epoch
  rent := fetched.rent

variable [DecidableEq Pubkey]

/-- What the one change is computed from, given how the desired stake depends on the states. -/
def changeSrc (desired : StakeStateV2 → Option StakeStateV2 → Except Panic UInt64) :
    Except Panic (ValidatorChangeSrc Pubkey) := do
  checkStaker lib fetched.stakePool args.staker
  let vsi ← findValidator lib fetched.validators args.validator
  let vsa ← expect "No vsa found" (fetched.account (args.vsaPubkey lib fetched))
  let tsa ← tsaState lib (fetched.account (args.tsaPubkey lib fetched vsi))
  let vsa ← unwrap vsa.stakeState
  .ok { vsi, vsa, tsa, desired := ← desired vsa tsa }

/-- The instructions of the changeset of that entry. -/
def runWith (desired : StakeStateV2 → Option StakeStateV2 → Except Panic UInt64) :
    Except Panic (List (Instruction Pubkey)) := do
  let src ← args.changeSrc lib fetched desired
  let sdc := args.syncDelegationConfig fetched
  let (changes, _) ← (sdc.changeset [src]).collect lib
  .ok (sdc.syncDelegationIxs lib changes)

end ValidatorStakeArgs

variable [DecidableEq Pubkey] (lib : StakePoolLib Pubkey) (args : ValidatorStakeArgs Pubkey)
  (fetched : Fetched Pubkey)

namespace IncreaseValidatorStakeArgs

/-- The stake after the increase: what it will be, and the amount or what the reserve can spare. -/
def desiredStake (vsa : StakeStateV2) (tsa : Option StakeStateV2) : Except Panic UInt64 := do
  let (nextEpochStake, _) ← nextEpochStakeAndTransientStatus vsa tsa fetched.epoch
  match args.stake with
  | .all =>
    let twoRents ← checkedMul 2 (lib.lamportsForNewVsa fetched.rent)
    let reserveLamportsAvailable := saturatingSub fetched.reserveLamports twoRents
    .ok (saturatingAdd nextEpochStake reserveLamportsAvailable)
  | .amt amt => .ok (saturatingAdd nextEpochStake amt)

/-- `IncreaseValidatorStakeArgs::run` -/
def run : Except Panic (List (Instruction Pubkey)) :=
  args.runWith lib fetched (desiredStake lib args fetched)

end IncreaseValidatorStakeArgs

namespace DecreaseValidatorStakeArgs

/-- The stake after the decrease: what it will be less the amount, or nothing. -/
def desiredStake (vsa : StakeStateV2) (tsa : Option StakeStateV2) : Except Panic UInt64 :=
  match args.stake with
  | .all => .ok 0
  | .amt amt => do
    let (nextEpochStake, _) ← nextEpochStakeAndTransientStatus vsa tsa fetched.epoch
    .ok (saturatingSub nextEpochStake amt)

/-- `DecreaseValidatorStakeArgs::run` -/
def run : Except Panic (List (Instruction Pubkey)) :=
  args.runWith lib fetched (desiredStake args fetched)

end DecreaseValidatorStakeArgs

end StakePoolCli
