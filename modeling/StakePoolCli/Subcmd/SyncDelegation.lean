import StakePoolCli.Foundations.Chunks
import StakePoolCli.Foundations.StableSort
import StakePoolCli.PoolConfig.File
import StakePoolCli.PoolConfig.SyncDelegation
import StakePoolCli.Subcmd.Fetch

/-!
# `sync-delegation`

`subcmd/sync_delegation.rs`. The scheme is sorted so that the remainder comes last and checked;
the stake accounts of its validators are fetched; the changeset is walked, and its instructions are
sent in transactions of `maxIncreaseValidatorStakeIxPerTx`.

The sort is a parameter: what is assumed of it is that it is stable where its comparator is an
order (`Sorting.StableSort`).
-/

namespace StakePoolCli

open Checked Chunks Sorting

variable {Pubkey : Type}

/-- `MAX_INCREASE_VALIDATOR_STAKE_IX_PER_TX` -/
def maxIncreaseValidatorStakeIxPerTx : ℕ := 3

/-- The config file, with the signers. -/
structure SyncDelegationArgs (Pubkey : Type) where
  pool : Pubkey
  payer : Pubkey
  staker : Pubkey
  validators : List (ValidatorDelegation Pubkey)

/-- The comparator that moves the remainder to the end. -/
def remainderLast (a b : ValidatorDelegation Pubkey) : Ordering :=
  if a.target = .remainder then .gt
  else if b.target = .remainder then .lt
  else .eq

/-- The stake a target stands for. -/
def ValidatorDelegationTarget.stake : ValidatorDelegationTarget → UInt64
  | lamports n => n
  | remainder => u64Max

namespace SyncDelegationArgs

variable [DecidableEq Pubkey] (lib : StakePoolLib Pubkey)
  (sort : StableSort (ValidatorDelegation Pubkey)) (args : SyncDelegationArgs Pubkey)
  (fetched : Fetched Pubkey)

/-- The scheme as it is processed: sorted, and checked afterwards. -/
def scheme : Except Panic (List (ValidatorDelegation Pubkey)) :=
  let delegationScheme := sort.sortBy remainderLast args.validators
  match isDelegationSchemeValid (delegationScheme.map (·.target)) with
  | .ok () => .ok delegationScheme
  | .error msg => .error (.explicit msg)

/-- The validator stake account and the transient stake account of an entry. -/
def stakeAccs (vsi : ValidatorStakeInfo Pubkey) : List Pubkey :=
  [lib.findValidatorStakeAccount fetched.programId args.pool vsi.voteAccountAddress none,
    lib.findTransientStakeAccount fetched.programId args.pool vsi.voteAccountAddress
      vsi.transientSeedSuffix]

/-- The states of the two accounts of a validator. -/
def stakeStates : List (Option (Account Pubkey)) →
    Except Panic (StakeStateV2 × Option StakeStateV2)
  | [vsa, tsa] => do
    -- the validator stake account always exists
    let vsa ← unwrap vsa
    let vsa ← unwrap vsa.stakeState
    let tsa ← tsaState lib tsa
    .ok (vsa, tsa)
  | _ => .error (.explicit "index out of bounds")

/-- What the changes are computed from. -/
def changeSrcs (scheme : List (ValidatorDelegation Pubkey)) :
    Except Panic (List (ValidatorChangeSrc Pubkey)) := do
  let vsis ← scheme.mapM fun d => findValidator lib fetched.validators d.vote
  let stakeAccs := vsis.flatMap (args.stakeAccs lib fetched)
  let fetchedStakeAccs ← (chunks 2 (stakeAccs.map fetched.account)).mapM (stakeStates lib)
  .ok (((scheme.zip vsis).zip fetchedStakeAccs).map fun ((d, vsi), (vsa, tsa)) =>
    { vsi, vsa, tsa, desired := d.target.stake })

def syncDelegationConfig : SyncDelegationConfig Pubkey where
  programId := fetched.programId
  payer := args.payer
  staker := args.staker
  pool := args.pool
  validatorList := fetched.stakePool.validatorList
  reserve := fetched.stakePool.reserveStake
  reserveLamports := fetched.reserveLamports
  currEpoch := fetched.epoch
  rent := fetched.rent

/-- The changes, with the changeset after them. -/
def changes : Except Panic (List (ValidatorDelegationChange Pubkey) ×
    DelegationChangeset Pubkey) := do
  let scheme ← args.scheme sort
  checkStaker lib fetched.stakePool args.staker
  let srcs ← args.changeSrcs lib fetched scheme
  ((args.syncDelegationConfig fetched).changeset srcs).collect lib

/-- `SyncDelegationArgs::run`: the transactions, as lists of instructions. -/
def run : Except Panic (List (List (Instruction Pubkey))) := do
  let (changes, _) ← args.changes lib sort fetched
  .ok (chunks maxIncreaseValidatorStakeIxPerTx
    ((args.syncDelegationConfig fetched).syncDelegationIxs lib changes))

end SyncDelegationArgs

end StakePoolCli
