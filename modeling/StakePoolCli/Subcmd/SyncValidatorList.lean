import Mathlib.Data.List.Dedup
import StakePoolCli.PoolConfig.File
import StakePoolCli.PoolConfig.SyncValidatorList
import StakePoolCli.Subcmd.Fetch
import StakePoolCli.Update

/-!
# `sync-validator-list`

`subcmd/sync_validator_list.rs`. The validator list is fetched and the pool is updated, then the
validators are added and removed that the *fetched* list calls for. The stake accounts of the
validators to remove are fetched after the update. The instructions of each kind are cut into
transactions.
-/

namespace StakePoolCli

open Checked Chunks

variable {Pubkey : Type}

/-- `MAX_ADD_VALIDATORS_IX_PER_TX` -/
def maxAddValidatorsIxPerTx : ℕ := 7

/-- `MAX_REMOVE_VALIDATOR_IXS_ENUM_PER_TX` -/
def maxRemoveValidatorIxsEnumPerTx : ℕ := 5

/-- The config file, with the signers. -/
structure SyncValidatorListArgs (Pubkey : Type) where
  pool : Pubkey
  payer : Pubkey
  staker : Pubkey
  validators : HashSet Pubkey
  preferredDepositValidator : Option Pubkey
  preferredWithdrawValidator : Option Pubkey

/-- Collecting addresses into a set: the set has the same elements, in some order. -/
structure HashSetCollect (α : Type) where
  collect : List α → HashSet α
  mem_collect : ∀ (l : List α) (a : α), a ∈ (collect l).toList ↔ a ∈ l

/-- Collecting in the order of the last occurrences. -/
def HashSetCollect.dedup (α : Type) [DecidableEq α] : HashSetCollect α where
  collect l := ⟨l.dedup, l.nodup_dedup⟩
  mem_collect _ _ := List.mem_dedup

/-- The config file with its addresses read. A file without validators stands for none. The votes
are read only after the pool is updated, but nothing before depends on them. -/
def SyncValidatorListArgs.ofConfig (cli : CliLib Pubkey) (hashSet : HashSetCollect Pubkey)
    (sendMode : TxSendMode) (payer : Pubkey) (cfg : ConfigRaw Pubkey) :
    Except Panic (SyncValidatorListArgs Pubkey) := do
  let staker ← psFallback cli sendMode payer cfg.staker
  let preferredDepositValidator ← parsePubkeyOpt cli cfg.preferredDepositValidator
  let preferredWithdrawValidator ← parsePubkeyOpt cli cfg.preferredWithdrawValidator
  let pool ← parsePubkey cli (← unwrap cfg.pool)
  let validators ← (cfg.validators.getD []).mapM fun v => unwrap (cli.fromStr v.vote)
  .ok {
    pool
    payer
    staker
    validators := hashSet.collect validators
    preferredDepositValidator
    preferredWithdrawValidator }

/-- What a run sends, in order, with the entries and states the removals are computed from. -/
structure SyncValidatorListRun (Pubkey : Type) where
  updateTxs : List (List (UpdateIx Pubkey))
  remove : List (ValidatorStakeInfo Pubkey × StakeStateV2)
  removeTxs : List (List (Instruction Pubkey))
  add : List Pubkey
  addTxs : List (List (Instruction Pubkey))
  preferredValidatorIxs : List (Instruction Pubkey)

variable (lib : StakePoolLib Pubkey)

/-- The transactions that remove validators. -/
def SyncValidatorListConfig.removeTxs (svlc : SyncValidatorListConfig Pubkey)
    (remove : List (ValidatorStakeInfo Pubkey × StakeStateV2)) :
    List (List (Instruction Pubkey)) :=
  chunks maxRemoveValidatorIxsEnumPerTx (svlc.removeValidatorsIxs lib remove)

namespace SyncValidatorListArgs

variable (args : SyncValidatorListArgs Pubkey) (fetched : Fetched Pubkey)

def updatePoolArgs : UpdatePoolArgs Pubkey where
  programId := fetched.programId
  currentEpoch := fetched.epoch
  pool := args.pool
  stakePool := fetched.stakePool
  validatorListEntries := fetched.validators
  ctrl := .ifNeeded
  noMerge := false

def syncValidatorListConfig : SyncValidatorListConfig Pubkey where
  programId := fetched.programId
  payer := args.payer
  staker := args.staker
  pool := args.pool
  validatorList := fetched.stakePool.validatorList
  reserve := fetched.stakePool.reserveStake
  validators := args.validators
  preferredDepositValidator := args.preferredDepositValidator
  preferredWithdrawValidator := args.preferredWithdrawValidator
  rent := fetched.rent

/-- The validator stake account of an entry to remove. -/
def removeVsaPubkey (vsi : ValidatorStakeInfo Pubkey) : Pubkey :=
  lib.findValidatorStakeAccount fetched.programId args.pool vsi.voteAccountAddress
    (NonZeroU32.new vsi.validatorSeedSuffix)

/-- The state of the validator stake account of an entry to remove. -/
def removeVsa (vsi : ValidatorStakeInfo Pubkey) : Except Panic StakeStateV2 := do
  let acc ← unwrap (fetched.account (args.removeVsaPubkey lib fetched vsi))
  unwrap acc.stakeState

/-- `SyncValidatorListArgs::run` -/
def run [DecidableEq Pubkey] : Except Panic (SyncValidatorListRun Pubkey) := do
  let oldValidators := fetched.validators
  let updateTxs ← updatePool (args.updatePoolArgs fetched)
  let svlc := args.syncValidatorListConfig fetched
  let (add, remove) := svlc.addRemoveChangeset oldValidators
  let removeVsas ← remove.mapM (args.removeVsa lib fetched)
  let remove := remove.zip removeVsas
  .ok {
    updateTxs
    remove
    removeTxs := svlc.removeTxs lib remove
    add
    addTxs := chunks maxAddValidatorsIxPerTx (svlc.addValidatorsIxs lib add)
    preferredValidatorIxs :=
      svlc.preferredValidatorIxs (svlc.preferredValidatorChangeset fetched.stakePool) }

end SyncValidatorListArgs

end StakePoolCli
