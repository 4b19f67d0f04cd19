import StakePoolCli.PoolConfig.SyncPool
import StakePoolCli.Subcmd.List

/-!
# `sync-pool`

`subcmd/sync_pool.rs`. What the config file leaves out stays as it is in the pool, except for the
authorities: one that is left out is reset. The current manager is `old-manager` in the file, or
the payer; the manager after the sync is `manager` in the file, or the current one.
-/

namespace StakePoolCli

open Checked

variable {Pubkey : Type}

/-- What a run finds to change, and the instructions for it. -/
structure SyncPoolRun (Pubkey : Type) where
  changeset : List (SyncPoolChange Pubkey)
  ixs : List (Instruction Pubkey)

namespace SyncPoolArgs

variable [DecidableEq Pubkey] (lib : StakePoolLib Pubkey) (cli : CliLib Pubkey)
  (sendMode : TxSendMode) (payer : Pubkey)

/-- The config that the file stands for, at a pool. -/
def syncPoolConfig (cfg : ConfigRaw Pubkey) (pool : Pubkey) (acc : PoolAccount Pubkey) :
    Except Panic (SyncPoolConfig Pubkey) := do
  let stakePool := acc.stakePool
  let oldManager ← psFallback cli sendMode payer cfg.oldManager
  if oldManager ≠ stakePool.manager then
    .error (.explicit ("Wrong manager. Expecting " ++ lib.display stakePool.manager ++ ", got " ++
      lib.display oldManager))
  else
    let newManager ← psFallback cli sendMode oldManager cfg.manager
    let managerFeeAccount ← parsePubkeyOpt cli cfg.managerFeeAccount
    let staker ← parsePubkeyOpt cli cfg.staker
    let solDepositAuth ← parsePubkeyOpt cli cfg.solDepositAuth
    let solWithdrawAuth ← parsePubkeyOpt cli cfg.solWithdrawAuth
    let stakeDepositAuth ← parsePubkeyOpt cli cfg.stakeDepositAuth
    .ok {
      programId := acc.owner
      pool
      payer
      manager := oldManager
      newManager
      staker := staker.getD stakePool.staker
      managerFeeAccount := managerFeeAccount.getD stakePool.managerFeeAccount
      solDepositAuth
      stakeDepositAuth
      solWithdrawAuth
      solDepositReferralFee := cfg.solDepositReferralFee.getD stakePool.solReferralFee
      stakeDepositReferralFee := cfg.stakeDepositReferralFee.getD stakePool.stakeReferralFee
      epochFee := cfg.epochFee.getD stakePool.epochFee
      stakeWithdrawalFee := cfg.stakeWithdrawalFee.getD stakePool.stakeWithdrawalFee
      solWithdrawalFee := cfg.solWithdrawalFee.getD stakePool.solWithdrawalFee
      stakeDepositFee := cfg.stakeDepositFee.getD stakePool.stakeDepositFee
      solDepositFee := cfg.solDepositFee.getD stakePool.solDepositFee }

/-- `SyncPoolArgs::run`. Without a change nothing is sent. -/
def run (cfg : ConfigRaw Pubkey) (fetchedPool : Pubkey → Option (PoolAccount Pubkey)) :
    Except Panic (SyncPoolRun Pubkey) := do
  let pool ← parsePubkey cli (← unwrap cfg.pool)
  let acc ← unwrap (fetchedPool pool)
  let spc ← syncPoolConfig lib cli sendMode payer cfg pool acc
  let changeset := spc.changeset lib acc.stakePool
  .ok { changeset, ixs := if changeset = [] then [] else spc.changesetIxs lib changeset }

end SyncPoolArgs

end StakePoolCli
