import StakePoolCli.Foundations.Approach
import StakePoolCli.Foundations.Budget
import StakePoolCli.Foundations.Checked
import StakePoolCli.Foundations.Chunks
import StakePoolCli.Foundations.Iteration
import StakePoolCli.Foundations.KeySync
import StakePoolCli.Foundations.Numbered
import StakePoolCli.Foundations.Outcomes
import StakePoolCli.Foundations.Reconcile
import StakePoolCli.Foundations.Roster
import StakePoolCli.Foundations.Scan
import StakePoolCli.Foundations.StableSort
import StakePoolCli.Interface.Types
import StakePoolCli.Interface.Lib
import StakePoolCli.Interface.Instruction
import StakePoolCli.Interface.Symbolic
import StakePoolCli.Parse
import StakePoolCli.PoolConfig.Utils
import StakePoolCli.PoolConfig.File
import StakePoolCli.PoolConfig.Read
import StakePoolCli.PoolConfig.SyncDelegation
import StakePoolCli.PoolConfig.SyncPool
import StakePoolCli.PoolConfig.SyncValidatorList
import StakePoolCli.Update
import StakePoolCli.Subcmd.Fetch
import StakePoolCli.Subcmd.SyncDelegation
import StakePoolCli.Subcmd.SyncValidatorList
import StakePoolCli.Subcmd.ValidatorStake
import StakePoolCli.Subcmd.List
import StakePoolCli.Subcmd.SyncPool
import StakePoolCli.Subcmd.CreatePool
import StakePoolCli.Subcmd.Deposit
import StakePoolCli.Subcmd.WithdrawStake
import StakePoolCli.Subcmd.SetStaker
import StakePoolCli.PoolConfig.Create
import StakePoolCli.Delegation.Ledger
import StakePoolCli.Delegation.Decisions
import StakePoolCli.Delegation.ReserveBudget
import StakePoolCli.Delegation.Instructions
import StakePoolCli.Delegation.Batches
import StakePoolCli.Delegation.Scheme
import StakePoolCli.Delegation.Remainder
import StakePoolCli.Delegation.Transient
import StakePoolCli.Delegation.Targets
import StakePoolCli.Delegation.Order
import StakePoolCli.Delegation.ValidatorStake
import StakePoolCli.Delegation.Rerun
import StakePoolCli.Delegation.Addresses
import StakePoolCli.Delegation.Epochs
import StakePoolCli.Pool.Program
import StakePoolCli.Pool.StakerProgram
import StakePoolCli.Pool.Sync
import StakePoolCli.Pool.DelayedFees
import StakePoolCli.Pool.CreatePool
import StakePoolCli.Pool.Listing
import StakePoolCli.Removal.Transactions
import StakePoolCli.Removal.UpdatedPlan
import StakePoolCli.Removal.Floor
import StakePoolCli.Removal.FixedPoint
import StakePoolCli.Removal.Resumption
import StakePoolCli.Pool.Creation
import StakePoolCli.Updating.EpochCrank
import StakePoolCli.Deposit.MintTo
import StakePoolCli.Withdraw.Stake
import StakePoolCli.Withdraw.Preferred
import StakePoolCli.Pool.Handover
import StakePoolCli.Pool.Accounts
import StakePoolCli.Pool.Recovery
