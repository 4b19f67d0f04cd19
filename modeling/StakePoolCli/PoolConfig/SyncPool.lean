import StakePoolCli.Interface.Instruction

/-!
# Syncing the pool's settings

`pool_config/sync_pool.rs`, with `parse/stake_deposit_auth.rs`. `SyncPoolConfig.changeset` compares
a pool with a config and lists what has to change, `SyncPoolConfig.changesetIxs` turns the list
into instructions. The instructions read the config, not the change, except for fees.
-/

namespace StakePoolCli

variable {Pubkey : Type}

/-- The manager signs as `manager`; `newManager` is the manager after the sync. -/
structure SyncPoolConfig (Pubkey : Type) where
  programId : Pubkey
  pool : Pubkey
  payer : Pubkey
  manager : Pubkey
  newManager : Pubkey
  staker : Pubkey
  managerFeeAccount : Pubkey
  solDepositAuth : Option Pubkey
  stakeDepositAuth : Option Pubkey
  solWithdrawAuth : Option Pubkey
  solDepositReferralFee : UInt8
  stakeDepositReferralFee : UInt8
  epochFee : Fee
  stakeWithdrawalFee : Fee
  solWithdrawalFee : Fee
  stakeDepositFee : Fee
  solDepositFee : Fee

inductive SyncPoolChange (Pubkey : Type)
  | fee (old new : FeeType)
  | managerFeeAccount (old new : Pubkey)
  | staker (old new : Pubkey)
  | manager (old new : Pubkey)
  | fundingAuth (ty : FundingType) (old new : Option Pubkey)
  deriving DecidableEq, Repr

/-- `filter_default_stake_deposit_auth` -/
def filterDefaultStakeDepositAuth [DecidableEq Pubkey]
    (stakeDepositAuth defaultStakeDepositAuth : Pubkey) : Option Pubkey :=
  if stakeDepositAuth = defaultStakeDepositAuth then none else some stakeDepositAuth

/-- Filtering out the default authority twice filters it out. -/
theorem filterDefault_bind [DecidableEq Pubkey] (pk default : Pubkey) :
    (filterDefaultStakeDepositAuth pk default).bind (filterDefaultStakeDepositAuth · default) =
      filterDefaultStakeDepositAuth pk default := by
  by_cases h : pk = default <;> simp [filterDefaultStakeDepositAuth, h]

namespace SyncPoolConfig

variable [DecidableEq Pubkey] (lib : StakePoolLib Pubkey) (spc : SyncPoolConfig Pubkey)

/-! ## The changes -/

def newStakeDepositAuth : Option Pubkey :=
  spc.stakeDepositAuth.bind fun pk =>
    filterDefaultStakeDepositAuth pk (lib.findDepositAuthority spc.programId spc.pool)

/-- The loop body over the funding authorities. -/
def fundingAuthChange : Option Pubkey × Option Pubkey × FundingType → Option (SyncPoolChange Pubkey)
  | (old, new, ty) => if old ≠ new then some (.fundingAuth ty old new) else none

/-- The loop body over the fees that take effect at a later epoch: the kind of fee, the pool's, the
config's, and the one that is pending. -/
def delayedFeeChange :
    (Fee → FeeType) × Fee × Fee × FutureEpochFee → Option (SyncPoolChange Pubkey)
  | (kind, oldFee, newFee, nextFee) =>
    if !lib.eqFeeType (kind oldFee) (kind newFee) then
      let shouldChange :=
        match nextFee with
        | .none => true
        | .one fee | .two fee => !lib.cmpFeeEq fee newFee
      if shouldChange then some (.fee (kind oldFee) (kind newFee)) else none
    else
      none

/-- The loop body over the fees that take effect at once. -/
def feeChange : FeeType × FeeType → Option (SyncPoolChange Pubkey)
  | (oldFee, newFee) => if !lib.eqFeeType oldFee newFee then some (.fee oldFee newFee) else none

/-- `SyncPoolConfig::changeset` -/
def changeset (sp : StakePool Pubkey) : List (SyncPoolChange Pubkey) :=
  let oldStakeDepositAuth := filterDefaultStakeDepositAuth sp.stakeDepositAuthority
    (lib.findDepositAuthority spc.programId spc.pool)
  [(oldStakeDepositAuth, spc.newStakeDepositAuth lib, FundingType.stakeDeposit),
    (sp.solDepositAuthority, spc.solDepositAuth, .solDeposit),
    (sp.solWithdrawAuthority, spc.solWithdrawAuth, .solWithdraw)].filterMap fundingAuthChange ++
  [(FeeType.epoch, sp.epochFee, spc.epochFee, sp.nextEpochFee),
    (.solWithdrawal, sp.solWithdrawalFee, spc.solWithdrawalFee, sp.nextSolWithdrawalFee),
    (.stakeWithdrawal, sp.stakeWithdrawalFee, spc.stakeWithdrawalFee,
      sp.nextStakeWithdrawalFee)].filterMap (delayedFeeChange lib) ++
  [(FeeType.solDeposit sp.solDepositFee, FeeType.solDeposit spc.solDepositFee),
    (.solReferral sp.solReferralFee, .solReferral spc.solDepositReferralFee),
    (.stakeDeposit sp.stakeDepositFee, .stakeDeposit spc.stakeDepositFee),
    (.stakeReferral sp.stakeReferralFee,
      .stakeReferral spc.stakeDepositReferralFee)].filterMap (feeChange lib) ++
  (if sp.staker ≠ spc.staker then [.staker sp.staker spc.staker] else []) ++
  (if sp.managerFeeAccount ≠ spc.managerFeeAccount then
    [.managerFeeAccount sp.managerFeeAccount spc.managerFeeAccount] else []) ++
  -- the manager last, so that the previous changes can be applied first
  (if sp.manager ≠ spc.newManager then [.manager sp.manager spc.newManager] else [])

/-! ## The instructions -/

def setFeeIx (fee : FeeType) : Instruction Pubkey :=
  StakePoolCli.setFeeIx spc.programId { stakePool := spc.pool, manager := spc.manager } fee

def setFundingAuthIx (auth : FundingType) : Instruction Pubkey :=
  let newFundingAuthority :=
    match auth with
    | .stakeDeposit => spc.newStakeDepositAuth lib
    | .solDeposit => spc.solDepositAuth
    | .solWithdraw => spc.solWithdrawAuth
  let ix := setFundingAuthorityIx spc.programId
    { stakePool := spc.pool
      manager := spc.manager
      newFundingAuthority := newFundingAuthority.getD lib.defaultPubkey } auth
  if newFundingAuthority = none then { ix with accounts := ix.accounts.dropLast } else ix

def setManagerIx : Instruction Pubkey :=
  StakePoolCli.setManagerIx spc.programId
    { stakePool := spc.pool
      manager := spc.manager
      newManager := spc.newManager
      newManagerFeeAccount := spc.managerFeeAccount }

def setManagerFeeIx : Instruction Pubkey :=
  StakePoolCli.setManagerIx spc.programId
    { stakePool := spc.pool
      manager := spc.manager
      newManager := spc.manager
      newManagerFeeAccount := spc.managerFeeAccount }

def setStakerIx : Instruction Pubkey :=
  StakePoolCli.setStakerIx spc.programId
    { stakePool := spc.pool
      signer := spc.manager
      newStaker := spc.staker }

def changeIx : SyncPoolChange Pubkey → Instruction Pubkey
  | .fee _ new => spc.setFeeIx new
  | .managerFeeAccount _ _ => spc.setManagerFeeIx
  | .staker _ _ => spc.setStakerIx
  | .manager _ _ => spc.setManagerIx
  | .fundingAuth ty _ _ => spc.setFundingAuthIx lib ty

/-- `SyncPoolConfig::changeset_ixs` -/
def changesetIxs (changeset : List (SyncPoolChange Pubkey)) : List (Instruction Pubkey) :=
  changeset.map (spc.changeIx lib)

end SyncPoolConfig

end StakePoolCli
