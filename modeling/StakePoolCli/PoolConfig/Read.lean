import StakePoolCli.PoolConfig.File

/-!
# Listing a pool

`pool_config/read.rs`: the entries of a `ConfigRaw` that are read from the accounts of a pool.
Addresses are written out. The stake deposit authority is left out when it is the default one.
-/

namespace StakePoolCli.ConfigRaw

variable {Pubkey : Type} (lib : StakePoolLib Pubkey)

/-- `ConfigRaw::set_pool_pk` -/
def setPoolPk (poolPk : Pubkey) (cfg : ConfigRaw Pubkey) : ConfigRaw Pubkey :=
  { cfg with pool := some (lib.display poolPk) }

/-- `ConfigRaw::set_program` -/
def setProgram [DecidableEq Pubkey] (cli : CliLib Pubkey) (program : Pubkey)
    (cfg : ConfigRaw Pubkey) : ConfigRaw Pubkey :=
  { cfg with program := some (.ofPubkey cli program) }

/-- `ConfigRaw::set_reserve` -/
def setReserve (reservePk : Pubkey) (lamports : UInt64) (cfg : ConfigRaw Pubkey) :
    ConfigRaw Pubkey :=
  { cfg with reserve := some (.fromReserveStakeAcc lib reservePk lamports) }

/-- `ConfigRaw::set_pool` -/
def setPool [DecidableEq Pubkey] (programId pool : Pubkey) (sp : StakePool Pubkey)
    (cfg : ConfigRaw Pubkey) : ConfigRaw Pubkey :=
  { cfg with
    mint := some (lib.display sp.poolMint)
    tokenProgram := some (lib.display sp.tokenProgram)
    validatorList := some (lib.display sp.validatorList)
    reserve := some (.fromPk lib sp.reserveStake)
    manager := some (lib.display sp.manager)
    managerFeeAccount := some (lib.display sp.managerFeeAccount)
    staker := some (lib.display sp.staker)
    solDepositAuth := sp.solDepositAuthority.map lib.display
    stakeDepositAuth :=
      if sp.stakeDepositAuthority ≠ lib.findDepositAuthority programId pool then
        some (lib.display sp.stakeDepositAuthority)
      else none
    stakeWithdrawAuth := some (lib.display (lib.findWithdrawAuthority programId pool))
    solWithdrawAuth := sp.solWithdrawAuthority.map lib.display
    preferredDepositValidator := sp.preferredDepositValidatorVoteAddress.map lib.display
    preferredWithdrawValidator := sp.preferredWithdrawValidatorVoteAddress.map lib.display
    stakeDepositReferralFee := some sp.stakeReferralFee
    solDepositReferralFee := some sp.solReferralFee
    epochFee := some sp.epochFee
    stakeWithdrawalFee := some sp.stakeWithdrawalFee
    solWithdrawalFee := some sp.solWithdrawalFee
    stakeDepositFee := some sp.stakeDepositFee
    solDepositFee := some sp.solDepositFee
    totalLamports := some sp.totalLamports
    poolTokenSupply := some sp.poolTokenSupply
    lastUpdateEpoch := some sp.lastUpdateEpoch
    nextEpochFee := some sp.nextEpochFee
    nextStakeWithdrawalFee := some sp.nextStakeWithdrawalFee
    nextSolWithdrawalFee := some sp.nextSolWithdrawalFee
    lastEpochPoolTokenSupply := some sp.lastEpochPoolTokenSupply
    lastEpochTotalLamports := some sp.lastEpochTotalLamports }

/-- `ConfigRaw::set_validator_list` -/
def setValidatorList (programId pool : Pubkey) (validatorList : ValidatorList Pubkey)
    (cfg : ConfigRaw Pubkey) : ConfigRaw Pubkey :=
  { cfg with
    maxValidators := some validatorList.maxValidators
    validators := some <| validatorList.validators.map fun vsi =>
      (ValidatorConfigRaw.fromVsiProgramPool lib vsi programId pool).map lib.display }

end StakePoolCli.ConfigRaw
