import StakePoolCli.Foundations.KeySync
import StakePoolCli.Interface.Instruction
import StakePoolCli.PoolConfig.Utils

/-!
# Adding and removing validators

`pool_config/sync_validator_list.rs`: what the validator list lacks and what it has too much of,
compared with the config's set of validators, and the instructions that add, remove and prefer
validators. A validator with excess stake is removed by two instructions, `RemoveValidatorIxs`.

A hash set is the list of its elements in the order in which it iterates; nothing is assumed of
that order.
-/

namespace StakePoolCli

open Checked

variable {Pubkey : Type}

/-- A set, by its elements in iteration order. -/
structure HashSet (α : Type) where
  toList : List α
  nodup : toList.Nodup

structure SyncValidatorListConfig (Pubkey : Type) where
  programId : Pubkey
  payer : Pubkey
  staker : Pubkey
  pool : Pubkey
  validatorList : Pubkey
  reserve : Pubkey
  validators : HashSet Pubkey
  preferredDepositValidator : Option Pubkey
  preferredWithdrawValidator : Option Pubkey
  rent : Rent

structure PreferredValidatorChange (Pubkey : Type) where
  ty : PreferredValidatorType
  old : Option Pubkey
  new : Option Pubkey
  deriving DecidableEq, Repr

/-- The instructions that remove a validator. -/
inductive RemoveValidatorIxs (Pubkey : Type)
  | withDecreaseStake (decreaseIx removeIx : Instruction Pubkey)
  | removeDirectly (removeIx : Instruction Pubkey)

/-- `RemoveValidatorIxs::into_iter` -/
def RemoveValidatorIxs.ixs : RemoveValidatorIxs Pubkey → List (Instruction Pubkey)
  | withDecreaseStake i₁ i₂ => [i₁, i₂]
  | removeDirectly i => [i]

/-- The validator stake accounts that are delegated and not being deactivated. -/
def StakeStateV2.isVsaActive : StakeStateV2 → Bool
  | .stake delegation => delegation.deactivationEpoch = u64Max
  | _ => false

namespace SyncValidatorListConfig

variable (lib : StakePoolLib Pubkey) (svlc : SyncValidatorListConfig Pubkey)

def withdrawAuth : Pubkey := lib.findWithdrawAuthority svlc.programId svlc.pool

/-! ## Preferred validators -/

section

variable [DecidableEq Pubkey]

/-- `preferred_validator_changeset` -/
def preferredValidatorChangeset (stakePool : StakePool Pubkey) :
    List (PreferredValidatorChange Pubkey) :=
  [(svlc.preferredDepositValidator, stakePool.preferredDepositValidatorVoteAddress,
      PreferredValidatorType.deposit),
    (svlc.preferredWithdrawValidator, stakePool.preferredWithdrawValidatorVoteAddress,
      .withdraw)].filterMap fun (new, old, ty) =>
    if new ≠ old then some { ty, old, new } else none

end

def setPreferredValidatorIx (change : PreferredValidatorChange Pubkey) : Instruction Pubkey :=
  StakePoolCli.setPreferredValidatorIx svlc.programId
    { stakePool := svlc.pool
      staker := svlc.staker
      validatorList := svlc.validatorList } change.ty change.new

def preferredValidatorIxs (changes : List (PreferredValidatorChange Pubkey)) :
    List (Instruction Pubkey) :=
  changes.map svlc.setPreferredValidatorIx

/-! ## Validators to add and to remove -/

section

variable [DecidableEq Pubkey]

/-- The entries to remove: those that are still active and not in the config. -/
def toRemove (validatorList : List (ValidatorStakeInfo Pubkey)) :
    List (ValidatorStakeInfo Pubkey) :=
  validatorList.filter fun vsi =>
    vsi.status = .active ∧ vsi.voteAccountAddress ∉ svlc.validators.toList

/-- The validators to add: those that are not in the list, under any status. -/
def toAdd (validatorList : List (ValidatorStakeInfo Pubkey)) : List Pubkey :=
  svlc.validators.toList.filter fun v =>
    ¬ validatorList.any fun vsi => vsi.voteAccountAddress = v

/-- `add_remove_changeset` -/
def addRemoveChangeset (validatorList : List (ValidatorStakeInfo Pubkey)) :
    List Pubkey × List (ValidatorStakeInfo Pubkey) :=
  (svlc.toAdd validatorList, svlc.toRemove validatorList)

/-- The changeset keeps the list in line with the config: its keys are the votes, and its live
entries the active ones. -/
theorem addRemoveChangeset_eq (validatorList : List (ValidatorStakeInfo Pubkey)) :
    svlc.addRemoveChangeset validatorList =
      (KeySync.missing ValidatorStakeInfo.voteAccountAddress svlc.validators.toList validatorList,
        KeySync.surplus ValidatorStakeInfo.voteAccountAddress (·.status = .active)
          svlc.validators.toList validatorList) := rfl

section

variable {svlc} {validatorList : List (ValidatorStakeInfo Pubkey)}

theorem mem_toAdd {vote : Pubkey} :
    vote ∈ svlc.toAdd validatorList ↔
      vote ∈ svlc.validators.toList ∧ ∀ vsi ∈ validatorList, vsi.voteAccountAddress ≠ vote :=
  KeySync.mem_missing

theorem mem_toRemove {vsi : ValidatorStakeInfo Pubkey} :
    vsi ∈ svlc.toRemove validatorList ↔ vsi ∈ validatorList ∧ vsi.status = .active ∧
      vsi.voteAccountAddress ∉ svlc.validators.toList :=
  KeySync.mem_surplus

end

end

def addValidatorIx (vote : Pubkey) : Instruction Pubkey :=
  addValidatorToPoolIx svlc.programId
    { stakePool := svlc.pool
      staker := svlc.staker
      reserveStake := svlc.reserve
      withdrawAuthority := lib.findWithdrawAuthority svlc.programId svlc.pool
      validatorList := svlc.validatorList
      validatorStakeAccount := lib.findValidatorStakeAccount svlc.programId svlc.pool vote none
      voteAccount := vote
      rent := lib.rent
      clock := lib.clock
      stakeHistory := lib.stakeHistory
      stakeConfig := lib.stakeConfig
      systemProgram := lib.systemProgram
      stakeProgram := lib.stakeProgram } 0

def addValidatorsIxs (add : List Pubkey) : List (Instruction Pubkey) :=
  add.map (svlc.addValidatorIx lib)

/-- The stake that is taken out of a validator before it is removed. -/
def lamportsToDecrease (vsi : ValidatorStakeInfo Pubkey) : UInt64 :=
  saturatingSub vsi.activeStakeLamports (lamportsForNewVsa svlc.rent)

/-- `remove_validator_ixs`, which assumes that the entry has been updated for this epoch. -/
def removeValidatorIxs (vsi : ValidatorStakeInfo Pubkey) (vsa : StakeStateV2) :
    RemoveValidatorIxs Pubkey :=
  let validatorStakeAccount := lib.findValidatorStakeAccount svlc.programId svlc.pool
    vsi.voteAccountAddress (NonZeroU32.new vsi.validatorSeedSuffix)
  let transientStakeAccount := lib.findTransientStakeAccount svlc.programId svlc.pool
    vsi.voteAccountAddress vsi.transientSeedSuffix
  let removeIx := removeValidatorFromPoolIx svlc.programId
    { stakePool := svlc.pool
      staker := svlc.staker
      withdrawAuthority := svlc.withdrawAuth lib
      validatorList := svlc.validatorList
      validatorStakeAccount
      transientStakeAccount
      clock := lib.clock
      stakeProgram := lib.stakeProgram }
  if 0 < svlc.lamportsToDecrease vsi ∧ vsa.isVsaActive then
    let ephemeralStakeSeed := 0
    let decreaseIx := decreaseAdditionalValidatorStakeIx svlc.programId
      { stakePool := svlc.pool
        staker := svlc.staker
        withdrawAuthority := svlc.withdrawAuth lib
        validatorList := svlc.validatorList
        reserveStake := svlc.reserve
        validatorStakeAccount
        ephemeralStakeAccount :=
          lib.findEphemeralStakeAccount svlc.programId svlc.pool ephemeralStakeSeed
        transientStakeAccount
        clock := lib.clock
        stakeHistory := lib.stakeHistory
        systemProgram := lib.systemProgram
        stakeProgram := lib.stakeProgram }
      { lamports := svlc.lamportsToDecrease vsi
        transientStakeSeed := vsi.transientSeedSuffix
        ephemeralStakeSeed }
    .withDecreaseStake decreaseIx removeIx
  else
    .removeDirectly removeIx

/-- `remove_validators_ixs` -/
def removeValidatorsIxs (remove : List (ValidatorStakeInfo Pubkey × StakeStateV2)) :
    List (Instruction Pubkey) :=
  remove.flatMap fun (vsi, vsa) => (svlc.removeValidatorIxs lib vsi vsa).ixs

/-! ## The removal of an entry -/

/-- The instruction takes the stake of an entry out of its account, through the ephemeral account
of seed 0. -/
structure TakesOut (vsi : ValidatorStakeInfo Pubkey) (ix : Instruction Pubkey) : Prop where
  decreaseArgs : ix.decreaseArgs = some
    { lamports := svlc.lamportsToDecrease vsi
      transientStakeSeed := vsi.transientSeedSuffix
      ephemeralStakeSeed := 0 }
  validatorStakeAccount : ix.validatorStakeAccount = some (lib.findValidatorStakeAccount
    svlc.programId svlc.pool vsi.voteAccountAddress (NonZeroU32.new vsi.validatorSeedSuffix))
  ephemeralStakeAccount : ix.ephemeralStakeAccount =
    some (lib.findEphemeralStakeAccount svlc.programId svlc.pool 0)

/-- The instruction removes an entry, and decreases nothing. -/
structure Removes (vsi : ValidatorStakeInfo Pubkey) (ix : Instruction Pubkey) : Prop where
  decreaseArgs : ix.decreaseArgs = none
  validatorStakeAccount : ix.validatorStakeAccount = some (lib.findValidatorStakeAccount
    svlc.programId svlc.pool vsi.voteAccountAddress (NonZeroU32.new vsi.validatorSeedSuffix))

/-- The stake of an entry is taken out first if there is any and its account is active. -/
theorem removeValidatorIxs_cases (vsi : ValidatorStakeInfo Pubkey) (vsa : StakeStateV2) :
    ((0 < svlc.lamportsToDecrease vsi ∧ vsa.isVsaActive = true) ∧
      ∃ dec rem, svlc.removeValidatorIxs lib vsi vsa = .withDecreaseStake dec rem ∧
        svlc.TakesOut lib vsi dec ∧ svlc.Removes lib vsi rem) ∨
    (¬ (0 < svlc.lamportsToDecrease vsi ∧ vsa.isVsaActive = true) ∧
      ∃ rem, svlc.removeValidatorIxs lib vsi vsa = .removeDirectly rem ∧
        svlc.Removes lib vsi rem) := by
  unfold removeValidatorIxs
  split_ifs with h
  · refine .inl ⟨h, _, _, rfl, ?_, rfl, validatorStakeAccount_removeIx _ _⟩
    exact ⟨decreaseArgs_decreaseIx _ _ _, validatorStakeAccount_decreaseIx _ _ _,
      ephemeralStakeAccount_decreaseIx _ _ _⟩
  · exact .inr ⟨h, _, rfl, rfl, validatorStakeAccount_removeIx _ _⟩

section

variable {lib svlc}

theorem removeValidatorsIxs_cons (vsi : ValidatorStakeInfo Pubkey) (vsa : StakeStateV2)
    (remove : List (ValidatorStakeInfo Pubkey × StakeStateV2)) :
    svlc.removeValidatorsIxs lib ((vsi, vsa) :: remove) =
      (svlc.removeValidatorIxs lib vsi vsa).ixs ++ svlc.removeValidatorsIxs lib remove :=
  List.flatMap_cons

theorem removeValidatorsIxs_append
    (remove₁ remove₂ : List (ValidatorStakeInfo Pubkey × StakeStateV2)) :
    svlc.removeValidatorsIxs lib (remove₁ ++ remove₂) =
      svlc.removeValidatorsIxs lib remove₁ ++ svlc.removeValidatorsIxs lib remove₂ :=
  List.flatMap_append

end

end SyncValidatorListConfig

end StakePoolCli
