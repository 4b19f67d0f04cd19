import StakePoolCli.Foundations.Iteration
import StakePoolCli.Interface.Instruction
import StakePoolCli.PoolConfig.Utils

/-!
# Delegation changes

`pool_config/sync_delegation.rs`. A `DelegationChangeset` walks a list of validators, each with
its stake accounts and the stake it should have, and decides for each what to do about it. The
lamports of the pool's reserve are threaded through the walk: an increase takes them, and so does
the rent of a transient account that has to be created.

`DelegationChangeset.next` is the iterator, `DelegationChangeset.collect` its items up to
exhaustion, and `SyncDelegationConfig.syncDelegationIxs` the instructions for a list of changes.
Arithmetic that overflows stops the walk, as `unwrap` on an absent delegation does.
-/

namespace StakePoolCli

open Checked

variable {Pubkey : Type}

structure SyncDelegationConfig (Pubkey : Type) where
  programId : Pubkey
  payer : Pubkey
  staker : Pubkey
  pool : Pubkey
  validatorList : Pubkey
  reserve : Pubkey
  /-- The lamports of the reserve account, its rent-exempt lamports included. -/
  reserveLamports : UInt64
  currEpoch : UInt64
  rent : Rent

inductive ValidatorDelegationChangeTy
  | decreaseStake (dec : UInt64)
  | increaseStake (inc : UInt64)
  /-- The reserve does not have enough lamports for the desired increase. -/
  | partialIncreaseStake (increase shortfall : UInt64)
  | insufficientReserveLamports
  | noChange
  | transientWrongState
  | validatorBeingRemoved
  deriving DecidableEq, Repr

structure ValidatorDelegationChange (Pubkey : Type) where
  vote : Pubkey
  transientSeedSuffix : UInt64
  ty : ValidatorDelegationChangeTy
  deriving DecidableEq, Repr

inductive TransientStakeAccStatus
  | deactivating
  | activating
  | none
  deriving DecidableEq, Repr

/-- `next_epoch_stake_and_transient_status` -/
def nextEpochStakeAndTransientStatus (vsa : StakeStateV2) (tsa : Option StakeStateV2)
    (currEpoch : UInt64) : Except Panic (UInt64 × TransientStakeAccStatus) := do
  let vsaStake := (← unwrap vsa.delegation).stake
  match tsa with
  | none => .ok (vsaStake, .none)
  | some ss =>
    let dlgt ← unwrap ss.delegation
    let transientStake := dlgt.stake
    if dlgt.activationEpoch = currEpoch then
      .ok (saturatingAdd vsaStake transientStake, .activating)
    else
      .ok (saturatingSub vsaStake transientStake, .deactivating)

/-- What a change is computed from: the validator's entry in the list, the states of its two
stake accounts, and the stake it should have. -/
structure ValidatorChangeSrc (Pubkey : Type) where
  vsi : ValidatorStakeInfo Pubkey
  vsa : StakeStateV2
  tsa : Option StakeStateV2
  desired : UInt64

structure DelegationChangeset (Pubkey : Type) where
  delegations : List (ValidatorChangeSrc Pubkey)
  reserveLamports : UInt64
  currEpoch : UInt64
  rent : Rent

variable (lib : StakePoolLib Pubkey)

namespace DelegationChangeset

/-- The reserve after the rent of the transient account, when there is none yet. -/
def payTsaRent (saRentLamports : UInt64) (tsaStatus : TransientStakeAccStatus)
    (reserveLamports : UInt64) : Except Panic UInt64 :=
  match tsaStatus with
  | .none => checkedSub reserveLamports saRentLamports
  | _ => .ok reserveLamports

/-- The change when the validator has too much stake and no activating transient account, and
the reserve after it. -/
def decrease (rent : Rent) (reserveLamports nextEpochStake desired : UInt64)
    (tsaStatus : TransientStakeAccStatus) :
    Except Panic (ValidatorDelegationChangeTy × UInt64) := do
  let excess ← checkedSub nextEpochStake desired
  -- the program leaves at least `MIN_ACTIVE_STAKE` in the validator stake account
  let decreaseStakeAmt := saturatingSub excess lib.minActiveStake
  let saRentLamports := lamportsForNewVsa rent
  let minTsaBalance ← checkedAdd lib.minActiveStake saRentLamports
  -- the reserve funds both the ephemeral and the transient account
  let twoRents ← checkedMul 2 saRentLamports
  if reserveLamports < twoRents then
    .ok (.insufficientReserveLamports, reserveLamports)
  else if decreaseStakeAmt < minTsaBalance then
    .ok (.noChange, reserveLamports)
  else
    let reserveLamports ← payTsaRent saRentLamports tsaStatus reserveLamports
    .ok (.decreaseStake decreaseStakeAmt, reserveLamports)

/-- The change when the validator has too little stake and no deactivating transient account, and
the reserve after it. -/
def increase (rent : Rent) (reserveLamports nextEpochStake desired : UInt64)
    (tsaStatus : TransientStakeAccStatus) :
    Except Panic (ValidatorDelegationChangeTy × UInt64) := do
  let saRentLamports := lamportsForNewVsa rent
  let twoRents ← checkedMul 2 saRentLamports
  let availableStake := saturatingSub reserveLamports twoRents
  let desiredInc ← checkedSub desired nextEpochStake
  let actualInc := min availableStake desiredInc
  if actualInc = 0 then
    .ok (.insufficientReserveLamports, reserveLamports)
  else
    let reserveLamports ← checkedSub reserveLamports actualInc
    let reserveLamports ← payTsaRent saRentLamports tsaStatus reserveLamports
    if actualInc = desiredInc then
      .ok (.increaseStake actualInc, reserveLamports)
    else
      let shortfall ← checkedSub desiredInc actualInc
      .ok (.partialIncreaseStake actualInc shortfall, reserveLamports)

/-- The change for one validator, and the reserve after it: the body of `next`. -/
def changeTy (rent : Rent) (currEpoch reserveLamports : UInt64)
    (src : ValidatorChangeSrc Pubkey) :
    Except Panic (ValidatorDelegationChangeTy × UInt64) := do
  if src.vsi.status ≠ .active then
    .ok (.validatorBeingRemoved, reserveLamports)
  else
    let (nextEpochStake, tsaStatus) ←
      nextEpochStakeAndTransientStatus src.vsa src.tsa currEpoch
    match compare nextEpochStake src.desired with
    | .gt =>
      match tsaStatus with
      | .deactivating | .none =>
        decrease lib rent reserveLamports nextEpochStake src.desired tsaStatus
      | .activating => .ok (.transientWrongState, reserveLamports)
    | .eq => .ok (.noChange, reserveLamports)
    | .lt =>
      match tsaStatus with
      | .activating | .none => increase rent reserveLamports nextEpochStake src.desired tsaStatus
      | .deactivating => .ok (.transientWrongState, reserveLamports)

/-- `DelegationChangeset::next` -/
def next (cs : DelegationChangeset Pubkey) :
    Except Panic (Option (ValidatorDelegationChange Pubkey × DelegationChangeset Pubkey)) :=
  match cs.delegations with
  | [] => .ok none
  | src :: delegations => do
    let (ty, reserveLamports) ← changeTy lib cs.rent cs.currEpoch cs.reserveLamports src
    .ok (some ({ vote := src.vsi.voteAccountAddress,
                 transientSeedSuffix := src.vsi.transientSeedSuffix, ty },
      { cs with delegations, reserveLamports }))

/-- The changes up to exhaustion, with the changeset after them. -/
def collect (cs : DelegationChangeset Pubkey) :
    Except Panic (List (ValidatorDelegationChange Pubkey) × DelegationChangeset Pubkey) :=
  Iteration.take (next lib) cs.delegations.length cs

section

variable {lib} (reserveLamports currEpoch : UInt64) (rent : Rent)

@[simp] theorem collect_nil : collect lib ⟨[], reserveLamports, currEpoch, rent⟩ =
    .ok ([], ⟨[], reserveLamports, currEpoch, rent⟩) := rfl

theorem collect_cons (src : ValidatorChangeSrc Pubkey)
    (delegations : List (ValidatorChangeSrc Pubkey)) :
    collect lib ⟨src :: delegations, reserveLamports, currEpoch, rent⟩ = (do
      let (ty, reserveLamports) ← changeTy lib rent currEpoch reserveLamports src
      let (out, cs) ← collect lib ⟨delegations, reserveLamports, currEpoch, rent⟩
      .ok (⟨src.vsi.voteAccountAddress, src.vsi.transientSeedSuffix, ty⟩ :: out, cs)) := by
  rw [collect, List.length_cons, Iteration.take, next]
  dsimp only
  cases changeTy lib rent currEpoch reserveLamports src with
  | error e => rfl
  | ok x => rfl

/-- The changes of a single entry. -/
theorem collect_singleton_eq_ok {reserveLamports currEpoch : UInt64} {rent : Rent}
    {src : ValidatorChangeSrc Pubkey} {out : List (ValidatorDelegationChange Pubkey)}
    {cs : DelegationChangeset Pubkey} :
    collect lib ⟨[src], reserveLamports, currEpoch, rent⟩ = .ok (out, cs) ↔
      ∃ ty reserveLamports', changeTy lib rent currEpoch reserveLamports src =
          .ok (ty, reserveLamports') ∧
        out = [⟨src.vsi.voteAccountAddress, src.vsi.transientSeedSuffix, ty⟩] ∧
        cs = ⟨[], reserveLamports', currEpoch, rent⟩ := by
  rw [collect_cons, bind_eq_ok]
  constructor
  · rintro ⟨⟨ty, reserveLamports'⟩, hty, h⟩
    obtain ⟨rfl, rfl⟩ := Prod.mk.inj (Except.ok.inj h)
    exact ⟨ty, reserveLamports', hty, rfl, rfl⟩
  · rintro ⟨ty, reserveLamports', hty, rfl, rfl⟩
    exact ⟨_, hty, rfl⟩

/-- The changes of a concatenation: those of the first part, then those of the second with the
reserve that the first has left. -/
theorem collect_append (srcs₁ srcs₂ : List (ValidatorChangeSrc Pubkey)) :
    collect lib ⟨srcs₁ ++ srcs₂, reserveLamports, currEpoch, rent⟩ = (do
      let (out₁, cs₁) ← collect lib ⟨srcs₁, reserveLamports, currEpoch, rent⟩
      let (out₂, cs₂) ← collect lib ⟨srcs₂, cs₁.reserveLamports, currEpoch, rent⟩
      .ok (out₁ ++ out₂, cs₂)) := by
  induction srcs₁ generalizing reserveLamports with
  | nil =>
    simp only [List.nil_append, collect_nil, ok_bind]
    cases collect lib ⟨srcs₂, reserveLamports, currEpoch, rent⟩ <;> rfl
  | cons src srcs₁ ih =>
    rw [List.cons_append, collect_cons, collect_cons]
    cases changeTy lib rent currEpoch reserveLamports src with
    | error e => rfl
    | ok x =>
      simp only [ok_bind, ih]
      cases collect lib ⟨srcs₁, x.2, currEpoch, rent⟩ with
      | error e => rfl
      | ok y =>
        simp only [ok_bind]
        cases collect lib ⟨srcs₂, y.2.reserveLamports, currEpoch, rent⟩ <;> rfl

end

end DelegationChangeset

namespace SyncDelegationConfig

variable (sdc : SyncDelegationConfig Pubkey)

def withdrawAuth : Pubkey := lib.findWithdrawAuthority sdc.programId sdc.pool

def changeset (delegations : List (ValidatorChangeSrc Pubkey)) : DelegationChangeset Pubkey where
  delegations
  reserveLamports := sdc.reserveLamports
  currEpoch := sdc.currEpoch
  rent := sdc.rent

/-- The instruction for the change at position `i`, if the change needs one. -/
def syncDelegationIx (i : ℕ) (change : ValidatorDelegationChange Pubkey) :
    Option (Instruction Pubkey) :=
  -- accounts are not cleaned up until the end of the transaction, so each change has its own seed
  let ephemeralStakeSeed := UInt64.ofNat i
  let validatorStakeAccount :=
    lib.findValidatorStakeAccount sdc.programId sdc.pool change.vote none
  let ephemeralStakeAccount :=
    lib.findEphemeralStakeAccount sdc.programId sdc.pool ephemeralStakeSeed
  let transientStakeAccount :=
    lib.findTransientStakeAccount sdc.programId sdc.pool change.vote change.transientSeedSuffix
  let increaseIx (inc : UInt64) : Instruction Pubkey :=
    increaseAdditionalValidatorStakeIx sdc.programId
      { stakePool := sdc.pool
        staker := sdc.staker
        withdrawAuthority := sdc.withdrawAuth lib
        validatorList := sdc.validatorList
        reserveStake := sdc.reserve
        ephemeralStakeAccount
        transientStakeAccount
        validatorStakeAccount
        voteAccount := change.vote
        clock := lib.clock
        stakeHistory := lib.stakeHistory
        stakeConfig := lib.stakeConfig
        systemProgram := lib.systemProgram
        stakeProgram := lib.stakeProgram }
      { lamports := inc
        transientStakeSeed := change.transientSeedSuffix
        ephemeralStakeSeed }
  match change.ty with
  | .decreaseStake dec =>
    some <| decreaseAdditionalValidatorStakeIx sdc.programId
      { stakePool := sdc.pool
        staker := sdc.staker
        withdrawAuthority := sdc.withdrawAuth lib
        validatorList := sdc.validatorList
        reserveStake := sdc.reserve
        validatorStakeAccount
        ephemeralStakeAccount
        transientStakeAccount
        clock := lib.clock
        stakeHistory := lib.stakeHistory
        systemProgram := lib.systemProgram
        stakeProgram := lib.stakeProgram }
      { lamports := dec
        transientStakeSeed := change.transientSeedSuffix
        ephemeralStakeSeed }
  | .increaseStake inc => some (increaseIx inc)
  | .partialIncreaseStake inc _ => some (increaseIx inc)
  | .insufficientReserveLamports | .noChange | .transientWrongState | .validatorBeingRemoved =>
    none

/-- `SyncDelegationConfig::sync_delegation_ixs`: enumerate, then keep the changes that need an
instruction. -/
def syncDelegationIxs (changes : List (ValidatorDelegationChange Pubkey)) :
    List (Instruction Pubkey) :=
  changes.zipIdx.filterMap fun (change, i) => sdc.syncDelegationIx lib i change

end SyncDelegationConfig

end StakePoolCli
