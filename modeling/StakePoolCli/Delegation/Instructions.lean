import StakePoolCli.Delegation.Decisions
import StakePoolCli.Delegation.ReserveBudget

/-!
# The instructions of the changes

What a change puts into its instruction. The instruction carries the change out (`CarriesOut`,
`syncDelegationIx_spec`), and everything else about it follows from that: a decrease carries the
amount of a `decreaseStake` (`decreaseArgs_syncDelegationIx`), an increase that of an
`increaseStake` or a `partialIncreaseStake` (`exists_increaseArgs`). A walk decides a decrease only
when it moves at least the minimal balance of a transient account (`floor_of_collect`).
-/

namespace StakePoolCli

open Checked DelegationChangeset Ledger

variable {Pubkey : Type} {lib : StakePoolLib Pubkey} {sdc : SyncDelegationConfig Pubkey}
  {change : ValidatorDelegationChange Pubkey} {ix : Instruction Pubkey} {i : ℕ}

/-! ## One change -/

/-- What a change asks the program for: which instruction, and with how many lamports. -/
@[mk_iff] inductive AsksFor (args : AdditionalValidatorStakeArgs) :
    ValidatorDelegationChangeTy → IxData Pubkey → Prop
  | decreaseStake :
    AsksFor args (.decreaseStake args.lamports) (.decreaseAdditionalValidatorStake args)
  | increaseStake :
    AsksFor args (.increaseStake args.lamports) (.increaseAdditionalValidatorStake args)
  /-- What the reserve is short of plays no role. -/
  | partialIncreaseStake (shortfall : UInt64) :
    AsksFor args (.partialIncreaseStake args.lamports shortfall)
      (.increaseAdditionalValidatorStake args)

/-- An instruction carries out a change: it is what the change asks for, its transient seed is that
of the change, and its stake accounts are derived from the vote account of the change and from the
seeds among its arguments. -/
structure CarriesOut (lib : StakePoolLib Pubkey) (sdc : SyncDelegationConfig Pubkey)
    (change : ValidatorDelegationChange Pubkey) (ix : Instruction Pubkey)
    (args : AdditionalValidatorStakeArgs) : Prop where
  programId : ix.programId = sdc.programId
  asksFor : AsksFor args change.ty ix.data
  transientStakeSeed : args.transientStakeSeed = change.transientSeedSuffix
  validatorStakeAccount : ix.validatorStakeAccount =
    some (lib.findValidatorStakeAccount sdc.programId sdc.pool change.vote none)
  transientStakeAccount : ix.transientStakeAccount =
    some (lib.findTransientStakeAccount sdc.programId sdc.pool change.vote args.transientStakeSeed)
  ephemeralStakeAccount : ix.ephemeralStakeAccount =
    some (lib.findEphemeralStakeAccount sdc.programId sdc.pool args.ephemeralStakeSeed)
  /-- Only an increase has the vote account among its accounts. -/
  voteAccount : ix.increaseArgs.isSome → ix.voteAccount = some change.vote

/-- The instruction of a change carries it out, and its ephemeral seed is the number of the
change. -/
theorem syncDelegationIx_spec (h : sdc.syncDelegationIx lib i change = some ix) :
    ∃ args, CarriesOut lib sdc change ix args ∧ args.ephemeralStakeSeed = UInt64.ofNat i := by
  unfold SyncDelegationConfig.syncDelegationIx at h
  cases hty : change.ty <;> simp only [hty, reduceCtorEq, Option.some.injEq] at h <;> rw [← h]
  case decreaseStake dec =>
    refine ⟨⟨dec, change.transientSeedSuffix, UInt64.ofNat i⟩, ⟨rfl, ?_, rfl,
      validatorStakeAccount_decreaseIx _ _ _, transientStakeAccount_decreaseIx _ _ _,
      ephemeralStakeAccount_decreaseIx _ _ _, fun hinc => ?_⟩, rfl⟩
    · rw [hty]
      exact AsksFor.decreaseStake
    · cases hinc
  case increaseStake inc =>
    refine ⟨⟨inc, change.transientSeedSuffix, UInt64.ofNat i⟩, ⟨rfl, ?_, rfl,
      validatorStakeAccount_increaseIx _ _ _, transientStakeAccount_increaseIx _ _ _,
      ephemeralStakeAccount_increaseIx _ _ _, fun _ => voteAccount_increaseIx _ _ _⟩, rfl⟩
    rw [hty]
    exact AsksFor.increaseStake
  case partialIncreaseStake inc shortfall =>
    refine ⟨⟨inc, change.transientSeedSuffix, UInt64.ofNat i⟩, ⟨rfl, ?_, rfl,
      validatorStakeAccount_increaseIx _ _ _, transientStakeAccount_increaseIx _ _ _,
      ephemeralStakeAccount_increaseIx _ _ _, fun _ => voteAccount_increaseIx _ _ _⟩, rfl⟩
    rw [hty]
    exact AsksFor.partialIncreaseStake shortfall

/-- The changes without an instruction are those that move no stake. -/
theorem syncDelegationIx_eq_none_iff (lib : StakePoolLib Pubkey) (sdc : SyncDelegationConfig Pubkey)
    (change : ValidatorDelegationChange Pubkey) :
    (∀ i, sdc.syncDelegationIx lib i change = none) ↔ ¬ MovesStake change.ty := by
  unfold SyncDelegationConfig.syncDelegationIx
  cases change.ty <;> simp [MovesStake]

/-- A change that moves stake has an instruction, at any position. -/
theorem exists_syncDelegationIx (hmoves : MovesStake change.ty) :
    ∃ ix args, sdc.syncDelegationIx lib i change = some ix ∧ CarriesOut lib sdc change ix args := by
  have hsome : ∃ ix, sdc.syncDelegationIx lib i change = some ix := by
    unfold SyncDelegationConfig.syncDelegationIx
    cases hty : change.ty <;> simp only [hty, MovesStake] at hmoves ⊢ <;> exact ⟨_, rfl⟩
  obtain ⟨ix, hix⟩ := hsome
  obtain ⟨args, hcarries, -⟩ := syncDelegationIx_spec hix
  exact ⟨ix, args, hix, hcarries⟩

/-! ## The arguments of an instruction -/

section

variable {args : AdditionalValidatorStakeArgs} (h : CarriesOut lib sdc change ix args)
include h

theorem CarriesOut.ephemeralStakeSeed : ix.ephemeralStakeSeed = some args.ephemeralStakeSeed := by
  unfold Instruction.ephemeralStakeSeed
  rcases (asksFor_iff _ _ _).mp h.asksFor with ⟨-, hdata⟩ | ⟨-, hdata⟩ | ⟨shortfall, -, hdata⟩ <;>
    rw [hdata]

/-- Only the instruction of a decrease has the arguments of one. -/
theorem CarriesOut.decreaseArgs_eq_some_iff {args' : AdditionalValidatorStakeArgs} :
    ix.decreaseArgs = some args' ↔ change.ty = .decreaseStake args.lamports ∧ args' = args := by
  unfold Instruction.decreaseArgs
  rcases (asksFor_iff _ _ _).mp h.asksFor with
    ⟨hty, hdata⟩ | ⟨hty, hdata⟩ | ⟨shortfall, hty, hdata⟩ <;>
    simp [hty, hdata, eq_comm]

/-- An increase has the arguments of one, with what is moved into the validator. -/
theorem CarriesOut.increaseArgs (hinc : 0 < increaseOf change.ty) :
    ix.increaseArgs = some args ∧ args.lamports.toNat = increaseOf change.ty := by
  unfold Instruction.increaseArgs
  rcases (asksFor_iff _ _ _).mp h.asksFor with
    ⟨hty, hdata⟩ | ⟨hty, hdata⟩ | ⟨shortfall, hty, hdata⟩ <;>
    rw [hty] at hinc ⊢ <;> rw [hdata]
  · exact absurd hinc (Nat.lt_irrefl 0)
  · exact ⟨rfl, rfl⟩
  · exact ⟨rfl, rfl⟩

end

theorem decreaseArgs_syncDelegationIx {args : AdditionalValidatorStakeArgs}
    (h : sdc.syncDelegationIx lib i change = some ix) (hargs : ix.decreaseArgs = some args) :
    change.ty = .decreaseStake args.lamports := by
  obtain ⟨args', hcarries, -⟩ := syncDelegationIx_spec h
  obtain ⟨hty, rfl⟩ := hcarries.decreaseArgs_eq_some_iff.mp hargs
  exact hty

theorem ephemeralStakeSeed_syncDelegationIx (h : sdc.syncDelegationIx lib i change = some ix) :
    ix.ephemeralStakeSeed = some (UInt64.ofNat i) := by
  obtain ⟨args, hcarries, hseed⟩ := syncDelegationIx_spec h
  rw [hcarries.ephemeralStakeSeed, hseed]

/-- A decrease has an instruction, which carries its amount. -/
theorem exists_decreaseArgs {dec : UInt64} (hty : change.ty = .decreaseStake dec) :
    ∃ ix args, sdc.syncDelegationIx lib i change = some ix ∧ ix.decreaseArgs = some args ∧
      args.lamports = dec := by
  have hmoves : MovesStake change.ty := by
    rw [hty]
    trivial
  obtain ⟨ix, args, hix, hcarries⟩ := @exists_syncDelegationIx _ lib sdc change i hmoves
  have hlamports : args.lamports = dec := by
    rcases (asksFor_iff _ _ _).mp hcarries.asksFor with
      ⟨hty', -⟩ | ⟨hty', -⟩ | ⟨shortfall, hty', -⟩ <;> rw [hty] at hty' <;> cases hty'
    rfl
  refine ⟨ix, args, hix, hcarries.decreaseArgs_eq_some_iff.mpr ⟨?_, rfl⟩, hlamports⟩
  rw [hty, hlamports]

/-- The instruction of a change that moves stake into a validator carries what it moves. -/
theorem exists_increaseArgs (hinc : 0 < increaseOf change.ty) :
    ∃ ix args, sdc.syncDelegationIx lib i change = some ix ∧ ix.increaseArgs = some args ∧
      args.lamports.toNat = increaseOf change.ty := by
  have hmoves : MovesStake change.ty := by
    cases hty : change.ty <;> rw [hty] at hinc <;> trivial
  obtain ⟨ix, args, hix, hcarries⟩ := @exists_syncDelegationIx _ lib sdc change i hmoves
  exact ⟨ix, args, hix, hcarries.increaseArgs hinc⟩

/-! ## All changes -/

theorem mem_syncDelegationIxs {changes : List (ValidatorDelegationChange Pubkey)} :
    ix ∈ sdc.syncDelegationIxs lib changes ↔
      ∃ i change, changes[i]? = some change ∧ sdc.syncDelegationIx lib i change = some ix := by
  rw [SyncDelegationConfig.syncDelegationIxs, List.mem_filterMap]
  constructor
  · rintro ⟨⟨change, i⟩, hmem, hix⟩
    exact ⟨i, change, List.mem_zipIdx_iff_getElem?.mp hmem, hix⟩
  · rintro ⟨i, change, hget, hix⟩
    exact ⟨(change, i), List.mem_zipIdx_iff_getElem?.mpr hget, hix⟩

/-- The instructions of a single change. -/
theorem syncDelegationIxs_singleton :
    sdc.syncDelegationIxs lib [change] = (sdc.syncDelegationIx lib 0 change).toList := by
  simp only [SyncDelegationConfig.syncDelegationIxs, List.zipIdx_singleton, List.filterMap_cons,
    List.filterMap_nil]
  cases sdc.syncDelegationIx lib 0 change with
  | none => rfl
  | some ix => rfl

/-- **The floor of a decrease.** A changeset decides a decrease only from the minimal balance of a
transient account on. -/
theorem floor_of_collect {cs cs' : DelegationChangeset Pubkey}
    {out : List (ValidatorDelegationChange Pubkey)} (h : collect lib cs = .ok (out, cs'))
    {dec : UInt64} (hchange : change ∈ out) (hty : change.ty = .decreaseStake dec) :
    lib.minActiveStake.toNat + (lamportsForNewVsa cs.rent).toNat ≤ dec.toNat := by
  have hmem : decisionOf change.ty ∈
      (costs lib cs.rent).decisions ((demands cs).take cs.delegations.length)
        cs.reserveLamports.toNat := by
    rw [← (take_spec h).decisions]
    exact List.mem_map_of_mem hchange
  obtain ⟨d, -, R, hdec⟩ := Budget.exists_of_mem_decisions hmem
  rw [hty, decisionOf, eq_comm, decision_eq_decrease_iff (costs_rent_pos lib cs.rent)] at hdec
  obtain ⟨-, hle, -, -, hdec⟩ := hdec
  rw [costs_minActive, costs_rent] at hle
  rw [costs_minActive] at hdec
  omega

end StakePoolCli
