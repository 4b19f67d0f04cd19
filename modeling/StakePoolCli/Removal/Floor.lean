import StakePoolCli.Delegation.Instructions
import StakePoolCli.Removal.Transactions
import StakePoolCli.Removal.UpdatedPlan
import StakePoolCli.Subcmd.SyncDelegation
import StakePoolCli.Subcmd.ValidatorStake

/-!
# The smallest decrease

Stake leaves a validator through a transient account, which has to hold the minimum active stake
and the lamports of a new stake account. A changeset decides no decrease below that
(`floor_of_collect`); the removal of a validator takes out whatever is above the lamports of its
stake account. `decrease_floor_iff`: the decreases of a command respect the floor exactly when no
validator that is removed has less than the floor above those lamports.
-/

namespace StakePoolCli

open Checked Chunks DelegationChangeset Sorting SyncValidatorListConfig

variable {Pubkey : Type}

/-- The commands that change the stake of validators. -/
inductive StakerCommand (Pubkey : Type)
  | syncDelegation (args : SyncDelegationArgs Pubkey)
  | increaseValidatorStake (args : ValidatorStakeArgs Pubkey)
  | decreaseValidatorStake (args : ValidatorStakeArgs Pubkey)
  | syncValidatorList (args : SyncValidatorListArgs Pubkey)

namespace StakerCommand

section

variable [DecidableEq Pubkey] (lib : StakePoolLib Pubkey)
  (sort : StableSort (ValidatorDelegation Pubkey)) (fetched : Fetched Pubkey)

/-- The instructions of a run that the staker signs, over all its transactions. Those of the update
that `sync-validator-list` sends first, which the staker does not sign, are left out: they decrease
no stake. -/
def ixs : StakerCommand Pubkey → Except Panic (List (Instruction Pubkey))
  | syncDelegation args => do .ok (← args.run lib sort fetched).flatten
  | increaseValidatorStake args => IncreaseValidatorStakeArgs.run lib args fetched
  | decreaseValidatorStake args => DecreaseValidatorStakeArgs.run lib args fetched
  | syncValidatorList args => do
    let r ← args.run lib fetched
    .ok (r.removeTxs.flatten ++ r.addTxs.flatten ++ r.preferredValidatorIxs)

end

/-- No validator that a command removes is slightly above the lamports of its stake account. -/
def RemovesFromFloor (lib : StakePoolLib Pubkey) (fetched : Fetched Pubkey) :
    StakerCommand Pubkey → Prop
  | syncValidatorList args => ∀ vsi ∈ fetched.validators, vsi.status = .active →
      vsi.voteAccountAddress ∉ args.validators.toList →
      ∀ vsa, args.removeVsa lib fetched vsi = .ok vsa → vsa.isVsaActive = true →
        (lamportsForNewVsa fetched.rent).toNat < vsi.activeStakeLamports.toNat →
        lib.minActiveStake.toNat + 2 * (lamportsForNewVsa fetched.rent).toNat ≤
          vsi.activeStakeLamports.toNat
  | _ => True

end StakerCommand

open StakerCommand

/-- Every decrease moves at least the minimal balance of a transient account. -/
def DecreasesFromFloor (lib : StakePoolLib Pubkey) (rent : Rent)
    (ixs : List (Instruction Pubkey)) : Prop :=
  ∀ ix ∈ ixs, ∀ args, ix.decreaseArgs = some args →
    lib.minActiveStake.toNat + (lamportsForNewVsa rent).toNat ≤ args.lamports.toNat

section

variable {lib : StakePoolLib Pubkey} {rent : Rent}

theorem decreasesFromFloor_append {ixs₁ ixs₂ : List (Instruction Pubkey)} :
    DecreasesFromFloor lib rent (ixs₁ ++ ixs₂) ↔
      DecreasesFromFloor lib rent ixs₁ ∧ DecreasesFromFloor lib rent ixs₂ :=
  List.forall_mem_append

/-- Instructions that are no decreases. -/
theorem decreasesFromFloor_of_none {ixs : List (Instruction Pubkey)}
    (h : ∀ ix ∈ ixs, ix.decreaseArgs = none) : DecreasesFromFloor lib rent ixs := by
  intro ix hix args hargs
  rw [h ix hix] at hargs
  cases hargs

/-! ## The decreases of a changeset -/

/-- The instructions of a changeset respect the floor. -/
theorem decreasesFromFloor_of_collect {sdc : SyncDelegationConfig Pubkey}
    {srcs : List (ValidatorChangeSrc Pubkey)} {changes : List (ValidatorDelegationChange Pubkey)}
    {cs : DelegationChangeset Pubkey} (h : (sdc.changeset srcs).collect lib = .ok (changes, cs)) :
    DecreasesFromFloor lib sdc.rent (sdc.syncDelegationIxs lib changes) := by
  intro ix hix args hargs
  obtain ⟨i, change, hget, hix⟩ := mem_syncDelegationIxs.mp hix
  exact floor_of_collect h (List.mem_of_getElem? hget) (decreaseArgs_syncDelegationIx hix hargs)

theorem decreasesFromFloor_runWith [DecidableEq Pubkey] {args : ValidatorStakeArgs Pubkey}
    {fetched : Fetched Pubkey}
    {desired : StakeStateV2 → Option StakeStateV2 → Except Panic UInt64}
    {ixs : List (Instruction Pubkey)} (h : args.runWith lib fetched desired = .ok ixs) :
    DecreasesFromFloor lib fetched.rent ixs := by
  obtain ⟨src, -, h⟩ := bind_eq_ok.mp h
  obtain ⟨⟨changes, cs⟩, hcollect, h⟩ := bind_eq_ok.mp h
  obtain rfl := Except.ok.inj h
  exact decreasesFromFloor_of_collect hcollect

/-! ## The decreases of removals -/

/-- A removal respects the floor iff it decreases nothing, or at least the floor. -/
theorem decreasesFromFloor_removeValidatorIxs {svlc : SyncValidatorListConfig Pubkey}
    (vsi : ValidatorStakeInfo Pubkey) (vsa : StakeStateV2) :
    DecreasesFromFloor lib svlc.rent (svlc.removeValidatorIxs lib vsi vsa).ixs ↔
      (vsa.isVsaActive = true →
        (lamportsForNewVsa svlc.rent).toNat < vsi.activeStakeLamports.toNat →
        lib.minActiveStake.toNat + 2 * (lamportsForNewVsa svlc.rent).toNat ≤
          vsi.activeStakeLamports.toNat) := by
  have hpos : 0 < svlc.lamportsToDecrease vsi ↔
      (lamportsForNewVsa svlc.rent).toNat < vsi.activeStakeLamports.toNat := by
    rw [UInt64.lt_iff_toNat_lt, lamportsToDecrease, toNat_saturatingSub, UInt64.toNat_zero]
    omega
  have hamount := toNat_saturatingSub vsi.activeStakeLamports (lamportsForNewVsa svlc.rent)
  rcases svlc.removeValidatorIxs_cases lib vsi vsa with
    ⟨⟨hlamports, hactive⟩, dec, rem, hixs, htakes, hremoves⟩ | ⟨hnot, rem, hixs, hremoves⟩ <;>
    rw [hixs]
  · constructor
    · intro hfloor _ hlt
      have := hfloor _ List.mem_cons_self _ htakes.decreaseArgs
      dsimp only [lamportsToDecrease] at this
      omega
    · intro hle ix hix args hargs
      rcases List.mem_cons.mp hix with rfl | hix
      · obtain rfl := Option.some.inj (htakes.decreaseArgs.symm.trans hargs)
        have := hle hactive (hpos.mp hlamports)
        dsimp only [lamportsToDecrease]
        omega
      · obtain rfl := List.mem_singleton.mp hix
        cases hremoves.decreaseArgs.symm.trans hargs
  · refine iff_of_true (decreasesFromFloor_of_none fun ix hix => ?_) fun hactive hlt =>
      absurd ⟨hpos.mpr hlt, hactive⟩ hnot
    obtain rfl := List.mem_singleton.mp hix
    exact hremoves.decreaseArgs

/-- All removals respect the floor iff each of them does. -/
theorem decreasesFromFloor_removeTxs {svlc : SyncValidatorListConfig Pubkey}
    {remove : List (ValidatorStakeInfo Pubkey × StakeStateV2)} :
    DecreasesFromFloor lib rent (svlc.removeTxs lib remove).flatten ↔
      ∀ r ∈ remove, DecreasesFromFloor lib rent (svlc.removeValidatorIxs lib r.1 r.2).ixs := by
  have hpos : 0 < maxRemoveValidatorIxsEnumPerTx := Nat.succ_pos _
  rw [removeTxs, flatten_chunks hpos, removeValidatorsIxs, DecreasesFromFloor,
    List.forall_mem_flatMap]
  rfl

/-- The decreases of `sync-validator-list` are those of its removals. -/
theorem decreasesFromFloor_syncValidatorList [DecidableEq Pubkey]
    {args : SyncValidatorListArgs Pubkey} {fetched : Fetched Pubkey}
    {r : SyncValidatorListRun Pubkey} (h : args.run lib fetched = .ok r) :
    DecreasesFromFloor lib fetched.rent
        (r.removeTxs.flatten ++ r.addTxs.flatten ++ r.preferredValidatorIxs) ↔
      ∀ x ∈ r.remove, DecreasesFromFloor lib fetched.rent
        ((args.syncValidatorListConfig fetched).removeValidatorIxs lib x.1 x.2).ixs := by
  unfold SyncValidatorListArgs.run at h
  obtain ⟨_, -, h⟩ := bind_eq_ok.mp h
  obtain ⟨vsas, -, h⟩ := bind_eq_ok.mp h
  obtain rfl := Except.ok.inj h
  have hpos : 0 < maxAddValidatorsIxPerTx := Nat.succ_pos _
  rw [decreasesFromFloor_append, decreasesFromFloor_append, decreasesFromFloor_removeTxs]
  constructor
  · rintro ⟨⟨h, -⟩, -⟩
    exact h
  · intro h
    refine ⟨⟨h, decreasesFromFloor_of_none fun ix hix => ?_⟩,
      decreasesFromFloor_of_none fun ix hix => ?_⟩
    · rw [flatten_chunks hpos] at hix
      obtain ⟨vote, -, rfl⟩ := List.mem_map.mp hix
      rfl
    · obtain ⟨change, -, rfl⟩ := List.mem_map.mp hix
      rfl

end

/-! ## The decreases of the commands -/

/-- **No decrease is below the floor** exactly when the validators that are removed with an active
stake account have either nothing above the lamports of their account, or at least the floor. -/
theorem decrease_floor_iff [DecidableEq Pubkey] (lib : StakePoolLib Pubkey)
    (sort : StableSort (ValidatorDelegation Pubkey)) (cmd : StakerCommand Pubkey)
    (fetched : Fetched Pubkey) (ixs : List (Instruction Pubkey))
    (hrun : cmd.ixs lib sort fetched = .ok ixs) :
    DecreasesFromFloor lib fetched.rent ixs ↔ cmd.RemovesFromFloor lib fetched := by
  cases cmd with
  | syncDelegation args =>
    refine iff_of_true ?_ trivial
    obtain ⟨txs, htxs, h⟩ := bind_eq_ok.mp hrun
    obtain rfl := Except.ok.inj h
    obtain ⟨⟨changes, cs⟩, hchanges, h⟩ := bind_eq_ok.mp htxs
    obtain rfl := Except.ok.inj h
    obtain ⟨scheme, -, h⟩ := bind_eq_ok.mp hchanges
    obtain ⟨_, -, h⟩ := bind_eq_ok.mp h
    obtain ⟨srcs, -, hcollect⟩ := bind_eq_ok.mp h
    have hpos : 0 < maxIncreaseValidatorStakeIxPerTx := Nat.succ_pos _
    rw [flatten_chunks hpos]
    exact decreasesFromFloor_of_collect hcollect
  | increaseValidatorStake args | decreaseValidatorStake args =>
    exact iff_of_true (decreasesFromFloor_runWith hrun) trivial
  | syncValidatorList args =>
    obtain ⟨r, hr, h⟩ := bind_eq_ok.mp hrun
    obtain rfl := Except.ok.inj h
    obtain ⟨-, vsas, hvsas, hremove⟩ := SyncValidatorListArgs.run_eq_ok hr
    rw [decreasesFromFloor_syncValidatorList hr, hremove]
    refine (forall_mem_zip_iff (P := fun vsi vsa => DecreasesFromFloor lib fetched.rent
      ((args.syncValidatorListConfig fetched).removeValidatorIxs lib vsi vsa).ixs) hvsas).trans ?_
    simp only [RemovesFromFloor, mem_toRemove, and_imp]
    refine forall₂_congr fun vsi _ => forall₂_congr fun _ _ => forall₂_congr fun vsa _ => ?_
    exact decreasesFromFloor_removeValidatorIxs vsi vsa

/-- A pool with one validator, by its stake. Its stake account is active. -/
def poolWithStake (activeStakeLamports : UInt64) : Fetched Address :=
  { poolWithEntry 7 with validators := [leavingEntry activeStakeLamports 7] }

/-- A validator with three SOL is removed, and all but the lamports of its account are taken out. -/
theorem decrease_floor_threeSol : ∃ ixs,
    (syncValidatorList removingEach).ixs StakePoolLib.symbolic .insertion
        (poolWithStake 3000000000) = .ok ixs ∧
      DecreasesFromFloor StakePoolLib.symbolic .default ixs := by
  refine ⟨_, rfl, (decrease_floor_iff StakePoolLib.symbolic .insertion
    (syncValidatorList removingEach) (poolWithStake 3000000000) _ rfl).mpr ?_⟩
  intro vsi hvsi _ _ _ _ _ _
  obtain rfl := List.mem_singleton.mp hvsi
  decide

/-- A validator that has earned one lamport since it was added: a decrease of one lamport. -/
theorem decrease_below_floor : ∃ ixs,
    (syncValidatorList removingEach).ixs StakePoolLib.symbolic .insertion
        (poolWithStake 1002282881) = .ok ixs ∧
      ¬ DecreasesFromFloor StakePoolLib.symbolic .default ixs := by
  refine ⟨_, rfl, fun h => ?_⟩
  have hfirst := h _ List.mem_cons_self _ rfl
  exact absurd hfirst (by decide)

end StakePoolCli
