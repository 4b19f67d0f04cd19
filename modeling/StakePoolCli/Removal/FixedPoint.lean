import StakePoolCli.Foundations.KeySync
import StakePoolCli.Interface.Symbolic
import StakePoolCli.PoolConfig.SyncValidatorList

/-!
# The validator list after it is synced

The validators to add and to remove keep the validator list in line with the config
(`Foundations/KeySync.lean`): the keys are the vote accounts, and the live entries those with
the status `active`. An entry that is being wound down is neither added again nor removed twice.
`sync_reaches_fixed_point` says what the list is after a changeset is applied, and that there is
nothing left to add or to remove then.
-/

namespace StakePoolCli

open KeySync

variable {Pubkey : Type}

/-- The list after a changeset: the entries that are removed are not active any more, an active
entry is appended for each vote that is added. -/
def ChangesetApplied (changeset : List Pubkey × List (ValidatorStakeInfo Pubkey))
    (entries entries' : List (ValidatorStakeInfo Pubkey)) : Prop :=
  ∃ kept appended, entries' = kept ++ appended ∧
    List.Forall₂ (fun vsi vsi' => vsi'.voteAccountAddress = vsi.voteAccountAddress ∧
      (vsi ∈ changeset.2 → vsi'.status ≠ .active) ∧
      (vsi ∉ changeset.2 → vsi'.status = vsi.status)) entries kept ∧
    List.Forall₂ (fun vote vsi => vsi.voteAccountAddress = vote ∧ vsi.status = .active)
      changeset.1 appended

section

variable [DecidableEq Pubkey] {svlc : SyncValidatorListConfig Pubkey}
  {entries entries' : List (ValidatorStakeInfo Pubkey)}

/-- The changeset is applied to the list of keyed entries. -/
theorem ChangesetApplied.applied
    (h : ChangesetApplied (svlc.addRemoveChangeset entries) entries entries') :
    Applied ValidatorStakeInfo.voteAccountAddress (·.status = .active)
      (missing ValidatorStakeInfo.voteAccountAddress svlc.validators.toList entries)
      (surplus ValidatorStakeInfo.voteAccountAddress (·.status = .active) svlc.validators.toList
        entries) entries entries' := by
  rw [SyncValidatorListConfig.addRemoveChangeset_eq] at h
  obtain ⟨kept, appended, rfl, hkept, happended⟩ := h
  refine ⟨kept, appended, rfl, hkept.imp ?_, happended⟩
  rintro vsi vsi' ⟨hvote, hremoved, hother⟩
  refine ⟨hvote, ?_⟩
  by_cases hmem : vsi ∈ surplus ValidatorStakeInfo.voteAccountAddress (·.status = .active)
      svlc.validators.toList entries
  · exact iff_of_false (hremoved hmem) fun h => h.2 hmem
  · dsimp only
    rw [hother hmem]
    exact (and_iff_left hmem).symm

/-- **A sync reaches its fixed point.** -/
theorem sync_reaches_fixed_point (svlc : SyncValidatorListConfig Pubkey)
    (entries entries' : List (ValidatorStakeInfo Pubkey))
    (hdistinct : (entries.map (·.voteAccountAddress)).Nodup)
    (happlied : ChangesetApplied (svlc.addRemoveChangeset entries) entries entries') :
    (∀ vsi ∈ (svlc.addRemoveChangeset entries).2,
      vsi.voteAccountAddress ∉ (svlc.addRemoveChangeset entries).1) ∧
    (∀ vote ∈ (svlc.addRemoveChangeset entries).1, ∀ vsi ∈ entries,
      vsi.voteAccountAddress ≠ vote) ∧
    (entries'.map (·.voteAccountAddress)).Nodup ∧
    (∀ vsi ∈ (svlc.addRemoveChangeset entries).2, vsi ∈ entries ∧ vsi.status = .active) ∧
    (∀ vote, (∃ vsi ∈ entries', vsi.voteAccountAddress = vote ∧ vsi.status = .active) ↔
      vote ∈ svlc.validators.toList ∧
        ¬ ∃ vsi ∈ entries, vsi.voteAccountAddress = vote ∧ vsi.status ≠ .active) ∧
    svlc.addRemoveChangeset entries' = ([], []) := by
  have h := happlied.applied
  simp only [SyncValidatorListConfig.addRemoveChangeset_eq]
  refine ⟨?_, ?_, ?_, ?_, ?_, ?_⟩
  · intro vsi hvsi
    exact key_notMem_missing hvsi
  · intro vote hvote
    exact (mem_missing.mp hvote).2
  · exact h.nodup_keys svlc.validators.nodup hdistinct
  · intro vsi hvsi
    obtain ⟨hmem, hactive, -⟩ := mem_surplus.mp hvsi
    exact ⟨hmem, hactive⟩
  · intro vote
    exact h.exists_live_iff hdistinct
  · exact Prod.ext h.missing_eq_nil h.surplus_eq_nil

end

/-- A config with three validators. -/
def keepingThree : SyncValidatorListConfig Address where
  programId := .key 0
  payer := .key 2
  staker := .key 101
  pool := .key 1
  validatorList := .key 102
  reserve := .key 103
  validators := ⟨[.key 10, .key 12, .key 13], by decide⟩
  preferredDepositValidator := none
  preferredWithdrawValidator := none
  rent := .default

/-- An entry, by its status and its vote account. -/
def entryOf (status : StakeStatus) (n : ℕ) : ValidatorStakeInfo Address :=
  ⟨2000000000, 0, 7, 0, 0, status, .key n⟩

/-- Validator 11 is removed, 13 is added, 12 stays as it is. -/
theorem sync_reaches_fixed_point_keepingThree :
    keepingThree.addRemoveChangeset
        [entryOf .active 10, entryOf .deactivatingAll 11, entryOf .deactivatingTransient 12,
          entryOf .active 13] = ([], []) :=
  (sync_reaches_fixed_point keepingThree
    [entryOf .active 10, entryOf .active 11, entryOf .deactivatingTransient 12]
    [entryOf .active 10, entryOf .deactivatingAll 11, entryOf .deactivatingTransient 12,
      entryOf .active 13] (by decide)
    ⟨[entryOf .active 10, entryOf .deactivatingAll 11, entryOf .deactivatingTransient 12],
      [entryOf .active 13], rfl,
      .cons (by decide) (.cons (by decide) (.cons (by decide) .nil)),
      .cons (by decide) .nil⟩).2.2.2.2.2

end StakePoolCli
