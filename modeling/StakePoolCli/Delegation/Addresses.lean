import StakePoolCli.Delegation.Instructions
import StakePoolCli.Delegation.Ledger
import StakePoolCli.Interface.Symbolic
import StakePoolCli.Subcmd.SyncDelegation
import StakePoolCli.Subcmd.SyncValidatorList
import StakePoolCli.Subcmd.ValidatorStake

/-!
# The address of a validator's stake account

The listing of a pool and the removal of a validator derive the address of the validator stake
account with the seed of the validator's entry; the commands that move stake derive it without one.
`vsa_addresses_agree_iff`: with injective addresses the commands agree on an entry exactly when its
seed suffix is zero.
-/

namespace StakePoolCli

open Checked DelegationChangeset Ledger

variable {Pubkey : Type} {lib : StakePoolLib Pubkey}

/-- The instruction of a change is for the account without a seed. -/
theorem validatorStakeAccount_syncDelegationIx {sdc : SyncDelegationConfig Pubkey} {i : ℕ}
    {change : ValidatorDelegationChange Pubkey} {ix : Instruction Pubkey}
    (h : sdc.syncDelegationIx lib i change = some ix) :
    ix.validatorStakeAccount =
      some (lib.findValidatorStakeAccount sdc.programId sdc.pool change.vote none) := by
  obtain ⟨args, hcarries, -⟩ := syncDelegationIx_spec h
  exact hcarries.validatorStakeAccount

/-- Both instructions of a removal are for the account with the seed of the entry. -/
theorem validatorStakeAccount_removeValidatorIxs {svlc : SyncValidatorListConfig Pubkey}
    {vsi : ValidatorStakeInfo Pubkey} {vsa : StakeStateV2} {ix : Instruction Pubkey}
    (h : ix ∈ (svlc.removeValidatorIxs lib vsi vsa).ixs) :
    ix.validatorStakeAccount = some (lib.findValidatorStakeAccount svlc.programId svlc.pool
      vsi.voteAccountAddress (NonZeroU32.new vsi.validatorSeedSuffix)) := by
  rcases svlc.removeValidatorIxs_cases lib vsi vsa with
    ⟨-, dec, rem, hixs, htakes, hremoves⟩ | ⟨-, rem, hixs, hremoves⟩ <;> rw [hixs] at h
  · rcases List.mem_cons.mp h with rfl | h
    · exact htakes.validatorStakeAccount
    · rw [List.mem_singleton.mp h]
      exact hremoves.validatorStakeAccount
  · rw [List.mem_singleton.mp h]
    exact hremoves.validatorStakeAccount

/-- The commands agree on the validator stake account of an entry: the one the listing shows is
the one that is removed, the one that is fetched and the one that stake is moved from and to. -/
def VsaAddressesAgree (lib : StakePoolLib Pubkey) (fetched : Fetched Pubkey)
    (listing : SyncValidatorListArgs Pubkey) (scheme : SyncDelegationArgs Pubkey)
    (one : ValidatorStakeArgs Pubkey) (vsi : ValidatorStakeInfo Pubkey) : Prop :=
  ∃ address,
    (ValidatorConfigRaw.fromVsiProgramPool lib vsi fetched.programId
      listing.pool).validatorStakeAccount = some address ∧
    (∀ vsa, ∀ ix ∈ ((listing.syncValidatorListConfig fetched).removeValidatorIxs lib vsi vsa).ixs,
      ix.validatorStakeAccount = some address) ∧
    (scheme.stakeAccs lib fetched vsi).head? = some address ∧
    (∀ srcs out cs, ((scheme.syncDelegationConfig fetched).changeset srcs).collect lib =
        .ok (out, cs) →
      ∀ i src change, srcs[i]? = some src → src.vsi = vsi → out[i]? = some change →
        ∀ ix, (scheme.syncDelegationConfig fetched).syncDelegationIx lib i change = some ix →
          ix.validatorStakeAccount = some address) ∧
    one.vsaPubkey lib fetched = address

/-- **The commands agree on a validator stake account** iff its entry has no seed. -/
theorem vsa_addresses_agree_iff (hinj : lib.VsaInjective) (fetched : Fetched Pubkey)
    (listing : SyncValidatorListArgs Pubkey) (scheme : SyncDelegationArgs Pubkey)
    (one : ValidatorStakeArgs Pubkey) (vsi : ValidatorStakeInfo Pubkey)
    (hpool : scheme.pool = listing.pool) (hpool' : one.pool = listing.pool)
    (hvote : one.validator = vsi.voteAccountAddress) :
    VsaAddressesAgree lib fetched listing scheme one vsi ↔ vsi.validatorSeedSuffix = 0 := by
  constructor
  · rintro ⟨address, hlist, -, -, -, hone⟩
    have heq := Option.some.inj hlist
    rw [← hone, ValidatorStakeArgs.vsaPubkey] at heq
    exact NonZeroU32.new_eq_none.mp (hinj _ _ _ _ _ _ _ heq).2.2
  · intro hsuffix
    have hseed : NonZeroU32.new vsi.validatorSeedSuffix = none := NonZeroU32.new_eq_none.mpr hsuffix
    refine ⟨_, rfl, fun vsa ix hix => validatorStakeAccount_removeValidatorIxs hix, ?_, ?_, ?_⟩
    · rw [hseed, ← hpool]
      rfl
    · intro srcs out cs hcollect i src change hsrc hvsi hchange ix hix
      have hvotes := congrArg (·[i]?) (take_spec hcollect).votes
      simp only [SyncDelegationConfig.changeset, List.take_length, List.getElem?_map, hchange, hsrc,
        Option.map_some, Option.some.injEq, hvsi] at hvotes
      rw [validatorStakeAccount_syncDelegationIx hix, hvotes, hseed, ← hpool]
      rfl
    · rw [ValidatorStakeArgs.vsaPubkey, hpool', hvote, hseed]

/-! ## With and without a seed -/

/-- An entry of the list, by its seed suffix. -/
def entryWithSeed (validatorSeedSuffix : UInt32) : ValidatorStakeInfo Address :=
  ⟨2000000000, 0, 7, 0, validatorSeedSuffix, .active, .key 10⟩

/-- A pool with one validator, by the seed suffix of its entry. -/
def poolWithSeed (validatorSeedSuffix : UInt32) : Fetched Address where
  programId := .key 0
  stakePool := .fresh
  epoch := 7
  rent := .default
  validators := [entryWithSeed validatorSeedSuffix]
  reserveLamports := 10000000000
  account _ := none

theorem vsa_addresses_agree_without_seed :
    VsaAddressesAgree StakePoolLib.symbolic (poolWithSeed 0)
      ⟨.key 1, .key 2, .key 101, ⟨[], List.nodup_nil⟩, none, none⟩
      ⟨.key 1, .key 2, .key 101, [⟨.key 10, .lamports 0⟩]⟩
      ⟨.key 1, .key 2, .key 101, .key 10, .all⟩ (entryWithSeed 0) :=
  (vsa_addresses_agree_iff StakePoolLib.vsaInjective_symbolic _ _ _ _ _ rfl rfl rfl).mpr rfl

/-- The entry of a validator that was added with seed 1: the address that is listed is not the one
that is fetched. -/
theorem vsa_addresses_disagree_with_seed :
    ¬ VsaAddressesAgree StakePoolLib.symbolic (poolWithSeed 1)
      ⟨.key 1, .key 2, .key 101, ⟨[], List.nodup_nil⟩, none, none⟩
      ⟨.key 1, .key 2, .key 101, [⟨.key 10, .lamports 0⟩]⟩
      ⟨.key 1, .key 2, .key 101, .key 10, .all⟩ (entryWithSeed 1) := by
  rintro ⟨address, hlist, -, -, -, hone⟩
  have heq := Option.some.inj hlist
  rw [← hone] at heq
  exact absurd heq (by decide)

end StakePoolCli
