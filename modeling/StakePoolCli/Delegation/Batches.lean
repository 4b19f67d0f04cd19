import StakePoolCli.Delegation.Instructions
import StakePoolCli.Foundations.Numbered
import StakePoolCli.Interface.Symbolic
import StakePoolCli.Subcmd.SyncDelegation

/-!
# The transactions of the changes

The changes are numbered, those that move stake become instructions, and the instructions are cut
into transactions.

* The transactions carry out the changes that move stake, one instruction each and in order, and no
  two instructions of the whole run share an ephemeral seed (`delegation_changes_carried_out`): the
  seed of a change is its number.
* With injective addresses they do not share an ephemeral account either.
-/

namespace StakePoolCli

open Checked Chunks DelegationChangeset Ledger Numbered

variable {Pubkey : Type} {lib : StakePoolLib Pubkey} {sdc : SyncDelegationConfig Pubkey}
  {change : ValidatorDelegationChange Pubkey} {ix : Instruction Pubkey} {i : ℕ}

/-- The transactions of a list of changes. -/
def SyncDelegationConfig.syncDelegationTxs (sdc : SyncDelegationConfig Pubkey)
    (lib : StakePoolLib Pubkey) (changes : List (ValidatorDelegationChange Pubkey)) :
    List (List (Instruction Pubkey)) :=
  chunks maxIncreaseValidatorStakeIxPerTx (sdc.syncDelegationIxs lib changes)

theorem flatten_syncDelegationTxs (changes : List (ValidatorDelegationChange Pubkey)) :
    (sdc.syncDelegationTxs lib changes).flatten = sdc.syncDelegationIxs lib changes :=
  flatten_chunks (Nat.succ_pos _) _

/-- A run sends the transactions of its changes. -/
theorem SyncDelegationArgs.run_eq_ok_iff [DecidableEq Pubkey]
    {sort : Sorting.StableSort (ValidatorDelegation Pubkey)} {args : SyncDelegationArgs Pubkey}
    {fetched : Fetched Pubkey} {txs : List (List (Instruction Pubkey))} :
    args.run lib sort fetched = .ok txs ↔
      ∃ changes cs, args.changes lib sort fetched = .ok (changes, cs) ∧
        txs = (args.syncDelegationConfig fetched).syncDelegationTxs lib changes := by
  rw [SyncDelegationArgs.run, bind_eq_ok]
  constructor
  · rintro ⟨⟨changes, cs⟩, hchanges, h⟩
    exact ⟨changes, cs, hchanges, (Except.ok.inj h).symm⟩
  · rintro ⟨changes, cs, hchanges, rfl⟩
    exact ⟨(changes, cs), hchanges, rfl⟩

/-- One instruction carries out each change that moves stake, in order. -/
theorem forall₂_syncDelegationIxs (changes : List (ValidatorDelegationChange Pubkey)) :
    List.Forall₂ (fun change ix => ∃ args, CarriesOut lib sdc change ix args)
      (changes.filter fun change => MovesStake change.ty) (sdc.syncDelegationIxs lib changes) := by
  apply forall₂_filterMap_zipIdx
  · intro change i hmoves
    obtain ⟨ix, args, hix, hcarries⟩ :=
      @exists_syncDelegationIx _ lib sdc change i (of_decide_eq_true hmoves)
    exact ⟨ix, hix, args, hcarries⟩
  · intro change i hstays
    exact (syncDelegationIx_eq_none_iff lib sdc change).mpr (of_decide_eq_false hstays) i

/-- The numbers of fewer than 2⁶⁴ changes are different as seeds. -/
theorem nodup_ephemeralStakeSeed {changes : List (ValidatorDelegationChange Pubkey)}
    (hlen : changes.length < 2 ^ 64) :
    ((sdc.syncDelegationIxs lib changes).map (·.ephemeralStakeSeed)).Nodup := by
  rw [List.Nodup, List.pairwise_map]
  apply pairwise_filterMap_zipIdx
  intro change change' i j ix ix' hij hj hix hix' heq
  have hj' : j < UInt64.size := hj.trans hlen
  rw [ephemeralStakeSeed_syncDelegationIx hix, ephemeralStakeSeed_syncDelegationIx hix',
    Option.some.injEq, ← UInt64.toNat_inj, UInt64.toNat_ofNat_of_lt' (hij.trans hj'),
    UInt64.toNat_ofNat_of_lt' hj'] at heq
  omega

/-- Different seeds have different accounts, where the derivation is injective. -/
theorem nodup_ephemeralStakeAccount {changes : List (ValidatorDelegationChange Pubkey)}
    (hlen : changes.length < 2 ^ 64)
    (hinj : (lib.findEphemeralStakeAccount sdc.programId sdc.pool).Injective) :
    ((sdc.syncDelegationIxs lib changes).map (·.ephemeralStakeAccount)).Nodup := by
  have haccounts : (sdc.syncDelegationIxs lib changes).map (·.ephemeralStakeAccount) =
      ((sdc.syncDelegationIxs lib changes).map (·.ephemeralStakeSeed)).map
        (Option.map (lib.findEphemeralStakeAccount sdc.programId sdc.pool)) := by
    rw [List.map_map]
    apply List.map_congr_left
    intro ix hix
    obtain ⟨i, change, -, hix⟩ := mem_syncDelegationIxs.mp hix
    obtain ⟨args, hargs, -⟩ := syncDelegationIx_spec hix
    rw [hargs.ephemeralStakeAccount, Function.comp_apply, hargs.ephemeralStakeSeed, Option.map_some]
  rw [haccounts]
  exact (nodup_ephemeralStakeSeed hlen).map (Option.map_injective hinj)

/-- The transactions carry out the changes: what is sent, one transaction after the other, is one
instruction for each change that moves stake, in the order of the changes; no transaction is empty
or too long; and no two instructions use one ephemeral seed, nor one ephemeral account where the
derivation is injective. -/
structure CarriedOut (lib : StakePoolLib Pubkey) (sdc : SyncDelegationConfig Pubkey)
    (changes : List (ValidatorDelegationChange Pubkey))
    (txs : List (List (Instruction Pubkey))) : Prop where
  carriesOut : List.Forall₂ (fun change ix => ∃ args, CarriesOut lib sdc change ix args)
    (changes.filter fun change => MovesStake change.ty) txs.flatten
  nonempty : ∀ tx ∈ txs, tx ≠ []
  bounded : ∀ tx ∈ txs, tx.length ≤ maxIncreaseValidatorStakeIxPerTx
  distinctSeeds : (txs.flatten.map (·.ephemeralStakeSeed)).Nodup
  distinctAccounts : (lib.findEphemeralStakeAccount sdc.programId sdc.pool).Injective →
    (txs.flatten.map (·.ephemeralStakeAccount)).Nodup

/-- **Every change is carried out once**, by the transactions that a run with these changes
sends. -/
theorem delegation_changes_carried_out [DecidableEq Pubkey] (lib : StakePoolLib Pubkey)
    (sdc : SyncDelegationConfig Pubkey) (changes : List (ValidatorDelegationChange Pubkey))
    (hlen : changes.length < 2 ^ 64) :
    CarriedOut lib sdc changes (sdc.syncDelegationTxs lib changes) ∧
    ∀ (sort : Sorting.StableSort (ValidatorDelegation Pubkey)) (args : SyncDelegationArgs Pubkey)
      (fetched : Fetched Pubkey) (cs : DelegationChangeset Pubkey),
      args.syncDelegationConfig fetched = sdc →
      args.changes lib sort fetched = .ok (changes, cs) →
      args.run lib sort fetched = .ok (sdc.syncDelegationTxs lib changes) := by
  have hpos : 0 < maxIncreaseValidatorStakeIxPerTx := Nat.succ_pos _
  constructor
  · refine ⟨?_, fun tx => ne_nil_of_mem_chunks hpos, fun tx => length_le_of_mem_chunks hpos, ?_,
      fun hinj => ?_⟩
    · rw [flatten_syncDelegationTxs]
      exact forall₂_syncDelegationIxs changes
    · rw [flatten_syncDelegationTxs]
      exact nodup_ephemeralStakeSeed hlen
    · rw [flatten_syncDelegationTxs]
      exact nodup_ephemeralStakeAccount hlen hinj
  · rintro sort args fetched cs rfl hchanges
    exact SyncDelegationArgs.run_eq_ok_iff.mpr ⟨changes, cs, hchanges, rfl⟩

/-- A pool whose stake is moved. -/
def movingStake : SyncDelegationConfig Address where
  programId := .key 0
  payer := .key 2
  staker := .key 101
  pool := .key 1
  validatorList := .key 102
  reserve := .key 103
  reserveLamports := 5000000000
  currEpoch := 7
  rent := .default

/-- Changes of all kinds, four of which move stake. -/
def sixChanges : List (ValidatorDelegationChange Address) :=
  [⟨.key 10, 0, .decreaseStake 3000000000⟩, ⟨.key 11, 1, .noChange⟩,
    ⟨.key 12, 2, .increaseStake 4000000000⟩, ⟨.key 13, 0, .transientWrongState⟩,
    ⟨.key 14, 5, .partialIncreaseStake 900000000 100000000⟩,
    ⟨.key 15, 0, .decreaseStake 2000000000⟩]

theorem delegation_changes_carried_out_sixChanges :
    CarriedOut StakePoolLib.symbolic movingStake sixChanges
      (movingStake.syncDelegationTxs StakePoolLib.symbolic sixChanges) ∧
    (movingStake.syncDelegationTxs StakePoolLib.symbolic sixChanges).map List.length = [3, 1] :=
  ⟨(delegation_changes_carried_out _ _ _ (by decide)).1, rfl⟩

end StakePoolCli
