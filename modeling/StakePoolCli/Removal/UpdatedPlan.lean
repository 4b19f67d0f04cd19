import StakePoolCli.Foundations.Outcomes
import StakePoolCli.Interface.Symbolic
import StakePoolCli.Subcmd.SyncValidatorList

/-!
# Planning from a list that is then updated

`sync-validator-list` fetches the validator list, updates the pool, and plans its additions and
removals from the list it fetched. `plans_from_updated_iff`: its plan is the one of the updated list
exactly when the update drops the last entry of no configured validator, and leaves every validator
to remove in the list, active, with the same stake to take out, having been up to date before.

The selections of the two lists are compared by `Outcomes.map_filter_eq_iff`.
-/

namespace StakePoolCli

open Checked

variable {Pubkey : Type}

/-! ## The update -/

/-- What the update may make of an entry that it keeps. -/
structure RefreshedTo (epoch : UInt64) (vsi vsi' : ValidatorStakeInfo Pubkey) : Prop where
  vote : vsi'.voteAccountAddress = vsi.voteAccountAddress
  seed : vsi'.validatorSeedSuffix = vsi.validatorSeedSuffix
  lastUpdateEpoch : epoch ≤ vsi'.lastUpdateEpoch
  /-- Removed validators do not come back. -/
  active : vsi'.status = .active → vsi.status = .active
  /-- The others are dropped. -/
  status : vsi'.status ≠ .readyForRemoval

/-- What `updatePool` may make of the list: its entries are refreshed or dropped, unless the pool is
up to date and nothing is sent. -/
def UpdatesTo (args : UpdatePoolArgs Pubkey)
    (outcomes : List (Option (ValidatorStakeInfo Pubkey))) : Prop :=
  if args.isUpdatedForCurrEpoch then outcomes = args.validatorListEntries.map some
  else List.Forall₂ (fun vsi o => ∀ vsi', o = some vsi' → RefreshedTo args.currentEpoch vsi vsi')
    args.validatorListEntries outcomes

/-- An entry, if it is kept, is still for the same account, and it does not become active. -/
def SameAccount (vsi : ValidatorStakeInfo Pubkey) (o : Option (ValidatorStakeInfo Pubkey)) : Prop :=
  ∀ vsi', o = some vsi' → vsi'.voteAccountAddress = vsi.voteAccountAddress ∧
    vsi'.validatorSeedSuffix = vsi.validatorSeedSuffix ∧
    (vsi'.status = .active → vsi.status = .active)

theorem UpdatesTo.sameAccount {args : UpdatePoolArgs Pubkey}
    {outcomes : List (Option (ValidatorStakeInfo Pubkey))} (h : UpdatesTo args outcomes) :
    List.Forall₂ SameAccount args.validatorListEntries outcomes := by
  unfold UpdatesTo at h
  split at h
  · subst h
    rw [List.forall₂_map_right_iff, List.forall₂_same]
    rintro vsi - vsi' ho
    obtain rfl := Option.some.inj ho
    exact ⟨rfl, rfl, id⟩
  · exact h.imp fun vsi o hrefreshed vsi' ho =>
      ⟨(hrefreshed vsi' ho).vote, (hrefreshed vsi' ho).seed, (hrefreshed vsi' ho).active⟩

/-! ## The plan -/

/-- The lamports that are taken out of a validator before it is removed. -/
def RemoveValidatorIxs.decreaseAmount : RemoveValidatorIxs Pubkey → Option UInt64
  | withDecreaseStake decreaseIx _ => decreaseIx.decreaseArgs.map (·.lamports)
  | removeDirectly _ => none

theorem decreaseAmount_removeValidatorIxs (lib : StakePoolLib Pubkey)
    (svlc : SyncValidatorListConfig Pubkey) (vsi : ValidatorStakeInfo Pubkey) (vsa : StakeStateV2) :
    (svlc.removeValidatorIxs lib vsi vsa).decreaseAmount =
      if 0 < svlc.lamportsToDecrease vsi ∧ vsa.isVsaActive then some (svlc.lamportsToDecrease vsi)
      else none := by
  rcases svlc.removeValidatorIxs_cases lib vsi vsa with
    ⟨hdec, dec, rem, hixs, htakes, -⟩ | ⟨hnot, rem, hixs, -⟩
  · rw [hixs, if_pos hdec, RemoveValidatorIxs.decreaseAmount, htakes.decreaseArgs, Option.map_some]
  · rw [hixs, if_neg hnot, RemoveValidatorIxs.decreaseAmount]

/-- The amount is the same iff there is nothing to take out of the account, or as much. -/
theorem decreaseAmount_eq_iff (lib : StakePoolLib Pubkey) (svlc : SyncValidatorListConfig Pubkey)
    (vsi vsi' : ValidatorStakeInfo Pubkey) (vsa : StakeStateV2) :
    (svlc.removeValidatorIxs lib vsi vsa).decreaseAmount =
        (svlc.removeValidatorIxs lib vsi' vsa).decreaseAmount ↔
      (vsa.isVsaActive = true → svlc.lamportsToDecrease vsi = svlc.lamportsToDecrease vsi') := by
  rw [decreaseAmount_removeValidatorIxs, decreaseAmount_removeValidatorIxs]
  generalize svlc.lamportsToDecrease vsi = a
  generalize svlc.lamportsToDecrease vsi' = b
  cases vsa.isVsaActive with
  | false => simp
  | true =>
    simp only [and_true, true_implies]
    constructor
    · intro h
      rw [← UInt64.toNat_inj]
      split_ifs at h with ha hb hb
      · rw [Option.some.inj h]
      · simp only [UInt64.lt_iff_toNat_lt, UInt64.toNat_zero] at ha hb
        omega
    · rintro rfl
      rfl

namespace SyncValidatorListArgs

variable (lib : StakePoolLib Pubkey) (args : SyncValidatorListArgs Pubkey)
  (fetched : Fetched Pubkey)

/-- The removal of an entry: its validator, and the stake that is taken out first. -/
def removal (vsi : ValidatorStakeInfo Pubkey) : Except Panic (Pubkey × Option UInt64) := do
  let vsa ← args.removeVsa lib fetched vsi
  .ok (vsi.voteAccountAddress,
    ((args.syncValidatorListConfig fetched).removeValidatorIxs lib vsi vsa).decreaseAmount)

/-- The removals that a run sends. -/
def sentRemovals (r : SyncValidatorListRun Pubkey) : List (Pubkey × Option UInt64) :=
  r.remove.map fun x => (x.1.voteAccountAddress,
    ((args.syncValidatorListConfig fetched).removeValidatorIxs lib x.1 x.2).decreaseAmount)

/-- Two entries of one validator account are removed in the same way iff as much is taken out of
the account, where it is active. -/
theorem removal_eq_iff {lib : StakePoolLib Pubkey} {args : SyncValidatorListArgs Pubkey}
    {fetched : Fetched Pubkey}
    {vsi vsi' : ValidatorStakeInfo Pubkey}
    (hvote : vsi'.voteAccountAddress = vsi.voteAccountAddress)
    (hseed : vsi'.validatorSeedSuffix = vsi.validatorSeedSuffix) :
    args.removal lib fetched vsi = args.removal lib fetched vsi' ↔
      ∀ vsa, args.removeVsa lib fetched vsi = .ok vsa → vsa.isVsaActive = true →
        (args.syncValidatorListConfig fetched).lamportsToDecrease vsi =
          (args.syncValidatorListConfig fetched).lamportsToDecrease vsi' := by
  have hvsa : args.removeVsa lib fetched vsi' = args.removeVsa lib fetched vsi := by
    simp only [removeVsa, removeVsaPubkey, hvote, hseed]
  rw [removal, removal, hvsa, hvote]
  cases args.removeVsa lib fetched vsi with
  | error e => simp
  | ok vsa =>
    simp only [ok_bind, Except.ok.injEq, Prod.mk.injEq, true_and, forall_eq', decreaseAmount_eq_iff]

section

variable [DecidableEq Pubkey]

/-- The plan of a run is the one computed from the updated list, and the entries it removes are up
to date. -/
structure PlansFromUpdated (outcomes : List (Option (ValidatorStakeInfo Pubkey)))
    (r : SyncValidatorListRun Pubkey) : Prop where
  add : r.add =
    ((args.syncValidatorListConfig fetched).addRemoveChangeset outcomes.reduceOption).1
  remove : ((args.syncValidatorListConfig fetched).addRemoveChangeset outcomes.reduceOption).2.mapM
    (args.removal lib fetched) = .ok (args.sentRemovals lib fetched r)
  updated : ∀ x ∈ r.remove, fetched.epoch ≤ x.1.lastUpdateEpoch

variable {lib args fetched}

/-- What a run adds and removes. -/
theorem run_eq_ok {r : SyncValidatorListRun Pubkey} (h : args.run lib fetched = .ok r) :
    r.add = (args.syncValidatorListConfig fetched).toAdd fetched.validators ∧
      ∃ vsas, List.Forall₂ (fun vsi vsa => args.removeVsa lib fetched vsi = .ok vsa)
          ((args.syncValidatorListConfig fetched).toRemove fetched.validators) vsas ∧
        r.remove =
          ((args.syncValidatorListConfig fetched).toRemove fetched.validators).zip vsas := by
  unfold run at h
  obtain ⟨_, -, h⟩ := bind_eq_ok.mp h
  obtain ⟨vsas, hvsas, h⟩ := bind_eq_ok.mp h
  obtain rfl := Except.ok.inj h
  exact ⟨rfl, vsas, mapM_eq_ok.mp hvsas, rfl⟩

/-- The removals that a run sends are those of the fetched list. -/
theorem mapM_removal_of_run {r : SyncValidatorListRun Pubkey} (h : args.run lib fetched = .ok r) :
    ((args.syncValidatorListConfig fetched).toRemove fetched.validators).mapM
      (args.removal lib fetched) = .ok (args.sentRemovals lib fetched r) := by
  obtain ⟨-, vsas, hvsas, hremove⟩ := run_eq_ok h
  rw [sentRemovals, hremove, mapM_eq_ok]
  clear hremove
  generalize (args.syncValidatorListConfig fetched).toRemove fetched.validators = remove at hvsas ⊢
  induction hvsas with
  | nil => exact .nil
  | cons hvsa _ ih =>
    rw [List.zip_cons_cons, List.map_cons]
    refine .cons ?_ ih
    rw [removal, hvsa, ok_bind]

/-- The removals do not change iff every entry to remove stays one, with the same removal. -/
theorem removals_eq_iff {validators : List (ValidatorStakeInfo Pubkey)}
    {outcomes : List (Option (ValidatorStakeInfo Pubkey))}
    (h : List.Forall₂ SameAccount validators outcomes) :
    ((args.syncValidatorListConfig fetched).toRemove validators).map (args.removal lib fetched) =
        ((args.syncValidatorListConfig fetched).toRemove outcomes.reduceOption).map
          (args.removal lib fetched) ↔
      ∀ x ∈ validators.zip outcomes, x.1.status = .active →
        x.1.voteAccountAddress ∉ args.validators.toList →
        ∃ vsi', x.2 = some vsi' ∧ vsi'.status = .active ∧
          ∀ vsa, args.removeVsa lib fetched x.1 = .ok vsa → vsa.isVsaActive = true →
            (args.syncValidatorListConfig fetched).lamportsToDecrease x.1 =
              (args.syncValidatorListConfig fetched).lamportsToDecrease vsi' := by
  have hsel : ∀ vsi vsi', SameAccount vsi (some vsi') →
      decide (vsi'.status = .active ∧ vsi'.voteAccountAddress ∉ args.validators.toList) = true →
      decide (vsi.status = .active ∧ vsi.voteAccountAddress ∉ args.validators.toList) = true := by
    intro vsi vsi' hsame hsel
    obtain ⟨hvote, -, hactive⟩ := hsame vsi' rfl
    obtain ⟨hactive', hout⟩ := of_decide_eq_true hsel
    exact decide_eq_true ⟨hactive hactive', hvote ▸ hout⟩
  refine (Outcomes.map_filter_eq_iff hsel h).trans (forall₂_congr fun x hx => ?_)
  have hsame := (List.forall₂_iff_zip.mp h).2 hx
  rw [decide_eq_true_eq, and_imp]
  refine forall₂_congr fun _ hout => exists_congr fun vsi' => and_congr_right fun ho => ?_
  obtain ⟨hvote, hseed, -⟩ := hsame vsi' ho
  rw [decide_eq_true_eq, hvote, removal_eq_iff hvote hseed, and_iff_left hout]

/-- What is to add does not change iff the entries of no configured validator go away. -/
theorem toAdd_eq_iff (svlc : SyncValidatorListConfig Pubkey)
    {validators : List (ValidatorStakeInfo Pubkey)}
    {outcomes : List (Option (ValidatorStakeInfo Pubkey))}
    (h : List.Forall₂ SameAccount validators outcomes) :
    svlc.toAdd validators = svlc.toAdd outcomes.reduceOption ↔
      ∀ vsi ∈ validators, vsi.voteAccountAddress ∈ svlc.validators.toList →
        ∃ vsi' ∈ outcomes.reduceOption, vsi'.voteAccountAddress = vsi.voteAccountAddress := by
  have hback : ∀ vsi' ∈ outcomes.reduceOption, ∃ vsi ∈ validators,
      vsi'.voteAccountAddress = vsi.voteAccountAddress := by
    intro vsi' hvsi'
    induction h with
    | nil => cases hvsi'
    | @cons vsi o _ _ ho _ ih =>
      rw [List.reduceOption_mem_iff, List.mem_cons] at hvsi'
      rcases hvsi' with rfl | hvsi'
      · exact ⟨vsi, List.mem_cons_self, (ho vsi' rfl).1⟩
      · obtain ⟨vsi, hvsi, heq⟩ := ih (List.reduceOption_mem_iff.mpr hvsi')
        exact ⟨vsi, List.mem_cons_of_mem _ hvsi, heq⟩
  constructor
  · intro heq vsi hvsi hconfig
    by_contra hgone
    push Not at hgone
    have hmem : vsi.voteAccountAddress ∈ svlc.toAdd outcomes.reduceOption :=
      SyncValidatorListConfig.mem_toAdd.mpr ⟨hconfig, hgone⟩
    rw [← heq] at hmem
    exact (SyncValidatorListConfig.mem_toAdd.mp hmem).2 vsi hvsi rfl
  · intro hkeep
    apply List.filter_congr
    intro vote hvote
    simp only [List.any_eq_true, decide_eq_true_eq, decide_eq_decide]
    refine not_congr ⟨?_, ?_⟩
    · rintro ⟨vsi, hvsi, rfl⟩
      exact hkeep vsi hvsi hvote
    · rintro ⟨vsi', hvsi', rfl⟩
      obtain ⟨vsi, hvsi, heq⟩ := hback vsi' hvsi'
      exact ⟨vsi, hvsi, heq.symm⟩

end

end SyncValidatorListArgs

open SyncValidatorListArgs

/-- **The plan is the one of the updated list** exactly when the update leaves an entry to every
configured validator that had one, and leaves every validator to remove in the list, active, with
the same stake to take out of an active account; and when the entries to remove were up to date
before. -/
theorem plans_from_updated_iff [DecidableEq Pubkey] (lib : StakePoolLib Pubkey)
    (args : SyncValidatorListArgs Pubkey) (fetched : Fetched Pubkey)
    (outcomes : List (Option (ValidatorStakeInfo Pubkey))) (r : SyncValidatorListRun Pubkey)
    (hupdates : UpdatesTo (args.updatePoolArgs fetched) outcomes)
    (hrun : args.run lib fetched = .ok r) :
    args.PlansFromUpdated lib fetched outcomes r ↔
      (∀ vsi ∈ fetched.validators, vsi.voteAccountAddress ∈ args.validators.toList →
        ∃ vsi' ∈ outcomes.reduceOption, vsi'.voteAccountAddress = vsi.voteAccountAddress) ∧
      ∀ x ∈ fetched.validators.zip outcomes, x.1.status = .active →
        x.1.voteAccountAddress ∉ args.validators.toList →
        fetched.epoch ≤ x.1.lastUpdateEpoch ∧
        ∃ vsi', x.2 = some vsi' ∧ vsi'.status = .active ∧
          ∀ vsa, args.removeVsa lib fetched x.1 = .ok vsa → vsa.isVsaActive = true →
            (args.syncValidatorListConfig fetched).lamportsToDecrease x.1 =
              (args.syncValidatorListConfig fetched).lamportsToDecrease vsi' := by
  have hsame : List.Forall₂ SameAccount fetched.validators outcomes := hupdates.sameAccount
  have hlen : fetched.validators.length = outcomes.length := hsame.length_eq
  obtain ⟨hadded, vsas, hvsas, hremove⟩ := run_eq_ok hrun
  have hadd := toAdd_eq_iff (args.syncValidatorListConfig fetched) hsame
  rw [← hadded] at hadd
  have hsent := mapM_eq_ok_iff_map_eq.mp (mapM_removal_of_run hrun)
  have hremoved := @removals_eq_iff _ lib args fetched _ _ _ hsame
  rw [hsent, eq_comm, ← mapM_eq_ok_iff_map_eq] at hremoved
  have hupdated : (∀ x ∈ r.remove, fetched.epoch ≤ x.1.lastUpdateEpoch) ↔
      ∀ x ∈ fetched.validators.zip outcomes, x.1.status = .active →
        x.1.voteAccountAddress ∉ args.validators.toList → fetched.epoch ≤ x.1.lastUpdateEpoch := by
    rw [hremove]
    refine (Outcomes.forall_mem_zip_fst (P := fun vsi => fetched.epoch ≤ vsi.lastUpdateEpoch)
      hvsas.length_eq).trans (Iff.trans ?_ (Outcomes.forall_mem_zip_fst
        (P := fun vsi => vsi.status = .active → vsi.voteAccountAddress ∉ args.validators.toList →
          fetched.epoch ≤ vsi.lastUpdateEpoch) hlen).symm)
    simp only [SyncValidatorListConfig.mem_toRemove, and_imp]
    rfl
  constructor
  · rintro ⟨h₁, h₂, h₃⟩
    exact ⟨hadd.mp h₁, fun x hx hactive hout =>
      ⟨hupdated.mp h₃ x hx hactive hout, hremoved.mp h₂ x hx hactive hout⟩⟩
  · rintro ⟨h₁, h₂⟩
    exact ⟨hadd.mpr h₁, hremoved.mpr fun x hx hactive hout => (h₂ x hx hactive hout).2,
      hupdated.mpr fun x hx hactive hout => (h₂ x hx hactive hout).1⟩

/-- The entry of a validator that leaves the pool. -/
def leavingEntry (activeStakeLamports lastUpdateEpoch : UInt64) : ValidatorStakeInfo Address :=
  ⟨activeStakeLamports, 0, lastUpdateEpoch, 0, 0, .active, .key 200⟩

/-- A pool with this entry, last updated in epoch 6, when it is epoch 7. All stake accounts are
active. -/
def poolWithEntry (lastUpdateEpoch : UInt64) : Fetched Address where
  programId := .key 0
  stakePool := .fresh
  epoch := 7
  rent := .default
  validators := [leavingEntry 2000000000 lastUpdateEpoch]
  reserveLamports := 10000000000
  account _ := some ⟨.wellKnown "stake_program", 3000000000, some (.stake ⟨2000000000, 3, u64Max⟩)⟩

/-- A config file without validators. -/
def removingEach : SyncValidatorListArgs Address where
  pool := .key 1
  payer := .key 2
  staker := .key 101
  validators := ⟨[], List.nodup_nil⟩
  preferredDepositValidator := none
  preferredWithdrawValidator := none

/-- The entry, but not the pool, has been updated for the epoch already. -/
theorem plans_from_updated_entry :
    ∃ r, removingEach.run StakePoolLib.symbolic (poolWithEntry 7) = .ok r ∧
      removingEach.PlansFromUpdated StakePoolLib.symbolic (poolWithEntry 7)
        [some (leavingEntry 2000000000 7)] r := by
  have hupdates : UpdatesTo (removingEach.updatePoolArgs (poolWithEntry 7))
      [some (leavingEntry 2000000000 7)] := by
    rw [UpdatesTo, if_neg (by decide)]
    refine .cons (fun vsi' hvsi' => ?_) .nil
    obtain rfl := Option.some.inj hvsi'
    exact ⟨rfl, rfl, by decide, fun _ => rfl, by decide⟩
  refine ⟨_, rfl, (plans_from_updated_iff _ _ _ _ _ hupdates rfl).mpr ⟨by decide, ?_⟩⟩
  intro x hx _ _
  obtain rfl := List.mem_singleton.mp hx
  exact ⟨by decide, _, rfl, rfl, fun _ _ _ => rfl⟩

/-- The validator had two SOL in the last epoch and has three now, in the first run of the epoch:
two SOL less the minimum are taken out. -/
theorem plans_from_stale_entry :
    ∃ r, removingEach.run StakePoolLib.symbolic (poolWithEntry 6) = .ok r ∧
      UpdatesTo (removingEach.updatePoolArgs (poolWithEntry 6)) [some (leavingEntry 3000000000 7)] ∧
      ¬ removingEach.PlansFromUpdated StakePoolLib.symbolic (poolWithEntry 6)
        [some (leavingEntry 3000000000 7)] r := by
  refine ⟨_, rfl, ?_, fun h => ?_⟩
  · rw [UpdatesTo, if_neg (by decide)]
    refine .cons (fun vsi' hvsi' => ?_) .nil
    obtain rfl := Option.some.inj hvsi'
    exact ⟨rfl, rfl, by decide, fun _ => rfl, by decide⟩
  · have hremove := h.remove
    exact absurd hremove (by decide)

end StakePoolCli
