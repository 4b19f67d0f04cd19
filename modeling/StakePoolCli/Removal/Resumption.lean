import StakePoolCli.Pool.StakerProgram
import StakePoolCli.Removal.FixedPoint
import StakePoolCli.Removal.UpdatedPlan

/-!
# Interrupted syncs of the validator list

A run of `sync-validator-list` fetches the list, updates the pool, and then sends the instructions
that the *fetched* list calls for (`SyncValidatorListRun.ixs`). It stops at the first transaction
that fails, and has then sent some of them. Here runs are interrupted anywhere, any number of times,
each may have fetched a stale list, and in between entries that are winding down may be dropped from
the list (`ListEvent`), as an update does.

`config_validators_stay_active`: through all of it a validator of the config that is active stays
active, and no other validator becomes active.

`interrupted_syncs_converge`: once a run that fetched the current list is carried out in full, its
update included (`SyncLands`), the active validators are those of the config, save for those of them
that were winding down when it was fetched; the preferred validators are those of the config; and if
none was winding down, no run for the config has anything to send from then on, but for updates.

A run acts on the votes of the list as on a roster, which the votes of the config are the wanted
keys of. Its update forgets dead keys, so that it is brought in line with an older roster than the
one it acts on (`Roster.Runs.live_eq_of_forgets`).
-/

namespace StakePoolCli

open Checked Chunks Roster

variable {Pubkey : Type}

/-- The instructions of a run in the order in which they are sent, after those of its update. -/
def SyncValidatorListRun.ixs (run : SyncValidatorListRun Pubkey) : List (Instruction Pubkey) :=
  run.removeTxs.flatten ++ run.addTxs.flatten ++ run.preferredValidatorIxs

namespace SyncValidatorListConfig

variable (svlc : SyncValidatorListConfig Pubkey)

/-- The votes of the config. -/
def wanted : Set Pubkey := {vote | vote ∈ svlc.validators.toList}

/-- The preferred validators of the config. -/
def preferredValidator : PreferredValidatorType → Option Pubkey
  | .deposit => svlc.preferredDepositValidator
  | .withdraw => svlc.preferredWithdrawValidator

@[simp] theorem mem_wanted {vote : Pubkey} : vote ∈ svlc.wanted ↔ vote ∈ svlc.validators.toList :=
  Iff.rfl

/-- A removal is one instruction, or a decrease and one instruction. -/
theorem exists_removeValidatorIxs (lib : StakePoolLib Pubkey) (vsi : ValidatorStakeInfo Pubkey)
    (vsa : StakeStateV2) : ∃ keys : RemoveValidatorFromPoolKeys Pubkey,
      keys.validatorStakeAccount = lib.findValidatorStakeAccount svlc.programId svlc.pool
        vsi.voteAccountAddress (NonZeroU32.new vsi.validatorSeedSuffix) ∧
      ((svlc.removeValidatorIxs lib vsi vsa).ixs = [removeValidatorFromPoolIx svlc.programId keys] ∨
        ∃ decreaseKeys args, (svlc.removeValidatorIxs lib vsi vsa).ixs =
          [decreaseAdditionalValidatorStakeIx svlc.programId decreaseKeys args,
            removeValidatorFromPoolIx svlc.programId keys]) := by
  unfold removeValidatorIxs
  split_ifs
  · exact ⟨_, rfl, .inr ⟨_, _, rfl⟩⟩
  · exact ⟨_, rfl, .inl rfl⟩

section

variable [DecidableEq Pubkey] {svlc} {stakePool : StakePool Pubkey}
  {entries : List (ValidatorStakeInfo Pubkey)}

/-- The preferred validators change to those of the config, where they differ. -/
theorem mem_preferredValidatorChangeset {change : PreferredValidatorChange Pubkey} :
    change ∈ svlc.preferredValidatorChangeset stakePool ↔
      change.new = svlc.preferredValidator change.ty ∧
        change.old = stakePool.preferred change.ty ∧ change.new ≠ change.old := by
  obtain ⟨ty, old, new⟩ := change
  cases ty <;>
    simp [preferredValidatorChangeset, preferredValidator, StakePool.preferred] <;> grind

theorem preferredValidatorChangeset_of_preferred
    (h : ∀ ty, stakePool.preferred ty = svlc.preferredValidator ty) :
    svlc.preferredValidatorChangeset stakePool = [] := by
  rw [List.eq_nil_iff_forall_not_mem]
  intro change hchange
  obtain ⟨hnew, hold, hne⟩ := mem_preferredValidatorChangeset.mp hchange
  exact hne (hnew.trans ((h _).symm.trans hold.symm))

/-- A list in line with the config has nothing to add or to remove. -/
theorem addRemoveChangeset_of_inLine (h : InLine svlc.wanted (roster entries)) :
    svlc.addRemoveChangeset entries = ([], []) := by
  rw [addRemoveChangeset_eq]
  apply Prod.ext
  · exact KeySync.missing_eq_nil fun vote hvote => h.known hvote
  · exact KeySync.surplus_eq_nil fun vsi hvsi hactive => h.live ⟨vsi, hvsi, rfl, hactive⟩

end

/-! ## What the instructions do -/

section

variable [DecidableEq Pubkey] {lib : StakePoolLib Pubkey} {svlc}
  {exec : Instruction Pubkey → PoolState Pubkey → Option (PoolState Pubkey)}
  (heffects : StakerEffects lib svlc.programId svlc.pool exec) {s s' : PoolState Pubkey}
include heffects

theorem does_removeValidatorIxs (hvsa : lib.VsaInjective) {vsi : ValidatorStakeInfo Pubkey}
    {vsa : StakeStateV2}
    (h : Reconcile.run exec (svlc.removeValidatorIxs lib vsi vsa).ixs s = some s') :
    s'.stakePool = s.stakePool.clearPreferred vsi.voteAccountAddress ∧
      Does (.remove vsi.voteAccountAddress) (roster s.entries) (roster s'.entries) := by
  obtain ⟨keys, hkeys, hixs | ⟨decreaseKeys, args, hixs⟩⟩ :=
    svlc.exists_removeValidatorIxs lib vsi vsa
  · rw [hixs, Reconcile.run_singleton] at h
    exact heffects.removed hvsa hkeys h
  · rw [hixs, Reconcile.run_cons_eq_some] at h
    obtain ⟨s₁, hdecrease, h⟩ := h
    rw [Reconcile.run_singleton] at h
    obtain ⟨hpool, hstays⟩ := heffects.decreaseAdditionalValidatorStake _ _ _ _ hdecrease
    rw [← hpool, ← roster_eq_of_forall₂_stays hstays]
    exact heffects.removed hvsa hkeys h

/-- Removals leave the preferred validators alone that are not removed. -/
theorem runs_removeValidatorsIxs (hvsa : lib.VsaInjective)
    {remove : List (ValidatorStakeInfo Pubkey × StakeStateV2)}
    (h : Reconcile.run exec (svlc.removeValidatorsIxs lib remove) s = some s') :
    Runs (remove.map fun r => .remove r.1.voteAccountAddress) (roster s.entries)
        (roster s'.entries) ∧
      ∀ ty, (∀ v ∈ s.stakePool.preferred ty, ∀ r ∈ remove, r.1.voteAccountAddress ≠ v) →
        s'.stakePool.preferred ty = s.stakePool.preferred ty := by
  induction remove generalizing s with
  | nil =>
    obtain rfl := Option.some.inj h
    exact ⟨.nil _, fun _ _ => rfl⟩
  | cons r remove ih =>
    obtain ⟨vsi, vsa⟩ := r
    rw [removeValidatorsIxs_cons, Reconcile.run_append_eq_some] at h
    obtain ⟨s₁, hremoval, h⟩ := h
    obtain ⟨hpool, hdoes⟩ := does_removeValidatorIxs heffects hvsa hremoval
    obtain ⟨hruns, hpreferred⟩ := ih h
    refine ⟨.cons hdoes hruns, fun ty hkept => ?_⟩
    have hkept₁ : s₁.stakePool.preferred ty = s.stakePool.preferred ty := by
      rw [hpool]
      apply StakePool.preferred_clearPreferred_of_ne
      exact fun v hv => (hkept v hv _ List.mem_cons_self).symm
    rw [← hkept₁]
    apply hpreferred
    rw [hkept₁]
    exact fun v hv r hr => hkept v hv r (List.mem_cons_of_mem _ hr)

theorem runs_addValidatorsIxs {add : List Pubkey}
    (h : Reconcile.run exec (svlc.addValidatorsIxs lib add) s = some s') :
    Runs (add.map .add) (roster s.entries) (roster s'.entries) ∧ s'.stakePool = s.stakePool := by
  induction add generalizing s with
  | nil =>
    obtain rfl := Option.some.inj h
    exact ⟨.nil _, rfl⟩
  | cons vote add ih =>
    obtain ⟨s₁, hadd, h⟩ := Reconcile.run_cons_eq_some.mp h
    obtain ⟨hruns, hpool⟩ := ih h
    exact ⟨.cons (heffects.does_add hadd) hruns,
      hpool.trans (heffects.addValidatorToPool _ _ _ _ hadd).2.1⟩

/-- The changes of preferred validators set those they name. -/
theorem run_preferredValidatorIxs {changes : List (PreferredValidatorChange Pubkey)}
    (hnew : ∀ change ∈ changes, change.new = svlc.preferredValidator change.ty)
    (h : Reconcile.run exec (svlc.preferredValidatorIxs changes) s = some s') :
    s'.entries = s.entries ∧
      ∀ ty, s'.stakePool.preferred ty =
        if ∃ change ∈ changes, change.ty = ty then svlc.preferredValidator ty
        else s.stakePool.preferred ty := by
  induction changes generalizing s with
  | nil =>
    obtain rfl := Option.some.inj h
    exact ⟨rfl, by simp⟩
  | cons change changes ih =>
    obtain ⟨s₁, hset, h⟩ := Reconcile.run_cons_eq_some.mp h
    obtain ⟨hpool, hentries⟩ := heffects.setPreferredValidator _ _ _ _ _ hset
    obtain ⟨hentries', hpreferred⟩ := ih (fun c hc => hnew c (List.mem_cons_of_mem _ hc)) h
    refine ⟨hentries'.trans hentries, fun ty => ?_⟩
    rw [hpreferred, hpool, StakePool.preferred_setPreferred, hnew _ List.mem_cons_self]
    simp only [List.exists_mem_cons_iff]
    by_cases hty : change.ty = ty
    · subst hty
      simp
    · simp [hty, Ne.symm hty]

end

end SyncValidatorListConfig

/-! ## Runs -/

section

variable [DecidableEq Pubkey] {lib : StakePoolLib Pubkey} {args : SyncValidatorListArgs Pubkey}
  {fetched : Fetched Pubkey} {run : SyncValidatorListRun Pubkey}

/-- A run removes what the fetched list has too much of, adds what it lacks, and then sets the
preferred validators. -/
theorem SyncValidatorListArgs.ixs_of_run (h : args.run lib fetched = .ok run) :
    ∃ remove, remove.map Prod.fst =
        (args.syncValidatorListConfig fetched).toRemove fetched.validators ∧
      run.ixs = (args.syncValidatorListConfig fetched).removeValidatorsIxs lib remove ++
        (args.syncValidatorListConfig fetched).addValidatorsIxs lib
          ((args.syncValidatorListConfig fetched).toAdd fetched.validators) ++
        (args.syncValidatorListConfig fetched).preferredValidatorIxs
          ((args.syncValidatorListConfig fetched).preferredValidatorChangeset
            fetched.stakePool) := by
  unfold SyncValidatorListArgs.run at h
  obtain ⟨_, -, h⟩ := bind_eq_ok.mp h
  obtain ⟨vsas, hvsas, h⟩ := bind_eq_ok.mp h
  obtain rfl := Except.ok.inj h
  refine ⟨_, List.map_fst_zip (mapM_eq_ok.mp hvsas).length_eq.le, ?_⟩
  simp only [SyncValidatorListRun.ixs, SyncValidatorListConfig.removeTxs,
    flatten_chunks (show 0 < maxRemoveValidatorIxsEnumPerTx by decide),
    flatten_chunks (show 0 < maxAddValidatorsIxPerTx by decide)]

/-- An instruction of a run adds a validator of the config, takes stake out of one, removes one that
is not of the config, or sets a preferred one. -/
theorem SyncValidatorListArgs.mem_ixs (h : args.run lib fetched = .ok run)
    {ix : Instruction Pubkey} (hix : ix ∈ run.ixs) :
    (∃ keys seed, ix = addValidatorToPoolIx fetched.programId keys seed ∧
      keys.voteAccount ∈ args.validators.toList) ∨
    (∃ keys dargs, ix = decreaseAdditionalValidatorStakeIx fetched.programId keys dargs) ∨
    (∃ keys vote seed, ix = removeValidatorFromPoolIx fetched.programId keys ∧
      keys.validatorStakeAccount =
        lib.findValidatorStakeAccount fetched.programId args.pool vote seed ∧
      vote ∉ args.validators.toList) ∨
    ∃ keys ty, ix = setPreferredValidatorIx fetched.programId keys ty
      ((args.syncValidatorListConfig fetched).preferredValidator ty) := by
  obtain ⟨remove, hremove, hixs⟩ := ixs_of_run h
  rw [hixs, List.mem_append, List.mem_append] at hix
  rcases hix with (hix | hix) | hix
  · obtain ⟨⟨vsi, vsa⟩, hmem, hix⟩ := List.mem_flatMap.mp hix
    dsimp only at hix
    have hvsi : vsi ∈ (args.syncValidatorListConfig fetched).toRemove fetched.validators :=
      hremove ▸ List.mem_map_of_mem hmem
    have hout := (SyncValidatorListConfig.mem_toRemove.mp hvsi).2.2
    obtain ⟨keys, hkeys, hixs | ⟨decreaseKeys, dargs, hixs⟩⟩ :=
      (args.syncValidatorListConfig fetched).exists_removeValidatorIxs lib vsi vsa
    · rw [hixs, List.mem_singleton] at hix
      exact .inr (.inr (.inl ⟨keys, _, _, hix, hkeys, hout⟩))
    · rw [hixs, List.mem_cons, List.mem_singleton] at hix
      rcases hix with rfl | rfl
      · exact .inr (.inl ⟨_, _, rfl⟩)
      · exact .inr (.inr (.inl ⟨keys, _, _, rfl, hkeys, hout⟩))
  · obtain ⟨vote, hvote, rfl⟩ := List.mem_map.mp hix
    exact .inl ⟨_, _, rfl, (SyncValidatorListConfig.mem_toAdd.mp hvote).1⟩
  · obtain ⟨change, hchange, rfl⟩ := List.mem_map.mp hix
    obtain ⟨hnew, -⟩ := SyncValidatorListConfig.mem_preferredValidatorChangeset.mp hchange
    refine .inr (.inr (.inr
      ⟨⟨args.pool, args.staker, fetched.stakePool.validatorList⟩, change.ty, ?_⟩))
    rw [← hnew]
    rfl

variable {exec : Instruction Pubkey → PoolState Pubkey → Option (PoolState Pubkey)}
  (heffects : StakerEffects lib fetched.programId args.pool exec) (hvsa : lib.VsaInjective)
  {s s' : PoolState Pubkey}
include heffects hvsa

/-- Each instruction of a run serves the config. -/
theorem progress_of_mem_ixs (h : args.run lib fetched = .ok run) {ix : Instruction Pubkey}
    (hix : ix ∈ run.ixs) (hexec : exec ix s = some s') :
    Progress (args.syncValidatorListConfig fetched).wanted (roster s.entries)
      (roster s'.entries) := by
  rcases SyncValidatorListArgs.mem_ixs h hix with ⟨keys, seed, rfl, hvote⟩ | ⟨keys, dargs, rfl⟩ |
    ⟨keys, vote, seed, rfl, hkeys, hvote⟩ | ⟨keys, ty, rfl⟩
  · exact .of_does (heffects.does_add hexec) hvote
  · obtain ⟨-, hstays⟩ := heffects.decreaseAdditionalValidatorStake _ _ _ _ hexec
    rw [roster_eq_of_forall₂_stays hstays]
    exact .refl _ _
  · exact .of_does (heffects.removed hvsa hkeys hexec).2 hvote
  · rw [(heffects.setPreferredValidator _ _ _ _ _ hexec).2]
    exact .refl _ _

/-- So does what has been sent of a run when it is interrupted. -/
theorem progress_of_landed (h : args.run lib fetched = .ok run) {landed : List (Instruction Pubkey)}
    (hlanded : landed <+: run.ixs) (hexec : Reconcile.run exec landed s = some s') :
    Progress (args.syncValidatorListConfig fetched).wanted (roster s.entries)
      (roster s'.entries) := by
  apply @Reconcile.rel_of_run _ _ exec fun s s' =>
    Progress (args.syncValidatorListConfig fetched).wanted (roster s.entries) (roster s'.entries)
  · exact fun s => .refl _ _
  · exact fun s₁ s₂ s₃ h h' => h.trans h'
  · exact fun ix hix s s' hexec => progress_of_mem_ixs heffects hvsa h (hlanded.subset hix) hexec
  · exact hexec

/-- A run from a list of which entries have been dropped since makes the validators active that the
config wants and that were not winding down, and sets the preferred validators. -/
theorem live_of_run (h : args.run lib fetched = .ok run)
    (hfetched : (roster fetched.validators).Forgets (roster s.entries))
    (hpreferred : ∀ ty, s.stakePool.preferred ty = fetched.stakePool.preferred ty)
    (hconfig : ∀ ty, ∀ v ∈ (args.syncValidatorListConfig fetched).preferredValidator ty,
      v ∈ args.validators.toList)
    (hexec : Reconcile.run exec run.ixs s = some s') :
    (roster s'.entries).live =
        (args.syncValidatorListConfig fetched).wanted \ (roster fetched.validators).dead ∧
      ∀ ty, s'.stakePool.preferred ty =
        (args.syncValidatorListConfig fetched).preferredValidator ty := by
  obtain ⟨remove, hremove, hixs⟩ := SyncValidatorListArgs.ixs_of_run h
  rw [hixs, Reconcile.run_append_eq_some] at hexec
  obtain ⟨s₂, hexec, hpreferredIxs⟩ := hexec
  obtain ⟨s₁, hremoveIxs, haddIxs⟩ := Reconcile.run_append_eq_some.mp hexec
  obtain ⟨hruns₁, hpreferred₁⟩ :=
    SyncValidatorListConfig.runs_removeValidatorsIxs heffects hvsa hremoveIxs
  obtain ⟨hruns₂, hpool₂⟩ := SyncValidatorListConfig.runs_addValidatorsIxs heffects haddIxs
  obtain ⟨hentries, hpreferred₂⟩ := SyncValidatorListConfig.run_preferredValidatorIxs heffects
    (fun _ hc => (SyncValidatorListConfig.mem_preferredValidatorChangeset.mp hc).1) hpreferredIxs
  have hmem : ∀ vsi, (∃ r ∈ remove, r.1 = vsi) ↔
      vsi ∈ (args.syncValidatorListConfig fetched).toRemove fetched.validators := by
    intro vsi
    rw [← hremove, List.mem_map]
  have htoAdd : ∀ vote, vote ∈ (args.syncValidatorListConfig fetched).toAdd fetched.validators ↔
      vote ∈ (args.syncValidatorListConfig fetched).wanted ∧
        vote ∉ (roster fetched.validators).known := by
    intro vote
    rw [SyncValidatorListConfig.mem_toAdd, mem_known_roster]
    push Not
    rfl
  constructor
  · rw [hentries]
    apply (hruns₁.append hruns₂).live_eq_of_forgets hfetched
    · intro a ha
      rcases List.mem_append.mp ha with ha | ha
      · obtain ⟨r, hr, rfl⟩ := List.mem_map.mp ha
        exact (SyncValidatorListConfig.mem_toRemove.mp ((hmem _).mp ⟨r, hr, rfl⟩)).2.2
      · obtain ⟨vote, hvote, rfl⟩ := List.mem_map.mp ha
        exact ((htoAdd vote).mp hvote).1
    · intro vote
      rw [← htoAdd]
      simp
    · rintro vote ⟨vsi, hvsi, rfl, hactive⟩ hout
      obtain ⟨r, hr, rfl⟩ :=
        (hmem vsi).mpr (SyncValidatorListConfig.mem_toRemove.mpr ⟨hvsi, hactive, hout⟩)
      exact List.mem_append_left _ (List.mem_map.mpr ⟨r, hr, rfl⟩)
  · intro ty
    rw [hpreferred₂, hpool₂, ite_eq_left_iff]
    intro hunchanged
    -- the pool's is the config's, which is not removed
    have hsame : s.stakePool.preferred ty =
        (args.syncValidatorListConfig fetched).preferredValidator ty := by
      by_contra hne
      rw [hpreferred] at hne
      exact hunchanged ⟨⟨ty, _, _⟩, SyncValidatorListConfig.mem_preferredValidatorChangeset.mpr
        ⟨rfl, rfl, Ne.symm hne⟩, rfl⟩
    rw [← hsame]
    apply hpreferred₁
    rintro v hv r hr rfl
    rw [hsame] at hv
    exact (SyncValidatorListConfig.mem_toRemove.mp ((hmem _).mp ⟨r, hr, rfl⟩)).2.2
      (hconfig ty _ hv)

end

/-! ## Interrupted runs -/

section

variable [DecidableEq Pubkey] (lib : StakePoolLib Pubkey) (programId pool : Pubkey)
  (exec : Instruction Pubkey → PoolState Pubkey → Option (PoolState Pubkey))
  (execUpdate : UpdateIx Pubkey → PoolState Pubkey → Option (PoolState Pubkey))

/-- What can happen to a pool before a run for a config is carried out: a run for the config is
interrupted, whatever it has fetched, or entries that are winding down are dropped. -/
inductive ListEvent (config : Set Pubkey) (s s' : PoolState Pubkey) : Prop
  | interrupted {args : SyncValidatorListArgs Pubkey} {fetched : Fetched Pubkey}
      {run : SyncValidatorListRun Pubkey} {landed : List (Instruction Pubkey)}
      (hprogram : fetched.programId = programId) (hpool : args.pool = pool)
      (hconfig : ∀ vote, vote ∈ args.validators.toList ↔ vote ∈ config)
      (hrun : args.run lib fetched = .ok run) (hlanded : landed <+: run.ixs)
      (hexec : Reconcile.run exec landed s = some s')
  | elapses (h : (roster s.entries).Forgets (roster s'.entries))

/-- What a run needs to know of the current list and pool. -/
structure FetchedFrom (fetched : Fetched Pubkey) (s : PoolState Pubkey) : Prop where
  roster : roster fetched.validators = roster s.entries
  preferred : ∀ ty, fetched.stakePool.preferred ty = s.stakePool.preferred ty

/-- A run that fetched the current list is carried out in full: first its update, then what it has
computed from what it fetched. -/
structure SyncLands (args : SyncValidatorListArgs Pubkey) (fetched : Fetched Pubkey)
    (run : SyncValidatorListRun Pubkey) (s s' : PoolState Pubkey) : Prop where
  programId : fetched.programId = programId
  pool : args.pool = pool
  current : FetchedFrom fetched s
  planned : args.run lib fetched = .ok run
  executed : ∃ updated, Reconcile.run execUpdate run.updateTxs.flatten s = some updated ∧
    Reconcile.run exec run.ixs updated = some s'

/-- Config files for the same validators. -/
structure SameConfig (args args' : SyncValidatorListArgs Pubkey) : Prop where
  validators : ∀ vote, vote ∈ args'.validators.toList ↔ vote ∈ args.validators.toList
  preferredDepositValidator : args'.preferredDepositValidator = args.preferredDepositValidator
  preferredWithdrawValidator : args'.preferredWithdrawValidator = args.preferredWithdrawValidator

/-- What can happen to a pool after a run has been carried out, as long as its config does not
change: another run for it, whatever it has fetched and wherever it is interrupted, or an update. -/
inductive ConfigEvent (args : SyncValidatorListArgs Pubkey) (s s' : PoolState Pubkey) : Prop
  | interrupted {args' : SyncValidatorListArgs Pubkey} {fetched : Fetched Pubkey}
      {run : SyncValidatorListRun Pubkey} {landed : List (Instruction Pubkey)}
      (hprogram : fetched.programId = programId) (hpool : args'.pool = pool)
      (hsame : SameConfig args args') (hrun : args'.run lib fetched = .ok run)
      (hlanded : landed <+: run.ixs) (hexec : Reconcile.run exec landed s = some s')
  | updated (h : s.Updates s')

/-- The active and the preferred validators are those of a config. -/
structure Settled (args : SyncValidatorListArgs Pubkey) (s : PoolState Pubkey) : Prop where
  active : ∀ vote, s.IsActive vote ↔ vote ∈ args.validators.toList
  preferredDeposit :
    s.stakePool.preferredDepositValidatorVoteAddress = args.preferredDepositValidator
  preferredWithdraw :
    s.stakePool.preferredWithdrawValidatorVoteAddress = args.preferredWithdrawValidator

variable {lib programId pool exec execUpdate} {s s₁ s₂ : PoolState Pubkey}

omit [DecidableEq Pubkey] in
theorem SameConfig.preferredValidator {args args' : SyncValidatorListArgs Pubkey}
    (h : SameConfig args args') (fetched : Fetched Pubkey) (ty : PreferredValidatorType) :
    (args'.syncValidatorListConfig fetched).preferredValidator ty =
      (args.syncValidatorListConfig fetched).preferredValidator ty := by
  cases ty with
  | deposit => exact h.preferredDepositValidator
  | withdraw => exact h.preferredWithdrawValidator

omit [DecidableEq Pubkey] in
theorem Settled.preferred {args : SyncValidatorListArgs Pubkey} (h : Settled args s)
    (fetched : Fetched Pubkey) (ty : PreferredValidatorType) :
    s.stakePool.preferred ty = (args.syncValidatorListConfig fetched).preferredValidator ty := by
  cases ty with
  | deposit => exact h.preferredDeposit
  | withdraw => exact h.preferredWithdraw

/-- **A settled pool is left alone** by a run for its config, but for its update. -/
theorem Settled.quiet {args args' : SyncValidatorListArgs Pubkey} {fetched : Fetched Pubkey}
    {run : SyncValidatorListRun Pubkey} (h : Settled args s) (hsame : SameConfig args args')
    (hfetched : FetchedFrom fetched s) (hrun : args'.run lib fetched = .ok run) :
    run.removeTxs = [] ∧ run.addTxs = [] ∧ run.preferredValidatorIxs = [] ∧
      (fetched.epoch ≤ fetched.stakePool.lastUpdateEpoch → run.updateTxs = []) := by
  have hsettled : Settled args' s :=
    ⟨fun vote => (h.active vote).trans (hsame.validators vote).symm,
      h.preferredDeposit.trans hsame.preferredDepositValidator.symm,
      h.preferredWithdraw.trans hsame.preferredWithdrawValidator.symm⟩
  have hsets : (args'.syncValidatorListConfig fetched).addRemoveChangeset fetched.validators =
      ([], []) := by
    apply SyncValidatorListConfig.addRemoveChangeset_of_inLine
    rw [hfetched.roster]
    exact ⟨fun vote hvote => (roster s.entries).live_subset ((hsettled.active vote).mpr hvote),
      fun vote hlive => (hsettled.active vote).mp hlive⟩
  have hpreferred : (args'.syncValidatorListConfig fetched).preferredValidatorChangeset
      fetched.stakePool = [] := by
    apply SyncValidatorListConfig.preferredValidatorChangeset_of_preferred
    intro ty
    rw [hfetched.preferred]
    exact hsettled.preferred fetched ty
  unfold SyncValidatorListArgs.run at hrun
  obtain ⟨updateTxs, hupdate, hrun⟩ := bind_eq_ok.mp hrun
  simp only [hsets, hpreferred, List.mapM_nil] at hrun
  obtain rfl := Except.ok.inj hrun
  refine ⟨rfl, rfl, rfl, fun hupdated => ?_⟩
  rw [updatePool, if_pos ⟨hupdated, rfl⟩] at hupdate
  exact (Except.ok.inj hupdate).symm

variable (heffects : StakerEffects lib programId pool exec) (hvsa : lib.VsaInjective)
include heffects hvsa

/-- Whatever happens is progress towards the config. -/
theorem progress_of_events {config : Set Pubkey}
    (h : Relation.ReflTransGen (ListEvent lib programId pool exec config) s s₁) :
    Progress config (roster s.entries) (roster s₁.entries) := by
  induction h with
  | refl => exact .refl _ _
  | tail _ hevent ih =>
    refine ih.trans ?_
    cases hevent with
    | elapses h => exact .of_forgets h
    | interrupted hprogram hpool hconfig hrun hlanded hexec =>
      subst hprogram hpool
      convert progress_of_landed heffects hvsa hrun hlanded hexec using 1
      exact (Set.ext hconfig).symm

/-- **A validator of the config that is active stays active** through any number of interrupted
runs, no other validator becomes active, and none of the config starts winding down. -/
theorem config_validators_stay_active {config : Set Pubkey}
    (h : Relation.ReflTransGen (ListEvent lib programId pool exec config) s s₁) (vote : Pubkey) :
    (vote ∈ config → s.IsActive vote → s₁.IsActive vote) ∧
    (vote ∉ config → s₁.IsActive vote → s.IsActive vote) ∧
    (vote ∈ config → s₁.IsWindingDown vote → s.IsWindingDown vote) := by
  have hprogress := progress_of_events heffects hvsa h
  exact ⟨hprogress.live_of_wanted vote, hprogress.live_of_notWanted vote,
    hprogress.dead_of_wanted vote⟩

/-- No instruction of a run for its config unsettles a pool: it adds no validator and removes none,
since it would be one of the wrong kind. -/
theorem Settled.of_event {args : SyncValidatorListArgs Pubkey} (hs : Settled args s)
    (h : ConfigEvent lib programId pool exec args s s₁) : Settled args s₁ := by
  cases h with
  | updated h =>
    refine ⟨fun vote => ?_, (h.preferred .deposit).trans hs.preferredDeposit,
      (h.preferred .withdraw).trans hs.preferredWithdraw⟩
    rw [← hs.active, PoolState.IsActive, h.roster.live_eq]
    rfl
  | @interrupted args' fetched run landed hprogram hpool hsame hrun hlanded hexec =>
    subst hprogram hpool
    refine Reconcile.rel_of_run (R := fun s s' => Settled args s → Settled args s')
      (fun _ h => h) (fun _ _ _ h h' hs => h' (h hs)) (fun ix hix s s' hexec hs => ?_) hexec hs
    rcases SyncValidatorListArgs.mem_ixs hrun (hlanded.subset hix) with
      ⟨keys, seed, rfl, hvote⟩ | ⟨keys, dargs, rfl⟩ | ⟨keys, vote, seed, rfl, hkeys, hvote⟩ |
      ⟨keys, ty, rfl⟩
    · have hnew := (heffects.addValidatorToPool _ _ _ _ hexec).1
      have hactive := (hs.active _).mpr ((hsame.validators _).mp hvote)
      exact absurd ((roster s.entries).live_subset hactive) hnew
    · obtain ⟨hpool, hstays⟩ := heffects.decreaseAdditionalValidatorStake _ _ _ _ hexec
      refine ⟨fun vote => ?_, hpool ▸ hs.preferredDeposit, hpool ▸ hs.preferredWithdraw⟩
      rw [← hs.active, PoolState.IsActive, roster_eq_of_forall₂_stays hstays]
      rfl
    · have hactive := (heffects.removed hvsa hkeys hexec).2.live_of_remove
      exact absurd ((hsame.validators _).mpr ((hs.active _).mp hactive)) hvote
    · obtain ⟨hpool, hentries⟩ := heffects.setPreferredValidator _ _ _ _ _ hexec
      have hpreferred : ∀ ty', s'.stakePool.preferred ty' = s.stakePool.preferred ty' := by
        intro ty'
        rw [hpool, StakePool.preferred_setPreferred]
        split_ifs with hty
        · rw [hty, hs.preferred fetched, hsame.preferredValidator]
        · rfl
      refine ⟨fun vote => ?_, (hpreferred .deposit).trans hs.preferredDeposit,
        (hpreferred .withdraw).trans hs.preferredWithdraw⟩
      rw [← hs.active, PoolState.IsActive, hentries]
      rfl

/-- **Interrupted runs converge.** After any number of them, a run that is carried out makes the
validators of the config active that were not winding down when it fetched the list, and no others,
and the preferred validators those of the config. If none of the config's was winding down, no run
for the config has anything but updates to send from then on, whatever runs for it come in between.
-/
theorem interrupted_syncs_converge (hupdates : UpdateEffects execUpdate)
    {args : SyncValidatorListArgs Pubkey} {fetched : Fetched Pubkey}
    {run : SyncValidatorListRun Pubkey}
    (hpreferred : ∀ vote, args.preferredDepositValidator = some vote ∨
      args.preferredWithdrawValidator = some vote → vote ∈ args.validators.toList)
    (hevents : Relation.ReflTransGen
      (ListEvent lib programId pool exec {vote | vote ∈ args.validators.toList}) s s₁)
    (hrun : SyncLands lib programId pool exec execUpdate args fetched run s₁ s₂) :
    (∀ vote, s₂.IsActive vote ↔ vote ∈ args.validators.toList ∧ ¬ s₁.IsWindingDown vote) ∧
    (∀ vote ∈ args.validators.toList, s₁.IsWindingDown vote → s.IsWindingDown vote) ∧
    s₂.stakePool.preferredDepositValidatorVoteAddress = args.preferredDepositValidator ∧
    s₂.stakePool.preferredWithdrawValidatorVoteAddress = args.preferredWithdrawValidator ∧
    ((∀ vote ∈ args.validators.toList, ¬ s₁.IsWindingDown vote) →
      ∀ s₃, Relation.ReflTransGen (ConfigEvent lib programId pool exec args) s₂ s₃ →
      ∀ (args' : SyncValidatorListArgs Pubkey) fetched' run', SameConfig args args' →
        FetchedFrom fetched' s₃ → args'.run lib fetched' = .ok run' →
        run'.removeTxs = [] ∧ run'.addTxs = [] ∧ run'.preferredValidatorIxs = [] ∧
          (fetched'.epoch ≤ fetched'.stakePool.lastUpdateEpoch → run'.updateTxs = [])) := by
  obtain ⟨rfl, rfl, hfetched, hok, updated, hupdate, hexec⟩ := hrun
  have hconfig : ∀ ty, ∀ v ∈ (args.syncValidatorListConfig fetched).preferredValidator ty,
      v ∈ args.validators.toList := by
    intro ty v hv
    cases ty with
    | deposit => exact hpreferred v (.inl hv)
    | withdraw => exact hpreferred v (.inr hv)
  have hupdated := hupdates.updates_of_run hupdate
  obtain ⟨hlive, hpool⟩ := live_of_run heffects hvsa hok (hfetched.roster ▸ hupdated.roster)
    (fun ty => (hupdated.preferred ty).trans (hfetched.preferred ty).symm) hconfig hexec
  rw [hfetched.roster] at hlive
  have hactive : ∀ vote, s₂.IsActive vote ↔
      vote ∈ args.validators.toList ∧ ¬ s₁.IsWindingDown vote := by
    intro vote
    rw [PoolState.IsActive, hlive]
    rfl
  refine ⟨hactive, (progress_of_events heffects hvsa hevents).dead_of_wanted, hpool .deposit,
    hpool .withdraw, ?_⟩
  intro hnone s₃ hafter
  have hsettled : Settled args s₂ := ⟨fun vote => (hactive vote).trans
    (and_iff_left_of_imp (hnone vote)), hpool .deposit, hpool .withdraw⟩
  have hsettled₃ : Settled args s₃ := by
    induction hafter with
    | refl => exact hsettled
    | tail _ hevent ih => exact ih.of_event heffects hvsa hevent
  exact fun args' fetched' run' hsame => hsettled₃.quiet hsame

end

/-! ## An interrupted run -/

/-- A pool in which validator 12 is winding down, and validator 11 has this much stake. -/
def PoolState.listed (activeStakeLamports transientStakeLamports : UInt64) :
    PoolState Address where
  stakePool := .fresh
  validatorList := ⟨5, [entryOf .active 10, { entryOf .active 11 with
    activeStakeLamports, transientStakeLamports }, entryOf .deactivatingAll 12]⟩
  reserveLamports := 5000000000

/-- What is fetched of a pool when all its stake accounts are active. -/
def PoolState.fetched (s : PoolState Address) : Fetched Address where
  programId := .key 0
  stakePool := s.stakePool
  epoch := 6
  rent := .default
  validators := s.entries
  reserveLamports := s.reserveLamports
  account _ := some ⟨.wellKnown "stake_program", 2000000000, some (.stake ⟨0, 0, u64Max⟩)⟩

/-- A config that removes validator 11 and adds validator 13, which it prefers. -/
def SyncValidatorListArgs.preferringThirteen : SyncValidatorListArgs Address where
  pool := .key 1
  payer := .key 2
  staker := .key 101
  validators := ⟨[.key 10, .key 13], by simp⟩
  preferredDepositValidator := some (.key 13)
  preferredWithdrawValidator := none

/-- A program for which every address is a vote account. -/
def PoolState.hosting : Instruction Address → PoolState Address → Option (PoolState Address) :=
  PoolState.reference StakePoolLib.symbolic (.key 0) (.key 1) .default 0 6 fun _ => true

/-- The first run is interrupted when the stake of validator 11 has been taken out. -/
theorem listEvent_listed : ListEvent StakePoolLib.symbolic (.key 0) (.key 1) PoolState.hosting
    {vote | vote ∈ SyncValidatorListArgs.preferringThirteen.validators.toList}
    (.listed 2000000000 0) (.listed 1002282880 997717120) := by
  obtain ⟨run, hrun, ix, ixs, hixs, hix⟩ : ∃ run,
      SyncValidatorListArgs.preferringThirteen.run StakePoolLib.symbolic
        (PoolState.listed 2000000000 0).fetched = .ok run ∧ ∃ ix ixs, run.ixs = ix :: ixs ∧
        PoolState.hosting ix (.listed 2000000000 0) = some (.listed 1002282880 997717120) :=
    ⟨_, rfl, _, _, rfl, rfl⟩
  refine .interrupted rfl rfl (fun _ => Iff.rfl) hrun ?_ (Reconcile.run_singleton.trans hix)
  rw [hixs]
  exact List.prefix_append [ix] ixs

theorem config_validators_stay_active_listed :
    (PoolState.listed 1002282880 997717120).IsActive (.key 10) := by
  have h := config_validators_stay_active
    (PoolState.effects_reference StakePoolLib.symbolic (.key 0) (.key 1) .default 0 6 fun _ => true)
    StakePoolLib.vsaInjective_symbolic (.single listEvent_listed) (.key 10)
  exact h.1 (by decide) ⟨_, List.mem_cons_self, rfl, rfl⟩

/-- The second run, in epoch 7, is carried out: its update drops validator 12, then validator 11 is
removed and 13 is added. A third run sends nothing. -/
theorem interrupted_syncs_converge_listed : ∃ run s₂ run',
    SyncLands StakePoolLib.symbolic (.key 0) (.key 1) PoolState.hosting
      (PoolState.referenceUpdate 7) .preferringThirteen
      { (PoolState.listed 1002282880 997717120).fetched with epoch := 7 } run
      (.listed 1002282880 997717120) s₂ ∧
    s₂.IsActive (.key 13) ∧
    s₂.stakePool.preferredDepositValidatorVoteAddress = some (.key 13) ∧
    SyncValidatorListArgs.preferringThirteen.run StakePoolLib.symbolic
      { s₂.fetched with epoch := 7 } = .ok run' ∧
    run'.updateTxs = [] ∧ run'.removeTxs = [] ∧ run'.addTxs = [] ∧
    run'.preferredValidatorIxs = [] := by
  obtain ⟨run, updated, s₂, run', hrun, hupdate, hexec, hrun', hepoch⟩ :
      ∃ run updated s₂ run',
        SyncValidatorListArgs.preferringThirteen.run StakePoolLib.symbolic
          { (PoolState.listed 1002282880 997717120).fetched with epoch := 7 } = .ok run ∧
        Reconcile.run (PoolState.referenceUpdate 7) run.updateTxs.flatten
          (.listed 1002282880 997717120) = some updated ∧
        Reconcile.run PoolState.hosting run.ixs updated = some s₂ ∧
        SyncValidatorListArgs.preferringThirteen.run StakePoolLib.symbolic
          { s₂.fetched with epoch := 7 } = .ok run' ∧
        (7 : UInt64) ≤ s₂.stakePool.lastUpdateEpoch :=
    ⟨_, _, _, _, rfl, rfl, rfl, rfl, by decide⟩
  have hlands : SyncLands StakePoolLib.symbolic (.key 0) (.key 1) PoolState.hosting
      (PoolState.referenceUpdate 7) .preferringThirteen
      { (PoolState.listed 1002282880 997717120).fetched with epoch := 7 } run
      (.listed 1002282880 997717120) s₂ :=
    ⟨rfl, rfl, ⟨rfl, fun _ => rfl⟩, hrun, updated, hupdate, hexec⟩
  obtain ⟨hactive, hwinding, hdeposit, -, hquiet⟩ := interrupted_syncs_converge
    (PoolState.effects_reference StakePoolLib.symbolic (.key 0) (.key 1) .default 0 6 fun _ => true)
    StakePoolLib.vsaInjective_symbolic (PoolState.effects_referenceUpdate 7)
    (by
      rintro vote (h | h)
      · obtain rfl := Option.some.inj h
        decide
      · cases h)
    (.single listEvent_listed) hlands
  have hnone : ∀ vote ∈ SyncValidatorListArgs.preferringThirteen.validators.toList,
      ¬ (PoolState.listed 1002282880 997717120).IsWindingDown vote := by
    intro vote hvote h
    obtain ⟨⟨vsi, hvsi, rfl⟩, hdead⟩ := hwinding vote hvote h
    have hlive : ∀ vsi ∈ (PoolState.listed 2000000000 0).entries,
      vsi.voteAccountAddress ∈ SyncValidatorListArgs.preferringThirteen.validators.toList →
        vsi.status = .active := by decide
    exact hdead ⟨vsi, hvsi, rfl, hlive vsi hvsi hvote⟩
  obtain ⟨hremove, hadd, hpreferred, hupdated⟩ :=
    hquiet hnone s₂ .refl _ _ _ ⟨fun _ => Iff.rfl, rfl, rfl⟩ ⟨rfl, fun _ => rfl⟩ hrun'
  exact ⟨run, s₂, run', hlands, (hactive _).mpr ⟨by decide, hnone _ (by decide)⟩, hdeposit, hrun',
    hupdated hepoch, hremove, hadd, hpreferred⟩

end StakePoolCli
