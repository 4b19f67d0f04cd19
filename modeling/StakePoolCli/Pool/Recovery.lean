import StakePoolCli.Pool.Creation
import StakePoolCli.Subcmd.SyncPool

/-!
# An interrupted creation

`create-pool` can not be run again once the pool is initialized (`Pool/Accounts.lean`). Here it is
interrupted after that, while its validators are added or preferred, and the pool is completed with
the same config file by two other commands, `sync-pool` for the manager and then
`sync-validator-list` for the staker: in this order, since the staker of the file is set last.

`interrupted_creation_recovers`: both commands succeed, everything that they send is executed, and
the pool ends up as it would have been, but for the fees that the file leaves out. A new pool has
zero for them in the end, while `sync-pool` lets them be what the pool was initialized with
(`ConfigRaw.withFeesOf`), which is the higher one of two fees.
-/

namespace StakePoolCli

open Checked Chunks Roster

variable {Pubkey : Type}

/-- The config file, where it leaves a fee out, with what the pool was initialized with. -/
def ConfigRaw.withFeesOf (cfg : ConfigRaw Pubkey) (cc : CreateConfig Pubkey) : ConfigRaw Pubkey :=
  { cfg with
    epochFee := some (cfg.epochFee.getD cc.epochFee)
    stakeDepositFee := some (cfg.stakeDepositFee.getD cc.depositFee)
    solDepositFee := some (cfg.solDepositFee.getD cc.depositFee)
    stakeDepositReferralFee := some (cfg.stakeDepositReferralFee.getD cc.depositReferralFee)
    solDepositReferralFee := some (cfg.solDepositReferralFee.getD cc.depositReferralFee)
    stakeWithdrawalFee := some (cfg.stakeWithdrawalFee.getD cc.withdrawalFee)
    solWithdrawalFee := some (cfg.solWithdrawalFee.getD cc.withdrawalFee) }

/-- The config file of a new pool, as `sync-validator-list` reads it. -/
def NewPool.syncValidatorListArgs (np : NewPool Pubkey) (payer : Pubkey)
    (validators : HashSet Pubkey) : SyncValidatorListArgs Pubkey where
  pool := np.pool
  payer
  staker := np.staker
  validators
  preferredDepositValidator := np.preferredDepositValidator
  preferredWithdrawValidator := np.preferredWithdrawValidator

/-- The preferred validators are not a setting of the file in this sense. -/
theorem ConfigRaw.SetIn.of_withoutPreferred {lib : StakePoolLib Pubkey} {cli : CliLib Pubkey}
    {cfg : ConfigRaw Pubkey} {np : NewPool Pubkey} {sp sp' : StakePool Pubkey}
    (h : cfg.SetIn lib cli np sp) (hsame : sp'.withoutPreferred = sp.withoutPreferred) :
    cfg.SetIn lib cli np sp' := by
  have hsp : cfg.SetIn lib cli np sp.withoutPreferred := { h with }
  rw [← hsame] at hsp
  exact { hsp with }

section

variable [DecidableEq Pubkey] {lib : StakePoolLib Pubkey}

/-! ## The same file again -/

omit [DecidableEq Pubkey] in
/-- A signer that has been read may as well be the fallback. -/
theorem psFallback_self {cli : CliLib Pubkey} {sendMode : TxSendMode} {fallback pk : Pubkey}
    {arg : Option String} (h : psFallback cli sendMode fallback arg = .ok pk) :
    psFallback cli sendMode pk arg = .ok pk := by
  unfold psFallback at h ⊢
  obtain ⟨signer, hsigner, h⟩ := bind_eq_ok.mp h
  rw [hsigner, ok_bind]
  obtain rfl := Except.ok.inj h
  cases signer <;> rfl

section

variable {cli : CliLib Pubkey} {sendMode : TxSendMode} {payer payer' : Pubkey}
  {cfg : ConfigRaw Pubkey} {np : NewPool Pubkey}
  (hreads : CreatePoolArgs.Reads lib cli sendMode payer cfg np)
include hreads

/-- `sync-pool` reads the settings of the file, at the pool that it was initialized from. -/
theorem SyncPoolArgs.exists_syncPoolConfig
    (hmanager : psFallback cli sendMode payer' cfg.oldManager = .ok np.manager)
    {acc : PoolAccount Pubkey} (howner : acc.owner = np.programId)
    (hdummy : acc.stakePool.withoutPreferred.withoutTotals = np.dummyCreatedPool lib) :
    ∃ spc, syncPoolConfig lib cli sendMode payer' cfg np.pool acc = .ok spc ∧
      spc.manager = acc.stakePool.manager ∧ spc.epochFee = acc.stakePool.epochFee ∧
      spc.IsOf lib cli (cfg.withFeesOf (np.createConfig lib)) np := by
  have hcurrent : acc.stakePool.manager = np.manager := congrArg StakePool.manager hdummy
  have hepoch : acc.stakePool.epochFee = np.epochFee := congrArg StakePool.epochFee hdummy
  obtain ⟨feeAccount, hfee, hfeeAccount⟩ := hreads.managerFeeAccount
  obtain ⟨staker, hstaker, -⟩ := hreads.staker
  obtain ⟨auth, hauth, -⟩ := hreads.stakeDepositAuth
  rw [syncPoolConfig, hmanager, ok_bind, if_neg (not_not.mpr hcurrent.symm),
    psFallback_self hreads.manager, ok_bind, hfee, ok_bind, hstaker, ok_bind,
    hreads.solDepositAuth, ok_bind, hreads.solWithdrawAuth, ok_bind, hauth, ok_bind]
  refine ⟨_, rfl, hcurrent.symm, ?_, ?_⟩
  · show cfg.epochFee.getD acc.stakePool.epochFee = acc.stakePool.epochFee
    rw [hepoch, hreads.epochFee]
    cases cfg.epochFee <;> rfl
  · have hfeeAccount' : acc.stakePool.managerFeeAccount = np.managerFeeAccount :=
      congrArg StakePool.managerFeeAccount hdummy
    have hstaker' : acc.stakePool.staker = np.manager := congrArg StakePool.staker hdummy
    exact {
      programId := howner
      pool := rfl
      newManager := rfl
      managerFeeAccount := by
        rw [hfeeAccount', hfeeAccount, eq_bind_of_parsePubkeyOpt hfee]
        dsimp only [ConfigRaw.withFeesOf]
        cases cfg.managerFeeAccount.bind cli.pubkeySrc <;> rfl
      staker := by
        rw [hstaker', eq_bind_of_parsePubkeyOpt hstaker]
        rfl
      stakeDepositAuth := by
        rw [← howner]
        exact congrArg (Option.bind · _) (eq_bind_of_parsePubkeyOpt hauth)
      solDepositAuth := eq_bind_of_parsePubkeyOpt hreads.solDepositAuth
      solWithdrawAuth := eq_bind_of_parsePubkeyOpt hreads.solWithdrawAuth
      epochFee := congrArg (cfg.epochFee.getD ·) (congrArg StakePool.epochFee hdummy)
      stakeDepositFee := congrArg (cfg.stakeDepositFee.getD ·)
        (congrArg StakePool.stakeDepositFee hdummy)
      solDepositFee := congrArg (cfg.solDepositFee.getD ·)
        (congrArg StakePool.solDepositFee hdummy)
      stakeDepositReferralFee := congrArg (cfg.stakeDepositReferralFee.getD ·)
        (congrArg StakePool.stakeReferralFee hdummy)
      solDepositReferralFee := congrArg (cfg.solDepositReferralFee.getD ·)
        (congrArg StakePool.solReferralFee hdummy)
      stakeWithdrawalFee := congrArg (cfg.stakeWithdrawalFee.getD ·)
        (congrArg StakePool.stakeWithdrawalFee hdummy)
      solWithdrawalFee := congrArg (cfg.solWithdrawalFee.getD ·)
        (congrArg StakePool.solWithdrawalFee hdummy) }

/-- **`sync-pool` completes the settings**, from the pool as it was initialized. -/
theorem SyncPoolArgs.exists_run_of_reads (horder : lib.FeeOrder)
    (hpool : cfg.pool.bind cli.pubkeySrc = some np.pool)
    (hmanager : psFallback cli sendMode payer' cfg.oldManager = .ok np.manager)
    {fetchedPool : Pubkey → Option (PoolAccount Pubkey)} {acc : PoolAccount Pubkey}
    (hfetched : fetchedPool np.pool = some acc) (howner : acc.owner = np.programId)
    (hdummy : acc.stakePool.withoutPreferred.withoutTotals = np.dummyCreatedPool lib) :
    ∃ run sp', SyncPoolArgs.run lib cli sendMode payer' cfg fetchedPool = .ok run ∧
      execAll lib np.programId np.pool run.ixs acc.stakePool = some sp' ∧
      acc.stakePool.Frame sp' ∧ (cfg.withFeesOf (np.createConfig lib)).SetIn lib cli np sp' := by
  obtain ⟨spc, hok, hcurrent, hepoch, hof⟩ := exists_syncPoolConfig hreads hmanager howner hdummy
  obtain ⟨sp', hexec, hnew, hcurrent', hgoals⟩ :=
    SyncPoolConfig.sync_reaches horder.feeEquality hcurrent
  rw [hof.programId, hof.pool] at hexec
  obtain ⟨text, htext, hpool⟩ := Option.bind_eq_some_iff.mp hpool
  have hrun : ∃ run, SyncPoolArgs.run lib cli sendMode payer' cfg fetchedPool = .ok run ∧
      run.ixs = spc.changesetIxs lib (spc.changeset lib acc.stakePool) := by
    rw [run, htext, unwrap_some, ok_bind, parsePubkey, hpool, unwrap_some, ok_bind, hfetched,
      unwrap_some, ok_bind, hok, ok_bind]
    refine ⟨_, rfl, ?_⟩
    dsimp only
    split_ifs with hnil
    · rw [hnil]
      rfl
    · rfl
  obtain ⟨run, hrun, hixs⟩ := hrun
  exact ⟨run, sp', hrun, hixs ▸ hexec, frame_of_execAll hexec,
    hof.setIn_of_goals horder hepoch.symm (NewPool.next_eq_none hdummy) hnew hcurrent' hgoals⟩

/-- `sync-validator-list` reads the votes and the preferred validators of the file. -/
theorem SyncValidatorListArgs.ofConfig_of_reads {hashSet : HashSetCollect Pubkey}
    (hpool : cfg.pool.bind cli.pubkeySrc = some np.pool)
    (hstaker : psFallback cli sendMode payer' cfg.staker = .ok np.staker) {votes : List Pubkey}
    (hvotes : (np.validators.mapM fun v => unwrap (cli.fromStr v.vote)) = .ok votes) :
    ofConfig cli hashSet sendMode payer' cfg =
      .ok (np.syncValidatorListArgs payer' (hashSet.collect votes)) := by
  obtain ⟨text, htext, hpool⟩ := Option.bind_eq_some_iff.mp hpool
  rw [ofConfig, hstaker, ok_bind, hreads.preferredDepositValidator, ok_bind,
    hreads.preferredWithdrawValidator, ok_bind, htext, unwrap_some, ok_bind, parsePubkey, hpool,
    unwrap_some, ok_bind, ← hreads.validators, hvotes, ok_bind]
  rfl

end

/-! ## What has been sent -/

section

variable {svlc : SyncValidatorListConfig Pubkey}
  {exec : Instruction Pubkey → PoolState Pubkey → Option (PoolState Pubkey)} {rent : Rent}
  {minReserveLamports epoch : UInt64} {canHost : Pubkey → Prop}
  (haccepts : StakerAccepts lib svlc.programId svlc.pool exec rent minReserveLamports epoch canHost)
  (heffects : StakerEffects lib svlc.programId svlc.pool exec) {s s₁ : PoolState Pubkey}

include heffects in
/-- Setting preferred validators changes nothing else. -/
theorem same_of_run_preferredValidatorIxs {changes : List (PreferredValidatorChange Pubkey)}
    {ixs : List (Instruction Pubkey)} (hixs : ixs ⊆ svlc.preferredValidatorIxs changes)
    (h : Reconcile.run exec ixs s = some s₁) :
    s₁.entries = s.entries ∧ s₁.stakePool.withoutPreferred = s.stakePool.withoutPreferred := by
  refine @Reconcile.rel_of_run _ _ exec (fun s s' => s'.entries = s.entries ∧
    s'.stakePool.withoutPreferred = s.stakePool.withoutPreferred) (fun _ => ⟨rfl, rfl⟩)
    (fun _ _ _ h h' => ⟨h'.1.trans h.1, h'.2.trans h.2⟩) ixs (fun ix hix s s' hexec => ?_) s s₁ h
  obtain ⟨change, -, rfl⟩ := List.mem_map.mp (hixs hix)
  obtain ⟨hpool, hentries⟩ := heffects.setPreferredValidator _ _ _ _ _ hexec
  exact ⟨hentries, by rw [hpool, StakePool.withoutPreferred_setPreferred]⟩

/-- Some of these validators have been added and no others, and the pool affords those that are
left, which are among `rest`. -/
structure PoolState.PartlyListed (lib : StakePoolLib Pubkey) (rent : Rent)
    (minReserveLamports : UInt64) (votes : List Pubkey) (s : PoolState Pubkey) : Prop where
  listed : ∀ vote ∈ (roster s.entries).known, s.IsActive vote ∧ vote ∈ votes
  affords : ∃ rest, (∀ vote ∈ votes, vote ∉ (roster s.entries).known → vote ∈ rest) ∧
    (rest = [] ∨ s.Affords lib rent minReserveLamports rest.length)

/-- The pool affords what a sync of its validators adds. -/
theorem PoolState.PartlyListed.affords_toAdd
    (h : s.PartlyListed lib rent minReserveLamports svlc.validators.toList) :
    svlc.toAdd s.entries = [] ∨
      s.Affords lib rent minReserveLamports (svlc.toAdd s.entries).length := by
  obtain ⟨rest, hrest, hafford⟩ := h.affords
  have hsub : svlc.toAdd s.entries ⊆ rest := by
    intro vote hvote
    obtain ⟨hmem, hnew⟩ := SyncValidatorListConfig.mem_toAdd.mp hvote
    refine hrest vote hmem ?_
    rintro ⟨vsi, hvsi, heq⟩
    exact hnew vsi hvsi heq
  rcases hafford with rfl | hafford
  · exact .inl (List.subset_nil.mp hsub)
  · have hnodup : (svlc.toAdd s.entries).Nodup := svlc.validators.nodup.filter _
    exact .inr (hafford.mono (List.subperm_of_subset hnodup hsub).length_le)

include haccepts heffects

/-- Additions to an empty list. -/
theorem partlyListed_of_run_addValidatorsIxs {votes votes' : List Pubkey}
    (hfor : svlc.IsFor s.stakePool) (hentries : s.entries = [])
    (hnodup : (votes ++ votes').Nodup) (hhost : ∀ vote ∈ votes, canHost vote)
    (hepoch : epoch ≤ s.stakePool.lastUpdateEpoch)
    (haffords : s.Affords lib rent minReserveLamports (votes ++ votes').length)
    (h : Reconcile.run exec (svlc.addValidatorsIxs lib votes) s = some s₁) :
    s₁.PartlyListed lib rent minReserveLamports (votes ++ votes') ∧
      s₁.stakePool = s.stakePool ∧ ∀ vote ∈ votes, vote ∈ (roster s₁.entries).known := by
  obtain ⟨hruns, hpool⟩ := SyncValidatorListConfig.runs_addValidatorsIxs heffects h
  have hknown : ∀ vote, vote ∉ (roster s.entries).known := by
    rintro vote ⟨vsi, hmem, -⟩
    rw [hentries] at hmem
    cases hmem
  rw [List.length_append] at haffords
  obtain ⟨s', hrun, hrest⟩ := exists_run_addValidatorsIxs haccepts heffects hfor
    (List.nodup_append.mp hnodup).1 hhost (fun vote _ => hknown vote) hepoch
    (haffords.mono (Nat.le_add_right _ _))
  obtain rfl := Option.some.inj (h.symm.trans hrun)
  have hadded : ∀ vote ∈ votes, vote ∈ (roster s₁.entries).known :=
    fun vote hvote => hruns.mem_known_of_add (List.mem_map_of_mem hvote)
  refine ⟨⟨fun vote hvote => ?_, votes', fun vote hvote hnew => ?_, .inr (hrest _ haffords)⟩,
    hpool, hadded⟩
  · -- nothing was there before and nothing is removed
    have hlive : vote ∈ (roster s₁.entries).live := by
      by_contra hdead
      rcases hruns.dead_or_removed ⟨hvote, hdead⟩ with hdead | hremove
      · exact hknown vote hdead.1
      · simp at hremove
    refine ⟨hlive, List.mem_append_left _ ?_⟩
    rcases hruns.live_or_added hlive with hlive | hadd
    · exact absurd ((roster s.entries).live_subset hlive) (hknown vote)
    · simpa using hadd
  · rcases List.mem_append.mp hvote with hvote | hvote
    · exact absurd (hadded vote hvote) hnew
    · exact hvote

/-- Whatever has been sent of the additions and of the preferred validators. -/
theorem partlyListed_of_landed {votes : List Pubkey}
    {changes : List (PreferredValidatorChange Pubkey)} {landed : List (Instruction Pubkey)}
    (hfor : svlc.IsFor s.stakePool) (hentries : s.entries = []) (hnodup : votes.Nodup)
    (hhost : ∀ vote ∈ votes, canHost vote) (hepoch : epoch ≤ s.stakePool.lastUpdateEpoch)
    (haffords : s.Affords lib rent minReserveLamports votes.length)
    (hlanded : landed <+: svlc.addValidatorsIxs lib votes ++ svlc.preferredValidatorIxs changes)
    (hexec : Reconcile.run exec landed s = some s₁) :
    s₁.PartlyListed lib rent minReserveLamports votes ∧
      s₁.stakePool.withoutPreferred = s.stakePool.withoutPreferred := by
  obtain ⟨unsent, hsplit⟩ := hlanded
  rcases List.append_eq_append_iff.mp hsplit with ⟨rest, hadd, -⟩ | ⟨prefer, rfl, hprefer⟩
  · -- it has stopped among the additions
    obtain ⟨votes₁, votes₂, rfl, rfl, -⟩ := List.map_eq_append_iff.mp hadd
    obtain ⟨hpartly, hpool, -⟩ := partlyListed_of_run_addValidatorsIxs haccepts heffects hfor
      hentries hnodup (fun vote hvote => hhost vote (List.mem_append_left _ hvote)) hepoch haffords
      hexec
    exact ⟨hpartly, by rw [hpool]⟩
  · obtain ⟨s', hadd, hset⟩ := Reconcile.run_append_eq_some.mp hexec
    rw [← List.append_nil votes] at hnodup haffords
    obtain ⟨hpartly, hpool, hknown⟩ := partlyListed_of_run_addValidatorsIxs haccepts heffects hfor
      hentries hnodup hhost hepoch haffords hadd
    have hsub : prefer ⊆ svlc.preferredValidatorIxs changes := by
      rw [hprefer]
      exact List.subset_append_left _ _
    obtain ⟨hentries', hpool'⟩ := same_of_run_preferredValidatorIxs heffects hsub hset
    rw [List.append_nil] at hpartly
    refine ⟨⟨fun vote hvote => ?_, [], fun vote hvote hnew => ?_, .inl rfl⟩,
      hpool'.trans (by rw [hpool])⟩
    · rw [hentries'] at hvote
      rw [PoolState.IsActive, hentries']
      exact hpartly.listed vote hvote
    · rw [hentries'] at hnew
      exact absurd (hknown vote hvote) hnew

/-! ## The validators -/

omit haccepts heffects in
/-- A run in the epoch of the pool that has nothing to remove. -/
theorem SyncValidatorListArgs.exists_run_of_toRemove_eq_nil (lib : StakePoolLib Pubkey)
    (args : SyncValidatorListArgs Pubkey) {fetched : Fetched Pubkey}
    (hupdated : fetched.epoch ≤ fetched.stakePool.lastUpdateEpoch)
    (hremove : (args.syncValidatorListConfig fetched).toRemove fetched.validators = []) :
    ∃ run, args.run lib fetched = .ok run ∧ run.updateTxs = [] ∧ run.removeTxs = [] ∧
      run.ixs = (args.syncValidatorListConfig fetched).addValidatorsIxs lib
          ((args.syncValidatorListConfig fetched).toAdd fetched.validators) ++
        (args.syncValidatorListConfig fetched).preferredValidatorIxs
          ((args.syncValidatorListConfig fetched).preferredValidatorChangeset
            fetched.stakePool) := by
  have hupdate : updatePool (args.updatePoolArgs fetched) = .ok [] := by
    rw [updatePool, if_pos ⟨hupdated, rfl⟩]
  have hsets : (args.syncValidatorListConfig fetched).addRemoveChangeset fetched.validators =
      ((args.syncValidatorListConfig fetched).toAdd fetched.validators, []) := by
    rw [← hremove]
    rfl
  rw [run, hupdate, ok_bind]
  simp only [hsets]
  refine ⟨_, rfl, rfl, rfl, ?_⟩
  rw [SyncValidatorListRun.ixs, flatten_chunks (show 0 < maxAddValidatorsIxPerTx by decide)]
  rfl

omit haccepts heffects in
/-- **`sync-validator-list` completes a part of its list**: it has nothing to update in the epoch
of the pool and nothing to remove. -/
theorem SyncValidatorListArgs.exists_run_of_partlyListed {programId pool : Pubkey}
    (haccepts : StakerAccepts lib programId pool exec rent minReserveLamports epoch canHost)
    (heffects : StakerEffects lib programId pool exec) {args : SyncValidatorListArgs Pubkey}
    {fetched : Fetched Pubkey} (hprogram : fetched.programId = programId) (hargs : args.pool = pool)
    (hpool : fetched.stakePool = s.stakePool) (hentries : fetched.validators = s.entries)
    (hstaker : args.staker = s.stakePool.staker)
    (hpartly : s.PartlyListed lib rent minReserveLamports args.validators.toList)
    (hhost : ∀ vote ∈ args.validators.toList, canHost vote)
    (hpreferred : ∀ vote, args.preferredDepositValidator = some vote ∨
      args.preferredWithdrawValidator = some vote → vote ∈ args.validators.toList)
    (hepoch : epoch ≤ s.stakePool.lastUpdateEpoch)
    (hupdated : fetched.epoch ≤ s.stakePool.lastUpdateEpoch) :
    ∃ run s', args.run lib fetched = .ok run ∧ run.updateTxs = [] ∧ run.removeTxs = [] ∧
      Reconcile.run exec run.ixs s = some s' ∧ Settled args s' ∧
      (∀ vote, ¬ s'.IsWindingDown vote) ∧
      s'.stakePool.withoutPreferred = s.stakePool.withoutPreferred := by
  subst hprogram hargs
  have hfor : (args.syncValidatorListConfig fetched).IsFor s.stakePool :=
    ⟨hstaker, congrArg StakePool.validatorList hpool, congrArg StakePool.reserveStake hpool⟩
  obtain ⟨s₁, hadd, hpool₁, hactive, hwinding⟩ :=
    exists_run_addValidatorsIxs_toAdd haccepts heffects hfor hpartly.listed hhost hepoch
      hpartly.affords_toAdd
  have hsame : ∀ ty, fetched.stakePool.preferred ty = s₁.stakePool.preferred ty := by
    intro ty
    rw [hpool, hpool₁]
  obtain ⟨s₂, hprefer, hentries₂, hpool₂, hpreferred₂⟩ :=
    exists_run_preferredValidatorIxs_of_active haccepts heffects (hpool₁ ▸ hfor) hsame
      fun ty v hv => (hactive v).mpr (hpreferred v (by
        cases ty
        · exact .inl hv
        · exact .inr hv))
  have hremove : (args.syncValidatorListConfig fetched).toRemove s.entries = [] := by
    rw [List.eq_nil_iff_forall_not_mem]
    intro vsi hvsi
    obtain ⟨hmem, -, hout⟩ := SyncValidatorListConfig.mem_toRemove.mp hvsi
    exact hout (hpartly.listed _ ⟨vsi, hmem, rfl⟩).2
  obtain ⟨run, hrun, hupdateTxs, hremoveTxs, hixs⟩ := args.exists_run_of_toRemove_eq_nil lib
    (hpool ▸ hupdated) (hentries ▸ hremove)
  have hexec : Reconcile.run exec run.ixs s = some s₂ := by
    rw [hixs, hentries]
    exact Reconcile.run_append_eq_some.mpr ⟨s₁, hadd, hprefer⟩
  refine ⟨run, s₂, hrun, hupdateTxs, hremoveTxs, hexec,
    ⟨fun vote => ?_, hpreferred₂ .deposit, hpreferred₂ .withdraw⟩, fun vote => ?_,
    hpool₂.trans (by rw [hpool₁])⟩
  · rw [PoolState.IsActive, hentries₂]
    exact hactive vote
  · rw [PoolState.IsWindingDown, hentries₂]
    exact hwinding vote

end

/-! ## The recovery -/

end

/-! ## A recovery -/

/-- A program for a new pool, for which every address is a vote account. -/
def NewPool.hosting (np : NewPool Address) :
    Instruction Address → PoolState Address → Option (PoolState Address) :=
  PoolState.reference StakePoolLib.symbolic np.programId np.pool .default
    (Rent.default.minimumBalance stakeStateSize) 6 fun _ => true

/-- What `sync-pool` fetches of a pool. -/
def PoolState.fetchedPool (s : PoolState Address) (_ : Address) : Option (PoolAccount Address) :=
  some ⟨.key 0, s.stakePool⟩

end StakePoolCli
