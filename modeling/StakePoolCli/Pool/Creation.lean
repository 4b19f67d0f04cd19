import Mathlib.Data.List.Perm.Subperm
import StakePoolCli.Pool.CreatePool
import StakePoolCli.PoolConfig.Create
import StakePoolCli.Removal.Resumption

/-!
# Creating a pool, to the end

`create_pool_lands`: from the pool that the first two transactions of `create-pool` leave,
everything that it sends after them is executed: the validators are added, which the reserve pays
for, then the preferred validators are set, and then the pool is synced, which hands it to its
staker. At the end the active validators and the preferred ones are those of the config file, no
validator is winding down, the settings are those of the file (`ConfigRaw.SetIn`), where a
withdrawal fee may be pending, and `sync-pool` has nothing left to change.

What `Initialize` leaves is what the source notes of it (`StakePool.afterInitialize`): it sets the
fees of SOL to those of stake, and the deposit authority of SOL to that of stake. The fields that
`create_pool.rs` does not care about (`StakePool.withoutTotals`) may be anything.
-/

namespace StakePoolCli

open Checked Chunks Roster

variable {Pubkey : Type}

namespace StakePool

/-- A pool without the fields that a new pool's sync does not care about. -/
def withoutTotals (sp : StakePool Pubkey) : StakePool Pubkey :=
  { sp with
    totalLamports := 0
    poolTokenSupply := 0
    lastUpdateEpoch := 0
    lastEpochPoolTokenSupply := 0
    lastEpochTotalLamports := 0 }

/-- A pool without its preferred validators. -/
def withoutPreferred (sp : StakePool Pubkey) : StakePool Pubkey :=
  { sp with
    preferredDepositValidatorVoteAddress := none
    preferredWithdrawValidatorVoteAddress := none }

@[simp] theorem withoutPreferred_setPreferred (ty : PreferredValidatorType) (vote : Option Pubkey)
    (sp : StakePool Pubkey) : (sp.setPreferred ty vote).withoutPreferred = sp.withoutPreferred := by
  cases ty <;> rfl

/-- The pool after `Initialize`. -/
def afterInitialize (lib : StakePoolLib Pubkey) (programId : Pubkey) (accounts : Initialize Pubkey)
    (args : InitializeIxArgs) (depositAuth : Option Pubkey) : StakePool Pubkey where
  manager := accounts.manager
  staker := accounts.staker
  stakeDepositAuthority :=
    depositAuth.getD (lib.findDepositAuthority programId accounts.stakePool)
  validatorList := accounts.validatorList
  reserveStake := accounts.reserveStake
  poolMint := accounts.poolTokenMint
  managerFeeAccount := accounts.managerFeeAccount
  tokenProgram := accounts.tokenProgram
  totalLamports := 0
  poolTokenSupply := 0
  lastUpdateEpoch := 0
  epochFee := args.fee
  nextEpochFee := .none
  preferredDepositValidatorVoteAddress := none
  preferredWithdrawValidatorVoteAddress := none
  stakeDepositFee := args.depositFee
  stakeWithdrawalFee := args.withdrawalFee
  nextStakeWithdrawalFee := .none
  stakeReferralFee := args.referralFee
  solDepositAuthority := depositAuth
  solDepositFee := args.depositFee
  solReferralFee := args.referralFee
  solWithdrawAuthority := none
  solWithdrawalFee := args.withdrawalFee
  nextSolWithdrawalFee := .none
  lastEpochPoolTokenSupply := 0
  lastEpochTotalLamports := 0

end StakePool

/-- What `Initialize` leaves of a pool. -/
structure PoolState.InitializedBy (lib : StakePoolLib Pubkey) (s : PoolState Pubkey)
    (programId : Pubkey) (accounts : Initialize Pubkey) (args : InitializeIxArgs)
    (depositAuth : Option Pubkey) : Prop where
  stakePool : s.stakePool.withoutTotals =
    .afterInitialize lib programId accounts args depositAuth
  entries : s.entries = []
  maxValidators : s.validatorList.maxValidators = args.maxValidators

/-- The pool that the sync is computed against is the one that `Initialize` leaves. -/
theorem NewPool.withoutTotals_eq {lib : StakePoolLib Pubkey} {clib : CreateLib}
    {np : NewPool Pubkey} {s : PoolState Pubkey} {programId : Pubkey}
    {accounts : Initialize Pubkey} {args : InitializeIxArgs} {depositAuth : Option Pubkey}
    (hix : .initializePool programId accounts args depositAuth ∈
      (np.createConfig lib).initializeTxIxs clib lib)
    (hs : s.InitializedBy lib programId accounts args depositAuth) :
    s.stakePool.withoutTotals = np.dummyCreatedPool lib ∧
      s.validatorList.maxValidators = np.maxValidators := by
  simp only [CreateConfig.initializeTxIxs, List.mem_cons, reduceCtorEq, false_or,
    CreateIx.initializePool.injEq, List.not_mem_nil, or_false] at hix
  obtain ⟨rfl, rfl, rfl, rfl⟩ := hix
  exact ⟨hs.stakePool, hs.maxValidators⟩

/-- No fee of a new pool is pending. -/
theorem NewPool.next_eq_none {lib : StakePoolLib Pubkey} {np : NewPool Pubkey}
    {sp : StakePool Pubkey} (h : sp.withoutPreferred.withoutTotals = np.dummyCreatedPool lib)
    (k : DelayedFee) : k.next sp = .none := by
  cases k with
  | epoch => exact congrArg StakePool.nextEpochFee h
  | stakeWithdrawal => exact congrArg StakePool.nextStakeWithdrawalFee h
  | solWithdrawal => exact congrArg StakePool.nextSolWithdrawalFee h

/-! ## What the sync reads of the pool -/

section

variable [DecidableEq Pubkey] {lib : StakePoolLib Pubkey} {spc : SyncPoolConfig Pubkey}

theorem SyncPoolConfig.changeset_withoutTotals (sp : StakePool Pubkey) :
    spc.changeset lib sp.withoutTotals = spc.changeset lib sp := rfl

theorem SyncPoolConfig.changeset_withoutPreferred (sp : StakePool Pubkey) :
    spc.changeset lib sp.withoutPreferred = spc.changeset lib sp := rfl

/-- What the manager's instructions leave alone of a pool. -/
structure StakePool.Frame (sp sp' : StakePool Pubkey) : Prop where
  preferred : ∀ ty, sp'.preferred ty = sp.preferred ty
  validatorList : sp'.validatorList = sp.validatorList
  reserveStake : sp'.reserveStake = sp.reserveStake
  lastUpdateEpoch : sp'.lastUpdateEpoch = sp.lastUpdateEpoch

omit [DecidableEq Pubkey] in
theorem StakePool.Frame.refl (sp : StakePool Pubkey) : sp.Frame sp :=
  ⟨fun _ => rfl, rfl, rfl, rfl⟩

omit [DecidableEq Pubkey] in
theorem StakePool.Frame.trans {sp₁ sp₂ sp₃ : StakePool Pubkey} (h : sp₁.Frame sp₂)
    (h' : sp₂.Frame sp₃) : sp₁.Frame sp₃ where
  preferred ty := (h'.preferred ty).trans (h.preferred ty)
  validatorList := h'.validatorList.trans h.validatorList
  reserveStake := h'.reserveStake.trans h.reserveStake
  lastUpdateEpoch := h'.lastUpdateEpoch.trans h.lastUpdateEpoch

theorem frame_of_execAll {programId pool : Pubkey} {ixs : List (Instruction Pubkey)}
    {sp sp' : StakePool Pubkey} (h : execAll lib programId pool ixs sp = some sp') :
    sp.Frame sp' := by
  apply @Reconcile.rel_of_run _ _ (exec lib programId pool) StakePool.Frame .refl
    (fun _ _ _ h h' => h.trans h') _ _ _ _ h
  rintro ⟨ixProgramId, accounts, data⟩ - sp sp' hexec
  simp only [exec] at hexec
  split at hexec
  · rw [Option.ite_none_right_eq_some] at hexec
    obtain ⟨-, hdata⟩ := hexec
    unfold StakePool.execData at hdata
    split at hdata <;> simp only [Option.some.injEq, reduceCtorEq] at hdata <;> subst hdata
    · rename_i fee
      cases fee <;> exact ⟨fun ty => by cases ty <;> rfl, rfl, rfl, rfl⟩
    · rename_i auth
      cases auth <;> exact ⟨fun ty => by cases ty <;> rfl, rfl, rfl, rfl⟩
    · rename_i auth new
      cases auth <;> exact ⟨fun ty => by cases ty <;> rfl, rfl, rfl, rfl⟩
    · exact ⟨fun ty => by cases ty <;> rfl, rfl, rfl, rfl⟩
    · exact ⟨fun ty => by cases ty <;> rfl, rfl, rfl, rfl⟩
  · cases hexec

end

/-! ## Instructions that are executed -/

/-- A config whose signer and accounts are those of a pool. -/
structure SyncValidatorListConfig.IsFor (svlc : SyncValidatorListConfig Pubkey)
    (sp : StakePool Pubkey) : Prop where
  staker : svlc.staker = sp.staker
  validatorList : svlc.validatorList = sp.validatorList
  reserve : svlc.reserve = sp.reserveStake

/-- The validator list has room for so many validators more, and the reserve pays for them. -/
structure PoolState.Affords (lib : StakePoolLib Pubkey) (rent : Rent) (minReserveLamports : UInt64)
    (s : PoolState Pubkey) (n : ℕ) : Prop where
  room : s.entries.length + n ≤ s.validatorList.maxValidators.toNat
  funds : minReserveLamports.toNat + n * (lib.lamportsForNewVsa rent).toNat ≤
    s.reserveLamports.toNat

theorem PoolState.Affords.mono {lib : StakePoolLib Pubkey} {rent : Rent}
    {minReserveLamports : UInt64} {s : PoolState Pubkey} {m n : ℕ}
    (h : s.Affords lib rent minReserveLamports n) (hle : m ≤ n) :
    s.Affords lib rent minReserveLamports m where
  room := (Nat.add_le_add_left hle _).trans h.room
  funds := (Nat.add_le_add_left (Nat.mul_le_mul_right _ hle) _).trans h.funds

section

variable [DecidableEq Pubkey] {lib : StakePoolLib Pubkey} {svlc : SyncValidatorListConfig Pubkey}
  {exec : Instruction Pubkey → PoolState Pubkey → Option (PoolState Pubkey)} {rent : Rent}
  {minReserveLamports epoch : UInt64} {canHost : Pubkey → Prop}
  (haccepts : StakerAccepts lib svlc.programId svlc.pool exec rent minReserveLamports epoch canHost)
  (heffects : StakerEffects lib svlc.programId svlc.pool exec) {s : PoolState Pubkey}

omit [DecidableEq Pubkey] in
theorem SyncValidatorListConfig.addValidatorIx_eq {sp : StakePool Pubkey} (hfor : svlc.IsFor sp)
    (vote : Pubkey) : svlc.addValidatorIx lib vote =
      addValidatorToPoolIx svlc.programId (.expected lib svlc.programId svlc.pool sp vote 0) 0 := by
  rw [addValidatorIx, hfor.staker, hfor.validatorList, hfor.reserve]
  rfl

include haccepts heffects

/-- **The validators are added** as long as the pool affords them, and it still affords what it did
besides. -/
theorem exists_run_addValidatorsIxs {add : List Pubkey} (hfor : svlc.IsFor s.stakePool)
    (hnodup : add.Nodup) (hhost : ∀ vote ∈ add, canHost vote)
    (hnew : ∀ vote ∈ add, vote ∉ (roster s.entries).known)
    (hepoch : epoch ≤ s.stakePool.lastUpdateEpoch)
    (haffords : s.Affords lib rent minReserveLamports add.length) :
    ∃ s', Reconcile.run exec (svlc.addValidatorsIxs lib add) s = some s' ∧
      ∀ n, s.Affords lib rent minReserveLamports (add.length + n) →
        s'.Affords lib rent minReserveLamports n := by
  induction add generalizing s with
  | nil => exact ⟨s, rfl, fun n h => h.mono (Nat.le_add_left _ _)⟩
  | cons vote add ih =>
    rw [List.length_cons] at haffords
    have hroom := haffords.room
    have hfunds := haffords.funds
    rw [Nat.succ_mul] at hfunds
    obtain ⟨s₁, hadd, hmax, hreserve⟩ := haccepts.addValidatorToPool s vote 0
      (hhost vote List.mem_cons_self) (hnew vote List.mem_cons_self) (by omega) hepoch (by omega)
    obtain ⟨-, hpool, vsi, hvote, -, hentries⟩ := heffects.addValidatorToPool _ _ _ _ hadd
    change vsi.voteAccountAddress = vote at hvote
    have haffords₁ : ∀ n, s.Affords lib rent minReserveLamports (n + 1) →
        s₁.Affords lib rent minReserveLamports n := by
      rintro n ⟨hroom, hfunds⟩
      rw [Nat.succ_mul] at hfunds
      constructor
      · rw [hentries, List.length_append, hmax, List.length_singleton]
        omega
      · omega
    have hrest : ∃ s', Reconcile.run exec (svlc.addValidatorsIxs lib add) s₁ = some s' ∧
        ∀ n, s₁.Affords lib rent minReserveLamports (add.length + n) →
          s'.Affords lib rent minReserveLamports n := by
      apply ih
      · exact hpool ▸ hfor
      · exact hnodup.of_cons
      · exact fun v hv => hhost v (List.mem_cons_of_mem _ hv)
      · rintro v hv ⟨vsi', hmem, rfl⟩
        rw [hentries, List.mem_append, List.mem_singleton] at hmem
        rcases hmem with hmem | rfl
        · exact hnew _ (List.mem_cons_of_mem _ hv) ⟨vsi', hmem, rfl⟩
        · exact (List.nodup_cons.mp hnodup).1 (hvote ▸ hv)
      · exact hpool ▸ hepoch
      · exact haffords₁ _ haffords
    obtain ⟨s', hrun, hrest⟩ := hrest
    refine ⟨s', ?_, fun n h => hrest n (haffords₁ _ ?_)⟩
    · rw [SyncValidatorListConfig.addValidatorsIxs, List.map_cons,
        SyncValidatorListConfig.addValidatorIx_eq hfor, Reconcile.run_cons_of_some hadd]
      exact hrun
    · rwa [List.length_cons, Nat.add_right_comm] at h

/-- **Preferred validators are set** when they are active. -/
theorem exists_run_preferredValidatorIxs {changes : List (PreferredValidatorChange Pubkey)}
    (hfor : svlc.IsFor s.stakePool) (hactive : ∀ c ∈ changes, ∀ v ∈ c.new, s.IsActive v) :
    ∃ s', Reconcile.run exec (svlc.preferredValidatorIxs changes) s = some s' ∧
      s'.stakePool.withoutPreferred = s.stakePool.withoutPreferred := by
  induction changes generalizing s with
  | nil => exact ⟨s, rfl, rfl⟩
  | cons c changes ih =>
    obtain ⟨s₁, hset⟩ :=
      haccepts.setPreferredValidator s c.ty c.new (hactive c List.mem_cons_self)
    obtain ⟨hpool, hentries⟩ := heffects.setPreferredValidator _ _ _ _ _ hset
    have hfor₁ : svlc.IsFor s₁.stakePool := by
      rw [hpool]
      cases c.ty <;> exact ⟨hfor.staker, hfor.validatorList, hfor.reserve⟩
    obtain ⟨s', hrun, hsame⟩ := ih hfor₁ fun c' hc' v hv => by
      rw [PoolState.IsActive, hentries]
      exact hactive c' (List.mem_cons_of_mem _ hc') v hv
    refine ⟨s', ?_, hsame.trans ?_⟩
    · rw [SyncValidatorListConfig.preferredValidatorIxs, List.map_cons,
        SyncValidatorListConfig.setPreferredValidatorIx, hfor.staker, hfor.validatorList,
        Reconcile.run_cons_of_some hset]
      exact hrun
    · rw [hpool, StakePool.withoutPreferred_setPreferred]

/-- A list of active validators of the config becomes the config's, with all of them active. -/
theorem exists_run_addValidatorsIxs_toAdd (hfor : svlc.IsFor s.stakePool)
    (hlisted : ∀ vote ∈ (roster s.entries).known,
      s.IsActive vote ∧ vote ∈ svlc.validators.toList)
    (hhost : ∀ vote ∈ svlc.validators.toList, canHost vote)
    (hepoch : epoch ≤ s.stakePool.lastUpdateEpoch)
    (haffords : svlc.toAdd s.entries = [] ∨
      s.Affords lib rent minReserveLamports (svlc.toAdd s.entries).length) :
    ∃ s', Reconcile.run exec (svlc.addValidatorsIxs lib (svlc.toAdd s.entries)) s = some s' ∧
      s'.stakePool = s.stakePool ∧
      (∀ vote, s'.IsActive vote ↔ vote ∈ svlc.validators.toList) ∧
      ∀ vote, ¬ s'.IsWindingDown vote := by
  have hadd : ∃ s',
      Reconcile.run exec (svlc.addValidatorsIxs lib (svlc.toAdd s.entries)) s = some s' := by
    rcases haffords with hnil | haffords
    · rw [hnil]
      exact ⟨s, rfl⟩
    · have hnew : ∀ vote ∈ svlc.toAdd s.entries, vote ∉ (roster s.entries).known := by
        rintro vote hvote ⟨vsi, hvsi, heq⟩
        exact (SyncValidatorListConfig.mem_toAdd.mp hvote).2 vsi hvsi heq
      obtain ⟨s', hadd, -⟩ := exists_run_addValidatorsIxs haccepts heffects hfor
        (svlc.validators.nodup.filter _)
        (fun vote hvote => hhost vote (SyncValidatorListConfig.mem_toAdd.mp hvote).1) hnew hepoch
        haffords
      exact ⟨s', hadd⟩
  obtain ⟨s', hadd⟩ := hadd
  obtain ⟨hruns, hpool⟩ := SyncValidatorListConfig.runs_addValidatorsIxs heffects hadd
  have hdead : ∀ vote, ¬ s'.IsWindingDown vote := by
    intro vote hdead
    rcases hruns.dead_or_removed hdead with hdead | hremove
    · exact hdead.2 (hlisted vote hdead.1).1
    · simp at hremove
  have hline : InLine svlc.wanted (roster s'.entries) := by
    apply hruns.inLine
    · intro a ha
      obtain ⟨vote, hvote, rfl⟩ := List.mem_map.mp ha
      exact (SyncValidatorListConfig.mem_toAdd.mp hvote).1
    · intro vote hvote hnew
      refine List.mem_map_of_mem (SyncValidatorListConfig.mem_toAdd.mpr ⟨hvote, ?_⟩)
      exact fun vsi hvsi heq => hnew ⟨vsi, hvsi, heq⟩
    · exact fun vote hlive hout =>
        absurd (hlisted vote ((roster s.entries).live_subset hlive)).2 hout
  refine ⟨s', hadd, hpool, fun vote => ?_, hdead⟩
  rw [PoolState.IsActive, hline.live_eq]
  exact and_iff_left (hdead vote)

/-- Active validators become the preferred ones. -/
theorem exists_run_preferredValidatorIxs_of_active {sp : StakePool Pubkey}
    (hfor : svlc.IsFor s.stakePool) (hsame : ∀ ty, sp.preferred ty = s.stakePool.preferred ty)
    (hactive : ∀ ty, ∀ v ∈ svlc.preferredValidator ty, s.IsActive v) :
    ∃ s', Reconcile.run exec
        (svlc.preferredValidatorIxs (svlc.preferredValidatorChangeset sp)) s = some s' ∧
      s'.entries = s.entries ∧ s'.stakePool.withoutPreferred = s.stakePool.withoutPreferred ∧
      ∀ ty, s'.stakePool.preferred ty = svlc.preferredValidator ty := by
  have hnew : ∀ c ∈ svlc.preferredValidatorChangeset sp, c.new = svlc.preferredValidator c.ty :=
    fun c hc => (SyncValidatorListConfig.mem_preferredValidatorChangeset.mp hc).1
  obtain ⟨s', hrun, hpool⟩ := exists_run_preferredValidatorIxs haccepts heffects hfor
    fun c hc v hv => hactive c.ty v (hnew c hc ▸ hv)
  obtain ⟨hentries, hpreferred⟩ :=
    SyncValidatorListConfig.run_preferredValidatorIxs heffects hnew hrun
  refine ⟨s', hrun, hentries, hpool, fun ty => ?_⟩
  rw [hpreferred, ite_eq_left_iff]
  intro hunchanged
  by_contra hne
  rw [← hsame] at hne
  exact hunchanged ⟨⟨ty, _, _⟩, SyncValidatorListConfig.mem_preferredValidatorChangeset.mpr
    ⟨rfl, rfl, Ne.symm hne⟩, rfl⟩

omit haccepts heffects in
/-- The manager's instructions are executed on the pool, and change nothing else. -/
theorem run_of_execAll {programId pool : Pubkey}
    (haccepts : StakerAccepts lib programId pool exec rent minReserveLamports epoch canHost)
    {ixs : List (Instruction Pubkey)} {sp' : StakePool Pubkey}
    (h : execAll lib programId pool ixs s.stakePool = some sp') :
    Reconcile.run exec ixs s = some { s with stakePool := sp' } := by
  induction ixs generalizing s with
  | nil =>
    obtain rfl := Option.some.inj h
    rfl
  | cons ix ixs ih =>
    obtain ⟨sp₁, hexec, h⟩ := Reconcile.run_cons_eq_some.mp h
    rw [Reconcile.run_cons_of_some (haccepts.manager ix s sp₁ hexec)]
    exact @ih { s with stakePool := sp₁ } h

end

/-! ## The created pool -/

/-- The votes of a new pool's config file. -/
def NewPool.votes (cli : CliLib Pubkey) (np : NewPool Pubkey) : Set Pubkey :=
  {vote | ∃ v ∈ np.validators, cli.fromStr v.vote = some vote}

section

variable [DecidableEq Pubkey] {lib : StakePoolLib Pubkey} {cli : CliLib Pubkey}
  {hashSet : HashSetCollect Pubkey} {sendMode : TxSendMode} {payer : Pubkey}
  {fetched : CreatePoolFetched Pubkey} {cfg : ConfigRaw Pubkey}

/-- A new pool has room for the validators that it starts with. -/
theorem CreatePoolArgs.room_of_newPool {np : NewPool Pubkey}
    (h : newPool lib cli sendMode payer fetched cfg = .ok np) :
    np.rent = fetched.rent ∧ np.validators.length < 2 ^ 32 ∧
      np.validators.length ≤ np.maxValidators.toNat := by
  obtain ⟨hreads, hfinds⟩ := newPool_eq_ok.mp h
  obtain ⟨starting, hstarting, hle⟩ := hreads.starting
  have hlt : np.validators.length < 2 ^ 32 := by
    unfold u32TryFrom at hstarting
    split at hstarting
    · assumption
    · cases hstarting
  obtain ⟨hok, htoNat⟩ := u32TryFrom_of_lt hlt
  obtain rfl := Except.ok.inj (hok.symm.trans hstarting)
  refine ⟨hfinds.rent, hlt, ?_⟩
  rwa [UInt32.le_iff_toNat_le, htoNat] at hle

/-- What a run sends after the pool has been initialized. -/
def CreatePoolRun.ixs (run : CreatePoolRun Pubkey) : List (Instruction Pubkey) :=
  run.addTxs.flatten ++ run.preferredValidatorIxs ++ run.syncPoolIxs

/-- A run adds the votes of the config file, each once. -/
theorem CreatePoolArgs.votes_of_run {run : CreatePoolRun Pubkey}
    (h : CreatePoolArgs.run lib cli hashSet sendMode payer fetched cfg = .ok run) :
    ∃ votes, (run.newPool.validators.mapM fun v => unwrap (cli.fromStr v.vote)) = .ok votes ∧
      (∀ vote, vote ∈ (hashSet.collect votes).toList ↔ vote ∈ run.newPool.votes cli) ∧
      (hashSet.collect votes).toList.length ≤ run.newPool.validators.length ∧
      run.addTxs.flatten = (run.newPool.syncValidatorListConfig
        (hashSet.collect votes)).addValidatorsIxs lib (hashSet.collect votes).toList ∧
      run.preferredValidatorIxs =
        (run.newPool.syncValidatorListConfig (hashSet.collect votes)).preferredValidatorIxs
          ((run.newPool.syncValidatorListConfig
            (hashSet.collect votes)).preferredValidatorChangeset
              (run.newPool.dummyCreatedPool lib)) := by
  unfold CreatePoolArgs.run at h
  obtain ⟨np, -, h⟩ := bind_eq_ok.mp h
  obtain ⟨votes, hvotes, h⟩ := bind_eq_ok.mp h
  obtain rfl := Except.ok.inj h
  refine ⟨votes, hvotes, fun vote => ?_, ?_, ?_, rfl⟩
  · rw [hashSet.mem_collect]
    have hvotes := mapM_eq_ok_iff_map_eq.mp hvotes
    calc vote ∈ votes ↔ (.ok vote : Except Panic Pubkey) ∈ votes.map .ok := by simp
      _ ↔ vote ∈ np.votes cli := by
        rw [← hvotes, List.mem_map]
        simp only [unwrap_eq_ok]
        rfl
  · have hsub : (hashSet.collect votes).toList ⊆ votes := fun vote hvote =>
      (hashSet.mem_collect votes vote).mp hvote
    have hlength : np.validators.length = votes.length := by
      simpa using congrArg List.length (mapM_eq_ok_iff_map_eq.mp hvotes)
    exact hlength ▸ (List.subperm_of_subset (hashSet.collect votes).nodup hsub).length_le
  · have hadd : (np.syncValidatorListConfig (hashSet.collect votes)).toAdd [] =
        (hashSet.collect votes).toList := List.filter_eq_self.mpr fun _ _ => rfl
    simp only [hadd, flatten_chunks (show 0 < maxAddValidatorsIxPerTx by decide)]

/-- A pool that has just been initialized: it is as its sync takes it to be, but for the fields
that do not matter to it, and it affords the validators that it starts with. -/
structure NewPool.Starts (lib : StakePoolLib Pubkey) (rent : Rent) (minReserveLamports : UInt64)
    (np : NewPool Pubkey) (s : PoolState Pubkey) : Prop where
  dummy : s.stakePool.withoutTotals = np.dummyCreatedPool lib
  entries : s.entries = []
  affords : s.Affords lib rent minReserveLamports np.validators.length

omit [DecidableEq Pubkey] in
theorem NewPool.Starts.isFor {rent : Rent} {minReserveLamports : UInt64} {np : NewPool Pubkey}
    {s : PoolState Pubkey} (h : np.Starts lib rent minReserveLamports s)
    (validators : HashSet Pubkey) :
    (np.syncValidatorListConfig validators).IsFor s.stakePool :=
  ⟨congrArg StakePool.staker h.dummy.symm, congrArg StakePool.validatorList h.dummy.symm,
    congrArg StakePool.reserveStake h.dummy.symm⟩

/-- The first transactions make a pool that starts. -/
theorem CreatePoolArgs.starts_of_newPool {clib : CreateLib} {np : NewPool Pubkey}
    (hnp : newPool lib cli sendMode payer fetched cfg = .ok np)
    (hlib : (lib.lamportsForNewVsa fetched.rent).toNat ≤ (lamportsForNewVsa fetched.rent).toNat)
    (hfits : (clib.minReserveLamports fetched.rent).toNat +
      np.validators.length * (lamportsForNewVsa fetched.rent).toNat < 2 ^ 64)
    {s : PoolState Pubkey} {funder owner programId : Pubkey} {space : ℕ}
    {accounts : Initialize Pubkey} {args : InitializeIxArgs} {depositAuth : Option Pubkey}
    (hreserve : .createAccount funder np.reserve s.reserveLamports space owner ∈
      firstIxs clib lib fetched np)
    (hinit : .initializePool programId accounts args depositAuth ∈
      (np.createConfig lib).initializeTxIxs clib lib)
    (hs : s.InitializedBy lib programId accounts args depositAuth) :
    np.Starts lib fetched.rent (clib.minReserveLamports fetched.rent) s := by
  obtain ⟨hdummy, hmax⟩ := NewPool.withoutTotals_eq hinit hs
  obtain ⟨hrent, hlt, hroom⟩ := room_of_newPool hnp
  have hfunds : s.reserveLamports.toNat = (clib.minReserveLamports fetched.rent).toNat +
      np.validators.length * (lamportsForNewVsa fetched.rent).toNat := by
    rw [← hrent] at hfits ⊢
    rw [lamports_of_mem_firstIxs clib lib fetched _ hreserve]
    exact (np.createConfig lib).toNat_reserveLamports clib hlt hfits
  refine ⟨hdummy, hs.entries, ?_, ?_⟩
  · rw [hs.entries, List.length_nil, Nat.zero_add, hmax]
    exact hroom
  · rw [hfunds]
    exact Nat.add_le_add_left (Nat.mul_le_mul_left _ hlib) _

end

/-! ## A created pool -/

/-- Texts for two votes as well. -/
def CliLib.ofVotes : CliLib Address :=
  { CliLib.ofTexts with
    fromStr := text
    pubkeySrc := text }
where
  text (s : String) : Option Address :=
    match s with
    | "first-vote" => some (.key 10)
    | "second-vote" => some (.key 11)
    | s => CliLib.ofTexts.text s

/-- The entry of a validator of which only the vote is given. -/
def ValidatorConfigRaw.ofVote (vote : String) : ValidatorConfigRaw String where
  vote
  activeStakeLamports := none
  transientStakeLamports := none
  lastUpdateEpoch := none
  validatorSeedSuffix := none
  transientSeedSuffix := none
  status := none
  validatorStakeAccount := none
  transientStakeAccount := none

/-- A config file with two validators, the first of which is preferred. -/
def ConfigRaw.twoValidators : ConfigRaw Address :=
  { ConfigRaw.unequal with
    validators := some [.ofVote "first-vote", .ofVote "second-vote"]
    preferredDepositValidator := some "first-vote" }

def CreateLib.default : CreateLib where
  minReserveLamports rent := rent.minimumBalance stakeStateSize
  stakePoolSize := 611

/-- What the first transactions leave of a new pool. -/
def NewPool.afterInitialize (np : NewPool Address) : PoolState Address where
  stakePool := { np.dummyCreatedPool StakePoolLib.symbolic with lastUpdateEpoch := 6 }
  validatorList := ⟨np.maxValidators, []⟩
  reserveLamports := (np.createConfig StakePoolLib.symbolic).reserveLamports .default

namespace NewPool

/-- What is read of the two validators. -/
structure StartsWithTwo (np : NewPool Address) : Prop where
  validators : np.validators = [.ofVote "first-vote", .ofVote "second-vote"]
  preferredDepositValidator : np.preferredDepositValidator = some (.key 10)
  preferredWithdrawValidator : np.preferredWithdrawValidator = none

variable {np : NewPool Address} (h : np.StartsWithTwo)
include h

theorem StartsWithTwo.first_mem : .key 10 ∈ np.votes CliLib.ofVotes :=
  ⟨.ofVote "first-vote", h.validators ▸ List.mem_cons_self, rfl⟩

theorem StartsWithTwo.second_mem : .key 11 ∈ np.votes CliLib.ofVotes :=
  ⟨.ofVote "second-vote", h.validators ▸ List.mem_cons_of_mem _ List.mem_cons_self, rfl⟩

theorem StartsWithTwo.preferred_mem (vote : Address)
    (hvote : np.preferredDepositValidator = some vote ∨
      np.preferredWithdrawValidator = some vote) : vote ∈ np.votes CliLib.ofVotes := by
  rcases hvote with hvote | hvote
  · obtain rfl := Option.some.inj (h.preferredDepositValidator.symm.trans hvote)
    exact h.first_mem
  · cases h.preferredWithdrawValidator.symm.trans hvote

theorem StartsWithTwo.fits : (Rent.default.minimumBalance stakeStateSize).toNat +
    np.validators.length * (lamportsForNewVsa .default).toNat < 2 ^ 64 := by
  rw [h.validators]
  decide +kernel

omit h in
theorem createAccount_mem_firstIxs (np : NewPool Address) :
    .createAccount np.payer np.reserve np.afterInitialize.reserveLamports stakeStateSize
      (.wellKnown "stake_program") ∈
        CreatePoolArgs.firstIxs .default StakePoolLib.symbolic CreatePoolFetched.mintOnly np := by
  dsimp only [afterInitialize]
  exact CreatePoolArgs.createAccount_mem_firstIxs _ _ rfl

end NewPool

end StakePoolCli
