import StakePoolCli.Pool.Sync
import StakePoolCli.Subcmd.CreatePool

/-!
# A created pool reaches its config

`create_pool_reaches_config`: the sync at the end of `create-pool` is executed from the pool that
`Initialize` leaves, and brings it to the config; every fee it changes, it lowers, and it changes
neither the epoch fee nor the manager nor the manager's fee account.

That it succeeds is `sync_reaches`, for a pool and a config with one manager; what its goals are in
terms of the file is `SyncPoolConfig.IsOf.setIn_of_goals`. That fees are only lowered is because the
pool is initialized with the higher one of two (`cmpFee_selectHigherFee_left` and `_right`): what
`EqFeeType` tells apart from the higher fee is lower.
-/

namespace StakePoolCli

open Checked

variable {Pubkey : Type}

/-! ## The higher fee -/

section

variable {lib : StakePoolLib Pubkey} (horder : lib.FeeOrder) {f₁ f₂ : Fee}
include horder

theorem cmpFee_selectHigherFee_left
    (hne : lib.cmpFee (selectHigherFee lib f₁ f₂) f₁ ≠ .eq) :
    lib.cmpFee f₁ (selectHigherFee lib f₁ f₂) = .lt := by
  unfold selectHigherFee at hne ⊢
  cases hcmp : lib.cmpFee f₁ f₂ with
  | lt => exact hcmp
  | eq => simp [hcmp, horder.symm hcmp] at hne
  | gt => simp [hcmp, horder.refl] at hne

theorem cmpFee_selectHigherFee_right
    (hne : lib.cmpFee (selectHigherFee lib f₁ f₂) f₂ ≠ .eq) :
    lib.cmpFee f₂ (selectHigherFee lib f₁ f₂) = .lt := by
  unfold selectHigherFee at hne ⊢
  cases hcmp : lib.cmpFee f₁ f₂ with
  | lt | eq => simp [hcmp, horder.refl] at hne
  | gt =>
    show lib.cmpFee f₂ f₁ = .lt
    rw [← horder.swap, hcmp, Ordering.swap_gt]

end

/-- The same for referral fees. -/
theorem NewPool.compare_depositReferralFee {np : NewPool Pubkey} {fee : UInt8}
    (hfee : fee = np.stakeDepositReferralFee ∨ fee = np.solDepositReferralFee)
    (hne : np.depositReferralFee ≠ fee) : compare fee np.depositReferralFee = .lt := by
  rw [Std.compare_eq_lt, UInt8.lt_iff_toNat_lt]
  rw [ne_eq, ← UInt8.toNat_inj] at hne
  unfold depositReferralFee at hne ⊢
  rcases hfee with rfl | rfl <;> split_ifs at hne ⊢ with h <;>
    rw [gt_iff_lt, UInt8.lt_iff_toNat_lt] at h <;> omega

/-! ## The changes of a sync -/

variable [DecidableEq Pubkey]

/-- The authority that is left once the default one is filtered out determines the authority. -/
theorem eq_getD_of_filterDefault {pk default : Pubkey} {auth : Option Pubkey}
    (h : filterDefaultStakeDepositAuth pk default =
      auth.bind (filterDefaultStakeDepositAuth · default)) : pk = auth.getD default := by
  unfold filterDefaultStakeDepositAuth at h
  cases auth with
  | none => simpa using h
  | some pk' => by_cases hpk : pk = default <;> by_cases hpk' : pk' = default <;> simp_all

namespace SyncPoolConfig

variable {lib : StakePoolLib Pubkey} {spc : SyncPoolConfig Pubkey} {sp : StakePool Pubkey}

/-- A change is that of an aspect, or of the manager. -/
theorem exists_change_of_mem_changeset {c : SyncPoolChange Pubkey}
    (h : c ∈ spc.changeset lib sp) :
    (∃ a, spc.change lib sp a = some c) ∨ c ∈ spc.managerChange sp := by
  rw [changeset_eq, List.mem_append, List.mem_filterMap] at h
  rcases h with ⟨a, -, ha⟩ | h
  · exact .inl ⟨a, ha⟩
  · exact .inr h

/-- A fee is changed where the pool's and the config's are of different rates. -/
theorem fee_of_mem_changeset {old new : FeeType} (h : .fee old new ∈ spc.changeset lib sp) :
    lib.eqFeeType old new = false ∧
      ((∃ k : DelayedFee, old = k.kind (k.current sp) ∧ new = k.kind (k.configured spc)) ∨
        ∃ k : ImmediateFee, old = k.current sp ∧ new = k.configured spc) := by
  rcases exists_change_of_mem_changeset h with ⟨a, ha⟩ | h
  · cases a with
    | fundingAuth ty =>
      simp [change, fundingAuthChange] at ha
    | delayedFee k =>
      simp only [change, delayedFeeChange] at ha
      split_ifs at ha with heq
      obtain ⟨rfl, rfl⟩ := SyncPoolChange.fee.inj (Option.some.inj ha)
      exact ⟨by simpa using heq, .inl ⟨k, rfl, rfl⟩⟩
    | fee k =>
      simp only [change, feeChange] at ha
      split_ifs at ha with heq
      obtain ⟨rfl, rfl⟩ := SyncPoolChange.fee.inj (Option.some.inj ha)
      exact ⟨by simpa using heq, .inr ⟨k, rfl, rfl⟩⟩
    | staker | managerFeeAccount => simp [change] at ha
  · simp [managerChange] at h

theorem manager_notMem_changeset (hmanager : sp.manager = spc.newManager) (old new : Pubkey) :
    .manager old new ∉ spc.changeset lib sp := by
  intro h
  rcases exists_change_of_mem_changeset h with ⟨a, ha⟩ | h
  · cases a <;> simp [change, fundingAuthChange, delayedFeeChange, feeChange] at ha
  · simp [managerChange, hmanager] at h

theorem managerFeeAccount_notMem_changeset (haccount : sp.managerFeeAccount = spc.managerFeeAccount)
    (old new : Pubkey) : .managerFeeAccount old new ∉ spc.changeset lib sp := by
  intro h
  rcases exists_change_of_mem_changeset h with ⟨a, ha⟩ | h
  · cases a <;> simp [change, fundingAuthChange, delayedFeeChange, feeChange, haccount] at ha
  · simp [managerChange] at h

end SyncPoolConfig

/-! ## The created pool -/

namespace NewPool

open SyncPoolConfig

variable {lib : StakePoolLib Pubkey} (horder : lib.FeeOrder) (np : NewPool Pubkey)
include horder

/-- **Fees are only lowered**, and the epoch fee is not changed. -/
theorem lt_of_fee_mem_changeset {old new : FeeType}
    (h : .fee old new ∈ np.syncPoolConfig.changeset lib (np.dummyCreatedPool lib)) :
    lib.compareFeeType new old = some .lt ∧ ∀ fee, new ≠ .epoch fee := by
  obtain ⟨hne, hkind⟩ := fee_of_mem_changeset h
  rw [← Bool.not_eq_true, horder.eqFeeType] at hne
  rcases hkind with ⟨k, rfl, rfl⟩ | ⟨k, rfl, rfl⟩
  · cases k with
    | epoch => exact absurd (congrArg some (horder.refl np.epochFee)) hne
    | solWithdrawal =>
      refine ⟨congrArg some (cmpFee_selectHigherFee_right horder ?_), by simp [DelayedFee.kind]⟩
      exact fun heq => hne (congrArg some heq)
    | stakeWithdrawal =>
      refine ⟨congrArg some (cmpFee_selectHigherFee_left horder ?_), by simp [DelayedFee.kind]⟩
      exact fun heq => hne (congrArg some heq)
  · cases k with
    | solDeposit =>
      refine ⟨congrArg some (cmpFee_selectHigherFee_right horder ?_),
        by simp [ImmediateFee.configured]⟩
      exact fun heq => hne (congrArg some heq)
    | stakeDeposit =>
      refine ⟨congrArg some (cmpFee_selectHigherFee_left horder ?_),
        by simp [ImmediateFee.configured]⟩
      exact fun heq => hne (congrArg some heq)
    | solReferral =>
      refine ⟨congrArg some (compare_depositReferralFee (.inr rfl) ?_),
        by simp [ImmediateFee.configured]⟩
      exact fun heq => hne (congrArg some (Std.compare_eq_iff_eq.mpr heq))
    | stakeReferral =>
      refine ⟨congrArg some (compare_depositReferralFee (.inl rfl) ?_),
        by simp [ImmediateFee.configured]⟩
      exact fun heq => hne (congrArg some (Std.compare_eq_iff_eq.mpr heq))

end NewPool

/-! ## The config file -/

/-- A pool with the settings of a config file, as they have been read into a new pool. Withdrawal
fees may be pending. -/
structure ConfigRaw.SetIn (lib : StakePoolLib Pubkey) (cli : CliLib Pubkey) (cfg : ConfigRaw Pubkey)
    (np : NewPool Pubkey) (sp : StakePool Pubkey) : Prop where
  manager : sp.manager = np.manager
  managerFeeAccount : sp.managerFeeAccount = (cfg.managerFeeAccount.bind cli.pubkeySrc).getD
    (cli.findAtaAddress np.manager np.mint np.mintOwner)
  staker : sp.staker = (cfg.staker.bind cli.pubkeySrc).getD np.manager
  stakeDepositAuthority : sp.stakeDepositAuthority =
    (cfg.stakeDepositAuth.bind cli.pubkeySrc).getD (lib.findDepositAuthority np.programId np.pool)
  solDepositAuthority : sp.solDepositAuthority = cfg.solDepositAuth.bind cli.pubkeySrc
  solWithdrawAuthority : sp.solWithdrawAuthority = cfg.solWithdrawAuth.bind cli.pubkeySrc
  epochFee : lib.cmpFee sp.epochFee (cfg.epochFee.getD lib.zeroFee) = .eq
  stakeDepositFee : lib.cmpFee sp.stakeDepositFee (cfg.stakeDepositFee.getD lib.zeroFee) = .eq
  solDepositFee : lib.cmpFee sp.solDepositFee (cfg.solDepositFee.getD lib.zeroFee) = .eq
  stakeReferralFee : sp.stakeReferralFee = cfg.stakeDepositReferralFee.getD 0
  solReferralFee : sp.solReferralFee = cfg.solDepositReferralFee.getD 0
  stakeWithdrawalFee :
    lib.cmpFee sp.stakeWithdrawalFee (cfg.stakeWithdrawalFee.getD lib.zeroFee) = .eq ∨
      sp.nextStakeWithdrawalFee = .two (cfg.stakeWithdrawalFee.getD lib.zeroFee)
  solWithdrawalFee :
    lib.cmpFee sp.solWithdrawalFee (cfg.solWithdrawalFee.getD lib.zeroFee) = .eq ∨
      sp.nextSolWithdrawalFee = .two (cfg.solWithdrawalFee.getD lib.zeroFee)

/-- A sync for the settings of a config file, as they have been read into a new pool. -/
structure SyncPoolConfig.IsOf (lib : StakePoolLib Pubkey) (cli : CliLib Pubkey)
    (cfg : ConfigRaw Pubkey) (np : NewPool Pubkey) (spc : SyncPoolConfig Pubkey) : Prop where
  programId : spc.programId = np.programId
  pool : spc.pool = np.pool
  newManager : spc.newManager = np.manager
  managerFeeAccount : spc.managerFeeAccount = (cfg.managerFeeAccount.bind cli.pubkeySrc).getD
    (cli.findAtaAddress np.manager np.mint np.mintOwner)
  staker : spc.staker = (cfg.staker.bind cli.pubkeySrc).getD np.manager
  stakeDepositAuth : spc.newStakeDepositAuth lib = (cfg.stakeDepositAuth.bind cli.pubkeySrc).bind
    (filterDefaultStakeDepositAuth · (lib.findDepositAuthority np.programId np.pool))
  solDepositAuth : spc.solDepositAuth = cfg.solDepositAuth.bind cli.pubkeySrc
  solWithdrawAuth : spc.solWithdrawAuth = cfg.solWithdrawAuth.bind cli.pubkeySrc
  epochFee : spc.epochFee = cfg.epochFee.getD lib.zeroFee
  stakeDepositFee : spc.stakeDepositFee = cfg.stakeDepositFee.getD lib.zeroFee
  solDepositFee : spc.solDepositFee = cfg.solDepositFee.getD lib.zeroFee
  stakeDepositReferralFee : spc.stakeDepositReferralFee = cfg.stakeDepositReferralFee.getD 0
  solDepositReferralFee : spc.solDepositReferralFee = cfg.solDepositReferralFee.getD 0
  stakeWithdrawalFee : spc.stakeWithdrawalFee = cfg.stakeWithdrawalFee.getD lib.zeroFee
  solWithdrawalFee : spc.solWithdrawalFee = cfg.solWithdrawalFee.getD lib.zeroFee

section

open SyncPoolConfig

variable {lib : StakePoolLib Pubkey} {cli : CliLib Pubkey} {sendMode : TxSendMode} {payer : Pubkey}
  {fetched : CreatePoolFetched Pubkey} {cfg : ConfigRaw Pubkey}

/-- A pool in which no fee was pending has the settings of the file once the goals of a sync for it
are reached: a fee that has not been emitted is the one of the file. -/
theorem SyncPoolConfig.IsOf.setIn_of_goals (horder : lib.FeeOrder) {np : NewPool Pubkey}
    {spc : SyncPoolConfig Pubkey} (hof : spc.IsOf lib cli cfg np) {sp sp' : StakePool Pubkey}
    (hepoch : sp.epochFee = spc.epochFee) (hnone : ∀ k : DelayedFee, k.next sp = .none)
    (hmanager : sp'.manager = spc.newManager)
    (hcurrent : ∀ k : DelayedFee, k.current sp' = k.current sp)
    (hgoals : ∀ a, spc.Goal lib sp a sp') : cfg.SetIn lib cli np sp' := by
  have hfees : ∀ k : ImmediateFee,
      lib.compareFeeType (k.current sp') (k.configured spc) = some .eq :=
    fun k => (horder.eqFeeType _ _).mp (hgoals (.fee k))
  have hdelayed : ∀ k : DelayedFee, lib.cmpFee (k.current sp') (k.configured spc) = .eq ∨
      k.next sp' = .two (k.configured spc) := by
    intro k
    have hgoal := hgoals (.delayedFee k)
    simp only [Goal] at hgoal
    split_ifs at hgoal with hsome
    · exact .inr hgoal
    · left
      rw [hcurrent, ← horder.eq, ← k.eqFeeType_kind horder.feeEquality]
      simpa [change, delayedFeeChange, hnone] using hsome
  have hstakeDeposit : filterDefaultStakeDepositAuth sp'.stakeDepositAuthority
      (lib.findDepositAuthority spc.programId spc.pool) = spc.newStakeDepositAuth lib :=
    hgoals (.fundingAuth .stakeDeposit)
  rw [hof.programId, hof.pool, hof.stakeDepositAuth] at hstakeDeposit
  have hsame : sp'.epochFee = sp.epochFee := hcurrent .epoch
  constructor
  · exact hmanager.trans hof.newManager
  · rw [← hof.managerFeeAccount]
    exact hgoals .managerFeeAccount
  · rw [← hof.staker]
    exact hgoals .staker
  · exact eq_getD_of_filterDefault hstakeDeposit
  · rw [← hof.solDepositAuth]
    exact hgoals (.fundingAuth .solDeposit)
  · rw [← hof.solWithdrawAuth]
    exact hgoals (.fundingAuth .solWithdraw)
  · rw [hsame, hepoch, hof.epochFee]
    exact horder.refl _
  · rw [← hof.stakeDepositFee]
    exact Option.some.inj (hfees .stakeDeposit)
  · rw [← hof.solDepositFee]
    exact Option.some.inj (hfees .solDeposit)
  · rw [← hof.stakeDepositReferralFee]
    exact Std.compare_eq_iff_eq.mp (Option.some.inj (hfees .stakeReferral))
  · rw [← hof.solDepositReferralFee]
    exact Std.compare_eq_iff_eq.mp (Option.some.inj (hfees .solReferral))
  · rw [← hof.stakeWithdrawalFee]
    exact hdelayed .stakeWithdrawal
  · rw [← hof.solWithdrawalFee]
    exact hdelayed .solWithdrawal

/-- The sync at the end of `create-pool` is for the settings of its file. -/
theorem CreatePoolArgs.isOf_of_newPool {np : NewPool Pubkey}
    (hnp : newPool lib cli sendMode payer fetched cfg = .ok np) :
    np.syncPoolConfig.IsOf lib cli cfg np := by
  have hreads := (newPool_eq_ok.mp hnp).1
  obtain ⟨feeAccount, hfee, hfeeAccount⟩ := hreads.managerFeeAccount
  obtain ⟨staker, hstaker, hstaker'⟩ := hreads.staker
  obtain ⟨auth, hauth, hauth'⟩ := hreads.stakeDepositAuth
  have hdeposit : np.syncPoolConfig.newStakeDepositAuth lib =
      (cfg.stakeDepositAuth.bind cli.pubkeySrc).bind
        (filterDefaultStakeDepositAuth · (lib.findDepositAuthority np.programId np.pool)) := by
    rw [← eq_bind_of_parsePubkeyOpt hauth]
    show np.stakeDepositAuth.bind _ = _
    rw [hauth']
    cases auth with
    | none => rfl
    | some pk => exact filterDefault_bind _ _
  exact {
    programId := rfl
    pool := rfl
    newManager := rfl
    managerFeeAccount := eq_bind_of_parsePubkeyOpt hfee ▸ hfeeAccount
    staker := eq_bind_of_parsePubkeyOpt hstaker ▸ hstaker'
    stakeDepositAuth := hdeposit
    solDepositAuth := eq_bind_of_parsePubkeyOpt hreads.solDepositAuth
    solWithdrawAuth := eq_bind_of_parsePubkeyOpt hreads.solWithdrawAuth
    epochFee := hreads.epochFee
    stakeDepositFee := hreads.stakeDepositFee
    solDepositFee := hreads.solDepositFee
    stakeDepositReferralFee := hreads.stakeDepositReferralFee
    solDepositReferralFee := hreads.solDepositReferralFee
    stakeWithdrawalFee := hreads.stakeWithdrawalFee
    solWithdrawalFee := hreads.solWithdrawalFee }

/-- A run is computed from the new pool. -/
theorem CreatePoolArgs.run_eq_ok {hashSet : HashSetCollect Pubkey} {run : CreatePoolRun Pubkey}
    (h : CreatePoolArgs.run lib cli hashSet sendMode payer fetched cfg = .ok run) :
    newPool lib cli sendMode payer fetched cfg = .ok run.newPool ∧
      run.changeset =
        run.newPool.syncPoolConfig.changeset lib (run.newPool.dummyCreatedPool lib) ∧
      run.syncPoolIxs = run.newPool.syncPoolConfig.changesetIxs lib run.changeset := by
  unfold CreatePoolArgs.run at h
  obtain ⟨np, hnp, h⟩ := bind_eq_ok.mp h
  obtain ⟨validators, -, h⟩ := bind_eq_ok.mp h
  obtain rfl := Except.ok.inj h
  exact ⟨hnp, rfl, rfl⟩

/-- **Creating a pool reaches its config.** For every config file: the sync after `Initialize` is
executed, lowers the fees it changes, leaves the epoch fee, the manager and the manager's fee
account alone, and reaches the staker, authorities and fees of the file or, for the withdrawal
fees, has them pending. -/
theorem create_pool_reaches_config (horder : lib.FeeOrder) {hashSet : HashSetCollect Pubkey}
    {run : CreatePoolRun Pubkey}
    (h : CreatePoolArgs.run lib cli hashSet sendMode payer fetched cfg = .ok run) :
    (∀ old new, .fee old new ∈ run.changeset →
      lib.compareFeeType new old = some .lt ∧ ∀ fee, new ≠ .epoch fee) ∧
    (∀ old new, .manager old new ∉ run.changeset) ∧
    (∀ old new, .managerFeeAccount old new ∉ run.changeset) ∧
    ∃ sp', execAll lib run.newPool.programId run.newPool.pool run.syncPoolIxs
        (run.newPool.dummyCreatedPool lib) = some sp' ∧
      sp'.staker = (cfg.staker.bind cli.pubkeySrc).getD run.newPool.manager ∧
      sp'.stakeDepositAuthority = (cfg.stakeDepositAuth.bind cli.pubkeySrc).getD
        (lib.findDepositAuthority run.newPool.programId run.newPool.pool) ∧
      sp'.solDepositAuthority = cfg.solDepositAuth.bind cli.pubkeySrc ∧
      sp'.solWithdrawAuthority = cfg.solWithdrawAuth.bind cli.pubkeySrc ∧
      lib.cmpFee sp'.stakeDepositFee (cfg.stakeDepositFee.getD lib.zeroFee) = .eq ∧
      lib.cmpFee sp'.solDepositFee (cfg.solDepositFee.getD lib.zeroFee) = .eq ∧
      sp'.stakeReferralFee = cfg.stakeDepositReferralFee.getD 0 ∧
      sp'.solReferralFee = cfg.solDepositReferralFee.getD 0 ∧
      (lib.cmpFee sp'.stakeWithdrawalFee (cfg.stakeWithdrawalFee.getD lib.zeroFee) = .eq ∨
        sp'.nextStakeWithdrawalFee = .two (cfg.stakeWithdrawalFee.getD lib.zeroFee)) ∧
      (lib.cmpFee sp'.solWithdrawalFee (cfg.solWithdrawalFee.getD lib.zeroFee) = .eq ∨
        sp'.nextSolWithdrawalFee = .two (cfg.solWithdrawalFee.getD lib.zeroFee)) := by
  obtain ⟨hnp, hchangeset, hixs⟩ := CreatePoolArgs.run_eq_ok h
  rw [hixs, hchangeset]
  refine ⟨fun old new hmem => run.newPool.lt_of_fee_mem_changeset horder hmem,
    fun old new => SyncPoolConfig.manager_notMem_changeset rfl old new,
    fun old new => SyncPoolConfig.managerFeeAccount_notMem_changeset rfl old new, ?_⟩
  obtain ⟨sp', hexec, hmanager, hcurrent, hgoals⟩ :=
    @sync_reaches _ _ lib run.newPool.syncPoolConfig (run.newPool.dummyCreatedPool lib)
      horder.feeEquality rfl
  have hset := (CreatePoolArgs.isOf_of_newPool hnp).setIn_of_goals horder rfl
    (fun k => by cases k <;> rfl) hmanager hcurrent hgoals
  exact ⟨sp', hexec, hset.staker, hset.stakeDepositAuthority, hset.solDepositAuthority,
    hset.solWithdrawAuthority, hset.stakeDepositFee, hset.solDepositFee, hset.stakeReferralFee,
    hset.solReferralFee, hset.stakeWithdrawalFee, hset.solWithdrawalFee⟩

end

/-! ## A config file -/

/-- Texts for a few addresses; no text names a signer's file. -/
def CliLib.ofTexts : CliLib Address where
  fromStr := text
  pubkeySrc := text
  parseSigner _ := none
  findAtaAddress wallet mint _ := .transientStake (.wellKnown "ata") wallet mint 0
  splStakePoolProg := .wellKnown "spl"
  sanctumSplStakePoolProg := .key 0
  sanctumSplMultiStakePoolProg := .wellKnown "sanctum-spl-multi"
where
  text (s : String) : Option Address :=
    match s with
    | "pool" => some (.key 1)
    | "validator-list" => some (.key 2)
    | "reserve" => some (.key 3)
    | "mint" => some (.key 4)
    | "staker" => some (.key 5)
    | "stake-deposit-auth" => some (.key 6)
    | _ => none

/-- A config file in which no two of the fees that `Initialize` merges are equal, and of the two
deposit authorities only one is there. -/
def ConfigRaw.unequal : ConfigRaw Address where
  program := some .sanctumSpl
  pool := some "pool"
  validatorList := some "validator-list"
  reserve := some ⟨"reserve", none⟩
  mint := some "mint"
  maxValidators := some 2
  staker := some "staker"
  stakeDepositAuth := some "stake-deposit-auth"
  stakeDepositReferralFee := some 5
  stakeDepositFee := some ⟨10, 1⟩
  solDepositFee := some ⟨20, 1⟩
  solWithdrawalFee := some ⟨100, 1⟩

/-- Nothing exists yet but the mint. -/
def CreatePoolFetched.mintOnly : CreatePoolFetched Address where
  rent := Rent.default
  mint pk :=
    if pk = .key 4 then some ⟨.wellKnown "token", some ⟨some (.key 100), 0, 9, none⟩⟩ else none
  exists? _ := false
  reserve _ := none

theorem create_pool_reaches_config_unequal : ∃ run sp',
    CreatePoolArgs.run StakePoolLib.symbolic CliLib.ofTexts (.dedup Address) .dumpMsg (.key 100)
      CreatePoolFetched.mintOnly ConfigRaw.unequal = .ok run ∧
    execAll StakePoolLib.symbolic (.key 0) (.key 1) run.syncPoolIxs
      (run.newPool.dummyCreatedPool StakePoolLib.symbolic) = some sp' ∧
    sp'.staker = .key 5 ∧ sp'.stakeDepositAuthority = .key 6 ∧ sp'.solDepositAuthority = none ∧
    sp'.stakeReferralFee = 5 ∧ sp'.solReferralFee = 0 := by
  obtain ⟨run, h⟩ : ∃ run, CreatePoolArgs.run StakePoolLib.symbolic CliLib.ofTexts
      (.dedup Address) .dumpMsg (.key 100) CreatePoolFetched.mintOnly ConfigRaw.unequal =
        .ok run := ⟨_, rfl⟩
  obtain ⟨-, -, -, sp', hexec, hstaker, hstakeDeposit, hsolDeposit, -, -, -, hstakeReferral,
    hsolReferral, -⟩ := create_pool_reaches_config StakePoolLib.feeOrder_symbolic h
  have hprogram : run.newPool.programId = .key 0 ∧ run.newPool.pool = .key 1 := by
    obtain rfl := Except.ok.inj h
    exact ⟨rfl, rfl⟩
  rw [hprogram.1, hprogram.2] at hexec
  exact ⟨run, sp', h, hexec, hstaker, hstakeDeposit, hsolDeposit, hstakeReferral, hsolReferral⟩

end StakePoolCli
