import StakePoolCli.Pool.Sync
import StakePoolCli.Subcmd.SyncPool
import StakePoolCli.Subcmd.SyncValidatorList

/-!
# A listed pool syncs to itself

`listing_syncs_quietly`: the config file that `list --verbose` prints for a pool changes nothing
when it is given back to `sync-pool` or `sync-validator-list`, in any send mode.

What the file says is read back by the parsers of both commands (`parsePubkeyOpt_display`,
`psFallback_display`), as a config that `Describes` the pool; the changeset of such a config is
empty (`changeset_eq_nil_of_describes`).
-/

namespace StakePoolCli

open Checked Chunks

variable {Pubkey : Type} [DecidableEq Pubkey]

/-- What `list --verbose` prints for a pool. -/
def ConfigRaw.listing (lib : StakePoolLib Pubkey) (cli : CliLib Pubkey) (programId pool : Pubkey)
    (sp : StakePool Pubkey) (reserveLamports : UInt64) (validatorList : ValidatorList Pubkey) :
    ConfigRaw Pubkey :=
  ((((({} : ConfigRaw Pubkey).setPoolPk lib pool).setProgram cli programId).setPool lib programId
    pool sp).setReserve lib sp.reserveStake reserveLamports).setValidatorList lib programId pool
    validatorList

variable {lib : StakePoolLib Pubkey} {cli : CliLib Pubkey}

/-- It is what the command prints. -/
theorem ListArgs.run_verbose {text : String} {pool programId : Pubkey} {sp : StakePool Pubkey}
    {reserveLamports : UInt64} {validatorList : ValidatorList Pubkey} {fetched : ListFetched Pubkey}
    (htext : cli.pubkeySrc text = some pool) (hpool : fetched.pool pool = some ⟨programId, sp⟩)
    (hreserve : fetched.reserveLamports sp.reserveStake = some reserveLamports)
    (hlist : fetched.validatorList sp.validatorList = some validatorList) :
    ListArgs.run lib cli ⟨true, text⟩ fetched =
      .ok (ConfigRaw.listing lib cli programId pool sp reserveLamports validatorList) := by
  simp [ListArgs.run, parsePubkey, htext, hpool, hreserve, hlist, ConfigRaw.listing]

/-! ## The settings -/

namespace SyncPoolConfig

variable (lib) in
/-- A config whose settings are those of the pool. -/
structure Describes (spc : SyncPoolConfig Pubkey) (sp : StakePool Pubkey) : Prop where
  fundingAuth : ∀ ty, spc.newFundingAuth lib ty = spc.fundingAuth lib sp ty
  delayedFee : ∀ k : DelayedFee, k.configured spc = k.current sp
  fee : ∀ k : ImmediateFee, k.configured spc = k.current sp
  staker : spc.staker = sp.staker
  managerFeeAccount : spc.managerFeeAccount = sp.managerFeeAccount
  newManager : spc.newManager = sp.manager

/-- A pool has nothing to change towards a config that describes it, whatever is pending. -/
theorem changeset_eq_nil_of_describes (hrefl : ∀ f, lib.eqFeeType f f = true)
    {spc : SyncPoolConfig Pubkey} {sp : StakePool Pubkey} (h : spc.Describes lib sp) :
    spc.changeset lib sp = [] := by
  have hnone : ∀ a, spc.change lib sp a = none := by
    intro a
    cases a with
    | fundingAuth ty => simp [change, fundingAuthChange, h.fundingAuth]
    | delayedFee k => simp [change, delayedFeeChange, h.delayedFee, hrefl]
    | fee k => simp [change, feeChange, h.fee, hrefl]
    | staker => simp [change, h.staker]
    | managerFeeAccount => simp [change, h.managerFeeAccount]
  rw [changeset_eq, managerChange, if_neg (not_not.mpr h.newManager.symm), List.append_nil]
  exact List.filterMap_eq_nil_iff.mpr fun a _ => hnone a

end SyncPoolConfig

section

variable {programId pool : Pubkey} {sp : StakePool Pubkey} {reserveLamports : UInt64}
  {validatorList : ValidatorList Pubkey} (hround : cli.RoundTrip lib)
include hround

/-- The stake deposit authority in the listing is the one that is not the default. -/
theorem parse_listing_stakeDepositAuth :
    parsePubkeyOpt cli (ConfigRaw.listing lib cli programId pool sp reserveLamports
        validatorList).stakeDepositAuth =
      .ok (filterDefaultStakeDepositAuth sp.stakeDepositAuthority
        (lib.findDepositAuthority programId pool)) := by
  rw [← parsePubkeyOpt_display hround]
  congr 1
  by_cases h : sp.stakeDepositAuthority = lib.findDepositAuthority programId pool <;>
    simp [ConfigRaw.listing, ConfigRaw.setValidatorList, ConfigRaw.setReserve, ConfigRaw.setPool,
      filterDefaultStakeDepositAuth, h]

/-- `sync-pool` reads from the listing of a pool a config that describes it. -/
theorem syncPoolConfig_listing (sendMode : TxSendMode) :
    ∃ spc, SyncPoolArgs.syncPoolConfig lib cli sendMode sp.manager
        (ConfigRaw.listing lib cli programId pool sp reserveLamports validatorList) pool
        ⟨programId, sp⟩ = .ok spc ∧ spc.Describes lib sp := by
  have hmanager : psFallback cli sendMode sp.manager (some (lib.display sp.manager)) =
      .ok sp.manager := by
    rw [psFallback_display hround]
    cases sendMode <;> rfl
  have hopt := parsePubkeyOpt_display hround
  let cfg := ConfigRaw.listing lib cli programId pool sp reserveLamports validatorList
  have hnewManager : psFallback cli sendMode sp.manager cfg.manager = .ok sp.manager := hmanager
  have holdManager : psFallback cli sendMode sp.manager cfg.oldManager = .ok sp.manager := rfl
  have hfeeAccount : parsePubkeyOpt cli cfg.managerFeeAccount = .ok (some sp.managerFeeAccount) :=
    hopt (some sp.managerFeeAccount)
  have hstaker : parsePubkeyOpt cli cfg.staker = .ok (some sp.staker) := hopt (some sp.staker)
  have hsolDeposit : parsePubkeyOpt cli cfg.solDepositAuth = .ok sp.solDepositAuthority := hopt _
  have hsolWithdraw : parsePubkeyOpt cli cfg.solWithdrawAuth = .ok sp.solWithdrawAuthority :=
    hopt _
  have hstakeDeposit : parsePubkeyOpt cli cfg.stakeDepositAuth =
      .ok (filterDefaultStakeDepositAuth sp.stakeDepositAuthority
        (lib.findDepositAuthority programId pool)) := parse_listing_stakeDepositAuth hround
  show ∃ spc, SyncPoolArgs.syncPoolConfig lib cli sendMode sp.manager cfg pool _ = _ ∧ _
  unfold SyncPoolArgs.syncPoolConfig
  simp only [holdManager, hnewManager, hfeeAccount, hstaker, hsolDeposit, hsolWithdraw,
    hstakeDeposit, ok_bind, ne_eq, not_true_eq_false, if_false, Except.ok.injEq, exists_eq_left']
  refine ⟨fun ty => ?_, fun k => ?_, fun k => ?_, rfl, rfl, rfl⟩
  · cases ty with
    | stakeDeposit => exact filterDefault_bind _ _
    | solDeposit | solWithdraw => rfl
  · cases k <;> rfl
  · cases k <;> rfl

/-! ## The validator list -/

/-- `sync-validator-list` reads from the listing of a pool its votes and preferred validators. -/
theorem ofConfig_listing (hashSet : HashSetCollect Pubkey) (sendMode : TxSendMode)
    (payer : Pubkey) :
    ∃ args, SyncValidatorListArgs.ofConfig cli hashSet sendMode payer
        (ConfigRaw.listing lib cli programId pool sp reserveLamports validatorList) = .ok args ∧
      args.pool = pool ∧
      args.preferredDepositValidator = sp.preferredDepositValidatorVoteAddress ∧
      args.preferredWithdrawValidator = sp.preferredWithdrawValidatorVoteAddress ∧
      ∀ v, v ∈ args.validators.toList ↔
        v ∈ validatorList.validators.map (·.voteAccountAddress) := by
  have hopt := parsePubkeyOpt_display hround
  let cfg := ConfigRaw.listing lib cli programId pool sp reserveLamports validatorList
  obtain ⟨staker, hstaker⟩ : ∃ staker, psFallback cli sendMode payer cfg.staker = .ok staker :=
    ⟨_, psFallback_display hround sendMode payer sp.staker⟩
  have hdeposit : parsePubkeyOpt cli cfg.preferredDepositValidator =
      .ok sp.preferredDepositValidatorVoteAddress := hopt _
  have hwithdraw : parsePubkeyOpt cli cfg.preferredWithdrawValidator =
      .ok sp.preferredWithdrawValidatorVoteAddress := hopt _
  have hpoolText : cfg.pool = some (lib.display pool) := rfl
  have hvotes : (cfg.validators.getD []).mapM (fun v => unwrap (cli.fromStr v.vote)) =
      .ok (validatorList.validators.map (·.voteAccountAddress)) := by
    rw [mapM_eq_ok_iff_map_eq]
    show ((validatorList.validators.map _).map _) = _
    simp [ValidatorConfigRaw.map, ValidatorConfigRaw.fromVsiProgramPool, hround.fromStr]
  show ∃ args, SyncValidatorListArgs.ofConfig cli hashSet sendMode payer cfg = _ ∧ _
  unfold SyncValidatorListArgs.ofConfig
  simp only [hstaker, hdeposit, hwithdraw, hpoolText, unwrap_some, parsePubkey_display hround,
    hvotes, ok_bind, Except.ok.injEq, exists_eq_left', true_and]
  exact hashSet.mem_collect _

end

namespace SyncValidatorListConfig

variable {svlc : SyncValidatorListConfig Pubkey} {entries : List (ValidatorStakeInfo Pubkey)}

/-- A config with the votes of a list, under any status, has nothing to add to it or to remove. -/
theorem addRemoveChangeset_eq_nil
    (h : ∀ v, v ∈ svlc.validators.toList ↔ v ∈ entries.map (·.voteAccountAddress)) :
    svlc.addRemoveChangeset entries = ([], []) := by
  rw [addRemoveChangeset_eq]
  apply Prod.ext
  · apply KeySync.missing_eq_nil
    intro v hv
    exact List.mem_map.mp ((h v).mp hv)
  · apply KeySync.surplus_eq_nil
    intro vsi hvsi _
    exact (h _).mpr (List.mem_map_of_mem hvsi)

theorem preferredValidatorChangeset_eq_nil {sp : StakePool Pubkey}
    (hdeposit : svlc.preferredDepositValidator = sp.preferredDepositValidatorVoteAddress)
    (hwithdraw : svlc.preferredWithdrawValidator = sp.preferredWithdrawValidatorVoteAddress) :
    svlc.preferredValidatorChangeset sp = [] := by
  simp [preferredValidatorChangeset, hdeposit, hwithdraw]

end SyncValidatorListConfig

/-! ## The listing -/

/-- **A listed pool syncs to itself.** `sync-pool` with its listing, paid for by its manager, finds
nothing to change; `sync-validator-list` with it, apart from updating the pool, does nothing. -/
theorem listing_syncs_quietly (lib : StakePoolLib Pubkey) (cli : CliLib Pubkey)
    (hashSet : HashSetCollect Pubkey) (hround : cli.RoundTrip lib)
    (hrefl : ∀ f, lib.eqFeeType f f = true) (programId pool : Pubkey) (sp : StakePool Pubkey)
    (reserveLamports : UInt64) (validatorList : ValidatorList Pubkey) (sendMode : TxSendMode) :
    let cfg := ConfigRaw.listing lib cli programId pool sp reserveLamports validatorList
    (∀ fetchedPool, fetchedPool pool = some ⟨programId, sp⟩ →
      SyncPoolArgs.run lib cli sendMode sp.manager cfg fetchedPool = .ok ⟨[], []⟩) ∧
    ∀ (payer : Pubkey) (fetched : Fetched Pubkey), fetched.programId = programId →
      fetched.stakePool = sp → fetched.validators = validatorList.validators →
      ∃ args, SyncValidatorListArgs.ofConfig cli hashSet sendMode payer cfg = .ok args ∧
        args.pool = pool ∧
        (args.syncValidatorListConfig fetched).addRemoveChangeset fetched.validators = ([], []) ∧
        (args.syncValidatorListConfig fetched).preferredValidatorChangeset fetched.stakePool = [] ∧
        args.run lib fetched = (do
          let updateTxs ← updatePool (args.updatePoolArgs fetched)
          .ok ⟨updateTxs, [], [], [], [], []⟩) := by
  intro cfg
  constructor
  · intro fetchedPool hpool
    obtain ⟨spc, hspc, hdescribes⟩ := @syncPoolConfig_listing _ _ lib cli programId pool sp
      reserveLamports validatorList hround sendMode
    have hnil := SyncPoolConfig.changeset_eq_nil_of_describes hrefl hdescribes
    have hpoolText : cfg.pool = some (lib.display pool) := rfl
    simp only [SyncPoolArgs.run, hpoolText, unwrap_some, ok_bind, parsePubkey_display hround, hpool,
      cfg, hspc, hnil, if_true]
  · rintro payer fetched hprogram rfl hvalidators
    obtain ⟨args, hargs, hpool, hdeposit, hwithdraw, hvotes⟩ :=
      @ofConfig_listing _ _ lib cli programId pool fetched.stakePool reserveLamports validatorList
        hround hashSet sendMode payer
    have hsets : (args.syncValidatorListConfig fetched).addRemoveChangeset fetched.validators =
        ([], []) := by
      apply SyncValidatorListConfig.addRemoveChangeset_eq_nil
      rw [hvalidators]
      exact hvotes
    have hpreferred := @SyncValidatorListConfig.preferredValidatorChangeset_eq_nil _ _
      (args.syncValidatorListConfig fetched) fetched.stakePool hdeposit hwithdraw
    refine ⟨args, hargs, hpool, hsets, hpreferred, ?_⟩
    simp only [SyncValidatorListArgs.run, hsets, hpreferred]
    rfl

/-! ## A listing -/

/-- A library whose addresses are numbers, written in unary. -/
def StakePoolLib.unary : StakePoolLib ℕ where
  minActiveStake := 1000000
  lamportsForNewVsa rent := saturatingAdd (rent.minimumBalance stakeStateSize) 1000000
  findWithdrawAuthority programId pool := 10 * (programId + pool)
  findDepositAuthority programId pool := 10 * (programId + pool) + 1
  findValidatorStakeAccount programId pool vote _ := 10 * (programId + pool + vote) + 2
  findTransientStakeAccount programId pool vote _ := 10 * (programId + pool + vote) + 3
  findEphemeralStakeAccount programId pool _ := 10 * (programId + pool) + 4
  cmpFeeEq f g := f.rate = g.rate
  cmpFee f g := compare (f.rate.1 * g.rate.2) (g.rate.1 * f.rate.2)
  eqFeeType f g := f.rate = g.rate
  zeroFee := ⟨1, 0⟩
  display n := String.ofList (List.replicate n '1')
  defaultPubkey := 0
  clock := 5
  rent := 6
  stakeHistory := 7
  stakeConfig := 8
  systemProgram := 0
  stakeProgram := 9

/-- The texts that are numbers in unary are read as such. -/
def CliLib.unary : CliLib ℕ where
  fromStr := number
  pubkeySrc := number
  parseSigner _ := none
  findAtaAddress wallet mint tokenProgram := 10 * (wallet + mint + tokenProgram) + 5
  splStakePoolProg := 2
  sanctumSplStakePoolProg := 3
  sanctumSplMultiStakePoolProg := 4
where
  number (s : String) : Option ℕ :=
    if s = StakePoolLib.unary.display s.length then some s.length else none

theorem CliLib.roundTrip_unary : CliLib.unary.RoundTrip StakePoolLib.unary := by
  have hnumber : ∀ n, CliLib.unary.number (StakePoolLib.unary.display n) = some n := fun n => by
    simp [CliLib.unary.number, StakePoolLib.unary]
  have hfromStr : CliLib.unary.fromStr = CliLib.unary.number := rfl
  have hpubkeySrc : CliLib.unary.pubkeySrc = CliLib.unary.number := rfl
  constructor
  · rw [hfromStr]
    exact hnumber
  · rw [hpubkeySrc]
    exact hnumber

/-- A pool of the SPL program with a deposit authority of its own and a fee pending, and a list
with an entry that is being wound down. -/
def StakePool.pending : StakePool ℕ where
  manager := 20
  staker := 21
  stakeDepositAuthority := 22
  validatorList := 23
  reserveStake := 24
  poolMint := 25
  managerFeeAccount := 26
  tokenProgram := 27
  totalLamports := 3000000000
  poolTokenSupply := 3000000000
  lastUpdateEpoch := 7
  epochFee := ⟨100, 6⟩
  nextEpochFee := .two ⟨100, 5⟩
  preferredDepositValidatorVoteAddress := some 31
  preferredWithdrawValidatorVoteAddress := none
  stakeDepositFee := ⟨1, 0⟩
  stakeWithdrawalFee := ⟨1000, 1⟩
  nextStakeWithdrawalFee := .none
  stakeReferralFee := 50
  solDepositAuthority := none
  solDepositFee := ⟨1, 0⟩
  solReferralFee := 50
  solWithdrawAuthority := some 28
  solWithdrawalFee := ⟨1000, 1⟩
  nextSolWithdrawalFee := .none
  lastEpochPoolTokenSupply := 3000000000
  lastEpochTotalLamports := 3000000000

def ValidatorList.windingDown : ValidatorList ℕ where
  maxValidators := 10
  validators :=
    [⟨2000000000, 0, 7, 0, 0, .active, 31⟩, ⟨0, 1000000000, 7, 1, 0, .deactivatingAll, 32⟩]

theorem listing_syncs_quietly_windingDown :
    SyncPoolArgs.run StakePoolLib.unary CliLib.unary .sendActual 20
        (ConfigRaw.listing StakePoolLib.unary CliLib.unary 2 1 StakePool.pending 5000000000
          ValidatorList.windingDown)
        (fun pk => if pk = 1 then some ⟨2, StakePool.pending⟩ else none) = .ok ⟨[], []⟩ ∧
      ∃ args, SyncValidatorListArgs.ofConfig CliLib.unary (.dedup ℕ) .dumpMsg 40
          (ConfigRaw.listing StakePoolLib.unary CliLib.unary 2 1 StakePool.pending 5000000000
            ValidatorList.windingDown) = .ok args ∧
        (args.syncValidatorListConfig ⟨2, StakePool.pending, 7, Rent.default,
          ValidatorList.windingDown.validators, 5000000000, fun _ => none⟩).addRemoveChangeset
            ValidatorList.windingDown.validators = ([], []) := by
  have hrefl : ∀ f, StakePoolLib.unary.eqFeeType f f = true := fun f => decide_eq_true rfl
  constructor
  · exact (listing_syncs_quietly StakePoolLib.unary CliLib.unary (.dedup ℕ) CliLib.roundTrip_unary
      hrefl 2 1 StakePool.pending 5000000000 ValidatorList.windingDown .sendActual).1 _ rfl
  · obtain ⟨args, hargs, -, hsets, -⟩ := (listing_syncs_quietly StakePoolLib.unary CliLib.unary
      (.dedup ℕ) CliLib.roundTrip_unary hrefl 2 1 StakePool.pending 5000000000
      ValidatorList.windingDown .dumpMsg).2 40
      ⟨2, StakePool.pending, 7, Rent.default, ValidatorList.windingDown.validators, 5000000000,
        fun _ => none⟩ rfl rfl rfl
    exact ⟨args, hargs, hsets⟩

end StakePoolCli
