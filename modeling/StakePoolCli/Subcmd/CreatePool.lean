import StakePoolCli.PoolConfig.SyncPool
import StakePoolCli.Subcmd.SyncValidatorList

/-!
# `create-pool`

`subcmd/create_pool.rs`. The program's `Initialize` takes one fee where a config has two, one for
SOL and one for stake, and one deposit authority where a config has two. The pool is initialized
with the higher fees and with the stake deposit authority; then its validators are added, and then
it is synced with the config like any other pool (`PoolConfig/SyncPool.lean`).

The sync does not fetch the new pool. It is computed against `dummyCreatedPool`, the pool as it
should be after `Initialize`, so that it can be dumped before the pool exists.

What creates the accounts and initializes them is in `PoolConfig/Create.lean`.
-/

namespace StakePoolCli

open Checked Chunks

variable {Pubkey : Type}

/-! ## What is fetched -/

structure Mint (Pubkey : Type) where
  mintAuthority : Option Pubkey
  supply : UInt64
  decimals : UInt8
  freezeAuthority : Option Pubkey

/-- The account of a mint. `data` is `none` when it cannot be unpacked. -/
structure MintAccount (Pubkey : Type) where
  owner : Pubkey
  data : Option (Mint Pubkey)

/-- `Authorized::auto` -/
def Authorized.auto (pk : Pubkey) : Authorized Pubkey := ⟨pk, pk⟩

/-- `reserve` is the authorities of a stake account, `none` in one that is not initialized. -/
structure CreatePoolFetched (Pubkey : Type) where
  rent : Rent
  mint : Pubkey → Option (MintAccount Pubkey)
  exists? : Pubkey → Bool
  reserve : Pubkey → Option (Option (Authorized Pubkey))

/-- `verify_mint` -/
def verifyMint [DecidableEq Pubkey] (mint : MintAccount Pubkey) (managerPk : Pubkey) :
    Except String Unit :=
  match mint.data with
  | none => .error "Invalid account data"
  | some mint =>
    if mint.decimals ≠ 9 then .error "Mint not of 9 decimals"
    else if mint.freezeAuthority.isSome then .error "Mint has freeze authority"
    else if 0 < mint.supply then .error "Mint has nonzero supply"
    else
      match mint.mintAuthority with
      | none => .error "Mint has no mint authority"
      | some mintAuth =>
        if mintAuth ≠ managerPk then .error "Mint authority not set to manager" else .ok ()

/-! ## The pool to create -/

/-- `CreateConfig`, of `pool_config/create.rs`. -/
structure CreateConfig (Pubkey : Type) where
  mint : Pubkey
  /-- The owner of the mint's account. -/
  mintOwner : Pubkey
  programId : Pubkey
  payer : Pubkey
  pool : Pubkey
  validatorList : Pubkey
  reserve : Pubkey
  manager : Pubkey
  managerFeeAccount : Pubkey
  staker : Pubkey
  depositAuth : Option Pubkey
  depositReferralFee : UInt8
  epochFee : Fee
  withdrawalFee : Fee
  depositFee : Fee
  maxValidators : UInt32
  startingValidators : ℕ
  rent : Rent

/-- The config file of a new pool, with its addresses read and its fees filled in. The stake
deposit authority is `none` when it is the default one. -/
structure NewPool (Pubkey : Type) where
  programId : Pubkey
  payer : Pubkey
  pool : Pubkey
  validatorList : Pubkey
  reserve : Pubkey
  manager : Pubkey
  mint : Pubkey
  mintOwner : Pubkey
  maxValidators : UInt32
  validators : List (ValidatorConfigRaw String)
  rent : Rent
  managerFeeAccount : Pubkey
  stakeDepositReferralFee : UInt8
  solDepositReferralFee : UInt8
  epochFee : Fee
  stakeDepositFee : Fee
  solDepositFee : Fee
  stakeWithdrawalFee : Fee
  solWithdrawalFee : Fee
  staker : Pubkey
  stakeDepositAuth : Option Pubkey
  solDepositAuth : Option Pubkey
  solWithdrawAuth : Option Pubkey
  preferredDepositValidator : Option Pubkey
  preferredWithdrawValidator : Option Pubkey

/-- `select_higher_fee` -/
def selectHigherFee (lib : StakePoolLib Pubkey) (f₁ f₂ : Fee) : Fee :=
  match lib.cmpFee f₁ f₂ with
  | .lt | .eq => f₂
  | .gt => f₁

namespace NewPool

variable (lib : StakePoolLib Pubkey) (np : NewPool Pubkey)

def depositReferralFee : UInt8 :=
  if np.stakeDepositReferralFee > np.solDepositReferralFee then np.stakeDepositReferralFee
  else np.solDepositReferralFee

/-- What the pool is initialized with. The staker is the manager until the end, after everything
that the staker has to sign. -/
def createConfig : CreateConfig Pubkey where
  mint := np.mint
  mintOwner := np.mintOwner
  programId := np.programId
  payer := np.payer
  pool := np.pool
  validatorList := np.validatorList
  reserve := np.reserve
  manager := np.manager
  managerFeeAccount := np.managerFeeAccount
  staker := np.manager
  depositAuth := np.stakeDepositAuth
  depositReferralFee := np.depositReferralFee
  epochFee := np.epochFee
  withdrawalFee := selectHigherFee lib np.stakeWithdrawalFee np.solWithdrawalFee
  depositFee := selectHigherFee lib np.stakeDepositFee np.solDepositFee
  maxValidators := np.maxValidators
  startingValidators := np.validators.length
  rent := np.rent

/-- The pool after `Initialize`, which sets the fees of SOL to those of stake, and the SOL deposit
authority to that of stake if there is one. -/
def dummyCreatedPool : StakePool Pubkey :=
  let cc := np.createConfig lib
  { manager := cc.manager
    staker := cc.staker
    stakeDepositAuthority :=
      np.stakeDepositAuth.getD (lib.findDepositAuthority np.programId np.pool)
    validatorList := cc.validatorList
    reserveStake := cc.reserve
    poolMint := cc.mint
    managerFeeAccount := np.managerFeeAccount
    tokenProgram := cc.mintOwner
    totalLamports := 0
    poolTokenSupply := 0
    lastUpdateEpoch := 0
    epochFee := cc.epochFee
    nextEpochFee := .none
    preferredDepositValidatorVoteAddress := none
    preferredWithdrawValidatorVoteAddress := none
    stakeDepositFee := cc.depositFee
    stakeWithdrawalFee := cc.withdrawalFee
    nextStakeWithdrawalFee := .none
    stakeReferralFee := cc.depositReferralFee
    solDepositAuthority := cc.depositAuth
    solDepositFee := cc.depositFee
    solReferralFee := cc.depositReferralFee
    solWithdrawAuthority := none
    solWithdrawalFee := cc.withdrawalFee
    nextSolWithdrawalFee := .none
    lastEpochPoolTokenSupply := 0
    lastEpochTotalLamports := 0 }

def syncValidatorListConfig (validators : HashSet Pubkey) : SyncValidatorListConfig Pubkey where
  programId := np.programId
  payer := np.payer
  staker := np.manager
  pool := np.pool
  validatorList := np.validatorList
  reserve := np.reserve
  validators
  preferredDepositValidator := np.preferredDepositValidator
  preferredWithdrawValidator := np.preferredWithdrawValidator
  rent := np.rent

def syncPoolConfig : SyncPoolConfig Pubkey where
  programId := np.programId
  pool := np.pool
  payer := np.payer
  manager := np.manager
  newManager := np.manager
  staker := np.staker
  managerFeeAccount := np.managerFeeAccount
  solDepositAuth := np.solDepositAuth
  stakeDepositAuth := np.stakeDepositAuth
  solWithdrawAuth := np.solWithdrawAuth
  epochFee := np.epochFee
  stakeDepositReferralFee := np.stakeDepositReferralFee
  solDepositReferralFee := np.solDepositReferralFee
  stakeWithdrawalFee := np.stakeWithdrawalFee
  solWithdrawalFee := np.solWithdrawalFee
  stakeDepositFee := np.stakeDepositFee
  solDepositFee := np.solDepositFee

end NewPool

/-! ## The command -/

namespace CreatePoolArgs

variable [DecidableEq Pubkey] (lib : StakePoolLib Pubkey) (cli : CliLib Pubkey)
  (hashSet : HashSetCollect Pubkey) (sendMode : TxSendMode) (payer : Pubkey)
  (fetched : CreatePoolFetched Pubkey)

/-- The check that a reserve account that exists already is the pool's. -/
def checkReserve (programId pool reserve : Pubkey) : Except Panic Unit :=
  match fetched.reserve reserve with
  | none => .ok ()
  | some authorized => do
    let spWithdrawAuth := lib.findWithdrawAuthority programId pool
    if (← unwrap authorized) ≠ Authorized.auto spWithdrawAuth then
      .error (.explicit ("Reserve stake has been created but authority is not set to withdraw auth "
        ++ lib.display spWithdrawAuth))
    else .ok ()

/-- The check that a manager fee account that is to be created is the associated one. -/
def checkManagerFeeAccount (managerFeeAccount managerFeeAta : Pubkey) : Except Panic Unit :=
  if fetched.exists? managerFeeAccount = false ∧ managerFeeAccount ≠ managerFeeAta then
    .error (.explicit "Manager fee account does not exist and is not ATA")
  else .ok ()

/-- `CreatePoolArgs::run`, up to the first transaction. -/
def newPool (cfg : ConfigRaw Pubkey) : Except Panic (NewPool Pubkey) := do
  let program ← expect "stake pool program was not provided" cfg.program
  let programId := program.programId cli
  let pool ← ps cli sendMode cfg.pool
  let validatorList ← ps cli sendMode cfg.validatorList
  let reserve ← ps cli sendMode (cfg.reserve.map (·.address))
  let manager ← psFallback cli sendMode payer cfg.manager
  let mint ← parsePubkey cli (← unwrap cfg.mint)
  let maxValidators ← unwrap cfg.maxValidators
  let validators := cfg.validators.getD []
  let startingValidators ← u32TryFrom validators.length
  if startingValidators > maxValidators then
    .error (.explicit "Number of starting validators greater than max")
  else
    let mintAcc ← expect "Mint not initialized" (fetched.mint mint)
    match verifyMint mintAcc manager with
    | .error msg => .error (.explicit msg)
    | .ok () =>
      let managerFeeAta := cli.findAtaAddress manager mint mintAcc.owner
      let managerFeeAccount ← parsePubkeyOpt cli cfg.managerFeeAccount
      let managerFeeAccount := managerFeeAccount.getD managerFeeAta
      let staker ← parsePubkeyOpt cli cfg.staker
      let stakeDepositAuth ← parsePubkeyOpt cli cfg.stakeDepositAuth
      let solDepositAuth ← parsePubkeyOpt cli cfg.solDepositAuth
      let solWithdrawAuth ← parsePubkeyOpt cli cfg.solWithdrawAuth
      let preferredDepositValidator ← parsePubkeyOpt cli cfg.preferredDepositValidator
      let preferredWithdrawValidator ← parsePubkeyOpt cli cfg.preferredWithdrawValidator
      checkReserve lib fetched programId pool reserve
      checkManagerFeeAccount fetched managerFeeAccount managerFeeAta
      .ok {
        programId, payer, pool, validatorList, reserve, manager, mint
        mintOwner := mintAcc.owner
        maxValidators, validators
        rent := fetched.rent
        managerFeeAccount
        stakeDepositReferralFee := cfg.stakeDepositReferralFee.getD 0
        solDepositReferralFee := cfg.solDepositReferralFee.getD 0
        epochFee := cfg.epochFee.getD lib.zeroFee
        stakeDepositFee := cfg.stakeDepositFee.getD lib.zeroFee
        solDepositFee := cfg.solDepositFee.getD lib.zeroFee
        stakeWithdrawalFee := cfg.stakeWithdrawalFee.getD lib.zeroFee
        solWithdrawalFee := cfg.solWithdrawalFee.getD lib.zeroFee
        staker := staker.getD manager
        stakeDepositAuth := stakeDepositAuth.bind
          (filterDefaultStakeDepositAuth · (lib.findDepositAuthority programId pool))
        solDepositAuth, solWithdrawAuth, preferredDepositValidator, preferredWithdrawValidator }

end CreatePoolArgs

/-- What a run of `create-pool` sends after the pool is initialized. -/
structure CreatePoolRun (Pubkey : Type) where
  newPool : NewPool Pubkey
  addTxs : List (List (Instruction Pubkey))
  preferredValidatorIxs : List (Instruction Pubkey)
  changeset : List (SyncPoolChange Pubkey)
  syncPoolIxs : List (Instruction Pubkey)

/-- `CreatePoolArgs::run` -/
def CreatePoolArgs.run [DecidableEq Pubkey] (lib : StakePoolLib Pubkey) (cli : CliLib Pubkey)
    (hashSet : HashSetCollect Pubkey) (sendMode : TxSendMode) (payer : Pubkey)
    (fetched : CreatePoolFetched Pubkey) (cfg : ConfigRaw Pubkey) :
    Except Panic (CreatePoolRun Pubkey) := do
  let newPool ← newPool lib cli sendMode payer fetched cfg
  let validators ← newPool.validators.mapM fun v => unwrap (cli.fromStr v.vote)
  let svlc := newPool.syncValidatorListConfig (hashSet.collect validators)
  -- the validator list is empty at first
  let (add, _) := svlc.addRemoveChangeset []
  let dummyCreatedPool := newPool.dummyCreatedPool lib
  let spc := newPool.syncPoolConfig
  let changeset := spc.changeset lib dummyCreatedPool
  .ok {
    newPool
    addTxs := chunks maxAddValidatorsIxPerTx (svlc.addValidatorsIxs lib add)
    preferredValidatorIxs :=
      svlc.preferredValidatorIxs (svlc.preferredValidatorChangeset dummyCreatedPool)
    changeset
    syncPoolIxs := spc.changesetIxs lib changeset }

/-! ## What a run reads and what it finds -/

namespace CreatePoolArgs

section

variable [DecidableEq Pubkey] {lib : StakePoolLib Pubkey} {cli : CliLib Pubkey}
  {sendMode : TxSendMode} {payer : Pubkey} {fetched : CreatePoolFetched Pubkey}
  {cfg : ConfigRaw Pubkey} {np : NewPool Pubkey}

variable (lib cli sendMode payer cfg np) in
/-- What a new pool has from the config file and the owner of the mint's account. -/
structure Reads : Prop where
  program : ∃ program, cfg.program = some program ∧ np.programId = program.programId cli
  payer_eq : np.payer = payer
  pool : ps cli sendMode cfg.pool = .ok np.pool
  validatorList : ps cli sendMode cfg.validatorList = .ok np.validatorList
  reserve : ps cli sendMode (cfg.reserve.map (·.address)) = .ok np.reserve
  manager : psFallback cli sendMode payer cfg.manager = .ok np.manager
  mint : cfg.mint.bind cli.pubkeySrc = some np.mint
  maxValidators : cfg.maxValidators = some np.maxValidators
  validators : np.validators = cfg.validators.getD []
  starting : ∃ starting, u32TryFrom np.validators.length = .ok starting ∧
    starting ≤ np.maxValidators
  managerFeeAccount : ∃ pk, parsePubkeyOpt cli cfg.managerFeeAccount = .ok pk ∧
    np.managerFeeAccount = pk.getD (cli.findAtaAddress np.manager np.mint np.mintOwner)
  staker : ∃ pk, parsePubkeyOpt cli cfg.staker = .ok pk ∧ np.staker = pk.getD np.manager
  stakeDepositAuth : ∃ pk, parsePubkeyOpt cli cfg.stakeDepositAuth = .ok pk ∧
    np.stakeDepositAuth = pk.bind
      (filterDefaultStakeDepositAuth · (lib.findDepositAuthority np.programId np.pool))
  solDepositAuth : parsePubkeyOpt cli cfg.solDepositAuth = .ok np.solDepositAuth
  solWithdrawAuth : parsePubkeyOpt cli cfg.solWithdrawAuth = .ok np.solWithdrawAuth
  preferredDepositValidator :
    parsePubkeyOpt cli cfg.preferredDepositValidator = .ok np.preferredDepositValidator
  preferredWithdrawValidator :
    parsePubkeyOpt cli cfg.preferredWithdrawValidator = .ok np.preferredWithdrawValidator
  stakeDepositReferralFee : np.stakeDepositReferralFee = cfg.stakeDepositReferralFee.getD 0
  solDepositReferralFee : np.solDepositReferralFee = cfg.solDepositReferralFee.getD 0
  epochFee : np.epochFee = cfg.epochFee.getD lib.zeroFee
  stakeDepositFee : np.stakeDepositFee = cfg.stakeDepositFee.getD lib.zeroFee
  solDepositFee : np.solDepositFee = cfg.solDepositFee.getD lib.zeroFee
  stakeWithdrawalFee : np.stakeWithdrawalFee = cfg.stakeWithdrawalFee.getD lib.zeroFee
  solWithdrawalFee : np.solWithdrawalFee = cfg.solWithdrawalFee.getD lib.zeroFee

variable (lib cli fetched np) in
/-- What a new pool needs of the accounts. -/
structure Finds : Prop where
  rent : np.rent = fetched.rent
  mint : ∃ acc, fetched.mint np.mint = some acc ∧ acc.owner = np.mintOwner ∧
    verifyMint acc np.manager = .ok ()
  reserve : checkReserve lib fetched np.programId np.pool np.reserve = .ok ()
  managerFeeAccount : checkManagerFeeAccount fetched np.managerFeeAccount
    (cli.findAtaAddress np.manager np.mint np.mintOwner) = .ok ()

/-- **The new pool** is read from the file, and the accounts pass their checks. -/
theorem newPool_eq_ok : newPool lib cli sendMode payer fetched cfg = .ok np ↔
    Reads lib cli sendMode payer cfg np ∧ Finds lib cli fetched np := by
  unfold newPool
  constructor
  · intro h
    obtain ⟨program, hprogram, h⟩ := bind_eq_ok.mp h
    obtain ⟨pool, hpool, h⟩ := bind_eq_ok.mp h
    obtain ⟨validatorList, hvalidatorList, h⟩ := bind_eq_ok.mp h
    obtain ⟨reserve, hreserve, h⟩ := bind_eq_ok.mp h
    obtain ⟨manager, hmanager, h⟩ := bind_eq_ok.mp h
    obtain ⟨mintText, hmintText, h⟩ := bind_eq_ok.mp h
    obtain ⟨mint, hmint, h⟩ := bind_eq_ok.mp h
    obtain ⟨maxValidators, hmax, h⟩ := bind_eq_ok.mp h
    obtain ⟨startingValidators, hstarting, h⟩ := bind_eq_ok.mp h
    split at h
    · cases h
    rename_i hle
    obtain ⟨mintAcc, hmintAcc, h⟩ := bind_eq_ok.mp h
    split at h
    · cases h
    rename_i hverify
    obtain ⟨managerFeeAccount, hfee, h⟩ := bind_eq_ok.mp h
    obtain ⟨staker, hstaker, h⟩ := bind_eq_ok.mp h
    obtain ⟨stakeDepositAuth, hstakeDeposit, h⟩ := bind_eq_ok.mp h
    obtain ⟨solDepositAuth, hsolDeposit, h⟩ := bind_eq_ok.mp h
    obtain ⟨solWithdrawAuth, hsolWithdraw, h⟩ := bind_eq_ok.mp h
    obtain ⟨preferredDeposit, hdeposit, h⟩ := bind_eq_ok.mp h
    obtain ⟨preferredWithdraw, hwithdraw, h⟩ := bind_eq_ok.mp h
    obtain ⟨⟨⟩, hcheckReserve, h⟩ := bind_eq_ok.mp h
    obtain ⟨⟨⟩, hcheckFee, h⟩ := bind_eq_ok.mp h
    obtain rfl := Except.ok.inj h
    refine ⟨⟨⟨program, expect_eq_ok.mp hprogram, rfl⟩, rfl, hpool, hvalidatorList, hreserve,
      hmanager, ?_, unwrap_eq_ok.mp hmax, rfl, ⟨startingValidators, hstarting, ?_⟩,
      ⟨managerFeeAccount, hfee, rfl⟩, ⟨staker, hstaker, rfl⟩,
      ⟨stakeDepositAuth, hstakeDeposit, rfl⟩, hsolDeposit, hsolWithdraw, hdeposit, hwithdraw,
      rfl, rfl, rfl, rfl, rfl, rfl, rfl⟩,
      rfl, ⟨mintAcc, expect_eq_ok.mp hmintAcc, rfl, hverify⟩, hcheckReserve, hcheckFee⟩
    · rw [unwrap_eq_ok.mp hmintText]
      exact unwrap_eq_ok.mp hmint
    · exact UInt32.not_lt.mp hle
  · rintro ⟨hreads, hrent, ⟨acc, hacc, howner, hverify⟩, hcheckReserve, hcheckFee⟩
    obtain ⟨programId, payer', pool, validatorList, reserve, manager, mint, mintOwner, max,
      validators, rent, managerFeeAccount⟩ := np
    obtain ⟨⟨program, hprogram, hprogramId⟩, hpayer, hpool, hvalidatorList, hreserve, hmanager,
      hmint, hmax, hvalidators, ⟨starting, hstarting, hle⟩, ⟨feeAccount, hfee, hfeeAccount⟩,
      ⟨staker, hstaker, hstaker'⟩, ⟨stakeDepositAuth, hstakeDeposit, hstakeDeposit'⟩, hsolDeposit,
      hsolWithdraw, hdeposit, hwithdraw, hf₁, hf₂, hf₃, hf₄, hf₅, hf₆, hf₇⟩ := hreads
    obtain ⟨text, htext, hmint⟩ := Option.bind_eq_some_iff.mp hmint
    dsimp only at *
    subst hprogramId hpayer hvalidators hrent howner hstaker' hstakeDeposit' hf₁ hf₂ hf₃ hf₄ hf₅
      hf₆ hf₇
    rw [hprogram, expect_some, ok_bind, hpool, ok_bind, hvalidatorList, ok_bind, hreserve, ok_bind,
      hmanager, ok_bind, htext, unwrap_some, ok_bind, parsePubkey, hmint, unwrap_some, ok_bind,
      hmax, unwrap_some, ok_bind]
    rw [hstarting, ok_bind, if_neg (UInt32.not_lt.mpr hle), hacc, expect_some, ok_bind, hverify]
    dsimp only
    rw [hfee, ok_bind, hstaker, ok_bind, hstakeDeposit, ok_bind, hsolDeposit, ok_bind,
      hsolWithdraw, ok_bind, hdeposit, ok_bind, hwithdraw, ok_bind, hcheckReserve, ok_bind,
      ← hfeeAccount, hcheckFee, ok_bind]

/-- A mint that does not pass its checks stops the command before anything is sent. -/
theorem newPool_of_verifyMint_eq_error (hreads : Reads lib cli sendMode payer cfg np)
    {acc : MintAccount Pubkey} {msg : String} (hacc : fetched.mint np.mint = some acc)
    (hverify : verifyMint acc np.manager = .error msg) :
    newPool lib cli sendMode payer fetched cfg = .error (.explicit msg) := by
  obtain ⟨program, hprogram, -⟩ := hreads.program
  obtain ⟨text, htext, hmint⟩ := Option.bind_eq_some_iff.mp hreads.mint
  obtain ⟨starting, hstarting, hle⟩ := hreads.starting
  rw [hreads.validators] at hstarting
  rw [newPool, hprogram, expect_some, ok_bind, hreads.pool, ok_bind, hreads.validatorList, ok_bind,
    hreads.reserve, ok_bind, hreads.manager, ok_bind, htext, unwrap_some, ok_bind, parsePubkey,
    hmint, unwrap_some, ok_bind, hreads.maxValidators, unwrap_some, ok_bind]
  dsimp only
  rw [hstarting, ok_bind, if_neg (UInt32.not_lt.mpr hle), hacc, expect_some, ok_bind, hverify]

theorem checkReserve_eq_ok {programId pool reserve : Pubkey} :
    checkReserve lib fetched programId pool reserve = .ok () ↔
      ∀ authorized, fetched.reserve reserve = some authorized →
        authorized = some (.auto (lib.findWithdrawAuthority programId pool)) := by
  unfold checkReserve
  cases fetched.reserve reserve with
  | none => simp
  | some authorized =>
    cases authorized with
    | none => simp [unwrap, bind, Except.bind]
    | some authorized =>
      simp only [unwrap_some, ok_bind, Option.some.injEq, forall_eq']
      split_ifs with hne <;> simpa using hne

theorem checkManagerFeeAccount_of_exists {managerFeeAccount managerFeeAta : Pubkey}
    (h : fetched.exists? managerFeeAccount = true) :
    checkManagerFeeAccount fetched managerFeeAccount managerFeeAta = .ok () := by
  rw [checkManagerFeeAccount, if_neg (by simp [h])]

end

end CreatePoolArgs

end StakePoolCli
