import StakePoolCli.Interface.Symbolic
import StakePoolCli.Subcmd.Deposit

/-!
# The token account of a deposit

A deposit whose token account is missing either creates it, when it is the ATA of the depositor, or
stops. What a command makes of its token account is one of the three decisions of `MintToDecision`,
and the rest of its run is what the decision leaves of it (`MintToDecision.outcome`).

* `deposit-sol` decides about the account that it deposits to (`run_depositSol`), and so treats it
  as it should for every set of accounts (`treatsMintTo_depositSol`).
* `deposit-stake` decides about the ATA instead (`run_depositStake`). It treats the account that it
  deposits to as it should iff the two accounts both exist or both do not
  (`deposits_treat_mintTo_alike_iff`).
-/

namespace StakePoolCli

open Checked

variable {Pubkey : Type}

/-! ## Decisions -/

/-- What a deposit does about its token account. -/
inductive MintToDecision
  | abort
  | createAta
  | proceed
  deriving DecidableEq, Repr

namespace MintToDecision

/-- Only the ATA is created when it is missing. -/
def of (missing isAta : Prop) [Decidable missing] [Decidable isAta] : MintToDecision :=
  if ¬ missing then proceed else if isAta then createAta else abort

/-- What a decision leaves of a run that would end with `rest`. -/
def outcome (createAtaIx : DepositIx Pubkey) (rest : Except Panic (DepositRun Pubkey)) :
    MintToDecision → Except Panic (DepositRun Pubkey)
  | abort => .error mintToMissing
  | createAta => do
    let deposit ← rest
    .ok { deposit with ixs := createAtaIx :: deposit.ixs }
  | proceed => rest

section

variable {missing missing' isAta : Prop} [Decidable missing] [Decidable missing'] [Decidable isAta]

theorem of_eq_abort_iff : of missing isAta = abort ↔ missing ∧ ¬ isAta := by
  unfold of
  split_ifs <;> simp [*]

theorem of_eq_createAta_iff : of missing isAta = createAta ↔ missing ∧ isAta := by
  unfold of
  split_ifs <;> simp [*]

theorem of_eq_proceed_iff : of missing isAta = proceed ↔ ¬ missing := by
  unfold of
  split_ifs <;> simp [*]

end

/-- The decisions have different outcomes, for a run that goes on. -/
theorem outcome_injective (createAtaIx : DepositIx Pubkey) (deposit : DepositRun Pubkey) :
    Function.Injective (outcome createAtaIx (.ok deposit)) := by
  intro decision decision' h
  -- a list of instructions is not the same list with one more in front
  cases decision <;> cases decision' <;> simp_all [outcome, DepositRun.ext_iff]

theorem outcome_eq_mintToMissing_iff {createAtaIx : DepositIx Pubkey}
    {rest : Except Panic (DepositRun Pubkey)} (hrest : rest ≠ .error mintToMissing)
    {decision : MintToDecision} :
    decision.outcome createAtaIx rest = .error mintToMissing ↔ decision = abort := by
  cases decision with
  | abort => exact iff_of_true rfl rfl
  | proceed => exact iff_of_false hrest (by decide)
  | createAta =>
    refine iff_of_false (fun h => ?_) (by decide)
    rcases bind_eq_error.mp h with h | ⟨deposit, -, h⟩
    · exact hrest h
    · cases h

end MintToDecision

variable [DecidableEq Pubkey] {lib : StakePoolLib Pubkey} {cli : CliLib Pubkey}
  {accounts : Accounts Pubkey} {fullIxSeq : FullIxSeq Pubkey}

/-- The code that both commands run is a decision about the account that it is given. -/
theorem createAtaIxs_bind (d : DepositTo Pubkey) (payer : Pubkey)
    (maybeFetched : Option (DataAccount Pubkey)) (rest : Except Panic (DepositRun Pubkey)) :
    (do
      let ixs ← d.createAtaIxs lib payer maybeFetched
      let deposit ← rest
      .ok { deposit with ixs := ixs ++ deposit.ixs }) =
    (MintToDecision.of (maybeFetched = none) (d.mintTo = d.authorityAta)).outcome
      (d.createAtaIx lib payer) rest := by
  unfold DepositTo.createAtaIxs MintToDecision.of
  cases maybeFetched with
  | none =>
    by_cases hata : d.mintTo = d.authorityAta
    · simp [hata, MintToDecision.outcome]
    · simp [hata, MintToDecision.outcome]
  | some acc =>
    cases rest with
    | error e => rfl
    | ok deposit => rfl

/-! ## What a deposit should do -/

/-- A deposit treats its token account as it should. The account is the one that is given, or the
ATA. The deposit stops when it is missing and not the ATA, creates it first when it is missing and
the ATA, and otherwise goes on without; if a later step stops the run, then as that step does. -/
structure TreatsMintTo (cli : CliLib Pubkey) (accounts : Accounts Pubkey) (arg : Option String)
    (d : DepositTo Pubkey) (createAtaIx : DepositIx Pubkey)
    (rest run : Except Panic (DepositRun Pubkey)) : Prop where
  authorityAta : d.authorityAta =
    cli.findAtaAddress d.authority d.decodedPool.poolMint d.decodedPool.tokenProgram
  mintTo : d.mintTo = (arg.bind cli.pubkeySrc).getD d.authorityAta
  abort_iff : run = .error mintToMissing ↔
    accounts d.mintTo = none ∧ d.mintTo ≠ d.authorityAta
  createAta_iff : ∀ deposit, rest = .ok deposit →
    (run = .ok { deposit with ixs := createAtaIx :: deposit.ixs } ↔
      accounts d.mintTo = none ∧ d.mintTo = d.authorityAta)
  proceed_iff : ∀ deposit, rest = .ok deposit → (run = .ok deposit ↔ accounts d.mintTo ≠ none)
  stops : ∀ e, rest = .error e → run = .error mintToMissing ∨ run = .error e

omit [DecidableEq Pubkey] in
/-- The token account is the one that is given, or the ATA. -/
theorem ofArg_eq_ok {pool programId authority : Pubkey} {decodedPool : StakePool Pubkey}
    {arg : Option String} {d : DepositTo Pubkey}
    (h : DepositTo.ofArg cli pool programId decodedPool authority arg = .ok d) :
    d.authorityAta =
        cli.findAtaAddress d.authority d.decodedPool.poolMint d.decodedPool.tokenProgram ∧
      d.mintTo = (arg.bind cli.pubkeySrc).getD d.authorityAta := by
  obtain ⟨mintTo, hmint, h⟩ := bind_eq_ok.mp h
  obtain rfl := Except.ok.inj h
  rw [← eq_bind_of_parsePubkeyOpt hmint]
  exact ⟨rfl, rfl⟩

/-- A decision about an account treats the token account as it should iff the two are missing
together. -/
theorem treatsMintTo_iff {arg : Option String} {d : DepositTo Pubkey}
    {createAtaIx : DepositIx Pubkey} {rest run : Except Panic (DepositRun Pubkey)} {missing : Prop}
    [Decidable missing]
    (hauthorityAta : d.authorityAta =
      cli.findAtaAddress d.authority d.decodedPool.poolMint d.decodedPool.tokenProgram)
    (hmintTo : d.mintTo = (arg.bind cli.pubkeySrc).getD d.authorityAta)
    (hrest : rest ≠ .error mintToMissing)
    (hata : d.mintTo = d.authorityAta → (missing ↔ accounts d.mintTo = none))
    (hrun : run =
      (MintToDecision.of missing (d.mintTo = d.authorityAta)).outcome createAtaIx rest) :
    TreatsMintTo cli accounts arg d createAtaIx rest run ↔
      (missing ↔ accounts d.mintTo = none) := by
  have habort : run = .error mintToMissing ↔ missing ∧ d.mintTo ≠ d.authorityAta := by
    rw [hrun, MintToDecision.outcome_eq_mintToMissing_iff hrest, MintToDecision.of_eq_abort_iff]
  have hdecides : ∀ deposit, rest = .ok deposit → ∀ decision : MintToDecision,
      run = decision.outcome createAtaIx (.ok deposit) ↔
        MintToDecision.of missing (d.mintTo = d.authorityAta) = decision := by
    rintro deposit rfl decision
    rw [hrun]
    exact (MintToDecision.outcome_injective createAtaIx deposit).eq_iff
  constructor
  · intro h
    by_cases heq : d.mintTo = d.authorityAta
    · exact hata heq
    · have hiff := habort.symm.trans h.abort_iff
      simpa [heq] using hiff
  · intro hiff
    refine ⟨hauthorityAta, hmintTo, ?_, fun deposit hdeposit => ?_, fun deposit hdeposit => ?_,
      fun e he => ?_⟩
    · rw [habort, hiff]
    · rw [← hiff, ← MintToDecision.of_eq_createAta_iff]
      exact hdecides deposit hdeposit .createAta
    · rw [ne_eq, ← hiff, ← @MintToDecision.of_eq_proceed_iff _ (d.mintTo = d.authorityAta)]
      exact hdecides deposit hdeposit .proceed
    · rw [hrun, he]
      cases MintToDecision.of missing (d.mintTo = d.authorityAta) with
      | abort => exact .inl rfl
      | createAta => exact .inr rfl
      | proceed => exact .inr rfl

/-! ## `deposit-sol` -/

section

variable {args : DepositSolArgs Pubkey} {d : DepositTo Pubkey}
  {updates : List (List (UpdateIx Pubkey))}

omit [DecidableEq Pubkey] in
theorem DepositSolArgs.ofArg_of_prepare (h : args.prepare lib cli accounts = .ok (d, updates)) :
    ∃ pool programId decodedPool authority,
      DepositTo.ofArg cli pool programId decodedPool authority args.mintTo = .ok d := by
  obtain ⟨from', -, h⟩ := bind_eq_ok.mp h
  obtain ⟨pool, -, h⟩ := bind_eq_ok.mp h
  obtain ⟨fetchedPool, -, h⟩ := bind_eq_ok.mp h
  obtain ⟨decodedPool, -, h⟩ := bind_eq_ok.mp h
  obtain ⟨d', hd, h⟩ := bind_eq_ok.mp h
  obtain ⟨epoch, -, h⟩ := bind_eq_ok.mp h
  obtain ⟨validators, -, h⟩ := bind_eq_ok.mp h
  obtain ⟨updates', -, h⟩ := bind_eq_ok.mp h
  obtain ⟨rfl, rfl⟩ := Prod.mk.inj (Except.ok.inj h)
  exact ⟨_, _, _, _, hd⟩

/-- `deposit-sol` decides about the account that it deposits to. -/
theorem run_depositSol (h : args.prepare lib cli accounts = .ok (d, updates)) :
    args.run lib cli accounts =
      (MintToDecision.of (accounts d.mintTo = none) (d.mintTo = d.authorityAta)).outcome
        (d.createAtaIx lib args.payer) (.ok (args.deposit lib d updates)) := by
  rw [DepositSolArgs.run, h, ← createAtaIxs_bind]
  rfl

/-- **`deposit-sol` treats its token account as it should.** -/
theorem treatsMintTo_depositSol (h : args.prepare lib cli accounts = .ok (d, updates)) :
    TreatsMintTo cli accounts args.mintTo d (d.createAtaIx lib args.payer)
      (.ok (args.deposit lib d updates)) (args.run lib cli accounts) := by
  obtain ⟨_, _, _, _, hd⟩ := DepositSolArgs.ofArg_of_prepare h
  obtain ⟨hauthorityAta, hmintTo⟩ := ofArg_eq_ok hd
  have hrest : (.ok (args.deposit lib d updates) : Except Panic (DepositRun Pubkey)) ≠
      .error mintToMissing := by
    intro h
    cases h
  exact (treatsMintTo_iff hauthorityAta hmintTo hrest (fun _ => Iff.rfl)
    (run_depositSol h)).mpr Iff.rfl

end

/-! ## `deposit-stake` -/

section

variable {args : DepositStakeArgs Pubkey} {d : DepositStakeTo Pubkey}

theorem DepositStakeArgs.ofArg_of_prepare (h : args.prepare lib cli accounts = .ok d) :
    ∃ pool programId decodedPool authority,
      DepositTo.ofArg cli pool programId decodedPool authority args.mintTo =
        .ok d.toDepositTo := by
  obtain ⟨authority, -, h⟩ := bind_eq_ok.mp h
  obtain ⟨pool, -, h⟩ := bind_eq_ok.mp h
  obtain ⟨stakeAccount, -, h⟩ := bind_eq_ok.mp h
  obtain ⟨fetchedStakeAccount, -, h⟩ := bind_eq_ok.mp h
  obtain ⟨fetchedPool, -, h⟩ := bind_eq_ok.mp h
  obtain ⟨decodedPool, -, h⟩ := bind_eq_ok.mp h
  obtain ⟨stakeState, -, h⟩ := bind_eq_ok.mp h
  obtain ⟨voter, -, h⟩ := bind_eq_ok.mp h
  obtain ⟨-, -, h⟩ := bind_eq_ok.mp h
  obtain ⟨d', hd, h⟩ := bind_eq_ok.mp h
  obtain ⟨epoch, -, h⟩ := bind_eq_ok.mp h
  obtain rfl := Except.ok.inj h
  exact ⟨_, _, _, _, hd⟩

omit [DecidableEq Pubkey] in
theorem validatorListEntries_eq_error {decodedPool : StakePool Pubkey} {e : Panic}
    (h : validatorListEntries accounts decodedPool = .error e) : e = .unwrapNone := by
  rcases bind_eq_error.mp h with h | ⟨acc, -, h⟩
  · exact (unwrap_eq_error.mp h).2
  rcases bind_eq_error.mp h with h | ⟨validatorList, -, h⟩
  · exact (unwrap_eq_error.mp h).2
  · cases h

/-- What comes after the decision does not stop as the decision does. -/
theorem deposit_ne_mintToMissing :
    DepositStakeArgs.deposit accounts fullIxSeq d ≠ .error mintToMissing := by
  intro h
  rcases bind_eq_error.mp h with h | ⟨validators, -, h⟩
  · cases validatorListEntries_eq_error h
  rcases bind_eq_error.mp h with h | ⟨vsi, -, h⟩
  · exact absurd (expect_eq_error.mp h).2 (by decide)
  rcases bind_eq_error.mp h with h | ⟨ixs, -, h⟩
  · cases (unwrap_eq_error.mp h).2
  rcases bind_eq_error.mp h with h | ⟨updates, -, h⟩
  · cases updatePool_eq_error h
  · cases h

/-- `deposit-stake` decides about the ATA. -/
theorem run_depositStake (h : args.prepare lib cli accounts = .ok d) :
    args.run lib cli accounts fullIxSeq =
      (MintToDecision.of (accounts d.authorityAta = none) (d.mintTo = d.authorityAta)).outcome
        (d.createAtaIx lib args.payer) (DepositStakeArgs.deposit accounts fullIxSeq d) := by
  rw [DepositStakeArgs.run, h, ← createAtaIxs_bind]
  rfl

/-- `deposit-stake` treats its token account as it should iff it is missing when the ATA is. -/
theorem treatsMintTo_depositStake_iff (h : args.prepare lib cli accounts = .ok d) :
    TreatsMintTo cli accounts args.mintTo d.toDepositTo (d.createAtaIx lib args.payer)
        (DepositStakeArgs.deposit accounts fullIxSeq d) (args.run lib cli accounts fullIxSeq) ↔
      (accounts d.authorityAta = none ↔ accounts d.mintTo = none) := by
  obtain ⟨_, _, _, _, hd⟩ := DepositStakeArgs.ofArg_of_prepare h
  obtain ⟨hauthorityAta, hmintTo⟩ := ofArg_eq_ok hd
  exact treatsMintTo_iff hauthorityAta hmintTo deposit_ne_mintToMissing
    (fun hata => by rw [hata]) (run_depositStake h)

end

/-! ## Both -/

/-- Two runs with the same token account make the same decision about it. -/
def DecideAlike (lib : StakePoolLib Pubkey) (cli : CliLib Pubkey) (accounts : Accounts Pubkey)
    (fullIxSeq : FullIxSeq Pubkey) (sol : DepositSolArgs Pubkey) (stake : DepositStakeArgs Pubkey)
    (d : DepositTo Pubkey) (updates : List (List (UpdateIx Pubkey)))
    (d' : DepositStakeTo Pubkey) : Prop :=
  ∃ decision : MintToDecision,
    sol.run lib cli accounts =
      decision.outcome (d.createAtaIx lib sol.payer) (.ok (sol.deposit lib d updates)) ∧
    stake.run lib cli accounts fullIxSeq =
      decision.outcome (d'.createAtaIx lib stake.payer)
        (DepositStakeArgs.deposit accounts fullIxSeq d')

/-- The decisions are the same iff the accounts that they are about are missing together. -/
theorem decideAlike_iff {sol : DepositSolArgs Pubkey} {stake : DepositStakeArgs Pubkey}
    {d : DepositTo Pubkey} {updates : List (List (UpdateIx Pubkey))} {d' : DepositStakeTo Pubkey}
    (hsol : sol.prepare lib cli accounts = .ok (d, updates))
    (hstake : stake.prepare lib cli accounts = .ok d') (hmintTo : d'.mintTo = d.mintTo)
    (hata : d'.authorityAta = d.authorityAta) :
    DecideAlike lib cli accounts fullIxSeq sol stake d updates d' ↔
      (accounts d'.authorityAta = none ↔ accounts d'.mintTo = none) := by
  constructor
  · rintro ⟨decision, hsolRun, hstakeRun⟩
    by_cases heq : d'.mintTo = d'.authorityAta
    · rw [heq]
    · -- neither creates the account, so what the decisions tell apart is whether a run stops
      rw [run_depositSol hsol, (MintToDecision.outcome_injective _ _).eq_iff] at hsolRun
      have habort := @MintToDecision.outcome_eq_mintToMissing_iff _
        (d'.createAtaIx lib stake.payer) _
        (@deposit_ne_mintToMissing _ _ accounts fullIxSeq d')
      have hiff : decision = .abort ↔
          MintToDecision.of (accounts d'.authorityAta = none) (d'.mintTo = d'.authorityAta) =
            .abort := by
        rw [← habort, ← hstakeRun, run_depositStake hstake, habort]
      rw [← hsolRun, MintToDecision.of_eq_abort_iff, MintToDecision.of_eq_abort_iff, ← hmintTo,
        ← hata] at hiff
      simpa [heq] using hiff.symm
  · intro hiff
    refine ⟨_, run_depositSol hsol, ?_⟩
    rw [hmintTo, hata] at hiff
    rw [run_depositStake hstake]
    simp only [hmintTo, hata, hiff]

/-- **The two deposits treat their token account alike** exactly when it is missing iff the ATA is:
`deposit-sol` always treats it as it should, `deposit-stake` does exactly then, and exactly then do
the two make the same decision. -/
theorem deposits_treat_mintTo_alike_iff (lib : StakePoolLib Pubkey) (cli : CliLib Pubkey)
    (accounts : Accounts Pubkey) (fullIxSeq : FullIxSeq Pubkey) :
    (∀ (sol : DepositSolArgs Pubkey) d updates,
      sol.prepare lib cli accounts = .ok (d, updates) →
      TreatsMintTo cli accounts sol.mintTo d (d.createAtaIx lib sol.payer)
        (.ok (sol.deposit lib d updates)) (sol.run lib cli accounts)) ∧
    (∀ (stake : DepositStakeArgs Pubkey) d, stake.prepare lib cli accounts = .ok d →
      (TreatsMintTo cli accounts stake.mintTo d.toDepositTo (d.createAtaIx lib stake.payer)
          (DepositStakeArgs.deposit accounts fullIxSeq d)
          (stake.run lib cli accounts fullIxSeq) ↔
        (accounts d.authorityAta = none ↔ accounts d.mintTo = none))) ∧
    ∀ (sol : DepositSolArgs Pubkey) (stake : DepositStakeArgs Pubkey) d updates d',
      sol.prepare lib cli accounts = .ok (d, updates) →
      stake.prepare lib cli accounts = .ok d' →
      d'.mintTo = d.mintTo → d'.authorityAta = d.authorityAta →
      (DecideAlike lib cli accounts fullIxSeq sol stake d updates d' ↔
        (accounts d'.authorityAta = none ↔ accounts d'.mintTo = none)) :=
  ⟨fun _ _ _ h => treatsMintTo_depositSol h, fun _ _ h => treatsMintTo_depositStake_iff h,
    fun _ _ _ _ _ hsol hstake hmintTo hata => decideAlike_iff hsol hstake hmintTo hata⟩

/-! ## A wallet with savings -/

/-- The texts of a command line; an ATA is the address that its three parts derive. -/
def CliLib.deposits : CliLib Address where
  fromStr := text
  pubkeySrc := text
  parseSigner _ := none
  findAtaAddress wallet mint tokenProgram := .validatorStake wallet tokenProgram mint none
  splStakePoolProg := .key 0
  sanctumSplStakePoolProg := .wellKnown "sanctum-spl"
  sanctumSplMultiStakePoolProg := .wellKnown "sanctum-spl-multi"
where
  text (s : String) : Option Address :=
    match s with
    | "pool" => some (.key 1)
    | "stake-account" => some (.key 20)
    | "savings" => some (.key 30)
    | _ => none

/-- A stake account is handed over to the pool's deposit authority and then deposited. The data is
without the bytes of addresses. -/
def FullIxSeq.symbolic : FullIxSeq Address := fun accs programId voteAccount seed minTokensOut =>
  let authorize (authority : UInt8) : RawInstruction Address :=
    { programId := .wellKnown "stake_program"
      accounts := [⟨accs.stakeDepositing, false, true⟩, ⟨.wellKnown "clock", false, false⟩,
        ⟨.key 2, true, false⟩]
      data := [1, 0, 0, 0, authority, 0, 0, 0] }
  let deposit : RawInstruction Address :=
    { programId
      accounts := [⟨accs.pool, false, true⟩, ⟨accs.stakePool.validatorList, false, true⟩,
        ⟨accs.stakePool.stakeDepositAuthority, false, false⟩,
        ⟨.withdrawAuthority programId accs.pool, false, false⟩,
        ⟨accs.stakeDepositing, false, true⟩,
        ⟨.validatorStake programId accs.pool voteAccount (NonZeroU32.new seed), false, true⟩,
        ⟨accs.stakePool.reserveStake, false, true⟩, ⟨accs.mintTo, false, true⟩,
        ⟨accs.stakePool.managerFeeAccount, false, true⟩, ⟨accs.referralFeeDest, false, true⟩,
        ⟨accs.stakePool.poolMint, false, true⟩, ⟨.wellKnown "clock", false, false⟩,
        ⟨.wellKnown "stake_history", false, false⟩, ⟨accs.stakePool.tokenProgram, false, false⟩,
        ⟨.wellKnown "stake_program", false, false⟩]
      data := 23 :: toLeBytes minTokensOut }
  some [authorize 0, authorize 1, deposit]

/-- An account that a deposit reads nothing from. -/
def DataAccount.ofOwner (owner : Address) : DataAccount Address := ⟨owner, none, none, none, none⟩

/-- A pool with one validator, a stake account that is delegated to it, and one token account. -/
def accountsWith (tokenAccount : Address) : Accounts Address := fun pk =>
  if pk = .key 1 then some { DataAccount.ofOwner (.key 0) with stakePool := some .fresh }
  else if pk = .key 102 then
    some { DataAccount.ofOwner (.key 0) with
      validatorList := some ⟨1, [⟨2000000000, 0, 6, 0, 0, .active, .key 10⟩]⟩ }
  else if pk = .key 20 then
    some { DataAccount.ofOwner (.wellKnown "stake_program") with
      stakeState := some (.stake ⟨.key 2, .key 2⟩ (.key 10)) }
  else if pk = .wellKnown "clock" then
    some { DataAccount.ofOwner (.wellKnown "sysvar") with epoch := some 6 }
  else if pk = tokenAccount then some (DataAccount.ofOwner (.wellKnown "token_program"))
  else none

/-- A deposit of one SOL by the wallet `key 2`. -/
def solTo (mintTo : Option String) : DepositSolArgs Address :=
  ⟨.sendActual, .key 2, none, mintTo, "pool", 1000000000⟩

/-- A deposit of the stake account by the same wallet. -/
def stakeTo (mintTo : Option String) : DepositStakeArgs Address :=
  ⟨.sendActual, .key 2, none, mintTo, "pool", "stake-account"⟩

/-- Both deposit to the ATA of a wallet that has none yet. -/
theorem deposits_treat_mintTo_alike_defaulting : ∃ d updates d',
    (solTo none).prepare StakePoolLib.symbolic CliLib.deposits (accountsWith (.key 30)) =
      .ok (d, updates) ∧
    (stakeTo none).prepare StakePoolLib.symbolic CliLib.deposits (accountsWith (.key 30)) =
      .ok d' ∧
    TreatsMintTo CliLib.deposits (accountsWith (.key 30)) none d'.toDepositTo
      (d'.createAtaIx StakePoolLib.symbolic (.key 2))
      (DepositStakeArgs.deposit (accountsWith (.key 30)) FullIxSeq.symbolic d')
      ((stakeTo none).run StakePoolLib.symbolic CliLib.deposits (accountsWith (.key 30))
        FullIxSeq.symbolic) ∧
    DecideAlike StakePoolLib.symbolic CliLib.deposits (accountsWith (.key 30)) FullIxSeq.symbolic
      (solTo none) (stakeTo none) d updates d' := by
  obtain ⟨-, hstake, hboth⟩ := deposits_treat_mintTo_alike_iff StakePoolLib.symbolic
    CliLib.deposits (accountsWith (.key 30)) FullIxSeq.symbolic
  exact ⟨_, _, _, rfl, rfl, (hstake (stakeTo none) _ rfl).mpr Iff.rfl,
    (hboth (solTo none) (stakeTo none) _ _ _ rfl rfl rfl rfl).mpr Iff.rfl⟩

/-- `deposit-stake` refuses to deposit to a token account that exists, because the wallet has no
ATA; `deposit-sol` deposits to it. -/
theorem deposit_stake_refuses_savings : ∃ d updates d',
    (solTo (some "savings")).prepare StakePoolLib.symbolic CliLib.deposits
      (accountsWith (.key 30)) = .ok (d, updates) ∧
    (stakeTo (some "savings")).prepare StakePoolLib.symbolic CliLib.deposits
      (accountsWith (.key 30)) = .ok d' ∧
    d.mintTo = .key 30 ∧ d'.mintTo = .key 30 ∧ (accountsWith (.key 30) (.key 30)).isSome ∧
    (solTo (some "savings")).run StakePoolLib.symbolic CliLib.deposits (accountsWith (.key 30)) =
      .ok ((solTo (some "savings")).deposit StakePoolLib.symbolic d updates) ∧
    (stakeTo (some "savings")).run StakePoolLib.symbolic CliLib.deposits (accountsWith (.key 30))
      FullIxSeq.symbolic = .error mintToMissing ∧
    ¬ TreatsMintTo CliLib.deposits (accountsWith (.key 30)) (some "savings") d'.toDepositTo
      (d'.createAtaIx StakePoolLib.symbolic (.key 2))
      (DepositStakeArgs.deposit (accountsWith (.key 30)) FullIxSeq.symbolic d')
      ((stakeTo (some "savings")).run StakePoolLib.symbolic CliLib.deposits
        (accountsWith (.key 30)) FullIxSeq.symbolic) := by
  refine ⟨_, _, _, rfl, rfl, rfl, rfl, rfl, rfl, rfl, fun htreats => ?_⟩
  have hmissing := (htreats.abort_iff.mp rfl).1
  cases hmissing

end StakePoolCli
