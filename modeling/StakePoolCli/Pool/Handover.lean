import StakePoolCli.Pool.CreatePool
import StakePoolCli.Removal.Floor
import StakePoolCli.Subcmd.SetStaker
import StakePoolCli.Subcmd.SyncPool

/-!
# Handing a pool over to a new staker

`set-staker` does one thing that `sync-pool` does as well: from the same config file, both set the
pool's staker, the one on behalf of the current staker and the other on behalf of the manager. Once
`set-staker` has been executed, `sync-pool` has all its other changes left to make and no others
(`changeset_setStaker`), and of the commands of the staker those that check who runs them do nothing
for the old one any more (`StakerCommand.staker_eq_of_ixs`). `set_staker_hands_over` puts this
together.
-/

namespace StakePoolCli

open Checked Sorting

variable {Pubkey : Type}

def SyncPoolChange.isStaker : SyncPoolChange Pubkey → Bool
  | staker _ _ => true
  | _ => false

def StakePool.setStaker (newStaker : Pubkey) (sp : StakePool Pubkey) : StakePool Pubkey :=
  { sp with staker := newStaker }

def PoolAccount.setStaker (newStaker : Pubkey) (acc : PoolAccount Pubkey) : PoolAccount Pubkey :=
  { acc with stakePool := acc.stakePool.setStaker newStaker }

section

variable [DecidableEq Pubkey] {lib : StakePoolLib Pubkey}

/-! ## What is left for `sync-pool` -/

/-- The change of an aspect once the staker is set, which was the config's. -/
theorem SyncPoolConfig.change_setStaker (spc : SyncPoolConfig Pubkey) (sp : StakePool Pubkey)
    (newStaker : Pubkey) (a : Aspect) :
    { spc with staker := newStaker }.change lib (sp.setStaker newStaker) a =
      (spc.change lib sp a).filter fun change => !change.isStaker := by
  cases a with
  | staker =>
    dsimp only [change, StakePool.setStaker]
    rw [if_neg (not_not.mpr rfl)]
    split_ifs <;> rfl
  | managerFeeAccount =>
    dsimp only [change, StakePool.setStaker]
    split_ifs <;> rfl
  | fundingAuth ty =>
    have hsame : { spc with staker := newStaker }.change lib (sp.setStaker newStaker)
        (.fundingAuth ty) = spc.change lib sp (.fundingAuth ty) := by
      cases ty <;> rfl
    rw [hsame]
    dsimp only [change, fundingAuthChange]
    split_ifs <;> rfl
  | delayedFee k =>
    have hsame : { spc with staker := newStaker }.change lib (sp.setStaker newStaker)
        (.delayedFee k) = spc.change lib sp (.delayedFee k) := by
      cases k <;> rfl
    rw [hsame]
    dsimp only [change, delayedFeeChange]
    split_ifs <;> rfl
  | fee k =>
    have hsame : { spc with staker := newStaker }.change lib (sp.setStaker newStaker) (.fee k) =
        spc.change lib sp (.fee k) := by
      cases k <;> rfl
    rw [hsame]
    dsimp only [change, feeChange]
    split_ifs <;> rfl

/-- **What is left** is everything but the staker. -/
theorem SyncPoolConfig.changeset_setStaker (spc : SyncPoolConfig Pubkey) (sp : StakePool Pubkey)
    (newStaker : Pubkey) :
    { spc with staker := newStaker }.changeset lib (sp.setStaker newStaker) =
      (spc.changeset lib sp).filter fun change => !change.isStaker := by
  have hmanager : (spc.managerChange sp).filter (fun change => !change.isStaker) =
      spc.managerChange sp := by
    unfold managerChange
    split_ifs <;> rfl
  rw [changeset_eq, changeset_eq, List.filter_append, hmanager, List.filter_filterMap]
  congr 1
  exact List.filterMap_congr fun a _ => spc.change_setStaker sp newStaker a

/-- The config that a file stands for at the pool with its new staker. -/
theorem SyncPoolArgs.syncPoolConfig_setStaker {cli : CliLib Pubkey} {sendMode : TxSendMode}
    {payer pool newStaker : Pubkey} {staker : Option Pubkey} {cfg : ConfigRaw Pubkey}
    {acc : PoolAccount Pubkey} {spc : SyncPoolConfig Pubkey}
    (hstaker : parsePubkeyOpt cli cfg.staker = .ok staker)
    (h : syncPoolConfig lib cli sendMode payer cfg pool acc = .ok spc) :
    syncPoolConfig lib cli sendMode payer cfg pool (acc.setStaker newStaker) =
      .ok { spc with staker := staker.getD newStaker } := by
  unfold syncPoolConfig at h ⊢
  dsimp only [PoolAccount.setStaker, StakePool.setStaker]
  obtain ⟨oldManager, hold, h⟩ := bind_eq_ok.mp h
  rw [hold, ok_bind]
  split_ifs at h ⊢ with hwrong
  obtain ⟨newManager, hnew, h⟩ := bind_eq_ok.mp h
  obtain ⟨managerFeeAccount, hfee, h⟩ := bind_eq_ok.mp h
  obtain ⟨_, -, h⟩ := bind_eq_ok.mp h
  obtain ⟨solDepositAuth, hsolDeposit, h⟩ := bind_eq_ok.mp h
  obtain ⟨solWithdrawAuth, hsolWithdraw, h⟩ := bind_eq_ok.mp h
  obtain ⟨stakeDepositAuth, hstakeDeposit, h⟩ := bind_eq_ok.mp h
  obtain rfl := Except.ok.inj h
  rw [hnew, ok_bind, hfee, ok_bind, hstaker, ok_bind, hsolDeposit, ok_bind, hsolWithdraw, ok_bind,
    hstakeDeposit, ok_bind]

/-! ## Who runs the commands of the staker -/

theorem checkStaker_eq_ok {stakePool : StakePool Pubkey} {staker : Pubkey} {u : Unit} :
    checkStaker lib stakePool staker = .ok u ↔ staker = stakePool.staker := by
  unfold checkStaker
  split_ifs with h
  · exact ⟨nofun, fun heq => absurd heq h⟩
  · exact ⟨fun _ => not_not.mp h, fun _ => rfl⟩

theorem checkStaker_of_ne {stakePool : StakePool Pubkey} {staker : Pubkey}
    (h : staker ≠ stakePool.staker) :
    checkStaker lib stakePool staker = .error (.explicit ("Wrong staker. Expecting " ++
      lib.display stakePool.staker ++ ", got " ++ lib.display staker)) := if_pos h

/-- Who runs the command. -/
def StakerCommand.staker : StakerCommand Pubkey → Pubkey
  | syncDelegation args => args.staker
  | increaseValidatorStake args | decreaseValidatorStake args => args.staker
  | syncValidatorList args => args.staker

/-- `sync-validator-list` leaves it to the program who the staker is. -/
def StakerCommand.ChecksStaker : StakerCommand Pubkey → Prop
  | syncDelegation _ | increaseValidatorStake _ | decreaseValidatorStake _ => True
  | syncValidatorList _ => False

theorem ValidatorStakeArgs.staker_eq_of_runWith {args : ValidatorStakeArgs Pubkey}
    {fetched : Fetched Pubkey} {desired : StakeStateV2 → Option StakeStateV2 → Except Panic UInt64}
    {ixs : List (Instruction Pubkey)} (h : args.runWith lib fetched desired = .ok ixs) :
    args.staker = fetched.stakePool.staker := by
  obtain ⟨_, hsrc, -⟩ := bind_eq_ok.mp h
  obtain ⟨_, hcheck, -⟩ := bind_eq_ok.mp hsrc
  exact checkStaker_eq_ok.mp hcheck

/-- A command that checks it is run by the current staker, or stops. -/
theorem StakerCommand.staker_eq_of_ixs {sort : StableSort (ValidatorDelegation Pubkey)}
    {cmd : StakerCommand Pubkey} {fetched : Fetched Pubkey} {ixs : List (Instruction Pubkey)}
    (hchecks : cmd.ChecksStaker) (h : cmd.ixs lib sort fetched = .ok ixs) :
    cmd.staker = fetched.stakePool.staker := by
  cases cmd with
  | syncDelegation args =>
    obtain ⟨_, hrun, -⟩ := bind_eq_ok.mp h
    obtain ⟨_, hchanges, -⟩ := bind_eq_ok.mp hrun
    obtain ⟨_, -, hchanges⟩ := bind_eq_ok.mp hchanges
    obtain ⟨_, hcheck, -⟩ := bind_eq_ok.mp hchanges
    exact checkStaker_eq_ok.mp hcheck
  | increaseValidatorStake args | decreaseValidatorStake args =>
    exact ValidatorStakeArgs.staker_eq_of_runWith h
  | syncValidatorList => exact hchecks.elim

/-! ## The handover -/

/-- What `set-staker` sends, if anything, and what it has read. -/
theorem SetStakerArgs.run_eq_ok {cli : CliLib Pubkey} {sendMode : TxSendMode} {payer pool : Pubkey}
    {cfg : ConfigRaw Pubkey} {fetchedPool : Pubkey → Option (PoolAccount Pubkey)}
    {acc : PoolAccount Pubkey} {ixs : List (Instruction Pubkey)}
    (hpool : cfg.pool.bind cli.pubkeySrc = some pool) (hacc : fetchedPool pool = some acc)
    (h : run lib cli sendMode payer cfg fetchedPool = .ok ixs) (hne : ixs ≠ []) :
    ∃ staker, parsePubkeyOpt cli cfg.staker = .ok staker ∧
      psFallback cli sendMode payer cfg.oldStaker = .ok acc.stakePool.staker ∧
      acc.stakePool.staker ≠ staker.getD payer ∧
      ixs = [setStakerIx acc.owner ⟨pool, acc.stakePool.staker, staker.getD payer⟩] := by
  unfold run at h
  obtain ⟨text, htext, h⟩ := bind_eq_ok.mp h
  obtain ⟨pool', hpool', h⟩ := bind_eq_ok.mp h
  obtain ⟨oldStaker, hold, h⟩ := bind_eq_ok.mp h
  obtain ⟨staker, hstaker, h⟩ := bind_eq_ok.mp h
  rw [unwrap_eq_ok.mp htext, Option.bind_some] at hpool
  obtain rfl := Option.some.inj ((unwrap_eq_ok.mp hpool').symm.trans hpool)
  dsimp only at h
  split_ifs at h with hsame
  · exact absurd (Except.ok.inj h).symm hne
  · rw [hacc, unwrap_some, ok_bind] at h
    obtain ⟨_, hcheck, h⟩ := bind_eq_ok.mp h
    obtain rfl := checkStaker_eq_ok.mp hcheck
    exact ⟨staker, hstaker, hold, hsame, (Except.ok.inj h).symm⟩

/-- **`set-staker` hands the pool over.** What it sends names the current staker and a new one. Once
this is the pool's staker, the same command stops, `sync-pool` with the same file makes the
same changes as before but for the staker's, and no command of the staker that checks does anything
for anybody else. -/
theorem set_staker_hands_over {cli : CliLib Pubkey} {sendMode : TxSendMode} {payer pool : Pubkey}
    {cfg : ConfigRaw Pubkey} {fetchedPool : Pubkey → Option (PoolAccount Pubkey)}
    {acc : PoolAccount Pubkey} {ixs : List (Instruction Pubkey)}
    (hpool : cfg.pool.bind cli.pubkeySrc = some pool) (hacc : fetchedPool pool = some acc)
    (hrun : SetStakerArgs.run lib cli sendMode payer cfg fetchedPool = .ok ixs) (hne : ixs ≠ []) :
    ∃ newStaker, newStaker ≠ acc.stakePool.staker ∧
      ixs = [setStakerIx acc.owner ⟨pool, acc.stakePool.staker, newStaker⟩] ∧
      (∀ fetchedPool', fetchedPool' pool = some (acc.setStaker newStaker) →
        SetStakerArgs.run lib cli sendMode payer cfg fetchedPool' =
          .error (.explicit ("Wrong staker. Expecting " ++ lib.display newStaker ++ ", got " ++
            lib.display acc.stakePool.staker))) ∧
      (∀ sendMode' payer' spc,
        SyncPoolArgs.syncPoolConfig lib cli sendMode' payer' cfg pool acc = .ok spc →
        ∃ spc', SyncPoolArgs.syncPoolConfig lib cli sendMode' payer' cfg pool
            (acc.setStaker newStaker) = .ok spc' ∧
          spc'.changeset lib (acc.setStaker newStaker).stakePool =
            (spc.changeset lib acc.stakePool).filter fun change => !change.isStaker) ∧
      ∀ (sort : StableSort (ValidatorDelegation Pubkey)) (cmd : StakerCommand Pubkey) fetched ixs',
        cmd.ChecksStaker → fetched.stakePool = (acc.setStaker newStaker).stakePool →
        cmd.ixs lib sort fetched = .ok ixs' → cmd.staker = newStaker := by
  obtain ⟨staker, hstaker, hold, hdiffer, rfl⟩ := SetStakerArgs.run_eq_ok hpool hacc hrun hne
  refine ⟨staker.getD payer, hdiffer.symm, rfl, ?_, ?_, ?_⟩
  · intro fetchedPool' hacc'
    obtain ⟨text, htext, hpool⟩ := Option.bind_eq_some_iff.mp hpool
    unfold SetStakerArgs.run
    rw [htext, unwrap_some, ok_bind, parsePubkey, hpool, unwrap_some, ok_bind, hold, ok_bind,
      hstaker, ok_bind, if_neg hdiffer, hacc', unwrap_some, ok_bind, checkStaker_of_ne hdiffer]
    rfl
  · intro sendMode' payer' spc hspc
    refine ⟨_, SyncPoolArgs.syncPoolConfig_setStaker hstaker hspc, ?_⟩
    -- a file that does not name the staker leaves the new one in place
    have hsame : staker.getD (staker.getD payer) = staker.getD payer := by
      cases staker <;> rfl
    rw [hsame]
    exact spc.changeset_setStaker acc.stakePool (staker.getD payer)
  · intro sort cmd fetched ixs' hchecks hfetched hixs
    rw [StakerCommand.staker_eq_of_ixs hchecks hixs, hfetched]
    rfl

end

/-- A config file that names a new staker. -/
def ConfigRaw.newStaker : ConfigRaw Address where
  pool := some "pool"
  staker := some "staker"

/-- The staker of a new pool hands it over to `key 5`, once. -/
theorem set_staker_hands_over_keyFive :
    SetStakerArgs.run StakePoolLib.symbolic CliLib.ofTexts .sendActual (.key 101) .newStaker
      (fun _ => some ⟨.key 0, .fresh⟩) =
        .ok [setStakerIx (.key 0) ⟨.key 1, .key 101, .key 5⟩] ∧
    ∃ e, SetStakerArgs.run StakePoolLib.symbolic CliLib.ofTexts .sendActual (.key 101) .newStaker
      (fun _ => some (PoolAccount.setStaker (.key 5) ⟨.key 0, .fresh⟩)) = .error (.explicit e) := by
  have hrun : SetStakerArgs.run StakePoolLib.symbolic CliLib.ofTexts .sendActual (.key 101)
      .newStaker (fun _ => some ⟨.key 0, .fresh⟩) =
        .ok [setStakerIx (.key 0) ⟨.key 1, .key 101, .key 5⟩] := rfl
  obtain ⟨newStaker, -, hixs, hrerun, -, -⟩ :=
    set_staker_hands_over rfl rfl hrun (List.cons_ne_nil _ _)
  obtain rfl : newStaker = .key 5 := by
    have haccounts := congrArg (fun ixs => ixs.map (·.accounts)) hixs
    simp [setStakerIx] at haccounts
    exact haccounts.2.symm
  exact ⟨hrun, _, hrerun _ rfl⟩

end StakePoolCli
