import StakePoolCli.Pool.Program
import StakePoolCli.PoolConfig.SyncPool
import StakePoolCli.Interface.Symbolic

/-!
# Syncing the pool reaches the config

The settings of a pool, one `Aspect` each, and the manager. `sync_reaches`: executing the
instructions of a changeset succeeds and brings every aspect to its goal, by the rule of
`Foundations/Reconcile.lean`; the manager's own change comes last, since no instruction signed by
the old manager is executed after it.

`sync_pool`: the pool then has the settings of the config, and its changeset is empty.
-/

namespace StakePoolCli

variable {Pubkey : Type}

/-- The fees that take effect at an epoch boundary. -/
inductive DelayedFee
  | epoch
  | solWithdrawal
  | stakeWithdrawal

namespace DelayedFee

def kind : DelayedFee → Fee → FeeType
  | epoch => .epoch
  | solWithdrawal => .solWithdrawal
  | stakeWithdrawal => .stakeWithdrawal

def current (sp : StakePool Pubkey) : DelayedFee → Fee
  | epoch => sp.epochFee
  | solWithdrawal => sp.solWithdrawalFee
  | stakeWithdrawal => sp.stakeWithdrawalFee

def next (sp : StakePool Pubkey) : DelayedFee → FutureEpochFee
  | epoch => sp.nextEpochFee
  | solWithdrawal => sp.nextSolWithdrawalFee
  | stakeWithdrawal => sp.nextStakeWithdrawalFee

def configured (spc : SyncPoolConfig Pubkey) : DelayedFee → Fee
  | epoch => spc.epochFee
  | solWithdrawal => spc.solWithdrawalFee
  | stakeWithdrawal => spc.stakeWithdrawalFee

theorem eqFeeType_kind {lib : StakePoolLib Pubkey} (hfee : lib.FeeEquality) (k : DelayedFee)
    (f g : Fee) : lib.eqFeeType (k.kind f) (k.kind g) = lib.cmpFeeEq f g := by
  cases k
  · exact hfee.epoch f g
  · exact hfee.solWithdrawal f g
  · exact hfee.stakeWithdrawal f g

end DelayedFee

/-- The fees that take effect at once. -/
inductive ImmediateFee
  | solDeposit
  | solReferral
  | stakeDeposit
  | stakeReferral

namespace ImmediateFee

def current (sp : StakePool Pubkey) : ImmediateFee → FeeType
  | solDeposit => .solDeposit sp.solDepositFee
  | solReferral => .solReferral sp.solReferralFee
  | stakeDeposit => .stakeDeposit sp.stakeDepositFee
  | stakeReferral => .stakeReferral sp.stakeReferralFee

def configured (spc : SyncPoolConfig Pubkey) : ImmediateFee → FeeType
  | solDeposit => .solDeposit spc.solDepositFee
  | solReferral => .solReferral spc.solDepositReferralFee
  | stakeDeposit => .stakeDeposit spc.stakeDepositFee
  | stakeReferral => .stakeReferral spc.stakeDepositReferralFee

end ImmediateFee

/-- The settings of a pool other than its manager. -/
inductive Aspect
  | fundingAuth (ty : FundingType)
  | delayedFee (k : DelayedFee)
  | fee (k : ImmediateFee)
  | staker
  | managerFeeAccount

variable [DecidableEq Pubkey] (lib : StakePoolLib Pubkey) (spc : SyncPoolConfig Pubkey)

namespace SyncPoolConfig

/-- The authority of a pool, the default one counted as none. -/
def fundingAuth (sp : StakePool Pubkey) : FundingType → Option Pubkey
  | .stakeDeposit => filterDefaultStakeDepositAuth sp.stakeDepositAuthority
      (lib.findDepositAuthority spc.programId spc.pool)
  | .solDeposit => sp.solDepositAuthority
  | .solWithdraw => sp.solWithdrawAuthority

/-- The authority of the config, the default one counted as none. -/
def newFundingAuth : FundingType → Option Pubkey
  | .stakeDeposit => spc.newStakeDepositAuth lib
  | .solDeposit => spc.solDepositAuth
  | .solWithdraw => spc.solWithdrawAuth

/-- The aspects in the order of the changeset. -/
def aspects : List Aspect :=
  [.fundingAuth .stakeDeposit, .fundingAuth .solDeposit, .fundingAuth .solWithdraw] ++
  [.delayedFee .epoch, .delayedFee .solWithdrawal, .delayedFee .stakeWithdrawal] ++
  [.fee .solDeposit, .fee .solReferral, .fee .stakeDeposit, .fee .stakeReferral] ++
  [.staker] ++ [.managerFeeAccount]

omit [DecidableEq Pubkey] in
theorem mem_aspects (a : Aspect) : a ∈ aspects := by
  cases a with
  | fundingAuth ty => cases ty <;> simp [aspects]
  | delayedFee k => cases k <;> simp [aspects]
  | fee k => cases k <;> simp [aspects]
  | staker | managerFeeAccount => simp [aspects]

/-- The change of an aspect, if it needs one. -/
def change (sp : StakePool Pubkey) : Aspect → Option (SyncPoolChange Pubkey)
  | .fundingAuth ty => fundingAuthChange (spc.fundingAuth lib sp ty, spc.newFundingAuth lib ty, ty)
  | .delayedFee k => delayedFeeChange lib (k.kind, k.current sp, k.configured spc, k.next sp)
  | .fee k => feeChange lib (k.current sp, k.configured spc)
  | .staker => if sp.staker ≠ spc.staker then some (.staker sp.staker spc.staker) else none
  | .managerFeeAccount =>
    if sp.managerFeeAccount ≠ spc.managerFeeAccount then
      some (.managerFeeAccount sp.managerFeeAccount spc.managerFeeAccount)
    else none

def managerChange (sp : StakePool Pubkey) : List (SyncPoolChange Pubkey) :=
  if sp.manager ≠ spc.newManager then [.manager sp.manager spc.newManager] else []

/-- A changeset is the changes of the aspects, then that of the manager. -/
theorem changeset_eq (sp : StakePool Pubkey) :
    spc.changeset lib sp = aspects.filterMap (spc.change lib sp) ++ spc.managerChange sp := by
  have hstaker : [Aspect.staker].filterMap (spc.change lib sp) =
      if sp.staker ≠ spc.staker then [.staker sp.staker spc.staker] else [] := by
    rw [List.filterMap_cons, change]
    split_ifs <;> rfl
  have hfeeAccount : [Aspect.managerFeeAccount].filterMap (spc.change lib sp) =
      if sp.managerFeeAccount ≠ spc.managerFeeAccount then
        [.managerFeeAccount sp.managerFeeAccount spc.managerFeeAccount] else [] := by
    rw [List.filterMap_cons, change]
    split_ifs <;> rfl
  rw [aspects, List.filterMap_append, List.filterMap_append, hstaker, hfeeAccount,
    List.filterMap_append, List.filterMap_append]
  rfl

/-! ## The instructions -/

section

variable {lib spc} {sp sp₀ : StakePool Pubkey}

/-- The default authority is filtered out, and any other one is kept. -/
theorem filterDefault_getD_newStakeDepositAuth :
    filterDefaultStakeDepositAuth
        ((spc.newStakeDepositAuth lib).getD (lib.findDepositAuthority spc.programId spc.pool))
        (lib.findDepositAuthority spc.programId spc.pool) = spc.newStakeDepositAuth lib := by
  rw [newStakeDepositAuth]
  cases spc.stakeDepositAuth with
  | none => simp [filterDefaultStakeDepositAuth]
  | some pk =>
    by_cases h : pk = lib.findDepositAuthority spc.programId spc.pool <;>
      simp [filterDefaultStakeDepositAuth, h]

variable (hmanager : sp.manager = spc.manager)
include hmanager

theorem exec_setFeeIx (fee : FeeType) :
    exec lib spc.programId spc.pool (spc.setFeeIx fee) sp = some (sp.setFee fee) := by
  simp [exec, setFeeIx, StakePoolCli.setFeeIx, StakePool.execData, hmanager]

theorem exec_setFundingAuthIx (ty : FundingType) :
    exec lib spc.programId spc.pool (spc.setFundingAuthIx lib ty) sp =
      some (sp.setFundingAuthority (lib.findDepositAuthority spc.programId spc.pool) ty
        (spc.newFundingAuth lib ty)) := by
  have hix : (spc.setFundingAuthIx lib ty).programId = spc.programId ∧
      (spc.setFundingAuthIx lib ty).data = .setFundingAuthority ty ∧
      (spc.setFundingAuthIx lib ty).accounts =
        spc.pool :: spc.manager :: (spc.newFundingAuth lib ty).toList := by
    let ix := setFundingAuthorityIx spc.programId
      ⟨spc.pool, spc.manager, (spc.newFundingAuth lib ty).getD lib.defaultPubkey⟩ ty
    have hix : spc.setFundingAuthIx lib ty =
        if spc.newFundingAuth lib ty = none then { ix with accounts := ix.accounts.dropLast }
        else ix := by
      cases ty <;> rfl
    rw [hix]
    simp only [ix]
    cases spc.newFundingAuth lib ty <;> exact ⟨rfl, rfl, rfl⟩
  obtain ⟨hprogram, hdata, haccounts⟩ := hix
  simp only [exec, hprogram, hdata, haccounts]
  cases spc.newFundingAuth lib ty <;> simp [StakePool.execData, hmanager]

theorem exec_setStakerIx :
    exec lib spc.programId spc.pool spc.setStakerIx sp = some { sp with staker := spc.staker } := by
  simp [exec, setStakerIx, StakePoolCli.setStakerIx, StakePool.execData, hmanager]

theorem exec_setManagerFeeIx :
    exec lib spc.programId spc.pool spc.setManagerFeeIx sp =
      some { sp with manager := spc.manager, managerFeeAccount := spc.managerFeeAccount } := by
  simp [exec, setManagerFeeIx, StakePoolCli.setManagerIx, StakePool.execData, hmanager]

theorem exec_setManagerIx :
    exec lib spc.programId spc.pool spc.setManagerIx sp =
      some { sp with manager := spc.newManager, managerFeeAccount := spc.managerFeeAccount } := by
  simp [exec, setManagerIx, StakePoolCli.setManagerIx, StakePool.execData, hmanager]

end

/-! ## Reaching the goals -/

/-- What an aspect has to be after a sync that started in `sp₀`. A delayed fee is pending if it was
emitted, and left alone otherwise. -/
def Goal (sp₀ : StakePool Pubkey) : Aspect → StakePool Pubkey → Prop
  | .fundingAuth ty, sp => spc.fundingAuth lib sp ty = spc.newFundingAuth lib ty
  | .delayedFee k, sp =>
    k.next sp = if (spc.change lib sp₀ (.delayedFee k)).isSome then .two (k.configured spc)
      else k.next sp₀
  | .fee k, sp => lib.eqFeeType (k.current sp) (k.configured spc) = true
  | .staker, sp => sp.staker = spc.staker
  | .managerFeeAccount, sp => sp.managerFeeAccount = spc.managerFeeAccount

/-- What holds throughout a sync that started in `sp₀`, up to the change of the manager. -/
structure Underway (sp₀ sp : StakePool Pubkey) : Prop where
  manager : sp.manager = spc.manager
  current : ∀ k : DelayedFee, k.current sp = k.current sp₀

variable {lib spc} {sp₀ : StakePool Pubkey}

/-- An aspect without a change is at its goal. -/
theorem goal_of_change_eq_none {a : Aspect} (h : spc.change lib sp₀ a = none) :
    spc.Goal lib sp₀ a sp₀ := by
  cases a with
  | fundingAuth ty =>
    by_contra hne
    simp only [change, fundingAuthChange, ne_eq, ite_not, ite_eq_left_iff, reduceCtorEq, imp_false,
      not_not] at h
    exact hne h
  | delayedFee k => simp [Goal, h]
  | fee k =>
    simpa [change, feeChange, Goal] using h
  | staker | managerFeeAccount => simpa [change, Goal] using h

/-- The instruction of a change, by its aspect. -/
theorem changeIx_of_change {a : Aspect} {c : SyncPoolChange Pubkey}
    (h : spc.change lib sp₀ a = some c) :
    spc.changeIx lib c =
      match a with
      | .fundingAuth ty => spc.setFundingAuthIx lib ty
      | .delayedFee k => spc.setFeeIx (k.kind (k.configured spc))
      | .fee k => spc.setFeeIx (k.configured spc)
      | .staker => spc.setStakerIx
      | .managerFeeAccount => spc.setManagerFeeIx := by
  cases a <;> simp only [change, fundingAuthChange, delayedFeeChange, feeChange] at h <;>
    split_ifs at h <;> obtain rfl := Option.some.inj h <;> rfl

/-- A change is executed, reaches the goal of its aspect, and undoes none. -/
theorem exec_change (hfee : lib.FeeEquality) {a : Aspect} {c : SyncPoolChange Pubkey}
    (hc : spc.change lib sp₀ a = some c) {sp : StakePool Pubkey} (h : spc.Underway sp₀ sp) :
    ∃ sp', exec lib spc.programId spc.pool (spc.changeIx lib c) sp = some sp' ∧
      spc.Underway sp₀ sp' ∧ spc.Goal lib sp₀ a sp' ∧
      ∀ b, spc.Goal lib sp₀ b sp → spc.Goal lib sp₀ b sp' := by
  rw [changeIx_of_change hc]
  cases a with
  | fundingAuth ty =>
    refine ⟨_, exec_setFundingAuthIx h.manager ty, ?_⟩
    have hgoal : spc.Goal lib sp₀ (.fundingAuth ty) (sp.setFundingAuthority
        (lib.findDepositAuthority spc.programId spc.pool) ty (spc.newFundingAuth lib ty)) := by
      cases ty with
      | stakeDeposit => exact filterDefault_getD_newStakeDepositAuth
      | solDeposit | solWithdraw => rfl
    refine ⟨?_, hgoal, fun b hb => ?_⟩
    · cases ty <;> exact ⟨h.manager, h.current⟩
    · cases b with
      | fundingAuth ty' =>
        cases ty <;> cases ty' <;> first | exact hgoal | exact hb
      | delayedFee | fee | staker | managerFeeAccount => cases ty <;> exact hb
  | delayedFee k =>
    refine ⟨_, exec_setFeeIx h.manager _, ?_⟩
    have hgoal : spc.Goal lib sp₀ (.delayedFee k) (sp.setFee (k.kind (k.configured spc))) := by
      simp only [Goal, hc, Option.isSome_some, if_true]
      cases k <;> rfl
    refine ⟨?_, hgoal, fun b hb => ?_⟩
    · cases k <;> exact ⟨h.manager, h.current⟩
    · cases b with
      | delayedFee k' =>
        cases k <;> cases k' <;> first | exact hgoal | exact hb
      | fundingAuth | fee | staker | managerFeeAccount => cases k <;> exact hb
  | fee k =>
    refine ⟨_, exec_setFeeIx h.manager _, ?_⟩
    have hgoal : spc.Goal lib sp₀ (.fee k) (sp.setFee (k.configured spc)) := by
      cases k <;> exact hfee.refl _
    refine ⟨?_, hgoal, fun b hb => ?_⟩
    · cases k <;> exact ⟨h.manager, h.current⟩
    · cases b with
      | fee k' =>
        cases k <;> cases k' <;> first | exact hgoal | exact hb
      | fundingAuth | delayedFee | staker | managerFeeAccount => cases k <;> exact hb
  | staker =>
    refine ⟨_, exec_setStakerIx h.manager, ⟨h.manager, h.current⟩, rfl, fun b hb => ?_⟩
    cases b with
    | staker => exact rfl
    | fundingAuth | delayedFee | fee | managerFeeAccount => exact hb
  | managerFeeAccount =>
    refine ⟨_, exec_setManagerFeeIx h.manager, ⟨rfl, h.current⟩, rfl, fun b hb => ?_⟩
    cases b with
    | managerFeeAccount => exact rfl
    | fundingAuth | delayedFee | fee | staker => exact hb

/-- **A sync reaches its goals**: all instructions are executed, the aspects reach their goals, and
the manager is the new one. -/
theorem sync_reaches (hfee : lib.FeeEquality) (hmanager : spc.manager = sp₀.manager) :
    ∃ sp', execAll lib spc.programId spc.pool (spc.changesetIxs lib (spc.changeset lib sp₀)) sp₀ =
        some sp' ∧
      sp'.manager = spc.newManager ∧ (∀ k : DelayedFee, k.current sp' = k.current sp₀) ∧
      ∀ a, spc.Goal lib sp₀ a sp' := by
  have hstep : ∀ a ix, (spc.change lib sp₀ a).map (spc.changeIx lib) = some ix →
      ∀ sp, spc.Underway sp₀ sp → ∃ sp', exec lib spc.programId spc.pool ix sp = some sp' ∧
        spc.Underway sp₀ sp' ∧ spc.Goal lib sp₀ a sp' ∧
        ∀ b, spc.Goal lib sp₀ b sp → spc.Goal lib sp₀ b sp' := by
    intro a ix hix sp h
    obtain ⟨c, hc, rfl⟩ := Option.map_eq_some_iff.mp hix
    exact exec_change hfee hc h
  obtain ⟨sp₁, hrun, hunderway, hgoals, -⟩ := Reconcile.run_filterMap hstep
    ⟨hmanager.symm, fun _ => rfl⟩
    fun a (_ : a ∈ aspects) h => goal_of_change_eq_none (Option.map_eq_none_iff.mp h)
  have hgoals' : ∀ a, spc.Goal lib sp₀ a sp₁ := fun a => hgoals a (mem_aspects a)
  rw [changesetIxs, changeset_eq, List.map_append, List.map_filterMap, execAll,
    Reconcile.run_append, hrun, Option.bind_some, managerChange]
  split_ifs with hnew
  · -- the new manager is set by the last instruction, with the fee account of the config
    refine ⟨{ sp₁ with manager := spc.newManager, managerFeeAccount := spc.managerFeeAccount },
      ?_, rfl, hunderway.current, fun a => ?_⟩
    · rw [List.map_singleton, changeIx,
        Reconcile.run_cons_of_some (exec_setManagerIx hunderway.manager), Reconcile.run_nil]
    · cases a with
      | managerFeeAccount => exact rfl
      | fundingAuth ty => exact hgoals' (.fundingAuth ty)
      | delayedFee k => exact hgoals' (.delayedFee k)
      | fee k => exact hgoals' (.fee k)
      | staker => exact hgoals' .staker
  · refine ⟨sp₁, rfl, ?_, hunderway.current, hgoals'⟩
    rw [hunderway.manager, hmanager]
    exact not_not.mp hnew

/-- Where all goals are reached, nothing is left to change. -/
theorem changeset_eq_nil_of_goals (hfee : lib.FeeEquality) {sp' : StakePool Pubkey}
    (hmanager : sp'.manager = spc.newManager)
    (hcurrent : ∀ k : DelayedFee, k.current sp' = k.current sp₀)
    (hgoals : ∀ a, spc.Goal lib sp₀ a sp') : spc.changeset lib sp' = [] := by
  have hnone : ∀ a, spc.change lib sp' a = none := by
    intro a
    have hgoal := hgoals a
    cases a with
    | fundingAuth ty => simpa [change, fundingAuthChange, Goal] using hgoal
    | delayedFee k =>
      simp only [Goal] at hgoal
      split_ifs at hgoal with hsome
      · -- the fee was emitted, so it is pending now
        have hrefl : lib.cmpFeeEq (k.configured spc) (k.configured spc) = true := by
          rw [← k.eqFeeType_kind hfee]
          exact hfee.refl _
        simp [change, delayedFeeChange, hgoal, hrefl]
      · rw [Bool.not_eq_true, Option.isSome_eq_false_iff, Option.isNone_iff_eq_none] at hsome
        rw [← hsome]
        simp only [change, hcurrent, hgoal]
    | fee k => simpa [change, feeChange, Goal] using hgoal
    | staker | managerFeeAccount => simpa [change, Goal] using hgoal
  rw [changeset_eq, managerChange, if_neg (not_not.mpr hmanager), List.append_nil]
  exact List.filterMap_eq_nil_iff.mpr fun a _ => hnone a

end SyncPoolConfig

/-! ## The sync of a pool -/

open SyncPoolConfig

/-- **Syncing a pool** is authorised throughout, brings the pool to the config, and leaves nothing
to change. -/
theorem sync_pool (hfee : lib.FeeEquality) (sp : StakePool Pubkey)
    (hmanager : spc.manager = sp.manager) :
    ∃ sp', execAll lib spc.programId spc.pool (spc.changesetIxs lib (spc.changeset lib sp)) sp =
        some sp' ∧
      sp'.manager = spc.newManager ∧ sp'.staker = spc.staker ∧
      sp'.managerFeeAccount = spc.managerFeeAccount ∧
      filterDefaultStakeDepositAuth sp'.stakeDepositAuthority
          (lib.findDepositAuthority spc.programId spc.pool) =
        spc.stakeDepositAuth.bind (filterDefaultStakeDepositAuth ·
          (lib.findDepositAuthority spc.programId spc.pool)) ∧
      sp'.solDepositAuthority = spc.solDepositAuth ∧
      sp'.solWithdrawAuthority = spc.solWithdrawAuth ∧
      (∀ k : ImmediateFee, lib.eqFeeType (k.current sp') (k.configured spc) = true) ∧
      (∀ k : DelayedFee, lib.eqFeeType (k.kind (k.current sp')) (k.kind (k.configured spc)) = true ∨
        ∃ fee, (k.next sp').pending? = some fee ∧ lib.cmpFeeEq fee (k.configured spc) = true) ∧
      spc.changeset lib sp' = [] := by
  obtain ⟨sp', hexec, hnew, hcurrent, hgoals⟩ := sync_reaches hfee hmanager
  have hnil := changeset_eq_nil_of_goals hfee hnew hcurrent hgoals
  refine ⟨sp', hexec, hnew, hgoals .staker, hgoals .managerFeeAccount,
    hgoals (.fundingAuth .stakeDeposit), hgoals (.fundingAuth .solDeposit),
    hgoals (.fundingAuth .solWithdraw), fun k => hgoals (.fee k), fun k => ?_, hnil⟩
  rw [changeset_eq] at hnil
  have hnone := List.filterMap_eq_nil_iff.mp (List.append_eq_nil_iff.mp hnil).1 _
    (mem_aspects (.delayedFee k))
  simp only [change, delayedFeeChange] at hnone
  cases heq : lib.eqFeeType (k.kind (k.current sp')) (k.kind (k.configured spc)) with
  | true => exact .inl rfl
  | false =>
    right
    cases hnext : k.next sp' with
    | none => simp [heq, hnext] at hnone
    | one fee | two fee => exact ⟨fee, rfl, by simpa [heq, hnext] using hnone⟩

/-- A config for the fresh pool that changes all of its settings. -/
def SyncPoolConfig.changingAll : SyncPoolConfig Address where
  programId := .key 0
  pool := .key 1
  payer := .key 2
  manager := .key 100
  newManager := .key 3
  staker := .key 4
  managerFeeAccount := .key 5
  solDepositAuth := some (.key 6)
  stakeDepositAuth := some (.key 7)
  solWithdrawAuth := some (.key 8)
  solDepositReferralFee := 1
  stakeDepositReferralFee := 1
  epochFee := ⟨10000, 1⟩
  stakeWithdrawalFee := ⟨10000, 1⟩
  solWithdrawalFee := ⟨10000, 1⟩
  stakeDepositFee := ⟨10000, 1⟩
  solDepositFee := ⟨10000, 1⟩

theorem sync_pool_changingAll : ∃ sp', execAll StakePoolLib.symbolic (.key 0) (.key 1)
      (changingAll.changesetIxs StakePoolLib.symbolic
        (changingAll.changeset StakePoolLib.symbolic StakePool.fresh)) StakePool.fresh = some sp' ∧
    sp'.manager = .key 3 ∧ sp'.managerFeeAccount = .key 5 ∧
    changingAll.changeset StakePoolLib.symbolic sp' = [] := by
  obtain ⟨sp', hexec, hnew, -, hfeeAccount, -, -, -, -, -, hnil⟩ :=
    sync_pool StakePoolLib.symbolic changingAll StakePoolLib.feeEquality_symbolic StakePool.fresh
      (by decide)
  exact ⟨sp', hexec, hnew, hfeeAccount, hnil⟩

end StakePoolCli
