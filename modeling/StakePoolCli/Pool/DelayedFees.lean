import StakePoolCli.Pool.Sync
import Mathlib.Logic.Function.Iterate

/-!
# Where the delayed fees end up

After two epoch boundaries a fee is what was pending before them, or what it was if nothing was
(`current_iterate_epochUpdate`).

`delayed_fees_converge_iff`: after a sync the three delayed fees settle at the config's, except when
a fee agrees with the config while a different one is pending. The changeset looks at the pending
fee only if the current one differs from the config, so nothing is emitted for such a fee, and it
moves away from the config.
-/

namespace StakePoolCli

open SyncPoolConfig

variable {Pubkey : Type}

/-! ## Epoch boundaries -/

namespace DelayedFee

variable (k : DelayedFee) (sp : StakePool Pubkey)

theorem current_epochUpdate : k.current sp.epochUpdate = (k.next sp).current (k.current sp) := by
  cases k <;> rfl

theorem next_epochUpdate : k.next sp.epochUpdate = (k.next sp).advance := by
  cases k <;> rfl

/-- A fee stays as it is while nothing is pending. -/
theorem current_iterate_of_next_eq_none {sp : StakePool Pubkey} (h : k.next sp = .none) (n : ℕ) :
    k.current (StakePool.epochUpdate^[n] sp) = k.current sp := by
  induction n generalizing sp with
  | zero => rfl
  | succ n ih =>
    rw [Function.iterate_succ_apply, ih, current_epochUpdate, h]
    · rfl
    · rw [next_epochUpdate, h]
      rfl

/-- From two epoch boundaries on, a fee is what was pending. -/
theorem current_iterate_epochUpdate {n : ℕ} (hn : 2 ≤ n) :
    k.current (StakePool.epochUpdate^[n] sp) = (k.next sp).pending?.getD (k.current sp) := by
  obtain ⟨m, rfl⟩ := Nat.exists_eq_add_of_le' hn
  rw [Function.iterate_add_apply, Function.iterate_succ_apply, Function.iterate_one,
    current_iterate_of_next_eq_none]
  · rw [current_epochUpdate, next_epochUpdate, current_epochUpdate]
    cases k.next sp <;> rfl
  · rw [next_epochUpdate, next_epochUpdate]
    cases k.next sp <;> rfl

end DelayedFee

/-! ## After a sync -/

variable [DecidableEq Pubkey] (lib : StakePoolLib Pubkey) (spc : SyncPoolConfig Pubkey)

/-- The fee a delayed fee settles at after a sync agrees with the config, unless it agreed before
while a different one was pending. -/
theorem settles_iff (hfee : lib.FeeEquality) {sp sp' : StakePool Pubkey} (k : DelayedFee)
    (hcurrent : k.current sp' = k.current sp) (hgoal : spc.Goal lib sp (.delayedFee k) sp') :
    lib.cmpFeeEq ((k.next sp').pending?.getD (k.current sp')) (k.configured spc) = true ↔
      ¬ (lib.cmpFeeEq (k.current sp) (k.configured spc) = true ∧
        ∃ fee, (k.next sp).pending? = some fee ∧
          lib.cmpFeeEq fee (k.configured spc) = false) := by
  have hrefl : lib.cmpFeeEq (k.configured spc) (k.configured spc) = true := by
    rw [← k.eqFeeType_kind hfee]
    exact hfee.refl _
  rw [hcurrent, hgoal]
  simp only [change, delayedFeeChange, k.eqFeeType_kind hfee]
  cases hagrees : lib.cmpFeeEq (k.current sp) (k.configured spc) with
  | true =>
    -- nothing is emitted, and the fee becomes what was pending
    cases k.next sp <;> simp [FutureEpochFee.pending?, hagrees]
  | false =>
    cases k.next sp with
    | none => simp [FutureEpochFee.pending?, hrefl]
    | one fee | two fee =>
      cases hpending : lib.cmpFeeEq fee (k.configured spc) <;>
        simp [FutureEpochFee.pending?, hpending, hrefl]

/-- **Delayed fees converge** to the config from every state in which no fee that agrees with the
config has a different one pending, and from no other. -/
theorem delayed_fees_converge_iff (hfee : lib.FeeEquality) (sp : StakePool Pubkey)
    (hmanager : spc.manager = sp.manager) :
    (∃ sp', execAll lib spc.programId spc.pool (spc.changesetIxs lib (spc.changeset lib sp)) sp =
        some sp' ∧
      ∀ n ≥ 2, ∀ k : DelayedFee,
        lib.cmpFeeEq (k.current (StakePool.epochUpdate^[n] sp')) (k.configured spc) = true) ↔
    ∀ k : DelayedFee, ¬ (lib.cmpFeeEq (k.current sp) (k.configured spc) = true ∧
      ∃ fee, (k.next sp).pending? = some fee ∧ lib.cmpFeeEq fee (k.configured spc) = false) := by
  obtain ⟨sp', hexec, -, hcurrent, hgoals⟩ := sync_reaches hfee hmanager
  have hsettles : ∀ k : DelayedFee, _ := fun k =>
    settles_iff lib spc hfee k (hcurrent k) (hgoals (.delayedFee k))
  constructor
  · rintro ⟨sp'', hexec', hconverges⟩ k
    obtain rfl := Option.some.inj (hexec.symm.trans hexec')
    apply (hsettles k).mp
    rw [← k.current_iterate_epochUpdate sp' (Nat.le_refl 2)]
    exact hconverges 2 (Nat.le_refl 2) k
  · intro h
    refine ⟨sp', hexec, fun n hn k => ?_⟩
    rw [k.current_iterate_epochUpdate sp' hn]
    exact (hsettles k).mpr (h k)

/-- A config with the settings of the fresh pool. -/
def SyncPoolConfig.asFresh : SyncPoolConfig Address where
  programId := .key 0
  pool := .key 1
  payer := .key 2
  manager := .key 100
  newManager := .key 100
  staker := .key 101
  managerFeeAccount := .key 104
  solDepositAuth := none
  stakeDepositAuth := none
  solWithdrawAuth := none
  solDepositReferralFee := 0
  stakeDepositReferralFee := 0
  epochFee := ⟨1, 0⟩
  stakeWithdrawalFee := ⟨1, 0⟩
  solWithdrawalFee := ⟨1, 0⟩
  stakeDepositFee := ⟨1, 0⟩
  solDepositFee := ⟨1, 0⟩

/-- With the config's epoch fee pending and another SOL withdrawal fee, all of them converge. -/
theorem delayed_fees_converge_asFresh : ∃ sp', execAll StakePoolLib.symbolic (.key 0) (.key 1)
      (asFresh.changesetIxs StakePoolLib.symbolic
        (asFresh.changeset StakePoolLib.symbolic
          { StakePool.fresh with nextEpochFee := .two ⟨1, 0⟩, solWithdrawalFee := ⟨10, 1⟩ }))
      { StakePool.fresh with nextEpochFee := .two ⟨1, 0⟩, solWithdrawalFee := ⟨10, 1⟩ } =
        some sp' ∧
    ∀ n ≥ 2, ∀ k : DelayedFee, StakePoolLib.symbolic.cmpFeeEq
      (k.current (StakePool.epochUpdate^[n] sp')) (k.configured asFresh) = true := by
  refine (delayed_fees_converge_iff StakePoolLib.symbolic asFresh
    StakePoolLib.feeEquality_symbolic _ (by decide)).mpr fun k => ?_
  rintro ⟨-, fee, hpending, hdiffers⟩
  cases k with
  | epoch =>
    obtain rfl : Fee.mk 1 0 = fee := Option.some.inj hpending
    exact absurd hdiffers (by decide)
  | solWithdrawal | stakeWithdrawal => cases hpending

/-- A pool with the fees of the config but another epoch fee pending: nothing is emitted, and two
epochs later the epoch fee is not the config's. -/
theorem delayed_fees_drift :
    asFresh.changeset StakePoolLib.symbolic
      { StakePool.fresh with nextEpochFee := .one ⟨10, 1⟩ } = [] ∧
    ¬ ∃ sp', execAll StakePoolLib.symbolic (.key 0) (.key 1)
        (asFresh.changesetIxs StakePoolLib.symbolic
          (asFresh.changeset StakePoolLib.symbolic
            { StakePool.fresh with nextEpochFee := .one ⟨10, 1⟩ }))
        { StakePool.fresh with nextEpochFee := .one ⟨10, 1⟩ } = some sp' ∧
      ∀ n ≥ 2, ∀ k : DelayedFee, StakePoolLib.symbolic.cmpFeeEq
        (k.current (StakePool.epochUpdate^[n] sp')) (k.configured asFresh) = true := by
  have hnil : asFresh.changeset StakePoolLib.symbolic
      { StakePool.fresh with nextEpochFee := .one ⟨10, 1⟩ } = [] := by decide
  refine ⟨hnil, ?_⟩
  rw [hnil]
  rintro ⟨sp', hexec, hconverges⟩
  obtain rfl := Option.some.inj hexec
  exact absurd (hconverges 2 (Nat.le_refl 2) .epoch) (by decide)

end StakePoolCli
