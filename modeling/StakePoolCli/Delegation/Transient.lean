import StakePoolCli.Delegation.Decisions
import StakePoolCli.Interface.Symbolic

/-!
# How a transient account is counted

A transient account that is not being deactivated becomes part of the validator's stake; one that is
being deactivated goes back to the reserve (`CountsByDeactivation`). The estimate of the next
epoch's stake looks at the activation epoch only: an account activated in the current epoch is
added, any other one is subtracted.

`transient_counted_iff`: the estimate, and the changes decided from it, count a transient account
by its deactivation exactly when it was activated in the current epoch and stays active, or was
activated before and is being deactivated.
-/

namespace StakePoolCli.Ledger

open Checked DelegationChangeset

variable {Pubkey : Type}

/-- An estimate from the delegations of both accounts that treats the transient account as
deactivating iff it is being deactivated: its stake is not added then, and otherwise it is. -/
structure CountsByDeactivation (vsa tsa : Delegation) (next : UInt64)
    (status : TransientStakeAccStatus) : Prop where
  status : status = .deactivating ↔ tsa.deactivationEpoch ≠ u64Max
  notAdded : tsa.deactivationEpoch ≠ u64Max → next ≤ vsa.stake
  added : tsa.deactivationEpoch = u64Max → next = saturatingAdd vsa.stake tsa.stake

/-- The estimate from two delegations. -/
theorem nextEpochStake_stake (vsa tsa : Delegation) (currEpoch : UInt64) :
    nextEpochStakeAndTransientStatus (.stake vsa) (some (.stake tsa)) currEpoch =
      if tsa.activationEpoch = currEpoch then
        .ok (saturatingAdd vsa.stake tsa.stake, .activating)
      else .ok (saturatingSub vsa.stake tsa.stake, .deactivating) := rfl

theorem exists_nextEpochStake (vsa tsa : Delegation) (currEpoch : UInt64) : ∃ next status,
    nextEpochStakeAndTransientStatus (.stake vsa) (some (.stake tsa)) currEpoch =
      .ok (next, status) := by
  rw [nextEpochStake_stake]
  split_ifs
  · exact ⟨_, _, rfl⟩
  · exact ⟨_, _, rfl⟩

theorem saturatingSub_le (a b : UInt64) : saturatingSub a b ≤ a := by
  rw [UInt64.le_iff_toNat_le, toNat_saturatingSub]
  exact Nat.sub_le _ _

/-- An estimate counts the transient account by its deactivation iff the activation epoch says the
same. -/
theorem countsByDeactivation_iff {vsa tsa : Delegation} {currEpoch next : UInt64}
    {status : TransientStakeAccStatus}
    (h : nextEpochStakeAndTransientStatus (.stake vsa) (some (.stake tsa)) currEpoch =
      .ok (next, status)) :
    CountsByDeactivation vsa tsa next status ↔
      (tsa.activationEpoch = currEpoch ↔ tsa.deactivationEpoch = u64Max) := by
  rw [nextEpochStake_stake] at h
  split_ifs at h with hactivated
  · obtain ⟨rfl, rfl⟩ := Prod.mk.inj (Except.ok.inj h)
    constructor
    · intro hcounts
      have hstays : tsa.deactivationEpoch = u64Max := by
        by_contra hdeactivated
        cases hcounts.status.mpr hdeactivated
      exact iff_of_true hactivated hstays
    · intro hiff
      have hstays := hiff.mp hactivated
      exact ⟨iff_of_false (by simp) (not_not.mpr hstays), fun h => absurd hstays h, fun _ => rfl⟩
  · obtain ⟨rfl, rfl⟩ := Prod.mk.inj (Except.ok.inj h)
    constructor
    · intro hcounts
      exact iff_of_false hactivated (hcounts.status.mp rfl)
    · intro hiff
      have hdeactivated : tsa.deactivationEpoch ≠ u64Max := fun h => hactivated (hiff.mpr h)
      exact ⟨iff_of_true rfl hdeactivated, fun _ => saturatingSub_le _ _,
        fun h => absurd h hdeactivated⟩

/-- The change at a position is decided, with what the entries before it left, from an estimate that
counts the transient account by its deactivation. -/
def DecidedByDeactivation (lib : StakePoolLib Pubkey) (cs : DelegationChangeset Pubkey) (i : ℕ)
    (desired : UInt64) (vsa tsa : Delegation) (ty : ValidatorDelegationChangeTy) : Prop :=
  ∃ next status,
    nextEpochStakeAndTransientStatus (.stake vsa) (some (.stake tsa)) cs.currEpoch =
      .ok (next, status) ∧
    CountsByDeactivation vsa tsa next status ∧
    decisionOf ty = (costs lib cs.rent).decision
      ((costs lib cs.rent).rest ((cs.delegations.take i).map (demandOf cs.currEpoch))
        cs.reserveLamports.toNat)
      ⟨true, next.toNat, desired.toNat, status⟩

/-- **A transient account is counted by its deactivation** exactly when it is in the current epoch
that it was activated and it is not deactivated, or neither. -/
theorem transient_counted_iff (lib : StakePoolLib Pubkey) :
    (∀ (vsa tsa : Delegation) (currEpoch : UInt64),
      (∃ next status,
        nextEpochStakeAndTransientStatus (.stake vsa) (some (.stake tsa)) currEpoch =
          .ok (next, status) ∧ CountsByDeactivation vsa tsa next status) ↔
        (tsa.activationEpoch = currEpoch ↔ tsa.deactivationEpoch = u64Max)) ∧
    ∀ cs out cs', collect lib cs = .ok (out, cs') → ∀ (i : ℕ) src c vsa tsa,
      cs.delegations[i]? = some src → out[i]? = some c → src.vsi.status = .active →
      src.vsa = .stake vsa → src.tsa = some (.stake tsa) →
      (DecidedByDeactivation lib cs i src.desired vsa tsa c.ty ↔
        (tsa.activationEpoch = cs.currEpoch ↔ tsa.deactivationEpoch = u64Max)) := by
  constructor
  · intro vsa tsa currEpoch
    obtain ⟨next, status, h⟩ := exists_nextEpochStake vsa tsa currEpoch
    exact (exists_ok_and_iff h).trans (countsByDeactivation_iff h)
  · intro cs out cs' hcollect i src c vsa tsa hsrc hc hactive hvsa htsa
    obtain ⟨next, status, h⟩ := exists_nextEpochStake vsa tsa cs.currEpoch
    -- the change is decided from this estimate in any case
    have htake : cs.delegations.take cs.delegations.length = cs.delegations := List.take_length
    obtain ⟨-, hdec⟩ := (take_spec hcollect).getElem? (htake.symm ▸ hsrc) hc
    have hdemand : demandOf cs.currEpoch src =
        ⟨true, next.toNat, src.desired.toNat, status⟩ := by
      rw [← hvsa, ← htsa] at h
      rw [demandOf_eq h, hactive]
      rfl
    rw [htake, hdemand] at hdec
    refine (exists_ok_and_iff h).trans (Iff.trans ?_ (countsByDeactivation_iff h))
    exact and_iff_left hdec

/-- One validator, with a transient account as large as its stake account. -/
def withTransient (activationEpoch deactivationEpoch : UInt64) : DelegationChangeset Address where
  delegations :=
    [⟨⟨20, 0, 7, 0, 0, .active, .key 1⟩, .stake ⟨5000000000, 3, u64Max⟩,
      some (.stake ⟨5000000000, activationEpoch, deactivationEpoch⟩), 10000000000⟩]
  reserveLamports := 10000000000
  currEpoch := 7
  rent := Rent.default

/-- An account activated in this epoch is counted as stake, so nothing has to change. -/
theorem transient_counted_activating : ∃ out cs',
    collect StakePoolLib.symbolic (withTransient 7 u64Max) = .ok (out, cs') ∧
      ∀ c, out[0]? = some c → DecidedByDeactivation StakePoolLib.symbolic (withTransient 7 u64Max)
        0 10000000000 ⟨5000000000, 3, u64Max⟩ ⟨5000000000, 7, u64Max⟩ c.ty := by
  refine ⟨_, _, rfl, fun c hc => ?_⟩
  exact ((transient_counted_iff StakePoolLib.symbolic).2 (withTransient 7 u64Max) _ _ rfl 0 _ c
    ⟨5000000000, 3, u64Max⟩ ⟨5000000000, 7, u64Max⟩ rfl hc rfl rfl rfl).mpr (by decide)

/-- An account that was activated before and not merged yet is taken for one that is being
deactivated, and subtracted; an account split from a stake account of this epoch and deactivated is
taken for one that is being activated, and added. -/
theorem transient_not_counted :
    (nextEpochStakeAndTransientStatus (.stake ⟨5000000000, 3, u64Max⟩)
        (some (.stake ⟨5000000000, 6, u64Max⟩)) 7 = .ok (0, .deactivating) ∧
      ¬ CountsByDeactivation ⟨5000000000, 3, u64Max⟩ ⟨5000000000, 6, u64Max⟩ 0 .deactivating) ∧
    (nextEpochStakeAndTransientStatus (.stake ⟨5000000000, 7, u64Max⟩)
        (some (.stake ⟨2000000000, 7, 7⟩)) 7 = .ok (7000000000, .activating) ∧
      ¬ CountsByDeactivation ⟨5000000000, 7, u64Max⟩ ⟨2000000000, 7, 7⟩ 7000000000
        .activating) := by
  refine ⟨⟨rfl, fun h => ?_⟩, ⟨rfl, fun h => ?_⟩⟩
  · exact absurd (h.status.mp rfl) (by decide)
  · exact absurd (h.notAdded (by decide)) (by decide)

end StakePoolCli.Ledger
