import StakePoolCli.Delegation.Decisions
import StakePoolCli.Interface.Symbolic

/-!
# No change overshoots its target

`changes_respect_targets`: a changeset yields one change for each entry, in order. An increase,
with what it falls short of, is exactly what the validator lacks; a decrease leaves it the target
and the minimum active stake; neither is given against the state of the transient account; and a
validator that is being removed is passed over, at no cost.

Each of these is read off the decision of the ledger (`changeTy_respects`), except that a decrease
is bounded by the validator stake account too: it is at least the estimate.
-/

namespace StakePoolCli.Ledger

open Checked DelegationChangeset

variable {Pubkey : Type}

/-- The change of an active validator with the delegated stake `vsaStake` and the estimate `next` is
one towards `desired`. -/
structure RespectsTarget (minActiveStake vsaStake next desired : UInt64)
    (status : TransientStakeAccStatus) (ty : ValidatorDelegationChangeTy) : Prop where
  increase : ∀ inc, ty = .increaseStake inc →
    0 < inc.toNat ∧ next.toNat + inc.toNat = desired.toNat ∧
      (status = .none ∨ status = .activating)
  partialIncrease : ∀ inc shortfall, ty = .partialIncreaseStake inc shortfall →
    0 < inc.toNat ∧ 0 < shortfall.toNat ∧
      next.toNat + inc.toNat + shortfall.toNat = desired.toNat ∧
      (status = .none ∨ status = .activating)
  decrease : ∀ dec, ty = .decreaseStake dec →
    0 < dec.toNat ∧ dec.toNat ≤ vsaStake.toNat ∧
      desired.toNat + minActiveStake.toNat ≤ vsaStake.toNat - dec.toNat ∧
      desired.toNat + minActiveStake.toNat + dec.toNat = next.toNat ∧
      (status = .none ∨ status = .deactivating)

section

variable {lib : StakePoolLib Pubkey} {rent : Rent} {epoch reserve reserve' : UInt64}
  {src : ValidatorChangeSrc Pubkey} {ty : ValidatorDelegationChangeTy}
  (h : changeTy lib rent epoch reserve src = .ok (ty, reserve'))
include h

/-- A validator that is being removed gets no other change, and costs nothing. -/
theorem changeTy_removed (hremoved : src.vsi.status ≠ .active) :
    ty = .validatorBeingRemoved ∧ reserve' = reserve := by
  obtain ⟨hdec, hreserve⟩ := changeTy_spec h
  have hcase : (costs lib rent).decision reserve.toNat (demandOf epoch src) = .removed :=
    decision_eq_removed_iff.mpr (decide_eq_false hremoved)
  rw [hcase] at hdec hreserve
  rw [cost_of_not_moves id, Nat.sub_zero] at hreserve
  exact ⟨decisionOf_injective hdec, UInt64.toNat_inj.mp hreserve⟩

/-- An active validator gets a change towards its target, and is not taken for one that is being
removed. -/
theorem changeTy_respects (hactive : src.vsi.status = .active) :
    ty ≠ .validatorBeingRemoved ∧ ∃ next status dlgt,
      nextEpochStakeAndTransientStatus src.vsa src.tsa epoch = .ok (next, status) ∧
      src.vsa.delegation = some dlgt ∧
      RespectsTarget lib.minActiveStake dlgt.stake next src.desired status ty := by
  obtain ⟨hdec, -⟩ := changeTy_spec h
  have hdel := ((changeTy_ok_iff reserve).mp ⟨_, h⟩).1 hactive
  obtain ⟨⟨next, status⟩, hnext⟩ := (nextEpochStake_ok_iff epoch).mpr hdel
  obtain ⟨dlgt, hdlgt, -, hdiff⟩ := nextEpochStake_spec hnext
  rw [demandOf_eq hnext] at hdec
  refine ⟨?_, next, status, dlgt, hnext, hdlgt, ?_, ?_, ?_⟩
  · rintro rfl
    have hremoved := decision_eq_removed_iff.mp hdec.symm
    simp [hactive] at hremoved
  · rintro inc rfl
    obtain ⟨-, hlt, hstatus, hsum, -⟩ := decision_eq_increase hdec.symm
    dsimp only at hlt hsum
    refine ⟨by omega, hsum, ?_⟩
    cases status <;> simp_all
  · rintro inc shortfall rfl
    obtain ⟨-, hstatus, hinc, hshort, hsum, -⟩ := decision_eq_partialIncrease hdec.symm
    refine ⟨hinc, hshort, hsum, ?_⟩
    cases status <;> simp_all
  · rintro dec rfl
    have hrent := costs_rent_pos lib rent
    obtain ⟨-, hexcess, hstatus, -, heq⟩ := (decision_eq_decrease_iff hrent).mp hdec.symm
    -- the estimate is at most the stake of the validator stake account
    have hle := hdiff hstatus
    simp only [costs_minActive] at hexcess heq
    refine ⟨by omega, by omega, by omega, by omega, ?_⟩
    cases status <;> simp_all

end

/-- **No change overshoots its target**, and every entry gets one. -/
theorem changes_respect_targets (lib : StakePoolLib Pubkey) (cs : DelegationChangeset Pubkey)
    (hrents : 2 * (lamportsForNewVsa cs.rent).toNat < 2 ^ 64)
    (hmin : lib.minActiveStake.toNat + (lamportsForNewVsa cs.rent).toNat < 2 ^ 64)
    (hdel : ∀ src ∈ cs.delegations, src.vsi.status = .active →
      src.vsa.delegation.isSome ∧ ∀ ss ∈ src.tsa, ss.delegation.isSome) :
    ∃ out cs', collect lib cs = .ok (out, cs') ∧ out.length = cs.delegations.length ∧
      ∀ (i : ℕ) src, cs.delegations[i]? = some src → ∃ csᵢ c csᵢ',
        out[i]? = some c ∧ Iteration.take (next lib) i cs = .ok (out.take i, csᵢ) ∧
        next lib csᵢ = .ok (some (c, csᵢ')) ∧
        c.vote = src.vsi.voteAccountAddress ∧
        c.transientSeedSuffix = src.vsi.transientSeedSuffix ∧
        (src.vsi.status ≠ .active →
          c.ty = .validatorBeingRemoved ∧ csᵢ'.reserveLamports = csᵢ.reserveLamports) ∧
        (src.vsi.status = .active → c.ty ≠ .validatorBeingRemoved ∧ ∃ next status dlgt,
          nextEpochStakeAndTransientStatus src.vsa src.tsa cs.currEpoch = .ok (next, status) ∧
          src.vsa.delegation = some dlgt ∧
          RespectsTarget lib.minActiveStake dlgt.stake next src.desired status c.ty) := by
  obtain ⟨out, cs', hcollect, hfollows⟩ := collect_ok hrents hmin hdel
  refine ⟨out, cs', hcollect, ?_, fun i src hsrc => ?_⟩
  · simpa using congrArg List.length hfollows.votes
  · obtain ⟨csᵢ, ty, reserve', htake, hty, hc, hnext⟩ := step_of_collect hcollect hsrc
    exact ⟨csᵢ, _, _, hc, htake, hnext, rfl, rfl, changeTy_removed hty, changeTy_respects hty⟩

/-- A validator with too much stake, one with an activating transient account and too little, one
that is being removed, and one that cannot be served in full. -/
def fourValidators : DelegationChangeset Address where
  delegations :=
    [⟨⟨20, 0, 7, 0, 0, .active, .key 1⟩, .stake ⟨9000000000, 3, u64Max⟩, none, 5000000000⟩,
     ⟨⟨20, 0, 7, 0, 0, .active, .key 2⟩, .stake ⟨2000000000, 3, u64Max⟩,
      some (.stake ⟨1000000000, 7, u64Max⟩), 4000000000⟩,
     ⟨⟨20, 0, 7, 0, 0, .deactivatingValidator, .key 3⟩, .uninitialized, none, 4000000000⟩,
     ⟨⟨20, 0, 7, 0, 0, .active, .key 4⟩, .stake ⟨2000000000, 3, u64Max⟩, none, 90000000000⟩]
  reserveLamports := 10000000000
  currEpoch := 7
  rent := Rent.default

theorem changes_respect_targets_fourValidators : ∃ out cs' c,
    collect StakePoolLib.symbolic fourValidators = .ok (out, cs') ∧ out.length = 4 ∧
      out[2]? = some c ∧ c.ty = .validatorBeingRemoved := by
  obtain ⟨out, cs', hcollect, hlength, hchanges⟩ := changes_respect_targets StakePoolLib.symbolic
    fourValidators (by decide) (by decide) (by simp [fourValidators])
  obtain ⟨_, c, _, hc, -, -, -, -, hremoved, -⟩ := hchanges 2 _ rfl
  exact ⟨out, cs', c, hcollect, hlength, hc, (hremoved (by decide)).1⟩

end StakePoolCli.Ledger
