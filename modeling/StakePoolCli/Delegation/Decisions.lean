import StakePoolCli.Delegation.Ledger

/-!
# What each decision says

The decisions of the ledger, read backwards: from a decision, the branch it was taken in and the
amounts in it (`decision_eq_increase` and its companions), and from the estimate of a validator's
stake, the two accounts it was made from (`nextEpochStake_spec`). What is proved about changes is
derived from these, and from the step of the walk that yields a change (`step_of_collect`).
-/

namespace StakePoolCli.Ledger

open Checked

section

variable {κ : Costs} {R : ℕ} {d : Demand} {inc dec shortfall : ℕ}

theorem decision_eq_removed_iff : κ.decision R d = .removed ↔ d.active = false := by
  simp only [Costs.decision, Costs.decisionDecrease, Costs.decisionIncrease]
  constructor
  · intro h
    split_ifs at h with h₁
    exact h₁
  · intro h
    rw [if_pos h]

theorem decision_eq_increase (h : κ.decision R d = .increase inc) :
    d.active = true ∧ d.next < d.desired ∧ d.status ≠ .deactivating ∧ d.next + inc = d.desired ∧
      2 * κ.rent + inc ≤ R := by
  simp only [Costs.decision, Costs.decisionDecrease, Costs.decisionIncrease] at h
  split_ifs at h with h₁ h₂ h₃ h₄ h₅ h₆ h₇ h₈ h₉
  obtain rfl := Decision.increase.inj h
  exact ⟨by simpa using h₁, by assumption, by assumption, by omega, by omega⟩

theorem decision_eq_partialIncrease (h : κ.decision R d = .partialIncrease inc shortfall) :
    d.active = true ∧ d.status ≠ .deactivating ∧ 0 < inc ∧ 0 < shortfall ∧
      d.next + inc + shortfall = d.desired ∧ 2 * κ.rent + inc = R := by
  simp only [Costs.decision, Costs.decisionDecrease, Costs.decisionIncrease] at h
  split_ifs at h with h₁ h₂ h₃ h₄ h₅ h₆ h₇ h₈ h₉
  obtain ⟨rfl, rfl⟩ := Decision.partialIncrease.inj h
  exact ⟨by simpa using h₁, by assumption, by omega, by omega, by omega, by omega⟩

theorem decision_eq_decrease_iff (hrent : 0 < κ.rent) :
    κ.decision R d = .decrease dec ↔
      d.active = true ∧ d.desired + 2 * κ.minActive + κ.rent ≤ d.next ∧ d.status ≠ .activating ∧
        2 * κ.rent ≤ R ∧ dec = d.next - d.desired - κ.minActive := by
  simp only [Costs.decision, Costs.decisionDecrease, Costs.decisionIncrease]
  constructor
  · intro h
    split_ifs at h with h₁ h₂ h₃ h₄ h₅
    obtain rfl := Decision.decrease.inj h
    exact ⟨by simpa using h₁, by omega, by assumption, by omega, rfl⟩
  · rintro ⟨h₁, h₂, h₃, h₄, rfl⟩
    rw [if_neg (by simp [h₁]), if_pos (by omega), if_neg h₃, if_neg (by omega), if_neg (by omega)]

/-- What a validator that is not deactivating and lacks no stake gets: what it lacks, up to what the
reserve has above two rents. -/
theorem increased_decision (hactive : d.active = true) (hstatus : d.status ≠ .deactivating)
    (hle : d.next ≤ d.desired) :
    (κ.decision R d).increased = min (d.desired - d.next) (R - 2 * κ.rent) ∧
      ((κ.decision R d).Moves ↔ d.next < d.desired ∧ 2 * κ.rent < R) := by
  simp only [Costs.decision, Costs.decisionDecrease, Costs.decisionIncrease]
  rw [if_neg (by simp [hactive]), if_neg (by omega), if_neg hstatus]
  split_ifs <;> simp only [Decision.increased, Decision.Moves, true_iff, false_iff] <;> omega

/-- The reserve is short only when it holds at most two rents. -/
theorem decision_eq_short (h : κ.decision R d = .short) : R ≤ 2 * κ.rent := by
  simp only [Costs.decision, Costs.decisionDecrease, Costs.decisionIncrease] at h
  split_ifs at h <;> omega

end

/-! ## The estimate of the next epoch's stake -/

/-- The stake of a transient account, if there is one. -/
def transientStake (tsa : Option StakeStateV2) : UInt64 :=
  ((tsa.bind StakeStateV2.delegation).map (·.stake)).getD 0

/-- The estimate of the next epoch's stake is the sum or the difference of the two accounts. -/
theorem nextEpochStake_spec {vsa : StakeStateV2} {tsa : Option StakeStateV2}
    {currEpoch next : UInt64} {status : TransientStakeAccStatus}
    (h : nextEpochStakeAndTransientStatus vsa tsa currEpoch = .ok (next, status)) :
    ∃ dlgt, vsa.delegation = some dlgt ∧
      (status ≠ .deactivating → next.toNat =
        min (dlgt.stake.toNat + (transientStake tsa).toNat) 18446744073709551615) ∧
      (status ≠ .activating → next.toNat = dlgt.stake.toNat - (transientStake tsa).toNat) := by
  unfold nextEpochStakeAndTransientStatus at h
  obtain ⟨dlgt, hdlgt, h⟩ := bind_eq_ok.mp h
  refine ⟨dlgt, unwrap_eq_ok.mp hdlgt, ?_⟩
  have hmax := toNat_le_max dlgt.stake
  cases tsa with
  | none =>
    obtain ⟨rfl, rfl⟩ := Prod.mk.inj (Except.ok.inj h)
    simp only [transientStake, Option.bind_none, Option.map_none, Option.getD_none,
      UInt64.toNat_zero]
    omega
  | some ss =>
    obtain ⟨tdlgt, htdlgt, h⟩ := bind_eq_ok.mp h
    have hstake : transientStake (some ss) = tdlgt.stake := by
      simp [transientStake, unwrap_eq_ok.mp htdlgt]
    rw [hstake]
    split at h
    · obtain ⟨rfl, rfl⟩ := Prod.mk.inj (Except.ok.inj h)
      exact ⟨fun _ => toNat_saturatingAdd _ _, fun h => absurd rfl h⟩
    · obtain ⟨rfl, rfl⟩ := Prod.mk.inj (Except.ok.inj h)
      exact ⟨fun h => absurd rfl h, fun _ => toNat_saturatingSub _ _⟩

/-! ## The change at a position -/

section

open DelegationChangeset

variable {Pubkey : Type}

/-- The change at a position is yielded by the state after the entries before it. -/
theorem step_of_collect {lib : StakePoolLib Pubkey} {cs cs' : DelegationChangeset Pubkey}
    {out : List (ValidatorDelegationChange Pubkey)} (h : collect lib cs = .ok (out, cs')) {i : ℕ}
    {src : ValidatorChangeSrc Pubkey} (hsrc : cs.delegations[i]? = some src) :
    ∃ csᵢ ty reserve', Iteration.take (next lib) i cs = .ok (out.take i, csᵢ) ∧
      changeTy lib cs.rent cs.currEpoch csᵢ.reserveLamports src = .ok (ty, reserve') ∧
      out[i]? = some ⟨src.vsi.voteAccountAddress, src.vsi.transientSeedSuffix, ty⟩ ∧
      next lib csᵢ = .ok (some (⟨src.vsi.voteAccountAddress, src.vsi.transientSeedSuffix, ty⟩,
        { csᵢ with delegations := cs.delegations.drop (i + 1), reserveLamports := reserve' })) := by
  have hlength : out.length = cs.delegations.length := by
    simpa using congrArg List.length (take_spec h).votes
  obtain ⟨c, hc⟩ := exists_getElem? hlength.symm hsrc
  obtain ⟨csᵢ, csᵢ', htake, hnext⟩ := Iteration.exists_next_of_take h hc
  obtain ⟨delegations, reserve, currEpoch, rent⟩ := csᵢ
  -- the state after the entries before `i` has the entry `i` at its head
  have hstate := (take_spec htake).state
  have hdrop : cs.delegations.drop i = src :: cs.delegations.drop (i + 1) := by
    obtain ⟨hi, rfl⟩ := List.getElem?_eq_some_iff.mp hsrc
    exact List.drop_eq_getElem_cons hi
  rw [hdrop] at hstate
  obtain ⟨rfl, -, rfl, rfl⟩ := DelegationChangeset.mk.inj hstate
  obtain ⟨⟨ty, reserve'⟩, hty, hx⟩ := bind_eq_ok.mp hnext
  obtain ⟨rfl, rfl⟩ := Prod.mk.inj (Option.some.inj (Except.ok.inj hx))
  exact ⟨_, ty, reserve', htake, hty, hc, hnext⟩

end

end StakePoolCli.Ledger
