import Mathlib.Algebra.Order.BigOperators.Group.List
import Mathlib.Algebra.Order.Group.Nat
import StakePoolCli.Delegation.Decisions
import StakePoolCli.Foundations.StableSort
import StakePoolCli.Interface.Symbolic

/-!
# What the order of the entries decides

The entries of a changeset are served in their order.

* `reserve_served_in_order`: once an entry is left short, no later one is increased. A shortage
  leaves at most two rents in the reserve, an increase needs more than that, and nothing is ever put
  back (`Budget.pairwise_decisions`).
* `order_irrelevant_with_sufficient_reserve`: when the reserve covers what all entries need on top
  of two rents, every entry gets the change that it would get with an unlimited reserve
  (`Budget.decisions_eq_map`), so that the order does not matter.
-/

namespace StakePoolCli.Ledger

open Checked DelegationChangeset

variable {Pubkey : Type}

/-! ## In order -/

/-- The changes of an entry that does not get all it lacks. -/
def LeftShort : ValidatorDelegationChangeTy → Prop
  | .partialIncreaseStake _ _ | .insufficientReserveLamports => True
  | _ => False

/-- The changes of an entry that gets stake from the reserve. -/
def Funded : ValidatorDelegationChangeTy → Prop
  | .increaseStake _ | .partialIncreaseStake _ _ => True
  | _ => False

def isPartialIncrease : ValidatorDelegationChangeTy → Bool
  | .partialIncreaseStake _ _ => true
  | _ => false

/-- A partial increase is both. -/
theorem leftShort_and_funded {ty : ValidatorDelegationChangeTy} (h : isPartialIncrease ty = true) :
    LeftShort ty ∧ Funded ty := by
  cases ty with
  | partialIncreaseStake inc shortfall => exact ⟨trivial, trivial⟩
  | _ => cases h

section

variable {κ : Costs} {R : ℕ} {d : Demand} {ty : ValidatorDelegationChangeTy}
  (hdec : decisionOf ty = κ.decision R d)
include hdec

/-- A shortage leaves at most two rents. -/
theorem rest_le_of_leftShort (h : LeftShort ty) : R - κ.cost d (κ.decision R d) ≤ 2 * κ.rent := by
  cases ty with
  | insufficientReserveLamports =>
    have := decision_eq_short hdec.symm
    omega
  | partialIncreaseStake inc shortfall =>
    obtain ⟨-, -, -, -, -, hreserve⟩ := decision_eq_partialIncrease hdec.symm
    rw [← hdec, Costs.cost]
    simp only [decisionOf, Decision.increased]
    omega
  | _ => cases h

/-- An increase needs more than two rents. -/
theorem lt_of_funded (h : Funded ty) : 2 * κ.rent < R := by
  cases ty with
  | increaseStake inc =>
    obtain ⟨-, hlt, -, hsum, hreserve⟩ := decision_eq_increase hdec.symm
    omega
  | partialIncreaseStake inc shortfall =>
    obtain ⟨-, -, hinc, -, -, hreserve⟩ := decision_eq_partialIncrease hdec.symm
    omega
  | _ => cases h

end

/-- **The reserve is handed out in order.** After a change that leaves an entry short, no entry is
increased; hence at most one is increased in part. -/
theorem reserve_served_in_order (lib : StakePoolLib Pubkey) (cs : DelegationChangeset Pubkey)
    {k : ℕ} {out : List (ValidatorDelegationChange Pubkey)} {cs' : DelegationChangeset Pubkey}
    (h : Iteration.take (next lib) k cs = .ok (out, cs')) :
    (out.Pairwise fun c c' => LeftShort c.ty → ¬ Funded c'.ty) ∧
      (out.countP fun c => isPartialIncrease c.ty) ≤ 1 := by
  have hpairwise : out.Pairwise fun c c' => LeftShort c.ty → ¬ Funded c'.ty := by
    have hledger := @Budget.pairwise_decisions _ _ (costs lib cs.rent).decision
      (costs lib cs.rent).cost (fun c => ∃ ty, decisionOf ty = c ∧ LeftShort ty)
      (fun c => ∃ ty, decisionOf ty = c ∧ Funded ty) (2 * (costs lib cs.rent).rent)
      (fun R d ⟨ty, hty, hshort⟩ => rest_le_of_leftShort hty hshort)
      (fun R d ⟨ty, hty, hfunded⟩ => lt_of_funded hty hfunded) ((demands cs).take k)
      cs.reserveLamports.toNat
    rw [show Budget.decisions _ _ _ _ = out.map (decisionOf ·.ty) from
      (take_spec h).decisions.symm, List.pairwise_map] at hledger
    exact hledger.imp fun hle hshort hfunded => hle ⟨_, rfl, hshort⟩ ⟨_, rfl, hfunded⟩
  refine ⟨hpairwise, Sorting.countP_le_one_iff.mpr (hpairwise.imp fun {c c'} hle hboth => ?_)⟩
  obtain ⟨hc, hc'⟩ := hboth
  exact hle (leftShort_and_funded hc).1 (leftShort_and_funded hc').2

/-- Two validators that lack more than the reserve has, and one that lacks little. -/
def lackingMore : DelegationChangeset Address where
  delegations :=
    [⟨⟨20, 0, 7, 0, 0, .active, .key 1⟩, .stake ⟨2000000000, 3, u64Max⟩, none, 90000000000⟩,
     ⟨⟨20, 0, 7, 0, 0, .active, .key 2⟩, .stake ⟨2000000000, 3, u64Max⟩, none, 90000000000⟩,
     ⟨⟨20, 0, 7, 0, 0, .active, .key 3⟩, .stake ⟨2000000000, 3, u64Max⟩, none, 2000000001⟩]
  reserveLamports := 10000000000
  currEpoch := 7
  rent := Rent.default

theorem reserve_served_in_order_lackingMore : ∃ out cs',
    collect StakePoolLib.symbolic lackingMore = .ok (out, cs') ∧
      (out.Pairwise fun c c' => LeftShort c.ty → ¬ Funded c'.ty) ∧
      (out.countP fun c => isPartialIncrease c.ty) ≤ 1 := by
  obtain ⟨out, cs', hcollect, -⟩ := @collect_ok _ StakePoolLib.symbolic lackingMore (by decide)
    (by decide) (by simp [lackingMore, Delegated])
  exact ⟨out, cs', hcollect, reserve_served_in_order StakePoolLib.symbolic lackingMore hcollect⟩

/-! ## With a sufficient reserve -/

namespace Costs

variable (κ : Costs)

/-- What an entry needs from the reserve to get its target. -/
def need (d : Demand) : ℕ :=
  if d.active = false then 0
  else if d.next < d.desired then
    if d.status = .deactivating then 0
    else d.desired - d.next + if d.status = .none then κ.rent else 0
  else if d.desired < d.next then
    if d.status = .none then κ.rent else 0
  else 0

/-- The decision when the reserve does not limit it. -/
def decisionUnlimited (d : Demand) : Decision :=
  if d.active = false then .removed
  else if d.desired < d.next then
    if d.status = .activating then .wrongState
    else if d.next - d.desired - κ.minActive < κ.minActive + κ.rent then .stay
    else .decrease (d.next - d.desired - κ.minActive)
  else if d.next < d.desired then
    if d.status = .deactivating then .wrongState else .increase (d.desired - d.next)
  else .stay

variable {κ}

/-- Two rents on top of what an entry needs are enough. -/
theorem decision_eq_decisionUnlimited {R : ℕ} {d : Demand} (h : 2 * κ.rent + κ.need d ≤ R) :
    κ.decision R d = κ.decisionUnlimited d := by
  unfold need at h
  unfold decision decisionUnlimited decisionDecrease decisionIncrease
  split_ifs at h ⊢ <;> first | rfl | omega

/-- What the decision costs is covered by the need. -/
theorem cost_decisionUnlimited_le (d : Demand) : κ.cost d (κ.decisionUnlimited d) ≤ κ.need d := by
  unfold cost charge need decisionUnlimited
  split_ifs <;> simp_all [Decision.Moves, Decision.increased]

/-- No entry is left short by it. -/
theorem not_leftShort_of_decisionUnlimited {d : Demand} {ty : ValidatorDelegationChangeTy}
    (h : decisionOf ty = κ.decisionUnlimited d) : ¬ LeftShort ty := by
  intro hshort
  unfold decisionUnlimited at h
  cases ty with
  | partialIncreaseStake | insufficientReserveLamports =>
    simp only [decisionOf] at h
    split_ifs at h
  | _ => cases hshort

end Costs

variable {lib : StakePoolLib Pubkey}

/-- The change an entry gets when it is the first one. -/
def changeAsFirst (lib : StakePoolLib Pubkey) (cs : DelegationChangeset Pubkey)
    (src : ValidatorChangeSrc Pubkey) : ValidatorDelegationChange Pubkey where
  vote := src.vsi.voteAccountAddress
  transientSeedSuffix := src.vsi.transientSeedSuffix
  ty := ((changeTy lib cs.rent cs.currEpoch cs.reserveLamports src).toOption.map (·.1)).getD
    .noChange

section

variable {cs : DelegationChangeset Pubkey}
  (hrents : 2 * (lamportsForNewVsa cs.rent).toNat < 2 ^ 64)
  (hmin : lib.minActiveStake.toNat + (lamportsForNewVsa cs.rent).toNat < 2 ^ 64)
  (hdel : ∀ src ∈ cs.delegations, src.vsi.status = .active → Delegated src.vsa src.tsa)
  (hreserve : 2 * (costs lib cs.rent).rent + ((demands cs).map (costs lib cs.rent).need).sum ≤
    cs.reserveLamports.toNat)
include hrents hmin hdel hreserve

/-- The change an entry gets as the first is the one it would get from an unlimited reserve. -/
theorem decisionOf_changeAsFirst {src : ValidatorChangeSrc Pubkey} (hsrc : src ∈ cs.delegations) :
    decisionOf (changeAsFirst lib cs src).ty =
      (costs lib cs.rent).decisionUnlimited (demandOf cs.currEpoch src) := by
  obtain ⟨⟨ty, reserve'⟩, hty⟩ := (changeTy_ok_iff cs.reserveLamports).mpr
    (computable_of_delegated hrents hmin (hdel src hsrc))
  have hneed : (costs lib cs.rent).need (demandOf cs.currEpoch src) ≤
      ((demands cs).map (costs lib cs.rent).need).sum :=
    List.le_sum_of_mem (List.mem_map_of_mem (List.mem_map_of_mem hsrc))
  rw [changeAsFirst, hty]
  exact (changeTy_spec hty).1.trans (Costs.decision_eq_decisionUnlimited (by omega))

/-- With a sufficient reserve, every entry gets the change it would get as the first one. -/
theorem collect_eq_map_changeAsFirst :
    ∃ cs', collect lib cs = .ok (cs.delegations.map (changeAsFirst lib cs), cs') := by
  obtain ⟨out, cs', hcollect, hfollows⟩ := collect_ok hrents hmin hdel
  refine ⟨cs', ?_⟩
  rw [hcollect]
  congr 2
  have hdecisions : out.map (decisionOf ·.ty) =
      cs.delegations.map fun src =>
        (costs lib cs.rent).decisionUnlimited (demandOf cs.currEpoch src) := by
    rw [hfollows.decisions, demands, ← List.map_take, List.take_length]
    refine (Budget.decisions_eq_map (fun _ _ => Costs.decision_eq_decisionUnlimited)
      Costs.cost_decisionUnlimited_le hreserve).trans ?_
    rw [demands, List.map_map]
    rfl
  apply List.ext_getElem?
  intro i
  rw [List.getElem?_map]
  cases hsrc : cs.delegations[i]? with
  | none =>
    have hlength := congrArg List.length hdecisions
    rw [List.length_map, List.length_map] at hlength
    rw [List.getElem?_eq_none_iff, ← hlength] at hsrc
    exact List.getElem?_eq_none hsrc
  | some src =>
    obtain ⟨-, ty, -, -, -, hc, -⟩ := step_of_collect hcollect hsrc
    have hty := congrArg (·[i]?) hdecisions
    simp only [List.getElem?_map, hc, hsrc, Option.map_some, Option.some.injEq] at hty
    rw [← decisionOf_changeAsFirst hrents hmin hdel hreserve (List.mem_of_getElem? hsrc)] at hty
    rw [hc, Option.map_some, decisionOf_injective hty]
    rfl

end

/-- **With a sufficient reserve the order does not matter.** In any order of the entries each gets
the same change, and none is left short. -/
theorem order_irrelevant_with_sufficient_reserve (lib : StakePoolLib Pubkey)
    (cs : DelegationChangeset Pubkey)
    (hrents : 2 * (lamportsForNewVsa cs.rent).toNat < 2 ^ 64)
    (hmin : lib.minActiveStake.toNat + (lamportsForNewVsa cs.rent).toNat < 2 ^ 64)
    (hdel : ∀ src ∈ cs.delegations, src.vsi.status = .active →
      src.vsa.delegation.isSome ∧ ∀ ss ∈ src.tsa, ss.delegation.isSome)
    (hreserve : 2 * (lamportsForNewVsa cs.rent).toNat +
      (cs.delegations.map fun src =>
        (costs lib cs.rent).need (demandOf cs.currEpoch src)).sum ≤ cs.reserveLamports.toNat)
    {delegations : List (ValidatorChangeSrc Pubkey)} (hperm : delegations.Perm cs.delegations) :
    ∃ change : ValidatorChangeSrc Pubkey → ValidatorDelegationChange Pubkey,
      (∃ cs', collect lib cs = .ok (cs.delegations.map change, cs')) ∧
      (∃ cs', collect lib { cs with delegations } = .ok (delegations.map change, cs')) ∧
      ∀ src ∈ cs.delegations, ¬ LeftShort (change src).ty := by
  have hsum : ((demands cs).map (costs lib cs.rent).need).sum =
      (cs.delegations.map fun src => (costs lib cs.rent).need (demandOf cs.currEpoch src)).sum := by
    rw [demands, List.map_map]
    rfl
  have hsum' : ((demands { cs with delegations }).map (costs lib cs.rent).need).sum =
      ((demands cs).map (costs lib cs.rent).need).sum :=
    ((hperm.map _).map _).sum_eq
  have hreserve : 2 * (costs lib cs.rent).rent +
      ((demands cs).map (costs lib cs.rent).need).sum ≤ cs.reserveLamports.toNat := by
    rw [hsum, costs_rent]
    exact hreserve
  refine ⟨changeAsFirst lib cs, collect_eq_map_changeAsFirst hrents hmin hdel hreserve, ?_, ?_⟩
  · exact @collect_eq_map_changeAsFirst _ lib { cs with delegations } hrents hmin
      (fun src hsrc => hdel src (hperm.mem_iff.mp hsrc)) (hsum' ▸ hreserve)
  · intro src hsrc
    exact Costs.not_leftShort_of_decisionUnlimited
      (decisionOf_changeAsFirst hrents hmin hdel hreserve hsrc)

/-- One validator to increase and one to decrease, with what both need and two rents. -/
def oneEach : DelegationChangeset Address where
  delegations :=
    [⟨⟨20, 0, 7, 0, 0, .active, .key 1⟩, .stake ⟨2000000000, 3, u64Max⟩, none, 4000000000⟩,
     ⟨⟨20, 0, 7, 0, 0, .active, .key 2⟩, .stake ⟨9000000000, 3, u64Max⟩, none, 5000000000⟩]
  reserveLamports := 6009131520
  currEpoch := 7
  rent := Rent.default

theorem order_irrelevant_with_sufficient_reserve_oneEach :
    ∃ change : ValidatorChangeSrc Address → ValidatorDelegationChange Address,
      (∃ cs', collect StakePoolLib.symbolic oneEach =
        .ok (oneEach.delegations.map change, cs')) ∧
      (∃ cs', collect StakePoolLib.symbolic { oneEach with
          delegations := oneEach.delegations.reverse } =
        .ok (oneEach.delegations.reverse.map change, cs')) := by
  obtain ⟨change, hfirst, hsecond, -⟩ := order_irrelevant_with_sufficient_reserve
    StakePoolLib.symbolic oneEach (by decide) (by decide) (by simp [oneEach]) (by decide)
    (List.reverse_perm oneEach.delegations)
  exact ⟨change, hfirst, hsecond⟩

end StakePoolCli.Ledger
