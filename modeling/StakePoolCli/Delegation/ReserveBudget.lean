import StakePoolCli.Delegation.Ledger
import StakePoolCli.Interface.Symbolic

/-!
# The reserve is never overspent

`reserve_budget`: a changeset over any list of delegated stake accounts runs to exhaustion without
an arithmetic operation that overflows; after every prefix the running reserve is the initial one
less the increases and the rents of the transient accounts created so far; and once a change has
moved stake, the reserve still holds the rent of one more account.

The conservation is that of the ledger (`Costs.rest_add_sum_cost`), and so is the lower bound
(`Costs.rent_le_rest`): a decision that pays leaves a rent, and no other decision pays.
-/

namespace StakePoolCli.Ledger

open Checked DelegationChangeset

variable {Pubkey : Type} {lib : StakePoolLib Pubkey}

/-- The lamports that a change moves from the reserve to a validator. -/
def increaseOf : ValidatorDelegationChangeTy → ℕ
  | .increaseStake inc => inc.toNat
  | .partialIncreaseStake inc _ => inc.toNat
  | _ => 0

/-- The changes that move stake. -/
def MovesStake : ValidatorDelegationChangeTy → Prop
  | .decreaseStake _ | .increaseStake _ | .partialIncreaseStake _ _ => True
  | _ => False

instance : DecidablePred MovesStake := fun ty => by
  cases ty <;> first | exact isTrue trivial | exact isFalse id

/-- The rent a change takes from the reserve: that of the transient account, if there is none. -/
def tsaRent (saRent : ℕ) (src : ValidatorChangeSrc Pubkey)
    (change : ValidatorDelegationChange Pubkey) : ℕ :=
  if MovesStake change.ty ∧ src.tsa = none then saRent else 0

@[simp] theorem increased_decisionOf (ty : ValidatorDelegationChangeTy) :
    (decisionOf ty).increased = increaseOf ty := by
  cases ty <;> rfl

@[simp] theorem moves_decisionOf (ty : ValidatorDelegationChangeTy) :
    (decisionOf ty).Moves ↔ MovesStake ty := by
  cases ty <;> rfl

/-- The status of a delegated entry tells whether there is a transient account. -/
theorem status_demandOf_eq_none_iff (currEpoch : UInt64) {src : ValidatorChangeSrc Pubkey}
    (hdel : Delegated src.vsa src.tsa) :
    (demandOf currEpoch src).status = .none ↔ src.tsa = none := by
  obtain ⟨⟨next, status⟩, h⟩ := (nextEpochStake_ok_iff currEpoch).mpr hdel
  rw [demandOf_eq h]
  exact status_eq_none_iff h

/-- The costs of the ledger are the increases and the rents of the changes. -/
theorem sum_cost_eq {κ : Costs} {currEpoch : UInt64} {srcs : List (ValidatorChangeSrc Pubkey)}
    {out : List (ValidatorDelegationChange Pubkey)} (hlen : out.length = srcs.length)
    (hdel : ∀ src ∈ srcs, Delegated src.vsa src.tsa) :
    (List.zipWith κ.cost (srcs.map (demandOf currEpoch)) (out.map (decisionOf ·.ty))).sum =
      (out.map (increaseOf ·.ty)).sum + (List.zipWith (tsaRent κ.rent) srcs out).sum := by
  induction srcs generalizing out with
  | nil =>
    obtain rfl := List.length_eq_zero_iff.mp hlen
    rfl
  | cons src srcs ih =>
    obtain ⟨c, out, rfl⟩ := List.exists_cons_of_length_eq_add_one hlen
    have hrec := ih (Nat.succ.inj hlen) fun s hs => hdel s (List.mem_cons_of_mem _ hs)
    have hnone := status_demandOf_eq_none_iff currEpoch (hdel src List.mem_cons_self)
    simp only [List.map_cons, List.zipWith_cons_cons, List.sum_cons, hrec, Costs.cost,
      Costs.charge, tsaRent, increased_decisionOf, moves_decisionOf, hnone]
    omega

/-- **The reserve budget.** -/
theorem reserve_budget (lib : StakePoolLib Pubkey) (cs : DelegationChangeset Pubkey)
    (hrents : 2 * (lamportsForNewVsa cs.rent).toNat < 2 ^ 64)
    (hmin : lib.minActiveStake.toNat + (lamportsForNewVsa cs.rent).toNat < 2 ^ 64)
    (hdel : ∀ src ∈ cs.delegations,
      src.vsa.delegation.isSome ∧ ∀ ss ∈ src.tsa, ss.delegation.isSome) :
    (∃ out cs', collect lib cs = .ok (out, cs') ∧ out.length = cs.delegations.length ∧
      next lib cs' = .ok none) ∧
    ∀ k, ∃ out cs', Iteration.take (next lib) k cs = .ok (out, cs') ∧
      cs'.reserveLamports.toNat + (out.map (increaseOf ·.ty)).sum +
        (List.zipWith (tsaRent (lamportsForNewVsa cs.rent).toNat)
          (cs.delegations.take k) out).sum = cs.reserveLamports.toNat ∧
      ((∃ c ∈ out, MovesStake c.ty) →
        (lamportsForNewVsa cs.rent).toNat ≤ cs'.reserveLamports.toNat) := by
  have htake : ∀ k, ∃ out cs', Iteration.take (next lib) k cs = .ok (out, cs') := fun k => by
    obtain ⟨⟨out, cs'⟩, h⟩ := take_ok_iff.mpr fun src hsrc =>
      computable_of_delegated hrents hmin fun _ => hdel src (List.mem_of_mem_take hsrc)
    exact ⟨out, cs', h⟩
  constructor
  · obtain ⟨out, cs', h⟩ := htake cs.delegations.length
    have hfollows := take_spec h
    refine ⟨out, cs', h, ?_, ?_⟩
    · simpa using congrArg List.length hfollows.votes
    · rw [hfollows.state, next, List.drop_length]
  · intro k
    obtain ⟨out, cs', h⟩ := htake k
    have hfollows := take_spec h
    have hmem : ∀ src ∈ cs.delegations.take k, Delegated src.vsa src.tsa :=
      fun src hsrc => hdel src (List.mem_of_mem_take hsrc)
    refine ⟨out, cs', h, ?_, ?_⟩
    · have hlen : out.length = (cs.delegations.take k).length := by
        simpa using congrArg List.length hfollows.votes
      have hbudget := (costs lib cs.rent).rest_add_sum_cost ((demands cs).take k)
        cs.reserveLamports.toNat
      rw [← hfollows.decisions, ← hfollows.reserve, demands, ← List.map_take,
        sum_cost_eq hlen hmem, ← Nat.add_assoc, costs_rent] at hbudget
      exact hbudget
    · rintro ⟨c, hc, hmoves⟩
      rw [hfollows.reserve, ← costs_rent lib]
      refine Costs.rent_le_rest ⟨decisionOf c.ty, ?_, (moves_decisionOf _).mpr hmoves⟩
      rw [← hfollows.decisions]
      exact List.mem_map_of_mem hc

/-- A validator with too much stake, one with an activating transient account and too little, and
one that cannot be served in full. -/
def threeValidators : DelegationChangeset Address where
  delegations :=
    [⟨⟨20, 0, 7, 0, 0, .active, .key 1⟩, .stake ⟨9000000000, 3, u64Max⟩, none, 5000000000⟩,
     ⟨⟨20, 0, 7, 0, 0, .active, .key 2⟩, .stake ⟨2000000000, 3, u64Max⟩,
      some (.stake ⟨1000000000, 7, u64Max⟩), 4000000000⟩,
     ⟨⟨20, 0, 7, 0, 0, .active, .key 3⟩, .stake ⟨2000000000, 3, u64Max⟩, none, 90000000000⟩]
  reserveLamports := 10000000000
  currEpoch := 7
  rent := Rent.default

theorem reserve_budget_threeValidators : ∃ out cs',
    Iteration.take (next StakePoolLib.symbolic) 3 threeValidators = .ok (out, cs') ∧
      cs'.reserveLamports.toNat + (out.map (increaseOf ·.ty)).sum +
        (List.zipWith (tsaRent (lamportsForNewVsa Rent.default).toNat)
          (threeValidators.delegations.take 3) out).sum = 10000000000 ∧
      ((∃ c ∈ out, MovesStake c.ty) →
        (lamportsForNewVsa Rent.default).toNat ≤ cs'.reserveLamports.toNat) :=
  (reserve_budget StakePoolLib.symbolic threeValidators (by decide) (by decide)
    (by simp [threeValidators])).2 3

end StakePoolCli.Ledger
