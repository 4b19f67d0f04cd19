import StakePoolCli.Foundations.Budget
import StakePoolCli.PoolConfig.SyncDelegation

/-!
# The reserve as a budget

What a delegation changeset is for, in natural numbers: the pool's reserve is a budget that is
handed out along the list of validators (`Foundations/Budget.lean`). `Costs.decision` says which
change a validator gets when `R` lamports are left, and `Costs.cost` what it takes from them.

The changeset refines this ledger.

* `changeTy_spec`: a change that is computed is the ledger's decision, and the reserve after it is
  the ledger's.
* `changeTy_ok_iff`: a change is computed, without an overflow or an absent delegation, exactly
  when the entry is `Computable`, which does not depend on the reserve.
* `take_spec`, `take_ok_iff`: the same for the changes of a walk and of its prefixes.
-/

namespace StakePoolCli.Ledger

open Checked

/-- What a transient account and a validator stake account cost: the rent, with the minimum
delegation, of a new stake account, and the minimum active stake. -/
structure Costs where
  minActive : ℕ
  rent : ℕ

/-- What a validator has and should have. -/
structure Demand where
  active : Bool
  next : ℕ
  desired : ℕ
  status : TransientStakeAccStatus

inductive Decision
  | removed
  | wrongState
  | short
  | stay
  | decrease (dec : ℕ)
  | increase (inc : ℕ)
  | partialIncrease (inc shortfall : ℕ)
  deriving DecidableEq, Repr

/-- The lamports a decision moves out of the reserve. -/
def Decision.increased : Decision → ℕ
  | .increase inc => inc
  | .partialIncrease inc _ => inc
  | _ => 0

/-- The decisions that change something on chain. -/
def Decision.Moves : Decision → Prop
  | .decrease _ | .increase _ | .partialIncrease _ _ => True
  | _ => False

instance : DecidablePred Decision.Moves := fun c => by
  cases c <;> first | exact isTrue trivial | exact isFalse id

namespace Costs

variable (κ : Costs)

/-- The branch of a validator with too much stake. -/
def decisionDecrease (R excess : ℕ) : Decision :=
  if R < 2 * κ.rent then .short
  else if excess - κ.minActive < κ.minActive + κ.rent then .stay
  else .decrease (excess - κ.minActive)

/-- The branch of a validator with too little stake. -/
def decisionIncrease (R missing : ℕ) : Decision :=
  if R ≤ 2 * κ.rent then .short
  else if missing ≤ R - 2 * κ.rent then .increase missing
  else .partialIncrease (R - 2 * κ.rent) (missing - (R - 2 * κ.rent))

/-- The decision about a validator when `R` lamports are left. -/
def decision (R : ℕ) (d : Demand) : Decision :=
  if d.active = false then .removed
  else if d.desired < d.next then
    if d.status = .activating then .wrongState else κ.decisionDecrease R (d.next - d.desired)
  else if d.next < d.desired then
    if d.status = .deactivating then .wrongState else κ.decisionIncrease R (d.desired - d.next)
  else .stay

/-- The rent of the transient account, if a change creates it. -/
def charge (d : Demand) (c : Decision) : ℕ :=
  if c.Moves ∧ d.status = .none then κ.rent else 0

/-- What a decision takes from the reserve. -/
def cost (d : Demand) (c : Decision) : ℕ := c.increased + κ.charge d c

end Costs

/-! ## What the decisions satisfy -/

section

variable {κ : Costs} {R : ℕ} {d : Demand}

/-- Every decision that moves lamports leaves at least the rent of an account. -/
theorem rent_le_of_moves (h : (κ.decision R d).Moves) :
    κ.rent + κ.cost d (κ.decision R d) ≤ R := by
  have hcharge : ∀ c, κ.charge d c ≤ κ.rent := fun c => by unfold Costs.charge; split <;> omega
  unfold Costs.cost
  have := hcharge (κ.decision R d)
  revert h this
  simp only [Costs.decision, Costs.decisionDecrease, Costs.decisionIncrease]
  split_ifs <;> simp only [Decision.Moves, Decision.increased, false_implies, true_implies] <;>
    omega

/-- A decision that moves nothing costs nothing. -/
theorem cost_of_not_moves {c : Decision} (h : ¬ c.Moves) : κ.cost d c = 0 := by
  cases c <;> simp_all [Costs.cost, Costs.charge, Decision.Moves, Decision.increased]

/-- No decision costs more than is left. -/
theorem cost_decision_le (R : ℕ) (d : Demand) : κ.cost d (κ.decision R d) ≤ R := by
  by_cases h : (κ.decision R d).Moves
  · have := rent_le_of_moves h
    omega
  · rw [cost_of_not_moves h]
    omega

end

/-! ## The ledger of a changeset -/

variable {Pubkey : Type} (lib : StakePoolLib Pubkey)

/-- The costs at a rent schedule. -/
def costs (rent : Rent) : Costs where
  minActive := lib.minActiveStake.toNat
  rent := (lamportsForNewVsa rent).toNat

@[simp] theorem costs_minActive (rent : Rent) :
    (costs lib rent).minActive = lib.minActiveStake.toNat := rfl

@[simp] theorem costs_rent (rent : Rent) :
    (costs lib rent).rent = (lamportsForNewVsa rent).toNat := by
  simp only [costs]

theorem costs_rent_pos (rent : Rent) : 0 < (costs lib rent).rent := by
  rw [costs_rent]
  exact lamportsForNewVsa_pos rent

/-- The demand of an entry. Without an estimate of its stake it is an arbitrary one. -/
def demandOf (currEpoch : UInt64) (src : ValidatorChangeSrc Pubkey) : Demand :=
  let estimate := (nextEpochStakeAndTransientStatus src.vsa src.tsa currEpoch).toOption
  { active := src.vsi.status = .active
    next := (estimate.map (·.1.toNat)).getD 0
    desired := src.desired.toNat
    status := (estimate.map (·.2)).getD .none }

/-- A change, in natural numbers. -/
def decisionOf : ValidatorDelegationChangeTy → Decision
  | .decreaseStake dec => .decrease dec.toNat
  | .increaseStake inc => .increase inc.toNat
  | .partialIncreaseStake inc shortfall => .partialIncrease inc.toNat shortfall.toNat
  | .insufficientReserveLamports => .short
  | .noChange => .stay
  | .transientWrongState => .wrongState
  | .validatorBeingRemoved => .removed

theorem decisionOf_injective : Function.Injective decisionOf := by
  intro a b h
  cases a <;> cases b <;> simp_all [decisionOf, UInt64.toNat_inj]

/-! ## The estimate of the next epoch's stake -/

section

variable {vsa : StakeStateV2} {tsa : Option StakeStateV2} {currEpoch : UInt64}

/-- The accounts whose stake can be estimated: those that carry a delegation. -/
def Delegated (vsa : StakeStateV2) (tsa : Option StakeStateV2) : Prop :=
  vsa.delegation.isSome ∧ ∀ ss ∈ tsa, ss.delegation.isSome

theorem nextEpochStake_ok_iff (currEpoch : UInt64) :
    (∃ x, nextEpochStakeAndTransientStatus vsa tsa currEpoch = .ok x) ↔ Delegated vsa tsa := by
  unfold nextEpochStakeAndTransientStatus Delegated
  cases hv : vsa.delegation with
  | none => simp [unwrap]
  | some v =>
    cases tsa with
    | none => simp
    | some ss =>
      cases ht : ss.delegation with
      | none => simp [ht, unwrap]
      | some t =>
        simp only [unwrap_some, ok_bind, ht, Option.isSome_some, true_and, Option.mem_def,
          Option.some.injEq, forall_eq', iff_true]
        split <;> exact ⟨_, rfl⟩

/-- The transient status is `none` exactly when there is no transient account. -/
theorem status_eq_none_iff {next : UInt64} {status : TransientStakeAccStatus}
    (h : nextEpochStakeAndTransientStatus vsa tsa currEpoch = .ok (next, status)) :
    status = .none ↔ tsa = none := by
  unfold nextEpochStakeAndTransientStatus at h
  obtain ⟨v, -, h⟩ := bind_eq_ok.mp h
  cases tsa with
  | none => simp_all
  | some ss =>
    obtain ⟨t, -, h⟩ := bind_eq_ok.mp h
    split at h <;> cases h <;> simp

end

theorem demandOf_eq {currEpoch : UInt64} {src : ValidatorChangeSrc Pubkey} {next : UInt64}
    {status : TransientStakeAccStatus}
    (h : nextEpochStakeAndTransientStatus src.vsa src.tsa currEpoch = .ok (next, status)) :
    demandOf currEpoch src = ⟨src.vsi.status = .active, next.toNat, src.desired.toNat, status⟩ := by
  simp [demandOf, h, Except.toOption]

/-! ## One change -/

section

open DelegationChangeset

variable {lib} {rent : Rent} {reserve reserve' next desired : UInt64}
  {ty : ValidatorDelegationChangeTy} {status : TransientStakeAccStatus}

theorem payTsaRent_eq_ok {saRent : UInt64} :
    payTsaRent saRent status reserve = .ok reserve' ↔
      (if status = .none then saRent.toNat else 0) + reserve'.toNat = reserve.toNat := by
  cases status with
  | none => simp [payTsaRent, checkedSub_eq_ok]
  | activating | deactivating => simp [payTsaRent, ← UInt64.toNat_inj, eq_comm]

/-- The branch of a validator with too much stake follows the ledger. -/
theorem decrease_spec (h : decrease lib rent reserve next desired status = .ok (ty, reserve')) :
    decisionOf ty = (costs lib rent).decisionDecrease reserve.toNat (next.toNat - desired.toNat) ∧
      (if (decisionOf ty).Moves ∧ status = .none then (costs lib rent).rent else 0) +
        reserve'.toNat = reserve.toNat := by
  unfold decrease at h
  obtain ⟨excess, hexcess, h⟩ := bind_eq_ok.mp h
  obtain ⟨minTsa, hminTsa, h⟩ := bind_eq_ok.mp h
  obtain ⟨twoRents, htwo, h⟩ := bind_eq_ok.mp h
  rw [checkedSub_eq_ok] at hexcess
  rw [checkedAdd_eq_ok] at hminTsa
  rw [checkedMul_eq_ok, show (2 : UInt64).toNat = 2 from rfl] at htwo
  have hex : next.toNat - desired.toNat = excess.toNat := by omega
  simp only [Costs.decisionDecrease, costs, htwo, hminTsa, hex]
  split_ifs at h with h₁ h₂
  · obtain ⟨rfl, rfl⟩ := Prod.mk.inj (Except.ok.inj h)
    rw [if_pos (UInt64.lt_iff_toNat_lt.mp h₁)]
    simp [decisionOf, Decision.Moves]
  · obtain ⟨rfl, rfl⟩ := Prod.mk.inj (Except.ok.inj h)
    rw [UInt64.lt_iff_toNat_lt] at h₁ h₂
    rw [toNat_saturatingSub] at h₂
    rw [if_neg h₁, if_pos h₂]
    simp [decisionOf, Decision.Moves]
  · obtain ⟨r, hpay, h⟩ := bind_eq_ok.mp h
    obtain ⟨rfl, rfl⟩ := Prod.mk.inj (Except.ok.inj h)
    rw [UInt64.lt_iff_toNat_lt] at h₁ h₂
    rw [toNat_saturatingSub] at h₂
    rw [if_neg h₁, if_neg h₂]
    simpa [decisionOf, Decision.Moves] using payTsaRent_eq_ok.mp hpay

variable (lib) in
/-- The branch of a validator with too little stake follows the ledger. -/
theorem increase_spec (hlt : next < desired)
    (h : increase rent reserve next desired status = .ok (ty, reserve')) :
    decisionOf ty = (costs lib rent).decisionIncrease reserve.toNat (desired.toNat - next.toNat) ∧
      (decisionOf ty).increased +
        (if (decisionOf ty).Moves ∧ status = .none then (costs lib rent).rent else 0) +
        reserve'.toNat = reserve.toNat := by
  unfold increase at h
  obtain ⟨twoRents, htwo, h⟩ := bind_eq_ok.mp h
  obtain ⟨missing, hmissing, h⟩ := bind_eq_ok.mp h
  rw [checkedSub_eq_ok] at hmissing
  rw [checkedMul_eq_ok, show (2 : UInt64).toNat = 2 from rfl] at htwo
  rw [UInt64.lt_iff_toNat_lt] at hlt
  have hmiss : desired.toNat - next.toNat = missing.toNat := by omega
  have hinc : (min (saturatingSub reserve twoRents) missing).toNat =
      min (reserve.toNat - twoRents.toNat) missing.toNat := by simp
  simp only [Costs.decisionIncrease, costs, htwo, hmiss]
  generalize min (saturatingSub reserve twoRents) missing = inc at h hinc
  dsimp only at h
  split at h
  · rename_i h₁
    obtain ⟨rfl, rfl⟩ := Prod.mk.inj (Except.ok.inj h)
    rw [h₁, UInt64.toNat_zero] at hinc
    rw [if_pos (by omega)]
    simp [decisionOf, Decision.Moves, Decision.increased]
  rename_i h₁
  obtain ⟨r₁, hsub, h⟩ := bind_eq_ok.mp h
  obtain ⟨r₂, hpay, h⟩ := bind_eq_ok.mp h
  rw [checkedSub_eq_ok] at hsub
  rw [payTsaRent_eq_ok] at hpay
  rw [← UInt64.toNat_inj, UInt64.toNat_zero] at h₁
  split_ifs at h with h₂
  · obtain ⟨rfl, rfl⟩ := Prod.mk.inj (Except.ok.inj h)
    rw [if_neg (by omega), if_pos (by rw [h₂] at hinc; omega)]
    simp only [decisionOf, Decision.Moves, Decision.increased, true_and, h₂]
    rw [← h₂]
    omega
  · obtain ⟨shortfall, hshort, h⟩ := bind_eq_ok.mp h
    obtain ⟨rfl, rfl⟩ := Prod.mk.inj (Except.ok.inj h)
    rw [checkedSub_eq_ok] at hshort
    rw [← UInt64.toNat_inj] at h₂
    rw [if_neg (by omega), if_neg (by omega)]
    simp only [decisionOf, Decision.Moves, Decision.increased, true_and,
      Decision.partialIncrease.injEq]
    omega

/-- **A change follows the ledger**: it is the ledger's decision, and the reserve after it is
what the ledger leaves. -/
theorem changeTy_spec {currEpoch : UInt64} {src : ValidatorChangeSrc Pubkey}
    (h : changeTy lib rent currEpoch reserve src = .ok (ty, reserve')) :
    decisionOf ty = (costs lib rent).decision reserve.toNat (demandOf currEpoch src) ∧
      reserve'.toNat = reserve.toNat - (costs lib rent).cost (demandOf currEpoch src)
        ((costs lib rent).decision reserve.toNat (demandOf currEpoch src)) := by
  unfold changeTy at h
  split at h
  · rename_i hactive
    obtain ⟨rfl, rfl⟩ := Prod.mk.inj (Except.ok.inj h)
    have hdecide : (costs lib rent).decision reserve.toNat (demandOf currEpoch src) = .removed := by
      simp [Costs.decision, demandOf, hactive]
    rw [hdecide, cost_of_not_moves id]
    exact ⟨rfl, rfl⟩
  rename_i hactive
  obtain ⟨⟨next, status⟩, hnext, h⟩ := bind_eq_ok.mp h
  rw [demandOf_eq hnext]
  simp only [ne_eq, not_not] at hactive
  simp only [Costs.decision, hactive, decide_true, Bool.true_eq_false, if_false]
  cases hcmp : compare next src.desired with
  | gt =>
    have hlt := UInt64.lt_iff_toNat_lt.mp (Std.compare_eq_gt.mp hcmp)
    rw [if_pos hlt]
    simp only [hcmp] at h
    cases status with
    | activating =>
      obtain ⟨rfl, rfl⟩ := Prod.mk.inj (Except.ok.inj h)
      rw [if_pos rfl, cost_of_not_moves id]
      exact ⟨rfl, rfl⟩
    | deactivating | none =>
      obtain ⟨hty, hres⟩ := decrease_spec h
      rw [if_neg (by decide), ← hty]
      refine ⟨rfl, ?_⟩
      dsimp only [Costs.cost, Costs.charge]
      have hincr : (decisionOf ty).increased = 0 := by
        rw [hty, Costs.decisionDecrease]
        split_ifs <;> rfl
      omega
  | eq =>
    have heq := Std.LawfulEqOrd.eq_of_compare hcmp
    simp only [hcmp] at h
    obtain ⟨rfl, rfl⟩ := Prod.mk.inj (Except.ok.inj h)
    simp only [heq, Nat.lt_irrefl, if_false]
    rw [cost_of_not_moves id]
    exact ⟨rfl, rfl⟩
  | lt =>
    have hlt' := Std.compare_eq_lt.mp hcmp
    have hlt := UInt64.lt_iff_toNat_lt.mp hlt'
    rw [if_neg (by omega), if_pos hlt]
    simp only [hcmp] at h
    cases status with
    | deactivating =>
      obtain ⟨rfl, rfl⟩ := Prod.mk.inj (Except.ok.inj h)
      rw [if_pos rfl, cost_of_not_moves id]
      exact ⟨rfl, rfl⟩
    | activating | none =>
      obtain ⟨hty, hres⟩ := increase_spec lib hlt' h
      rw [if_neg (by decide), ← hty]
      refine ⟨rfl, ?_⟩
      dsimp only [Costs.cost, Costs.charge]
      omega

/-! ## When a change is computed -/

/-- The transient account's rent is paid out of a reserve that holds it. -/
theorem payTsaRent_ok (status : TransientStakeAccStatus) {saRent : UInt64}
    (h : saRent.toNat ≤ reserve.toNat) : ∃ r, payTsaRent saRent status reserve = .ok r := by
  cases status with
  | none =>
    obtain ⟨r, hr, -⟩ := checkedSub_of_le h
    exact ⟨r, hr⟩
  | activating | deactivating => exact ⟨reserve, rfl⟩

theorem decrease_ok_iff (hlt : desired < next) :
    (∃ x, decrease lib rent reserve next desired status = .ok x) ↔
      (costs lib rent).minActive + (costs lib rent).rent < 2 ^ 64 ∧
        2 * (costs lib rent).rent < 2 ^ 64 := by
  rw [UInt64.lt_iff_toNat_lt] at hlt
  constructor
  · rintro ⟨x, h⟩
    unfold decrease at h
    obtain ⟨excess, -, h⟩ := bind_eq_ok.mp h
    obtain ⟨minTsa, hminTsa, h⟩ := bind_eq_ok.mp h
    obtain ⟨twoRents, htwo, h⟩ := bind_eq_ok.mp h
    rw [checkedAdd_eq_ok] at hminTsa
    rw [checkedMul_eq_ok, show (2 : UInt64).toNat = 2 from rfl] at htwo
    have := minTsa.toNat_lt
    have := twoRents.toNat_lt
    simp only [costs]
    omega
  · rintro ⟨hadd, hmul⟩
    simp only [costs] at hadd
    have hmul : (2 : UInt64).toNat * (lamportsForNewVsa rent).toNat < 2 ^ 64 := by
      simpa [costs] using hmul
    obtain ⟨excess, hexcess, -⟩ := checkedSub_of_le (Nat.le_of_lt hlt)
    obtain ⟨minTsa, hminTsa, -⟩ := checkedAdd_of_lt hadd
    obtain ⟨twoRents, htwo, htwo'⟩ := checkedMul_of_lt hmul
    rw [show (2 : UInt64).toNat = 2 from rfl] at htwo'
    simp only [decrease, hexcess, hminTsa, htwo, ok_bind]
    split_ifs with h₁ h₂
    · exact ⟨_, rfl⟩
    · exact ⟨_, rfl⟩
    · rw [UInt64.lt_iff_toNat_lt] at h₁
      have hpay : (lamportsForNewVsa rent).toNat ≤ reserve.toNat := by omega
      obtain ⟨r, hr⟩ := payTsaRent_ok status hpay
      exact ⟨_, by rw [hr]; rfl⟩

variable (lib) in
theorem increase_ok_iff (hlt : next < desired) :
    (∃ x, increase rent reserve next desired status = .ok x) ↔
      2 * (costs lib rent).rent < 2 ^ 64 := by
  rw [UInt64.lt_iff_toNat_lt] at hlt
  constructor
  · rintro ⟨x, h⟩
    unfold increase at h
    obtain ⟨twoRents, htwo, h⟩ := bind_eq_ok.mp h
    rw [checkedMul_eq_ok, show (2 : UInt64).toNat = 2 from rfl] at htwo
    have := twoRents.toNat_lt
    simp only [costs]
    omega
  · intro hmul
    have hmul : (2 : UInt64).toNat * (lamportsForNewVsa rent).toNat < 2 ^ 64 := by
      simpa [costs] using hmul
    obtain ⟨twoRents, htwo, htwo'⟩ := checkedMul_of_lt hmul
    rw [show (2 : UInt64).toNat = 2 from rfl] at htwo'
    obtain ⟨missing, hmissing, -⟩ := checkedSub_of_le (Nat.le_of_lt hlt)
    have hinc : (min (saturatingSub reserve twoRents) missing).toNat =
        min (reserve.toNat - twoRents.toNat) missing.toNat := by simp
    simp only [increase, htwo, hmissing, ok_bind]
    generalize min (saturatingSub reserve twoRents) missing = inc at hinc
    by_cases h₁ : inc = 0
    · exact ⟨_, if_pos h₁⟩
    rw [if_neg h₁]
    rw [← UInt64.toNat_inj, UInt64.toNat_zero] at h₁
    obtain ⟨r₁, hr₁, hr₁'⟩ := @checkedSub_of_le reserve inc (by omega)
    have hpay : (lamportsForNewVsa rent).toNat ≤ r₁.toNat := by omega
    obtain ⟨r₂, hr₂⟩ := payTsaRent_ok status hpay
    obtain ⟨shortfall, hshort, -⟩ := @checkedSub_of_le missing inc (by omega)
    rw [hr₁, ok_bind, hr₂, ok_bind, hshort]
    split_ifs <;> exact ⟨_, rfl⟩

/-- The sums a demand needs fit in a word. -/
def Costs.FitsFor (κ : Costs) (d : Demand) : Prop :=
  d.active = true →
    (d.desired < d.next → d.status ≠ .activating →
      κ.minActive + κ.rent < 2 ^ 64 ∧ 2 * κ.rent < 2 ^ 64) ∧
    (d.next < d.desired → d.status ≠ .deactivating → 2 * κ.rent < 2 ^ 64)

variable (lib) in
/-- The entries whose change is computed: those of active validators carry their delegations, and
the sums needed for them fit. -/
def Computable (rent : Rent) (currEpoch : UInt64) (src : ValidatorChangeSrc Pubkey) : Prop :=
  (src.vsi.status = .active → Delegated src.vsa src.tsa) ∧
    (costs lib rent).FitsFor (demandOf currEpoch src)

/-- **A change is computed exactly for the computable entries**, whatever the reserve. -/
theorem changeTy_ok_iff (reserve : UInt64) {currEpoch : UInt64} {src : ValidatorChangeSrc Pubkey} :
    (∃ x, changeTy lib rent currEpoch reserve src = .ok x) ↔ Computable lib rent currEpoch src := by
  unfold changeTy Computable
  by_cases hactive : src.vsi.status = .active
  swap
  · simp [hactive, Costs.FitsFor, demandOf]
  by_cases hdel : Delegated src.vsa src.tsa
  swap
  · refine iff_of_false ?_ fun h => hdel (h.1 hactive)
    rintro ⟨x, h⟩
    rw [if_neg (not_not.mpr hactive)] at h
    obtain ⟨y, hy, -⟩ := bind_eq_ok.mp h
    exact hdel ((nextEpochStake_ok_iff _).mp ⟨y, hy⟩)
  obtain ⟨⟨next, status⟩, hnext⟩ := (nextEpochStake_ok_iff currEpoch).mpr hdel
  rw [demandOf_eq hnext, if_neg (not_not.mpr hactive), hnext, ok_bind]
  simp only [hactive, hdel, Costs.FitsFor, decide_true, true_implies, true_and]
  cases hcmp : compare next src.desired with
  | gt =>
    have hlt' := Std.compare_eq_gt.mp hcmp
    have hlt := UInt64.lt_iff_toNat_lt.mp hlt'
    cases status with
    | activating => simp [Nat.lt_asymm hlt]
    | deactivating | none => simp [decrease_ok_iff hlt', hlt, Nat.lt_asymm hlt]
  | eq =>
    obtain rfl := Std.LawfulEqOrd.eq_of_compare hcmp
    simp
  | lt =>
    have hlt' := Std.compare_eq_lt.mp hcmp
    have hlt := UInt64.lt_iff_toNat_lt.mp hlt'
    cases status with
    | deactivating => simp [Nat.lt_asymm hlt]
    | activating | none => simp [increase_ok_iff lib hlt', hlt, Nat.lt_asymm hlt]

end

/-- With the delegations of an active validator present and the sums fitting, its entry is
computable. -/
theorem computable_of_delegated {lib : StakePoolLib Pubkey} {rent : Rent} {currEpoch : UInt64}
    {src : ValidatorChangeSrc Pubkey} (hrents : 2 * (lamportsForNewVsa rent).toNat < 2 ^ 64)
    (hmin : lib.minActiveStake.toNat + (lamportsForNewVsa rent).toNat < 2 ^ 64)
    (hdel : src.vsi.status = .active → Delegated src.vsa src.tsa) :
    Computable lib rent currEpoch src := by
  rw [← costs_rent lib] at hrents hmin
  rw [← costs_minActive lib rent] at hmin
  exact ⟨hdel, fun _ => ⟨fun _ _ => ⟨hmin, hrents⟩, fun _ _ => hrents⟩⟩

/-! ## The walk -/

namespace Costs

/-- The decisions of the ledger along a list. -/
def decisions (κ : Costs) : List Demand → ℕ → List Decision := Budget.decisions κ.decision κ.cost

/-- What the ledger leaves of the reserve. -/
def rest (κ : Costs) : List Demand → ℕ → ℕ := Budget.rest κ.decision κ.cost

theorem rest_add_sum_cost (κ : Costs) (ds : List Demand) (R : ℕ) :
    κ.rest ds R + (List.zipWith κ.cost ds (κ.decisions ds R)).sum = R :=
  Budget.rest_add_sum_cost cost_decision_le ds R

/-- Once something has moved, the rent of one account is left. -/
theorem rent_le_rest {κ : Costs} {ds : List Demand} {R : ℕ}
    (h : ∃ c ∈ κ.decisions ds R, c.Moves) : κ.rent ≤ κ.rest ds R := by
  refine Budget.le_rest_of_pays (fun R d hpays => ?_) (fun R d => cost_of_not_moves) ds R (.inr h)
  have := rent_le_of_moves hpays
  omega

end Costs

/-- The demands of a changeset. -/
def demands (cs : DelegationChangeset Pubkey) : List Demand :=
  cs.delegations.map (demandOf cs.currEpoch)

section

open DelegationChangeset Iteration

variable {lib} {cs cs' : DelegationChangeset Pubkey}
  {out : List (ValidatorDelegationChange Pubkey)} {k : ℕ}

/-- What the first `k` changes of a changeset have to be. -/
structure Follows (lib : StakePoolLib Pubkey) (cs : DelegationChangeset Pubkey) (k : ℕ)
    (out : List (ValidatorDelegationChange Pubkey)) (cs' : DelegationChangeset Pubkey) : Prop where
  decisions : out.map (decisionOf ·.ty) =
    (costs lib cs.rent).decisions ((demands cs).take k) cs.reserveLamports.toNat
  reserve : cs'.reserveLamports.toNat =
    (costs lib cs.rent).rest ((demands cs).take k) cs.reserveLamports.toNat
  votes : out.map (·.vote) = (cs.delegations.take k).map (·.vsi.voteAccountAddress)
  seeds : out.map (·.transientSeedSuffix) =
    (cs.delegations.take k).map (·.vsi.transientSeedSuffix)
  state : cs' = { cs with
    delegations := cs.delegations.drop k, reserveLamports := cs'.reserveLamports }

/-- The change at a position is the decision made with what the entries before it left. -/
theorem Follows.getElem? (h : Follows lib cs k out cs') {i : ℕ} {src : ValidatorChangeSrc Pubkey}
    {c : ValidatorDelegationChange Pubkey} (hsrc : (cs.delegations.take k)[i]? = some src)
    (hc : out[i]? = some c) :
    c.vote = src.vsi.voteAccountAddress ∧
      decisionOf c.ty = (costs lib cs.rent).decision
        ((costs lib cs.rent).rest (((cs.delegations.take k).take i).map (demandOf cs.currEpoch))
          cs.reserveLamports.toNat) (demandOf cs.currEpoch src) := by
  have hvotes := congrArg (·[i]?) h.votes
  have hdec := congrArg (·[i]?) h.decisions
  simp only [Costs.decisions, Budget.getElem?_decisions, demands, ← List.map_take,
    List.getElem?_map, hsrc, hc, Option.map_some, Option.some.injEq] at hvotes hdec
  exact ⟨hvotes, hdec⟩

/-- **A walk follows the ledger.** -/
theorem take_spec (h : take (next lib) k cs = .ok (out, cs')) : Follows lib cs k out cs' := by
  induction k generalizing cs out with
  | zero =>
    obtain ⟨rfl, rfl⟩ := Prod.mk.inj (Except.ok.inj h)
    exact ⟨rfl, rfl, rfl, rfl, rfl⟩
  | succ k ih =>
    obtain ⟨delegations, reserve, currEpoch, rent⟩ := cs
    cases delegations with
    | nil =>
      rw [take_succ_of_none rfl] at h
      obtain ⟨rfl, rfl⟩ := Prod.mk.inj (Except.ok.inj h)
      exact ⟨rfl, rfl, rfl, rfl, rfl⟩
    | cons src delegations =>
      rcases take_succ_eq_ok.mp h with ⟨h', -⟩ | ⟨c, cs₁, out', hnext, htake, rfl⟩
      · obtain ⟨x, -, hx⟩ := bind_eq_ok.mp h'
        cases hx
      obtain ⟨⟨ty, reserve₁⟩, hty, hx⟩ := bind_eq_ok.mp hnext
      obtain ⟨rfl, rfl⟩ := Prod.mk.inj (Option.some.inj (Except.ok.inj hx))
      obtain ⟨hdec, hres⟩ := changeTy_spec hty
      obtain ⟨h₁, h₂, h₃, h₄, h₅⟩ := ih htake
      dsimp only at hdec hres h₁ h₂ h₃ h₄
      rw [hres] at h₁ h₂
      exact ⟨congrArg₂ List.cons hdec h₁, h₂, congrArg (List.cons _) h₃,
        congrArg (List.cons _) h₄, h₅⟩

/-- A walk is computed exactly when its entries are computable. -/
theorem take_ok_iff : (∃ x, take (next lib) k cs = .ok x) ↔
    ∀ src ∈ cs.delegations.take k, Computable lib cs.rent cs.currEpoch src := by
  induction k generalizing cs with
  | zero => exact iff_of_true ⟨_, rfl⟩ (by simp)
  | succ k ih =>
    obtain ⟨delegations, reserve, currEpoch, rent⟩ := cs
    cases delegations with
    | nil => exact iff_of_true ⟨_, take_succ_of_none rfl k⟩ (by simp)
    | cons src delegations =>
      simp only [List.take_succ_cons, List.forall_mem_cons]
      rw [← changeTy_ok_iff reserve]
      constructor
      · rintro ⟨⟨out, cs'⟩, h⟩
        rcases take_succ_eq_ok.mp h with ⟨h', -⟩ | ⟨c, cs₁, out', hnext, htake, rfl⟩
        · obtain ⟨x, -, hx⟩ := bind_eq_ok.mp h'
          cases hx
        obtain ⟨⟨ty, reserve₁⟩, hty, hx⟩ := bind_eq_ok.mp hnext
        obtain ⟨rfl, rfl⟩ := Prod.mk.inj (Option.some.inj (Except.ok.inj hx))
        exact ⟨⟨_, hty⟩, ih.mp ⟨_, htake⟩⟩
      · rintro ⟨⟨⟨ty, reserve₁⟩, hty⟩, hrest⟩
        obtain ⟨⟨out, cs'⟩, htake⟩ := (@ih ⟨delegations, reserve₁, currEpoch, rent⟩).mpr hrest
        let c : ValidatorDelegationChange Pubkey :=
          ⟨src.vsi.voteAccountAddress, src.vsi.transientSeedSuffix, ty⟩
        have hnext : next lib ⟨src :: delegations, reserve, currEpoch, rent⟩ =
            .ok (some (c, ⟨delegations, reserve₁, currEpoch, rent⟩)) := by
          dsimp only [next]
          rw [hty]
          rfl
        refine ⟨(c :: out, cs'), ?_⟩
        rw [take_succ_of_some hnext, htake]
        rfl

/-- The changes up to exhaustion, when the delegations of active validators are present and the sums
fit. -/
theorem collect_ok (hrents : 2 * (lamportsForNewVsa cs.rent).toNat < 2 ^ 64)
    (hmin : lib.minActiveStake.toNat + (lamportsForNewVsa cs.rent).toNat < 2 ^ 64)
    (hdel : ∀ src ∈ cs.delegations, src.vsi.status = .active → Delegated src.vsa src.tsa) :
    ∃ out cs', collect lib cs = .ok (out, cs') ∧
      Follows lib cs cs.delegations.length out cs' := by
  obtain ⟨⟨out, cs'⟩, h⟩ := take_ok_iff.mpr fun src hsrc =>
    computable_of_delegated hrents hmin (hdel src (List.mem_of_mem_take hsrc))
  exact ⟨out, cs', h, take_spec h⟩

end

end StakePoolCli.Ledger
