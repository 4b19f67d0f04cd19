import StakePoolCli.Delegation.Order
import StakePoolCli.Delegation.Rerun
import StakePoolCli.Foundations.Approach

/-!
# A scheme over the epochs

A pool is kept in line with a scheme by running it again and again. Of the instructions of a run
some are executed, and at the end of an epoch the transient accounts are gone: an activating one has
become part of the validator's stake account, a deactivating one of the reserve. What a validator
will then have is its `settledStake`.

Only the runs and the merging of transient accounts are considered. It is assumed that no staking
rewards are paid and nobody else moves the validators' stake (`Settles`, `SameStake`), that the
update at the boundary merges every transient account of the scheme (`Settles`), that a stake
account from which stake is taken was activated in an earlier epoch (`Landed.decrease`), and that
the validators of the scheme stay in the pool (`EpochPasses`).

* `stakes_move_toward_targets`: over any sequence of runs and epochs, whatever happens to the
  reserve, the settled stake of every validator of the scheme moves toward its target and does not
  pass it.
* `changes_cease`: so from some point on no instruction moves stake.
* `quiet_after_epoch`: when the transient accounts are gone, a run moves the stake of those
  validators only that the run before has left short.
-/

namespace StakePoolCli.Ledger

open Checked Approach

variable {Pubkey : Type}

/-! ## What a validator has when the epoch is over -/

/-- The stake of a transient account that stays with the validator. -/
def stayingStake : Option StakeStateV2 → ℕ
  | some (.stake dlgt) => if dlgt.deactivationEpoch = u64Max then dlgt.stake.toNat else 0
  | _ => 0

/-- The stake of a validator when the epoch is over. -/
def settledStake (src : ValidatorChangeSrc Pubkey) : ℕ :=
  (src.vsa.delegation.map (·.stake.toNat)).getD 0 + stayingStake src.tsa

/-- A transient account is either activated in this epoch or being deactivated. -/
def TransientConsistent (epoch : UInt64) (tsa : Option StakeStateV2) : Prop :=
  ∀ dlgt, tsa = some (.stake dlgt) →
    (dlgt.activationEpoch = epoch ↔ dlgt.deactivationEpoch = u64Max)

theorem transientConsistent_none (epoch : UInt64) : TransientConsistent epoch none := nofun

section

variable {epoch next : UInt64} {src : ValidatorChangeSrc Pubkey} {status : TransientStakeAccStatus}
  (hnext : nextEpochStakeAndTransientStatus src.vsa src.tsa epoch = .ok (next, status))
  (hcons : TransientConsistent epoch src.tsa)
include hnext hcons

/-- The estimate tells which transient accounts stay. -/
theorem stayingStake_of_estimate :
    stayingStake src.tsa = if status = .activating then (transientStake src.tsa).toNat else 0 := by
  unfold nextEpochStakeAndTransientStatus at hnext
  obtain ⟨v, -, h⟩ := bind_eq_ok.mp hnext
  cases htsa : src.tsa with
  | none =>
    rw [htsa] at h
    obtain ⟨-, rfl⟩ := Prod.mk.inj (Except.ok.inj h)
    rfl
  | some ss =>
    rw [htsa] at h
    obtain ⟨t, ht, h⟩ := bind_eq_ok.mp h
    cases ss with
    | stake dlgt =>
      obtain rfl : dlgt = t := Option.some.inj (unwrap_eq_ok.mp ht)
      have hiff := hcons dlgt htsa
      have hstake : transientStake (some (.stake dlgt)) = dlgt.stake := rfl
      rw [stayingStake, hstake]
      split_ifs at h with hact
      · obtain ⟨-, rfl⟩ := Prod.mk.inj (Except.ok.inj h)
        rw [if_pos (hiff.mp hact), if_pos rfl]
      · obtain ⟨-, rfl⟩ := Prod.mk.inj (Except.ok.inj h)
        rw [if_neg fun hmax => hact (hiff.mpr hmax), if_neg (by simp)]
    | uninitialized | initialized | rewardsPool => cases ht

/-- Without a deactivating transient account the estimate is right, up to what a word holds. -/
theorem settledStake_eq_of_lt (hstatus : status ≠ .deactivating)
    (hlt : next.toNat < 18446744073709551615) : settledStake src = next.toNat := by
  obtain ⟨dlgt, hdlgt, hsum, hdiff⟩ := nextEpochStake_spec hnext
  have hsum := hsum hstatus
  rw [settledStake, hdlgt, stayingStake_of_estimate hnext hcons]
  dsimp only [Option.map_some, Option.getD_some]
  by_cases hact : status = .activating
  · rw [if_pos hact]
    omega
  · rw [if_neg hact]
    have hdiff := hdiff hact
    omega

/-- Without an activating transient account what settles is the validator stake account's. -/
theorem settledStake_eq_vsa (hstatus : status ≠ .activating) : ∃ dlgt,
    src.vsa.delegation = some dlgt ∧ settledStake src = dlgt.stake.toNat ∧
      next.toNat ≤ dlgt.stake.toNat := by
  obtain ⟨dlgt, hdlgt, -, hdiff⟩ := nextEpochStake_spec hnext
  have hdiff := hdiff hstatus
  refine ⟨dlgt, hdlgt, ?_, by omega⟩
  rw [settledStake, hdlgt, stayingStake_of_estimate hnext hcons, if_neg hstatus]
  rfl

end

/-! ## What a change makes of it -/

/-- The lamports that a change moves, to the validator or from it. -/
def movedOf : ValidatorDelegationChangeTy → ℕ
  | .decreaseStake dec => dec.toNat
  | .increaseStake inc => inc.toNat
  | .partialIncreaseStake inc _ => inc.toNat
  | _ => 0

section

variable {lib : StakePoolLib Pubkey} {rent : Rent} {epoch : UInt64}
  {src src' : ValidatorChangeSrc Pubkey} {ty : ValidatorDelegationChangeTy} {κ : Costs} {R : ℕ}
  {d : Demand}

/-- An increase that does not pass the target, once it has landed. -/
theorem settledStake_increased {inc next : UInt64} {status : TransientStakeAccStatus}
    (hnext : nextEpochStakeAndTransientStatus src.vsa src.tsa epoch = .ok (next, status))
    (hcons : TransientConsistent epoch src.tsa) (hstatus : status ≠ .deactivating)
    (hlt : next.toNat < src.desired.toNat) (hle : next.toNat + inc.toNat ≤ src.desired.toNat) :
    settledStake src = next.toNat ∧
      settledStake { src with
        tsa := some (.stake ⟨transientStake src.tsa + inc, epoch, u64Max⟩) } =
        next.toNat + inc.toNat := by
  have hmax := toNat_le_max src.desired
  have hsettled := settledStake_eq_of_lt hnext hcons hstatus (by omega)
  refine ⟨hsettled, ?_⟩
  obtain ⟨dlgt, hdlgt, hsum, -⟩ := nextEpochStake_spec hnext
  have hsum := hsum hstatus
  have hadd : (transientStake src.tsa + inc).toNat =
      (transientStake src.tsa).toNat + inc.toNat := by
    rw [UInt64.toNat_add, Nat.mod_eq_of_lt (by omega)]
  simp only [settledStake, stayingStake, hdlgt, Option.map_some, Option.getD_some, if_true, hadd]
  omega

/-- A decrease of what the estimate has, once it has landed. -/
theorem settledStake_decreased {dec next : UInt64} {status : TransientStakeAccStatus}
    {dlgt : Delegation} (hmax : epoch ≠ u64Max)
    (hnext : nextEpochStakeAndTransientStatus src.vsa src.tsa epoch = .ok (next, status))
    (hcons : TransientConsistent epoch src.tsa) (hstatus : status ≠ .activating)
    (hvsa : src.vsa = .stake dlgt) (hle : dec.toNat ≤ next.toNat) :
    settledStake { src with
        vsa := .stake { dlgt with stake := dlgt.stake - dec }
        tsa := some (.stake ⟨transientStake src.tsa + dec, dlgt.activationEpoch, epoch⟩) } +
      dec.toNat = settledStake src ∧ next.toNat ≤ settledStake src := by
  obtain ⟨dlgt', hdlgt, hsettled, hnextle⟩ := settledStake_eq_vsa hnext hcons hstatus
  rw [hvsa, StakeStateV2.delegation_stake] at hdlgt
  obtain rfl := Option.some.inj hdlgt
  have hsub : (dlgt.stake - dec).toNat = dlgt.stake.toNat - dec.toNat :=
    UInt64.toNat_sub_of_le _ _ (UInt64.le_iff_toNat_le.mpr (by omega))
  rw [hsettled]
  simp only [settledStake, stayingStake, StakeStateV2.delegation_stake, Option.map_some,
    Option.getD_some, if_neg hmax, hsub]
  omega

/-- **A change that lands** moves what it says toward the target, and leaves a transient account
that is activated in this epoch or being deactivated. -/
theorem settledStake_landed (hmax : epoch ≠ u64Max) (hcons : TransientConsistent epoch src.tsa)
    (hcomp : Computable lib rent epoch src)
    (hdec : decisionOf ty = (costs lib rent).decision R (demandOf epoch src))
    (hland : Landed epoch ty src src') :
    TransientConsistent epoch src'.tsa ∧
      Toward src.desired.toNat (settledStake src) (settledStake src') ∧
      (settledStake src).dist (settledStake src') = movedOf ty := by
  cases hland with
  | increase inc =>
    obtain ⟨hactive, hlt, hstatus, hsum, -⟩ := decision_eq_increase hdec.symm
    obtain ⟨next, status, hnext⟩ := exists_estimate hcomp hactive
    rw [demandOf_eq hnext] at hlt hstatus hsum
    dsimp only at hlt hstatus hsum
    obtain ⟨hbefore, hafter⟩ := settledStake_increased hnext hcons hstatus hlt (Nat.le_of_eq hsum)
    refine ⟨?_, ?_, ?_⟩
    · rintro t ht
      cases ht
      exact iff_of_true rfl rfl
    · rw [hbefore, hafter]
      exact .of_le (Nat.le_add_right _ _) (Nat.le_of_eq hsum)
    · rw [hbefore, hafter, Nat.dist_eq_sub_of_le (Nat.le_add_right _ _), Nat.add_sub_cancel_left]
      rfl
  | partialIncrease inc shortfall =>
    obtain ⟨hactive, hstatus, -, hshort, hsum, -⟩ := decision_eq_partialIncrease hdec.symm
    obtain ⟨next, status, hnext⟩ := exists_estimate hcomp hactive
    rw [demandOf_eq hnext] at hstatus hsum
    dsimp only at hstatus hsum
    have hlt : next.toNat < src.desired.toNat := by omega
    have hle : next.toNat + inc.toNat ≤ src.desired.toNat := by omega
    obtain ⟨hbefore, hafter⟩ := settledStake_increased hnext hcons hstatus hlt hle
    refine ⟨?_, ?_, ?_⟩
    · rintro t ht
      cases ht
      exact iff_of_true rfl rfl
    · rw [hbefore, hafter]
      exact .of_le (Nat.le_add_right _ _) hle
    · rw [hbefore, hafter, Nat.dist_eq_sub_of_le (Nat.le_add_right _ _), Nat.add_sub_cancel_left]
      rfl
  | decrease dec _ dlgt hvsa hepoch =>
    obtain ⟨hactive, hexcess, hstatus, -, heq⟩ :=
      (decision_eq_decrease_iff (costs_rent_pos lib rent)).mp hdec.symm
    obtain ⟨next, status, hnext⟩ := exists_estimate hcomp hactive
    rw [demandOf_eq hnext] at hexcess hstatus heq
    dsimp only at hexcess hstatus heq
    have hle : dec.toNat ≤ next.toNat := by omega
    obtain ⟨hafter, hbefore⟩ := settledStake_decreased hmax hnext hcons hstatus hvsa hle
    refine ⟨?_, ?_, ?_⟩
    · rintro t ht
      cases ht
      refine iff_of_false (fun heq => ?_) hmax
      rw [show dlgt.activationEpoch = epoch from heq] at hepoch
      exact UInt64.lt_irrefl _ hepoch
    · exact .of_ge (by omega) (by omega)
    · rw [Nat.dist_eq_sub_of_le_right (by omega), movedOf]
      omega
  | nothing _ _ hmoves =>
    refine ⟨hcons, .refl _ _, ?_⟩
    rw [Nat.dist_self]
    cases ty <;> first | rfl | exact absurd trivial hmoves

/-- A change that moves stake moves some. -/
theorem movedOf_pos (hrent : 0 < κ.rent) (hdec : decisionOf ty = κ.decision R d)
    (hmoves : MovesStake ty) : 0 < movedOf ty := by
  cases ty with
  | decreaseStake dec =>
    obtain ⟨-, hexcess, -, -, heq⟩ := (decision_eq_decrease_iff hrent).mp hdec.symm
    show 0 < dec.toNat
    omega
  | increaseStake inc =>
    obtain ⟨-, hlt, -, hsum, -⟩ := decision_eq_increase hdec.symm
    show 0 < inc.toNat
    omega
  | partialIncreaseStake inc shortfall =>
    obtain ⟨-, -, hinc, -⟩ := decision_eq_partialIncrease hdec.symm
    exact hinc
  | _ => cases hmoves

end

/-! ## The decision when the epoch is over -/

/-- What the end of the epoch leaves of the demand of a validator without a transient account, after
a change that has landed. -/
structure Continues (ty : ValidatorDelegationChangeTy) (d d' : Demand) : Prop where
  status : d.status = .none
  active : d'.active = true → d.active = true
  desired : d'.desired = d.desired
  toward : d'.active = true → Toward d.desired d.next d'.next
  dist : d'.active = true → d.next.dist d'.next = movedOf ty

section

variable {κ : Costs} {R R' : ℕ} {d d' : Demand} {ty ty' : ValidatorDelegationChangeTy}

/-- A validator that is left alone has its target, or not enough above it to be decreased. -/
theorem decision_eq_stay (hrent : 0 < κ.rent) (h : κ.decision R d = .stay) :
    d.desired ≤ d.next ∧ d.next < d.desired + 2 * κ.minActive + κ.rent := by
  simp only [Costs.decision, Costs.decisionDecrease, Costs.decisionIncrease] at h
  split_ifs at h <;> omega

theorem status_of_wrongState (h : κ.decision R d = .wrongState) : d.status ≠ .none := by
  simp only [Costs.decision, Costs.decisionDecrease, Costs.decisionIncrease] at h
  split_ifs at h <;> simp_all

/-- The decision when the epoch is over needs no sums that the one before did not. -/
theorem Continues.fitsFor (h : Continues ty d d') (hfits : κ.FitsFor d) : κ.FitsFor d' := by
  intro hactive
  obtain ⟨hover, hunder⟩ := hfits (h.active hactive)
  rw [h.status] at hover hunder
  have htoward := Toward.iff_le_or_ge.mp (h.toward hactive)
  have hdesired := h.desired
  exact ⟨fun hlt _ => hover (by omega) (by simp), fun hlt _ => hunder (by omega) (by simp)⟩

variable (hrent : 0 < κ.rent) (hdec : decisionOf ty = κ.decision R d) (h : Continues ty d d')
include hrent hdec h

/-- What a decision has left to do, unless it was short of lamports: nothing. -/
theorem Continues.settled (hactive : d'.active = true) (hshort : ¬ LeftShort ty) :
    d'.desired ≤ d'.next ∧ d'.next < d'.desired + 2 * κ.minActive + κ.rent := by
  have htoward := Toward.iff_le_or_ge.mp (h.toward hactive)
  have hdist := h.dist hactive
  have hdesired := h.desired
  unfold Nat.dist at hdist
  cases ty with
  | decreaseStake dec =>
    obtain ⟨-, hexcess, -, -, heq⟩ := (decision_eq_decrease_iff hrent).mp hdec.symm
    simp only [movedOf] at hdist
    omega
  | increaseStake inc =>
    obtain ⟨-, hlt, -, hsum, -⟩ := decision_eq_increase hdec.symm
    simp only [movedOf] at hdist
    omega
  | noChange =>
    have hstay := decision_eq_stay hrent hdec.symm
    simp only [movedOf] at hdist
    omega
  | transientWrongState => exact absurd h.status (status_of_wrongState hdec.symm)
  | validatorBeingRemoved =>
    have hactive := h.active hactive
    rw [decision_eq_removed_iff.mp hdec.symm] at hactive
    cases hactive
  | partialIncreaseStake | insufficientReserveLamports => exact absurd trivial hshort

/-- **When the epoch is over**, only a validator that was left short is moved again. -/
theorem Continues.leftShort (hdec' : decisionOf ty' = κ.decision R' d') (hmoves : MovesStake ty') :
    LeftShort ty := by
  by_contra hshort
  have hsettled := fun hactive => h.settled hrent hdec hactive hshort
  cases ty' with
  | decreaseStake dec' =>
    obtain ⟨hactive, hexcess, -⟩ := (decision_eq_decrease_iff hrent).mp hdec'.symm
    have := hsettled hactive
    omega
  | increaseStake inc' =>
    obtain ⟨hactive, hlt, -⟩ := decision_eq_increase hdec'.symm
    have := hsettled hactive
    omega
  | partialIncreaseStake inc' shortfall' =>
    obtain ⟨hactive, -, hinc, -, hsum, -⟩ := decision_eq_partialIncrease hdec'.symm
    have := hsettled hactive
    omega
  | _ => cases hmoves

end

/-- The demand of a validator without a transient account is what it has. -/
theorem demandOf_of_tsa_none {epoch : UInt64} {src : ValidatorChangeSrc Pubkey}
    (htsa : src.tsa = none) :
    demandOf epoch src =
      ⟨src.vsi.status = .active, settledStake src, src.desired.toNat, .none⟩ := by
  unfold demandOf settledStake nextEpochStakeAndTransientStatus
  rw [htsa]
  cases src.vsa.delegation with
  | none => rfl
  | some dlgt => rfl

end StakePoolCli.Ledger

namespace StakePoolCli

open Checked Sorting Ledger Approach

variable {Pubkey : Type}

/-! ## Runs and epochs -/

/-- The same validator with the same stake accounts: nobody else has moved its stake. The amounts in
its entry may differ. -/
structure SameStake (src src' : ValidatorChangeSrc Pubkey) : Prop where
  status : src'.vsi.status = src.vsi.status
  vsa : src'.vsa = src.vsa
  tsa : src'.tsa = src.tsa

/-- What the end of an epoch makes of the accounts of a validator, when no reward is paid: the
transient account, if there is one, has been merged, into the stake account if it was activating and
into the reserve if it was deactivating, and the stake account is delegated and has what it would
settle at. A validator that is winding down does not become active again. -/
structure Settles (src src' : ValidatorChangeSrc Pubkey) : Prop where
  status : src'.vsi.status = .active → src.vsi.status = .active
  delegated : src'.vsa.delegation.isSome
  tsa : src'.tsa = none
  stake : settledStake src' = settledStake src

theorem SameStake.settledStake_eq {src src' : ValidatorChangeSrc Pubkey} (h : SameStake src src') :
    settledStake src' = settledStake src := by
  rw [settledStake, settledStake, h.vsa, h.tsa]

namespace SyncDelegationArgs

variable [DecidableEq Pubkey] (lib : StakePoolLib Pubkey)
  (sort : StableSort (ValidatorDelegation Pubkey)) (args : SyncDelegationArgs Pubkey)

/-- Of the changes of a run, those of the validators in `landed` have landed, and nothing else has
happened to the stake of the scheme's validators. -/
structure RunLands (fetched : Fetched Pubkey) (out : List (ValidatorDelegationChange Pubkey))
    (landed : Pubkey → Prop) (fetched' : Fetched Pubkey) : Prop where
  changes : ∃ cs, args.changes lib sort fetched = .ok (out, cs)
  staker : fetched'.stakePool.staker = fetched.stakePool.staker
  epoch : fetched'.epoch = fetched.epoch
  rent : fetched'.rent = fetched.rent
  lands : ∀ d ∈ args.validators, ∀ c ∈ out, c.vote = d.vote → ∀ src,
    args.changeSrc lib fetched d = .ok src → ∃ src₁ src',
      (landed d.vote → Landed fetched.epoch c.ty src src₁) ∧ (¬ landed d.vote → src₁ = src) ∧
      SameStake src₁ src' ∧ args.changeSrc lib fetched' d = .ok src'

/-- An epoch has ended, and the update of the pool has merged every transient account of the scheme,
whose validators have all stayed in the pool. No reward has been paid. The last epoch there is marks
an account that is not deactivated. -/
structure EpochPasses (fetched fetched' : Fetched Pubkey) : Prop where
  staker : fetched'.stakePool.staker = fetched.stakePool.staker
  epoch : fetched'.epoch ≠ u64Max
  rent : fetched'.rent = fetched.rent
  settles : ∀ d ∈ args.validators, ∀ src, args.changeSrc lib fetched d = .ok src →
    ∃ src', Settles src src' ∧ args.changeSrc lib fetched' d = .ok src'

/-- Something that happens to a pool which is kept in line with a scheme. Nothing is said of the
reserve. -/
inductive Step : Fetched Pubkey → Fetched Pubkey → Prop
  | run {fetched fetched' : Fetched Pubkey} (out : List (ValidatorDelegationChange Pubkey))
      (landed : Pubkey → Prop) (h : args.RunLands lib sort fetched out landed fetched') :
    Step fetched fetched'
  | epoch {fetched fetched' : Fetched Pubkey} (h : args.EpochPasses lib fetched fetched') :
    Step fetched fetched'

/-- The validators of the scheme are in the pool, and their transient accounts in order. -/
structure Orderly (fetched : Fetched Pubkey) : Prop where
  epoch : fetched.epoch ≠ u64Max
  resolved : ∀ d ∈ args.validators, ∃ src, args.changeSrc lib fetched d = .ok src ∧
    TransientConsistent fetched.epoch src.tsa

/-- The settled stake of the validator of an entry. -/
def settledStakeOf (fetched : Fetched Pubkey) (d : ValidatorDelegation Pubkey) : ℕ :=
  ((args.changeSrc lib fetched d).toOption.map settledStake).getD 0

variable {lib sort args} {fetched fetched' : Fetched Pubkey}
  {out : List (ValidatorDelegationChange Pubkey)} {landed : Pubkey → Prop}

theorem settledStakeOf_eq {d : ValidatorDelegation Pubkey} {src : ValidatorChangeSrc Pubkey}
    (h : args.changeSrc lib fetched d = .ok src) :
    args.settledStakeOf lib fetched d = settledStake src := by
  simp [settledStakeOf, h, Except.toOption]

/-- The entry at a position, with its change and what has become of its accounts. -/
theorem RunLands.getElem? {srcs : List (ValidatorChangeSrc Pubkey)}
    (h : args.RunLands lib sort fetched out landed fetched')
    (hcomputes : args.Computes lib fetched srcs out) {i : ℕ} {d : ValidatorDelegation Pubkey}
    (hd : (lamportsEntries args.validators ++ remainderEntries args.validators)[i]? = some d) :
    ∃ src c src₁ src', srcs[i]? = some src ∧ out[i]? = some c ∧ c.vote = d.vote ∧
      args.changeSrc lib fetched d = .ok src ∧
      (landed d.vote → Landed fetched.epoch c.ty src src₁) ∧ (¬ landed d.vote → src₁ = src) ∧
      SameStake src₁ src' ∧ args.changeSrc lib fetched' d = .ok src' := by
  obtain ⟨src, hsrc⟩ := exists_getElem? hcomputes.resolved.length_eq hd
  obtain ⟨c, hc⟩ := exists_getElem? hcomputes.length_eq.symm hsrc
  have hvote : c.vote = d.vote := by
    have heq := congrArg (·[i]?) hcomputes.votes
    simpa only [List.getElem?_map, hd, hc, Option.map_some, Option.some.injEq] using heq
  have hchange := rel_of_getElem? hcomputes.resolved hd hsrc
  obtain ⟨src₁, src', hrest⟩ := h.lands d ((entries_perm _).mem_iff.mp (List.mem_of_getElem? hd)) c
    (List.mem_of_getElem? hc) hvote src hchange
  exact ⟨src, c, src₁, src', hsrc, hc, hvote, hchange, hrest⟩

/-! ## A step -/

section

variable (hvalid : isDelegationSchemeValid (args.validators.map (·.target)) = .ok ())
  (horderly : args.Orderly lib fetched)
include horderly

/-- What a run does to the validator at a position. -/
theorem RunLands.spec {srcs : List (ValidatorChangeSrc Pubkey)}
    (h : args.RunLands lib sort fetched out landed fetched')
    (hcomputes : args.Computes lib fetched srcs out) {i : ℕ} {d : ValidatorDelegation Pubkey}
    (hd : (lamportsEntries args.validators ++ remainderEntries args.validators)[i]? = some d) :
    ∃ c src', out[i]? = some c ∧ c.vote = d.vote ∧ args.changeSrc lib fetched' d = .ok src' ∧
      TransientConsistent fetched'.epoch src'.tsa ∧
      Toward d.target.stake.toNat (args.settledStakeOf lib fetched d)
        (args.settledStakeOf lib fetched' d) ∧
      (landed d.vote → MovesStake c.ty →
        args.settledStakeOf lib fetched d ≠ args.settledStakeOf lib fetched' d) := by
  obtain ⟨src, c, src₁, src', hsrc, hc, hvote, hbefore, hlands, hnot, hsame, hafter⟩ :=
    h.getElem? hcomputes hd
  have hmem := (entries_perm _).mem_iff.mp (List.mem_of_getElem? hd)
  obtain ⟨src₂, hsrc₂, hcons⟩ := horderly.resolved d hmem
  obtain rfl := Except.ok.inj (hbefore.symm.trans hsrc₂)
  have hdec := hcomputes.decided i src c hsrc hc
  refine ⟨c, src', hc, hvote, hafter, ?_⟩
  rw [settledStakeOf_eq hbefore, settledStakeOf_eq hafter, hsame.settledStake_eq, hsame.tsa,
    h.epoch, ← (changeSrc_eq_ok.mp hbefore).2.2]
  by_cases hl : landed d.vote
  · obtain ⟨hcons', htoward, hdist⟩ := settledStake_landed horderly.epoch hcons
      (hcomputes.computable src (List.mem_of_getElem? hsrc)) hdec (hlands hl)
    refine ⟨hcons', htoward, fun _ hmoves heq => ?_⟩
    have hpos := movedOf_pos (costs_rent_pos lib fetched.rent) hdec hmoves
    rw [heq, Nat.dist_self] at hdist
    omega
  · obtain rfl := hnot hl
    exact ⟨hcons, .refl _ _, fun h => absurd h hl⟩

omit horderly in
/-- The end of an epoch leaves the settled stakes as they are. -/
theorem EpochPasses.spec (h : args.EpochPasses lib fetched fetched')
    {d : ValidatorDelegation Pubkey} {src : ValidatorChangeSrc Pubkey} (hd : d ∈ args.validators)
    (hsrc : args.changeSrc lib fetched d = .ok src) :
    ∃ src', args.changeSrc lib fetched' d = .ok src' ∧ src'.tsa = none ∧
      args.settledStakeOf lib fetched' d = args.settledStakeOf lib fetched d := by
  obtain ⟨src', hsettles, hsrc'⟩ := h.settles d hd src hsrc
  refine ⟨src', hsrc', hsettles.tsa, ?_⟩
  rw [settledStakeOf_eq hsrc', settledStakeOf_eq hsrc, hsettles.stake]

include hvalid

/-- **A step keeps the pool in order**, and moves stakes toward their targets only. -/
theorem Step.spec (h : args.Step lib sort fetched fetched') :
    args.Orderly lib fetched' ∧ ∀ d ∈ args.validators,
      Toward d.target.stake.toNat (args.settledStakeOf lib fetched d)
        (args.settledStakeOf lib fetched' d) := by
  cases h with
  | run out landed h =>
    obtain ⟨cs, hchanges⟩ := h.changes
    obtain ⟨srcs, hcomputes⟩ := changes_spec hvalid hchanges
    have hspec : ∀ d ∈ args.validators, ∃ src', args.changeSrc lib fetched' d = .ok src' ∧
        TransientConsistent fetched'.epoch src'.tsa ∧
        Toward d.target.stake.toNat (args.settledStakeOf lib fetched d)
          (args.settledStakeOf lib fetched' d) := by
      intro d hd
      obtain ⟨i, hi⟩ := List.mem_iff_getElem?.mp ((entries_perm _).mem_iff.mpr hd)
      obtain ⟨c, src', -, -, hsrc', hcons, htoward, -⟩ := h.spec horderly hcomputes hi
      exact ⟨src', hsrc', hcons, htoward⟩
    refine ⟨⟨h.epoch ▸ horderly.epoch, fun d hd => ?_⟩, fun d hd => ?_⟩
    · obtain ⟨src', hsrc', hcons, -⟩ := hspec d hd
      exact ⟨src', hsrc', hcons⟩
    · obtain ⟨-, -, -, htoward⟩ := hspec d hd
      exact htoward
  | epoch h =>
    refine ⟨⟨h.epoch, fun d hd => ?_⟩, fun d hd => ?_⟩
    · obtain ⟨src, hsrc, -⟩ := horderly.resolved d hd
      obtain ⟨src', hsrc', htsa, -⟩ := h.spec hd hsrc
      exact ⟨src', hsrc', htsa ▸ transientConsistent_none _⟩
    · obtain ⟨src, hsrc, -⟩ := horderly.resolved d hd
      obtain ⟨src', -, -, hstake⟩ := h.spec hd hsrc
      rw [hstake]
      exact .refl _ _

/-- **A history keeps the pool in order**, and moves stakes toward their targets only. -/
theorem history_spec (h : Relation.ReflTransGen (args.Step lib sort) fetched fetched') :
    args.Orderly lib fetched' ∧ ∀ d ∈ args.validators,
      Toward d.target.stake.toNat (args.settledStakeOf lib fetched d)
        (args.settledStakeOf lib fetched' d) := by
  induction h with
  | refl => exact ⟨horderly, fun d _ => .refl _ _⟩
  | tail _ hstep ih =>
    obtain ⟨horderly', htoward⟩ := ih
    obtain ⟨horderly'', htoward'⟩ := hstep.spec hvalid horderly'
    exact ⟨horderly'', fun d hd => (htoward d hd).trans (htoward' d hd)⟩

end

end SyncDelegationArgs

open SyncDelegationArgs

/-! ## Two validators -/

/-- The two validators of `nineEach` in the next epoch, with these stakes and no transient
accounts. -/
def nextEpoch (reserveLamports a b : UInt64) : Fetched Address :=
  { nineEach with
    epoch := 8
    reserveLamports
    account := fun
      | .validatorStake _ _ (.key 10) _ =>
        some ⟨.wellKnown "stake_program", a + 2282880, some (.stake ⟨a, 3, u64Max⟩)⟩
      | .validatorStake _ _ (.key 11) _ =>
        some ⟨.wellKnown "stake_program", b + 2282880, some (.stake ⟨b, 3, u64Max⟩)⟩
      | _ => none }

/-- After a run that decreases one validator and increases the other. -/
def fiveTen : Fetched Address :=
  nineEach.afterRun ⟨[], 6995434240, 7, .default⟩ (decreasedIncreased 3999000000 1000000000)

theorem runLands_fiveTen : (targets 5000000000 10000000000).RunLands StakePoolLib.symbolic
    .insertion nineEach
    [⟨.key 10, 0, .decreaseStake 3999000000⟩, ⟨.key 11, 0, .increaseStake 1000000000⟩]
    (fun _ => True) fiveTen where
  changes := ⟨_, rfl⟩
  staker := rfl
  epoch := rfl
  rent := rfl
  lands d hd c hc hvote src hsrc := by
    obtain ⟨src', hlanded, hsrc'⟩ := changesLand_decreasedIncreased 5000000000 10000000000
      3999000000 1000000000 ⟨[], 6995434240, 7, .default⟩ d hd c hc hvote src hsrc
    exact ⟨src', src', fun _ => hlanded, fun h => absurd trivial h, ⟨rfl, rfl, rfl⟩, hsrc'⟩

theorem epochPasses_fiveTen : (targets 5000000000 10000000000).EpochPasses StakePoolLib.symbolic
    fiveTen (nextEpoch 11001282880 5001000000 10000000000) where
  staker := rfl
  epoch := by decide
  rent := rfl
  settles d hd src hsrc := by
    simp only [targets, List.mem_cons, List.not_mem_nil, or_false] at hd
    obtain rfl | rfl := hd <;> obtain rfl := Except.ok.inj hsrc
    · refine ⟨_, ?_, rfl⟩
      exact ⟨fun h => h, rfl, rfl, rfl⟩
    · refine ⟨_, ?_, rfl⟩
      exact ⟨fun h => h, rfl, rfl, rfl⟩

theorem orderly_nineEach :
    (targets 5000000000 10000000000).Orderly StakePoolLib.symbolic nineEach where
  epoch := by decide
  resolved d hd := by
    simp only [targets, List.mem_cons, List.not_mem_nil, or_false] at hd
    obtain rfl | rfl := hd
    · exact ⟨_, rfl, transientConsistent_none _⟩
    · exact ⟨_, rfl, transientConsistent_none _⟩

/-- One run, then only epochs. -/
def oneRun : ℕ → Fetched Address
  | 0 => nineEach
  | 1 => fiveTen
  | _ => nextEpoch 11001282880 5001000000 10000000000

namespace SyncDelegationArgs

variable [DecidableEq Pubkey] {lib : StakePoolLib Pubkey}
  {sort : StableSort (ValidatorDelegation Pubkey)} {args : SyncDelegationArgs Pubkey}
  {fetched fetched' fetched'' : Fetched Pubkey} {out : List (ValidatorDelegationChange Pubkey)}

/-- What the end of the epoch leaves of the entry at a position. -/
theorem RunLands.continues {srcs : List (ValidatorChangeSrc Pubkey)}
    (h : args.RunLands lib sort fetched out (fun _ => True) fetched')
    (hcomputes : args.Computes lib fetched srcs out) (hepoch : fetched.epoch ≠ u64Max)
    (hpasses : args.EpochPasses lib fetched' fetched'') {i : ℕ} {d : ValidatorDelegation Pubkey}
    (hd : (lamportsEntries args.validators ++ remainderEntries args.validators)[i]? = some d)
    (hfresh : ∀ src, args.changeSrc lib fetched d = .ok src → src.tsa = none) :
    ∃ src c src'', srcs[i]? = some src ∧ out[i]? = some c ∧
      args.changeSrc lib fetched'' d = .ok src'' ∧ Delegated src''.vsa src''.tsa ∧
      Continues c.ty (demandOf fetched.epoch src) (demandOf fetched''.epoch src'') := by
  obtain ⟨src, c, src₁, src', hsrc, hc, -, hbefore, hlands, -, hsame, hlanded⟩ :=
    h.getElem? hcomputes hd
  obtain ⟨src'', hsettles, hafter⟩ :=
    hpasses.settles d ((entries_perm _).mem_iff.mp (List.mem_of_getElem? hd)) src' hlanded
  refine ⟨src, c, src'', hsrc, hc, hafter, ⟨hsettles.delegated, by simp [hsettles.tsa]⟩, ?_⟩
  have hdesired : src''.desired = src.desired :=
    (changeSrc_eq_ok.mp hafter).2.2.trans (changeSrc_eq_ok.mp hbefore).2.2.symm
  have htsa := hfresh src hbefore
  obtain ⟨-, htoward, hdist⟩ := settledStake_landed hepoch (htsa ▸ transientConsistent_none _)
    (hcomputes.computable src (List.mem_of_getElem? hsrc)) (hcomputes.decided i src c hsrc hc)
    (hlands trivial)
  rw [demandOf_of_tsa_none htsa, demandOf_of_tsa_none hsettles.tsa, hdesired, hsettles.stake,
    hsame.settledStake_eq]
  refine ⟨rfl, fun hactive => ?_, rfl, fun _ => htoward, fun _ => hdist⟩
  have hstatus := hsettles.status (of_decide_eq_true hactive)
  rw [hsame.status, (hlands trivial).vsi_eq] at hstatus
  exact decide_eq_true hstatus

end SyncDelegationArgs

end StakePoolCli
