import StakePoolCli.Delegation.Instructions
import StakePoolCli.Delegation.Scheme
import StakePoolCli.Interface.Symbolic

/-!
# Running a scheme twice in an epoch

`rerun_quiet_iff`: when the changes of a scheme have landed and the scheme is run again in the same
epoch, the validators whose stake was increased or decreased are left alone exactly when none of
them was decreased towards a positive target.

An increase makes the estimate of the next epoch's stake the target. A decrease does not: the
stake that it deactivates has left the validator stake account, and the estimate takes it off that
account once more (`Demand.after`), so that the validator seems to have too little. The two runs
are compared on the ledger (`decision_after_increase`, `decision_after_decrease`), which the
sources of the second run follow (`demandOf_landed`).
-/

namespace StakePoolCli.Ledger

open Checked

/-! ## The ledger, twice -/

/-- The decisions that take a validator to its target. -/
def Decision.Adjusts : Decision → Prop
  | .decrease _ | .increase _ => True
  | _ => False

/-- What a decision makes of a demand, in the epoch in which it lands. -/
def Demand.after (d : Demand) : Decision → Demand
  | .increase inc => { d with next := d.next + inc, status := .activating }
  | .partialIncrease inc _ => { d with next := d.next + inc, status := .activating }
  -- once for the stake that is split off, once for the deactivating account that it is in
  | .decrease dec => { d with next := d.next - 2 * dec, status := .deactivating }
  | _ => d

/-- A validator with a positive target has enough stake above it to be decreased, when `R` lamports
are left. -/
structure Costs.Overshoots (κ : Costs) (R : ℕ) (d : Demand) : Prop where
  active : d.active = true
  desired : 0 < d.desired
  excess : d.desired + 2 * κ.minActive + κ.rent ≤ d.next
  status : d.status ≠ .activating
  reserve : 2 * κ.rent ≤ R

section

variable {κ : Costs} {R : ℕ} {d : Demand} {inc dec : ℕ}

/-- The demands whose decreases overshoot are those with a positive target. -/
theorem overshoots_iff (hrent : 0 < κ.rent) :
    κ.Overshoots R d ↔ 0 < d.desired ∧ ∃ dec, κ.decision R d = .decrease dec := by
  constructor
  · rintro ⟨h₁, h₂, h₃, h₄, h₅⟩
    exact ⟨h₂, _, (decision_eq_decrease_iff hrent).mpr ⟨h₁, h₃, h₄, h₅, rfl⟩⟩
  · rintro ⟨h₂, dec, hdec⟩
    obtain ⟨h₁, h₃, h₄, h₅, -⟩ := (decision_eq_decrease_iff hrent).mp hdec
    exact ⟨h₁, h₂, h₃, h₄, h₅⟩

/-- A validator that has been increased has what it should have. -/
theorem decision_after_increase (h : κ.decision R d = .increase inc) (R' : ℕ) :
    κ.decision R' (d.after (.increase inc)) = .stay := by
  obtain ⟨hactive, -, -, hsum, -⟩ := decision_eq_increase h
  simp only [Costs.decision, Demand.after, hactive, hsum]
  simp

/-- A validator that has been decreased is estimated to have at most its target, and less unless the
target is zero. -/
theorem decision_after_decrease (hrent : 0 < κ.rent) (h : κ.decision R d = .decrease dec) (R' : ℕ) :
    κ.decision R' (d.after (.decrease dec)) = if d.desired = 0 then .stay else .wrongState := by
  obtain ⟨hactive, hexcess, -, -, rfl⟩ := (decision_eq_decrease_iff hrent).mp h
  simp only [Costs.decision, Demand.after, hactive]
  by_cases hzero : d.desired = 0
  · rw [if_pos hzero, if_neg (by simp), if_neg (by omega), if_neg (by omega)]
  · rw [if_neg hzero, if_neg (by simp), if_neg (by omega), if_pos (by omega), if_pos trivial]

/-- **A second run leaves an adjusted validator alone** unless its decrease overshoots. -/
theorem quiet_after_iff (hrent : 0 < κ.rent) (h : (κ.decision R d).Adjusts) (R' : ℕ) :
    (¬ (κ.decision R' (d.after (κ.decision R d))).Moves ∧
        κ.decision R' (d.after (κ.decision R d)) ≠ .wrongState) ↔ ¬ κ.Overshoots R d := by
  rw [overshoots_iff hrent]
  cases hdec : κ.decision R d with
  | increase inc =>
    rw [decision_after_increase hdec]
    simp [Decision.Moves]
  | decrease dec =>
    rw [decision_after_decrease hrent hdec]
    by_cases hzero : d.desired = 0
    · simp [hzero, Decision.Moves]
    · simp [hzero, Nat.pos_of_ne_zero hzero]
  | _ =>
    rw [hdec] at h
    cases h

/-- The second run needs no sums that the first did not. -/
theorem fitsFor_after (hrent : 0 < κ.rent) (h : κ.FitsFor d) :
    κ.FitsFor (d.after (κ.decision R d)) := by
  intro hactive
  cases hdec : κ.decision R d with
  | increase inc =>
    obtain ⟨-, -, -, hsum, -⟩ := decision_eq_increase hdec
    simp only [Demand.after, hsum]
    exact ⟨fun h => absurd h (Nat.lt_irrefl _), fun h => absurd h (Nat.lt_irrefl _)⟩
  | partialIncrease inc shortfall =>
    obtain ⟨hact, hstatus, -, hshort, hsum, -⟩ := decision_eq_partialIncrease hdec
    refine ⟨fun _ h => absurd rfl h, fun _ _ => (h hact).2 (by omega) hstatus⟩
  | decrease dec =>
    obtain ⟨hact, hexcess, hstatus, -⟩ := (decision_eq_decrease_iff hrent).mp hdec
    exact ⟨fun _ _ => (h hact).1 (by omega) hstatus, fun _ h => absurd rfl h⟩
  | _ =>
    rw [hdec] at hactive
    exact h hactive

end

/-! ## The accounts, after a change has landed -/

variable {Pubkey : Type}

/-- The accounts of a validator before and after its change has landed in the epoch. A change that
takes stake has only landed where the stake account was activated in an earlier epoch. -/
inductive Landed (epoch : UInt64) : ValidatorDelegationChangeTy →
    ValidatorChangeSrc Pubkey → ValidatorChangeSrc Pubkey → Prop
  | increase (inc : UInt64) (src : ValidatorChangeSrc Pubkey) :
    Landed epoch (.increaseStake inc) src
      { src with tsa := some (.stake ⟨transientStake src.tsa + inc, epoch, u64Max⟩) }
  | partialIncrease (inc shortfall : UInt64) (src : ValidatorChangeSrc Pubkey) :
    Landed epoch (.partialIncreaseStake inc shortfall) src
      { src with tsa := some (.stake ⟨transientStake src.tsa + inc, epoch, u64Max⟩) }
  /-- The stake that is split off inherits the activation epoch of the stake account, which is
  assumed to be an earlier one: an account that is activated in this epoch is taken for an
  activating one when its stake is split off. -/
  | decrease (dec : UInt64) (src : ValidatorChangeSrc Pubkey) (dlgt : Delegation)
      (hvsa : src.vsa = .stake dlgt) (hepoch : dlgt.activationEpoch < epoch) :
    Landed epoch (.decreaseStake dec) src
      { src with
        vsa := .stake { dlgt with stake := dlgt.stake - dec }
        tsa := some (.stake ⟨transientStake src.tsa + dec, dlgt.activationEpoch, epoch⟩) }
  | nothing (ty : ValidatorDelegationChangeTy) (src : ValidatorChangeSrc Pubkey)
      (h : ¬ MovesStake ty) : Landed epoch ty src src

theorem Landed.vsi_eq {epoch : UInt64} {ty : ValidatorDelegationChangeTy}
    {src src' : ValidatorChangeSrc Pubkey} (h : Landed epoch ty src src') : src'.vsi = src.vsi := by
  cases h <;> rfl

section

variable {lib : StakePoolLib Pubkey} {rent : Rent} {epoch next : UInt64}
  {src src' : ValidatorChangeSrc Pubkey} {ty : ValidatorDelegationChangeTy}
  {status : TransientStakeAccStatus} {R : ℕ}

theorem demandOf_activating {inc : UInt64}
    (hnext : nextEpochStakeAndTransientStatus src.vsa src.tsa epoch = .ok (next, status))
    (hstatus : status ≠ .deactivating) (hlt : next.toNat < src.desired.toNat)
    (hle : next.toNat + inc.toNat ≤ src.desired.toNat) :
    demandOf epoch { src with tsa := some (.stake ⟨transientStake src.tsa + inc, epoch, u64Max⟩) } =
      ⟨src.vsi.status = .active, next.toNat + inc.toNat, src.desired.toNat, .activating⟩ := by
  obtain ⟨dlgt, hdlgt, hsum, -⟩ := nextEpochStake_spec hnext
  have hsum := hsum hstatus
  have hmax := toNat_le_max src.desired
  -- the estimate is below a word, so it did not saturate
  have hadd : (transientStake src.tsa + inc).toNat =
      (transientStake src.tsa).toNat + inc.toNat := by
    rw [UInt64.toNat_add, Nat.mod_eq_of_lt (by omega)]
  have hnext' : nextEpochStakeAndTransientStatus src.vsa
      (some (.stake ⟨transientStake src.tsa + inc, epoch, u64Max⟩)) epoch =
        .ok (saturatingAdd dlgt.stake (transientStake src.tsa + inc), .activating) := by
    simp [nextEpochStakeAndTransientStatus, hdlgt]
  rw [demandOf_eq hnext', toNat_saturatingAdd, hadd]
  congr 1
  omega

theorem demandOf_deactivating {dec : UInt64} {dlgt : Delegation}
    (hnext : nextEpochStakeAndTransientStatus src.vsa src.tsa epoch = .ok (next, status))
    (hstatus : status ≠ .activating) (hvsa : src.vsa = .stake dlgt)
    (hepoch : dlgt.activationEpoch < epoch) (hpos : 0 < next.toNat)
    (hle : dec.toNat ≤ next.toNat) :
    demandOf epoch { src with
        vsa := .stake { dlgt with stake := dlgt.stake - dec }
        tsa := some (.stake ⟨transientStake src.tsa + dec, dlgt.activationEpoch, epoch⟩) } =
      ⟨src.vsi.status = .active, next.toNat - 2 * dec.toNat, src.desired.toNat, .deactivating⟩ := by
  obtain ⟨dlgt', hdlgt, -, hdiff⟩ := nextEpochStake_spec hnext
  have hdiff := hdiff hstatus
  rw [hvsa, StakeStateV2.delegation_stake] at hdlgt
  obtain rfl := Option.some.inj hdlgt
  have hmax := toNat_le_max dlgt.stake
  have hsub : (dlgt.stake - dec).toNat = dlgt.stake.toNat - dec.toNat :=
    UInt64.toNat_sub_of_le _ _ (UInt64.le_iff_toNat_le.mpr (by omega))
  have hadd : (transientStake src.tsa + dec).toNat =
      (transientStake src.tsa).toNat + dec.toNat := by
    rw [UInt64.toNat_add, Nat.mod_eq_of_lt (by omega)]
  have hne : dlgt.activationEpoch ≠ epoch := by
    rintro rfl
    exact absurd hepoch (UInt64.lt_irrefl _)
  have hnext' : nextEpochStakeAndTransientStatus (.stake { dlgt with stake := dlgt.stake - dec })
      (some (.stake ⟨transientStake src.tsa + dec, dlgt.activationEpoch, epoch⟩)) epoch =
        .ok (saturatingSub (dlgt.stake - dec) (transientStake src.tsa + dec), .deactivating) := by
    simp [nextEpochStakeAndTransientStatus, hne]
  rw [demandOf_eq hnext', toNat_saturatingSub, hsub, hadd]
  congr 1
  omega

variable (hcomp : Computable lib rent epoch src)
  (hdec : decisionOf ty = (costs lib rent).decision R (demandOf epoch src))
  (hland : Landed epoch ty src src')
include hcomp

theorem exists_estimate (hactive : (demandOf epoch src).active = true) :
    ∃ next status, nextEpochStakeAndTransientStatus src.vsa src.tsa epoch = .ok (next, status) := by
  obtain ⟨⟨next, status⟩, h⟩ :=
    (nextEpochStake_ok_iff epoch).mpr (hcomp.1 (of_decide_eq_true hactive))
  exact ⟨next, status, h⟩

include hdec hland

/-- **The demands of the second run** are those that the decisions of the first leave. -/
theorem demandOf_landed : demandOf epoch src' = (demandOf epoch src).after (decisionOf ty) := by
  cases hland with
  | increase inc =>
    obtain ⟨hactive, hlt, hstatus, hsum, -⟩ := decision_eq_increase hdec.symm
    obtain ⟨next, status, hnext⟩ := exists_estimate hcomp hactive
    rw [demandOf_eq hnext] at hlt hstatus hsum ⊢
    exact demandOf_activating hnext hstatus hlt (Nat.le_of_eq hsum)
  | partialIncrease inc shortfall =>
    obtain ⟨hactive, hstatus, -, hshort, hsum, -⟩ := decision_eq_partialIncrease hdec.symm
    obtain ⟨next, status, hnext⟩ := exists_estimate hcomp hactive
    rw [demandOf_eq hnext] at hsum hstatus ⊢
    dsimp only at hsum
    exact demandOf_activating hnext hstatus (by omega) (by omega)
  | decrease dec _ dlgt hvsa hepoch =>
    obtain ⟨hactive, hexcess, hstatus, -, heq⟩ :=
      (decision_eq_decrease_iff (costs_rent_pos lib rent)).mp hdec.symm
    obtain ⟨next, status, hnext⟩ := exists_estimate hcomp hactive
    have hrent := costs_rent_pos lib rent
    rw [demandOf_eq hnext] at hexcess hstatus heq ⊢
    dsimp only at hexcess heq
    exact demandOf_deactivating hnext hstatus hvsa hepoch (by omega) (by omega)
  | nothing _ _ h =>
    cases ty <;> first | rfl | exact absurd trivial h

/-- A change of the second run is computed. -/
theorem computable_landed : Computable lib rent epoch src' := by
  refine ⟨fun hactive => ?_, ?_⟩
  · have hdel := hcomp.1 (hland.vsi_eq ▸ hactive)
    cases hland with
    | increase | partialIncrease => exact ⟨hdel.1, by simp⟩
    | decrease => exact ⟨rfl, by simp⟩
    | nothing => exact hdel
  · rw [demandOf_landed hcomp hdec hland, hdec]
    exact fitsFor_after (costs_rent_pos lib rent) hcomp.2

end

end StakePoolCli.Ledger

namespace StakePoolCli

open Checked Chunks Sorting Ledger DelegationChangeset

variable {Pubkey : Type}

/-! ## The second run -/

/-- The changes that take a validator to its target. -/
def AdjustsStake : ValidatorDelegationChangeTy → Prop
  | .decreaseStake _ | .increaseStake _ => True
  | _ => False

theorem adjusts_decisionOf {ty : ValidatorDelegationChangeTy} :
    (decisionOf ty).Adjusts ↔ AdjustsStake ty := by
  cases ty <;> rfl

section

variable {κ : Costs} {R R' : ℕ} {d : Demand} {ty ty' : ValidatorDelegationChangeTy}
  (hdec : decisionOf ty = κ.decision R d)
include hdec

/-- A decrease that overshoots adjusts the validator. -/
theorem adjustsStake_of_overshoots (hrent : 0 < κ.rent) (h : κ.Overshoots R d) :
    AdjustsStake ty := by
  obtain ⟨-, dec, hdecrease⟩ := (overshoots_iff hrent).mp h
  rw [← adjusts_decisionOf, hdec, hdecrease]
  trivial

/-- The change of an adjusted validator in the second run moves nothing and is no complaint, unless
the first one overshoots. -/
theorem quiet_change_iff (hrent : 0 < κ.rent) (hadjusts : AdjustsStake ty)
    (hdec' : decisionOf ty' = κ.decision R' (d.after (decisionOf ty))) :
    (¬ MovesStake ty' ∧ ty' ≠ .transientWrongState) ↔ ¬ κ.Overshoots R d := by
  have h := adjusts_decisionOf.mpr hadjusts
  rw [hdec] at h
  rw [← quiet_after_iff hrent h R', ← hdec, ← hdec', moves_decisionOf]
  exact and_congr_right fun _ => decisionOf_injective.ne_iff.symm

end

/-- What is fetched after a run: the reserve is the one the changeset has left, the stake accounts
are others. -/
def Fetched.afterRun (fetched : Fetched Pubkey) (cs : DelegationChangeset Pubkey)
    (account : Pubkey → Option (Account Pubkey)) : Fetched Pubkey :=
  { fetched with reserveLamports := cs.reserveLamports, account }

/-- The lamports of the reserve that the entries before a position leave. -/
def Fetched.reserveBefore (lib : StakePoolLib Pubkey) (fetched : Fetched Pubkey)
    (srcs : List (ValidatorChangeSrc Pubkey)) (i : ℕ) : ℕ :=
  (costs lib fetched.rent).rest ((srcs.take i).map (demandOf fetched.epoch))
    fetched.reserveLamports.toNat

namespace SyncDelegationArgs

variable [DecidableEq Pubkey] (lib : StakePoolLib Pubkey)
  (sort : StableSort (ValidatorDelegation Pubkey)) (args : SyncDelegationArgs Pubkey)

/-- The change of every entry of the scheme has landed. -/
def ChangesLand (fetched fetched' : Fetched Pubkey)
    (out : List (ValidatorDelegationChange Pubkey)) : Prop :=
  ∀ d ∈ args.validators, ∀ c ∈ out, c.vote = d.vote → ∀ src,
    args.changeSrc lib fetched d = .ok src →
    ∃ src', Landed fetched.epoch c.ty src src' ∧ args.changeSrc lib fetched' d = .ok src'

/-- A run has a change for each validator, and for those whose stake was adjusted by the changes
`out` it is one without an instruction and no complaint about their transient account. -/
def QuietAfter (fetched : Fetched Pubkey) (out : List (ValidatorDelegationChange Pubkey)) : Prop :=
  ∃ out' cs', args.changes lib sort fetched = .ok (out', cs') ∧
    out'.map (·.vote) = out.map (·.vote) ∧
    ∀ c ∈ out, AdjustsStake c.ty → ∀ c' ∈ out', c'.vote = c.vote →
      (∀ i, (args.syncDelegationConfig fetched).syncDelegationIx lib i c' = none) ∧
        c'.ty ≠ .transientWrongState

/-- What the changes of an accepted scheme are computed from. -/
def sortedSrcs (fetched : Fetched Pubkey) : Except Panic (List (ValidatorChangeSrc Pubkey)) :=
  args.changeSrcs lib fetched (lamportsEntries args.validators ++ remainderEntries args.validators)

/-- What a run has computed: a change for each entry, decided with what the entries before it
leave. -/
structure Computes (fetched : Fetched Pubkey) (srcs : List (ValidatorChangeSrc Pubkey))
    (out : List (ValidatorDelegationChange Pubkey)) : Prop where
  resolved : List.Forall₂ (fun d src => args.changeSrc lib fetched d = .ok src)
    (lamportsEntries args.validators ++ remainderEntries args.validators) srcs
  computable : ∀ src ∈ srcs, Computable lib fetched.rent fetched.epoch src
  votes : out.map (·.vote) =
    (lamportsEntries args.validators ++ remainderEntries args.validators).map (·.vote)
  decided : ∀ i src c, srcs[i]? = some src → out[i]? = some c →
    decisionOf c.ty = (costs lib fetched.rent).decision (fetched.reserveBefore lib srcs i)
      (demandOf fetched.epoch src)

variable {lib sort args} {fetched : Fetched Pubkey} {account : Pubkey → Option (Account Pubkey)}
  {srcs : List (ValidatorChangeSrc Pubkey)} {out : List (ValidatorDelegationChange Pubkey)}
  {cs : DelegationChangeset Pubkey}

theorem changes_spec (hvalid : isDelegationSchemeValid (args.validators.map (·.target)) = .ok ())
    (h : args.changes lib sort fetched = .ok (out, cs)) :
    ∃ srcs, args.Computes lib fetched srcs out := by
  obtain ⟨-, srcs, hsrcs, hcollect⟩ := (changes_eq_ok sort hvalid).mp h
  have hfollows := take_spec hcollect
  have htake : ((args.syncDelegationConfig fetched).changeset srcs).delegations.take
      ((args.syncDelegationConfig fetched).changeset srcs).delegations.length = srcs :=
    List.take_length
  refine ⟨srcs, hsrcs, ?_, ?_, fun i src c hsrc hc => ?_⟩
  · have hcomp := take_ok_iff.mp ⟨_, hcollect⟩
    rwa [htake] at hcomp
  · rw [hfollows.votes, htake, votes_of_changeSrcs hsrcs]
  · have hchange := hfollows.getElem? (by rwa [htake]) hc
    rw [htake] at hchange
    exact hchange.2

theorem Computes.length_eq (h : args.Computes lib fetched srcs out) : out.length = srcs.length := by
  have hlen := congrArg List.length h.votes
  rw [List.length_map, List.length_map] at hlen
  exact hlen.trans h.resolved.length_eq

/-- What the change of an entry has made of its accounts. -/
theorem Computes.landed {fetched' : Fetched Pubkey} (h : args.Computes lib fetched srcs out)
    (hland : args.ChangesLand lib fetched fetched' out) {i : ℕ} {d : ValidatorDelegation Pubkey}
    (hd : (lamportsEntries args.validators ++ remainderEntries args.validators)[i]? = some d) :
    ∃ src c src', srcs[i]? = some src ∧ out[i]? = some c ∧ Landed fetched.epoch c.ty src src' ∧
      args.changeSrc lib fetched' d = .ok src' := by
  obtain ⟨src, hsrc⟩ := exists_getElem? h.resolved.length_eq hd
  obtain ⟨c, hc⟩ := exists_getElem? h.length_eq.symm hsrc
  have hvote : c.vote = d.vote := by
    have heq := congrArg (·[i]?) h.votes
    simpa only [List.getElem?_map, hd, hc, Option.map_some, Option.some.injEq] using heq
  obtain ⟨src', hlanded, hsrc'⟩ := hland d ((entries_perm _).mem_iff.mp (List.mem_of_getElem? hd)) c
    (List.mem_of_getElem? hc) hvote src (rel_of_getElem? h.resolved hd hsrc)
  exact ⟨src, c, src', hsrc, hc, hlanded, hsrc'⟩

/-- **The second run, position by position**: each change is decided on the demand that the first
run has left. -/
theorem rerun_spec (hvalid : isDelegationSchemeValid (args.validators.map (·.target)) = .ok ())
    (hrun : args.changes lib sort fetched = .ok (out, cs))
    (hland : args.ChangesLand lib fetched (fetched.afterRun cs account) out) :
    ∃ srcs out' cs', args.Computes lib fetched srcs out ∧
      args.changes lib sort (fetched.afterRun cs account) = .ok (out', cs') ∧
      out'.map (·.vote) = out.map (·.vote) ∧
      ∀ (i : ℕ) src c c', srcs[i]? = some src → out[i]? = some c → out'[i]? = some c' →
        ∃ R', decisionOf c'.ty = (costs lib fetched.rent).decision R'
          ((demandOf fetched.epoch src).after (decisionOf c.ty)) := by
  have hstaker := ((changes_eq_ok sort hvalid).mp hrun).1
  obtain ⟨srcs, h⟩ := changes_spec hvalid hrun
  -- the second run resolves every entry, and can compute its change
  have hresolved : ∀ d ∈ lamportsEntries args.validators ++ remainderEntries args.validators,
      ∃ src', args.changeSrc lib (fetched.afterRun cs account) d = .ok src' ∧
        Computable lib fetched.rent fetched.epoch src' := by
    intro d hd
    obtain ⟨i, hd⟩ := List.mem_iff_getElem?.mp hd
    obtain ⟨src, c, src', hsrc, hc, hlanded, hsrc'⟩ := h.landed hland hd
    exact ⟨src', hsrc', computable_landed (h.computable src (List.mem_of_getElem? hsrc))
      (h.decided i src c hsrc hc) hlanded⟩
  obtain ⟨srcs₂, hsrcs₂, hcomp₂⟩ := exists_forall₂_ok hresolved
  obtain ⟨⟨out', cs'⟩, hcollect'⟩ :
      ∃ x, ((args.syncDelegationConfig (fetched.afterRun cs account)).changeset srcs₂).collect lib =
        .ok x :=
    take_ok_iff.mpr fun src' hsrc' => hcomp₂ src' (List.mem_of_mem_take hsrc')
  have hrun' : args.changes lib sort (fetched.afterRun cs account) = .ok (out', cs') :=
    (changes_eq_ok sort hvalid).mpr ⟨hstaker, srcs₂, hsrcs₂, hcollect'⟩
  obtain ⟨srcs', h'⟩ := changes_spec hvalid hrun'
  refine ⟨srcs, out', cs', h, hrun', h'.votes.trans h.votes.symm, ?_⟩
  intro i src c c' hsrc hc hc'
  obtain ⟨d, hd⟩ := exists_getElem? h.resolved.length_eq.symm hsrc
  obtain ⟨src₂, hsrc₂⟩ := exists_getElem? h'.resolved.length_eq hd
  obtain ⟨_, _, src', hsrc', hc₂, hlanded, hchangeSrc⟩ := h.landed hland hd
  obtain rfl := Option.some.inj (hsrc.symm.trans hsrc')
  obtain rfl := Option.some.inj (hc.symm.trans hc₂)
  obtain rfl := Except.ok.inj (hchangeSrc.symm.trans (rel_of_getElem? h'.resolved hd hsrc₂))
  rw [← demandOf_landed (h.computable src (List.mem_of_getElem? hsrc)) (h.decided i src c hsrc hc)
    hlanded]
  exact ⟨_, h'.decided i src' c' hsrc₂ hc'⟩

end SyncDelegationArgs

open SyncDelegationArgs

/-- **A second run in the epoch is quiet** about the validators that the first has adjusted exactly
when no entry overshoots: when none with a positive target is decreased. -/
theorem rerun_quiet_iff [DecidableEq Pubkey] (lib : StakePoolLib Pubkey)
    (sort : StableSort (ValidatorDelegation Pubkey)) (args : SyncDelegationArgs Pubkey)
    (fetched : Fetched Pubkey) (account : Pubkey → Option (Account Pubkey))
    (out : List (ValidatorDelegationChange Pubkey)) (cs : DelegationChangeset Pubkey)
    (hvalid : isDelegationSchemeValid (args.validators.map (·.target)) = .ok ())
    (hvotes : (args.validators.map (·.vote)).Nodup)
    (hrun : args.changes lib sort fetched = .ok (out, cs))
    (hland : args.ChangesLand lib fetched (fetched.afterRun cs account) out) :
    args.QuietAfter lib sort (fetched.afterRun cs account) out ↔
      ∀ srcs, args.sortedSrcs lib fetched = .ok srcs → ∀ i src, srcs[i]? = some src →
        ¬ (costs lib fetched.rent).Overshoots (fetched.reserveBefore lib srcs i)
          (demandOf fetched.epoch src) := by
  obtain ⟨srcs, out', cs', h, hrun', hvotes', hspec⟩ := rerun_spec hvalid hrun hland
  have hsrcs : args.sortedSrcs lib fetched = .ok srcs := changeSrcs_eq_ok.mpr h.resolved
  have hrent := costs_rent_pos lib fetched.rent
  have hlen' : out.length = out'.length := by
    have hlen := congrArg List.length hvotes'
    rwa [List.length_map, List.length_map, eq_comm] at hlen
  have hnodup : (out.map (·.vote)).Nodup := by
    rw [h.votes]
    exact ((entries_perm _).map _).nodup_iff.mpr hvotes
  constructor
  · rintro ⟨out₂, cs₂, hrun₂, -, hafter⟩ srcs₂ hsrcs₂ i src hsrc hover
    obtain rfl := Except.ok.inj (hsrcs.symm.trans hsrcs₂)
    obtain ⟨rfl, rfl⟩ := Prod.mk.inj (Except.ok.inj (hrun'.symm.trans hrun₂))
    obtain ⟨c, hc⟩ := exists_getElem? h.length_eq.symm hsrc
    obtain ⟨c', hc'⟩ := exists_getElem? hlen' hc
    have hdec := h.decided i src c hsrc hc
    have hadjusts := adjustsStake_of_overshoots hdec hrent hover
    have hvote : c'.vote = c.vote := by
      simpa [hc, hc'] using congrArg (·[i]?) hvotes'
    obtain ⟨hnone, hstate⟩ := hafter c (List.mem_of_getElem? hc) hadjusts c'
      (List.mem_of_getElem? hc') hvote
    obtain ⟨R', hdec'⟩ := hspec i src c c' hsrc hc hc'
    exact (quiet_change_iff hdec hrent hadjusts hdec').mp
      ⟨(syncDelegationIx_eq_none_iff _ _ _).mp hnone, hstate⟩ hover
  · intro hnot
    refine ⟨out', cs', hrun', hvotes', fun c hmem hadjusts c' hmem' hvote => ?_⟩
    obtain ⟨i, hc⟩ := List.mem_iff_getElem?.mp hmem
    obtain ⟨j, hc'⟩ := List.mem_iff_getElem?.mp hmem'
    -- the votes are distinct, so the two changes are at one position
    have hij : i = j := by
      refine (List.getElem?_inj ?_ hnodup).mp ?_
      · rw [List.length_map]
        exact (List.getElem?_eq_some_iff.mp hc).1
      · conv_rhs => rw [← hvotes']
        simp [hc, hc', hvote]
    subst hij
    obtain ⟨src, hsrc⟩ := exists_getElem? h.length_eq hc
    obtain ⟨R', hdec'⟩ := hspec i src c c' hsrc hc hc'
    rw [syncDelegationIx_eq_none_iff]
    exact (quiet_change_iff (h.decided i src c hsrc hc) hrent hadjusts hdec').mpr
      (hnot srcs hsrcs i src hsrc)

/-- A pool of two validators with nine SOL each and no transient accounts. -/
def nineEach : Fetched Address where
  programId := .key 0
  stakePool := .fresh
  epoch := 7
  rent := .default
  validators := [⟨9000000000, 0, 7, 0, 0, .active, .key 10⟩,
    ⟨9000000000, 0, 7, 0, 0, .active, .key 11⟩]
  reserveLamports := 10000000000
  account
    | .validatorStake _ _ _ _ =>
      some ⟨.wellKnown "stake_program", 9002282880, some (.stake ⟨9000000000, 3, u64Max⟩)⟩
    | _ => none

/-- The scheme that gives these targets to the two validators. -/
def targets (a b : UInt64) : SyncDelegationArgs Address where
  pool := .key 1
  payer := .key 2
  staker := .key 101
  validators := [⟨.key 10, .lamports a⟩, ⟨.key 11, .lamports b⟩]

/-- The stake accounts of the first validator and the transient account of the second, when the
first has been decreased by `dec` and the second increased by `inc`. -/
def decreasedIncreased (dec inc : UInt64) : Address → Option (Account Address)
  | .validatorStake _ _ (.key 10) _ =>
    some ⟨.wellKnown "stake_program", 9002282880 - dec,
      some (.stake ⟨9000000000 - dec, 3, u64Max⟩)⟩
  | .transientStake _ _ (.key 10) _ =>
    some ⟨.wellKnown "stake_program", dec + 2282880, some (.stake ⟨dec, 3, 7⟩)⟩
  | .transientStake _ _ (.key 11) _ =>
    some ⟨.wellKnown "stake_program", inc + 2282880, some (.stake ⟨inc, 7, u64Max⟩)⟩
  | address => nineEach.account address

/-- These accounts are what the changes make of the others. -/
theorem changesLand_decreasedIncreased (a b dec inc : UInt64) (cs : DelegationChangeset Address) :
    (targets a b).ChangesLand StakePoolLib.symbolic nineEach
      (nineEach.afterRun cs (decreasedIncreased dec inc))
      [⟨.key 10, 0, .decreaseStake dec⟩, ⟨.key 11, 0, .increaseStake inc⟩] := by
  intro d hd c hc hvote src hsrc
  simp only [targets, List.mem_cons, List.not_mem_nil, or_false] at hd hc
  obtain rfl | rfl := hd <;> obtain rfl | rfl := hc
  · obtain rfl := Except.ok.inj hsrc
    refine ⟨_, .decrease dec _ ⟨9000000000, 3, u64Max⟩ rfl (by decide), ?_⟩
    rw [transientStake, Option.bind_none, Option.map_none, Option.getD_none, UInt64.zero_add]
    rfl
  · cases hvote
  · cases hvote
  · obtain rfl := Except.ok.inj hsrc
    refine ⟨_, .increase inc _, ?_⟩
    rw [transientStake, Option.bind_none, Option.map_none, Option.getD_none, UInt64.zero_add]
    rfl

theorem rerun_quiet_withdrawn : ∃ out cs,
    (targets 0 10000000000).changes StakePoolLib.symbolic .insertion nineEach = .ok (out, cs) ∧
    (targets 0 10000000000).QuietAfter StakePoolLib.symbolic .insertion
      (nineEach.afterRun cs (decreasedIncreased 8999000000 1000000000)) out := by
  refine ⟨[⟨.key 10, 0, .decreaseStake 8999000000⟩, ⟨.key 11, 0, .increaseStake 1000000000⟩],
    ⟨[], 6995434240, 7, .default⟩, rfl, (rerun_quiet_iff _ _ _ _ _ _ _ rfl (by decide) rfl
      (changesLand_decreasedIncreased _ _ _ _ _)).mpr ?_⟩
  -- the first has no target, the second not enough stake
  rintro srcs hsrcs i src hsrc ⟨-, hdesired, hexcess, -, -⟩
  obtain rfl := Except.ok.inj hsrcs
  rcases List.mem_cons.mp (List.mem_of_getElem? hsrc) with rfl | hmem
  · exact absurd hdesired (by decide)
  · obtain rfl := List.mem_singleton.mp hmem
    exact absurd hexcess (by decide)

/-- A validator that is to keep five of its nine SOL: the second run finds its transient account in
the wrong state. -/
theorem rerun_complains : ∃ out cs,
    (targets 5000000000 10000000000).changes StakePoolLib.symbolic .insertion nineEach =
      .ok (out, cs) ∧
    (targets 5000000000 10000000000).ChangesLand StakePoolLib.symbolic nineEach
      (nineEach.afterRun cs (decreasedIncreased 3999000000 1000000000)) out ∧
    ¬ (targets 5000000000 10000000000).QuietAfter StakePoolLib.symbolic .insertion
      (nineEach.afterRun cs (decreasedIncreased 3999000000 1000000000)) out := by
  refine ⟨[⟨.key 10, 0, .decreaseStake 3999000000⟩, ⟨.key 11, 0, .increaseStake 1000000000⟩],
    ⟨[], 6995434240, 7, .default⟩, rfl, changesLand_decreasedIncreased _ _ _ _ _, ?_⟩
  rintro ⟨out', cs', hrun, -, hafter⟩
  have hsecond : (targets 5000000000 10000000000).changes StakePoolLib.symbolic .insertion
      (nineEach.afterRun ⟨[], 6995434240, 7, .default⟩
        (decreasedIncreased 3999000000 1000000000)) =
      .ok ([⟨.key 10, 0, .transientWrongState⟩, ⟨.key 11, 0, .noChange⟩],
        ⟨[], 6995434240, 7, .default⟩) := rfl
  obtain rfl : out' = _ := congrArg Prod.fst (Except.ok.inj (hrun.symm.trans hsecond))
  exact (hafter _ List.mem_cons_self trivial _ List.mem_cons_self rfl).2 rfl

end StakePoolCli
