import StakePoolCli.Delegation.Instructions
import StakePoolCli.Interface.Symbolic
import StakePoolCli.Subcmd.ValidatorStake

/-!
# Moving stake of one validator

`increase-validator-stake` and `decrease-validator-stake` turn the amount asked for into a target,
and the changeset turns the target back into an amount. `runWith_of_reads` is what they send when
the accounts they read are there (`Reads`).

* `emits_decrease_iff`: the changeset keeps the minimum active stake back, so a decrease carries the
  amount less that minimum. `decrease_amount_iff` is when it is the amount asked for.
* `increase_amount`: an increase carries the amount, or what the reserve has above two rents.
-/

namespace StakePoolCli

open Checked DelegationChangeset Ledger

variable {Pubkey : Type} [DecidableEq Pubkey]

/-! ## What the commands read -/

namespace ValidatorStakeArgs

/-- The signer is the staker, and the list has an entry of the validator; `vsa` and `tsa` are the
states of its stake accounts. -/
structure Reads (lib : StakePoolLib Pubkey) (args : ValidatorStakeArgs Pubkey)
    (fetched : Fetched Pubkey) (vsi : ValidatorStakeInfo Pubkey) (vsa : StakeStateV2)
    (tsa : Option StakeStateV2) : Prop where
  staker : args.staker = fetched.stakePool.staker
  validator : fetched.validators.find? (·.voteAccountAddress = args.validator) = some vsi
  vsa : ∃ acc, fetched.account (args.vsaPubkey lib fetched) = some acc ∧ acc.stakeState = some vsa
  tsa : tsaState lib (fetched.account (args.tsaPubkey lib fetched vsi)) = .ok tsa

variable {lib : StakePoolLib Pubkey} {args : ValidatorStakeArgs Pubkey} {fetched : Fetched Pubkey}
  {vsi : ValidatorStakeInfo Pubkey} {vsa : StakeStateV2} {tsa : Option StakeStateV2}

/-- What the one change is computed from. -/
theorem changeSrc_of_reads (hreads : args.Reads lib fetched vsi vsa tsa)
    {desired : StakeStateV2 → Option StakeStateV2 → Except Panic UInt64} {d : UInt64}
    (hdesired : desired vsa tsa = .ok d) :
    args.changeSrc lib fetched desired = .ok ⟨vsi, vsa, tsa, d⟩ := by
  obtain ⟨hstaker, hvalidator, ⟨acc, hacc, hstate⟩, htsa⟩ := hreads
  have hcheck : checkStaker lib fetched.stakePool args.staker = .ok () :=
    if_neg (not_not.mpr hstaker)
  rw [changeSrc, hcheck, findValidator, hvalidator]
  simp only [ok_bind, expect_some, hacc, htsa, hstate, unwrap_some, hdesired]

/-- A command sends the instruction of one change, if the change has one. -/
theorem runWith_of_reads (hreads : args.Reads lib fetched vsi vsa tsa)
    {desired : StakeStateV2 → Option StakeStateV2 → Except Panic UInt64} {d : UInt64}
    (hdesired : desired vsa tsa = .ok d) {ixs : List (Instruction Pubkey)} :
    args.runWith lib fetched desired = .ok ixs ↔
      ∃ ty reserve', changeTy lib fetched.rent fetched.epoch fetched.reserveLamports
          ⟨vsi, vsa, tsa, d⟩ = .ok (ty, reserve') ∧
        ixs = ((args.syncDelegationConfig fetched).syncDelegationIx lib 0
          ⟨vsi.voteAccountAddress, vsi.transientSeedSuffix, ty⟩).toList := by
  have hset : (args.syncDelegationConfig fetched).changeset [⟨vsi, vsa, tsa, d⟩] =
      ⟨[⟨vsi, vsa, tsa, d⟩], fetched.reserveLamports, fetched.epoch, fetched.rent⟩ := rfl
  rw [runWith, changeSrc_of_reads hreads hdesired, ok_bind]
  dsimp only
  rw [hset, bind_eq_ok]
  constructor
  · rintro ⟨⟨changes, cs⟩, hcollect, h⟩
    obtain ⟨ty, reserve', hty, rfl, -⟩ := collect_singleton_eq_ok.mp hcollect
    obtain rfl := Except.ok.inj h
    exact ⟨ty, reserve', hty, syncDelegationIxs_singleton⟩
  · rintro ⟨ty, reserve', hty, rfl⟩
    refine ⟨_, collect_singleton_eq_ok.mpr ⟨ty, reserve', hty, rfl, rfl⟩, ?_⟩
    exact congrArg Except.ok syncDelegationIxs_singleton

end ValidatorStakeArgs

open ValidatorStakeArgs

section

variable {lib : StakePoolLib Pubkey} {args : ValidatorStakeArgs Pubkey} {fetched : Fetched Pubkey}
  {vsi : ValidatorStakeInfo Pubkey} {vsa : StakeStateV2} {tsa : Option StakeStateV2}
  {next : UInt64} {status : TransientStakeAccStatus}

/-! ## Decreasing -/

namespace DecreaseValidatorStakeArgs

omit [DecidableEq Pubkey] in
theorem desiredStake_amt {amt : UInt64} (hstake : args.stake = .amt amt)
    (hnext : nextEpochStakeAndTransientStatus vsa tsa fetched.epoch = .ok (next, status)) :
    desiredStake args fetched vsa tsa = .ok (saturatingSub next amt) := by
  rw [desiredStake, hstake]
  simp only [hnext, ok_bind]

/-- What a decrease of an amount sends is decided on the ledger with the amount as the excess. -/
theorem run_amt (hreads : args.Reads lib fetched vsi vsa tsa) (hactive : vsi.status = .active)
    {amt : UInt64} (hstake : args.stake = .amt amt)
    (hnext : nextEpochStakeAndTransientStatus vsa tsa fetched.epoch = .ok (next, status))
    {ixs : List (Instruction Pubkey)} (hrun : run lib args fetched = .ok ixs) :
    ∃ ty, decisionOf ty = (costs lib fetched.rent).decision fetched.reserveLamports.toNat
        ⟨true, next.toNat, next.toNat - amt.toNat, status⟩ ∧
      ixs = ((args.syncDelegationConfig fetched).syncDelegationIx lib 0
        ⟨vsi.voteAccountAddress, vsi.transientSeedSuffix, ty⟩).toList := by
  obtain ⟨ty, reserve', hty, rfl⟩ :=
    (runWith_of_reads hreads (desiredStake_amt hstake hnext)).mp hrun
  refine ⟨ty, ?_, rfl⟩
  have hdec := (changeTy_spec hty).1
  rw [@demandOf_eq _ _ ⟨vsi, vsa, tsa, saturatingSub next amt⟩ _ _ hnext] at hdec
  rw [hdec, hactive, toNat_saturatingSub]
  rfl

end DecreaseValidatorStakeArgs

/-- A decrease is the amount less the minimum active stake, and is emitted only from twice that
minimum and the lamports of a new stake account on. -/
theorem emits_decrease_iff (hreads : args.Reads lib fetched vsi vsa tsa)
    (hactive : vsi.status = .active) {amt : UInt64} (hstake : args.stake = .amt amt)
    (hnext : nextEpochStakeAndTransientStatus vsa tsa fetched.epoch = .ok (next, status))
    (hamt : amt ≤ next) {ixs : List (Instruction Pubkey)}
    (hrun : DecreaseValidatorStakeArgs.run lib args fetched = .ok ixs) (dec : UInt64) :
    (∃ ix ∈ ixs, ∃ a, ix.decreaseArgs = some a ∧ a.lamports = dec) ↔
      2 * lib.minActiveStake.toNat + (lamportsForNewVsa fetched.rent).toNat ≤ amt.toNat ∧
        status ≠ .activating ∧
        2 * (lamportsForNewVsa fetched.rent).toNat ≤ fetched.reserveLamports.toNat ∧
        dec.toNat + lib.minActiveStake.toNat = amt.toNat := by
  rw [UInt64.le_iff_toNat_le] at hamt
  obtain ⟨ty, hdec, rfl⟩ := DecreaseValidatorStakeArgs.run_amt hreads hactive hstake hnext hrun
  have hiff := @decision_eq_decrease_iff (costs lib fetched.rent) fetched.reserveLamports.toNat
    ⟨true, next.toNat, next.toNat - amt.toNat, status⟩ dec.toNat (costs_rent_pos lib fetched.rent)
  rw [← hdec, costs_rent, costs_minActive] at hiff
  have hty : ty = .decreaseStake dec ↔ decisionOf ty = .decrease dec.toNat :=
    (decisionOf_injective.eq_iff (b := .decreaseStake dec)).symm
  constructor
  · rintro ⟨ix, hix, a, ha, rfl⟩
    have hdecrease := decreaseArgs_syncDelegationIx (Option.mem_toList.mp hix) ha
    obtain ⟨-, hle, hstatus, hreserve, hamount⟩ := hiff.mp (hty.mp hdecrease)
    dsimp only at hle hstatus hamount
    exact ⟨by omega, hstatus, hreserve, by omega⟩
  · rintro ⟨hle, hstatus, hreserve, hamount⟩
    have hdecrease : ty = .decreaseStake dec :=
      hty.mpr (hiff.mpr ⟨rfl, by dsimp only; omega, hstatus, hreserve, by dsimp only; omega⟩)
    obtain ⟨ix, a, hix, ha, hlamports⟩ := @exists_decreaseArgs _ lib
      (args.syncDelegationConfig fetched) ⟨vsi.voteAccountAddress, vsi.transientSeedSuffix, ty⟩ 0
      dec hdecrease
    exact ⟨ix, Option.mem_toList.mpr hix, a, ha, hlamports⟩

/-- **A decrease is by the amount asked for** exactly when none is emitted, when the validator would
not keep the minimum active stake, or when there is no such minimum. -/
theorem decrease_amount_iff (lib : StakePoolLib Pubkey) (args : ValidatorStakeArgs Pubkey)
    (fetched : Fetched Pubkey) (vsi : ValidatorStakeInfo Pubkey) (dlgt : Delegation)
    (tsa : Option StakeStateV2) (amt next : UInt64) (status : TransientStakeAccStatus)
    (ixs : List (Instruction Pubkey)) (hreads : args.Reads lib fetched vsi (.stake dlgt) tsa)
    (hactive : vsi.status = .active) (hstake : args.stake = .amt amt)
    (hnext : nextEpochStakeAndTransientStatus (.stake dlgt) tsa fetched.epoch = .ok (next, status))
    (hamt : amt ≤ next) (hrun : DecreaseValidatorStakeArgs.run lib args fetched = .ok ixs) :
    (∀ ix ∈ ixs, ∀ a, ix.decreaseArgs = some a →
      lib.minActiveStake.toNat + amt.toNat ≤ dlgt.stake.toNat → a.lamports = amt) ↔
    amt.toNat < 2 * lib.minActiveStake.toNat + (lamportsForNewVsa fetched.rent).toNat ∨
      status = .activating ∨
      fetched.reserveLamports.toNat < 2 * (lamportsForNewVsa fetched.rent).toNat ∨
      dlgt.stake.toNat < lib.minActiveStake.toNat + amt.toNat ∨
      lib.minActiveStake.toNat = 0 := by
  have hemits := emits_decrease_iff hreads hactive hstake hnext hamt hrun
  constructor
  · intro h
    by_contra hnot
    push Not at hnot
    obtain ⟨hle, hstatus, hreserve, hkeeps, hmin⟩ := hnot
    have hless := toNat_saturatingSub amt lib.minActiveStake
    obtain ⟨ix, hix, a, ha, hlamports⟩ := (hemits (saturatingSub amt lib.minActiveStake)).mpr
      ⟨hle, hstatus, hreserve, by omega⟩
    rw [h ix hix a ha hkeeps] at hlamports
    rw [← hlamports] at hless
    omega
  · rintro h ix hix a ha hkeeps
    obtain ⟨hle, hstatus, hreserve, hlamports⟩ := (hemits a.lamports).mp ⟨ix, hix, a, ha, rfl⟩
    rcases h with h | h | h | h | h
    · omega
    · exact absurd h hstatus
    · omega
    · omega
    · exact UInt64.toNat_inj.mp (by omega)

/-- The arguments for the only validator of a pool. -/
def ofTheValidator (stake : TokenAmtOrAll) : ValidatorStakeArgs Address :=
  ⟨.key 1, .key 2, .key 101, .key 10, stake⟩

/-- The entry of a validator with ten SOL. -/
def tenSol : ValidatorStakeInfo Address := ⟨11002282880, 0, 7, 0, 0, .active, .key 10⟩

/-- A pool with this validator only, which has no transient account, and a reserve of ten SOL. -/
def poolOfOne : Fetched Address where
  programId := .key 0
  stakePool := .fresh
  epoch := 7
  rent := .default
  validators := [tenSol]
  reserveLamports := 10000000000
  account
    | .validatorStake _ _ _ _ =>
      some ⟨.wellKnown "stake_program", 10002282880, some (.stake ⟨10000000000, 3, u64Max⟩)⟩
    | _ => none

theorem reads_poolOfOne (stake : TokenAmtOrAll) :
    (ofTheValidator stake).Reads StakePoolLib.symbolic poolOfOne tenSol
      (.stake ⟨10000000000, 3, u64Max⟩) none :=
  ⟨rfl, rfl, ⟨_, rfl, rfl⟩, rfl⟩

/-- One SOL is too little for a transient account. -/
theorem decrease_amount_oneSol : ∃ ixs,
    DecreaseValidatorStakeArgs.run StakePoolLib.symbolic (ofTheValidator (.amt 1000000000))
        poolOfOne = .ok ixs ∧
      ∀ ix ∈ ixs, ∀ a, ix.decreaseArgs = some a →
        StakePoolLib.symbolic.minActiveStake.toNat + (1000000000 : UInt64).toNat ≤
          (10000000000 : UInt64).toNat → a.lamports = 1000000000 :=
  ⟨_, rfl, (decrease_amount_iff StakePoolLib.symbolic (ofTheValidator (.amt 1000000000)) poolOfOne
    tenSol ⟨10000000000, 3, u64Max⟩ none 1000000000 10000000000 .none _
    (reads_poolOfOne _) rfl rfl rfl (by decide) rfl).mpr (.inl (by decide))⟩

/-- A decrease by two SOL is one by two SOL less the minimum active stake, although the validator
keeps eight. -/
theorem decrease_less_than_asked : ∃ ixs,
    DecreaseValidatorStakeArgs.run StakePoolLib.symbolic (ofTheValidator (.amt 2000000000))
        poolOfOne = .ok ixs ∧
      ¬ ∀ ix ∈ ixs, ∀ a, ix.decreaseArgs = some a →
        StakePoolLib.symbolic.minActiveStake.toNat + (2000000000 : UInt64).toNat ≤
          (10000000000 : UInt64).toNat → a.lamports = 2000000000 := by
  refine ⟨_, rfl, fun h => ?_⟩
  have hfirst := h _ List.mem_cons_self _ rfl (by decide)
  exact absurd hfirst (by decide)

end

/-! ## Increasing -/

/-- The change of a validator that lacks the request: the request, up to what the reserve has above
two rents, one of which is left when the other has paid for the transient account. -/
theorem increaseOf_of_decision {κ : Costs} {R n request : ℕ} {status : TransientStakeAccStatus}
    {ty : ValidatorDelegationChangeTy} (hstatus : status ≠ .deactivating)
    (hdec : decisionOf ty = κ.decision R ⟨true, n, n + request, status⟩) :
    increaseOf ty = min request (R - 2 * κ.rent) ∧
      (MovesStake ty ↔ 0 < request ∧ 2 * κ.rent < R) ∧
      (MovesStake ty → κ.rent + (increaseOf ty + if status = .none then κ.rent else 0) ≤ R) := by
  have hamount := @increased_decision κ R ⟨true, n, n + request, status⟩ rfl hstatus
    (Nat.le_add_right _ _)
  have hrest := @rent_le_of_moves κ R ⟨true, n, n + request, status⟩
  rw [← hdec, increased_decisionOf, moves_decisionOf] at hamount
  rw [← hdec, moves_decisionOf] at hrest
  obtain ⟨hincrease, hmoves⟩ := hamount
  dsimp only at hincrease hmoves
  refine ⟨by omega, by rw [hmoves]; omega, fun hty => ?_⟩
  simpa only [Costs.cost, Costs.charge, increased_decisionOf, moves_decisionOf, hty, true_and]
    using hrest hty

section

variable {lib : StakePoolLib Pubkey} {args : ValidatorStakeArgs Pubkey} {fetched : Fetched Pubkey}
  {vsi : ValidatorStakeInfo Pubkey} {vsa : StakeStateV2} {tsa : Option StakeStateV2}
  {next : UInt64} {status : TransientStakeAccStatus}

namespace IncreaseValidatorStakeArgs

/-- The increase that is asked for. Everything is what the reserve has above two rents of the
library's. -/
def requested (lib : StakePoolLib Pubkey) (args : ValidatorStakeArgs Pubkey)
    (fetched : Fetched Pubkey) : ℕ :=
  match args.stake with
  | .all => fetched.reserveLamports.toNat - 2 * (lib.lamportsForNewVsa fetched.rent).toNat
  | .amt amt => amt.toNat

omit [DecidableEq Pubkey] in
theorem desiredStake_eq (hrents : 2 * (lib.lamportsForNewVsa fetched.rent).toNat < 2 ^ 64)
    (hnext : nextEpochStakeAndTransientStatus vsa tsa fetched.epoch = .ok (next, status))
    (hfits : next.toNat + requested lib args fetched < 2 ^ 64) :
    ∃ d, desiredStake lib args fetched vsa tsa = .ok d ∧
      d.toNat = next.toNat + requested lib args fetched := by
  rw [desiredStake, hnext, ok_bind]
  unfold requested at hfits ⊢
  cases hstake : args.stake with
  | all =>
    rw [hstake] at hfits
    dsimp only at hfits ⊢
    obtain ⟨twoRents, htwo, hvalue⟩ :=
      @checkedMul_of_lt 2 (lib.lamportsForNewVsa fetched.rent) hrents
    rw [show (2 : UInt64).toNat = 2 from rfl] at hvalue
    refine ⟨saturatingAdd next (saturatingSub fetched.reserveLamports twoRents), ?_, ?_⟩
    · rw [htwo, ok_bind]
    · rw [toNat_saturatingAdd, toNat_saturatingSub, hvalue]
      omega
  | amt amt =>
    rw [hstake] at hfits
    dsimp only at hfits ⊢
    refine ⟨saturatingAdd next amt, rfl, ?_⟩
    rw [toNat_saturatingAdd]
    omega

/-- What an increase sends is decided on the ledger with the request as what is missing. -/
theorem run_eq (hreads : args.Reads lib fetched vsi vsa tsa) (hactive : vsi.status = .active)
    (hnext : nextEpochStakeAndTransientStatus vsa tsa fetched.epoch = .ok (next, status))
    (hlib : 2 * (lib.lamportsForNewVsa fetched.rent).toNat < 2 ^ 64)
    (hrents : 2 * (lamportsForNewVsa fetched.rent).toNat < 2 ^ 64)
    (hfits : next.toNat + requested lib args fetched < 2 ^ 64) :
    ∃ ty, run lib args fetched = .ok ((args.syncDelegationConfig fetched).syncDelegationIx lib 0
        ⟨vsi.voteAccountAddress, vsi.transientSeedSuffix, ty⟩).toList ∧
      decisionOf ty = (costs lib fetched.rent).decision fetched.reserveLamports.toNat
        ⟨true, next.toNat, next.toNat + requested lib args fetched, status⟩ := by
  obtain ⟨d, hdesired, hd⟩ := desiredStake_eq hlib hnext hfits
  have hdemand := @demandOf_eq _ _ ⟨vsi, vsa, tsa, d⟩ _ _ hnext
  rw [hactive, hd] at hdemand
  have hcomputable : Computable lib fetched.rent fetched.epoch ⟨vsi, vsa, tsa, d⟩ := by
    refine ⟨fun _ => (nextEpochStake_ok_iff _).mp ⟨_, hnext⟩, fun _ => ?_⟩
    rw [hdemand, costs_rent]
    refine ⟨fun hlt => ?_, fun _ _ => hrents⟩
    dsimp only at hlt
    omega
  obtain ⟨⟨ty, reserve'⟩, hty⟩ := (changeTy_ok_iff fetched.reserveLamports).mpr hcomputable
  refine ⟨ty, (runWith_of_reads hreads hdesired).mpr ⟨ty, reserve', hty, rfl⟩, ?_⟩
  rw [(changeTy_spec hty).1, hdemand]
  rfl

end IncreaseValidatorStakeArgs

end

/-- **An increase is by the amount asked for, capped by the reserve.** Nothing is assumed of the
lamports that the library calculates for a new stake account, except that they are not more. -/
theorem increase_amount (lib : StakePoolLib Pubkey) (args : ValidatorStakeArgs Pubkey)
    (fetched : Fetched Pubkey) (vsi : ValidatorStakeInfo Pubkey) (vsa : StakeStateV2)
    (tsa : Option StakeStateV2) (next : UInt64) (status : TransientStakeAccStatus)
    (hreads : args.Reads lib fetched vsi vsa tsa) (hactive : vsi.status = .active)
    (hnext : nextEpochStakeAndTransientStatus vsa tsa fetched.epoch = .ok (next, status))
    (hstatus : status ≠ .deactivating)
    (hlib : (lib.lamportsForNewVsa fetched.rent).toNat ≤ (lamportsForNewVsa fetched.rent).toNat)
    (hrents : 2 * (lamportsForNewVsa fetched.rent).toNat < 2 ^ 64)
    (hfits : next.toNat + IncreaseValidatorStakeArgs.requested lib args fetched < 2 ^ 64) :
    ∃ ixs, IncreaseValidatorStakeArgs.run lib args fetched = .ok ixs ∧ ixs.length ≤ 1 ∧
      (ixs.length = 1 ↔ 0 < IncreaseValidatorStakeArgs.requested lib args fetched ∧
        2 * (lamportsForNewVsa fetched.rent).toNat < fetched.reserveLamports.toNat) ∧
      ∀ ix ∈ ixs, ∃ a, ix.increaseArgs = some a ∧
        a.lamports.toNat = min (IncreaseValidatorStakeArgs.requested lib args fetched)
          (fetched.reserveLamports.toNat - 2 * (lamportsForNewVsa fetched.rent).toNat) ∧
        (args.stake = .all → a.lamports.toNat =
          fetched.reserveLamports.toNat - 2 * (lamportsForNewVsa fetched.rent).toNat) ∧
        (lamportsForNewVsa fetched.rent).toNat + (a.lamports.toNat +
          if tsa = none then (lamportsForNewVsa fetched.rent).toNat else 0) ≤
            fetched.reserveLamports.toNat := by
  obtain ⟨ty, hrun, hdec⟩ := IncreaseValidatorStakeArgs.run_eq hreads hactive hnext
    (Nat.lt_of_le_of_lt (Nat.mul_le_mul_left 2 hlib) hrents) hrents hfits
  obtain ⟨hincrease, hmoves, hrest⟩ := increaseOf_of_decision hstatus hdec
  rw [costs_rent] at hincrease hmoves hrest
  refine ⟨_, hrun, ?_⟩
  by_cases hty : MovesStake ty
  · obtain ⟨hpos, hreserve⟩ := hmoves.mp hty
    obtain ⟨ix, a, hix, ha, hlamports⟩ := @exists_increaseArgs _ lib
      (args.syncDelegationConfig fetched) ⟨vsi.voteAccountAddress, vsi.transientSeedSuffix, ty⟩ 0
      (show 0 < increaseOf ty by omega)
    rw [hix, Option.toList_some]
    refine ⟨Nat.le_refl 1, iff_of_true rfl ⟨hpos, hreserve⟩, fun ix' hix' => ?_⟩
    obtain rfl := List.mem_singleton.mp hix'
    dsimp only at hlamports
    refine ⟨a, ha, hlamports.trans hincrease, fun hall => ?_, ?_⟩
    · have hrequested : IncreaseValidatorStakeArgs.requested lib args fetched =
          fetched.reserveLamports.toNat - 2 * (lib.lamportsForNewVsa fetched.rent).toNat := by
        rw [IncreaseValidatorStakeArgs.requested, hall]
      omega
    · rw [hlamports]
      simpa only [status_eq_none_iff hnext] using hrest hty
  · rw [(syncDelegationIx_eq_none_iff lib (args.syncDelegationConfig fetched)
      ⟨vsi.voteAccountAddress, vsi.transientSeedSuffix, ty⟩).mpr hty 0, Option.toList_none]
    exact ⟨Nat.zero_le 1, iff_of_false (by simp) fun h => hty (hmoves.mpr h), by simp⟩

/-- All that the reserve of ten SOL can spare. -/
theorem increase_amount_all : ∃ ixs,
    IncreaseValidatorStakeArgs.run StakePoolLib.symbolic (ofTheValidator .all) poolOfOne =
        .ok ixs ∧
      ixs.length = 1 ∧
      ∀ ix ∈ ixs, ∃ a, ix.increaseArgs = some a ∧ a.lamports.toNat = 7995434240 := by
  obtain ⟨ixs, hrun, -, hone, hixs⟩ := increase_amount StakePoolLib.symbolic (ofTheValidator .all)
    poolOfOne tenSol (.stake ⟨10000000000, 3, u64Max⟩) none 10000000000 .none
    (reads_poolOfOne _) rfl rfl (by decide) (by decide) (by decide) (by decide)
  refine ⟨ixs, hrun, hone.mpr ⟨by decide, by decide⟩, fun ix hix => ?_⟩
  obtain ⟨a, ha, -, hall, -⟩ := hixs ix hix
  exact ⟨a, ha, (hall rfl).trans (by decide)⟩

end StakePoolCli
