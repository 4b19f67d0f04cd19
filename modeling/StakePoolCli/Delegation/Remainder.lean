import StakePoolCli.Delegation.Ledger
import StakePoolCli.Delegation.Scheme
import StakePoolCli.Interface.Symbolic

/-!
# The remainder of a scheme

`remainder_takes_what_is_left`: the entry that takes the remainder changes nothing for the others,
wherever it stands in the scheme, and gets all that they leave of the reserve beyond two rents.

It is processed last (`SyncDelegationArgs.scheme_eq`), so the others are served as if it were not
there (`DelegationChangeset.collect_append`). Its target is the largest word: unless the reserve
could fill it up to there, its increase is a partial one (`changeTy_remainder`).
-/

namespace StakePoolCli

open Checked Chunks Sorting Ledger DelegationChangeset

variable {Pubkey : Type} {lib : StakePoolLib Pubkey}

/-! ## The change of the remainder -/

/-- The change of an active validator whose target is the largest word, when the reserve cannot
fill it up. -/
theorem changeTy_remainder {rent : Rent} {currEpoch reserve reserve' next : UInt64}
    {src : ValidatorChangeSrc Pubkey} {ty : ValidatorDelegationChangeTy}
    {status : TransientStakeAccStatus} (hdesired : src.desired = u64Max)
    (hactive : src.vsi.status = .active)
    (hnext : nextEpochStakeAndTransientStatus src.vsa src.tsa currEpoch = .ok (next, status))
    (hstatus : status ≠ .deactivating) (hfar : reserve.toNat < u64Max.toNat - next.toNat)
    (h : changeTy lib rent currEpoch reserve src = .ok (ty, reserve')) :
    (2 * (lamportsForNewVsa rent).toNat < reserve.toNat → ∃ inc shortfall,
      ty = .partialIncreaseStake inc shortfall ∧
      inc.toNat = reserve.toNat - 2 * (lamportsForNewVsa rent).toNat ∧
      next.toNat + inc.toNat + shortfall.toNat = u64Max.toNat) ∧
    (reserve.toNat ≤ 2 * (lamportsForNewVsa rent).toNat → ty = .insufficientReserveLamports) := by
  have hdec := (changeTy_spec h).1
  rw [demandOf_eq hnext] at hdec
  simp only [Costs.decision, hactive, decide_true, Bool.true_eq_false, if_false, hdesired,
    hstatus, costs_rent, Costs.decisionIncrease] at hdec
  rw [if_neg (by omega), if_pos (by omega)] at hdec
  constructor
  · intro hlt
    rw [if_neg (by omega), if_neg (by omega)] at hdec
    cases ty with
    | partialIncreaseStake inc shortfall =>
      obtain ⟨hinc, hshort⟩ := Decision.partialIncrease.inj hdec
      exact ⟨inc, shortfall, rfl, hinc, by omega⟩
    | _ => cases hdec
  · intro hle
    rw [if_pos hle] at hdec
    cases ty with
    | insufficientReserveLamports => rfl
    | _ => cases hdec

/-! ## The changes of a scheme -/

/-- The entry that takes the remainder is the only one. -/
theorem remainderEntries_eq_singleton {scheme : List (ValidatorDelegation Pubkey)}
    {d : ValidatorDelegation Pubkey}
    (hvalid : isDelegationSchemeValid (scheme.map (·.target)) = .ok ())
    (hd : d ∈ remainderEntries scheme) : remainderEntries scheme = [d] := by
  have hle := length_remainderEntries_le hvalid
  match remainderEntries scheme, hd, hle with
  | [d'], hd, _ => rw [List.mem_singleton.mp hd]

variable [DecidableEq Pubkey]

/-- Without its remainder, a scheme is processed as it is. -/
theorem changes_lamportsEntries (sort : StableSort (ValidatorDelegation Pubkey))
    {args : SyncDelegationArgs Pubkey} {fetched : Fetched Pubkey}
    {srcs : List (ValidatorChangeSrc Pubkey)} (hstaker : args.staker = fetched.stakePool.staker)
    (hsrcs : List.Forall₂ (fun d src => args.changeSrc lib fetched d = .ok src)
      (lamportsEntries args.validators) srcs) :
    { args with validators := lamportsEntries args.validators }.changes lib sort fetched =
      ((args.syncDelegationConfig fetched).changeset srcs).collect lib := by
  have hsorted : List.Forall₂ (fun d src => SyncDelegationArgs.changeSrc lib
        { args with validators := lamportsEntries args.validators } fetched d = .ok src)
      (lamportsEntries (lamportsEntries args.validators) ++
        remainderEntries (lamportsEntries args.validators)) srcs := by
    rw [lamportsEntries_lamportsEntries, remainderEntries_lamportsEntries, List.append_nil]
    exact hsrcs
  exact @SyncDelegationArgs.changes_eq _ lib sort
    { args with validators := lamportsEntries args.validators } fetched _ srcs
    (isDelegationSchemeValid_lamportsEntries args.validators) hstaker hsorted

/-- **The remainder takes what is left** and does not affect the others. -/
theorem remainder_takes_what_is_left (lib : StakePoolLib Pubkey)
    (sort : StableSort (ValidatorDelegation Pubkey)) :
    (∀ targets, isDelegationSchemeValid targets = .ok () ↔ targets.count .remainder ≤ 1) ∧
    ∀ (args : SyncDelegationArgs Pubkey) (fetched : Fetched Pubkey),
      isDelegationSchemeValid (args.validators.map (·.target)) = .ok () →
      OrdersPositions remainderLast args.validators ∧
      sort.sortBy remainderLast args.validators =
        lamportsEntries args.validators ++ remainderEntries args.validators ∧
      (2 * (lamportsForNewVsa fetched.rent).toNat < 2 ^ 64 →
        lib.minActiveStake.toNat + (lamportsForNewVsa fetched.rent).toNat < 2 ^ 64 →
        args.staker = fetched.stakePool.staker →
        (∀ d ∈ args.validators, ∃ src, args.changeSrc lib fetched d = .ok src ∧
          (src.vsi.status = .active → Delegated src.vsa src.tsa)) →
        ∃ out cs last cs',
          { args with validators := lamportsEntries args.validators }.changes lib sort fetched =
            .ok (out, cs) ∧
          args.changes lib sort fetched = .ok (out ++ last, cs') ∧
          out.length = (lamportsEntries args.validators).length ∧
          last.length = (remainderEntries args.validators).length ∧
          ∀ d ∈ remainderEntries args.validators, ∀ src,
            args.changeSrc lib fetched d = .ok src → src.vsi.status = .active →
            ∀ next status, nextEpochStakeAndTransientStatus src.vsa src.tsa fetched.epoch =
              .ok (next, status) → status ≠ .deactivating →
            cs.reserveLamports.toNat < u64Max.toNat - next.toNat →
            (2 * (lamportsForNewVsa fetched.rent).toNat < cs.reserveLamports.toNat →
              ∃ inc shortfall, last = [⟨src.vsi.voteAccountAddress, src.vsi.transientSeedSuffix,
                  .partialIncreaseStake inc shortfall⟩] ∧
                inc.toNat =
                  cs.reserveLamports.toNat - 2 * (lamportsForNewVsa fetched.rent).toNat ∧
                next.toNat + inc.toNat + shortfall.toNat = u64Max.toNat) ∧
            (cs.reserveLamports.toNat ≤ 2 * (lamportsForNewVsa fetched.rent).toNat →
              last = [⟨src.vsi.voteAccountAddress, src.vsi.transientSeedSuffix,
                .insufficientReserveLamports⟩])) := by
  refine ⟨isDelegationSchemeValid_iff, fun args fetched hvalid =>
    ⟨ordersPositions_remainderLast hvalid, sortBy_remainderLast hvalid sort,
      fun hrents hmin hstaker hresolved => ?_⟩⟩
  have hlam : ∀ d ∈ lamportsEntries args.validators, d ∈ args.validators :=
    fun d hd => List.mem_of_mem_filter hd
  have hrem : ∀ d ∈ remainderEntries args.validators, d ∈ args.validators :=
    fun d hd => List.mem_of_mem_filter hd
  obtain ⟨srcs₁, hsrcs₁, hdel₁⟩ := exists_forall₂_ok fun d hd => hresolved d (hlam d hd)
  obtain ⟨srcs₂, hsrcs₂, hdel₂⟩ := exists_forall₂_ok fun d hd => hresolved d (hrem d hd)
  obtain ⟨out, cs, hcollect₁, hfollows₁⟩ := @collect_ok _ lib
    ⟨srcs₁, fetched.reserveLamports, fetched.epoch, fetched.rent⟩ hrents hmin hdel₁
  obtain ⟨last, cs', hcollect₂, hfollows₂⟩ := @collect_ok _ lib
    ⟨srcs₂, cs.reserveLamports, fetched.epoch, fetched.rent⟩ hrents hmin hdel₂
  have hlength₁ : out.length = srcs₁.length := by simpa using congrArg List.length hfollows₁.votes
  have hlength₂ : last.length = srcs₂.length := by simpa using congrArg List.length hfollows₂.votes
  refine ⟨out, cs, last, cs', ?_, ?_, hlength₁.trans hsrcs₁.length_eq.symm,
    hlength₂.trans hsrcs₂.length_eq.symm, ?_⟩
  · exact (changes_lamportsEntries sort hstaker hsrcs₁).trans hcollect₁
  · rw [SyncDelegationArgs.changes_eq sort hvalid hstaker (List.rel_append hsrcs₁ hsrcs₂),
      SyncDelegationConfig.changeset, collect_append]
    exact bind_eq_ok.mpr ⟨_, hcollect₁, bind_eq_ok.mpr ⟨_, hcollect₂, rfl⟩⟩
  · intro d hd src hsrc hactive next status hnext hstatus hfar
    -- there is one remainder, so `srcs₂` is `[src]`
    rw [remainderEntries_eq_singleton hvalid hd] at hsrcs₂
    obtain _ | ⟨hsrc', hnil⟩ := hsrcs₂
    obtain rfl := List.forall₂_nil_left_iff.mp hnil
    obtain rfl := Except.ok.inj (hsrc.symm.trans hsrc')
    have hdesired : src.desired = u64Max := by
      rw [(SyncDelegationArgs.changeSrc_eq_ok.mp hsrc).2.2,
        of_decide_eq_true (List.mem_filter.mp hd).2]
      rfl
    obtain ⟨ty, reserve', hty, rfl, -⟩ := collect_singleton_eq_ok.mp hcollect₂
    obtain ⟨hpart, hshort⟩ := changeTy_remainder hdesired hactive hnext hstatus hfar hty
    refine ⟨fun hlt => ?_, fun hle => ?_⟩
    · obtain ⟨inc, shortfall, rfl, hinc, hsum⟩ := hpart hlt
      exact ⟨inc, shortfall, rfl, hinc, hsum⟩
    · rw [hshort hle]

/-- A scheme whose first entry takes the remainder. -/
def remainderFirst : SyncDelegationArgs Address where
  pool := .key 1
  payer := .key 2
  staker := .key 101
  validators := [⟨.key 10, .remainder⟩, ⟨.key 11, .lamports 3000000000⟩]

/-- Two validators with two SOL of stake each and no transient accounts. -/
def twoActiveValidators : Fetched Address where
  programId := .key 0
  stakePool := .fresh
  epoch := 7
  rent := .default
  validators := [⟨2000000000, 0, 7, 0, 0, .active, .key 10⟩,
    ⟨2000000000, 0, 7, 0, 0, .active, .key 11⟩]
  reserveLamports := 10000000000
  account
    | .validatorStake _ _ _ _ =>
      some ⟨.wellKnown "stake_program", 2002282880, some (.stake ⟨2000000000, 3, u64Max⟩)⟩
    | _ => none

theorem remainder_takes_what_is_left_remainderFirst : ∃ out last cs' shortfall,
    remainderFirst.changes StakePoolLib.symbolic .insertion twoActiveValidators =
      .ok (out ++ last, cs') ∧
    last = [⟨.key 10, 0, .partialIncreaseStake 5993151360 shortfall⟩] := by
  obtain ⟨-, -, hchanges⟩ := (remainder_takes_what_is_left StakePoolLib.symbolic .insertion).2
    remainderFirst twoActiveValidators rfl
  obtain ⟨out, cs, last, cs', hdeleted, hfull, -, -, hlast⟩ :=
    hchanges (by decide) (by decide) rfl fun d hd => by
      rcases List.mem_cons.mp hd with rfl | hd
      · exact ⟨_, rfl, fun _ => ⟨rfl, by simp⟩⟩
      · obtain rfl := List.mem_singleton.mp hd
        exact ⟨_, rfl, fun _ => ⟨rfl, by simp⟩⟩
  -- the other validator takes one SOL and the rent of its transient account
  have hreserve : cs.reserveLamports = 7997717120 := by
    have hrun := congrArg (Except.map fun x => x.2.reserveLamports) hdeleted
    exact (Except.ok.inj hrun).symm
  obtain ⟨hpart, -⟩ := hlast ⟨.key 10, .remainder⟩ List.mem_cons_self _ rfl rfl _ _ rfl
    (by decide) (by rw [hreserve]; decide)
  obtain ⟨inc, shortfall, rfl, hinc, -⟩ := hpart (by rw [hreserve]; decide)
  have hinc' : inc = 5993151360 := by
    rw [hreserve] at hinc
    exact UInt64.toNat_inj.mp hinc
  exact ⟨out, _, cs', shortfall, hfull, by rw [hinc']⟩

end StakePoolCli
