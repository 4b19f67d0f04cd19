import StakePoolCli.Subcmd.SyncDelegation

/-!
# From a delegation scheme to its changes

* `isDelegationSchemeValid_iff`: the check accepts the schemes with at most one remainder.
* `scheme_eq`: an accepted scheme is processed in its own order, the remainder last.
* `changeSrcs_eq_ok`: what the changes are computed from is found entry by entry, so the order of
  the scheme plays no role for it (`changeSrc`).
* `changes_eq`: with that, the changes are those of a changeset.
-/

namespace StakePoolCli

open Checked Chunks Sorting

variable {Pubkey : Type}

/-! ## The order of a scheme -/

theorem isDelegationSchemeValidGo_iff (hasRemainder : Bool)
    (targets : List ValidatorDelegationTarget) :
    isDelegationSchemeValidGo hasRemainder targets = .ok () ↔
      targets.count .remainder + hasRemainder.toNat ≤ 1 := by
  induction targets generalizing hasRemainder with
  | nil => cases hasRemainder <;> simp [isDelegationSchemeValidGo]
  | cons target targets ih =>
    cases target with
    | lamports n =>
      rw [isDelegationSchemeValidGo, ih, List.count_cons_of_ne (by simp)]
    | remainder =>
      rw [isDelegationSchemeValidGo, List.count_cons_self]
      cases hasRemainder with
      | true => simp
      | false => simp [ih]

/-- A scheme is accepted iff at most one of its targets is the remainder. -/
theorem isDelegationSchemeValid_iff (targets : List ValidatorDelegationTarget) :
    isDelegationSchemeValid targets = .ok () ↔ targets.count .remainder ≤ 1 :=
  isDelegationSchemeValidGo_iff false targets

/-- The entry that takes the remainder. -/
def ValidatorDelegation.takesRemainder (d : ValidatorDelegation Pubkey) : Bool :=
  d.target = .remainder

/-- The entries of a scheme with an amount of their own. -/
def lamportsEntries (scheme : List (ValidatorDelegation Pubkey)) :
    List (ValidatorDelegation Pubkey) :=
  scheme.filter (! ·.takesRemainder)

/-- The entries of a scheme that take the remainder. -/
def remainderEntries (scheme : List (ValidatorDelegation Pubkey)) :
    List (ValidatorDelegation Pubkey) :=
  scheme.filter (·.takesRemainder)

theorem entries_perm (scheme : List (ValidatorDelegation Pubkey)) :
    (lamportsEntries scheme ++ remainderEntries scheme).Perm scheme :=
  List.perm_append_comm.trans (List.filter_append_perm _ _)

theorem remainderLast_eq : @remainderLast Pubkey =
    lastBy ValidatorDelegation.takesRemainder := by
  funext a b
  simp only [remainderLast, lastBy, ValidatorDelegation.takesRemainder, decide_eq_true_eq]

theorem count_remainder (scheme : List (ValidatorDelegation Pubkey)) :
    (scheme.map (·.target)).count .remainder =
      scheme.countP ValidatorDelegation.takesRemainder := by
  rw [List.count, List.countP_map]
  congr 1

section

variable {scheme : List (ValidatorDelegation Pubkey)}
  (hvalid : isDelegationSchemeValid (scheme.map (·.target)) = .ok ())
include hvalid

theorem countP_takesRemainder_le : scheme.countP ValidatorDelegation.takesRemainder ≤ 1 := by
  rw [← count_remainder]
  exact (isDelegationSchemeValid_iff _).mp hvalid

/-- On an accepted scheme the comparator is an order. -/
theorem ordersPositions_remainderLast : OrdersPositions remainderLast scheme := by
  rw [remainderLast_eq]
  exact ordersPositions_lastBy (countP_takesRemainder_le hvalid)

/-- An accepted scheme is sorted by moving the remainder to the end. -/
theorem sortBy_remainderLast (sort : StableSort (ValidatorDelegation Pubkey)) :
    sort.sortBy remainderLast scheme = lamportsEntries scheme ++ remainderEntries scheme := by
  rw [remainderLast_eq]
  exact sort.sortBy_lastBy (countP_takesRemainder_le hvalid)

theorem length_remainderEntries_le : (remainderEntries scheme).length ≤ 1 := by
  rw [remainderEntries, ← List.countP_eq_length_filter]
  exact countP_takesRemainder_le hvalid

end

/-! ## A scheme without its remainder -/

@[simp] theorem lamportsEntries_lamportsEntries (scheme : List (ValidatorDelegation Pubkey)) :
    lamportsEntries (lamportsEntries scheme) = lamportsEntries scheme := by
  simp [lamportsEntries, List.filter_filter]

@[simp] theorem remainderEntries_lamportsEntries (scheme : List (ValidatorDelegation Pubkey)) :
    remainderEntries (lamportsEntries scheme) = [] := by
  simp [lamportsEntries, remainderEntries]

theorem isDelegationSchemeValid_lamportsEntries (scheme : List (ValidatorDelegation Pubkey)) :
    isDelegationSchemeValid ((lamportsEntries scheme).map (·.target)) = .ok () := by
  rw [isDelegationSchemeValid_iff, count_remainder, List.countP_eq_length_filter]
  exact (congrArg List.length (remainderEntries_lamportsEntries scheme)).trans_le (Nat.zero_le 1)

namespace SyncDelegationArgs

variable (lib : StakePoolLib Pubkey) (sort : StableSort (ValidatorDelegation Pubkey))
  (args : SyncDelegationArgs Pubkey) (fetched : Fetched Pubkey)

theorem scheme_eq
    (hvalid : isDelegationSchemeValid (args.validators.map (·.target)) = .ok ()) :
    args.scheme sort =
      .ok (lamportsEntries args.validators ++ remainderEntries args.validators) := by
  have hsorted : isDelegationSchemeValid ((lamportsEntries args.validators ++
      remainderEntries args.validators).map (·.target)) = .ok () := by
    rw [isDelegationSchemeValid_iff, ((entries_perm _).map _).count_eq]
    exact (isDelegationSchemeValid_iff _).mp hvalid
  simp only [scheme, sortBy_remainderLast hvalid, hsorted]

variable [DecidableEq Pubkey]

/-! ## What the changes are computed from -/

/-- What the change of one entry is computed from. -/
def changeSrc (d : ValidatorDelegation Pubkey) : Except Panic (ValidatorChangeSrc Pubkey) := do
  let vsi ← findValidator lib fetched.validators d.vote
  let (vsa, tsa) ← stakeStates lib ((args.stakeAccs lib fetched vsi).map fetched.account)
  .ok { vsi, vsa, tsa, desired := d.target.stake }

variable {lib args fetched}

theorem changeSrc_eq_ok {d : ValidatorDelegation Pubkey} {src : ValidatorChangeSrc Pubkey} :
    args.changeSrc lib fetched d = .ok src ↔
      findValidator lib fetched.validators d.vote = .ok src.vsi ∧
      stakeStates lib ((args.stakeAccs lib fetched src.vsi).map fetched.account) =
        .ok (src.vsa, src.tsa) ∧
      src.desired = d.target.stake := by
  unfold changeSrc
  rw [bind_eq_ok]
  constructor
  · rintro ⟨vsi, hvsi, h⟩
    obtain ⟨⟨vsa, tsa⟩, hstates, h⟩ := bind_eq_ok.mp h
    obtain rfl := Except.ok.inj h
    exact ⟨hvsi, hstates, rfl⟩
  · rintro ⟨hvsi, hstates, hdesired⟩
    refine ⟨src.vsi, hvsi, bind_eq_ok.mpr ⟨_, hstates, ?_⟩⟩
    rw [← hdesired]

/-- The sources of a scheme are those of its entries. -/
theorem changeSrcs_eq_ok {scheme : List (ValidatorDelegation Pubkey)}
    {srcs : List (ValidatorChangeSrc Pubkey)} :
    args.changeSrcs lib fetched scheme = .ok srcs ↔
      List.Forall₂ (fun d src => args.changeSrc lib fetched d = .ok src) scheme srcs := by
  have hchunks : ∀ vsis : List (ValidatorStakeInfo Pubkey),
      chunks 2 ((vsis.flatMap (args.stakeAccs lib fetched)).map fetched.account) =
        vsis.map fun vsi => (args.stakeAccs lib fetched vsi).map fetched.account := fun vsis => by
    rw [List.map_flatMap]
    exact chunks_flatMap (Nat.succ_pos 1) (fun _ => rfl) vsis
  simp only [changeSrcs, bind_eq_ok, mapM_eq_ok, hchunks, List.forall₂_map_left_iff,
    Except.ok.injEq]
  induction scheme generalizing srcs with
  | nil =>
    constructor
    · rintro ⟨vsis, ⟨⟩, states, -, rfl⟩
      exact .nil
    · rintro ⟨⟩
      exact ⟨[], .nil, [], .nil, rfl⟩
  | cons d scheme ih =>
    constructor
    · rintro ⟨_, _ | ⟨hvsi, hvsis⟩, _, _ | ⟨hstate, hstates⟩, rfl⟩
      exact .cons (changeSrc_eq_ok.mpr ⟨hvsi, hstate, rfl⟩) (ih.mp ⟨_, hvsis, _, hstates, rfl⟩)
    · rintro (_ | ⟨hsrc, hsrcs⟩)
      obtain ⟨hvsi, hstate, hdesired⟩ := changeSrc_eq_ok.mp hsrc
      obtain ⟨vsis, hvsis, states, hstates, rfl⟩ := ih.mpr hsrcs
      refine ⟨_, .cons hvsi hvsis, _, .cons hstate hstates, ?_⟩
      rw [List.zip_cons_cons, List.zip_cons_cons, List.map_cons, ← hdesired]

/-- The changes of an accepted scheme are those of a changeset. -/
theorem changes_eq {srcs : List (ValidatorChangeSrc Pubkey)}
    (hvalid : isDelegationSchemeValid (args.validators.map (·.target)) = .ok ())
    (hstaker : args.staker = fetched.stakePool.staker)
    (hsrcs : List.Forall₂ (fun d src => args.changeSrc lib fetched d = .ok src)
      (lamportsEntries args.validators ++ remainderEntries args.validators) srcs) :
    args.changes lib sort fetched =
      ((args.syncDelegationConfig fetched).changeset srcs).collect lib := by
  have hcheck : checkStaker lib fetched.stakePool args.staker = .ok () :=
    if_neg (not_not.mpr hstaker)
  rw [changes, scheme_eq sort args hvalid, ok_bind, hcheck, ok_bind, changeSrcs_eq_ok.mpr hsrcs,
    ok_bind]

/-- A run that succeeds has checked the staker and resolved every entry. -/
theorem changes_eq_ok {x : List (ValidatorDelegationChange Pubkey) × DelegationChangeset Pubkey}
    (hvalid : isDelegationSchemeValid (args.validators.map (·.target)) = .ok ()) :
    args.changes lib sort fetched = .ok x ↔ args.staker = fetched.stakePool.staker ∧
      ∃ srcs, List.Forall₂ (fun d src => args.changeSrc lib fetched d = .ok src)
          (lamportsEntries args.validators ++ remainderEntries args.validators) srcs ∧
        ((args.syncDelegationConfig fetched).changeset srcs).collect lib = .ok x := by
  constructor
  · intro h
    rw [changes, scheme_eq sort args hvalid, ok_bind] at h
    obtain ⟨⟨⟩, hcheck, h⟩ := bind_eq_ok.mp h
    obtain ⟨srcs, hsrcs, h⟩ := bind_eq_ok.mp h
    refine ⟨?_, srcs, changeSrcs_eq_ok.mp hsrcs, h⟩
    by_contra hne
    rw [checkStaker, if_pos hne] at hcheck
    cases hcheck
  · rintro ⟨hstaker, srcs, hsrcs, h⟩
    rw [changes_eq sort hvalid hstaker hsrcs, h]

/-- The change of an entry is for the validator of the entry. -/
theorem vote_of_changeSrc {d : ValidatorDelegation Pubkey} {src : ValidatorChangeSrc Pubkey}
    (h : args.changeSrc lib fetched d = .ok src) : src.vsi.voteAccountAddress = d.vote := by
  have hfound := List.find?_some (expect_eq_ok.mp (changeSrc_eq_ok.mp h).1)
  exact of_decide_eq_true hfound

theorem votes_of_changeSrcs {ds : List (ValidatorDelegation Pubkey)}
    {srcs : List (ValidatorChangeSrc Pubkey)}
    (h : List.Forall₂ (fun d src => args.changeSrc lib fetched d = .ok src) ds srcs) :
    srcs.map (·.vsi.voteAccountAddress) = ds.map (·.vote) := by
  induction h with
  | nil => rfl
  | cons hsrc _ ih => rw [List.map_cons, List.map_cons, vote_of_changeSrc hsrc, ih]

end SyncDelegationArgs

end StakePoolCli
