import StakePoolCli.Removal.Resumption
import StakePoolCli.Withdraw.Stake

/-!
# The preferred validators are found

Withdrawals take stake from the validator that the pool prefers for them, and stop without a message
if its entry is not there; deposits of stake only go to the validator that it prefers for those.
Which validators are preferred and which are in the list is changed by `sync-validator-list`, with
separate instructions, and a run of it may be interrupted in between.

The program sets only an active validator (`ChecksPreferred`), and one that it removes is not
preferred any more, so that the preferred validators are active at any time (`PreferredActive`),
whatever the configs of the runs were. `preferred_validators_found` is what the users have of it.
-/

namespace StakePoolCli

open Checked Roster

variable {Pubkey : Type}

/-- The preferred validators are active. -/
def PoolState.PreferredActive (s : PoolState Pubkey) : Prop :=
  ∀ ty, ∀ v ∈ s.stakePool.preferred ty, s.IsActive v

theorem PoolState.PreferredActive.of_progress {s s' : PoolState Pubkey} (h : s.PreferredActive)
    (wanted : Set Pubkey) (hprogress : Progress wanted (roster s.entries) (roster s'.entries))
    (hpreferred : ∀ ty, ∀ v ∈ s'.stakePool.preferred ty,
      v ∈ s.stakePool.preferred ty ∧ v ∈ wanted) : s'.PreferredActive := by
  intro ty v hv
  obtain ⟨hv, hwanted⟩ := hpreferred ty v hv
  exact hprogress.live_of_wanted v hwanted (h ty v hv)

/-- An active validator has an entry, which is found. -/
theorem PoolState.IsActive.exists_isEntryOf [DecidableEq Pubkey] {s : PoolState Pubkey}
    {vote : Pubkey} (h : s.IsActive vote) : ∃ vsi, IsEntryOf s.entries vote vsi := by
  obtain ⟨vsi, hmem, hvote, -⟩ := h
  have hsome : (s.entries.find? (·.voteAccountAddress = vote)).isSome := by
    rw [List.find?_isSome]
    exact ⟨vsi, hmem, decide_eq_true hvote⟩
  obtain ⟨vsi', hfind⟩ := Option.isSome_iff_exists.mp hsome
  exact ⟨vsi', find?_eq_some_iff_isEntryOf.mp hfind⟩

/-! ## What happens to a pool -/

variable [DecidableEq Pubkey] (lib : StakePoolLib Pubkey) (programId pool : Pubkey)
  (exec : Instruction Pubkey → PoolState Pubkey → Option (PoolState Pubkey))

omit [DecidableEq Pubkey] in
/-- The program sets a preferred validator only if it is active. -/
def ChecksPreferred : Prop :=
  ∀ keys ty vote s s', exec (setPreferredValidatorIx programId keys ty vote) s = some s' →
    ∀ v ∈ vote, s.IsActive v

/-- A run of `sync-validator-list` is carried out or interrupted, whatever its config and whatever
it has fetched; or something happens that leaves the preferred and the active validators alone. -/
inductive PoolEvent (s s' : PoolState Pubkey) : Prop
  | interrupted {args : SyncValidatorListArgs Pubkey} {fetched : Fetched Pubkey}
      {run : SyncValidatorListRun Pubkey} {landed : List (Instruction Pubkey)}
      (hprogram : fetched.programId = programId) (hpool : args.pool = pool)
      (hrun : args.run lib fetched = .ok run) (hlanded : landed <+: run.ixs)
      (hexec : Reconcile.run exec landed s = some s')
  | updated (h : s.Updates s')

section

variable {lib programId pool exec} (heffects : StakerEffects lib programId pool exec)
  (hchecks : ChecksPreferred programId exec) (hvsa : lib.VsaInjective) {s s' : PoolState Pubkey}
include heffects hchecks hvsa

/-- An instruction of a run keeps the preferred validators active. -/
theorem preferredActive_of_mem_ixs {args : SyncValidatorListArgs Pubkey} {fetched : Fetched Pubkey}
    {run : SyncValidatorListRun Pubkey} (hprogram : fetched.programId = programId)
    (hpool : args.pool = pool) (hrun : args.run lib fetched = .ok run) {ix : Instruction Pubkey}
    (hix : ix ∈ run.ixs) (hexec : exec ix s = some s') (hs : s.PreferredActive) :
    s'.PreferredActive := by
  subst hprogram hpool
  rcases SyncValidatorListArgs.mem_ixs hrun hix with ⟨keys, seed, rfl, -⟩ | ⟨keys, dargs, rfl⟩ |
    ⟨keys, vote, seed, rfl, hkeys, -⟩ | ⟨keys, ty, rfl⟩
  · have hpool := (heffects.addValidatorToPool _ _ _ _ hexec).2.1
    apply hs.of_progress Set.univ (.of_does (heffects.does_add hexec) (Set.mem_univ _))
    intro ty v hv
    rw [hpool] at hv
    exact ⟨hv, Set.mem_univ v⟩
  · obtain ⟨hpool, hstays⟩ := heffects.decreaseAdditionalValidatorStake _ _ _ _ hexec
    intro ty v hv
    rw [hpool] at hv
    rw [PoolState.IsActive, roster_eq_of_forall₂_stays hstays]
    exact hs ty v hv
  · -- the validator that is removed is not preferred any more
    obtain ⟨hpool, hdoes⟩ := heffects.removed hvsa hkeys hexec
    apply hs.of_progress {v | v ≠ vote} (.of_does hdoes fun h => h rfl)
    intro ty v hv
    rw [hpool, StakePool.preferred_clearPreferred] at hv
    obtain ⟨hv, hne⟩ := Option.mem_filter_iff.mp hv
    exact ⟨hv, of_decide_eq_true hne⟩
  · have hactive := hchecks _ _ _ _ _ hexec
    obtain ⟨hpool, hentries⟩ := heffects.setPreferredValidator _ _ _ _ _ hexec
    intro ty' v hv
    rw [PoolState.IsActive, hentries]
    rw [hpool, StakePool.preferred_setPreferred] at hv
    split_ifs at hv with hty
    · exact hactive v hv
    · exact hs ty' v hv

theorem PoolEvent.preferredActive (h : PoolEvent lib programId pool exec s s')
    (hs : s.PreferredActive) : s'.PreferredActive := by
  cases h with
  | interrupted hprogram hpool hrun hlanded hexec =>
    refine Reconcile.rel_of_run (R := fun s s' => s.PreferredActive → s'.PreferredActive)
      (fun _ h => h) (fun _ _ _ h h' hs => h' (h hs)) ?_ hexec hs
    intro ix hix s s' hexec
    exact preferredActive_of_mem_ixs heffects hchecks hvsa hprogram hpool hrun
      (hlanded.subset hix) hexec
  | updated h =>
    intro ty v hv
    rw [h.preferred] at hv
    rw [PoolState.IsActive, h.roster.live_eq]
    exact hs ty v hv

/-- **The preferred validators are found** after any number of runs of `sync-validator-list`, for
whatever configs and interrupted wherever: they are active, a withdrawal takes stake from the one
for withdrawals unless it asks for another one, and the stake accounts that may be deposited, those
delegated to the one for deposits, are delegated to a validator of the list. -/
theorem preferred_validators_found (hs : s.PreferredActive)
    (h : Relation.ReflTransGen (PoolEvent lib programId pool exec) s s') :
    s'.PreferredActive ∧
    (∀ vote, s'.stakePool.preferredWithdrawValidatorVoteAddress = some vote →
      ∀ validator : Option Pubkey, (∀ v ∈ validator, v = vote) →
        ∃ vsi, IsEntryOf s'.entries vote vsi ∧
          WithdrawStakeArgs.vsi lib s'.stakePool s'.entries validator = .ok vsi) ∧
    ∀ stakeState voter, DepositStakeArgs.checkVoter lib s'.stakePool stakeState = .ok voter →
      s'.stakePool.preferredDepositValidatorVoteAddress ≠ none →
        ∃ vsi, IsEntryOf s'.entries voter vsi ∧
          s'.entries.find? (·.voteAccountAddress = voter) = some vsi := by
  have hs' : s'.PreferredActive := by
    induction h with
    | refl => exact hs
    | tail _ hevent ih => exact hevent.preferredActive heffects hchecks hvsa ih
  refine ⟨hs', fun vote hvote validator hvalidator => ?_, fun stakeState voter hcheck hne => ?_⟩
  · obtain ⟨vsi, hentry⟩ := (hs' .withdraw vote hvote).exists_isEntryOf
    refine ⟨vsi, hentry, ?_⟩
    unfold WithdrawStakeArgs.vsi
    rw [hvote]
    cases validator with
    | none => exact unwrap_eq_ok.mpr (find?_eq_some_iff_isEntryOf.mpr hentry)
    | some v =>
      obtain rfl := hvalidator v rfl
      dsimp only
      rw [if_neg (not_not.mpr rfl)]
      exact unwrap_eq_ok.mpr (find?_eq_some_iff_isEntryOf.mpr hentry)
  · obtain ⟨preferred, hpreferred⟩ := Option.ne_none_iff_exists'.mp hne
    obtain ⟨voter', -, hcheck⟩ := bind_eq_ok.mp hcheck
    rw [hpreferred] at hcheck
    dsimp only at hcheck
    split_ifs at hcheck with heq
    obtain rfl := Except.ok.inj hcheck
    obtain rfl := not_not.mp heq
    obtain ⟨vsi, hentry⟩ := (hs' .deposit preferred hpreferred).exists_isEntryOf
    exact ⟨vsi, hentry, find?_eq_some_iff_isEntryOf.mpr hentry⟩

end

/-! ## A validator that is added and preferred -/

theorem PoolState.checksPreferred_reference (rent : Rent) (minReserveLamports epoch : UInt64)
    (canHost : Pubkey → Bool) : ChecksPreferred programId
      (reference lib programId pool rent minReserveLamports epoch canHost) := by
  intro keys ty vote s s' h
  simp only [reference, setPreferredValidatorIx, Option.ite_none_right_eq_some,
    Option.some.injEq] at h
  exact h.1.2

theorem preferred_validators_found_thirteen : ∃ run s',
    SyncValidatorListArgs.preferringThirteen.run StakePoolLib.symbolic
      (PoolState.listed 1002282880 0).fetched = .ok run ∧
    Reconcile.run PoolState.hosting run.ixs (.listed 1002282880 0) = some s' ∧
    ∃ vsi, IsEntryOf s'.entries (.key 13) vsi := by
  obtain ⟨run, s', hrun, hexec, hpreferred⟩ : ∃ run s',
      SyncValidatorListArgs.preferringThirteen.run StakePoolLib.symbolic
        (PoolState.listed 1002282880 0).fetched = .ok run ∧
      Reconcile.run PoolState.hosting run.ixs (.listed 1002282880 0) = some s' ∧
      s'.stakePool.preferredDepositValidatorVoteAddress = some (.key 13) :=
    ⟨_, _, rfl, rfl, rfl⟩
  obtain ⟨-, -, hdeposit⟩ := preferred_validators_found
    (PoolState.effects_reference StakePoolLib.symbolic (.key 0) (.key 1) .default 0 6 fun _ => true)
    (PoolState.checksPreferred_reference _ _ _ _ _ _ _) StakePoolLib.vsaInjective_symbolic
    (s := .listed 1002282880 0) (by rintro (_ | _) v hv <;> cases hv)
    (.single (.interrupted rfl rfl hrun List.prefix_rfl hexec))
  have hcheck : DepositStakeArgs.checkVoter StakePoolLib.symbolic s'.stakePool
      (.stake ⟨.key 2, .key 2⟩ (.key 13)) = .ok (.key 13) := by
    simp [DepositStakeArgs.checkVoter, DepositedStakeState.voterPubkey, hpreferred]
  obtain ⟨vsi, hentry, -⟩ := hdeposit _ _ hcheck (by simp [hpreferred])
  exact ⟨run, s', hrun, hexec, vsi, hentry⟩

end StakePoolCli
