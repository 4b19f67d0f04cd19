import StakePoolCli.Foundations.Roster
import StakePoolCli.Interface.Symbolic
import StakePoolCli.Pool.Program
import StakePoolCli.PoolConfig.Utils
import StakePoolCli.Update

/-!
# The staker's instructions, as the program executes them

What is assumed of the stake pool program where the staker changes the validator list. The program
is a parameter `exec`, a partial function on what it keeps of a pool (`PoolState`).

* `StakerEffects`: what an instruction has done when it has been executed. A validator that is added
  is new, one that is removed was active, and it is not preferred any more.
* `StakerAccepts`: when an instruction is executed. An added validator is paid for by the reserve.
* `UpdateEffects`: what the instructions of an update have done. Entries that have wound down may be
  dropped. That the program itself deactivates a validator, whose stake was withdrawn by force, is
  not considered.

Nothing is assumed of when a removal or a decrease is executed: that depends on stake accounts.

`PoolState.reference` and `PoolState.referenceUpdate` are a program that meets all of them
(`effects_reference`, `accepts_reference`, `effects_referenceUpdate`).
The votes of a validator list are a roster (`Foundations/Roster.lean`), of which the active ones are
live; `StakerEffects.does_add` and `StakerEffects.does_remove` say that the program acts on it.
-/

namespace StakePoolCli

variable {Pubkey : Type}

/-! ## The state of a pool -/

/-- The accounts of a pool that the program changes. -/
structure PoolState (Pubkey : Type) where
  stakePool : StakePool Pubkey
  validatorList : ValidatorList Pubkey
  reserveLamports : UInt64

/-- The votes of a validator list, the active ones live. -/
def roster (entries : List (ValidatorStakeInfo Pubkey)) : Roster Pubkey where
  known := {vote | ∃ vsi ∈ entries, vsi.voteAccountAddress = vote}
  live := {vote | ∃ vsi ∈ entries, vsi.voteAccountAddress = vote ∧ vsi.status = .active}
  live_subset := by
    rintro _ ⟨vsi, hmem, rfl, -⟩
    exact ⟨vsi, hmem, rfl⟩

@[simp] theorem mem_known_roster {entries : List (ValidatorStakeInfo Pubkey)} {vote : Pubkey} :
    vote ∈ (roster entries).known ↔ ∃ vsi ∈ entries, vsi.voteAccountAddress = vote := Iff.rfl

@[simp] theorem mem_live_roster {entries : List (ValidatorStakeInfo Pubkey)} {vote : Pubkey} :
    vote ∈ (roster entries).live ↔
      ∃ vsi ∈ entries, vsi.voteAccountAddress = vote ∧ vsi.status = .active := Iff.rfl

namespace PoolState

variable (s : PoolState Pubkey)

abbrev entries : List (ValidatorStakeInfo Pubkey) := s.validatorList.validators

/-- A validator that stake can be delegated to. -/
def IsActive (vote : Pubkey) : Prop := vote ∈ (roster s.entries).live

/-- A validator that has been removed, and whose entry is still there. -/
def IsWindingDown (vote : Pubkey) : Prop := vote ∈ (roster s.entries).dead

end PoolState

namespace StakePool

def preferred (sp : StakePool Pubkey) : PreferredValidatorType → Option Pubkey
  | .deposit => sp.preferredDepositValidatorVoteAddress
  | .withdraw => sp.preferredWithdrawValidatorVoteAddress

/-- `SetPreferredValidator` -/
def setPreferred (ty : PreferredValidatorType) (vote : Option Pubkey) (sp : StakePool Pubkey) :
    StakePool Pubkey :=
  match ty with
  | .deposit => { sp with preferredDepositValidatorVoteAddress := vote }
  | .withdraw => { sp with preferredWithdrawValidatorVoteAddress := vote }

/-- The pool without a validator being preferred. -/
def clearPreferred [DecidableEq Pubkey] (vote : Pubkey) (sp : StakePool Pubkey) :
    StakePool Pubkey :=
  { sp with
    preferredDepositValidatorVoteAddress :=
      sp.preferredDepositValidatorVoteAddress.filter (· ≠ vote)
    preferredWithdrawValidatorVoteAddress :=
      sp.preferredWithdrawValidatorVoteAddress.filter (· ≠ vote) }

theorem preferred_setPreferred (ty ty' : PreferredValidatorType) (vote : Option Pubkey)
    (sp : StakePool Pubkey) :
    (sp.setPreferred ty vote).preferred ty' = if ty' = ty then vote else sp.preferred ty' := by
  cases ty <;> cases ty' <;> rfl

@[simp] theorem preferred_clearPreferred [DecidableEq Pubkey] (vote : Pubkey)
    (ty : PreferredValidatorType) (sp : StakePool Pubkey) :
    (sp.clearPreferred vote).preferred ty = (sp.preferred ty).filter (· ≠ vote) := by
  cases ty <;> rfl

theorem preferred_clearPreferred_of_ne [DecidableEq Pubkey] {vote : Pubkey}
    {ty : PreferredValidatorType} {sp : StakePool Pubkey} (h : ∀ v ∈ sp.preferred ty, v ≠ vote) :
    (sp.clearPreferred vote).preferred ty = sp.preferred ty := by
  rw [preferred_clearPreferred]
  cases hv : sp.preferred ty with
  | none => rfl
  | some v => exact Option.filter_some_pos (decide_eq_true (h v hv))

end StakePool

/-- An entry before and after something that neither adds nor removes its validator. -/
structure Stays (vsi vsi' : ValidatorStakeInfo Pubkey) : Prop where
  vote : vsi'.voteAccountAddress = vsi.voteAccountAddress
  active : vsi'.status = .active ↔ vsi.status = .active

theorem roster_eq_of_forall₂_stays {entries entries' : List (ValidatorStakeInfo Pubkey)}
    (h : List.Forall₂ Stays entries entries') : roster entries' = roster entries := by
  apply Roster.ext
  · ext vote
    induction h with
    | nil => rfl
    | cons h _ ih => simpa [h.vote] using or_congr_right ih
  · ext vote
    induction h with
    | nil => rfl
    | cons h _ ih => simpa [h.vote, h.active] using or_congr_right ih

/-- What an update may change: entries that are winding down are dropped, and amounts and epochs are
others. -/
structure PoolState.Updates (s s' : PoolState Pubkey) : Prop where
  roster : (roster s.entries).Forgets (roster s'.entries)
  preferred : ∀ ty, s'.stakePool.preferred ty = s.stakePool.preferred ty

theorem PoolState.Updates.refl (s : PoolState Pubkey) : s.Updates s := ⟨.refl _, fun _ => rfl⟩

theorem PoolState.Updates.trans {s₁ s₂ s₃ : PoolState Pubkey} (h : s₁.Updates s₂)
    (h' : s₂.Updates s₃) : s₁.Updates s₃ where
  roster := h.roster.trans h'.roster
  preferred ty := (h'.preferred ty).trans (h.preferred ty)

/-- Dropping entries that are not active forgets their validators. -/
theorem forgets_roster_filter {entries : List (ValidatorStakeInfo Pubkey)}
    {p : ValidatorStakeInfo Pubkey → Bool}
    (h : ∀ vsi ∈ entries, vsi.status = .active → p vsi = true) :
    (roster entries).Forgets (roster (entries.filter p)) where
  live_eq := by
    ext vote
    simp only [mem_live_roster, List.mem_filter]
    constructor
    · rintro ⟨vsi, ⟨hmem, -⟩, hvote, hactive⟩
      exact ⟨vsi, hmem, hvote, hactive⟩
    · rintro ⟨vsi, hmem, hvote, hactive⟩
      exact ⟨vsi, ⟨hmem, h vsi hmem hactive⟩, hvote, hactive⟩
  known_subset := by
    rintro vote ⟨vsi, hmem, hvote⟩
    exact ⟨vsi, (List.mem_filter.mp hmem).1, hvote⟩

/-! ## The program -/

/-- The accounts that the program asks for when a validator is added. -/
def AddValidatorToPoolKeys.expected (lib : StakePoolLib Pubkey) (programId pool : Pubkey)
    (sp : StakePool Pubkey) (vote : Pubkey) (seed : UInt32) : AddValidatorToPoolKeys Pubkey where
  stakePool := pool
  staker := sp.staker
  reserveStake := sp.reserveStake
  withdrawAuthority := lib.findWithdrawAuthority programId pool
  validatorList := sp.validatorList
  validatorStakeAccount :=
    lib.findValidatorStakeAccount programId pool vote (NonZeroU32.new seed)
  voteAccount := vote
  rent := lib.rent
  clock := lib.clock
  stakeHistory := lib.stakeHistory
  stakeConfig := lib.stakeConfig
  systemProgram := lib.systemProgram
  stakeProgram := lib.stakeProgram

variable [DecidableEq Pubkey] (lib : StakePoolLib Pubkey) (programId pool : Pubkey)
  (exec : Instruction Pubkey → PoolState Pubkey → Option (PoolState Pubkey))

/-- What the instructions of the staker have done when they have been executed. -/
structure StakerEffects : Prop where
  addValidatorToPool : ∀ keys seed s s',
    exec (addValidatorToPoolIx programId keys seed) s = some s' →
      keys.voteAccount ∉ (roster s.entries).known ∧ s'.stakePool = s.stakePool ∧
        ∃ vsi, vsi.voteAccountAddress = keys.voteAccount ∧ vsi.status = .active ∧
          s'.entries = s.entries ++ [vsi]
  removeValidatorFromPool : ∀ keys s s',
    exec (removeValidatorFromPoolIx programId keys) s = some s' →
      ∃ vsi ∈ s.entries, ∃ status, vsi.status = .active ∧ status ≠ .active ∧
        keys.validatorStakeAccount = lib.findValidatorStakeAccount programId pool
          vsi.voteAccountAddress (NonZeroU32.new vsi.validatorSeedSuffix) ∧
        s'.stakePool = s.stakePool.clearPreferred vsi.voteAccountAddress ∧
        s'.entries = s.entries.map fun vsi' =>
          if vsi'.voteAccountAddress = vsi.voteAccountAddress then { vsi' with status } else vsi'
  decreaseAdditionalValidatorStake : ∀ keys args s s',
    exec (decreaseAdditionalValidatorStakeIx programId keys args) s = some s' →
      s'.stakePool = s.stakePool ∧ List.Forall₂ Stays s.entries s'.entries
  setPreferredValidator : ∀ keys ty vote s s',
    exec (setPreferredValidatorIx programId keys ty vote) s = some s' →
      s'.stakePool = s.stakePool.setPreferred ty vote ∧ s'.entries = s.entries

/-- When instructions are executed, in an epoch that the pool has been updated for. A vote account
can be hosted if it is one and the address of its stake account is free. -/
structure StakerAccepts (rent : Rent) (minReserveLamports epoch : UInt64)
    (canHost : Pubkey → Prop) : Prop where
  addValidatorToPool : ∀ (s : PoolState Pubkey) vote seed, canHost vote →
    vote ∉ (roster s.entries).known →
    s.entries.length < s.validatorList.maxValidators.toNat → epoch ≤ s.stakePool.lastUpdateEpoch →
    minReserveLamports.toNat + (lib.lamportsForNewVsa rent).toNat ≤ s.reserveLamports.toNat →
    ∃ s', exec (addValidatorToPoolIx programId
        (.expected lib programId pool s.stakePool vote seed) seed) s = some s' ∧
      s'.validatorList.maxValidators = s.validatorList.maxValidators ∧
      s'.reserveLamports.toNat + (lib.lamportsForNewVsa rent).toNat = s.reserveLamports.toNat
  setPreferredValidator : ∀ (s : PoolState Pubkey) ty vote, (∀ v ∈ vote, s.IsActive v) →
    ∃ s', exec (setPreferredValidatorIx programId
      { stakePool := pool
        staker := s.stakePool.staker
        validatorList := s.stakePool.validatorList } ty vote) s = some s'
  manager : ∀ ix (s : PoolState Pubkey) sp',
    StakePoolCli.exec lib programId pool ix s.stakePool = some sp' →
      exec ix s = some { s with stakePool := sp' }

omit [DecidableEq Pubkey] in
/-- What the instructions of an update have done when they have been executed. -/
def UpdateEffects (execUpdate : UpdateIx Pubkey → PoolState Pubkey → Option (PoolState Pubkey)) :
    Prop :=
  ∀ ix s s', execUpdate ix s = some s' → s.Updates s'

omit [DecidableEq Pubkey] in
theorem UpdateEffects.updates_of_run
    {execUpdate : UpdateIx Pubkey → PoolState Pubkey → Option (PoolState Pubkey)}
    (hupdates : UpdateEffects execUpdate) {ixs : List (UpdateIx Pubkey)} {s s' : PoolState Pubkey}
    (h : Reconcile.run execUpdate ixs s = some s') : s.Updates s' :=
  Reconcile.rel_of_run (R := PoolState.Updates) .refl (fun _ _ _ h h' => h.trans h')
    (fun ix _ => hupdates ix) h

/-! ## What it does to the roster -/

namespace StakerEffects

variable {lib programId pool exec} (heffects : StakerEffects lib programId pool exec)
  {s s' : PoolState Pubkey}
include heffects

theorem does_add {keys : AddValidatorToPoolKeys Pubkey} {seed : UInt32}
    (h : exec (addValidatorToPoolIx programId keys seed) s = some s') :
    Roster.Does (.add keys.voteAccount) (roster s.entries) (roster s'.entries) := by
  obtain ⟨hnew, -, vsi, hvote, hactive, hentries⟩ := heffects.addValidatorToPool _ _ _ _ h
  have hroster : roster s'.entries = (roster s.entries).add keys.voteAccount := by
    rw [hentries]
    apply Roster.ext
    · ext vote
      simp [hvote, eq_comm, or_comm]
    · ext vote
      simp [hvote, hactive, eq_comm, or_comm, or_and_right, exists_or]
  rw [hroster]
  exact .add hnew

/-- The validator that is removed is the one whose stake account is named. -/
theorem removed (hvsa : lib.VsaInjective) {keys : RemoveValidatorFromPoolKeys Pubkey}
    {vote : Pubkey} {seed : Option NonZeroU32}
    (hkeys : keys.validatorStakeAccount = lib.findValidatorStakeAccount programId pool vote seed)
    (h : exec (removeValidatorFromPoolIx programId keys) s = some s') :
    s'.stakePool = s.stakePool.clearPreferred vote ∧
      Roster.Does (.remove vote) (roster s.entries) (roster s'.entries) := by
  obtain ⟨vsi, hmem, status, hactive, hstatus, hvsi, hpool, hentries⟩ :=
    heffects.removeValidatorFromPool _ _ _ h
  obtain ⟨-, rfl, -⟩ := hvsa _ _ _ _ _ _ _ (hkeys.symm.trans hvsi)
  refine ⟨hpool, ?_⟩
  have hroster : roster s'.entries = (roster s.entries).remove vsi.voteAccountAddress := by
    rw [hentries]
    apply Roster.ext
    · ext vote
      simp only [mem_known_roster, List.mem_map, Roster.known_remove]
      constructor
      · rintro ⟨_, ⟨vsi', hmem', rfl⟩, rfl⟩
        refine ⟨vsi', hmem', ?_⟩
        split_ifs <;> rfl
      · rintro ⟨vsi', hmem', rfl⟩
        refine ⟨_, ⟨vsi', hmem', rfl⟩, ?_⟩
        split_ifs <;> rfl
    · ext vote
      simp only [mem_live_roster, List.mem_map, Roster.mem_live_remove]
      constructor
      · rintro ⟨_, ⟨vsi', hmem', rfl⟩, hvote, hlive⟩
        split_ifs at hvote hlive with heq
        · exact absurd hlive hstatus
        · exact ⟨⟨vsi', hmem', hvote, hlive⟩, hvote ▸ heq⟩
      · rintro ⟨⟨vsi', hmem', rfl, hlive⟩, hne⟩
        exact ⟨_, ⟨vsi', hmem', rfl⟩, by simp [hne], by simp [hne, hlive]⟩
  rw [hroster]
  exact .remove ⟨vsi, hmem, rfl, hactive⟩

end StakerEffects

/-! ## A program -/

namespace PoolState

/-- The entry's validator is removed: it waits for its transient stake too, if there is any. -/
def removedEntry (vsi : ValidatorStakeInfo Pubkey) : StakeStatus :=
  if vsi.transientStakeLamports = 0 then .deactivatingValidator else .deactivatingAll

omit [DecidableEq Pubkey] in
theorem removedEntry_ne_active (vsi : ValidatorStakeInfo Pubkey) : removedEntry vsi ≠ .active := by
  unfold removedEntry
  split_ifs <;> simp

/-- An entry after stake has been taken out of its account. -/
def decreasedEntry (vsa : Pubkey) (args : AdditionalValidatorStakeArgs)
    (vsi : ValidatorStakeInfo Pubkey) : ValidatorStakeInfo Pubkey :=
  if vsa = lib.findValidatorStakeAccount programId pool vsi.voteAccountAddress
      (NonZeroU32.new vsi.validatorSeedSuffix) then
    { vsi with
      activeStakeLamports := vsi.activeStakeLamports - args.lamports
      transientStakeLamports := vsi.transientStakeLamports + args.lamports
      transientSeedSuffix := args.transientStakeSeed }
  else vsi

theorem stays_decreasedEntry (vsa : Pubkey) (args : AdditionalValidatorStakeArgs)
    (vsi : ValidatorStakeInfo Pubkey) :
    Stays vsi (decreasedEntry lib programId pool vsa args vsi) := by
  unfold decreasedEntry
  split_ifs <;> exact ⟨rfl, Iff.rfl⟩

/-- A program for one pool. -/
def reference (rent : Rent) (minReserveLamports epoch : UInt64) (canHost : Pubkey → Bool)
    (ix : Instruction Pubkey) (s : PoolState Pubkey) : Option (PoolState Pubkey) :=
  match ix.data, ix.accounts with
  | .addValidatorToPool seed,
      stakePool :: staker :: reserve :: _ :: validatorList :: vsa :: vote :: _ =>
    if (ix.programId = programId ∧ stakePool = pool ∧ staker = s.stakePool.staker ∧
        reserve = s.stakePool.reserveStake ∧ validatorList = s.stakePool.validatorList ∧
        vsa = lib.findValidatorStakeAccount programId pool vote (NonZeroU32.new seed)) ∧
        canHost vote = true ∧ vote ∉ s.entries.map (·.voteAccountAddress) ∧
        s.entries.length < s.validatorList.maxValidators.toNat ∧
        epoch ≤ s.stakePool.lastUpdateEpoch ∧
        minReserveLamports.toNat + (lib.lamportsForNewVsa rent).toNat ≤ s.reserveLamports.toNat then
      let vsi : ValidatorStakeInfo Pubkey :=
        { activeStakeLamports := lib.lamportsForNewVsa rent
          transientStakeLamports := 0
          lastUpdateEpoch := epoch
          transientSeedSuffix := 0
          validatorSeedSuffix := seed
          status := .active
          voteAccountAddress := vote }
      some { s with
        validatorList := { s.validatorList with validators := s.entries ++ [vsi] }
        reserveLamports := s.reserveLamports - lib.lamportsForNewVsa rent }
    else none
  | .removeValidatorFromPool, stakePool :: staker :: _ :: validatorList :: vsa :: _ =>
    if ix.programId = programId ∧ stakePool = pool ∧ staker = s.stakePool.staker ∧
        validatorList = s.stakePool.validatorList then
      (s.entries.find? fun vsi => vsi.status = .active ∧
        vsa = lib.findValidatorStakeAccount programId pool vsi.voteAccountAddress
          (NonZeroU32.new vsi.validatorSeedSuffix) ∧
        vsi.activeStakeLamports ≤ lamportsForNewVsa rent).map fun vsi =>
          { s with
            stakePool := s.stakePool.clearPreferred vsi.voteAccountAddress
            validatorList := { s.validatorList with
              validators := s.entries.map fun vsi' =>
                if vsi'.voteAccountAddress = vsi.voteAccountAddress then
                  { vsi' with status := removedEntry vsi }
                else vsi' } }
    else none
  | .decreaseAdditionalValidatorStake args,
      stakePool :: staker :: _ :: validatorList :: _ :: vsa :: _ =>
    if ix.programId = programId ∧ stakePool = pool ∧ staker = s.stakePool.staker ∧
        validatorList = s.stakePool.validatorList then
      some { s with
        validatorList := { s.validatorList with
          validators := s.entries.map (decreasedEntry lib programId pool vsa args) } }
    else none
  | .setPreferredValidator ty vote, [stakePool, staker, validatorList] =>
    if (ix.programId = programId ∧ stakePool = pool ∧ staker = s.stakePool.staker ∧
        validatorList = s.stakePool.validatorList) ∧
        ∀ v ∈ vote, ∃ vsi ∈ s.entries, vsi.voteAccountAddress = v ∧ vsi.status = .active then
      some { s with stakePool := s.stakePool.setPreferred ty vote }
    else none
  | .setPreferredValidator _ _, _ | .addValidatorToPool _, _ | .removeValidatorFromPool, _
  | .decreaseAdditionalValidatorStake _, _ | .increaseAdditionalValidatorStake _, _ => none
  | _, _ =>
    (StakePoolCli.exec lib programId pool ix s.stakePool).map fun sp => { s with stakePool := sp }

theorem effects_reference (rent : Rent) (minReserveLamports epoch : UInt64)
    (canHost : Pubkey → Bool) :
    StakerEffects lib programId pool
      (reference lib programId pool rent minReserveLamports epoch canHost) where
  addValidatorToPool keys seed s s' h := by
    simp only [reference, addValidatorToPoolIx, Option.ite_none_right_eq_some,
      Option.some.injEq] at h
    obtain ⟨⟨-, -, hnew, -⟩, rfl⟩ := h
    refine ⟨?_, rfl, _, rfl, rfl, rfl⟩
    rintro ⟨vsi, hmem, hvote⟩
    exact hnew (hvote ▸ List.mem_map_of_mem hmem)
  removeValidatorFromPool keys s s' h := by
    simp only [reference, removeValidatorFromPoolIx, Option.ite_none_right_eq_some,
      Option.map_eq_some_iff] at h
    obtain ⟨-, vsi, hfind, rfl⟩ := h
    have hvsi := List.find?_some hfind
    rw [decide_eq_true_eq] at hvsi
    exact ⟨vsi, List.mem_of_find?_eq_some hfind, removedEntry vsi, hvsi.1,
      removedEntry_ne_active vsi, hvsi.2.1, rfl, rfl⟩
  decreaseAdditionalValidatorStake keys args s s' h := by
    simp only [reference, decreaseAdditionalValidatorStakeIx, Option.ite_none_right_eq_some,
      Option.some.injEq] at h
    obtain ⟨-, rfl⟩ := h
    refine ⟨rfl, ?_⟩
    rw [List.forall₂_map_right_iff, List.forall₂_same]
    exact fun vsi _ => stays_decreasedEntry lib programId pool _ _ vsi
  setPreferredValidator keys ty vote s s' h := by
    simp only [reference, setPreferredValidatorIx, Option.ite_none_right_eq_some,
      Option.some.injEq] at h
    obtain ⟨-, rfl⟩ := h
    exact ⟨rfl, rfl⟩

/-- An instruction of the manager is executed as in `exec`. -/
theorem reference_of_exec {rent : Rent} {minReserveLamports epoch : UInt64}
    {canHost : Pubkey → Bool} {ix : Instruction Pubkey} {s : PoolState Pubkey}
    {sp' : StakePool Pubkey}
    (h : StakePoolCli.exec lib programId pool ix s.stakePool = some sp') :
    reference lib programId pool rent minReserveLamports epoch canHost ix s =
      some { s with stakePool := sp' } := by
  obtain ⟨ixProgramId, accounts, data⟩ := ix
  have hmanager : ∃ rest signer stakePool, accounts = stakePool :: signer :: rest ∧
      s.stakePool.execData (lib.findDepositAuthority programId pool) data rest = some sp' := by
    simp only [StakePoolCli.exec] at h
    split at h
    · rw [Option.ite_none_right_eq_some] at h
      exact ⟨_, _, _, rfl, h.2⟩
    · cases h
  obtain ⟨rest, signer, stakePool, rfl, hdata⟩ := hmanager
  cases data <;> first | cases hdata | simp [reference, h]

theorem accepts_reference (rent : Rent) (minReserveLamports epoch : UInt64)
    (canHost : Pubkey → Bool) :
    StakerAccepts lib programId pool
      (reference lib programId pool rent minReserveLamports epoch canHost) rent minReserveLamports
      epoch (canHost · = true) where
  addValidatorToPool s vote seed hhost hnew hlength hepoch hreserve := by
    have hnew' : vote ∉ s.entries.map (·.voteAccountAddress) := by
      rw [List.mem_map]
      exact hnew
    refine ⟨_, if_pos ⟨⟨rfl, rfl, rfl, rfl, rfl, rfl⟩, hhost, hnew', hlength, hepoch, hreserve⟩,
      rfl, ?_⟩
    have hle : (lib.lamportsForNewVsa rent).toNat ≤ s.reserveLamports.toNat := by omega
    show (s.reserveLamports - lib.lamportsForNewVsa rent).toNat + _ = _
    rw [UInt64.toNat_sub_of_le _ _ (UInt64.le_iff_toNat_le.mpr hle)]
    omega
  setPreferredValidator s ty vote hactive :=
    ⟨_, if_pos ⟨⟨rfl, rfl, rfl, rfl⟩, hactive⟩⟩
  manager _ _ _ h := reference_of_exec lib programId pool h

/-- An entry after an update of the list: its validator is gone, or stays as it is. -/
def updatedEntry (epoch : UInt64) (vsi : ValidatorStakeInfo Pubkey) : ValidatorStakeInfo Pubkey :=
  { vsi with
    lastUpdateEpoch := epoch
    status := if vsi.status = .active then .active else .readyForRemoval }

/-- The update of a pool. -/
def referenceUpdate (epoch : UInt64) (ix : UpdateIx Pubkey) (s : PoolState Pubkey) :
    Option (PoolState Pubkey) :=
  match ix with
  | .updateValidatorListBalance _ _ slice _ =>
    some { s with
      validatorList := { s.validatorList with
        validators := s.entries.map fun vsi =>
          if vsi.voteAccountAddress ∈ slice.map (·.voteAccountAddress) then updatedEntry epoch vsi
          else vsi } }
  | .updateStakePoolBalance _ _ =>
    some { s with stakePool := { s.stakePool with lastUpdateEpoch := epoch } }
  | .cleanupRemovedValidatorEntries _ _ =>
    some { s with
      validatorList := { s.validatorList with
        validators := s.entries.filter (·.status ≠ .readyForRemoval) } }

theorem effects_referenceUpdate (epoch : UInt64) :
    @UpdateEffects Pubkey (referenceUpdate epoch) := by
  intro ix s s' h
  cases ix with
  | updateValidatorListBalance programId pool slice args =>
    obtain rfl := Option.some.inj h
    refine ⟨?_, fun ty => rfl⟩
    have hstays : List.Forall₂ Stays s.entries (s.entries.map fun vsi =>
        if vsi.voteAccountAddress ∈ slice.map (·.voteAccountAddress) then updatedEntry epoch vsi
        else vsi) := by
      rw [List.forall₂_map_right_iff, List.forall₂_same]
      intro vsi _
      split_ifs
      · exact ⟨rfl, by simp [updatedEntry]⟩
      · exact ⟨rfl, Iff.rfl⟩
    rw [← roster_eq_of_forall₂_stays hstays]
    exact .refl _
  | updateStakePoolBalance =>
    obtain rfl := Option.some.inj h
    exact ⟨.refl _, fun ty => by cases ty <;> rfl⟩
  | cleanupRemovedValidatorEntries =>
    obtain rfl := Option.some.inj h
    refine ⟨forgets_roster_filter fun vsi _ hactive => ?_, fun ty => rfl⟩
    simp [hactive]

end PoolState

end StakePoolCli
