import StakePoolCli.Interface.Symbolic
import StakePoolCli.Subcmd.SyncValidatorList

/-!
# The transactions that remove validators

A validator whose stake is decreased first is removed by two instructions, any other one by one.
The instructions are laid end to end and cut every `maxRemoveValidatorIxsEnumPerTx`, so which
transaction a validator falls into depends on all validators before it (`offset`).

* `distinct_ephemeral_accounts_iff`: no two decreases of one transaction share an ephemeral stake
  account exactly when no two decreases fall into one transaction, since all of them use seed 0.
* `removal_atomic_iff`: the two instructions of every validator fall into one transaction exactly
  when no decrease is the last instruction of a full one.
-/

namespace StakePoolCli

open Checked Chunks

variable {Pubkey : Type} {lib : StakePoolLib Pubkey} {svlc : SyncValidatorListConfig Pubkey}

namespace SyncValidatorListConfig

/-- The validators whose stake is decreased before they are removed. -/
def decreases (svlc : SyncValidatorListConfig Pubkey)
    (r : ValidatorStakeInfo Pubkey × StakeStateV2) : Bool :=
  0 < svlc.lamportsToDecrease r.1 ∧ r.2.isVsaActive

theorem decreases_iff {r : ValidatorStakeInfo Pubkey × StakeStateV2} :
    svlc.decreases r = true ↔ 0 < svlc.lamportsToDecrease r.1 ∧ r.2.isVsaActive = true :=
  decide_eq_true_iff

/-- The position of the first instruction of the `i`-th validator: one instruction for each
validator before it, and one more for each decrease among them. -/
def offset (svlc : SyncValidatorListConfig Pubkey)
    (remove : List (ValidatorStakeInfo Pubkey × StakeStateV2)) (i : ℕ) : ℕ :=
  i + (remove.take i).countP svlc.decreases

/-! ## The instructions of one validator -/

theorem removeValidatorIxs_of_decreases {vsi : ValidatorStakeInfo Pubkey} {vsa : StakeStateV2}
    (h : svlc.decreases (vsi, vsa) = true) :
    ∃ dec rem, svlc.removeValidatorIxs lib vsi vsa = .withDecreaseStake dec rem := by
  rcases svlc.removeValidatorIxs_cases lib vsi vsa with ⟨-, dec, rem, hixs, -⟩ | ⟨hnot, -⟩
  · exact ⟨dec, rem, hixs⟩
  · exact absurd (decreases_iff.mp h) hnot

theorem decreases_of_removeValidatorIxs {vsi : ValidatorStakeInfo Pubkey} {vsa : StakeStateV2}
    {dec rem : Instruction Pubkey}
    (h : svlc.removeValidatorIxs lib vsi vsa = .withDecreaseStake dec rem) :
    svlc.decreases (vsi, vsa) = true ∧ dec.decreaseArgs.isSome := by
  rcases svlc.removeValidatorIxs_cases lib vsi vsa with
    ⟨hdec, dec', rem', hixs, htakes, -⟩ | ⟨-, rem', hixs, -⟩
  · obtain ⟨rfl, -⟩ := RemoveValidatorIxs.withDecreaseStake.inj (h.symm.trans hixs)
    rw [htakes.decreaseArgs]
    exact ⟨decreases_iff.mpr hdec, rfl⟩
  · cases h.symm.trans hixs

theorem length_ixs (r : ValidatorStakeInfo Pubkey × StakeStateV2) :
    (svlc.removeValidatorIxs lib r.1 r.2).ixs.length =
      1 + if svlc.decreases r then 1 else 0 := by
  rcases svlc.removeValidatorIxs_cases lib r.1 r.2 with
    ⟨hdec, dec, rem, hixs, -⟩ | ⟨hnot, rem, hixs, -⟩
  · rw [hixs, if_pos (decreases_iff.mpr hdec)]
    rfl
  · rw [hixs, if_neg fun hdec => hnot (decreases_iff.mp hdec)]
    rfl

/-- A decrease is the first instruction of a validator whose stake is decreased, and it is for the
ephemeral account of seed 0. -/
theorem getElem?_ixs_decrease {r : ValidatorStakeInfo Pubkey × StakeStateV2} {o : ℕ}
    {ix : Instruction Pubkey} (h : (svlc.removeValidatorIxs lib r.1 r.2).ixs[o]? = some ix)
    (hix : ix.decreaseArgs.isSome) :
    o = 0 ∧ svlc.decreases r = true ∧
      ix.ephemeralStakeAccount =
        some (lib.findEphemeralStakeAccount svlc.programId svlc.pool 0) ∧
      ix.decreaseArgs.map (·.ephemeralStakeSeed) = some 0 := by
  have hnotRemoves : ¬ svlc.Removes lib r.1 ix := fun hremoves => by
    rw [hremoves.decreaseArgs] at hix
    cases hix
  rcases svlc.removeValidatorIxs_cases lib r.1 r.2 with
    ⟨hdec, dec, rem, hixs, htakes, hremoves⟩ | ⟨-, rem, hixs, hremoves⟩ <;> rw [hixs] at h
  · match o with
    | 0 =>
      obtain rfl := Option.some.inj h
      rw [htakes.decreaseArgs]
      exact ⟨rfl, decreases_iff.mpr hdec, htakes.ephemeralStakeAccount, rfl⟩
    | 1 =>
      obtain rfl := Option.some.inj h
      exact absurd hremoves hnotRemoves
    | o + 2 => cases h
  · match o with
    | 0 =>
      obtain rfl := Option.some.inj h
      exact absurd hremoves hnotRemoves
    | o + 1 => cases h

/-! ## The instructions of all of them -/

theorem length_removeValidatorsIxs (remove : List (ValidatorStakeInfo Pubkey × StakeStateV2)) :
    (svlc.removeValidatorsIxs lib remove).length =
      remove.length + remove.countP svlc.decreases := by
  induction remove with
  | nil => rfl
  | cons r remove ih =>
    have hr := @length_ixs _ lib svlc r
    simp only [removeValidatorsIxs, List.flatMap_cons, List.length_append, List.countP_cons,
      List.length_cons] at ih hr ⊢
    omega

theorem length_removeValidatorsIxs_take {remove : List (ValidatorStakeInfo Pubkey × StakeStateV2)}
    {i : ℕ} (hi : i < remove.length) :
    (svlc.removeValidatorsIxs lib (remove.take i)).length = svlc.offset remove i := by
  rw [length_removeValidatorsIxs, List.length_take, Nat.min_eq_left (Nat.le_of_lt hi), offset]

theorem offset_lt_offset {remove : List (ValidatorStakeInfo Pubkey × StakeStateV2)} {i j : ℕ}
    (h : i < j) : svlc.offset remove i < svlc.offset remove j := by
  have hsub : (remove.take i).Sublist (remove.take j) :=
    List.take_sublist_take_left (Nat.le_of_lt h)
  have hcount : (remove.take i).countP svlc.decreases ≤ (remove.take j).countP svlc.decreases :=
    hsub.countP_le
  simp only [offset]
  omega

/-- The decreases are where the validators with a decrease begin. -/
theorem getElem?_removeValidatorsIxs_decrease
    {remove : List (ValidatorStakeInfo Pubkey × StakeStateV2)} {p : ℕ} :
    (∃ ix, (svlc.removeValidatorsIxs lib remove)[p]? = some ix ∧ ix.decreaseArgs.isSome) ↔
      ∃ i r, remove[i]? = some r ∧ svlc.decreases r = true ∧ p = svlc.offset remove i := by
  constructor
  · rintro ⟨ix, hget, hix⟩
    obtain ⟨i, r, o, hr, ho, rfl⟩ := getElem?_flatMap_eq_some_iff.mp hget
    obtain ⟨rfl, hdec, -⟩ := getElem?_ixs_decrease ho hix
    exact ⟨i, r, hr, hdec, length_removeValidatorsIxs_take (List.getElem?_eq_some_iff.mp hr).1⟩
  · rintro ⟨i, r, hr, hdec, rfl⟩
    obtain ⟨dec, rem, hixs⟩ := @removeValidatorIxs_of_decreases _ lib _ _ _ hdec
    have hfirst : (svlc.removeValidatorIxs lib r.1 r.2).ixs[0]? = some dec := by
      rw [hixs]
      rfl
    refine ⟨dec, getElem?_flatMap_eq_some_iff.mpr ⟨i, r, 0, hr, hfirst, ?_⟩,
      (decreases_of_removeValidatorIxs hixs).2⟩
    exact (length_removeValidatorsIxs_take (List.getElem?_eq_some_iff.mp hr).1).symm

theorem ephemeralStakeAccount_of_mem {remove : List (ValidatorStakeInfo Pubkey × StakeStateV2)}
    {ix : Instruction Pubkey} (h : ix ∈ svlc.removeValidatorsIxs lib remove)
    (hix : ix.decreaseArgs.isSome) :
    ix.ephemeralStakeAccount =
        some (lib.findEphemeralStakeAccount svlc.programId svlc.pool 0) ∧
      ix.decreaseArgs.map (·.ephemeralStakeSeed) = some 0 := by
  obtain ⟨r, -, hr⟩ := List.mem_flatMap.mp h
  obtain ⟨o, ho⟩ := List.mem_iff_getElem?.mp hr
  exact (getElem?_ixs_decrease ho hix).2.2

end SyncValidatorListConfig

open SyncValidatorListConfig

/-! ## Ephemeral stake accounts -/

/-- The decreases of a transaction. -/
def decreaseIxs (tx : List (Instruction Pubkey)) : List (Instruction Pubkey) :=
  tx.filter (·.decreaseArgs.isSome)

/-- The decreases of a transaction have distinct ephemeral stake accounts, and distinct seeds. -/
def DistinctEphemeralAccounts (tx : List (Instruction Pubkey)) : Prop :=
  ((decreaseIxs tx).map (·.ephemeralStakeAccount)).Nodup ∧
    ((decreaseIxs tx).map fun ix => ix.decreaseArgs.map (·.ephemeralStakeSeed)).Nodup

/-- Among removals, the ephemeral accounts are distinct iff there is at most one decrease. -/
theorem distinctEphemeralAccounts_iff
    {remove : List (ValidatorStakeInfo Pubkey × StakeStateV2)} {tx : List (Instruction Pubkey)}
    (htx : ∀ ix ∈ tx, ix ∈ svlc.removeValidatorsIxs lib remove) :
    DistinctEphemeralAccounts tx ↔
      tx.Pairwise fun a b => ¬ (a.decreaseArgs.isSome ∧ b.decreaseArgs.isSome) := by
  simp only [DistinctEphemeralAccounts, decreaseIxs, List.Nodup, List.pairwise_map,
    List.pairwise_filter]
  constructor
  · rintro ⟨h, -⟩
    apply h.imp_of_mem
    intro a b ha hb hne
    rintro ⟨ha', hb'⟩
    apply hne ha' hb'
    rw [(ephemeralStakeAccount_of_mem (htx a ha) ha').1,
      (ephemeralStakeAccount_of_mem (htx b hb) hb').1]
  · intro h
    exact ⟨h.imp fun hnot ha hb => absurd ⟨ha, hb⟩ hnot,
      h.imp fun hnot ha hb => absurd ⟨ha, hb⟩ hnot⟩

/-- **The ephemeral accounts of a removal transaction are distinct** exactly when no two decreases
fall into one transaction. -/
theorem distinct_ephemeral_accounts_iff [DecidableEq Pubkey] (lib : StakePoolLib Pubkey)
    (svlc : SyncValidatorListConfig Pubkey) (validatorList : List (ValidatorStakeInfo Pubkey))
    (vsas : List StakeStateV2) :
    (∀ tx ∈ svlc.removeTxs lib ((svlc.addRemoveChangeset validatorList).2.zip vsas),
      DistinctEphemeralAccounts tx) ↔
    ∀ i j r s, i < j → ((svlc.addRemoveChangeset validatorList).2.zip vsas)[i]? = some r →
      ((svlc.addRemoveChangeset validatorList).2.zip vsas)[j]? = some s →
      svlc.decreases r = true → svlc.decreases s = true →
      svlc.offset ((svlc.addRemoveChangeset validatorList).2.zip vsas) i /
          maxRemoveValidatorIxsEnumPerTx ≠
        svlc.offset ((svlc.addRemoveChangeset validatorList).2.zip vsas) j /
          maxRemoveValidatorIxsEnumPerTx := by
  generalize (svlc.addRemoveChangeset validatorList).2.zip vsas = remove
  have hpos : 0 < maxRemoveValidatorIxsEnumPerTx := Nat.succ_pos _
  have hpairwise : (∀ tx ∈ svlc.removeTxs lib remove, DistinctEphemeralAccounts tx) ↔
      ∀ tx ∈ chunks maxRemoveValidatorIxsEnumPerTx (svlc.removeValidatorsIxs lib remove),
        tx.Pairwise fun a b => ¬ (a.decreaseArgs.isSome ∧ b.decreaseArgs.isSome) := by
    apply forall₂_congr
    intro tx htx
    have hmem : ∀ ix ∈ tx, ix ∈ svlc.removeValidatorsIxs lib remove := fun ix hix => by
      rw [← flatten_chunks hpos (svlc.removeValidatorsIxs lib remove)]
      exact List.mem_flatten.mpr ⟨tx, htx, hix⟩
    exact distinctEphemeralAccounts_iff hmem
  rw [hpairwise, forall_pairwise_chunks_iff hpos]
  constructor
  · intro h i j r s hij hr hs hr' hs' heq
    obtain ⟨a, ha, ha'⟩ := (@getElem?_removeValidatorsIxs_decrease _ lib svlc remove _).mpr
      ⟨i, r, hr, hr', rfl⟩
    obtain ⟨b, hb, hb'⟩ := (@getElem?_removeValidatorsIxs_decrease _ lib svlc remove _).mpr
      ⟨j, s, hs, hs', rfl⟩
    exact h _ _ a b (offset_lt_offset hij) heq ha hb ⟨ha', hb'⟩
  · rintro h p q a b hpq heq ha hb ⟨ha', hb'⟩
    obtain ⟨i, r, hr, hr', rfl⟩ := getElem?_removeValidatorsIxs_decrease.mp ⟨a, ha, ha'⟩
    obtain ⟨j, s, hs, hs', rfl⟩ := getElem?_removeValidatorsIxs_decrease.mp ⟨b, hb, hb'⟩
    refine h i j r s ?_ hr hs hr' hs' heq
    by_contra hle
    rcases Nat.eq_or_lt_of_le (Nat.le_of_not_lt hle) with rfl | hlt
    · omega
    · have := @offset_lt_offset _ svlc remove _ _ hlt
      omega

/-- A config without validators. -/
def removingAll : SyncValidatorListConfig Address where
  programId := .key 0
  payer := .key 2
  staker := .key 101
  pool := .key 1
  validatorList := .key 102
  reserve := .key 103
  validators := ⟨[], List.nodup_nil⟩
  preferredDepositValidator := none
  preferredWithdrawValidator := none
  rent := .default

/-- Entries of active validators with two SOL of stake each. -/
def activeEntries (n : ℕ) : List (ValidatorStakeInfo Address) :=
  (List.range n).map fun i => ⟨2000000000, 0, 7, 0, 0, .active, .key (200 + i)⟩

/-- Their stake accounts. -/
def activeStates (n : ℕ) : List StakeStateV2 :=
  List.replicate n (.stake ⟨2000000000, 3, u64Max⟩)

/-- Two validators with excess stake are decreased through one ephemeral account in one
transaction. -/
theorem shared_ephemeral_account :
    ¬ ∀ tx ∈ removingAll.removeTxs StakePoolLib.symbolic
        ((removingAll.addRemoveChangeset (activeEntries 2)).2.zip (activeStates 2)),
      DistinctEphemeralAccounts tx := by
  intro h
  have hone : removingAll.removeTxs StakePoolLib.symbolic
        ((removingAll.addRemoveChangeset (activeEntries 2)).2.zip (activeStates 2)) =
      [removingAll.removeValidatorsIxs StakePoolLib.symbolic
        ((removingAll.addRemoveChangeset (activeEntries 2)).2.zip (activeStates 2))] := rfl
  rw [hone] at h
  exact absurd (h _ (List.mem_singleton_self _)).2 (by decide)

/-! ## Removals and transaction boundaries -/

/-- The two instructions of a validator, after the instructions `pre`, are next to each other in one
transaction, and no number of executed transactions ends between them. -/
def LandTogether (txs : List (List (Instruction Pubkey))) (pre : List (Instruction Pubkey))
    (dec rem : Instruction Pubkey) : Prop :=
  (∃ before p q after, txs = before ++ (p ++ [dec, rem] ++ q) :: after ∧
    before.flatten ++ p = pre) ∧
  ∀ m, pre.length < (txs.take m).flatten.length → pre.length + 2 ≤ (txs.take m).flatten.length

/-- A pair of instructions lands together iff the first is not the last of a full transaction. -/
theorem landTogether_iff {pre post : List (Instruction Pubkey)} {dec rem : Instruction Pubkey} :
    LandTogether (chunks maxRemoveValidatorIxsEnumPerTx (pre ++ [dec, rem] ++ post)) pre dec rem ↔
      pre.length % maxRemoveValidatorIxsEnumPerTx ≠ 4 := by
  have hpos : 0 < maxRemoveValidatorIxsEnumPerTx := Nat.succ_pos _
  have hmod : pre.length % maxRemoveValidatorIxsEnumPerTx < maxRemoveValidatorIxsEnumPerTx :=
    Nat.mod_lt _ hpos
  have hsplit := @exists_chunk_split_iff _ _ hpos pre [dec, rem] post (List.cons_ne_nil _ _)
  constructor
  · rintro ⟨htogether, -⟩
    have hfits := hsplit.mp htogether
    simp only [maxRemoveValidatorIxsEnumPerTx, List.length_cons, List.length_nil] at hfits ⊢
    omega
  · intro hne
    refine ⟨hsplit.mpr ?_, fun m hm => ?_⟩
    · simp only [maxRemoveValidatorIxsEnumPerTx, List.length_cons, List.length_nil] at hmod hne ⊢
      omega
    · rw [flatten_take_chunks hpos] at hm ⊢
      simp only [maxRemoveValidatorIxsEnumPerTx, List.length_take, List.length_append,
        List.length_cons, List.length_nil] at hm hmod hne ⊢
      omega

/-- **Removing a validator is atomic** exactly when no decrease is the last instruction of a full
transaction. -/
theorem removal_atomic_iff (lib : StakePoolLib Pubkey) (svlc : SyncValidatorListConfig Pubkey)
    (remove : List (ValidatorStakeInfo Pubkey × StakeStateV2)) :
    (∀ i vsi vsa dec rem, remove[i]? = some (vsi, vsa) →
      svlc.removeValidatorIxs lib vsi vsa = .withDecreaseStake dec rem →
      LandTogether (svlc.removeTxs lib remove) (svlc.removeValidatorsIxs lib (remove.take i))
        dec rem) ↔
    ∀ i r, remove[i]? = some r → svlc.decreases r = true →
      svlc.offset remove i % maxRemoveValidatorIxsEnumPerTx ≠ 4 := by
  have hiff : ∀ i vsi vsa dec rem, remove[i]? = some (vsi, vsa) →
      svlc.removeValidatorIxs lib vsi vsa = .withDecreaseStake dec rem →
      (LandTogether (svlc.removeTxs lib remove) (svlc.removeValidatorsIxs lib (remove.take i))
        dec rem ↔ svlc.offset remove i % maxRemoveValidatorIxsEnumPerTx ≠ 4) := by
    intro i vsi vsa dec rem hget hixs
    obtain ⟨hi, hget⟩ := List.getElem?_eq_some_iff.mp hget
    have hall : svlc.removeValidatorsIxs lib remove =
        svlc.removeValidatorsIxs lib (remove.take i) ++ [dec, rem] ++
          svlc.removeValidatorsIxs lib (remove.drop (i + 1)) := by
      have hdrop : remove.drop i = (vsi, vsa) :: remove.drop (i + 1) := by
        rw [List.drop_eq_getElem_cons hi, hget]
      conv_lhs => rw [← List.take_append_drop i remove, hdrop]
      rw [removeValidatorsIxs_append, removeValidatorsIxs_cons, hixs, RemoveValidatorIxs.ixs,
        List.append_assoc]
    rw [removeTxs, hall, landTogether_iff, length_removeValidatorsIxs_take hi]
  constructor
  · rintro h i ⟨vsi, vsa⟩ hr hdec
    obtain ⟨dec, rem, hixs⟩ := @removeValidatorIxs_of_decreases _ lib svlc vsi vsa hdec
    exact (hiff i vsi vsa dec rem hr hixs).mp (h i vsi vsa dec rem hr hixs)
  · intro h i vsi vsa dec rem hr hixs
    exact (hiff i vsi vsa dec rem hr hixs).mpr
      (h i _ hr (decreases_of_removeValidatorIxs hixs).1)

/-- The decrease of the third of three validators is the last instruction of a transaction. -/
theorem third_removal_split :
    ¬ ∀ i vsi vsa dec rem, ((activeEntries 3).zip (activeStates 3))[i]? = some (vsi, vsa) →
      removingAll.removeValidatorIxs StakePoolLib.symbolic vsi vsa = .withDecreaseStake dec rem →
      LandTogether
        (removingAll.removeTxs StakePoolLib.symbolic ((activeEntries 3).zip (activeStates 3)))
        (removingAll.removeValidatorsIxs StakePoolLib.symbolic
          (((activeEntries 3).zip (activeStates 3)).take i)) dec rem := by
  intro h
  have hafter := (h 2 _ _ _ _ rfl rfl).2 1 (by decide)
  exact absurd hafter (by decide)

end StakePoolCli
