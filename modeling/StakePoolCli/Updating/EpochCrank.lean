import StakePoolCli.Update
import StakePoolCli.Interface.Symbolic

/-!
# The epoch update covers every stale validator once

`epoch_crank`: for a validator list of fewer than `2 ^ 32` entries, `updatePool` stops nowhere; the
windows it sends are in order, disjoint, aligned with the list and not longer than a transaction
allows; nothing is sent without need; and every entry is up to date before the final transaction.

The loop sends the windows of the list that it does not skip (`updateValidatorList_eq`), so all of
this is about a sublist of `Chunks.windows`. An entry is up to date once a window that contains it
is sent, and stays so (`upToDate_run`).
-/

namespace StakePoolCli

open Checked Chunks

variable {Pubkey : Type}

/-- A stretch of the validator list, with the position it starts at. -/
abbrev Window (Pubkey : Type) : Type := ℕ × List (ValidatorStakeInfo Pubkey)

/-- The window that an instruction updates. -/
def UpdateIx.window : UpdateIx Pubkey → Option (Window Pubkey)
  | .updateValidatorListBalance _ _ slice args => some (args.startIndex.toNat, slice)
  | _ => none

/-- The windows that a list of transactions updates, in order. -/
def sentWindows (txs : List (List (UpdateIx Pubkey))) : List (Window Pubkey) :=
  txs.flatten.filterMap UpdateIx.window

/-- What the program does to the list on an update of a window: it marks exactly the window. -/
def markUpdated (epoch : UInt64) (entries : List (ValidatorStakeInfo Pubkey))
    (w : Window Pubkey) : List (ValidatorStakeInfo Pubkey) :=
  entries.mapIdx fun k vsi =>
    if w.1 ≤ k ∧ k < w.1 + w.2.length then { vsi with lastUpdateEpoch := epoch } else vsi

/-- The list after a list of transactions. -/
def runUpdates (epoch : UInt64) (txs : List (List (UpdateIx Pubkey)))
    (entries : List (ValidatorStakeInfo Pubkey)) : List (ValidatorStakeInfo Pubkey) :=
  (sentWindows txs).foldl (markUpdated epoch) entries

/-! ## Marking windows -/

/-- The entry at position `k` is up to date. -/
def UpToDate (epoch : UInt64) (entries : List (ValidatorStakeInfo Pubkey)) (k : ℕ) : Prop :=
  ∀ vsi, entries[k]? = some vsi → epoch ≤ vsi.lastUpdateEpoch

section

variable {epoch : UInt64} {entries : List (ValidatorStakeInfo Pubkey)} {k : ℕ}

/-- A window marks its own entries and leaves the others. -/
theorem upToDate_markUpdated {w : Window Pubkey}
    (h : (w.1 ≤ k ∧ k < w.1 + w.2.length) ∨ UpToDate epoch entries k) :
    UpToDate epoch (markUpdated epoch entries w) k := by
  intro vsi' hvsi'
  rw [markUpdated, List.getElem?_mapIdx, Option.map_eq_some_iff] at hvsi'
  obtain ⟨vsi, hvsi, rfl⟩ := hvsi'
  split
  · exact UInt64.le_refl _
  · rename_i hout
    exact h.resolve_left hout vsi hvsi

/-- An entry is up to date after a list of windows if it is in one of them, or was before. -/
theorem upToDate_run (ws : List (Window Pubkey))
    (h : (∃ w ∈ ws, w.1 ≤ k ∧ k < w.1 + w.2.length) ∨ UpToDate epoch entries k) :
    UpToDate epoch (ws.foldl (markUpdated epoch) entries) k := by
  induction ws generalizing entries with
  | nil => simpa using h
  | cons w ws ih =>
    apply ih
    rcases h with ⟨w', hw', hin⟩ | h
    · rcases List.mem_cons.mp hw' with rfl | hw'
      · exact .inr (upToDate_markUpdated (.inl hin))
      · exact .inl ⟨w', hw', hin⟩
    · exact .inr (upToDate_markUpdated (.inr h))

end

/-! ## The windows that are sent -/

namespace UpdatePoolArgs

variable (args : UpdatePoolArgs Pubkey)

/-- The windows of the list that the loop does not skip. -/
def staleWindows : List (Window Pubkey) :=
  (windows maxValidatorsToUpdatePerTx args.validatorListEntries).filter (¬ args.Skipped ·.2)

/-- The transaction for a window. -/
def windowTx (w : Window Pubkey) : List (UpdateIx Pubkey) :=
  [.updateValidatorListBalance args.programId args.pool w.2 ⟨UInt32.ofNat w.1, args.noMerge⟩]

theorem updateValidatorList_go (i : ℕ) (cs : List (List (ValidatorStakeInfo Pubkey)))
    (h : ∀ j < cs.length, (i + j) * maxValidatorsToUpdatePerTx < 2 ^ 32) :
    args.updateValidatorList i cs =
      .ok (((cs.mapIdx fun j c => ((i + j) * maxValidatorsToUpdatePerTx, c)).filter
        (¬ args.Skipped ·.2)).map args.windowTx) := by
  induction cs generalizing i with
  | nil => rfl
  | cons c cs ih =>
    have hrest := ih (i + 1) fun j hj => by
      rw [Nat.add_assoc, Nat.add_comm 1 j]
      exact h (j + 1) (Nat.succ_lt_succ hj)
    have hshift : (fun j (c : List (ValidatorStakeInfo Pubkey)) =>
        ((i + (j + 1)) * maxValidatorsToUpdatePerTx, c)) =
        fun j c => ((i + 1 + j) * maxValidatorsToUpdatePerTx, c) := by
      funext j c
      rw [Nat.add_assoc, Nat.add_comm 1 j]
    have hconv := (u32TryFrom_of_lt (h 0 (Nat.succ_pos _))).1
    rw [Nat.add_zero] at hconv
    rw [updateValidatorList, List.mapIdx_cons, hshift]
    split
    · rename_i hskip
      rw [hrest, List.filter_cons_of_neg (by simpa using hskip)]
    · rename_i hskip
      rw [hrest, List.filter_cons_of_pos (by simpa using hskip)]
      simp only [hconv, ok_bind, List.map_cons, windowTx, Nat.add_zero]

/-- The loop sends the windows it does not skip. -/
theorem updateValidatorList_eq (hlen : args.validatorListEntries.length < 2 ^ 32) :
    args.updateValidatorList 0 (chunks maxValidatorsToUpdatePerTx args.validatorListEntries) =
      .ok (args.staleWindows.map args.windowTx) := by
  have h := args.updateValidatorList_go 0
    (chunks maxValidatorsToUpdatePerTx args.validatorListEntries) fun j hj => by
      have hget := getElem?_chunks maxValidatorsToUpdatePerTx_pos
        args.validatorListEntries j
      rw [List.getElem?_eq_getElem hj] at hget
      rw [Nat.zero_add]
      split at hget
      · omega
      · cases hget
  simp only [Nat.zero_add] at h
  exact h

theorem mem_staleWindows {w : Window Pubkey} (h : w ∈ args.staleWindows) :
    w ∈ windows maxValidatorsToUpdatePerTx args.validatorListEntries ∧ ¬ args.Skipped w.2 := by
  simpa [staleWindows] using h

/-- The start of a window survives its conversion. -/
theorem window_windowTx (hlen : args.validatorListEntries.length < 2 ^ 32) {w : Window Pubkey}
    (h : w ∈ args.staleWindows) : (args.windowTx w).filterMap UpdateIx.window = [w] := by
  have hbounds := window_bounds maxValidatorsToUpdatePerTx_pos (args.mem_staleWindows h).1
  simp only [windowTx, List.filterMap_cons, List.filterMap_nil, UpdateIx.window,
    (u32TryFrom_of_lt (show w.1 < 2 ^ 32 by omega)).2]

/-- The final transaction updates no window. -/
theorem sentWindows_append_finalIxs (txs : List (List (UpdateIx Pubkey))) :
    sentWindows (txs ++ [args.finalIxs]) = sentWindows txs := by
  simp [sentWindows, finalIxs, UpdateIx.window]

theorem sentWindows_map_windowTx (hlen : args.validatorListEntries.length < 2 ^ 32) :
    sentWindows (args.staleWindows.map args.windowTx) = args.staleWindows := by
  rw [sentWindows, List.filterMap_flatten, List.map_map]
  have hmap : args.staleWindows.map (List.filterMap UpdateIx.window ∘ args.windowTx) =
      args.staleWindows.map fun w => [w] :=
    List.map_congr_left fun w hw => args.window_windowTx hlen hw
  rw [hmap]
  induction args.staleWindows with
  | nil => rfl
  | cons w ws ih => exact congrArg (w :: ·) ih

/-- After the windows the loop sends, every entry is up to date. -/
theorem upToDate_staleWindows (k : ℕ) :
    UpToDate args.currentEpoch
      (args.staleWindows.foldl (markUpdated args.currentEpoch) args.validatorListEntries) k := by
  apply upToDate_run
  rcases Nat.lt_or_ge k args.validatorListEntries.length with hk | hk
  · obtain ⟨w, hw, hle, hlt⟩ := exists_window maxValidatorsToUpdatePerTx_pos hk
    by_cases hskip : args.Skipped w.2
    · right
      intro vsi hvsi
      have hget := getElem?_of_mem_windows maxValidatorsToUpdatePerTx_pos hw
        (by omega : k - w.1 < w.2.length)
      rw [show w.1 + (k - w.1) = k by omega, hvsi] at hget
      exact hskip.1 vsi (List.mem_of_getElem? hget)
    · exact .inl ⟨w, List.mem_filter.mpr ⟨hw, by simpa using hskip⟩, hle, hlt⟩
  · right
    intro vsi hvsi
    rw [List.getElem?_eq_none hk] at hvsi
    cases hvsi

/-- The transactions, by the state of the pool and the control. -/
theorem updatePool_eq (hlen : args.validatorListEntries.length < 2 ^ 32) :
    updatePool args =
      if args.isUpdatedForCurrEpoch ∧ args.ctrl = .ifNeeded then .ok []
      else if ¬ args.isUpdatedForCurrEpoch ∨ args.ctrl = .forceAll then
        .ok (args.staleWindows.map args.windowTx ++ [args.finalIxs])
      else .ok [args.finalIxs] := by
  rw [updatePool, args.updateValidatorList_eq hlen]
  split_ifs <;> rfl

/-- Only windows that the loop does not skip are sent. -/
theorem sentWindows_sublist (hlen : args.validatorListEntries.length < 2 ^ 32)
    {txs : List (List (UpdateIx Pubkey))} (h : updatePool args = .ok txs) :
    (sentWindows txs).Sublist args.staleWindows := by
  rw [args.updatePool_eq hlen] at h
  split_ifs at h <;> obtain rfl := Except.ok.inj h
  · exact List.nil_sublist _
  · rw [args.sentWindows_append_finalIxs, args.sentWindows_map_windowTx hlen]
  · exact List.nil_sublist _

/-- The windows the loop does not skip are in order and disjoint. -/
theorem pairwise_staleWindows :
    args.staleWindows.Pairwise fun v w => v.1 < w.1 ∧ v.1 + v.2.length ≤ w.1 := by
  have hpair := (pairwise_windows maxValidatorsToUpdatePerTx_pos args.validatorListEntries).sublist
    (List.filter_sublist : args.staleWindows.Sublist _)
  refine hpair.imp_of_mem fun {v w} hv _ hvw => ⟨?_, hvw⟩
  have hpos := (window_bounds maxValidatorsToUpdatePerTx_pos (args.mem_staleWindows hv).1).1
  omega

end UpdatePoolArgs

/-! ## The update of an epoch -/

/-- **The epoch update** covers every stale validator exactly once, before the final update of
the pool. -/
theorem epoch_crank (args : UpdatePoolArgs Pubkey)
    (hlen : args.validatorListEntries.length < 2 ^ 32) :
    ∃ txs, updatePool args = .ok txs ∧
      (sentWindows txs).Pairwise (fun v w => v.1 < w.1) ∧
      (sentWindows txs).Pairwise (fun v w => ∀ k, k < v.1 + v.2.length → ¬ w.1 ≤ k) ∧
      (∀ w ∈ sentWindows txs, w.2.length ≤ maxValidatorsToUpdatePerTx ∧
        w.1 + w.2.length ≤ args.validatorListEntries.length ∧
        ∀ j < w.2.length, w.2[j]? = args.validatorListEntries[w.1 + j]?) ∧
      (¬ args.isUpdatedForCurrEpoch ∨ args.ctrl = .forceAll →
        ∃ listTxs, txs = listTxs ++ [[.updateStakePoolBalance args.programId args.pool,
            .cleanupRemovedValidatorEntries args.programId args.pool]] ∧
          (∀ tx ∈ listTxs, (∀ ix ∈ tx, ix.window.isSome) ∧
            ∀ programId pool, .updateStakePoolBalance programId pool ∉ tx) ∧
          ∀ vsi ∈ runUpdates args.currentEpoch listTxs args.validatorListEntries,
            args.currentEpoch ≤ vsi.lastUpdateEpoch) ∧
      (args.ctrl ≠ .forceAll →
        ∀ w ∈ sentWindows txs, ∃ vsi ∈ w.2, vsi.lastUpdateEpoch < args.currentEpoch) ∧
      (args.isUpdatedForCurrEpoch →
        (args.ctrl = .ifNeeded → txs = []) ∧
        (args.ctrl = .forcePool → txs = [[.updateStakePoolBalance args.programId args.pool,
          .cleanupRemovedValidatorEntries args.programId args.pool]])) := by
  have heq := args.updatePool_eq hlen
  obtain ⟨txs, htxs⟩ : ∃ txs, updatePool args = .ok txs := by
    rw [heq]
    split_ifs <;> exact ⟨_, rfl⟩
  have hsub := args.sentWindows_sublist hlen htxs
  have hpair := args.pairwise_staleWindows.sublist hsub
  rw [htxs] at heq
  refine ⟨txs, htxs, hpair.imp And.left, hpair.imp fun h k hk hk' => ?_, fun w hw => ?_,
    fun hneeded => ?_, fun hctrl w hw => ?_, fun hupdated => ⟨fun hctrl => ?_, fun hctrl => ?_⟩⟩
  · exact absurd (h.2.trans hk') (by omega)
  · have hmem := (args.mem_staleWindows (hsub.mem hw)).1
    have hbounds := window_bounds maxValidatorsToUpdatePerTx_pos hmem
    exact ⟨hbounds.2.1, hbounds.2.2,
      fun j hj => getElem?_of_mem_windows maxValidatorsToUpdatePerTx_pos hmem hj⟩
  · have hskip : ¬ (args.isUpdatedForCurrEpoch ∧ args.ctrl = .ifNeeded) := by
      rintro ⟨hupdated, hctrl⟩
      rcases hneeded with h | h
      · exact h hupdated
      · rw [h] at hctrl
        cases hctrl
    rw [if_neg hskip, if_pos hneeded] at heq
    obtain rfl := Except.ok.inj heq
    refine ⟨_, rfl, fun tx htx => ?_, fun vsi hvsi => ?_⟩
    · obtain ⟨w, -, rfl⟩ := List.mem_map.mp htx
      refine ⟨fun ix hix => ?_, fun programId pool hix => ?_⟩
      · obtain rfl := List.mem_singleton.mp hix
        rfl
      · cases List.mem_singleton.mp hix
    · rw [runUpdates, args.sentWindows_map_windowTx hlen] at hvsi
      obtain ⟨k, hk⟩ := List.mem_iff_getElem?.mp hvsi
      exact args.upToDate_staleWindows k vsi hk
  · obtain ⟨-, hskip⟩ := args.mem_staleWindows (hsub.mem hw)
    by_contra hnone
    exact hskip ⟨fun vsi hvsi => UInt64.not_lt.mp fun hlt => hnone ⟨vsi, hvsi, hlt⟩, hctrl⟩
  · rw [if_pos ⟨hupdated, hctrl⟩] at heq
    exact Except.ok.inj heq
  · rw [if_neg (by simp [hctrl]), if_neg (by simp [hupdated, hctrl])] at heq
    exact Except.ok.inj heq

/-- Thirteen validators, of which the last is stale: the first window is skipped. -/
def thirteenValidators : UpdatePoolArgs Address where
  programId := .key 0
  currentEpoch := 7
  pool := .key 1
  stakePool := .fresh
  validatorListEntries := (List.range 13).map fun i =>
    ⟨2000000000, 0, if i = 12 then 6 else 7, 0, 0, .active, .key (200 + i)⟩
  ctrl := .ifNeeded
  noMerge := false

theorem epoch_crank_thirteenValidators : ∃ txs, updatePool thirteenValidators = .ok txs ∧
    (∀ w ∈ sentWindows txs, ∃ vsi ∈ w.2, vsi.lastUpdateEpoch < 7) ∧
    ∃ listTxs, txs = listTxs ++ [[.updateStakePoolBalance (.key 0) (.key 1),
        .cleanupRemovedValidatorEntries (.key 0) (.key 1)]] ∧
      ∀ vsi ∈ runUpdates 7 listTxs thirteenValidators.validatorListEntries,
        7 ≤ vsi.lastUpdateEpoch := by
  obtain ⟨txs, htxs, -, -, -, hfresh, hneeded, -⟩ :=
    epoch_crank thirteenValidators (by simp [thirteenValidators])
  obtain ⟨listTxs, heq, -, hall⟩ := hfresh (.inl (by decide))
  exact ⟨txs, htxs, hneeded (by decide), listTxs, heq, hall⟩

end StakePoolCli
