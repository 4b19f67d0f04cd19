import StakePoolCli.Foundations.Checked
import StakePoolCli.Foundations.Chunks
import StakePoolCli.Interface.Types

/-!
# The epoch update

`update.rs`. Once an epoch the validator list is brought up to date, a window at a time, and then
the pool. `updatePool` returns the transactions in the order in which they are sent, each as the
list of its instructions. The accounts of these instructions are resolved by the library from the
pool's account; here an instruction records what it is given.
-/

namespace StakePoolCli

open Checked Chunks

variable {Pubkey : Type}

/-- `MAX_VALIDATORS_TO_UPDATE_PER_TX` -/
def maxValidatorsToUpdatePerTx : ℕ := 11

theorem maxValidatorsToUpdatePerTx_pos : 0 < maxValidatorsToUpdatePerTx := Nat.succ_pos _

inductive UpdateCtrl
  /-- Only the parts of the pool that need it for this epoch. -/
  | ifNeeded
  /-- The pool account, even if it has been updated for this epoch. -/
  | forcePool
  /-- The pool account and the entire validator list. -/
  | forceAll
  deriving DecidableEq, Repr

structure UpdateValidatorListBalanceIxArgs where
  startIndex : UInt32
  noMerge : Bool
  deriving DecidableEq, Repr

inductive UpdateIx (Pubkey : Type)
  | updateValidatorListBalance (programId pool : Pubkey) (slice : List (ValidatorStakeInfo Pubkey))
      (args : UpdateValidatorListBalanceIxArgs)
  | updateStakePoolBalance (programId pool : Pubkey)
  | cleanupRemovedValidatorEntries (programId pool : Pubkey)
  deriving DecidableEq, Repr

structure UpdatePoolArgs (Pubkey : Type) where
  programId : Pubkey
  currentEpoch : UInt64
  pool : Pubkey
  stakePool : StakePool Pubkey
  validatorListEntries : List (ValidatorStakeInfo Pubkey)
  ctrl : UpdateCtrl
  noMerge : Bool

namespace UpdatePoolArgs

variable (args : UpdatePoolArgs Pubkey)

def isUpdatedForCurrEpoch : Prop := args.currentEpoch ≤ args.stakePool.lastUpdateEpoch

instance : Decidable args.isUpdatedForCurrEpoch := inferInstanceAs (Decidable (_ ≤ _))

/-- The chunks that the loop skips: nothing in them is stale, and nothing is forced. -/
def Skipped (chunk : List (ValidatorStakeInfo Pubkey)) : Prop :=
  (∀ vsi ∈ chunk, args.currentEpoch ≤ vsi.lastUpdateEpoch) ∧ args.ctrl ≠ .forceAll

instance : DecidablePred args.Skipped := fun _ => inferInstanceAs (Decidable (_ ∧ _))

/-- The loop over the chunks, from the one at position `i` on. -/
def updateValidatorList : ℕ → List (List (ValidatorStakeInfo Pubkey)) →
    Except Panic (List (List (UpdateIx Pubkey)))
  | _, [] => .ok []
  | i, chunk :: chunks => do
    if args.Skipped chunk then
      updateValidatorList (i + 1) chunks
    else
      let startIndex := i * maxValidatorsToUpdatePerTx
      let startIndex ← u32TryFrom startIndex
      let ixs := [.updateValidatorListBalance args.programId args.pool chunk
        { startIndex, noMerge := args.noMerge }]
      let txs ← updateValidatorList (i + 1) chunks
      .ok (ixs :: txs)

def finalIxs : List (UpdateIx Pubkey) :=
  [.updateStakePoolBalance args.programId args.pool,
    .cleanupRemovedValidatorEntries args.programId args.pool]

end UpdatePoolArgs

/-- `update_pool` -/
def updatePool (args : UpdatePoolArgs Pubkey) : Except Panic (List (List (UpdateIx Pubkey))) := do
  if args.isUpdatedForCurrEpoch ∧ args.ctrl = .ifNeeded then
    .ok []
  else
    let listTxs ←
      if ¬ args.isUpdatedForCurrEpoch ∨ args.ctrl = .forceAll then
        args.updateValidatorList 0 (chunks maxValidatorsToUpdatePerTx args.validatorListEntries)
      else
        .ok []
    .ok (listTxs ++ [args.finalIxs])

/-! ## How an update stops -/

theorem UpdatePoolArgs.updateValidatorList_eq_error {args : UpdatePoolArgs Pubkey} {i : ℕ}
    {chunks : List (List (ValidatorStakeInfo Pubkey))} {e : Panic}
    (h : args.updateValidatorList i chunks = .error e) : e = .conversion := by
  induction chunks generalizing i with
  | nil => cases h
  | cons chunk chunks ih =>
    rw [updateValidatorList] at h
    split at h
    · exact ih h
    · rcases bind_eq_error.mp h with h | ⟨startIndex, -, h⟩
      · exact u32TryFrom_eq_error h
      · rcases bind_eq_error.mp h with h | ⟨txs, -, h⟩
        · exact ih h
        · cases h

/-- An update stops only when a position in the list does not fit its argument. -/
theorem updatePool_eq_error {args : UpdatePoolArgs Pubkey} {e : Panic}
    (h : updatePool args = .error e) : e = .conversion := by
  rw [updatePool] at h
  split at h
  · cases h
  · dsimp only at h
    split at h
    · rcases bind_eq_error.mp h with h | ⟨listTxs, -, h⟩
      · exact UpdatePoolArgs.updateValidatorList_eq_error h
      · cases h
    · cases h

end StakePoolCli
