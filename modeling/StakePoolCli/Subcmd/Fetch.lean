import StakePoolCli.Interface.Lib

/-!
# What the commands fetch

Every command of the staker begins by fetching the pool, the clock and the rent, then the
validator list and the reserve, then stake accounts. `Fetched` is all of it, the accounts as a
function of their addresses.
-/

namespace StakePoolCli

open Checked

variable {Pubkey : Type}

/-- `account` is what fetching an address returns. -/
structure Fetched (Pubkey : Type) where
  /-- The owner of the pool's account. -/
  programId : Pubkey
  stakePool : StakePool Pubkey
  epoch : UInt64
  rent : Rent
  validators : List (ValidatorStakeInfo Pubkey)
  reserveLamports : UInt64
  account : Pubkey → Option (Account Pubkey)

variable (lib : StakePoolLib Pubkey)

/-- The entry of a validator in the list, which has to be there. -/
def findValidator [DecidableEq Pubkey] (validators : List (ValidatorStakeInfo Pubkey))
    (vote : Pubkey) : Except Panic (ValidatorStakeInfo Pubkey) :=
  expect ("Validator " ++ lib.display vote ++ " not part of pool")
    (validators.find? (·.voteAccountAddress = vote))

/-- The check that the signer is the pool's staker. -/
def checkStaker [DecidableEq Pubkey] (stakePool : StakePool Pubkey) (staker : Pubkey) :
    Except Panic Unit :=
  if staker ≠ stakePool.staker then
    .error (.explicit ("Wrong staker. Expecting " ++ lib.display stakePool.staker ++ ", got " ++
      lib.display staker))
  else .ok ()

/-- The state of a transient stake account. An account of another owner counts as none: something
may have been sent to the address after the account was merged. -/
def tsaState [DecidableEq Pubkey] (acc : Option (Account Pubkey)) :
    Except Panic (Option StakeStateV2) :=
  match acc.filter (·.owner = lib.stakeProgram) with
  | some acc => do .ok (some (← unwrap acc.stakeState))
  | none => .ok none

end StakePoolCli
