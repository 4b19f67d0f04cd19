import StakePoolCli.Foundations.Scan
import StakePoolCli.Subcmd.Deposit
import StakePoolCli.Subcmd.Fetch
import StakePoolCli.Subcmd.ValidatorStake

/-!
# `withdraw-stake`

`subcmd/withdraw_stake.rs`. Pool tokens are burned for stake, which is split from a validator of
the pool into a new stake account: the preferred validator if the pool has one, else the one that is
asked for, else the one with the most active stake. The address of the new account is derived from
the authority and a seed. Random seeds are tried until one is unused, five at most; they are given
by a function `rng` of the attempt.
-/

namespace StakePoolCli

open Checked Scan

variable {Pubkey : Type}

/-- What a withdrawal takes from its libraries besides. -/
structure WithdrawLib (Pubkey : Type) where
  /-- `Pubkey::create_with_seed`, with `none` for an error -/
  createWithSeed : (base : Pubkey) → (seed : String) → (owner : Pubkey) → Option Pubkey
  /-- The text of a `TokenAmtOrAll` of 9 decimals. -/
  displayTokenAmtOrAll : TokenAmtOrAll → String
  /-- The text of a `TokenAmt` of 9 decimals. -/
  displayTokenAmt : UInt64 → String

/-- An account as a withdrawal fetches it. -/
structure WithdrawAccount (Pubkey : Type) extends DataAccount Pubkey where
  /-- The balance of a token account. -/
  amount : Option UInt64
  rent : Option Rent

/-- The accounts that the library resolves the withdrawal from. -/
structure WithdrawStakeWithSlippage (Pubkey : Type) where
  pool : Pubkey
  stakePool : StakePool Pubkey
  burnFrom : Pubkey
  transferAuthority : Pubkey
  beneficiary : Pubkey
  splitTo : Pubkey

structure WithdrawStakeWithSlippageIxArgs where
  poolTokensIn : UInt64
  minLamportsOut : UInt64
  deriving DecidableEq, Repr

/-- What a withdrawal sends. The withdrawal itself records what the library resolves it from, with
the validator that `compute_keys_for_vsa` is given. -/
inductive WithdrawIx (Pubkey : Type)
  /-- `system_instruction::create_account_with_seed` -/
  | createAccountWithSeed (funder newAccount base : Pubkey) (seed : String) (lamports : UInt64)
      (space : ℕ) (owner : Pubkey)
  | withdrawStakeWithSlippage (programId : Pubkey) (accounts : WithdrawStakeWithSlippage Pubkey)
      (vote : Pubkey) (validatorSeedSuffix : UInt32) (args : WithdrawStakeWithSlippageIxArgs)

/-- The transactions of the update, which are sent first, and the instructions of the
withdrawal. -/
structure WithdrawRun (Pubkey : Type) where
  updates : List (List (UpdateIx Pubkey))
  ixs : List (WithdrawIx Pubkey)

/-- `MAX_ATTEMPTS` -/
def maxAttempts : ℕ := 5

section

variable (lib : StakePoolLib Pubkey) (wlib : WithdrawLib Pubkey)
  (accounts : Pubkey → Option (WithdrawAccount Pubkey))

/-- An attempt of `find_unused_stake_prog_create_with_seed`: the address of a seed, if nothing is
there. -/
def tryStakeProgCreateWithSeed (authority : Pubkey) (seed : UInt32) :
    Except Panic (Option (Pubkey × String)) := do
  let seed := toString seed.toNat
  let pk ← unwrap (wlib.createWithSeed authority seed lib.stakeProgram)
  .ok (if (accounts pk).isNone then some (pk, seed) else none)

/-- The stop of a withdrawal that finds no seed. -/
def unusedSeedMissing : Panic := .explicit "Could not find unused seed for new stake account"

/-- `find_unused_stake_prog_create_with_seed` -/
def findUnusedStakeProgCreateWithSeed (rng : ℕ → UInt32) (authority : Pubkey) :
    Except Panic (Pubkey × String) :=
  firstOf (tryStakeProgCreateWithSeed lib wlib accounts authority) unusedSeedMissing
    ((List.range maxAttempts).map rng)

end

/-- The command line, with the send mode and the wallet of its config. -/
structure WithdrawStakeArgs (Pubkey : Type) where
  sendMode : TxSendMode
  payer : Pubkey
  authority : Option String
  tokensBurnFrom : Option String
  beneficiary : Option String
  validator : Option String
  pool : String
  tokenAmt : TokenAmtOrAll

/-- What a withdrawal has read of its arguments and of the pool. -/
structure WithdrawStakeFrom (Pubkey : Type) where
  authority : Pubkey
  beneficiary : Pubkey
  pool : Pubkey
  validator : Option Pubkey
  programId : Pubkey
  decodedPool : StakePool Pubkey
  burnFrom : Pubkey
  validators : List (ValidatorStakeInfo Pubkey)
  /-- The balance of `burnFrom`. -/
  amount : UInt64

namespace WithdrawStakeArgs

variable (lib : StakePoolLib Pubkey) (cli : CliLib Pubkey) (wlib : WithdrawLib Pubkey)
  (accounts : Pubkey → Option (WithdrawAccount Pubkey)) (args : WithdrawStakeArgs Pubkey)

def prepare : Except Panic (WithdrawStakeFrom Pubkey) := do
  let authority ← psFallback cli args.sendMode args.payer args.authority
  let beneficiary := (← parsePubkeyOpt cli args.beneficiary).getD authority
  let pool ← parsePubkey cli args.pool
  let validator ← parsePubkeyOpt cli args.validator
  let fetchedPool ← unwrap (accounts pool)
  let programId := fetchedPool.owner
  let decodedPool ← unwrap fetchedPool.stakePool
  let burnFrom := (← parsePubkeyOpt cli args.tokensBurnFrom).getD
    (cli.findAtaAddress authority decodedPool.poolMint decodedPool.tokenProgram)
  let fetchedValidatorList ← unwrap (accounts decodedPool.validatorList)
  let validatorList ← unwrap fetchedValidatorList.validatorList
  let fetchedBurnFrom ← unwrap (accounts burnFrom)
  let amount ← unwrap fetchedBurnFrom.amount
  .ok {
    authority, beneficiary, pool, validator, programId, decodedPool, burnFrom, amount
    validators := validatorList.validators }

/-- The tokens to burn, of a balance. -/
def amt (balance : UInt64) : Except Panic UInt64 :=
  match args.tokenAmt with
  | .all => .ok balance
  | .amt amt =>
    if amt > balance then
      .error (.explicit ("Insufficient balance in burn_from. Requested " ++
        wlib.displayTokenAmtOrAll args.tokenAmt ++ ", has " ++ wlib.displayTokenAmt balance))
    else .ok amt

section

variable [DecidableEq Pubkey]

/-- The validator that the stake is taken from. -/
def vsi (decodedPool : StakePool Pubkey) (validators : List (ValidatorStakeInfo Pubkey))
    (validator : Option Pubkey) : Except Panic (ValidatorStakeInfo Pubkey) :=
  match decodedPool.preferredWithdrawValidatorVoteAddress, validator with
  | some preferred, some v =>
    if v ≠ preferred then
      .error (.explicit ("Want to withdraw from validator " ++ lib.display v ++
        " but stake pool's preferred is " ++ lib.display preferred))
    else unwrap (validators.find? (·.voteAccountAddress = preferred))
  | some preferred, none => unwrap (validators.find? (·.voteAccountAddress = preferred))
  | none, none => expect "No validators in pool" (maxByKey (·.activeStakeLamports) validators)
  | none, some v => findValidator lib validators v

end

/-- The update of the pool, if it needs one. -/
def updatePoolArgs (w : WithdrawStakeFrom Pubkey) (currentEpoch : UInt64) :
    UpdatePoolArgs Pubkey where
  programId := w.programId
  currentEpoch
  pool := w.pool
  stakePool := w.decodedPool
  validatorListEntries := w.validators
  ctrl := .ifNeeded
  noMerge := false

/-- The instructions: the new stake account is made by the same transaction. -/
def ixs (w : WithdrawStakeFrom Pubkey) (amt : UInt64) (vsi : ValidatorStakeInfo Pubkey)
    (splitTo : Pubkey) (seed : String) (rent : Rent) : List (WithdrawIx Pubkey) :=
  [.createAccountWithSeed args.payer splitTo w.authority seed (rent.minimumBalance stakeStateSize)
      stakeStateSize lib.stakeProgram,
    .withdrawStakeWithSlippage w.programId
      { pool := w.pool
        stakePool := w.decodedPool
        burnFrom := w.burnFrom
        transferAuthority := w.authority
        beneficiary := w.beneficiary
        splitTo }
      vsi.voteAccountAddress vsi.validatorSeedSuffix
      { poolTokensIn := amt
        minLamportsOut := 0 }]

/-- `WithdrawStakeArgs::run` -/
def run [DecidableEq Pubkey] (rng : ℕ → UInt32) : Except Panic (WithdrawRun Pubkey) := do
  let w ← args.prepare cli accounts
  let amt ← args.amt wlib w.amount
  let vsi ← vsi lib w.decodedPool w.validators w.validator
  let (splitTo, seed) ← findUnusedStakeProgCreateWithSeed lib wlib accounts rng w.authority
  let rent ← unwrap (← unwrap (accounts lib.rent)).rent
  let currentEpoch ← unwrap (← unwrap (accounts lib.clock)).epoch
  let updates ← updatePool (updatePoolArgs w currentEpoch)
  .ok { updates, ixs := args.ixs lib w amt vsi splitTo seed rent }

end WithdrawStakeArgs

end StakePoolCli
