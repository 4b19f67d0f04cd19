import StakePoolCli.Parse
import StakePoolCli.Update

/-!
# `deposit-sol` and `deposit-stake`

`subcmd/deposit_sol.rs` and `subcmd/deposit_stake.rs`. Both deposit into a pool and have the minted
pool tokens sent to a token account: the one that is given, or else the associated token account
(ATA) of the depositor. The pool is updated first if it has to be.

What they do about a token account that is missing is the same code, `createAtaIxs`, but they run it
on different accounts: `deposit-sol` on the one at `mintTo`, `deposit-stake` on the one at the ATA.
`deposit-sol` has updated the pool by then; `deposit-stake` updates it last.
-/

namespace StakePoolCli

open Checked

variable {Pubkey : Type}

/-! ## Accounts -/

/-- The state of a stake account that is deposited: who may deposit it, and which validator it is
delegated to. -/
inductive DepositedStakeState (Pubkey : Type)
  | uninitialized
  | initialized (authorized : Authorized Pubkey)
  | stake (authorized : Authorized Pubkey) (voterPubkey : Pubkey)
  | rewardsPool

namespace DepositedStakeState

/-- The `voter_pubkey` of the delegation, if there is one. -/
def voterPubkey : DepositedStakeState Pubkey → Option Pubkey
  | stake _ voterPubkey => some voterPubkey
  | _ => none

def authorized : DepositedStakeState Pubkey → Option (Authorized Pubkey)
  | initialized authorized => some authorized
  | stake authorized _ => some authorized
  | _ => none

end DepositedStakeState

/-- An account as a deposit fetches it: its owner, and what its data is as each of the things that
a deposit may read it as, `none` where it cannot be read so. -/
structure DataAccount (Pubkey : Type) where
  owner : Pubkey
  stakePool : Option (StakePool Pubkey)
  validatorList : Option (ValidatorList Pubkey)
  stakeState : Option (DepositedStakeState Pubkey)
  /-- The epoch of the clock. -/
  epoch : Option UInt64

/-- The accounts that exist. -/
abbrev Accounts (Pubkey : Type) : Type := Pubkey → Option (DataAccount Pubkey)

/-! ## Instructions -/

structure AccountMeta (Pubkey : Type) where
  pubkey : Pubkey
  isSigner : Bool
  isWritable : Bool
  deriving DecidableEq, Repr

/-- An instruction with its data as bytes. -/
structure RawInstruction (Pubkey : Type) where
  programId : Pubkey
  accounts : List (AccountMeta Pubkey)
  data : List UInt8
  deriving DecidableEq, Repr

structure CreateIdempotentKeys (Pubkey : Type) where
  fundingAccount : Pubkey
  associatedTokenAccount : Pubkey
  wallet : Pubkey
  mint : Pubkey
  systemProgram : Pubkey
  tokenProgram : Pubkey
  deriving DecidableEq, Repr

/-- What a deposit sends: the creation of the ATA, which records what it is given, and the
instructions of the deposit itself. -/
inductive DepositIx (Pubkey : Type)
  | createIdempotent (keys : CreateIdempotentKeys Pubkey)
  | deposit (ix : RawInstruction Pubkey)
  deriving DecidableEq, Repr

/-- The accounts that the library resolves the deposit of a stake account from. -/
structure DepositStakeWithSlippage (Pubkey : Type) where
  pool : Pubkey
  stakePool : StakePool Pubkey
  stakeDepositing : Pubkey
  stakeState : DepositedStakeState Pubkey
  mintTo : Pubkey
  referralFeeDest : Pubkey

/-- `DepositStakeWithSlippage::full_ix_seq`, with `none` for an error. -/
abbrev FullIxSeq (Pubkey : Type) : Type :=
  DepositStakeWithSlippage Pubkey → (programId voteAccount : Pubkey) →
    (validatorSeedSuffix : UInt32) → (minTokensOut : UInt64) →
    Option (List (RawInstruction Pubkey))

/-- `to_le_bytes` -/
def toLeBytes (n : UInt64) : List UInt8 :=
  (List.range 8).map fun i => (n >>> UInt64.ofNat (8 * i)).toUInt8

/-- The transactions of the update, which are sent first, and the instructions of the deposit. -/
@[ext] structure DepositRun (Pubkey : Type) where
  updates : List (List (UpdateIx Pubkey))
  ixs : List (DepositIx Pubkey)

/-! ## The token account -/

/-- What a deposit knows when it decides about the token account. -/
structure DepositTo (Pubkey : Type) where
  pool : Pubkey
  programId : Pubkey
  decodedPool : StakePool Pubkey
  /-- The depositor: `from` of `deposit-sol`, `authority` of `deposit-stake`. -/
  authority : Pubkey
  authorityAta : Pubkey
  mintTo : Pubkey

/-- The token account is the one that is given, or the ATA. -/
def DepositTo.ofArg (cli : CliLib Pubkey) (pool programId : Pubkey)
    (decodedPool : StakePool Pubkey) (authority : Pubkey) (mintTo : Option String) :
    Except Panic (DepositTo Pubkey) := do
  let authorityAta := cli.findAtaAddress authority decodedPool.poolMint decodedPool.tokenProgram
  let mintTo := (← parsePubkeyOpt cli mintTo).getD authorityAta
  .ok { pool, programId, decodedPool, authority, authorityAta, mintTo }

/-- The stop of a deposit whose token account is missing. -/
def mintToMissing : Panic := .explicit "mint_to does not exist and is not authority's ATA"

/-- The instruction that creates the token account. -/
def DepositTo.createAtaIx (d : DepositTo Pubkey) (lib : StakePoolLib Pubkey) (payer : Pubkey) :
    DepositIx Pubkey :=
  .createIdempotent
    { fundingAccount := payer
      associatedTokenAccount := d.mintTo
      wallet := d.authority
      mint := d.decodedPool.poolMint
      systemProgram := lib.systemProgram
      tokenProgram := d.decodedPool.tokenProgram }

/-- The instructions that come before the deposit, given the account that was looked up. -/
def DepositTo.createAtaIxs [DecidableEq Pubkey] (d : DepositTo Pubkey) (lib : StakePoolLib Pubkey)
    (payer : Pubkey) (maybeFetched : Option (DataAccount Pubkey)) :
    Except Panic (List (DepositIx Pubkey)) :=
  let isMintToAuthorityAta := d.mintTo = d.authorityAta
  if maybeFetched.isNone then
    if ¬ isMintToAuthorityAta then .error mintToMissing
    else .ok [d.createAtaIx lib payer]
  else .ok []

variable (lib : StakePoolLib Pubkey) (cli : CliLib Pubkey) (accounts : Accounts Pubkey)

/-- The epoch of the clock, which always exists. -/
def currentEpoch : Except Panic UInt64 := do
  unwrap (← unwrap (accounts lib.clock)).epoch

/-- The entries of the pool's validator list. -/
def validatorListEntries (decodedPool : StakePool Pubkey) :
    Except Panic (List (ValidatorStakeInfo Pubkey)) := do
  .ok (← unwrap (← unwrap (accounts decodedPool.validatorList)).validatorList).validators

/-- The update of the pool, if it needs one. -/
def DepositTo.updatePoolArgs (d : DepositTo Pubkey) (currentEpoch : UInt64)
    (validators : List (ValidatorStakeInfo Pubkey)) : UpdatePoolArgs Pubkey where
  programId := d.programId
  currentEpoch
  pool := d.pool
  stakePool := d.decodedPool
  validatorListEntries := validators
  ctrl := .ifNeeded
  noMerge := false

/-! ## `deposit-sol` -/

/-- The command line of `deposit-sol`, with the send mode and the wallet of its config. -/
structure DepositSolArgs (Pubkey : Type) where
  sendMode : TxSendMode
  payer : Pubkey
  from' : Option String
  mintTo : Option String
  pool : String
  sol : UInt64

namespace DepositSolArgs

variable (args : DepositSolArgs Pubkey)

/-- What comes before the decision about the token account: the update is sent already. -/
def prepare : Except Panic (DepositTo Pubkey × List (List (UpdateIx Pubkey))) := do
  let from' ← psFallback cli args.sendMode args.payer args.from'
  let pool ← parsePubkey cli args.pool
  let fetchedPool ← unwrap (accounts pool)
  let decodedPool ← unwrap fetchedPool.stakePool
  let d ← DepositTo.ofArg cli pool fetchedPool.owner decodedPool from' args.mintTo
  let currentEpoch ← currentEpoch lib accounts
  let validators ← validatorListEntries accounts decodedPool
  let updates ← updatePool (d.updatePoolArgs currentEpoch validators)
  .ok (d, updates)

/-- The instruction of the deposit. The depositor gets the referral fee as well. -/
def depositSolIx (d : DepositTo Pubkey) : RawInstruction Pubkey where
  programId := d.programId
  data := 14 :: toLeBytes args.sol
  accounts :=
    [⟨d.pool, false, true⟩,
      ⟨lib.findWithdrawAuthority d.programId d.pool, false, false⟩,
      ⟨d.decodedPool.reserveStake, false, true⟩,
      ⟨d.authority, true, true⟩,
      ⟨d.mintTo, false, true⟩,
      ⟨d.decodedPool.managerFeeAccount, false, true⟩,
      ⟨d.mintTo, false, true⟩,
      ⟨d.decodedPool.poolMint, false, true⟩,
      ⟨lib.systemProgram, false, false⟩,
      ⟨d.decodedPool.tokenProgram, false, false⟩] ++
    d.decodedPool.solDepositAuthority.toList.map fun depositAuth => ⟨depositAuth, true, false⟩

/-- What comes after the decision: the deposit, of which nothing can fail. -/
def deposit (d : DepositTo Pubkey) (updates : List (List (UpdateIx Pubkey))) :
    DepositRun Pubkey where
  updates
  ixs := [.deposit (args.depositSolIx lib d)]

/-- `DepositSolArgs::run`. The account that is looked up is the one at `mintTo`. -/
def run [DecidableEq Pubkey] : Except Panic (DepositRun Pubkey) := do
  let (d, updates) ← args.prepare lib cli accounts
  let ixs ← d.createAtaIxs lib args.payer (accounts d.mintTo)
  let deposit := args.deposit lib d updates
  .ok { deposit with ixs := ixs ++ deposit.ixs }

end DepositSolArgs

/-! ## `deposit-stake` -/

/-- The command line of `deposit-stake`, with the send mode and the wallet of its config. -/
structure DepositStakeArgs (Pubkey : Type) where
  sendMode : TxSendMode
  payer : Pubkey
  authority : Option String
  mintTo : Option String
  pool : String
  stakeAccount : String

/-- What `deposit-stake` knows when it decides about the token account. -/
structure DepositStakeTo (Pubkey : Type) extends DepositTo Pubkey where
  stakeAccount : Pubkey
  stakeState : DepositedStakeState Pubkey
  voter : Pubkey
  currentEpoch : UInt64

namespace DepositStakeArgs

variable [DecidableEq Pubkey] (args : DepositStakeArgs Pubkey)

/-- The validator of the stake account, which has to be the preferred one if there is one. -/
def checkVoter (decodedPool : StakePool Pubkey) (stakeState : DepositedStakeState Pubkey) :
    Except Panic Pubkey := do
  let voter ← expect "Stake account not delegated" stakeState.voterPubkey
  match decodedPool.preferredDepositValidatorVoteAddress with
  | some preferred =>
    if preferred ≠ voter then
      .error (.explicit ("Stake account not staked to preferred voter " ++ lib.display preferred))
    else .ok voter
  | none => .ok voter

def checkAuthority (authority : Pubkey) (stakeState : DepositedStakeState Pubkey) :
    Except Panic Unit := do
  let authorized ← unwrap stakeState.authorized
  if authorized.staker ≠ authority ∨ authorized.withdrawer ≠ authority then
    .error (.explicit "Stake account not owned by authority")
  else .ok ()

/-- What comes before the decision about the token account. -/
def prepare : Except Panic (DepositStakeTo Pubkey) := do
  let authority ← psFallback cli args.sendMode args.payer args.authority
  let pool ← parsePubkey cli args.pool
  let stakeAccount ← parsePubkey cli args.stakeAccount
  let fetchedStakeAccount ← unwrap (accounts stakeAccount)
  let fetchedPool ← unwrap (accounts pool)
  let decodedPool ← unwrap fetchedPool.stakePool
  let stakeState ← unwrap fetchedStakeAccount.stakeState
  let voter ← checkVoter lib decodedPool stakeState
  checkAuthority authority stakeState
  let d ← DepositTo.ofArg cli pool fetchedPool.owner decodedPool authority args.mintTo
  let currentEpoch ← currentEpoch lib accounts
  .ok { d with stakeAccount, stakeState, voter, currentEpoch }

/-- What comes after the decision: the deposit, and the update that is sent before it. -/
def deposit (fullIxSeq : FullIxSeq Pubkey) (d : DepositStakeTo Pubkey) :
    Except Panic (DepositRun Pubkey) := do
  let validators ← validatorListEntries accounts d.decodedPool
  let vsi ← expect "Validator not part of stake pool"
    (validators.find? (·.voteAccountAddress = d.voter))
  let depositStakeAccounts :=
    { pool := d.pool
      stakePool := d.decodedPool
      stakeDepositing := d.stakeAccount
      stakeState := d.stakeState
      mintTo := d.mintTo
      referralFeeDest := d.mintTo }
  let ixs ← unwrap (fullIxSeq depositStakeAccounts d.programId vsi.voteAccountAddress
    vsi.validatorSeedSuffix 0)
  let updates ← updatePool (d.updatePoolArgs d.currentEpoch validators)
  .ok { updates, ixs := ixs.map .deposit }

/-- `DepositStakeArgs::run`. The account that is looked up is the one at the ATA. -/
def run (fullIxSeq : FullIxSeq Pubkey) : Except Panic (DepositRun Pubkey) := do
  let d ← args.prepare lib cli accounts
  let ixs ← d.createAtaIxs lib args.payer (accounts d.authorityAta)
  let deposit ← deposit accounts fullIxSeq d
  .ok { deposit with ixs := ixs ++ deposit.ixs }

end DepositStakeArgs

end StakePoolCli
