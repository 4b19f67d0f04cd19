import StakePoolCli.Interface.Lib

/-!
# The instructions of the stake pool program

An instruction is a program, a list of accounts and the data the program reads. The builders
`…Ix` take the accounts by name (the `…Keys` structures) and lay them out in the order of the
program's interface. Serializing the arguments into memory does not fail, so they are total.

`Instruction.validatorStakeAccount`, `Instruction.ephemeralStakeAccount` and the other projections
read an account back by its role, or an argument.
-/

namespace StakePoolCli

variable {Pubkey : Type}

/-- The arguments of the two instructions that go through an ephemeral stake account. -/
structure AdditionalValidatorStakeArgs where
  lamports : UInt64
  transientStakeSeed : UInt64
  ephemeralStakeSeed : UInt64
  deriving DecidableEq, Repr

/-- The data of an instruction: which one it is, and its arguments. -/
inductive IxData (Pubkey : Type)
  | setFee (fee : FeeType)
  | setFundingAuthority (auth : FundingType)
  | setManager
  | setStaker
  | setPreferredValidator (validatorType : PreferredValidatorType)
      (validatorVoteAddress : Option Pubkey)
  | addValidatorToPool (optionalSeed : UInt32)
  | removeValidatorFromPool
  | decreaseAdditionalValidatorStake (args : AdditionalValidatorStakeArgs)
  | increaseAdditionalValidatorStake (args : AdditionalValidatorStakeArgs)
  deriving DecidableEq, Repr

structure Instruction (Pubkey : Type) where
  programId : Pubkey
  accounts : List Pubkey
  data : IxData Pubkey
  deriving DecidableEq, Repr

/-! ## Instructions of the manager -/

structure SetFeeKeys (Pubkey : Type) where
  stakePool : Pubkey
  manager : Pubkey

def setFeeIx (programId : Pubkey) (keys : SetFeeKeys Pubkey) (fee : FeeType) :
    Instruction Pubkey where
  programId
  accounts := [keys.stakePool, keys.manager]
  data := .setFee fee

structure SetFundingAuthorityKeys (Pubkey : Type) where
  stakePool : Pubkey
  manager : Pubkey
  newFundingAuthority : Pubkey

def setFundingAuthorityIx (programId : Pubkey) (keys : SetFundingAuthorityKeys Pubkey)
    (auth : FundingType) : Instruction Pubkey where
  programId
  accounts := [keys.stakePool, keys.manager, keys.newFundingAuthority]
  data := .setFundingAuthority auth

structure SetManagerKeys (Pubkey : Type) where
  stakePool : Pubkey
  manager : Pubkey
  newManager : Pubkey
  newManagerFeeAccount : Pubkey

def setManagerIx (programId : Pubkey) (keys : SetManagerKeys Pubkey) : Instruction Pubkey where
  programId
  accounts := [keys.stakePool, keys.manager, keys.newManager, keys.newManagerFeeAccount]
  data := .setManager

structure SetStakerKeys (Pubkey : Type) where
  stakePool : Pubkey
  signer : Pubkey
  newStaker : Pubkey

def setStakerIx (programId : Pubkey) (keys : SetStakerKeys Pubkey) : Instruction Pubkey where
  programId
  accounts := [keys.stakePool, keys.signer, keys.newStaker]
  data := .setStaker

/-! ## Instructions of the staker -/

structure SetPreferredValidatorKeys (Pubkey : Type) where
  stakePool : Pubkey
  staker : Pubkey
  validatorList : Pubkey

def setPreferredValidatorIx (programId : Pubkey) (keys : SetPreferredValidatorKeys Pubkey)
    (validatorType : PreferredValidatorType) (validatorVoteAddress : Option Pubkey) :
    Instruction Pubkey where
  programId
  accounts := [keys.stakePool, keys.staker, keys.validatorList]
  data := .setPreferredValidator validatorType validatorVoteAddress

structure AddValidatorToPoolKeys (Pubkey : Type) where
  stakePool : Pubkey
  staker : Pubkey
  reserveStake : Pubkey
  withdrawAuthority : Pubkey
  validatorList : Pubkey
  validatorStakeAccount : Pubkey
  voteAccount : Pubkey
  rent : Pubkey
  clock : Pubkey
  stakeHistory : Pubkey
  stakeConfig : Pubkey
  systemProgram : Pubkey
  stakeProgram : Pubkey

def addValidatorToPoolIx (programId : Pubkey) (keys : AddValidatorToPoolKeys Pubkey)
    (optionalSeed : UInt32) : Instruction Pubkey where
  programId
  accounts := [keys.stakePool, keys.staker, keys.reserveStake, keys.withdrawAuthority,
    keys.validatorList, keys.validatorStakeAccount, keys.voteAccount, keys.rent, keys.clock,
    keys.stakeHistory, keys.stakeConfig, keys.systemProgram, keys.stakeProgram]
  data := .addValidatorToPool optionalSeed

structure RemoveValidatorFromPoolKeys (Pubkey : Type) where
  stakePool : Pubkey
  staker : Pubkey
  withdrawAuthority : Pubkey
  validatorList : Pubkey
  validatorStakeAccount : Pubkey
  transientStakeAccount : Pubkey
  clock : Pubkey
  stakeProgram : Pubkey

def removeValidatorFromPoolIx (programId : Pubkey) (keys : RemoveValidatorFromPoolKeys Pubkey) :
    Instruction Pubkey where
  programId
  accounts := [keys.stakePool, keys.staker, keys.withdrawAuthority, keys.validatorList,
    keys.validatorStakeAccount, keys.transientStakeAccount, keys.clock, keys.stakeProgram]
  data := .removeValidatorFromPool

structure DecreaseAdditionalValidatorStakeKeys (Pubkey : Type) where
  stakePool : Pubkey
  staker : Pubkey
  withdrawAuthority : Pubkey
  validatorList : Pubkey
  reserveStake : Pubkey
  validatorStakeAccount : Pubkey
  ephemeralStakeAccount : Pubkey
  transientStakeAccount : Pubkey
  clock : Pubkey
  stakeHistory : Pubkey
  systemProgram : Pubkey
  stakeProgram : Pubkey

def decreaseAdditionalValidatorStakeIx (programId : Pubkey)
    (keys : DecreaseAdditionalValidatorStakeKeys Pubkey) (args : AdditionalValidatorStakeArgs) :
    Instruction Pubkey where
  programId
  accounts := [keys.stakePool, keys.staker, keys.withdrawAuthority, keys.validatorList,
    keys.reserveStake, keys.validatorStakeAccount, keys.ephemeralStakeAccount,
    keys.transientStakeAccount, keys.clock, keys.stakeHistory, keys.systemProgram,
    keys.stakeProgram]
  data := .decreaseAdditionalValidatorStake args

structure IncreaseAdditionalValidatorStakeKeys (Pubkey : Type) where
  stakePool : Pubkey
  staker : Pubkey
  withdrawAuthority : Pubkey
  validatorList : Pubkey
  reserveStake : Pubkey
  ephemeralStakeAccount : Pubkey
  transientStakeAccount : Pubkey
  validatorStakeAccount : Pubkey
  voteAccount : Pubkey
  clock : Pubkey
  stakeHistory : Pubkey
  stakeConfig : Pubkey
  systemProgram : Pubkey
  stakeProgram : Pubkey

def increaseAdditionalValidatorStakeIx (programId : Pubkey)
    (keys : IncreaseAdditionalValidatorStakeKeys Pubkey) (args : AdditionalValidatorStakeArgs) :
    Instruction Pubkey where
  programId
  accounts := [keys.stakePool, keys.staker, keys.withdrawAuthority, keys.validatorList,
    keys.reserveStake, keys.ephemeralStakeAccount, keys.transientStakeAccount,
    keys.validatorStakeAccount, keys.voteAccount, keys.clock, keys.stakeHistory,
    keys.stakeConfig, keys.systemProgram, keys.stakeProgram]
  data := .increaseAdditionalValidatorStake args

/-! ## Reading accounts by role -/

/-- The validator stake account among an instruction's accounts. -/
def Instruction.validatorStakeAccount (ix : Instruction Pubkey) : Option Pubkey :=
  match ix.data with
  | .addValidatorToPool _ => ix.accounts[5]?
  | .removeValidatorFromPool => ix.accounts[4]?
  | .decreaseAdditionalValidatorStake _ => ix.accounts[5]?
  | .increaseAdditionalValidatorStake _ => ix.accounts[7]?
  | _ => none

/-- The ephemeral stake account among an instruction's accounts. -/
def Instruction.ephemeralStakeAccount (ix : Instruction Pubkey) : Option Pubkey :=
  match ix.data with
  | .decreaseAdditionalValidatorStake _ => ix.accounts[6]?
  | .increaseAdditionalValidatorStake _ => ix.accounts[5]?
  | _ => none

/-- The transient stake account among an instruction's accounts. -/
def Instruction.transientStakeAccount (ix : Instruction Pubkey) : Option Pubkey :=
  match ix.data with
  | .removeValidatorFromPool => ix.accounts[5]?
  | .decreaseAdditionalValidatorStake _ => ix.accounts[7]?
  | .increaseAdditionalValidatorStake _ => ix.accounts[6]?
  | _ => none

/-- The vote account among an instruction's accounts. -/
def Instruction.voteAccount (ix : Instruction Pubkey) : Option Pubkey :=
  match ix.data with
  | .addValidatorToPool _ => ix.accounts[6]?
  | .increaseAdditionalValidatorStake _ => ix.accounts[8]?
  | _ => none

/-- The seed of the ephemeral stake account in an instruction's arguments. -/
def Instruction.ephemeralStakeSeed (ix : Instruction Pubkey) : Option UInt64 :=
  match ix.data with
  | .decreaseAdditionalValidatorStake args => some args.ephemeralStakeSeed
  | .increaseAdditionalValidatorStake args => some args.ephemeralStakeSeed
  | _ => none

/-- The arguments of a decrease. -/
def Instruction.decreaseArgs (ix : Instruction Pubkey) : Option AdditionalValidatorStakeArgs :=
  match ix.data with
  | .decreaseAdditionalValidatorStake args => some args
  | _ => none

/-- The arguments of an increase. -/
def Instruction.increaseArgs (ix : Instruction Pubkey) : Option AdditionalValidatorStakeArgs :=
  match ix.data with
  | .increaseAdditionalValidatorStake args => some args
  | _ => none

section

variable (programId : Pubkey) (args : AdditionalValidatorStakeArgs)

@[simp] theorem validatorStakeAccount_decreaseIx
    (keys : DecreaseAdditionalValidatorStakeKeys Pubkey) :
    (decreaseAdditionalValidatorStakeIx programId keys args).validatorStakeAccount =
      some keys.validatorStakeAccount := rfl

@[simp] theorem validatorStakeAccount_increaseIx
    (keys : IncreaseAdditionalValidatorStakeKeys Pubkey) :
    (increaseAdditionalValidatorStakeIx programId keys args).validatorStakeAccount =
      some keys.validatorStakeAccount := rfl

@[simp] theorem validatorStakeAccount_removeIx (keys : RemoveValidatorFromPoolKeys Pubkey) :
    (removeValidatorFromPoolIx programId keys).validatorStakeAccount =
      some keys.validatorStakeAccount := rfl

@[simp] theorem ephemeralStakeAccount_decreaseIx
    (keys : DecreaseAdditionalValidatorStakeKeys Pubkey) :
    (decreaseAdditionalValidatorStakeIx programId keys args).ephemeralStakeAccount =
      some keys.ephemeralStakeAccount := rfl

@[simp] theorem ephemeralStakeAccount_increaseIx
    (keys : IncreaseAdditionalValidatorStakeKeys Pubkey) :
    (increaseAdditionalValidatorStakeIx programId keys args).ephemeralStakeAccount =
      some keys.ephemeralStakeAccount := rfl

@[simp] theorem transientStakeAccount_decreaseIx
    (keys : DecreaseAdditionalValidatorStakeKeys Pubkey) :
    (decreaseAdditionalValidatorStakeIx programId keys args).transientStakeAccount =
      some keys.transientStakeAccount := rfl

@[simp] theorem transientStakeAccount_increaseIx
    (keys : IncreaseAdditionalValidatorStakeKeys Pubkey) :
    (increaseAdditionalValidatorStakeIx programId keys args).transientStakeAccount =
      some keys.transientStakeAccount := rfl

@[simp] theorem voteAccount_increaseIx (keys : IncreaseAdditionalValidatorStakeKeys Pubkey) :
    (increaseAdditionalValidatorStakeIx programId keys args).voteAccount =
      some keys.voteAccount := rfl

@[simp] theorem decreaseArgs_decreaseIx (keys : DecreaseAdditionalValidatorStakeKeys Pubkey) :
    (decreaseAdditionalValidatorStakeIx programId keys args).decreaseArgs = some args := rfl

@[simp] theorem decreaseArgs_increaseIx (keys : IncreaseAdditionalValidatorStakeKeys Pubkey) :
    (increaseAdditionalValidatorStakeIx programId keys args).decreaseArgs = none := rfl

@[simp] theorem increaseArgs_increaseIx (keys : IncreaseAdditionalValidatorStakeKeys Pubkey) :
    (increaseAdditionalValidatorStakeIx programId keys args).increaseArgs = some args := rfl

end

end StakePoolCli
