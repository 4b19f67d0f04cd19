import StakePoolCli.Interface.Instruction
import StakePoolCli.Foundations.Reconcile

/-!
# The manager's instructions, as the program executes them

What is assumed of the stake pool program. An instruction of the manager is executed if and only if
it is for this program and this pool and its signer is the pool's manager at that time (`exec`).
Three of the fees take effect at an epoch boundary: setting one makes it the next fee but one
(`StakePool.setFee`), and an epoch boundary moves it on by one place (`StakePool.epochUpdate`).
-/

namespace StakePoolCli

variable {Pubkey : Type}

namespace FutureEpochFee

/-- The current fee after an epoch boundary at which `next` was pending. -/
def current (next : FutureEpochFee) (fee : Fee) : Fee :=
  match next with
  | .one fee' => fee'
  | .none | .two _ => fee

/-- What is pending after an epoch boundary. -/
def advance : FutureEpochFee → FutureEpochFee
  | .two fee => .one fee
  | .none | .one _ => .none

/-- The pending fee, wherever it stands. -/
def pending? : FutureEpochFee → Option Fee
  | .none => Option.none
  | .one fee | .two fee => some fee

end FutureEpochFee

namespace StakePool

/-- `SetFee` -/
def setFee (fee : FeeType) (sp : StakePool Pubkey) : StakePool Pubkey :=
  match fee with
  | .epoch fee => { sp with nextEpochFee := .two fee }
  | .stakeWithdrawal fee => { sp with nextStakeWithdrawalFee := .two fee }
  | .solWithdrawal fee => { sp with nextSolWithdrawalFee := .two fee }
  | .solReferral fee => { sp with solReferralFee := fee }
  | .stakeReferral fee => { sp with stakeReferralFee := fee }
  | .solDeposit fee => { sp with solDepositFee := fee }
  | .stakeDeposit fee => { sp with stakeDepositFee := fee }

/-- `SetFundingAuthority`. Without a new one, deposits of stake fall back to the default. -/
def setFundingAuthority (defaultDepositAuth : Pubkey) (ty : FundingType) (new : Option Pubkey)
    (sp : StakePool Pubkey) : StakePool Pubkey :=
  match ty with
  | .stakeDeposit => { sp with stakeDepositAuthority := new.getD defaultDepositAuth }
  | .solDeposit => { sp with solDepositAuthority := new }
  | .solWithdraw => { sp with solWithdrawAuthority := new }

/-- The fees at an epoch boundary. -/
def epochUpdate (sp : StakePool Pubkey) : StakePool Pubkey :=
  { sp with
    epochFee := sp.nextEpochFee.current sp.epochFee
    nextEpochFee := sp.nextEpochFee.advance
    stakeWithdrawalFee := sp.nextStakeWithdrawalFee.current sp.stakeWithdrawalFee
    nextStakeWithdrawalFee := sp.nextStakeWithdrawalFee.advance
    solWithdrawalFee := sp.nextSolWithdrawalFee.current sp.solWithdrawalFee
    nextSolWithdrawalFee := sp.nextSolWithdrawalFee.advance }

/-- The effect of an instruction, given the accounts after the pool and the signer. -/
def execData (defaultDepositAuth : Pubkey) (sp : StakePool Pubkey) :
    IxData Pubkey → List Pubkey → Option (StakePool Pubkey)
  | .setFee fee, [] => some (sp.setFee fee)
  | .setFundingAuthority ty, [] => some (sp.setFundingAuthority defaultDepositAuth ty none)
  | .setFundingAuthority ty, [new] =>
    some (sp.setFundingAuthority defaultDepositAuth ty (some new))
  | .setManager, [newManager, newManagerFeeAccount] =>
    some { sp with manager := newManager, managerFeeAccount := newManagerFeeAccount }
  | .setStaker, [newStaker] => some { sp with staker := newStaker }
  | _, _ => none

end StakePool

variable [DecidableEq Pubkey] (lib : StakePoolLib Pubkey)

/-- The execution of an instruction of the manager. -/
def exec (programId pool : Pubkey) (ix : Instruction Pubkey) (sp : StakePool Pubkey) :
    Option (StakePool Pubkey) :=
  match ix.accounts with
  | stakePool :: signer :: rest =>
    if ix.programId = programId ∧ stakePool = pool ∧ signer = sp.manager then
      sp.execData (lib.findDepositAuthority programId pool) ix.data rest
    else none
  | _ => none

/-- The execution of a transaction. -/
def execAll (programId pool : Pubkey) : List (Instruction Pubkey) → StakePool Pubkey →
    Option (StakePool Pubkey) :=
  Reconcile.run (exec lib programId pool)

end StakePoolCli
