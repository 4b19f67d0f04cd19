import StakePoolCli.Subcmd.CreatePool
import StakePoolCli.Subcmd.Deposit

/-!
# The accounts of a new pool

`pool_config/create.rs`, and the part of `subcmd/create_pool.rs` that decides what it sends first.
The first transaction makes the reserve and the manager's fee account, where they do not exist; the
second one hands the mint over, makes the validator list and the pool, and initializes it.
They are two because one would be too large.

The reserve is funded for the validators that the pool starts with (`CreateConfig.reserveLamports`).
The accounts of `Initialize` are resolved by the library; here it records what it is given.
-/

namespace StakePoolCli

open Checked

variable {Pubkey : Type}

/-- What creating a pool takes from the library besides. -/
structure CreateLib where
  /-- `min_reserve_lamports` -/
  minReserveLamports : Rent → UInt64
  /-- `STAKE_POOL_SIZE` -/
  stakePoolSize : ℕ

/-- `saturating_mul` -/
def saturatingMul (a b : UInt64) : UInt64 :=
  if a.toNat * b.toNat < 2 ^ 64 then a * b else u64Max

theorem toNat_saturatingMul_of_lt {a b : UInt64} (h : a.toNat * b.toNat < 2 ^ 64) :
    (saturatingMul a b).toNat = a.toNat * b.toNat := by
  rw [saturatingMul, if_pos h, UInt64.toNat_mul, Nat.mod_eq_of_lt h]

/-! ## Instructions -/

/-- The accounts that the library resolves `Initialize` from. -/
structure Initialize (Pubkey : Type) where
  poolTokenMint : Pubkey
  /-- The owner of the mint's account. -/
  tokenProgram : Pubkey
  stakePool : Pubkey
  manager : Pubkey
  staker : Pubkey
  validatorList : Pubkey
  reserveStake : Pubkey
  managerFeeAccount : Pubkey
  deriving DecidableEq, Repr

structure InitializeIxArgs where
  fee : Fee
  withdrawalFee : Fee
  depositFee : Fee
  referralFee : UInt8
  maxValidators : UInt32
  deriving DecidableEq, Repr

/-- The instructions that make the accounts of a pool. -/
inductive CreateIx (Pubkey : Type)
  /-- `system_instruction::create_account` -/
  | createAccount (funder newAccount : Pubkey) (lamports : UInt64) (space : ℕ) (owner : Pubkey)
  /-- `stake::instruction::initialize`, with the default lockup -/
  | initializeStake (stake : Pubkey) (authorized : Authorized Pubkey)
  | createIdempotent (keys : CreateIdempotentKeys Pubkey)
  /-- `SetAuthority` of the token program, for `AuthorityType::MintTokens` -/
  | setMintAuthority (tokenProgram mint authority newAuthority : Pubkey)
  | initializePool (programId : Pubkey) (accounts : Initialize Pubkey) (args : InitializeIxArgs)
      (depositAuth : Option Pubkey)
  deriving DecidableEq, Repr

/-- The length of a serialized entry of the validator list. -/
def validatorStakeInfoSize : ℕ := 8 + 8 + 8 + 8 + 4 + 4 + 1 + 32

/-- The length of a serialized validator list: its header, the number of its entries, and them. -/
def validatorListSize (maxValidators : UInt32) : ℕ :=
  (1 + 4) + 4 + validatorStakeInfoSize * maxValidators.toNat

namespace CreateConfig

variable (clib : CreateLib) (lib : StakePoolLib Pubkey) (cc : CreateConfig Pubkey)

/-- The lamports that the reserve is made with. -/
def reserveLamports : UInt64 :=
  saturatingAdd (clib.minReserveLamports cc.rent)
    (saturatingMul (UInt64.ofNat cc.startingValidators) (lamportsForNewVsa cc.rent))

def createReserveTxIxs : List (CreateIx Pubkey) :=
  let poolWithdrawAuth := lib.findWithdrawAuthority cc.programId cc.pool
  [.createAccount cc.payer cc.reserve (cc.reserveLamports clib) stakeStateSize lib.stakeProgram,
    .initializeStake cc.reserve (.auto poolWithdrawAuth)]

def initializeTxIxs : List (CreateIx Pubkey) :=
  let poolWithdrawAuth := lib.findWithdrawAuthority cc.programId cc.pool
  let validatorListSize := validatorListSize cc.maxValidators
  [.setMintAuthority cc.mintOwner cc.mint cc.manager poolWithdrawAuth,
    .createAccount cc.payer cc.validatorList (cc.rent.minimumBalance validatorListSize)
      validatorListSize cc.programId,
    .createAccount cc.payer cc.pool (cc.rent.minimumBalance clib.stakePoolSize) clib.stakePoolSize
      cc.programId,
    .initializePool cc.programId
      { poolTokenMint := cc.mint
        tokenProgram := cc.mintOwner
        stakePool := cc.pool
        manager := cc.manager
        staker := cc.staker
        validatorList := cc.validatorList
        reserveStake := cc.reserve
        managerFeeAccount := cc.managerFeeAccount }
      { fee := cc.epochFee
        withdrawalFee := cc.withdrawalFee
        depositFee := cc.depositFee
        referralFee := cc.depositReferralFee
        maxValidators := cc.maxValidators }
      cc.depositAuth]

/-- The reserve has the minimum and pays for every validator that the pool starts with. -/
theorem toNat_reserveLamports (hstarting : cc.startingValidators < 2 ^ 32)
    (hfits : (clib.minReserveLamports cc.rent).toNat +
      cc.startingValidators * (lamportsForNewVsa cc.rent).toNat < 2 ^ 64) :
    (cc.reserveLamports clib).toNat = (clib.minReserveLamports cc.rent).toNat +
      cc.startingValidators * (lamportsForNewVsa cc.rent).toNat := by
  have hofNat : (UInt64.ofNat cc.startingValidators).toNat = cc.startingValidators :=
    UInt64.toNat_ofNat_of_lt' (hstarting.trans (by decide))
  have hmul : (saturatingMul (UInt64.ofNat cc.startingValidators)
      (lamportsForNewVsa cc.rent)).toNat =
        cc.startingValidators * (lamportsForNewVsa cc.rent).toNat := by
    rw [toNat_saturatingMul_of_lt, hofNat]
    rw [hofNat]
    omega
  rw [reserveLamports, toNat_saturatingAdd, hmul]
  omega

end CreateConfig

namespace CreatePoolArgs

variable (clib : CreateLib) (lib : StakePoolLib Pubkey) (fetched : CreatePoolFetched Pubkey)
  (np : NewPool Pubkey)

/-- The instructions of the first transaction, which is not sent if there are none. -/
def firstIxs : List (CreateIx Pubkey) :=
  (if (fetched.reserve np.reserve).isSome then []
    else (np.createConfig lib).createReserveTxIxs clib lib) ++
  if fetched.exists? np.managerFeeAccount then []
  else
    [.createIdempotent
      { fundingAccount := np.payer
        associatedTokenAccount := np.managerFeeAccount
        wallet := np.manager
        mint := np.mint
        systemProgram := lib.systemProgram
        tokenProgram := np.mintOwner }]

/-- The account that is made for the reserve is funded for the first validators. -/
theorem lamports_of_mem_firstIxs {lamports : UInt64} {funder : Pubkey} {space : ℕ} {owner : Pubkey}
    (h : .createAccount funder np.reserve lamports space owner ∈ firstIxs clib lib fetched np) :
    lamports = (np.createConfig lib).reserveLamports clib := by
  rcases List.mem_append.mp h with h | h
  · split_ifs at h
    · cases h
    · simp only [CreateConfig.createReserveTxIxs, List.mem_cons, CreateIx.createAccount.injEq,
        reduceCtorEq, List.not_mem_nil, or_false] at h
      exact h.2.2.1
  · split_ifs at h
    · cases h
    · simp at h

variable {fetched np} in
/-- A reserve that does not exist is made. -/
theorem createAccount_mem_firstIxs (h : fetched.reserve np.reserve = none) :
    .createAccount np.payer np.reserve ((np.createConfig lib).reserveLamports clib) stakeStateSize
      lib.stakeProgram ∈ firstIxs clib lib fetched np := by
  rw [firstIxs, h, Option.isSome_none, if_neg Bool.false_ne_true]
  exact List.mem_append_left _ List.mem_cons_self

end CreatePoolArgs

end StakePoolCli
