import StakePoolCli.Deposit.MintTo
import StakePoolCli.Subcmd.WithdrawStake

/-!
# What a withdrawal withdraws

A withdrawal decides three things: how many tokens to burn (`TokenAmtOrAll.Burns`), which validator
to take stake from (`WithdrawStakeFrom.Chosen`), and where to put the stake
(`FirstUnused`). `withdraw_stake_eq_ok_iff` says that it succeeds exactly when all three can be
decided and the update can be planned, and what it sends then; and how it stops when it is the seed
that is missing.

That an address can be derived from every seed is a matter of the length of a seed, which is at most
ten digits (`length_toString_le`).
-/

namespace StakePoolCli

open Checked Scan

variable {Pubkey : Type}

/-! ## The tokens -/

/-- The tokens to burn, which the balance covers. -/
structure TokenAmtOrAll.Burns (tokenAmt : TokenAmtOrAll) (balance amt : UInt64) : Prop where
  le : amt ≤ balance
  all : tokenAmt = .all → amt = balance
  amt : ∀ a, tokenAmt = .amt a → amt = a

namespace WithdrawStakeArgs

variable {wlib : WithdrawLib Pubkey} {args : WithdrawStakeArgs Pubkey}

theorem amt_eq_ok {balance amt : UInt64} :
    args.amt wlib balance = .ok amt ↔ args.tokenAmt.Burns balance amt := by
  unfold WithdrawStakeArgs.amt
  cases h : args.tokenAmt with
  | all =>
    constructor
    · intro hok
      obtain rfl := Except.ok.inj hok
      exact ⟨UInt64.le_refl _, fun _ => rfl, nofun⟩
    · exact fun hburns => congrArg Except.ok (hburns.all rfl).symm
  | amt a =>
    constructor
    · intro hok
      dsimp only at hok
      split_ifs at hok with hle
      obtain rfl := Except.ok.inj hok
      exact ⟨UInt64.not_lt.mp hle, nofun, fun _ ha => TokenAmtOrAll.amt.inj ha⟩
    · intro hburns
      obtain rfl := hburns.amt a rfl
      exact if_neg (UInt64.not_lt.mpr hburns.le)

end WithdrawStakeArgs

/-! ## The validator -/

/-- The entry of a validator: the first one, if there were several. -/
def IsEntryOf (validators : List (ValidatorStakeInfo Pubkey)) (vote : Pubkey)
    (vsi : ValidatorStakeInfo Pubkey) : Prop :=
  vsi.voteAccountAddress = vote ∧ ∃ before after, validators = before ++ vsi :: after ∧
    ∀ vsi' ∈ before, vsi'.voteAccountAddress ≠ vote

theorem find?_eq_some_iff_isEntryOf [DecidableEq Pubkey]
    {validators : List (ValidatorStakeInfo Pubkey)} {vote : Pubkey}
    {vsi : ValidatorStakeInfo Pubkey} :
    validators.find? (·.voteAccountAddress = vote) = some vsi ↔ IsEntryOf validators vote vsi := by
  rw [List.find?_eq_some_iff_append]
  simp [IsEntryOf]

/-- The validator that a withdrawal takes stake from. The one that the pool prefers is the only one
that may be asked for; the one with the most active stake is taken only if none is asked for. -/
inductive WithdrawStakeFrom.Chosen (w : WithdrawStakeFrom Pubkey)
    (vsi : ValidatorStakeInfo Pubkey) : Prop
  | preferred (vote : Pubkey)
      (hpreferred : w.decodedPool.preferredWithdrawValidatorVoteAddress = some vote)
      (hvalidator : ∀ v ∈ w.validator, v = vote) (hentry : IsEntryOf w.validators vote vsi)
  | asked (vote : Pubkey)
      (hpreferred : w.decodedPool.preferredWithdrawValidatorVoteAddress = none)
      (hvalidator : w.validator = some vote) (hentry : IsEntryOf w.validators vote vsi)
  | largest (hpreferred : w.decodedPool.preferredWithdrawValidatorVoteAddress = none)
      (hvalidator : w.validator = none)
      (hlargest : IsLastMax (·.activeStakeLamports) w.validators vsi)

theorem vsi_eq_ok [DecidableEq Pubkey] {lib : StakePoolLib Pubkey} {w : WithdrawStakeFrom Pubkey}
    {vsi : ValidatorStakeInfo Pubkey} :
    WithdrawStakeArgs.vsi lib w.decodedPool w.validators w.validator = .ok vsi ↔
      w.Chosen vsi := by
  unfold WithdrawStakeArgs.vsi
  cases hpreferred : w.decodedPool.preferredWithdrawValidatorVoteAddress with
  | some preferred =>
    cases hvalidator : w.validator with
    | none =>
      rw [unwrap_eq_ok, find?_eq_some_iff_isEntryOf]
      constructor
      · exact .preferred preferred hpreferred (by simp [hvalidator])
      · rintro (⟨_, h, -, hentry⟩ | ⟨_, h, -, -⟩ | ⟨h, -, -⟩)
        · obtain rfl := Option.some.inj (hpreferred.symm.trans h)
          exact hentry
        · cases hpreferred.symm.trans h
        · cases hpreferred.symm.trans h
    | some v =>
      dsimp only
      constructor
      · intro h
        split_ifs at h with hv
        rw [unwrap_eq_ok, find?_eq_some_iff_isEntryOf] at h
        exact .preferred preferred hpreferred (by simpa [hvalidator] using hv) h
      · rintro (⟨_, h, hv, hentry⟩ | ⟨_, h, -, -⟩ | ⟨h, -, -⟩)
        · obtain rfl := Option.some.inj (hpreferred.symm.trans h)
          rw [if_neg (not_not.mpr (hv v hvalidator)), unwrap_eq_ok, find?_eq_some_iff_isEntryOf]
          exact hentry
        · cases hpreferred.symm.trans h
        · cases hpreferred.symm.trans h
  | none =>
    cases hvalidator : w.validator with
    | none =>
      rw [expect_eq_ok, maxByKey_eq_some]
      constructor
      · exact .largest hpreferred hvalidator
      · rintro (⟨_, h, -, -⟩ | ⟨_, -, h, -⟩ | ⟨-, -, hlargest⟩)
        · cases hpreferred.symm.trans h
        · cases hvalidator.symm.trans h
        · exact hlargest
    | some v =>
      dsimp only [findValidator]
      rw [expect_eq_ok, find?_eq_some_iff_isEntryOf]
      constructor
      · exact .asked v hpreferred hvalidator
      · rintro (⟨_, h, -, -⟩ | ⟨_, -, h, hentry⟩ | ⟨-, h, -⟩)
        · cases hpreferred.symm.trans h
        · obtain rfl := Option.some.inj (hvalidator.symm.trans h)
          exact hentry
        · cases hvalidator.symm.trans h

/-! ## The new stake account -/

/-- A seed is at most ten digits. -/
theorem length_toString_le (seed : UInt32) : (toString seed.toNat).length ≤ 10 := by
  apply (Nat.length_repr_le_iff (by decide)).mpr
  have := seed.toNat_lt
  omega

/-- An address is derived from every number that is not longer than a seed may be. -/
def WithdrawLib.DerivesNumbers (lib : StakePoolLib Pubkey) (wlib : WithdrawLib Pubkey) : Prop :=
  ∀ base (n : ℕ), (toString n).length ≤ 32 →
    ∃ pk, wlib.createWithSeed base (toString n) lib.stakeProgram = some pk

section

variable (lib : StakePoolLib Pubkey) (wlib : WithdrawLib Pubkey)
  (accounts : Pubkey → Option (WithdrawAccount Pubkey)) (rng : ℕ → UInt32) (authority : Pubkey)

/-- There is an account at the address of a seed. -/
def SeedUsed (seed : UInt32) : Prop :=
  ∃ pk, wlib.createWithSeed authority (toString seed.toNat) lib.stakeProgram = some pk ∧
    accounts pk ≠ none

/-- The new account is where the first unused seed says, with what was tried before. -/
structure FirstUnused (splitTo : Pubkey) (seed : String) : Prop where
  unused : accounts splitTo = none
  derived : wlib.createWithSeed authority seed lib.stakeProgram = some splitTo
  first : ∃ i < maxAttempts, seed = toString (rng i).toNat ∧
    ∀ j < i, SeedUsed lib wlib accounts authority (rng j)

variable {lib wlib accounts rng authority}

theorem tryStakeProgCreateWithSeed_eq_none {seed : UInt32} :
    tryStakeProgCreateWithSeed lib wlib accounts authority seed = .ok none ↔
      SeedUsed lib wlib accounts authority seed := by
  simp [tryStakeProgCreateWithSeed, SeedUsed, bind_eq_ok, unwrap_eq_ok]

theorem tryStakeProgCreateWithSeed_eq_some {seed : UInt32} {splitTo : Pubkey} {text : String} :
    tryStakeProgCreateWithSeed lib wlib accounts authority seed = .ok (some (splitTo, text)) ↔
      text = toString seed.toNat ∧ accounts splitTo = none ∧
        wlib.createWithSeed authority text lib.stakeProgram = some splitTo := by
  simp only [tryStakeProgCreateWithSeed, bind_eq_ok, unwrap_eq_ok, Except.ok.injEq,
    Option.ite_none_right_eq_some, Option.isNone_iff_eq_none, Option.some.injEq, Prod.mk.injEq]
  constructor
  · rintro ⟨pk, hpk, hnone, rfl, rfl⟩
    exact ⟨rfl, hnone, hpk⟩
  · rintro ⟨rfl, hnone, hpk⟩
    exact ⟨splitTo, hpk, hnone, rfl, rfl⟩

theorem findUnusedStakeProgCreateWithSeed_eq_ok {splitTo : Pubkey} {seed : String} :
    findUnusedStakeProgCreateWithSeed lib wlib accounts rng authority = .ok (splitTo, seed) ↔
      FirstUnused lib wlib accounts rng authority splitTo seed := by
  rw [findUnusedStakeProgCreateWithSeed, firstOf_range_eq_ok]
  simp only [tryStakeProgCreateWithSeed_eq_none, tryStakeProgCreateWithSeed_eq_some]
  constructor
  · rintro ⟨i, hi, hused, hseed, hunused, hderived⟩
    exact ⟨hunused, hderived, i, hi, hseed, hused⟩
  · rintro ⟨hunused, hderived, i, hi, hseed, hused⟩
    exact ⟨i, hi, hused, hseed, hunused, hderived⟩

/-- No account is found only if there is one at the address of every seed that is tried. -/
theorem findUnusedStakeProgCreateWithSeed_eq_error (hlib : wlib.DerivesNumbers lib) {e : Panic} :
    findUnusedStakeProgCreateWithSeed lib wlib accounts rng authority = .error e ↔
      e = unusedSeedMissing ∧
        ∀ i < maxAttempts, SeedUsed lib wlib accounts authority (rng i) := by
  rw [findUnusedStakeProgCreateWithSeed, firstOf_eq_error]
  · simp [tryStakeProgCreateWithSeed_eq_none]
  · intro seed _
    obtain ⟨pk, hpk⟩ := hlib authority seed.toNat ((length_toString_le seed).trans (by decide))
    rw [tryStakeProgCreateWithSeed, hpk]
    exact ⟨_, rfl⟩

end

/-! ## The withdrawal -/

section

variable [DecidableEq Pubkey] {lib : StakePoolLib Pubkey} {cli : CliLib Pubkey}
  {wlib : WithdrawLib Pubkey} {accounts : Pubkey → Option (WithdrawAccount Pubkey)}
  {args : WithdrawStakeArgs Pubkey} {w : WithdrawStakeFrom Pubkey}
  (hw : args.prepare cli accounts = .ok w) {rng : ℕ → UInt32}
include hw

theorem withdrawRun_eq_ok {run : WithdrawRun Pubkey} :
    args.run lib cli wlib accounts rng = .ok run ↔
      ∃ amt vsi splitTo seed rent epoch, args.tokenAmt.Burns w.amount amt ∧ w.Chosen vsi ∧
        FirstUnused lib wlib accounts rng w.authority splitTo seed ∧
        (accounts lib.rent).bind (·.rent) = some rent ∧
        (accounts lib.clock).bind (·.epoch) = some epoch ∧
        updatePool (WithdrawStakeArgs.updatePoolArgs w epoch) = .ok run.updates ∧
        run.ixs = args.ixs lib w amt vsi splitTo seed rent := by
  obtain ⟨updates, ixs⟩ := run
  unfold WithdrawStakeArgs.run
  rw [hw, ok_bind]
  simp only [bind_eq_ok, unwrap_eq_ok, Prod.exists, WithdrawStakeArgs.amt_eq_ok, vsi_eq_ok,
    findUnusedStakeProgCreateWithSeed_eq_ok, Option.bind_eq_some_iff, Except.ok.injEq,
    WithdrawRun.mk.injEq]
  constructor
  · rintro ⟨amt, hamt, vsi, hvsi, splitTo, seed, hseed, rentAcc, hrentAcc, rent, hrent, clockAcc,
      hclockAcc, epoch, hepoch, updates', hupdates, rfl, rfl⟩
    exact ⟨amt, vsi, splitTo, seed, rent, epoch, hamt, hvsi, hseed, ⟨rentAcc, hrentAcc, hrent⟩,
      ⟨clockAcc, hclockAcc, hepoch⟩, hupdates, rfl⟩
  · rintro ⟨amt, vsi, splitTo, seed, rent, epoch, hamt, hvsi, hseed, ⟨rentAcc, hrentAcc, hrent⟩,
      ⟨clockAcc, hclockAcc, hepoch⟩, hupdates, rfl⟩
    exact ⟨amt, hamt, vsi, hvsi, splitTo, seed, hseed, rentAcc, hrentAcc, rent, hrent, clockAcc,
      hclockAcc, epoch, hepoch, updates, hupdates, rfl, rfl⟩

/-- A withdrawal that knows its tokens and its validator stops if all its seeds are used. -/
theorem withdrawRun_of_seedUsed (hlib : wlib.DerivesNumbers lib) {amt : UInt64}
    {vsi : ValidatorStakeInfo Pubkey} (hamt : args.tokenAmt.Burns w.amount amt)
    (hvsi : w.Chosen vsi)
    (hused : ∀ i < maxAttempts, SeedUsed lib wlib accounts w.authority (rng i)) :
    args.run lib cli wlib accounts rng = .error unusedSeedMissing := by
  rw [WithdrawStakeArgs.run, hw, ok_bind, WithdrawStakeArgs.amt_eq_ok.mpr hamt, ok_bind,
    vsi_eq_ok.mpr hvsi, ok_bind,
    (findUnusedStakeProgCreateWithSeed_eq_error hlib).mpr ⟨rfl, hused⟩]
  rfl

end

/-! ## A pool with two largest validators -/

/-- The address of a seed is the address that its three parts derive. -/
def WithdrawLib.symbolic : WithdrawLib Address where
  createWithSeed base seed owner :=
    if seed.length ≤ 32 then some (.validatorStake base owner (.wellKnown seed) none) else none
  displayTokenAmtOrAll
    | .all => "all"
    | .amt amt => toString amt.toNat
  displayTokenAmt amt := toString amt.toNat

theorem WithdrawLib.derivesNumbers_symbolic : symbolic.DerivesNumbers StakePoolLib.symbolic :=
  fun _ _ h => ⟨_, if_pos h⟩

/-- The accounts of a deposit, but for three validators, of which the second and the third have the
most active stake, with five tokens at an ATA, and with an account at the address of seed 0. -/
def withdrawAccounts (pk : Address) : Option (WithdrawAccount Address) :=
  if pk = .key 102 then
    some { DataAccount.ofOwner (.key 0) with
      validatorList := some ⟨5, [⟨1000000000, 0, 6, 0, 0, .active, .key 10⟩,
        ⟨2000000000, 0, 6, 0, 0, .active, .key 11⟩, ⟨2000000000, 0, 6, 0, 0, .active, .key 12⟩]⟩
      amount := none
      rent := none }
  else if pk = .validatorStake (.key 2) (.wellKnown "token_program") (.key 105) none then
    some { DataAccount.ofOwner (.wellKnown "token_program") with amount := some 5, rent := none }
  else if pk = .wellKnown "rent" then
    some { DataAccount.ofOwner (.wellKnown "sysvar") with amount := none, rent := some .default }
  else if pk = .validatorStake (.key 2) (.wellKnown "stake_program") (.wellKnown "0") none then
    some { DataAccount.ofOwner (.wellKnown "stake_program") with amount := none, rent := none }
  else (accountsWith (.key 30) pk).map fun acc => { acc with amount := none, rent := none }

/-- All tokens of the wallet are withdrawn. -/
def WithdrawStakeArgs.everything : WithdrawStakeArgs Address where
  sendMode := .sendActual
  payer := .key 2
  authority := none
  tokensBurnFrom := none
  beneficiary := none
  validator := none
  pool := "pool"
  tokenAmt := .all

end StakePoolCli
