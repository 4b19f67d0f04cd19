import StakePoolCli.Interface.Types

/-!
# What the commands take from their libraries

The parts of `sanctum_spl_stake_pool_lib` and `solana_sdk` that the commands call, as one
parameter `lib : StakePoolLib Pubkey` of the development: the addresses derived from a pool and a
seed, the program's minimum active stake, the comparison of fees, and the well-known addresses.

What a result needs of it is one of the properties below.

* `StakePoolLib.VsaInjective`: different pools, votes and seeds have different validator stake
  accounts.
* `StakePoolLib.FeeEquality`: the comparisons of fees are equivalences, and agree on the fees
  that both compare.
* `StakePoolLib.FeeOrder`: `CmpFee` orders the fees totally, and `EqFeeType` compares the kind and
  what is equal in that order. It implies the previous one (`FeeOrder.feeEquality`).
-/

namespace StakePoolCli

/-- A nonzero 32-bit word. -/
def NonZeroU32 : Type := {n : UInt32 // n ≠ 0}

instance : DecidableEq NonZeroU32 := inferInstanceAs (DecidableEq {n : UInt32 // n ≠ 0})

/-- `NonZeroU32::new`: `none` on zero. -/
def NonZeroU32.new (n : UInt32) : Option NonZeroU32 :=
  if h : n ≠ 0 then some ⟨n, h⟩ else none

theorem NonZeroU32.new_eq_none {n : UInt32} : NonZeroU32.new n = none ↔ n = 0 := by
  simp [NonZeroU32.new]

/-- The external functions and constants. Each `find…` is a program-derived address of the given
program. -/
structure StakePoolLib (Pubkey : Type) where
  /-- `MIN_ACTIVE_STAKE` -/
  minActiveStake : UInt64
  /-- The library's own `lamports_for_new_vsa`. -/
  lamportsForNewVsa : Rent → UInt64
  findWithdrawAuthority : (programId pool : Pubkey) → Pubkey
  findDepositAuthority : (programId pool : Pubkey) → Pubkey
  findValidatorStakeAccount : (programId pool vote : Pubkey) → Option NonZeroU32 → Pubkey
  findTransientStakeAccount : (programId pool vote : Pubkey) → UInt64 → Pubkey
  findEphemeralStakeAccount : (programId pool : Pubkey) → UInt64 → Pubkey
  /-- Equality of `CmpFee`. -/
  cmpFeeEq : Fee → Fee → Bool
  /-- The order of `CmpFee`. -/
  cmpFee : Fee → Fee → Ordering
  /-- Equality of `EqFeeType`. -/
  eqFeeType : FeeType → FeeType → Bool
  /-- `ZERO_FEE` -/
  zeroFee : Fee
  /-- The text of an address. -/
  display : Pubkey → String
  /-- `Pubkey::default()` -/
  defaultPubkey : Pubkey
  clock : Pubkey
  rent : Pubkey
  stakeHistory : Pubkey
  stakeConfig : Pubkey
  systemProgram : Pubkey
  stakeProgram : Pubkey

namespace StakePoolLib

variable {Pubkey : Type} (lib : StakePoolLib Pubkey)

/-- The validator stake account determines the pool, the vote account and the seed. -/
def VsaInjective : Prop :=
  ∀ programId pool pool' vote vote' seed seed',
    lib.findValidatorStakeAccount programId pool vote seed =
      lib.findValidatorStakeAccount programId pool' vote' seed' →
    pool = pool' ∧ vote = vote' ∧ seed = seed'

/-- The comparisons of fees are equivalences, and on the three fees that change at an epoch
boundary `EqFeeType` compares what `CmpFee` does. -/
structure FeeEquality : Prop where
  refl : ∀ f, lib.eqFeeType f f = true
  symm : ∀ f g, lib.eqFeeType f g = true → lib.eqFeeType g f = true
  trans : ∀ f g h, lib.eqFeeType f g = true → lib.eqFeeType g h = true → lib.eqFeeType f h = true
  epoch : ∀ f g, lib.eqFeeType (.epoch f) (.epoch g) = lib.cmpFeeEq f g
  stakeWithdrawal : ∀ f g,
    lib.eqFeeType (.stakeWithdrawal f) (.stakeWithdrawal g) = lib.cmpFeeEq f g
  solWithdrawal : ∀ f g, lib.eqFeeType (.solWithdrawal f) (.solWithdrawal g) = lib.cmpFeeEq f g

/-- The comparison of two fees of one kind: referral fees are percentages. -/
def compareFeeType : FeeType → FeeType → Option Ordering
  | .solReferral f, .solReferral g => some (compare f g)
  | .stakeReferral f, .stakeReferral g => some (compare f g)
  | .epoch f, .epoch g => some (lib.cmpFee f g)
  | .stakeWithdrawal f, .stakeWithdrawal g => some (lib.cmpFee f g)
  | .solDeposit f, .solDeposit g => some (lib.cmpFee f g)
  | .stakeDeposit f, .stakeDeposit g => some (lib.cmpFee f g)
  | .solWithdrawal f, .solWithdrawal g => some (lib.cmpFee f g)
  | _, _ => none

/-- `CmpFee` is a total preorder, whose equality is the one that `EqFeeType` compares. -/
structure FeeOrder : Prop where
  swap : ∀ f g, (lib.cmpFee f g).swap = lib.cmpFee g f
  trans : ∀ f g h, (lib.cmpFee f g).isLE → (lib.cmpFee g h).isLE → (lib.cmpFee f h).isLE
  eq : ∀ f g, lib.cmpFeeEq f g = true ↔ lib.cmpFee f g = .eq
  eqFeeType : ∀ f g, lib.eqFeeType f g = true ↔ lib.compareFeeType f g = some .eq

namespace FeeOrder

variable {lib}

theorem refl (h : lib.FeeOrder) (f : Fee) : lib.cmpFee f f = .eq := by
  have := h.swap f f
  cases hf : lib.cmpFee f f <;> simp_all

theorem symm (h : lib.FeeOrder) {f g : Fee} (hfg : lib.cmpFee f g = .eq) :
    lib.cmpFee g f = .eq := by
  rw [← h.swap, hfg, Ordering.swap_eq]

theorem eq_trans (h : lib.FeeOrder) {f₁ f₂ f₃ : Fee} (h₁₂ : lib.cmpFee f₁ f₂ = .eq)
    (h₂₃ : lib.cmpFee f₂ f₃ = .eq) : lib.cmpFee f₁ f₃ = .eq := by
  have hle := h.trans f₁ f₂ f₃ (by rw [h₁₂]; rfl) (by rw [h₂₃]; rfl)
  have hge := h.trans f₃ f₂ f₁ (by rw [h.symm h₂₃]; rfl) (by rw [h.symm h₁₂]; rfl)
  rw [← h.swap] at hge
  cases hcmp : lib.cmpFee f₁ f₃ <;> simp_all

/-- In a total preorder equality is an equivalence, and so is its extension to the kinds. -/
theorem feeEquality (h : lib.FeeOrder) : lib.FeeEquality where
  refl f := by
    rw [h.eqFeeType]
    cases f <;> simp [compareFeeType, h.refl]
  symm f g hfg := by
    rw [h.eqFeeType] at hfg ⊢
    cases f <;> cases g <;> simp_all [compareFeeType, h.symm]
  trans f₁ f₂ f₃ h₁₂ h₂₃ := by
    rw [h.eqFeeType] at h₁₂ h₂₃ ⊢
    cases f₁ <;> cases f₂ <;> simp only [compareFeeType, reduceCtorEq] at h₁₂ <;>
      cases f₃ <;> simp only [compareFeeType, reduceCtorEq, Option.some.injEq] at h₁₂ h₂₃ ⊢ <;>
      first
      | exact h.eq_trans h₁₂ h₂₃
      | exact (Std.LawfulEqOrd.eq_of_compare h₁₂) ▸ h₂₃
  epoch f g := by
    rw [Bool.eq_iff_iff, h.eqFeeType, h.eq, compareFeeType, Option.some.injEq]
  stakeWithdrawal f g := by
    rw [Bool.eq_iff_iff, h.eqFeeType, h.eq, compareFeeType, Option.some.injEq]
  solWithdrawal f g := by
    rw [Bool.eq_iff_iff, h.eqFeeType, h.eq, compareFeeType, Option.some.injEq]

end FeeOrder

end StakePoolLib

end StakePoolCli
