import StakePoolCli.Interface.Types

/-!
# Lamports for a new validator stake account

`pool_config/utils.rs`: the lamports that fund a new validator stake account, its rent exemption
plus the minimum delegation. It is at least the minimum delegation, hence positive
(`lamportsForNewVsa_pos`).
-/

namespace StakePoolCli

open Checked

/-- `min_delegation` -/
def minDelegation : UInt64 := 1000000000

/-- `lamports_for_new_vsa` -/
def lamportsForNewVsa (rent : Rent) : UInt64 :=
  saturatingAdd (rent.minimumBalance stakeStateSize) minDelegation

theorem minDelegation_le_lamportsForNewVsa (rent : Rent) :
    1000000000 ≤ (lamportsForNewVsa rent).toNat := by
  have : minDelegation.toNat = 1000000000 := rfl
  rw [lamportsForNewVsa, toNat_saturatingAdd]
  omega

theorem lamportsForNewVsa_pos (rent : Rent) : 0 < (lamportsForNewVsa rent).toNat := by
  have := minDelegation_le_lamportsForNewVsa rent
  omega

end StakePoolCli
