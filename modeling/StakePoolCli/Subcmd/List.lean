import StakePoolCli.PoolConfig.Read

/-!
# `list`

`subcmd/list.rs`. The pool is written out as a config file, with `--verbose` together with its
reserve and its validator list.
-/

namespace StakePoolCli

open Checked

variable {Pubkey : Type}

/-- The account of a pool: its owner is the stake pool program. -/
structure PoolAccount (Pubkey : Type) where
  owner : Pubkey
  stakePool : StakePool Pubkey

/-- The command line. -/
structure ListArgs where
  verbose : Bool
  pool : String

/-- What `list` fetches: the pool by its address, and the two accounts that the pool names. -/
structure ListFetched (Pubkey : Type) where
  pool : Pubkey → Option (PoolAccount Pubkey)
  validatorList : Pubkey → Option (ValidatorList Pubkey)
  reserveLamports : Pubkey → Option UInt64

/-- `ListArgs::run`: the config that is printed. -/
def ListArgs.run [DecidableEq Pubkey] (lib : StakePoolLib Pubkey) (cli : CliLib Pubkey)
    (args : ListArgs) (fetched : ListFetched Pubkey) : Except Panic (ConfigRaw Pubkey) := do
  let pool ← parsePubkey cli args.pool
  let display := ({} : ConfigRaw Pubkey).setPoolPk lib pool
  let fetchedPool ← unwrap (fetched.pool pool)
  let programId := fetchedPool.owner
  let decodedPool := fetchedPool.stakePool
  let display := (display.setProgram cli programId).setPool lib programId pool decodedPool
  if args.verbose then
    let reserveLamports ← unwrap (fetched.reserveLamports decodedPool.reserveStake)
    let validatorList ← unwrap (fetched.validatorList decodedPool.validatorList)
    .ok ((display.setReserve lib decodedPool.reserveStake reserveLamports).setValidatorList lib
      programId pool validatorList)
  else
    .ok display

end StakePoolCli
