import StakePoolCli.Interface.Instruction
import StakePoolCli.Subcmd.Fetch
import StakePoolCli.Subcmd.List

/-!
# `set-staker`

`subcmd/set_staker.rs`. The staker of a pool sets a new one: `staker` in the config file, or the
payer. The current one is `old-staker` in the file, or the payer. If they are the same nothing is
fetched and nothing is sent.
-/

namespace StakePoolCli

open Checked

/-- `SetStakerArgs::run`: the instructions that are sent. -/
def SetStakerArgs.run {Pubkey : Type} [DecidableEq Pubkey] (lib : StakePoolLib Pubkey)
    (cli : CliLib Pubkey) (sendMode : TxSendMode) (payer : Pubkey) (cfg : ConfigRaw Pubkey)
    (fetchedPool : Pubkey → Option (PoolAccount Pubkey)) :
    Except Panic (List (Instruction Pubkey)) := do
  let pool ← parsePubkey cli (← unwrap cfg.pool)
  let oldStaker ← psFallback cli sendMode payer cfg.oldStaker
  let newStaker := (← parsePubkeyOpt cli cfg.staker).getD payer
  if oldStaker = newStaker then .ok []
  else
    let acc ← unwrap (fetchedPool pool)
    checkStaker lib acc.stakePool oldStaker
    .ok [setStakerIx acc.owner { stakePool := pool, signer := oldStaker, newStaker }]

end StakePoolCli
