import StakePoolCli.Interface.Lib

/-!
# Reading addresses and signers from text

`parse/signer.rs` and `parse/spl_stake_pool_program.rs`. A config file gives addresses and signers
as text. What text is an address and what text names a signer is a parameter `cli : CliLib Pubkey`
of the development; a signer is the address it signs for.

How a signer is read depends on where the transactions go (`TxSendMode`). When they are sent, a
text that is an address cannot sign, and counts as absent (`parseSignerPubkeyNone`); when they are
only simulated or dumped, it stands for a signer of that address (`parseSignerAllowPubkey`).
-/

namespace StakePoolCli

open Checked

variable {Pubkey : Type}

/-- The external functions on text, and the addresses of the known stake pool programs. -/
structure CliLib (Pubkey : Type) where
  /-- `Pubkey::from_str` -/
  fromStr : String → Option Pubkey
  /-- The address of `PubkeySrc::parse`. -/
  pubkeySrc : String → Option Pubkey
  /-- `parse_signer` -/
  parseSigner : String → Option Pubkey
  /-- `FindAtaAddressArgs::find_ata_address` -/
  findAtaAddress : (wallet mint tokenProgram : Pubkey) → Pubkey
  splStakePoolProg : Pubkey
  sanctumSplStakePoolProg : Pubkey
  sanctumSplMultiStakePoolProg : Pubkey

/-- An address is read back from its text. -/
structure CliLib.RoundTrip (cli : CliLib Pubkey) (lib : StakePoolLib Pubkey) : Prop where
  fromStr : ∀ pk, cli.fromStr (lib.display pk) = some pk
  pubkeySrc : ∀ pk, cli.pubkeySrc (lib.display pk) = some pk

/-! ## Signers -/

inductive TxSendMode
  | sendActual
  | simOnly
  | dumpMsg
  deriving DecidableEq, Repr

section

variable (cli : CliLib Pubkey)

/-- `parse_signer_pubkey_none`, with `none` for an error. -/
def parseSignerPubkeyNone (s : String) : Option (Option Pubkey) :=
  match cli.fromStr s with
  | some _ => some none
  | none => (cli.parseSigner s).map some

/-- `parse_signer_allow_pubkey`, with `none` for an error. -/
def parseSignerAllowPubkey (s : String) : Option Pubkey :=
  match cli.fromStr s with
  | some pk => some pk
  | none => cli.parseSigner s

/-- The common part of `ps!`. -/
def psInternal (sendMode : TxSendMode) (arg : Option String) : Except Panic (Option Pubkey) :=
  match arg with
  | none => .ok none
  | some s =>
    match sendMode with
    | .dumpMsg | .simOnly => do .ok (some (← unwrap (parseSignerAllowPubkey cli s)))
    | .sendActual => unwrap (parseSignerPubkeyNone cli s)

/-- `ps!` with a fallback. -/
def psFallback (sendMode : TxSendMode) (fallback : Pubkey) (arg : Option String) :
    Except Panic Pubkey := do
  .ok ((← psInternal cli sendMode arg).getD fallback)

/-- `ps!` without a fallback. -/
def ps (sendMode : TxSendMode) (arg : Option String) : Except Panic Pubkey := do
  unwrap (← psInternal cli sendMode arg)

/-- `PubkeySrc::parse(&s).unwrap().pubkey()` -/
def parsePubkey (s : String) : Except Panic Pubkey := unwrap (cli.pubkeySrc s)

/-- The address of a text that may be absent. -/
def parsePubkeyOpt : Option String → Except Panic (Option Pubkey)
  | none => .ok none
  | some s => do .ok (some (← parsePubkey cli s))

end

/-! ## What they read -/

section

variable {cli : CliLib Pubkey} {lib : StakePoolLib Pubkey}

theorem parsePubkeyOpt_eq_ok {o : Option String} {pk : Option Pubkey} :
    parsePubkeyOpt cli o = .ok pk ↔ o.map cli.pubkeySrc = pk.map some := by
  cases o with
  | none => cases pk <;> simp [parsePubkeyOpt]
  | some s =>
    cases pk <;> cases h : cli.pubkeySrc s <;> simp [parsePubkeyOpt, parsePubkey, h, unwrap]

/-- An address that is read is the one its text stands for. -/
theorem eq_bind_of_parsePubkeyOpt {o : Option String} {pk : Option Pubkey}
    (h : parsePubkeyOpt cli o = .ok pk) : pk = o.bind cli.pubkeySrc := by
  have h := parsePubkeyOpt_eq_ok.mp h
  cases o <;> cases pk <;> simp_all

variable (hround : cli.RoundTrip lib)
include hround

theorem parsePubkey_display (pk : Pubkey) : parsePubkey cli (lib.display pk) = .ok pk := by
  rw [parsePubkey, hround.pubkeySrc, unwrap_some]

theorem parsePubkeyOpt_display (pk : Option Pubkey) :
    parsePubkeyOpt cli (pk.map lib.display) = .ok pk := by
  cases pk with
  | none => rfl
  | some pk =>
    rw [Option.map_some, parsePubkeyOpt, parsePubkey_display hround]
    rfl

/-- A signer that is given as an address is that address, or the fallback if it has to sign. -/
theorem psFallback_display (sendMode : TxSendMode) (fallback pk : Pubkey) :
    psFallback cli sendMode fallback (some (lib.display pk)) =
      .ok (match sendMode with | .sendActual => fallback | .simOnly | .dumpMsg => pk) := by
  cases sendMode <;>
    simp [psFallback, psInternal, parseSignerPubkeyNone, parseSignerAllowPubkey, hround.fromStr]

end

/-! ## The stake pool program -/

inductive SplStakePoolProgram (Pubkey : Type)
  | unknown (pk : Pubkey)
  | spl
  | sanctumSpl
  | sanctumSplMulti
  deriving DecidableEq, Repr

namespace SplStakePoolProgram

variable (cli : CliLib Pubkey)

/-- `SplStakePoolProgram::program_id` -/
def programId : SplStakePoolProgram Pubkey → Pubkey
  | unknown pk => pk
  | spl => cli.splStakePoolProg
  | sanctumSpl => cli.sanctumSplStakePoolProg
  | sanctumSplMulti => cli.sanctumSplMultiStakePoolProg

/-- `SplStakePoolProgram::from` -/
def ofPubkey [DecidableEq Pubkey] (value : Pubkey) : SplStakePoolProgram Pubkey :=
  if value = cli.splStakePoolProg then spl
  else if value = cli.sanctumSplStakePoolProg then sanctumSpl
  else if value = cli.sanctumSplMultiStakePoolProg then sanctumSplMulti
  else unknown value

end SplStakePoolProgram

end StakePoolCli
