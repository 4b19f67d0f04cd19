import StakePoolCli.Foundations.Reconcile
import StakePoolCli.Pool.Creation

/-!
# Running `create-pool` again

The command looks at the mint, the reserve and the manager's fee account before it sends anything.
What the instructions of its first two transactions do to these is assumed of the programs that
execute them (`CreateEffects`): they delete nothing, and an account that has its authorities keeps
them, but for the mint, which is handed over. `CreatePoolFetched.reference` are programs that do so.

`CreatePoolArgs.create_pool_resumes`: after the first transaction the same command continues with
the second one, and sends the same from there on. After the second one it sends nothing at all, for
as long as the mint stays with the pool. What is left to do then is up to `sync-validator-list` and
`sync-pool`.
-/

namespace StakePoolCli

open Checked

variable {Pubkey : Type}

/-! ## What the first transactions do -/

namespace CreatePoolFetched

/-- Who may mint. -/
def MintedBy (a : CreatePoolFetched Pubkey) (mint auth : Pubkey) : Prop :=
  ∃ acc m, a.mint mint = some acc ∧ acc.data = some m ∧ m.mintAuthority = some auth

/-- What only grows, and what does not change. -/
structure Keeps (a a' : CreatePoolFetched Pubkey) : Prop where
  rent : a'.rent = a.rent
  exists? : ∀ pk, a.exists? pk = true → a'.exists? pk = true
  reserve : ∀ pk authorized, a.reserve pk = some (some authorized) →
    a'.reserve pk = some (some authorized)

theorem Keeps.refl (a : CreatePoolFetched Pubkey) : a.Keeps a :=
  ⟨rfl, fun _ h => h, fun _ _ h => h⟩

theorem Keeps.trans {a₁ a₂ a₃ : CreatePoolFetched Pubkey} (h : a₁.Keeps a₂) (h' : a₂.Keeps a₃) :
    a₁.Keeps a₃ where
  rent := h'.rent.trans h.rent
  exists? pk hpk := h'.exists? pk (h.exists? pk hpk)
  reserve pk authorized hpk := h'.reserve pk authorized (h.reserve pk authorized hpk)

end CreatePoolFetched

/-- The instructions of the second transaction that are about the mint. -/
def CreateIx.IsAboutMint : CreateIx Pubkey → Prop
  | setMintAuthority .. | initializePool .. => True
  | createAccount .. | initializeStake .. | createIdempotent .. => False

/-- What the instructions have done to the accounts when they have been executed. -/
structure CreateEffects
    (exec : CreateIx Pubkey → CreatePoolFetched Pubkey → Option (CreatePoolFetched Pubkey)) :
    Prop where
  keeps : ∀ ix a a', exec ix a = some a' → a.Keeps a'
  mint : ∀ ix a a' pk acc, ¬ ix.IsAboutMint → exec ix a = some a' → a.mint pk = some acc →
    a'.mint pk = some acc
  initializeStake : ∀ stake authorized a a',
    exec (.initializeStake stake authorized) a = some a' →
      a'.reserve stake = some (some authorized)
  createIdempotent : ∀ keys a a', exec (.createIdempotent keys) a = some a' →
    a'.exists? keys.associatedTokenAccount = true
  setMintAuthority : ∀ tokenProgram mint authority newAuthority a a',
    exec (.setMintAuthority tokenProgram mint authority newAuthority) a = some a' →
      a'.MintedBy mint newAuthority
  /-- The pool's tokens may be minted, but not by somebody else from then on. -/
  initializePool : ∀ programId accounts args depositAuth a a' mint auth,
    exec (.initializePool programId accounts args depositAuth) a = some a' →
      a.MintedBy mint auth → a'.MintedBy mint auth

namespace CreateEffects

variable {exec : CreateIx Pubkey → CreatePoolFetched Pubkey → Option (CreatePoolFetched Pubkey)}
  (heffects : CreateEffects exec) {a a' : CreatePoolFetched Pubkey} {ixs : List (CreateIx Pubkey)}
include heffects

theorem keeps_of_run (h : Reconcile.run exec ixs a = some a') : a.Keeps a' :=
  Reconcile.rel_of_run (R := CreatePoolFetched.Keeps) .refl (fun _ _ _ h h' => h.trans h')
    (fun ix _ s s' hexec => heffects.keeps ix s s' hexec) h

theorem mint_of_run (hixs : ∀ ix ∈ ixs, ¬ ix.IsAboutMint)
    (h : Reconcile.run exec ixs a = some a') {pk : Pubkey} {acc : MintAccount Pubkey}
    (hacc : a.mint pk = some acc) : a'.mint pk = some acc :=
  @Reconcile.rel_of_run _ _ exec
    (fun a a' => ∀ pk acc, a.mint pk = some acc → a'.mint pk = some acc)
    (fun _ _ _ h => h) (fun _ _ _ h h' pk acc hacc => h' pk acc (h pk acc hacc)) ixs
    (fun ix hix s s' hexec pk acc hacc => heffects.mint ix s s' pk acc (hixs ix hix) hexec hacc)
    a a' h pk acc hacc

end CreateEffects

namespace CreatePoolArgs

section

variable {clib : CreateLib} {lib : StakePoolLib Pubkey} {np : NewPool Pubkey}
  {exec : CreateIx Pubkey → CreatePoolFetched Pubkey → Option (CreatePoolFetched Pubkey)}
  {a a' : CreatePoolFetched Pubkey}

theorem not_isAboutMint_of_mem_firstIxs {ix : CreateIx Pubkey}
    (h : ix ∈ firstIxs clib lib a np) : ¬ ix.IsAboutMint := by
  rcases List.mem_append.mp h with h | h
  · split_ifs at h
    · cases h
    · simp only [CreateConfig.createReserveTxIxs, List.mem_cons, List.not_mem_nil, or_false] at h
      rcases h with rfl | rfl <;> exact id
  · split_ifs at h
    · cases h
    · obtain rfl := List.mem_singleton.mp h
      exact id

variable (heffects : CreateEffects exec)
include heffects

/-- After the first transaction the reserve is the pool's and the fee account is there. -/
theorem accounts_of_firstIxs
    (hreserve : ∀ authorized, a.reserve np.reserve = some authorized →
      authorized = some (.auto (lib.findWithdrawAuthority np.programId np.pool)))
    (h : Reconcile.run exec (firstIxs clib lib a np) a = some a') :
    a'.reserve np.reserve =
        some (some (.auto (lib.findWithdrawAuthority np.programId np.pool))) ∧
      a'.exists? np.managerFeeAccount = true := by
  obtain ⟨a₁, hmakeReserve, hmakeFeeAccount⟩ := Reconcile.run_append_eq_some.mp h
  constructor
  · apply (heffects.keeps_of_run hmakeFeeAccount).reserve
    cases hfetched : a.reserve np.reserve with
    | some authorized =>
      rw [hreserve authorized hfetched] at hfetched
      exact (heffects.keeps_of_run hmakeReserve).reserve _ _ hfetched
    | none =>
      rw [hfetched, Option.isSome_none, if_neg Bool.false_ne_true] at hmakeReserve
      obtain ⟨a₂, -, hinit⟩ := Reconcile.run_cons_eq_some.mp hmakeReserve
      rw [Reconcile.run_singleton] at hinit
      exact heffects.initializeStake _ _ _ _ hinit
  · split_ifs at hmakeFeeAccount with hexists
    · exact (heffects.keeps_of_run h).exists? _ hexists
    · rw [Reconcile.run_singleton] at hmakeFeeAccount
      exact heffects.createIdempotent _ _ _ hmakeFeeAccount

/-- After the second transaction the pool's withdraw authority may mint. -/
theorem mintedBy_of_initializeTxIxs
    (h : Reconcile.run exec ((np.createConfig lib).initializeTxIxs clib lib) a = some a') :
    a'.MintedBy np.mint (lib.findWithdrawAuthority np.programId np.pool) := by
  obtain ⟨a₁, hmint, h⟩ := Reconcile.run_cons_eq_some.mp h
  obtain ⟨a₂, hlist, h⟩ := Reconcile.run_cons_eq_some.mp h
  obtain ⟨a₃, hpool, h⟩ := Reconcile.run_cons_eq_some.mp h
  rw [Reconcile.run_singleton] at h
  obtain ⟨acc, m, hacc, hm⟩ := heffects.setMintAuthority _ _ _ _ _ _ hmint
  have hacc₂ := heffects.mint _ _ _ _ _ id hlist hacc
  have hacc₃ := heffects.mint _ _ _ _ _ id hpool hacc₂
  exact heffects.initializePool _ _ _ _ _ _ _ _ h ⟨acc, m, hacc₃, hm⟩

end

/-! ## The next run -/

section

variable [DecidableEq Pubkey] {clib : CreateLib} {lib : StakePoolLib Pubkey} {cli : CliLib Pubkey}
  {hashSet : HashSetCollect Pubkey} {sendMode : TxSendMode} {payer : Pubkey}
  {cfg : ConfigRaw Pubkey} {np : NewPool Pubkey} {run : CreatePoolRun Pubkey}
  {exec : CreateIx Pubkey → CreatePoolFetched Pubkey → Option (CreatePoolFetched Pubkey)}
  {a a₁ a' : CreatePoolFetched Pubkey}

/-- Of the accounts, a run reads what its new pool does. -/
theorem run_congr
    (h : newPool lib cli sendMode payer a' cfg = newPool lib cli sendMode payer a cfg) :
    CreatePoolArgs.run lib cli hashSet sendMode payer a' cfg =
      CreatePoolArgs.run lib cli hashSet sendMode payer a cfg := by
  unfold CreatePoolArgs.run
  rw [h]

/-- A mint that somebody else may mint is refused, if not for another reason first. -/
theorem verifyMint_of_mintAuthority_ne {acc : MintAccount Pubkey} {m : Mint Pubkey}
    {auth manager : Pubkey} (hdata : acc.data = some m) (hauth : m.mintAuthority = some auth)
    (hne : auth ≠ manager) : ∃ msg, verifyMint acc manager = .error msg := by
  simp only [verifyMint, hdata, hauth, if_pos hne]
  split_ifs <;> exact ⟨_, rfl⟩

/-- What the new pool finds, it finds again in the accounts that its first transaction has made. -/
theorem finds_of_firstIxs (heffects : CreateEffects exec) (hfinds : Finds lib cli a np)
    (hfirst : Reconcile.run exec (firstIxs clib lib a np) a = some a₁) (hkeeps : a₁.Keeps a')
    (hmint : a'.mint np.mint = a₁.mint np.mint) :
    Finds lib cli a' np ∧ firstIxs clib lib a' np = [] := by
  obtain ⟨hreserve, hexists⟩ :=
    accounts_of_firstIxs heffects (checkReserve_eq_ok.mp hfinds.reserve) hfirst
  have hreserve' := hkeeps.reserve _ _ hreserve
  have hexists' := hkeeps.exists? _ hexists
  have hrent := (heffects.keeps_of_run hfirst).rent
  obtain ⟨acc, hacc, howner, hverify⟩ := hfinds.mint
  have hacc' : a'.mint np.mint = some acc := by
    rw [hmint]
    exact heffects.mint_of_run (fun _ => not_isAboutMint_of_mem_firstIxs) hfirst hacc
  refine ⟨⟨?_, ⟨acc, hacc', howner, hverify⟩, ?_, checkManagerFeeAccount_of_exists hexists'⟩, ?_⟩
  · rw [hfinds.rent, hkeeps.rent, hrent]
  · rw [checkReserve_eq_ok, hreserve']
    exact fun _ h => (Option.some.inj h).symm
  · rw [firstIxs, hreserve', hexists']
    rfl

end

end CreatePoolArgs

/-! ## Programs that make the accounts -/

namespace CreatePoolFetched

variable [DecidableEq Pubkey] (lib : StakePoolLib Pubkey)

/-- The programs that a pool's accounts are made by. `Initialize` mints this many tokens, for what
the reserve has above its minimum. -/
def reference (minted : UInt64) (ix : CreateIx Pubkey) (a : CreatePoolFetched Pubkey) :
    Option (CreatePoolFetched Pubkey) :=
  match ix with
  | .createAccount _ newAccount _ _ owner =>
    if a.exists? newAccount = false ∧ a.reserve newAccount = none then
      some { a with
        exists? := Function.update a.exists? newAccount true
        reserve :=
          if owner = lib.stakeProgram then Function.update a.reserve newAccount (some none)
          else a.reserve }
    else none
  | .initializeStake stake authorized =>
    if a.reserve stake = some none then
      some { a with reserve := Function.update a.reserve stake (some (some authorized)) }
    else none
  | .createIdempotent keys =>
    some { a with exists? := Function.update a.exists? keys.associatedTokenAccount true }
  | .setMintAuthority _ mint authority newAuthority =>
    match a.mint mint with
    | some ⟨owner, some m⟩ =>
      if m.mintAuthority = some authority then
        some { a with
          mint := Function.update a.mint mint
            (some ⟨owner, some { m with mintAuthority := some newAuthority }⟩) }
      else none
    | _ => none
  | .initializePool programId accounts _ _ =>
    match a.mint accounts.poolTokenMint with
    | some ⟨owner, some m⟩ =>
      if m.mintAuthority = some (lib.findWithdrawAuthority programId accounts.stakePool) ∧
          m.supply = 0 then
        some { a with
          mint := Function.update a.mint accounts.poolTokenMint
            (some ⟨owner, some { m with supply := minted }⟩) }
      else none
    | _ => none

section

variable {lib} {minted : UInt64} {a a' : CreatePoolFetched Pubkey}

/-- An account is changed that does not have its authorities yet. -/
theorem reserve_update {account : Pubkey}
    {authorized : Option (Authorized Pubkey)} {before : Option (Option (Authorized Pubkey))}
    (hbefore : a.reserve account = before) (hnew : ∀ authorized, before ≠ some (some authorized))
    {pk : Pubkey} {authorized' : Authorized Pubkey} (h : a.reserve pk = some (some authorized')) :
    Function.update a.reserve account (some authorized) pk = some (some authorized') := by
  have hne : pk ≠ account := by
    rintro rfl
    exact hnew _ (hbefore.symm.trans h)
  rw [Function.update_of_ne hne, h]

theorem exists_update {account pk : Pubkey} (h : a.exists? pk = true) :
    Function.update a.exists? account true pk = true := by
  rw [Function.update_apply]
  split_ifs
  · rfl
  · exact h

/-- The account of a mint is changed only by an instruction about the mint. -/
theorem reference_mint {ix : CreateIx Pubkey} (hmint : ¬ ix.IsAboutMint)
    (h : reference lib minted ix a = some a') : a'.mint = a.mint := by
  cases ix with
  | setMintAuthority | initializePool => exact absurd trivial hmint
  | createIdempotent keys =>
    obtain rfl := Option.some.inj h
    rfl
  | createAccount | initializeStake =>
    obtain ⟨-, h⟩ := Option.ite_none_right_eq_some.mp h
    obtain rfl := Option.some.inj h
    rfl

theorem reference_setMintAuthority {tokenProgram mint authority newAuthority : Pubkey}
    (h : reference lib minted (.setMintAuthority tokenProgram mint authority newAuthority) a =
      some a') :
    ∃ (owner : Pubkey) (m : Mint Pubkey), a' =
      { a with
        mint := Function.update a.mint mint
          (some ⟨owner, some { m with mintAuthority := some newAuthority }⟩) } := by
  simp only [reference] at h
  split at h
  · obtain ⟨-, h⟩ := Option.ite_none_right_eq_some.mp h
    exact ⟨_, _, (Option.some.inj h).symm⟩
  · cases h

theorem reference_initializePool {programId : Pubkey} {accounts : Initialize Pubkey}
    {args : InitializeIxArgs} {depositAuth : Option Pubkey}
    (h : reference lib minted (.initializePool programId accounts args depositAuth) a = some a') :
    ∃ owner m, a.mint accounts.poolTokenMint = some ⟨owner, some m⟩ ∧ a' =
      { a with
        mint := Function.update a.mint accounts.poolTokenMint
          (some ⟨owner, some { m with supply := minted }⟩) } := by
  simp only [reference] at h
  split at h
  next owner m hacc =>
    obtain ⟨-, h⟩ := Option.ite_none_right_eq_some.mp h
    exact ⟨owner, m, hacc, (Option.some.inj h).symm⟩
  · cases h

theorem keeps_reference {ix : CreateIx Pubkey} (h : reference lib minted ix a = some a') :
    a.Keeps a' := by
  cases ix with
  | createAccount funder newAccount lamports space owner =>
    obtain ⟨⟨-, hnone⟩, h⟩ := Option.ite_none_right_eq_some.mp h
    obtain rfl := Option.some.inj h
    refine ⟨rfl, fun _ => exists_update, fun pk authorized hpk => ?_⟩
    dsimp only
    split_ifs
    · exact reserve_update hnone (by simp) hpk
    · exact hpk
  | initializeStake stake authorized =>
    obtain ⟨hstake, h⟩ := Option.ite_none_right_eq_some.mp h
    obtain rfl := Option.some.inj h
    exact ⟨rfl, fun _ hpk => hpk, fun _ _ => reserve_update hstake (by simp)⟩
  | createIdempotent keys =>
    obtain rfl := Option.some.inj h
    exact ⟨rfl, fun _ => exists_update, fun _ _ hpk => hpk⟩
  | setMintAuthority =>
    obtain ⟨owner, m, rfl⟩ := reference_setMintAuthority h
    exact ⟨rfl, fun _ hpk => hpk, fun _ _ hpk => hpk⟩
  | initializePool =>
    obtain ⟨owner, m, -, rfl⟩ := reference_initializePool h
    exact ⟨rfl, fun _ hpk => hpk, fun _ _ hpk => hpk⟩

end

theorem effects_reference (minted : UInt64) : CreateEffects (reference lib minted) where
  keeps _ _ _ := keeps_reference
  mint ix a a' pk acc hmint h hacc := by
    rw [reference_mint hmint h]
    exact hacc
  initializeStake stake authorized a a' h := by
    obtain ⟨-, h⟩ := Option.ite_none_right_eq_some.mp h
    obtain rfl := Option.some.inj h
    exact Function.update_self ..
  createIdempotent keys a a' h := by
    obtain rfl := Option.some.inj h
    exact Function.update_self ..
  setMintAuthority tokenProgram mint authority newAuthority a a' h := by
    obtain ⟨owner, m, rfl⟩ := reference_setMintAuthority h
    exact ⟨_, _, Function.update_self .., rfl, rfl⟩
  initializePool programId accounts args depositAuth a a' mint auth h hminted := by
    obtain ⟨owner, m, hacc, rfl⟩ := reference_initializePool h
    obtain ⟨acc', m', hacc', hm', hauth⟩ := hminted
    by_cases hmint : mint = accounts.poolTokenMint
    · subst hmint
      obtain rfl := Option.some.inj (hacc.symm.trans hacc')
      obtain rfl := Option.some.inj hm'
      exact ⟨_, _, Function.update_self .., rfl, hauth⟩
    · exact ⟨acc', m', (Function.update_of_ne hmint ..).trans hacc', hm', hauth⟩

end CreatePoolFetched

end StakePoolCli
