import Mathlib.Algebra.Group.Nat.Defs
import Mathlib.Data.List.Forall2
import Mathlib.Tactic.Common

/-!
# Checked and saturating machine arithmetic

The unsigned 64-bit operations of a language that stops on overflow, as computations in
`Except Panic`:

* `checkedAdd`, `checkedSub` and `checkedMul` stop with `Panic.overflow` when the exact result
  does not fit (`checkedSub_eq_ok` and its companions say when they do not, and what they return).
* `saturatingAdd` and `saturatingSub` never stop; their value is the exact one, cut off at the
  ends of the range (`toNat_saturatingAdd`, `toNat_saturatingSub`).
* `u32TryFrom` stops on a number that is too large for 32 bits.
* `unwrap` and `expect` turn an absent value into a stop.

Everything downstream reads a machine word through `UInt64.toNat`, so that the arithmetic of a
development is about natural numbers.
-/

universe v

namespace StakePoolCli

/-- The ways a computation stops without a result. -/
inductive Panic
  /-- An arithmetic operation whose result does not fit. -/
  | overflow
  /-- `unwrap` on an absent value. -/
  | unwrapNone
  /-- A failed integer conversion. -/
  | conversion
  /-- An explicit stop, with its message. -/
  | explicit (msg : String)
  deriving DecidableEq, Repr

namespace Checked

/-- The largest 64-bit word. -/
def u64Max : UInt64 := 18446744073709551615

@[simp] theorem toNat_u64Max : u64Max.toNat = 18446744073709551615 := rfl

theorem toNat_le_max (a : UInt64) : a.toNat ≤ 18446744073709551615 := by
  have := a.toNat_lt
  omega

/-! ## Operations that stop -/

/-- Addition, stopping when the sum does not fit. -/
def checkedAdd (a b : UInt64) : Except Panic UInt64 :=
  if a.toNat + b.toNat < 2 ^ 64 then .ok (a + b) else .error .overflow

/-- Subtraction, stopping when the difference is negative. -/
def checkedSub (a b : UInt64) : Except Panic UInt64 :=
  if b ≤ a then .ok (a - b) else .error .overflow

/-- Multiplication, stopping when the product does not fit. -/
def checkedMul (a b : UInt64) : Except Panic UInt64 :=
  if a.toNat * b.toNat < 2 ^ 64 then .ok (a * b) else .error .overflow

theorem checkedAdd_eq_ok {a b c : UInt64} :
    checkedAdd a b = .ok c ↔ a.toNat + b.toNat = c.toNat := by
  unfold checkedAdd
  split
  · rename_i h
    rw [Except.ok.injEq, ← UInt64.toNat_inj, UInt64.toNat_add, Nat.mod_eq_of_lt h]
  · rename_i h
    have := c.toNat_lt
    simp only [reduceCtorEq, false_iff]
    omega

theorem checkedSub_eq_ok {a b c : UInt64} :
    checkedSub a b = .ok c ↔ b.toNat + c.toNat = a.toNat := by
  unfold checkedSub
  split
  · rename_i h
    have h' := UInt64.le_iff_toNat_le.mp h
    rw [Except.ok.injEq, ← UInt64.toNat_inj, UInt64.toNat_sub_of_le _ _ h]
    omega
  · rename_i h
    rw [UInt64.le_iff_toNat_le] at h
    simp only [reduceCtorEq, false_iff]
    omega

theorem checkedMul_eq_ok {a b c : UInt64} :
    checkedMul a b = .ok c ↔ a.toNat * b.toNat = c.toNat := by
  unfold checkedMul
  split
  · rename_i h
    rw [Except.ok.injEq, ← UInt64.toNat_inj, UInt64.toNat_mul, Nat.mod_eq_of_lt h]
  · rename_i h
    have := c.toNat_lt
    simp only [reduceCtorEq, false_iff]
    omega

/-- A sum that fits is returned. -/
theorem checkedAdd_of_lt {a b : UInt64} (h : a.toNat + b.toNat < 2 ^ 64) :
    ∃ c, checkedAdd a b = .ok c ∧ c.toNat = a.toNat + b.toNat :=
  ⟨a + b, by rw [checkedAdd, if_pos h], by rw [UInt64.toNat_add, Nat.mod_eq_of_lt h]⟩

/-- A difference that is not negative is returned. -/
theorem checkedSub_of_le {a b : UInt64} (h : b.toNat ≤ a.toNat) :
    ∃ c, checkedSub a b = .ok c ∧ c.toNat = a.toNat - b.toNat := by
  have h' : b ≤ a := UInt64.le_iff_toNat_le.mpr h
  exact ⟨a - b, by rw [checkedSub, if_pos h'], UInt64.toNat_sub_of_le _ _ h'⟩

/-- A product that fits is returned. -/
theorem checkedMul_of_lt {a b : UInt64} (h : a.toNat * b.toNat < 2 ^ 64) :
    ∃ c, checkedMul a b = .ok c ∧ c.toNat = a.toNat * b.toNat :=
  ⟨a * b, by rw [checkedMul, if_pos h], by rw [UInt64.toNat_mul, Nat.mod_eq_of_lt h]⟩

/-! ## Operations that saturate -/

/-- Addition, cut off at the largest word. -/
def saturatingAdd (a b : UInt64) : UInt64 :=
  if a.toNat + b.toNat < 2 ^ 64 then a + b else u64Max

/-- Subtraction, cut off at zero. -/
def saturatingSub (a b : UInt64) : UInt64 :=
  if b ≤ a then a - b else 0

@[simp] theorem toNat_saturatingAdd (a b : UInt64) :
    (saturatingAdd a b).toNat = min (a.toNat + b.toNat) 18446744073709551615 := by
  unfold saturatingAdd
  split
  · rename_i h
    rw [UInt64.toNat_add, Nat.mod_eq_of_lt h]
    omega
  · rw [toNat_u64Max]
    omega

@[simp] theorem toNat_saturatingSub (a b : UInt64) :
    (saturatingSub a b).toNat = a.toNat - b.toNat := by
  unfold saturatingSub
  split
  · rename_i h
    exact UInt64.toNat_sub_of_le _ _ h
  · rename_i h
    rw [UInt64.le_iff_toNat_le] at h
    simp only [UInt64.toNat_zero]
    omega

@[simp] theorem toNat_min (a b : UInt64) : (min a b).toNat = min a.toNat b.toNat := by
  rw [UInt64.min_def, Nat.min_def]
  simp only [UInt64.le_iff_toNat_le]
  split <;> rfl

/-! ## Conversions -/

/-- `u32::try_from`, stopping when the number does not fit. -/
def u32TryFrom (n : ℕ) : Except Panic UInt32 :=
  if n < 2 ^ 32 then .ok (UInt32.ofNat n) else .error .conversion

theorem u32TryFrom_eq_error {n : ℕ} {e : Panic} (h : u32TryFrom n = .error e) :
    e = .conversion := by
  unfold u32TryFrom at h
  split at h
  · cases h
  · exact (Except.error.inj h).symm

theorem u32TryFrom_of_lt {n : ℕ} (h : n < 2 ^ 32) :
    u32TryFrom n = .ok (UInt32.ofNat n) ∧ (UInt32.ofNat n).toNat = n :=
  ⟨if_pos h, UInt32.toNat_ofNat_of_lt' h⟩

/-! ## Absent values -/

/-- The value of an option, stopping when there is none. -/
def unwrap {α : Type*} : Option α → Except Panic α
  | some a => .ok a
  | none => .error .unwrapNone

/-- The value of an option, stopping with a message when there is none. -/
def expect {α : Type*} (msg : String) : Option α → Except Panic α
  | some a => .ok a
  | none => .error (.explicit msg)

@[simp] theorem unwrap_some {α : Type*} (a : α) : unwrap (some a) = .ok a := rfl

@[simp] theorem expect_some {α : Type*} (msg : String) (a : α) : expect msg (some a) = .ok a := rfl

theorem unwrap_eq_ok {α : Type*} {o : Option α} {a : α} : unwrap o = .ok a ↔ o = some a := by
  cases o <;> simp [unwrap]

theorem expect_eq_ok {α : Type*} {msg : String} {o : Option α} {a : α} :
    expect msg o = .ok a ↔ o = some a := by
  cases o <;> simp [expect]

theorem unwrap_eq_error {α : Type*} {o : Option α} {e : Panic} :
    unwrap o = .error e ↔ o = none ∧ e = .unwrapNone := by
  cases o <;> simp [unwrap, eq_comm]

theorem expect_eq_error {α : Type*} {msg : String} {o : Option α} {e : Panic} :
    expect msg o = .error e ↔ o = none ∧ e = .explicit msg := by
  cases o <;> simp [expect, eq_comm]

/-! ## Sequencing -/

section

variable {ε : Type*} {α β : Type v}

theorem bind_eq_ok {x : Except ε α} {f : α → Except ε β} {b : β} :
    x >>= f = .ok b ↔ ∃ a, x = .ok a ∧ f a = .ok b := by
  cases x <;> simp [bind, Except.bind]

/-- A sequence stops where its first part does, or after it. -/
theorem bind_eq_error {x : Except ε α} {f : α → Except ε β} {e : ε} :
    x >>= f = .error e ↔ x = .error e ∨ ∃ a, x = .ok a ∧ f a = .error e := by
  cases x <;> simp [bind, Except.bind]

@[simp] theorem ok_bind (a : α) (f : α → Except ε β) : ((.ok a : Except ε α) >>= f) = f a := rfl

@[simp] theorem error_bind (e : ε) (f : α → Except ε β) :
    ((.error e : Except ε α) >>= f) = .error e := rfl

@[simp] theorem pure_eq_ok {a b : α} : (pure a : Except ε α) = .ok b ↔ a = b :=
  Except.ok.injEq a b ▸ Iff.rfl

/-- What holds of the two results of a computation that returns them. -/
theorem exists_ok_and_iff {γ : Type v} {x : Except ε (α × γ)} {a : α} {c : γ} (h : x = .ok (a, c))
    {P : α → γ → Prop} : (∃ a' c', x = .ok (a', c') ∧ P a' c') ↔ P a c := by
  constructor
  · rintro ⟨a', c', h', hP⟩
    obtain ⟨rfl, rfl⟩ := Prod.mk.inj (Except.ok.inj (h.symm.trans h'))
    exact hP
  · intro hP
    exact ⟨a, c, h, hP⟩

/-- A list of computations that all succeed, element by element. -/
theorem mapM_eq_ok {f : α → Except ε β} {as : List α} {bs : List β} :
    as.mapM f = .ok bs ↔ List.Forall₂ (fun a b => f a = .ok b) as bs := by
  induction as generalizing bs with
  | nil =>
    constructor
    · intro h
      obtain rfl := pure_eq_ok.mp h
      exact .nil
    · rintro ⟨⟩
      rfl
  | cons a as ih =>
    rw [List.mapM_cons, bind_eq_ok]
    constructor
    · rintro ⟨b, hb, h⟩
      obtain ⟨bs', hbs, h⟩ := bind_eq_ok.mp h
      obtain rfl := pure_eq_ok.mp h
      exact .cons hb (ih.mp hbs)
    · rintro (_ | ⟨hb, hbs⟩)
      exact ⟨_, hb, bind_eq_ok.mpr ⟨_, ih.mpr hbs, rfl⟩⟩

theorem mapM_eq_ok_iff_map_eq {f : α → Except ε β} {as : List α} {bs : List β} :
    as.mapM f = .ok bs ↔ as.map f = bs.map .ok := by
  rw [mapM_eq_ok, ← List.forall₂_eq_eq_eq, List.forall₂_map_left_iff, List.forall₂_map_right_iff]

/-- What holds of the arguments with their results, when all computations succeed. -/
theorem forall_mem_zip_iff {f : α → Except ε β} {P : α → β → Prop} {as : List α} {bs : List β}
    (h : List.Forall₂ (fun a b => f a = .ok b) as bs) :
    (∀ x ∈ as.zip bs, P x.1 x.2) ↔ ∀ a ∈ as, ∀ b, f a = .ok b → P a b := by
  induction h with
  | nil => simp
  | @cons a b as bs hb _ ih =>
    rw [List.zip_cons_cons, List.forall_mem_cons, List.forall_mem_cons, ih]
    refine and_congr_left fun _ => ⟨fun hP b' hb' => ?_, fun hP => hP b hb⟩
    obtain rfl := Except.ok.inj (hb.symm.trans hb')
    exact hP

/-- What stands at a position of the results was computed from what stands there. -/
theorem rel_of_getElem? {γ : Type*} {R : α → γ → Prop} {as : List α} {cs : List γ}
    (h : List.Forall₂ R as cs) {i : ℕ} {a : α} {c : γ} (ha : as[i]? = some a)
    (hc : cs[i]? = some c) : R a c := by
  obtain ⟨hi, rfl⟩ := List.getElem?_eq_some_iff.mp ha
  obtain ⟨hi', rfl⟩ := List.getElem?_eq_some_iff.mp hc
  exact h.get hi hi'

/-- Lists of one length have elements at the same positions. -/
theorem exists_getElem? {γ : Type*} {as : List α} {cs : List γ} (h : as.length = cs.length) {i : ℕ}
    {a : α} (ha : as[i]? = some a) : ∃ c, cs[i]? = some c :=
  ⟨_, List.getElem?_eq_getElem (h ▸ (List.getElem?_eq_some_iff.mp ha).1)⟩

/-- Computations that succeed one by one have a list of results. -/
theorem exists_forall₂_ok {f : α → Except ε β} {P : β → Prop} {as : List α}
    (h : ∀ a ∈ as, ∃ b, f a = .ok b ∧ P b) :
    ∃ bs, List.Forall₂ (fun a b => f a = .ok b) as bs ∧ ∀ b ∈ bs, P b := by
  induction as with
  | nil => exact ⟨[], .nil, by simp⟩
  | cons a as ih =>
    obtain ⟨b, hb, hP⟩ := h a List.mem_cons_self
    obtain ⟨bs, hbs, hPs⟩ := ih fun a' ha' => h a' (List.mem_cons_of_mem _ ha')
    exact ⟨b :: bs, .cons hb hbs, List.forall_mem_cons.mpr ⟨hP, hPs⟩⟩

end

end Checked

end StakePoolCli
