import Mathlib.Algebra.Order.Ring.Int
import Mathlib.Data.List.Forall2
import Mathlib.Tactic.Linarith
import Mathlib.Tactic.NormNum

/-!
# Checked machine arithmetic and fallible steps

Fixed-width arguments are subtypes; values computed from them are plain numbers
and each overflow check of the program is an explicit partial operation. A
computation in `Except` is taken apart by the `_eq_ok` lemmas; the errors it can
fail with are bounded step by step with `FailsOnly`.
-/
namespace Foundations

/-! Numerals of the machine widths. -/

instance neZeroTwoPow16 : NeZero (2 ^ 16) := ⟨(Nat.two_pow_pos 16).ne'⟩
instance neZeroTwoPow32 : NeZero (2 ^ 32) := ⟨(Nat.two_pow_pos 32).ne'⟩
instance neZeroTwoPow63 : NeZero (2 ^ 63) := ⟨(Nat.two_pow_pos 63).ne'⟩
instance neZeroTwoPow64 : NeZero (2 ^ 64) := ⟨(Nat.two_pow_pos 64).ne'⟩

abbrev U16 := Fin (2 ^ 16)
abbrev U32 := Fin (2 ^ 32)
abbrev U64 := Fin (2 ^ 64)

abbrev InI64 (t : ℤ) : Prop := -2 ^ 63 ≤ t ∧ t < 2 ^ 63
abbrev I64 := { t : ℤ // InI64 t }

def checkedAdd (bits a b : ℕ) : Option ℕ := if a + b < 2 ^ bits then some (a + b) else none
def checkedMul (bits a b : ℕ) : Option ℕ := if a * b < 2 ^ bits then some (a * b) else none
def checkedSub (a b : ℕ) : Option ℕ := if b ≤ a then some (a - b) else none
def checkedDiv (a b : ℕ) : Option ℕ := if b = 0 then none else some (a / b)

/-- A truncating cast to 64 bits. -/
def asU64 (n : ℕ) : ℕ := n % 2 ^ 64

/-- A checked conversion to 64 bits. -/
def tryIntoU64 (n : ℕ) : Option ℕ := if n < 2 ^ 64 then some n else none

def saturatingSubI64 (a b : ℤ) : ℤ := max (-2 ^ 63) (min (2 ^ 63 - 1) (a - b))

/-- Subtraction as compiled with overflow checks. -/
def subI64 (a b : ℤ) : Option ℤ := if InI64 (a - b) then some (a - b) else none

theorem checkedAdd_eq_some {bits a b c : ℕ} :
    checkedAdd bits a b = some c ↔ a + b < 2 ^ bits ∧ c = a + b := by
  unfold checkedAdd
  split_ifs with h <;> simp [h, eq_comm]

theorem checkedMul_eq_some {bits a b c : ℕ} :
    checkedMul bits a b = some c ↔ a * b < 2 ^ bits ∧ c = a * b := by
  unfold checkedMul
  split_ifs with h <;> simp [h, eq_comm]

theorem checkedMul_eq_none {bits a b : ℕ} : checkedMul bits a b = none ↔ 2 ^ bits ≤ a * b := by
  unfold checkedMul
  split_ifs with h <;> simpa using h

theorem checkedSub_eq_some {a b c : ℕ} : checkedSub a b = some c ↔ b ≤ a ∧ c = a - b := by
  unfold checkedSub
  split_ifs with h <;> simp [h, eq_comm]

theorem checkedDiv_eq_some {a b c : ℕ} : checkedDiv a b = some c ↔ b ≠ 0 ∧ c = a / b := by
  unfold checkedDiv
  split_ifs with h <;> simp [h, eq_comm]

theorem tryIntoU64_eq_some {n m : ℕ} : tryIntoU64 n = some m ↔ n < 2 ^ 64 ∧ m = n := by
  unfold tryIntoU64
  split_ifs with h
  · rw [Option.some.injEq, eq_comm, and_iff_right h]
  · simp only [h, false_and]

theorem tryIntoU64_eq_none {n : ℕ} : tryIntoU64 n = none ↔ 2 ^ 64 ≤ n := by
  unfold tryIntoU64
  split_ifs with h <;> simpa using h

theorem subI64_eq_some {a b c : ℤ} : subI64 a b = some c ↔ InI64 (a - b) ∧ c = a - b := by
  unfold subI64
  split_ifs with h
  · rw [Option.some.injEq, eq_comm, and_iff_right h]
  · simp only [h, false_and]

/-- Saturation never decides a comparison with a bound inside the range. -/
theorem le_saturatingSubI64 {w a b : ℤ} (hlo : -2 ^ 63 < w) (hhi : w < 2 ^ 63) :
    w ≤ saturatingSubI64 a b ↔ w ≤ a - b := by
  unfold saturatingSubI64
  omega

/-- When `a` parts in `d` of an amount are a fee, rounding the fee down leaves a
unit more than rounding the rest down does, unless the fee is exact. -/
theorem rest_of_fee (n : ℕ) {a d : ℕ} (hd : 0 < d) (ha : a ≤ d) :
    n - n * a / d = n * (d - a) / d + if d ∣ n * a then 0 else 1 := by
  have hrest : n * (d - a) = d * n - n * a := by
    rw [Nat.mul_sub, Nat.mul_comm n d]
  have hle : n * a ≤ d * n := by
    rw [Nat.mul_comm d n]
    exact Nat.mul_le_mul_left n ha
  rw [hrest]
  by_cases hdvd : d ∣ n * a
  · rw [if_pos hdvd, Nat.mul_sub_div_of_dvd hd.ne' hdvd, Nat.add_zero]
  · obtain ⟨x, hx⟩ : ∃ x, n * a = x + 1 := by
      apply Nat.exists_eq_add_one_of_ne_zero
      intro hz
      exact hdvd (hz ▸ Nat.dvd_zero d)
    rw [hx] at hdvd hle
    have hquot : x / d < n := Nat.div_lt_of_lt_mul hle
    rw [hx, if_neg hdvd, Nat.mul_sub_div x d n hle, Nat.succ_div_of_not_dvd hdvd]
    omega

section Fallible
universe u
variable {ε : Type*} {α β : Type u}

def okOr (o : Option α) (e : ε) : Except ε α := o.elim (.error e) .ok

def require (p : Prop) [Decidable p] (e : ε) : Except ε Unit := if p then .ok () else .error e

@[simp] theorem okOr_eq_ok (o : Option α) (e : ε) (a : α) : okOr o e = .ok a ↔ o = some a := by
  cases o <;> simp [okOr]

@[simp] theorem require_eq_ok (p : Prop) [Decidable p] (e : ε) (v : Unit) :
    require p e = .ok v ↔ p := by
  unfold require
  split_ifs with h <;> simp [h]

/-- A sequence succeeds exactly when its first step does and the rest does on its result. -/
@[simp] theorem seq_eq_ok (x : Except ε α) (f : α → Except ε β) (b : β) :
    x >>= f = .ok b ↔ ∃ a, x = .ok a ∧ f a = .ok b := by
  rcases x with e | a <;> simp [bind, Except.bind]

@[simp] theorem return_eq_ok (a b : α) : (pure a : Except ε α) = .ok b ↔ a = b := by
  simp only [pure, Except.pure, Except.ok.injEq]

/-- Hold the front of the second list against the first, item by item, and
return what comes after it. -/
def checkFront {γ : Type*} {δ : Type} (check : γ → δ → Except ε Unit) (short : ε) :
    List γ → List δ → Except ε (List δ)
  | [], ds => .ok ds
  | _ :: _, [] => .error short
  | c :: cs, d :: ds => do
    check c d
    checkFront check short cs ds

theorem checkFront_eq_ok {γ : Type*} {δ : Type} {check : γ → δ → Except ε Unit} {short : ε}
    {cs : List γ} {ds rest : List δ} : checkFront check short cs ds = .ok rest ↔
      ∃ front, ds = front ++ rest ∧ List.Forall₂ (fun c d => check c d = .ok ()) cs front := by
  induction cs generalizing ds with
  | nil =>
    simp only [checkFront, Except.ok.injEq, List.forall₂_nil_left_iff,
      List.nil_append, exists_eq_right]
  | cons c cs ih =>
    cases ds with
    | nil =>
      constructor
      · intro h
        cases h
      · rintro ⟨front, hfront, hall⟩
        obtain ⟨rfl, _⟩ := List.nil_eq_append_iff.mp hfront
        cases hall
    | cons d ds =>
      simp only [checkFront, seq_eq_ok, ih]
      constructor
      · rintro ⟨_, hd, front, rfl, hall⟩
        exact ⟨d :: front, rfl, .cons hd hall⟩
      · rintro ⟨front, hfront, hall⟩
        cases hall with
        | cons hd hall =>
          obtain ⟨rfl, rfl⟩ := List.cons_eq_cons.mp hfront
          exact ⟨(), hd, _, rfl, hall⟩

/-! ### The failing side -/

@[simp] theorem mapError_eq_ok {ε' : Type*} (f : ε → ε') (x : Except ε α) (a : α) :
    x.mapError f = .ok a ↔ x = .ok a := by
  cases x <;> simp [Except.mapError]

theorem okOr_eq_error (o : Option α) (e e' : ε) : okOr o e = .error e' ↔ o = none ∧ e = e' := by
  cases o <;> simp [okOr]

theorem require_eq_error (p : Prop) [Decidable p] (e e' : ε) :
    require p e = .error e' ↔ ¬ p ∧ e = e' := by
  unfold require
  split_ifs with h <;> simp [h]

theorem seq_eq_error (x : Except ε α) (f : α → Except ε β) (e : ε) :
    x >>= f = .error e ↔ x = .error e ∨ ∃ a, x = .ok a ∧ f a = .error e := by
  rcases x with e' | a <;> simp [bind, Except.bind]

theorem return_ne_error (a : α) (e : ε) : (pure a : Except ε α) ≠ .error e := by
  simp [pure, Except.pure]

/-- A guard with another error has passed. -/
theorem require_seq_eq_error {γ : Type} {p : Prop} [Decidable p] {e e' : ε}
    {f : Unit → Except ε γ} (hne : e ≠ e') :
    require p e >>= f = .error e' ↔ p ∧ f () = .error e' := by
  simp only [seq_eq_error, require_eq_error, hne, and_false, false_or, require_eq_ok]
  exact ⟨fun ⟨_, hp, hf⟩ => ⟨hp, hf⟩, fun ⟨hp, hf⟩ => ⟨(), hp, hf⟩⟩

/-- Whatever error the computation fails with satisfies `P`. -/
def FailsOnly (P : ε → Prop) (x : Except ε α) : Prop := ∀ e, x = .error e → P e

namespace FailsOnly
variable {P Q : ε → Prop} {x : Except ε α} {f : α → Except ε β} {e : ε}

theorem require {p : Prop} [Decidable p] (he : P e) : FailsOnly P (Foundations.require p e) := by
  intro e' h
  exact ((require_eq_error _ _ _).mp h).2 ▸ he

theorem okOr {o : Option α} (he : P e) : FailsOnly P (Foundations.okOr o e) := by
  intro e' h
  exact ((okOr_eq_error _ _ _).mp h).2 ▸ he

theorem ret (a : α) : FailsOnly P (pure a : Except ε α) := by
  intro e h
  exact absurd h (return_ne_error a e)

theorem of_ok {a : α} (h : x = .ok a) : FailsOnly P x := by
  intro e he
  rw [h] at he
  cases he

theorem checkedAdd {bits a b : ℕ} {e : ε} (h : a + b < 2 ^ bits) :
    FailsOnly P (Foundations.okOr (Foundations.checkedAdd bits a b) e) :=
  .of_ok ((okOr_eq_ok _ _ _).mpr (checkedAdd_eq_some.mpr ⟨h, rfl⟩))

theorem mono (hx : FailsOnly P x) (h : ∀ e, P e → Q e) : FailsOnly Q x :=
  fun e he => h e (hx e he)

/-- In a sequence the rest has to fail within `P` only on the results that the
first step can have. -/
theorem seq (hx : FailsOnly P x) (hf : ∀ a, x = .ok a → FailsOnly P (f a)) :
    FailsOnly P (x >>= f) := by
  intro e h
  rcases (seq_eq_error _ _ _).mp h with he | ⟨a, ha, he⟩
  · exact hx e he
  · exact hf a ha e he

/-- An error outside `P` comes from the rest of the sequence. -/
theorem seq_eq_error (hx : FailsOnly P x) (he : ¬ P e) :
    x >>= f = .error e ↔ ∃ a, x = .ok a ∧ f a = .error e := by
  rw [Foundations.seq_eq_error, or_iff_right]
  exact fun h => he (hx e h)

end FailsOnly

end Fallible
end Foundations
