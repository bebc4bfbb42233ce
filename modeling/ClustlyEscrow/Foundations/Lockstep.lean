import ClustlyEscrow.Foundations.Checked

/-!
# Two fallible computations in lockstep

Two computations run in lockstep when both fail, or both succeed with related
results. The rules follow the text of a program, so a relation between two
states is carried through a handler statement by statement.
-/
namespace Foundations

universe u

inductive Lockstep {ε : Type*} {α α' : Type u} (R : α → α' → Prop) :
    Except ε α → Except ε α' → Prop
  | ok {a : α} {b : α'} (related : R a b) : Lockstep R (.ok a) (.ok b)
  | error (e e' : ε) : Lockstep R (.error e) (.error e')

namespace Lockstep
variable {ε : Type*} {α α' β β' : Type u} {R : α → α' → Prop} {S : β → β' → Prop}
  {x : Except ε α} {y : Except ε α'} {f : α → Except ε β} {g : α' → Except ε β'}

/-- A computation keeps pace with itself. -/
theorem refl (x : Except ε α) : Lockstep Eq x x := by
  cases x with
  | error e => exact .error e e
  | ok a => exact .ok rfl

theorem ret {a : α} {b : α'} (h : R a b) :
    Lockstep R (pure a : Except ε α) (pure b : Except ε α') :=
  .ok h

theorem mono {R' : α → α' → Prop} (h : Lockstep R x y) (hR : ∀ a b, R a b → R' a b) :
    Lockstep R' x y := by
  cases h with
  | ok related => exact .ok (hR _ _ related)
  | error e e' => exact .error e e'

/-- The general rule of sequencing: the rests keep pace on related results. -/
theorem seq (hx : Lockstep R x y)
    (hf : ∀ a b, x = .ok a → y = .ok b → R a b → Lockstep S (f a) (g b)) :
    Lockstep S (x >>= f) (y >>= g) := by
  cases hx with
  | ok related => exact hf _ _ rfl rfl related
  | error e e' => exact .error e e'

/-- Sequencing after a first step that gives both sides the same result. -/
theorem seq_eq {y : Except ε α} {g : α → Except ε β'} (hx : Lockstep Eq x y)
    (hf : ∀ a, x = .ok a → y = .ok a → Lockstep S (f a) (g a)) :
    Lockstep S (x >>= f) (y >>= g) := by
  apply hx.seq
  rintro a _ ha hb rfl
  exact hf a ha hb

theorem require {p q : Prop} [Decidable p] [Decidable q] {e : ε} (h : p ↔ q) :
    Lockstep Eq (Foundations.require p e) (Foundations.require q e) := by
  unfold Foundations.require
  by_cases hp : p
  · rw [if_pos hp, if_pos (h.mp hp)]
    exact .ok rfl
  · rw [if_neg hp, if_neg (fun hq => hp (h.mpr hq))]
    exact .error e e

/-- When each side can follow the other, they are in lockstep. -/
theorem of_follows (hx : ∀ a, x = .ok a → ∃ b, y = .ok b ∧ R a b)
    (hy : ∀ b, y = .ok b → ∃ a, x = .ok a) : Lockstep R x y := by
  cases x with
  | ok a =>
    obtain ⟨b, rfl, related⟩ := hx a rfl
    exact .ok related
  | error e =>
    cases y with
    | error e' => exact .error e e'
    | ok b =>
      obtain ⟨_, ha⟩ := hy b rfl
      cases ha

theorem follow {a : α} (h : Lockstep R x y) (hx : x = .ok a) : ∃ b, y = .ok b ∧ R a b := by
  subst hx
  cases h with
  | ok related => exact ⟨_, rfl, related⟩

theorem follow_back {b : α'} (h : Lockstep R x y) (hy : y = .ok b) : ∃ a, x = .ok a ∧ R a b := by
  subst hy
  cases h with
  | ok related => exact ⟨_, rfl, related⟩

end Lockstep
end Foundations
