import Mathlib.Algebra.Order.Ring.Nat
import Mathlib.Logic.Relation

/-!
# The pot of one task

What a vault is for, without accounts and signers. A pot is funded with one
bounty for every slot; each slot is paid out or refunded at most once, anybody
may donate, and what is left at the end goes back. The pot covers every slot
that is still free, and the donations are never touched before the end.
-/
namespace ClustlyEscrow

structure Pot where
  bounty : ℕ
  slots : ℕ
  paid : ℕ
  refunded : ℕ
  held : ℕ
  donated : ℕ
  returned : ℕ
  deriving DecidableEq, Repr

namespace Pot

def funded (bounty slots : ℕ) : Pot := ⟨bounty, slots, 0, 0, bounty * slots, 0, 0⟩

inductive Step (p : Pot) : Pot → Prop
  | pay (free : p.paid + p.refunded < p.slots) :
      Step p { p with paid := p.paid + 1, held := p.held - p.bounty }
  | refund (free : p.paid + p.refunded < p.slots) :
      Step p { p with
        refunded := p.refunded + 1
        held := p.held - p.bounty
        returned := p.returned + p.bounty }
  | donate (n : ℕ) : Step p { p with held := p.held + n, donated := p.donated + n }

/-- The books of a pot balance: nothing is lost, created or paid twice. -/
structure Solvent (p : Pot) : Prop where
  within : p.paid + p.refunded ≤ p.slots
  held : p.held = p.bounty * (p.slots - p.paid - p.refunded) + p.donated
  returned : p.returned = p.bounty * p.refunded

theorem solvent_funded (bounty slots : ℕ) : (funded bounty slots).Solvent :=
  ⟨Nat.zero_le _, rfl, rfl⟩

/-- A free slot is covered, whatever was donated. -/
theorem Solvent.covers {p : Pot} (h : p.Solvent) (free : p.paid + p.refunded < p.slots) :
    p.bounty ≤ p.held := by
  have hle := Nat.le_mul_of_pos_right p.bounty (show 0 < p.slots - p.paid - p.refunded by omega)
  have hheld := h.held
  omega

/-- Settling a slot takes its bounty from what the free slots hold. -/
theorem bounty_mul_settle (bounty : ℕ) {free : ℕ} (hfree : 0 < free) :
    bounty * free = bounty * (free - 1) + bounty := by
  obtain ⟨n, rfl⟩ : ∃ n, free = n + 1 := ⟨free - 1, by omega⟩
  rw [Nat.add_sub_cancel, Nat.mul_succ]

theorem Solvent.step {p q : Pot} (h : p.Solvent) (hs : Step p q) : q.Solvent := by
  have hheld := h.held
  cases hs with
  | pay free =>
    have hsettle := bounty_mul_settle p.bounty
      (show 0 < p.slots - p.paid - p.refunded by omega)
    have hleft : p.slots - (p.paid + 1) - p.refunded = p.slots - p.paid - p.refunded - 1 := by omega
    constructor
    · dsimp only
      omega
    · dsimp only
      rw [hleft]
      omega
    · exact h.returned
  | refund free =>
    have hsettle := bounty_mul_settle p.bounty
      (show 0 < p.slots - p.paid - p.refunded by omega)
    have hleft : p.slots - p.paid - (p.refunded + 1) = p.slots - p.paid - p.refunded - 1 := by omega
    have hreturned := h.returned
    constructor
    · dsimp only
      omega
    · dsimp only
      rw [hleft]
      omega
    · dsimp only
      rw [hreturned, Nat.mul_succ]
  | donate n => exact ⟨h.within, by dsimp only; omega, h.returned⟩

theorem solvent_of_steps {bounty slots : ℕ} {p : Pot}
    (hs : Relation.ReflTransGen Step (funded bounty slots) p) : p.Solvent := by
  induction hs with
  | refl => exact solvent_funded bounty slots
  | tail _ step ih => exact ih.step step

/-- Once the rest is returned too, the unpaid slots and the donations are back. -/
theorem Solvent.returned_in_full {p : Pot} (h : p.Solvent) :
    p.returned + p.held = p.bounty * (p.slots - p.paid) + p.donated := by
  have hslots : p.bounty * (p.slots - p.paid) =
      p.bounty * p.refunded + p.bounty * (p.slots - p.paid - p.refunded) := by
    have hwithin := h.within
    rw [← Nat.mul_add]
    congr 1
    omega
  have hheld := h.held
  rw [h.returned]
  omega

end Pot
end ClustlyEscrow
