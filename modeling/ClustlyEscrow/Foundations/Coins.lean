import ClustlyEscrow.Foundations.Footprint

/-!
# Coins at addresses

The native coin of a ledger: every address holds an amount, and coins move
between two addresses. What an operation does at the other addresses, and that
it is local to the two, is all that is said of it.
-/
namespace Foundations

universe u
variable {κ : Type u} [DecidableEq κ]

abbrev Coins (κ : Type u) := κ → ℕ

namespace Coins
variable {c d : Coins κ} {k source dest : κ} {n : ℕ}

def move (c : Coins κ) (source dest : κ) (n : ℕ) : Coins κ := fun k =>
  if source = dest then c k
  else if k = source then c k - n
  else if k = dest then c k + n
  else c k

def burn (c : Coins κ) (source : κ) (n : ℕ) : Coins κ := fun k =>
  if k = source then c k - n else c k

theorem le_move (hk : k ≠ source) : c k ≤ c.move source dest n k := by
  unfold move
  split_ifs
  all_goals omega

theorem move_of_ne (hs : k ≠ source) (hd : k ≠ dest) : c.move source dest n k = c k := by
  simp [move, hs, hd]

theorem move_source (hne : source ≠ dest) : c.move source dest n source = c source - n := by
  simp [move, hne]

theorem move_dest (hne : source ≠ dest) : c.move source dest n dest = c dest + n := by
  simp [move, hne, hne.symm]

/-- Nobody loses more than the amount. -/
theorem le_move_add (k : κ) : c k ≤ c.move source dest n k + n := by
  unfold move
  split_ifs
  all_goals omega

theorem le_burn_add (k : κ) : c k ≤ c.burn source n k + n := by
  unfold burn
  split_ifs
  all_goals omega

theorem burn_of_ne (hk : k ≠ source) : c.burn source n k = c k := if_neg hk

/-- The cells of the coins are the amounts themselves. -/
def cell (c : Coins κ) (k : κ) : ℕ := c k

theorem move_footprint {W : Set κ} (h : AgreeOn cell W c d) (hs : source ∈ W) (hd : dest ∈ W) :
    Wrote cell W c d (c.move source dest n) (d.move source dest n) := by
  constructor
  · intro k hk
    have hsame : c k = d k := h k hk
    simp only [cell, move, hsame]
  · intro k hk
    exact move_of_ne (fun heq => hk (heq ▸ hs)) (fun heq => hk (heq ▸ hd))
  · intro k hk
    exact move_of_ne (fun heq => hk (heq ▸ hs)) (fun heq => hk (heq ▸ hd))

end Coins
end Foundations
