import ClustlyEscrow.Foundations.Bank
import ClustlyEscrow.Foundations.Footprint

/-!
# Footprints of the bank operations

The cell of a bank at an address: whether a mint is registered there, and who
holds how much. A transfer, an opening and a closing read and write the cells of
the accounts they name; an opening also reads the cell of the mint.
-/
namespace Foundations.Bank

universe u
variable {κ : Type u} [DecidableEq κ]

def cell (b : Bank κ) (k : κ) : Bool × Option (κ × κ) × ℕ :=
  (decide (k ∈ b.mints), b.holder k, b.balance k)

theorem cell_eq_iff {b c : Bank κ} {k : κ} : b.cell k = c.cell k ↔
    (k ∈ b.mints ↔ k ∈ c.mints) ∧ b.holder k = c.holder k ∧ b.balance k = c.balance k := by
  simp [cell]

theorem ext_cell {b c : Bank κ} (h : ∀ k, b.cell k = c.cell k) : b = c := by
  apply ext_observers
  · ext k
    exact (cell_eq_iff.mp (h k)).1
  · exact fun k => (cell_eq_iff.mp (h k)).2.1
  · exact fun k => (cell_eq_iff.mp (h k)).2.2

section Operations
variable {b c b' c' : Bank κ} {A W : Set κ} {k source dest authority owner mint : κ} {amount : ℕ}

theorem mint_iff_of_agree (h : AgreeOn cell A b c) (hk : k ∈ A) :
    k ∈ b.mints ↔ k ∈ c.mints :=
  (cell_eq_iff.mp (h k hk)).1

theorem holder_of_agree (h : AgreeOn cell A b c) (hk : k ∈ A) : b.holder k = c.holder k :=
  (cell_eq_iff.mp (h k hk)).2.1

theorem balance_of_agree (h : AgreeOn cell A b c) (hk : k ∈ A) : b.balance k = c.balance k :=
  (cell_eq_iff.mp (h k hk)).2.2

/-- A write is traced by its observers: equal where both may write, unchanged elsewhere. -/
theorem wrote_of_observes {holder holder' : κ → Option (κ × κ)} {balance balance' : κ → ℕ}
    (h : AgreeOn cell W b c) (hb : b'.Observes b.mints holder balance)
    (hc : c'.Observes c.mints holder' balance')
    (hin : ∀ k ∈ W, holder k = holder' k ∧ balance k = balance' k)
    (hout : ∀ k ∉ W, (holder k = b.holder k ∧ balance k = b.balance k) ∧
      holder' k = c.holder k ∧ balance' k = c.balance k) : Wrote cell W b c b' c' := by
  constructor
  · intro k hk
    rw [cell_eq_iff, hb.mints, hc.mints, hb.holder, hc.holder, hb.balance, hc.balance]
    exact ⟨mint_iff_of_agree h hk, hin k hk⟩
  · intro k hk
    rw [cell_eq_iff, hb.mints, hb.holder, hb.balance]
    exact ⟨Iff.rfl, (hout k hk).1⟩
  · intro k hk
    rw [cell_eq_iff, hc.mints, hc.holder, hc.balance]
    exact ⟨Iff.rfl, (hout k hk).2⟩

theorem wrote_of_moved (h : AgreeOn cell W b c) (hs : source ∈ W) (hd : dest ∈ W)
    (hm : b.Moved b' source dest amount) (hm' : c.Moved c' source dest amount) :
    Wrote cell W b c b' c' := by
  apply wrote_of_observes h hm hm'
  · intro k hk
    refine ⟨holder_of_agree h hk, ?_⟩
    simp only [movedBalance, balance_of_agree h hk]
  · intro k hk
    have hks : k ≠ source := fun heq => hk (heq ▸ hs)
    have hkd : k ≠ dest := fun heq => hk (heq ▸ hd)
    simp [movedBalance, hks, hkd]

theorem transfer_footprint (h : AgreeOn cell W b c) (hs : source ∈ W) (hd : dest ∈ W) :
    Lockstep (Wrote cell W b c) (b.transfer authority source dest amount)
      (c.transfer authority source dest amount) := by
  apply Lockstep.of_follows
  · intro b' hb'
    obtain ⟨m, o, hsrc, hdst, hle, hm⟩ := transfer_moved hb'
    obtain ⟨c', hc'⟩ := transfer_succeeds ((holder_of_agree h hs).symm.trans hsrc)
      ((holder_of_agree h hd).symm.trans hdst) (balance_of_agree h hs ▸ hle)
    obtain ⟨_, _, _, _, _, hm'⟩ := transfer_moved hc'
    exact ⟨c', hc', wrote_of_moved h hs hd hm hm'⟩
  · intro c' hc'
    obtain ⟨m, o, hsrc, hdst, hle, _⟩ := transfer_moved hc'
    exact transfer_succeeds ((holder_of_agree h hs).trans hsrc)
      ((holder_of_agree h hd).trans hdst) (balance_of_agree h hs ▸ hle)

theorem openAccount_footprint (h : AgreeOn cell W b c) (hk : k ∈ W)
    (hmint : mint ∈ b.mints ↔ mint ∈ c.mints) :
    Lockstep (Wrote cell W b c) (b.openAccount k owner mint) (c.openAccount k owner mint) := by
  have hkm := mint_iff_of_agree h hk
  apply Lockstep.of_follows
  · intro b' hb'
    obtain ⟨hm, hnk, hfree, hobs⟩ := openAccount_eq_ok.mp hb'
    obtain ⟨c', hc'⟩ := openAccount_succeeds owner (hmint.mp hm) (fun hc => hnk (hkm.mpr hc))
      ((holder_of_agree h hk).symm.trans hfree)
    obtain ⟨_, _, _, hobs'⟩ := openAccount_eq_ok.mp hc'
    refine ⟨c', hc', wrote_of_observes h hobs hobs' (fun j hj => ?_) (fun j hj => ?_)⟩
    · refine ⟨?_, balance_of_agree h hj⟩
      simp only [Function.update_apply, holder_of_agree h hj]
    · have hjk : j ≠ k := fun heq => hj (heq ▸ hk)
      simp [Function.update_of_ne hjk]
  · intro c' hc'
    obtain ⟨hm, hnk, hfree, _⟩ := openAccount_eq_ok.mp hc'
    exact openAccount_succeeds owner (hmint.mpr hm) (fun hb => hnk (hkm.mp hb))
      ((holder_of_agree h hk).trans hfree)

theorem closeAccount_footprint (h : AgreeOn cell W b c) (hk : k ∈ W) :
    Lockstep (Wrote cell W b c) (b.closeAccount authority k) (c.closeAccount authority k) := by
  apply Lockstep.of_follows
  · intro b' hb'
    obtain ⟨⟨m, hh⟩, hz, hobs⟩ := closeAccount_eq_ok.mp hb'
    obtain ⟨c', hc'⟩ := closeAccount_succeeds ((holder_of_agree h hk).symm.trans hh)
      ((balance_of_agree h hk).symm.trans hz)
    obtain ⟨_, _, hobs'⟩ := closeAccount_eq_ok.mp hc'
    refine ⟨c', hc', wrote_of_observes h hobs hobs' (fun j hj => ?_) (fun j hj => ?_)⟩
    · refine ⟨?_, balance_of_agree h hj⟩
      simp only [Function.update_apply, holder_of_agree h hj]
    · have hjk : j ≠ k := fun heq => hj (heq ▸ hk)
      simp [Function.update_of_ne hjk]
  · intro c' hc'
    obtain ⟨⟨m, hh⟩, hz, _⟩ := closeAccount_eq_ok.mp hc'
    exact closeAccount_succeeds ((holder_of_agree h hk).trans hh)
      ((balance_of_agree h hk).trans hz)

end Operations
end Foundations.Bank
