import ClustlyEscrow.Foundations.Bank
import ClustlyEscrow.Foundations.Lockstep

/-!
# A bank with a surplus at one address

Two banks that only differ by a surplus at one address process the same
operations in lockstep, and the surplus stays where it is. The one thing to
know is that nothing is drawn from that address that the poorer bank lacks.
-/
namespace Foundations.Bank
variable {κ : Type*} [DecidableEq κ] {b b' c c' : Bank κ} {v authority source dest : κ}
  {d amount : ℕ}

/-- `b'` is `b` with `d` more tokens at `v`. -/
abbrev Surplus (v : κ) (d : ℕ) (b b' : Bank κ) : Prop :=
  b'.Observes b.mints b.holder fun k => b.balance k + if k = v then d else 0

theorem Surplus.balance_of_ne (h : Surplus v d b b') {k : κ} (hk : k ≠ v) :
    b'.balance k = b.balance k := by
  rw [h.balance, if_neg hk, Nat.add_zero]

theorem Surplus.le_balance (h : Surplus v d b b') (k : κ) : b.balance k ≤ b'.balance k := by
  rw [h.balance]
  exact Nat.le_add_right _ _

/-- A transfer that both sides can afford moves the same amount on both. -/
theorem Surplus.moved (h : Surplus v d b b') (hm : b.Moved c source dest amount)
    (hm' : b'.Moved c' source dest amount) (hle : amount ≤ b.balance source) :
    Surplus v d c c' := by
  refine ⟨hm'.mints.trans (h.mints.trans hm.mints.symm),
    fun k => (hm'.holder k).trans ((h.holder k).trans (hm.holder k).symm), fun k => ?_⟩
  rw [hm'.balance, hm.balance]
  simp only [movedBalance, h.balance]
  by_cases hsd : source = dest
  · rw [if_pos hsd, if_pos hsd]
  · rw [if_neg hsd, if_neg hsd]
    by_cases hks : k = source
    · subst k
      rw [if_pos rfl, if_pos rfl]
      omega
    · rw [if_neg hks, if_neg hks]
      split_ifs <;> omega

theorem Surplus.transfer (h : Surplus v d b b') (hcov : source = v → amount ≤ b.balance v) :
    Lockstep (Surplus v d) (b.transfer authority source dest amount)
      (b'.transfer authority source dest amount) := by
  apply Lockstep.of_follows
  · intro c hc
    obtain ⟨m, o, hs, hd, hle, hm⟩ := transfer_moved hc
    obtain ⟨c', hc'⟩ := transfer_succeeds ((h.holder source).trans hs) ((h.holder dest).trans hd)
      (hle.trans (h.le_balance source))
    obtain ⟨_, _, _, _, _, hm'⟩ := transfer_moved hc'
    exact ⟨c', hc', h.moved hm hm' hle⟩
  · intro c' hc'
    obtain ⟨m, o, hs, hd, hle, _⟩ := transfer_moved hc'
    apply transfer_succeeds ((h.holder source).symm.trans hs) ((h.holder dest).symm.trans hd)
    by_cases hsv : source = v
    · exact hsv ▸ hcov hsv
    · rw [← h.balance_of_ne hsv]
      exact hle

theorem Surplus.opened (h : Surplus v d b b') {k owner mint : κ}
    (ho : b.openAccount k owner mint = .ok c) (ho' : b'.openAccount k owner mint = .ok c') :
    Surplus v d c c' := by
  obtain ⟨_, _, _, hobs⟩ := openAccount_eq_ok.mp ho
  obtain ⟨_, _, _, hobs'⟩ := openAccount_eq_ok.mp ho'
  refine ⟨hobs'.mints.trans (h.mints.trans hobs.mints.symm), fun j => ?_, fun j => ?_⟩
  · rw [hobs'.holder, hobs.holder, funext h.holder]
  · rw [hobs'.balance, hobs.balance, h.balance]

theorem Surplus.openAccount (h : Surplus v d b b') (k owner mint : κ) :
    Lockstep (Surplus v d) (b.openAccount k owner mint) (b'.openAccount k owner mint) := by
  apply Lockstep.of_follows
  · intro c hc
    obtain ⟨hm, hk, hnone, _⟩ := openAccount_eq_ok.mp hc
    obtain ⟨c', hc'⟩ := openAccount_succeeds owner (h.mints.symm ▸ hm) (h.mints.symm ▸ hk)
      ((h.holder k).trans hnone)
    exact ⟨c', hc', h.opened hc hc'⟩
  · intro c' hc'
    obtain ⟨hm, hk, hnone, _⟩ := openAccount_eq_ok.mp hc'
    exact openAccount_succeeds owner (h.mints ▸ hm) (h.mints ▸ hk) ((h.holder k).symm.trans hnone)

/-- Emptying the address into another one moves the surplus there. -/
theorem Surplus.swept (h : Surplus v d b b') {P : κ} (hne : v ≠ P) {mints : Finset κ}
    {holder : κ → Option (κ × κ)} (hc : c.Observes mints holder (b.movedBalance v P (b.balance v)))
    (hc' : c'.Observes mints holder (b'.movedBalance v P (b'.balance v))) :
    Surplus P d c c' := by
  refine ⟨hc'.mints.trans hc.mints.symm, fun k => (hc'.holder k).trans (hc.holder k).symm,
    fun k => ?_⟩
  rw [hc'.balance, hc.balance]
  simp only [movedBalance, if_neg hne, h.balance, if_true]
  by_cases hkv : k = v
  · subst k
    simp only [if_true, if_neg hne]
    omega
  · simp only [if_neg hkv]
    split_ifs <;> omega

/-- Emptying another address leaves the surplus alone. -/
theorem Surplus.swept_of_ne (h : Surplus v d b b') {k P : κ} (hkv : k ≠ v) {mints : Finset κ}
    {holder : κ → Option (κ × κ)} (hc : c.Observes mints holder (b.movedBalance k P (b.balance k)))
    (hc' : c'.Observes mints holder (b'.movedBalance k P (b'.balance k))) :
    Surplus v d c c' := by
  refine ⟨hc'.mints.trans hc.mints.symm, fun j => (hc'.holder j).trans (hc.holder j).symm,
    fun j => ?_⟩
  rw [hc'.balance, hc.balance, h.balance_of_ne hkv]
  simp only [movedBalance, h.balance]
  by_cases hjk : j = k
  · subst j
    simp only [if_true, if_neg hkv, Nat.add_zero]
  · simp only [if_neg hjk]
    split_ifs <;> omega

end Foundations.Bank
