import ClustlyEscrow.Guarantees.Lifecycle
import ClustlyEscrow.Guarantees.Solvency
import ClustlyEscrow.Simulation.Twin

/-!
# Operations on different claims commute

Handling one claim leaves a state that is a twin of the old one for every other
claim, and the vaults of a reachable state cover every live claim. So whoever
orders the transactions decides nothing.
-/
namespace ClustlyEscrow
open Foundations

section Commute
variable {s s' s₁ s₁' s₂ mid : State} {h h₁ h₂ : History} {out out₁ out₂ : List Transfer}
  {l l₁ l₂ : Label} {c c₁ c₂ : Pubkey}

/-- A change to one claim is invisible to the handlers of another one. -/
theorem Change.Applied.twin {x : Change} (hx : x.Applied s s') (hne : c ≠ x.claim) :
    Twin c s s' := by
  refine ⟨hx.config, hx.mints, hx.holder, ?_, fun T => ?_⟩
  · rw [hx.claims, Store.get_set_of_ne _ hne]
  · rw [hx.tasks]
    split_ifs
    · rw [Option.map_map]
      rfl
    · rfl

theorem Twin.refl (c : Pubkey) (s : State) : Twin c s s :=
  ⟨rfl, rfl, fun _ => rfl, rfl, fun _ => rfl⟩

/-- In reachable states nothing stands in the way of a settlement, so twins are paired. -/
theorem Twin.paired (ht : Twin c s₁ s₂) (hr₁ : Reaches h₁ s₁) (hr₂ : Reaches h₂ s₂)
    (hno₁ : ∀ e ∈ h₁, e.label.updatesMint = false)
    (hno₂ : ∀ e ∈ h₂, e.label.updatesMint = false) : Paired c s₁ s₂ := by
  refine ⟨ht, hr₁.sound, hr₂.sound, fun r t => hr₁.counter_room, fun r t => hr₂.counter_room, ?_⟩
  intro cfg r t hcfg hc hl hget
  obtain ⟨t₂, hget₂, hsame⟩ := ht.task_of hget
  have hcov₁ := (hr₁.covered (.of_no_update hno₁) hc hl hget hcfg).2
  have hcov₂ := (hr₂.covered (.of_no_update hno₂) (ht.claim.trans hc) hl hget₂
    (ht.config.trans hcfg)).2
  rw [bounty_of_uncounted hsame] at hcov₂
  exact iff_of_true hcov₁ hcov₂

theorem Label.no_update_of_handles (hl : l.handles c = true) : l.updatesMint = false := by
  apply Label.updatesMint_eq_false
  rintro now a rfl
  simp [Label.handles, Label.claim?, Instruction.claim?] at hl

/-- From a paired state the same instruction makes the same change. -/
theorem Paired.follows (h : Paired c s₁ s₂) (hl : l.handles c = true)
    (hstep : Accepts exec s₁ l out s₁') :
    ∃ s₂', Accepts exec s₂ l out s₂' ∧ SameChange c s₁ s₁' s₂ s₂' := by
  cases l with
  | token => simp [Label.handles, Label.claim?] at hl
  | instr now ix =>
    cases ix
    case submit a hash =>
      cases of_decide_eq_true hl
      exact h.submit hstep
    case approveClaim a =>
      cases of_decide_eq_true hl
      exact h.approveClaim hstep
    case rejectClaim a =>
      cases of_decide_eq_true hl
      exact h.rejectClaim hstep
    case autoApprove a =>
      cases of_decide_eq_true hl
      exact h.autoApprove hstep
    case openDispute a =>
      cases of_decide_eq_true hl
      exact h.openDispute hstep
    case resolveDispute a favor =>
      cases of_decide_eq_true hl
      exact h.resolveDispute hstep
    case autoResolveDispute a =>
      cases of_decide_eq_true hl
      exact h.autoResolveDispute hstep
    all_goals simp [Label.handles, Label.claim?, Instruction.claim?] at hl

/-- Two steps on different claims can be swapped. -/
theorem Reaches.swap (hr : Reaches h s) (hno : ∀ e ∈ h, e.label.updatesMint = false)
    (hl₁ : l₁.handles c₁ = true) (hl₂ : l₂.handles c₂ = true) (hne : c₁ ≠ c₂)
    (hstep₁ : Accepts exec s l₁ out₁ mid) (hstep₂ : Accepts exec mid l₂ out₂ s') :
    ∃ mid', Accepts exec s l₂ out₂ mid' ∧ Accepts exec mid' l₁ out₁ s' := by
  have hno₁ : ∀ e ∈ (⟨l₁, s, mid, out₁⟩ :: h : History), e.label.updatesMint = false :=
    List.forall_mem_cons.mpr ⟨Label.no_update_of_handles hl₁, hno⟩
  have hr₁ : Reaches (⟨l₁, s, mid, out₁⟩ :: h) mid := hr.next hstep₁
  -- The second step is moved to the front ...
  obtain ⟨_, _, x, hx, hxs, _⟩ := ((Twin.refl c₁ s).paired hr hr hno hno).follows hl₁ hstep₁
  have htwin₂ : Twin c₂ s mid := hxs.twin (hx ▸ hne.symm)
  obtain ⟨n, hfirst, y, hy, hymid, hys⟩ :=
    (htwin₂.symm.paired hr₁ hr hno₁ hno).follows hl₂ hstep₂
  -- ... and the first one is repeated after it.
  have hno₂ : ∀ e ∈ (⟨l₂, s, n, out₂⟩ :: h : History), e.label.updatesMint = false :=
    List.forall_mem_cons.mpr ⟨Label.no_update_of_handles hl₂, hno⟩
  have hr₂ : Reaches (⟨l₂, s, n, out₂⟩ :: h) n := hr.next hfirst
  have htwin₁ : Twin c₁ s n := hys.twin (hy ▸ hne)
  obtain ⟨s'', hsecond, z, hz, hzs, hzn⟩ :=
    (htwin₁.paired hr hr₂ hno hno₂).follows hl₁ hstep₁
  have hends : s' = s'' := hzs.commute (by rw [hz, hy]; exact hne) hymid hys hzn
  exact ⟨n, hfirst, hends ▸ hsecond⟩

/-- Two instructions on different claims succeed in one order exactly when they
succeed in the other one, and both orders lead to the same state. -/
theorem claims_commute (hr : Reaches h s) (hno : ∀ e ∈ h, e.label.updatesMint = false)
    (hl₁ : l₁.handles c₁ = true) (hl₂ : l₂.handles c₂ = true) (hne : c₁ ≠ c₂)
    (out₁ out₂ : List Transfer) (s' : State) :
    (∃ mid, Accepts exec s l₁ out₁ mid ∧ Accepts exec mid l₂ out₂ s') ↔
      ∃ mid, Accepts exec s l₂ out₂ mid ∧ Accepts exec mid l₁ out₁ s' := by
  constructor
  · rintro ⟨mid, hstep₁, hstep₂⟩
    exact hr.swap hno hl₁ hl₂ hne hstep₁ hstep₂
  · rintro ⟨mid, hstep₂, hstep₁⟩
    exact hr.swap hno hl₂ hl₁ hne.symm hstep₂ hstep₁

end Commute

namespace Scenario

/-- Both claims wait for the poster. -/
def bothSubmitted : List Label := setup ++
  [fund 10000 3 (clock 5000), enrolls worker 0, enrolls helper 1, submits (clock 1200) worker 0,
    submits (clock 1200) helper 1]

end Scenario

open Scenario in
theorem claims_commute_approved : ∃ out₁ out₂ mid mid' s',
    Accepts exec (played bothSubmitted).2 (approves usdc worker 0) out₁ mid ∧
    Accepts exec mid (approves usdc helper 1) out₂ s' ∧
    Accepts exec (played bothSubmitted).2 (approves usdc helper 1) out₂ mid' ∧
    Accepts exec mid' (approves usdc worker 0) out₁ s' := by
  obtain ⟨out₁, mid, hstep₁, hthen⟩ := Accepts.of_check exec (played bothSubmitted).2
    (approves usdc worker 0)
    (fun mid _ => (exec mid (approves usdc helper 1)).toOption.any fun _ => true)
    (by decide +kernel)
  obtain ⟨out₂, s', hstep₂, _⟩ := Accepts.of_check exec mid (approves usdc helper 1)
    (fun _ _ => true) hthen
  obtain ⟨mid', hfirst, hsecond⟩ := (claims_commute (played_reaches bothSubmitted)
    (by decide +kernel)
    (show (approves usdc worker 0).handles (.claimPda 0) = true from rfl)
    (show (approves usdc helper 1).handles (.claimPda 1) = true from rfl)
    (by decide) out₁ out₂ s').mp ⟨mid, hstep₁, hstep₂⟩
  exact ⟨out₁, out₂, mid, mid', s', hstep₁, hstep₂, hfirst, hsecond⟩

end ClustlyEscrow
