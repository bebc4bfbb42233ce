import ClustlyEscrow.Guarantees.Census
import ClustlyEscrow.Invariants.Ledger

/-!
# The deal of an enrolled worker

A task that has a claim is never removed: `cancel_before_enroll` asks for a
task that nobody ever enrolled in. So from the enrolment on both records stay,
with their terms, and the counters only grow.
-/
namespace ClustlyEscrow
open Foundations

/-- A later record of the same claim. -/
structure EscrowClaim.SameDeal (r r' : EscrowClaim) : Prop where
  claimId : r'.claimId = r.claimId
  task : r'.task = r.task
  claimer : r'.claimer = r.claimer
  enrolledAt : r'.enrolledAt = r.enrolledAt

theorem EscrowTask.SameTerms.trans {t t' t'' : EscrowTask} (h : t.SameTerms t')
    (h' : t'.SameTerms t'') : t.SameTerms t'' :=
  ⟨h'.taskId.trans h.taskId, h'.poster.trans h.poster, h'.bounty.trans h.bounty,
    h'.maxSlots.trans h.maxSlots, h'.taskDeadlineTs.trans h.taskDeadlineTs,
    h'.claimDeadlineSecs.trans h.claimDeadlineSecs⟩

theorem EscrowTask.Continues.trans {t t' t'' : EscrowTask} (h : t.Continues t')
    (h' : t'.Continues t'') : t.Continues t'' :=
  ⟨h.toSameTerms.trans h'.toSameTerms, h.enrolled.trans h'.enrolled,
    h.approved.trans h'.approved, h.refunded.trans h'.refunded⟩

theorem EscrowClaim.SameDeal.refl (r : EscrowClaim) : r.SameDeal r := ⟨rfl, rfl, rfl, rfl⟩

theorem EscrowClaim.SameDeal.trans {r r' r'' : EscrowClaim} (h : r.SameDeal r')
    (h' : r'.SameDeal r'') : r.SameDeal r'' :=
  ⟨h'.claimId.trans h.claimId, h'.task.trans h.task, h'.claimer.trans h.claimer,
    h'.enrolledAt.trans h.enrolledAt⟩

section Steps
variable {s s' : State} {h h' : History} {l : Label} {out : List Transfer} {T c : Pubkey}
  {t : EscrowTask} {r r' : EscrowClaim}

theorem AdvanceGround.same_deal (hg : AdvanceGround t r l r') : r.SameDeal r' := by
  cases hg <;> exact ⟨rfl, rfl, rfl, rfl⟩

theorem RefundGround.same_deal {cfg : EscrowConfig} (hg : RefundGround cfg t r l r') :
    r.SameDeal r' := by
  cases hg <;> exact ⟨rfl, rfl, rfl, rfl⟩

/-- No step rewrites what a claim says about its enrolment. -/
theorem Move.claim_kept (hmove : Move s s' out l) (hc : s.claims.get c = some r) :
    ∃ r', s'.claims.get c = some r' ∧ r.SameDeal r' := by
  by_cases hl : l.claim? = some c
  swap
  · exact ⟨r, (hmove.claim_frame hl).trans hc, .refl r⟩
  cases hmove.touch hl with
  | enrolled hpre =>
    rw [hpre] at hc
    cases hc
  | advanced _ hpre hpost hg =>
    cases hpre.symm.trans hc
    exact ⟨_, hpost, hg.same_deal⟩
  | paid _ hpre hpost =>
    cases hpre.symm.trans hc
    exact ⟨_, hpost, ⟨rfl, rfl, rfl, rfl⟩⟩
  | refunded _ hpre hpost hg =>
    cases hpre.symm.trans hc
    exact ⟨_, hpost, hg.same_deal⟩

/-- A task with a claim has counted it. -/
theorem Reaches.enrolled_pos (hr : Reaches h s) (ht : s.tasks.get T = some t)
    (hc : s.claims.get c = some r) (hT : r.task = T) : 0 < t.slotsEnrolled := by
  rw [(hr.census ht).enrolled]
  exact s.claims.count_pos hc (fun q => q.task = T) hT

/-- No step removes a task that has a claim, changes its terms or lowers a counter. -/
theorem Reaches.task_kept (hr : Reaches h s) (hstep : Accepts exec s l out s')
    (ht : s.tasks.get T = some t) (hc : s.claims.get c = some r) (hT : r.task = T) :
    ∃ t', s'.tasks.get T = some t' ∧ t.Continues t' := by
  have hmove := hr.move hstep
  rcases hmove.wound_or_kept ht with ⟨_, _, _, _, hg, he⟩ | ⟨t', ht', _, hcont⟩
  · cases hg with
    | cancel _ hunused => exact absurd hunused (hr.enrolled_pos ht hc hT).ne'
    | close | autoCancel =>
      have ht' := Store.get_of_eq_set he.tasks'
      exact ⟨_, ht', hmove.terms ht ht', le_rfl, le_rfl, le_rfl⟩
  · exact ⟨t', ht', hcont⟩

end Steps

/-! ## Whole runs -/

/-- In state `s` task `T` and its claim `c` still stand, as they stood with
records `t` and `r`. -/
def DealStands (s : State) (T c : Pubkey) (t : EscrowTask) (r : EscrowClaim) : Prop :=
  ∃ t' r', s.tasks.get T = some t' ∧ s.claims.get c = some r' ∧ t.Continues t' ∧
    r.SameDeal r' ∧ r'.task = T ∧ r'.claimer ≠ t'.poster

section Runs
variable {s s' : State} {h h' : History} {T c : Pubkey} {t : EscrowTask} {r : EscrowClaim}

theorem Reaches.deal_stands (hr : Reaches h s) (ht : s.tasks.get T = some t)
    (hc : s.claims.get c = some r) (hT : r.task = T) (hrun : Runs s h' s') :
    DealStands s' T c t r := by
  refine (hrun.history_invariant (I := fun h' s' => Reaches (h' ++ h) s' ∧ DealStands s' T c t r)
    ⟨hr, t, r, ht, hc, .refl t, .refl r, hT, hr.not_self c r t hc (hT ▸ ht)⟩ ?_).2
  rintro h₁ s₁ l out s₂ _ ⟨hr₁, t₁, r₁, ht₁, hc₁, hcont, hdeal, hT₁, _⟩ hstep
  obtain ⟨t₂, ht₂, hcont'⟩ := hr₁.task_kept hstep ht₁ hc₁ hT₁
  obtain ⟨r₂, hc₂, hdeal'⟩ := (hr₁.move hstep).claim_kept hc₁
  have hr₂ : Reaches (⟨l, s₁, s₂, out⟩ :: (h₁ ++ h)) s₂ := hr₁.next hstep
  have hT₂ : r₂.task = T := hdeal'.task.trans hT₁
  exact ⟨hr₂, t₂, r₂, ht₂, hc₂, hcont.trans hcont', hdeal.trans hdeal', hT₂,
    hr₂.not_self c r₂ t₂ hc₂ (hT₂ ▸ ht₂)⟩

/-- From the enrolment on, in every later state, the deal stands as it was
enrolled; and between any two later states no counter goes down. -/
theorem enrolled_deal_frozen {now : I64} {a : Enroll} {claimId : BitVec 128}
    {out : List Transfer} {s₀ : State} (hr : Reaches h s)
    (henroll : Accepts exec s (.instr now (.enroll a claimId)) out s₀) :
    ∃ t, s.tasks.get a.task = some t ∧ ∀ h₁ s₁, Runs s₀ h₁ s₁ →
      DealStands s₁ a.task a.claim t (a.record now claimId) ∧
      ∀ t₁ r₁, s₁.tasks.get a.task = some t₁ → s₁.claims.get a.claim = some r₁ →
        ∀ h₂ s₂, Runs s₁ h₂ s₂ → DealStands s₂ a.task a.claim t₁ r₁ := by
  obtain ⟨t, he⟩ := enroll_eq_ok.mp henroll
  have hr₀ : Reaches (⟨_, s, s₀, out⟩ :: h) s₀ := hr.next henroll
  have ht₀ : s₀.tasks.get a.task = some { t with slotsEnrolled := t.slotsEnrolled + 1 } := by
    rw [he.tasks', Store.get_set_self]
  have hc₀ : s₀.claims.get a.claim = some (a.record now claimId) := by
    rw [he.claims', Store.get_set_self]
  have hfirst : t.Continues { t with slotsEnrolled := t.slotsEnrolled + 1 } :=
    ⟨(hr.move henroll).terms he.task ht₀, Nat.le_succ _, le_rfl, le_rfl⟩
  refine ⟨t, he.task, fun h₁ s₁ hrun₁ => ⟨?_, fun t₁ r₁ ht₁ hc₁ h₂ s₂ hrun₂ => ?_⟩⟩
  · obtain ⟨t₁, r₁, ht₁, hc₁, hcont, hdeal⟩ := hr₀.deal_stands ht₀ hc₀ rfl hrun₁
    exact ⟨t₁, r₁, ht₁, hc₁, hfirst.trans hcont, hdeal⟩
  · obtain ⟨_, r₁', _, hc₁', _, _, hT₁, _⟩ := hr₀.deal_stands ht₀ hc₀ rfl hrun₁
    cases hc₁.symm.trans hc₁'
    exact Reaches.deal_stands (hr₀.trans hrun₁) ht₁ hc₁ hT₁ hrun₂

end Runs

namespace Scenario

/-- A task of three slots that nobody has enrolled in. -/
def offered : List Label := setup ++ [fund 10000 3 (clock 5000)]

end Scenario

open Scenario in
theorem enrolled_deal_frozen_worker : ∃ out s₀ t,
    Accepts exec (played offered).2 (enrolls worker 0) out s₀ ∧
      DealStands s₀ job (.claimPda 0) t ⟨0, job, worker, 0, 1100, 0, 0, 0, 0⟩ := by
  obtain ⟨out, s₀, hstep, _⟩ := Accepts.of_check exec (played offered).2 (enrolls worker 0)
    (fun _ _ => true) (by decide +kernel)
  obtain ⟨t, _, hall⟩ := enrolled_deal_frozen (played_reaches offered) hstep
  exact ⟨out, s₀, t, hstep, (hall [] s₀ .start).1⟩

end ClustlyEscrow
