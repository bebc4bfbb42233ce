import ClustlyEscrow.Guarantees.Deal
import ClustlyEscrow.Guarantees.Lifecycle

/-!
# What a verdict is given on

`approve_claim` and `reject_claim` name a claim, not a submission. Only a
rejection lets the claimer submit again, so a verdict meets the submission its
signer read unless another rejection took effect in between.
-/
namespace ClustlyEscrow
open Foundations

def Label.approves (c : Pubkey) : Label → Bool
  | .instr _ (.approveClaim a) => decide (a.claim = c)
  | _ => false

def Label.rejects (c : Pubkey) : Label → Bool
  | .instr _ (.rejectClaim a) => decide (a.claim = c)
  | _ => false

def rejectionsOf (c : Pubkey) (h : History) : ℕ := h.countP fun e => e.label.rejects c

/-- What has become of a submission after `n` rejections of its claim. -/
structure SinceRead (r : EscrowClaim) (n : ℕ) (r' : EscrowClaim) : Prop where
  rejections : r'.rejections = r.rejections + n
  pending : n = 0 → r' = r ∨ r'.terminal = true

section Steps
variable {s s' : State} {h h' : History} {l : Label} {out : List Transfer} {c : Pubkey}
  {cfg : EscrowConfig} {t : EscrowTask} {r r' : EscrowClaim} {outcome : ClaimStatus}

theorem Label.claim_of_verdict (hl : l.approves c = true ∨ l.rejects c = true) :
    l.claim? = some c := by
  cases l with
  | token => rcases hl with hl | hl <;> cases hl
  | instr now ix =>
    cases ix
    case approveClaim a =>
      rcases hl with hl | hl
      · exact congrArg some (of_decide_eq_true hl)
      · cases hl
    case rejectClaim a =>
      rcases hl with hl | hl
      · cases hl
      · exact congrArg some (of_decide_eq_true hl)
    all_goals rcases hl with hl | hl <;> cases hl

theorem PayGround.not_rejects (hg : PayGround cfg t r l outcome) : l.rejects c = false := by
  cases hg <;> rfl

/-- A verdict is given on a submission that is pending. -/
theorem Touch.verdict_pending (htouch : Touch s s' out c l) (hc : s.claims.get c = some r)
    (hl : l.approves c = true ∨ l.rejects c = true) :
    r.status = ClaimStatus.submitted.toU8 := by
  cases htouch with
  | enrolled hpre =>
    rw [hpre] at hc
    cases hc
  | advanced _ hpre _ hg =>
    cases hpre.symm.trans hc
    cases hg with
    | submit | dispute => rcases hl with hl | hl <;> cases hl
    | reject _ _ hst => exact hst
  | paid _ hpre _ hg =>
    cases hpre.symm.trans hc
    cases hg with
    | approve _ _ hst => exact hst
    | autoApprove | resolve | autoResolve => rcases hl with hl | hl <;> cases hl
  | refunded _ hpre _ hg =>
    cases hpre.symm.trans hc
    cases hg with
    | reject _ _ hst => exact hst
    | resolve => rcases hl with hl | hl <;> cases hl

/-- A rejection counts itself, and nothing else does. -/
theorem Touch.rejections (htouch : Touch s s' out c l) (hl : l.claim? = some c)
    (hc : s.claims.get c = some r) (hc' : s'.claims.get c = some r') :
    r'.rejections = r.rejections + if l.rejects c then 1 else 0 := by
  cases htouch with
  | enrolled hpre =>
    rw [hpre] at hc
    cases hc
  | advanced _ hpre hpost hg =>
    cases hpre.symm.trans hc
    cases hpost.symm.trans hc'
    cases hg with
    | submit | dispute => rfl
    | reject => exact (if_pos (decide_eq_true (Option.some.inj hl))).symm ▸ rfl
  | paid _ hpre hpost hg =>
    cases hpre.symm.trans hc
    cases hpost.symm.trans hc'
    rw [hg.not_rejects]
    rfl
  | refunded _ hpre hpost hg =>
    cases hpre.symm.trans hc
    cases hpost.symm.trans hc'
    cases hg with
    | reject => exact (if_pos (decide_eq_true (Option.some.inj hl))).symm ▸ rfl
    | resolve => rfl

/-- A pending submission that is not rejected can only be paid. -/
theorem Touch.settles_pending (htouch : Touch s s' out c l) (hl : l.claim? = some c)
    (hc : s.claims.get c = some r) (hc' : s'.claims.get c = some r')
    (hst : r.status = ClaimStatus.submitted.toU8) (hno : l.rejects c = false) :
    r'.terminal = true := by
  cases htouch with
  | enrolled hpre =>
    rw [hpre] at hc
    cases hc
  | advanced _ hpre _ hg =>
    cases hpre.symm.trans hc
    cases hg with
    | submit _ hready =>
      rw [hst] at hready
      exact absurd hready (by decide)
    | dispute _ hrejected => cases hst.symm.trans hrejected
    | reject => exact absurd (Option.some.inj hl) (of_decide_eq_false hno)
  | paid _ hpre hpost hg =>
    cases hpre.symm.trans hc
    cases hpost.symm.trans hc'
    cases hg with
    | approve | autoApprove => rfl
    | resolve _ hdisputed | autoResolve hdisputed => cases hst.symm.trans hdisputed
  | refunded _ hpre _ hg =>
    cases hpre.symm.trans hc
    cases hg with
    | reject => exact absurd (Option.some.inj hl) (of_decide_eq_false hno)
    | resolve _ hdisputed => cases hst.symm.trans hdisputed

/-! ## Whole runs -/

theorem rejectionsOf_cons : rejectionsOf c (⟨l, s, s', out⟩ :: h) =
    rejectionsOf c h + if l.rejects c then 1 else 0 := by
  simp only [rejectionsOf, List.countP_cons]

theorem Reaches.since_read (hr : Reaches h s) (hc : s.claims.get c = some r)
    (hst : r.status = ClaimStatus.submitted.toU8) (hrun : Runs s h' s') :
    ∃ r', s'.claims.get c = some r' ∧ SinceRead r (rejectionsOf c h') r' := by
  refine (hrun.history_invariant (I := fun h' s' => Reaches (h' ++ h) s' ∧
    ∃ r', s'.claims.get c = some r' ∧ SinceRead r (rejectionsOf c h') r')
    ⟨hr, r, hc, rfl, fun _ => .inl rfl⟩ ?_).2
  rintro h₁ s₁ l out s₂ _ ⟨hr₁, r₁, hc₁, hsince⟩ hstep
  refine ⟨hr₁.next hstep, ?_⟩
  have hmove := hr₁.move hstep
  by_cases hl : l.claim? = some c
  swap
  · have hno : l.rejects c = false := by
      by_contra hrej
      exact hl (Label.claim_of_verdict (.inr (Bool.not_eq_false _ ▸ hrej)))
    refine ⟨r₁, (hmove.claim_frame hl).trans hc₁, ?_⟩
    rw [rejectionsOf_cons, hno]
    exact hsince
  have htouch := hmove.touch hl
  obtain ⟨r₂, hc₂⟩ := htouch.post_exists
  refine ⟨r₂, hc₂, ?_, fun hz => ?_⟩
  · rw [htouch.rejections hl hc₁ hc₂, hsince.rejections, rejectionsOf_cons, Nat.add_assoc]
  · rw [rejectionsOf_cons] at hz
    have hno : l.rejects c = false := by
      by_contra hrej
      rw [Bool.not_eq_false] at hrej
      rw [if_pos hrej] at hz
      omega
    rcases hsince.pending (Nat.eq_zero_of_add_eq_zero_right hz) with rfl | hterminal
    · exact .inr (htouch.settles_pending hl hc₁ hc₂ hst hno)
    · exact absurd (htouch.found_live hc₁) (terminal_iff.mp hterminal)

/-- An accepted verdict on a claim that was read with a pending submission
falls on that very record just if no rejection of the claim took effect since;
after `n` of them it falls on a submission that has `n` rejections more. -/
theorem verdict_binds {s'' : State} (hr : Reaches h s) (hc : s.claims.get c = some r)
    (hst : r.status = ClaimStatus.submitted.toU8) (hrun : Runs s h' s')
    (hl : l.approves c = true ∨ l.rejects c = true) (hverdict : Accepts exec s' l out s'') :
    ∃ r', s'.claims.get c = some r' ∧ r'.status = ClaimStatus.submitted.toU8 ∧
      r'.rejections = r.rejections + rejectionsOf c h' ∧
      ((∀ e ∈ h', e.label.rejects c = false) → r' = r) ∧
      (r'.deliverableHash = r.deliverableHash ∧ r'.rejections = r.rejections ↔
        ∀ e ∈ h', e.label.rejects c = false) := by
  have hr' : Reaches (h' ++ h) s' := hr.trans hrun
  obtain ⟨r', hc', hsince⟩ := hr.since_read hc hst hrun
  have hst' : r'.status = ClaimStatus.submitted.toU8 :=
    ((hr'.move hverdict).touch (Label.claim_of_verdict hl)).verdict_pending hc' hl
  have hnone : rejectionsOf c h' = 0 ↔ ∀ e ∈ h', e.label.rejects c = false := by
    simp only [rejectionsOf, List.countP_eq_zero, Bool.not_eq_true]
  have hsame (hno : ∀ e ∈ h', e.label.rejects c = false) : r' = r := by
    apply (hsince.pending (hnone.mpr hno)).resolve_right
    rw [Bool.not_eq_true, terminal_eq_false, hst']
    rfl
  refine ⟨r', hc', hst', hsince.rejections, hsame, fun hkept => ?_, fun hno => ?_⟩
  · have hcount := hsince.rejections
    exact hnone.mp (by omega)
  · rw [hsame hno]
    exact ⟨rfl, rfl⟩

end Steps

namespace Scenario

def underReview : List Label := offered ++ [enrolls worker 0, submits (clock 1200) worker 0]

/-- Another worker comes in and hands his work in. -/
def joins : List Label := [enrolls helper 1, submits (clock 1210) helper 1]

/-- A rejection takes effect and the worker submits another deliverable. -/
def reworks : List Label := [rejects 0, .instr (clock 1400) (.submit ⟨worker, job, .claimPda 0⟩ 7)]

end Scenario

open Scenario in
theorem verdict_binds_prompt : ∃ h' s' out s'' r', Runs (played underReview).2 h' s' ∧
    h'.length = 2 ∧ Accepts exec s' (approves usdc worker 0) out s'' ∧
      s'.claims.get (.claimPda 0) = some r' ∧ r'.deliverableHash = 99 := by
  have hread : (played underReview).2.claims.get (.claimPda 0) =
      some ⟨0, job, worker, 1, 1100, 1200, 0, 0, 99⟩ := by decide +kernel
  have hrun := playFrom_run exec (played underReview).2 joins
  have hquiet : ∀ e ∈ (playFrom exec (played underReview).2 joins).1,
      e.label.rejects (.claimPda 0) = false := by decide +kernel
  obtain ⟨out, s'', hstep, _⟩ := Accepts.of_check exec
    (playFrom exec (played underReview).2 joins).2 (approves usdc worker 0) (fun _ _ => true)
    (by decide +kernel)
  obtain ⟨r', hc', _, _, hsame, _⟩ :=
    verdict_binds (played_reaches underReview) hread rfl hrun (.inl rfl) hstep
  exact ⟨_, _, out, s'', r', hrun, by decide +kernel, hstep, hc', by rw [hsame hquiet]⟩

open Scenario in
/-- The poster has signed both verdicts on the first submission; the approval
comes late and falls on the second one. -/
theorem verdict_binds_late : ∃ h s h' s' r r' out s'',
    Reaches h s ∧ s.claims.get (.claimPda 0) = some r ∧
      r.status = ClaimStatus.submitted.toU8 ∧ Runs s h' s' ∧
      s'.claims.get (.claimPda 0) = some r' ∧
      Accepts exec s' (approves usdc worker 0) out s'' ∧
      r'.deliverableHash ≠ r.deliverableHash ∧ r'.rejections ≠ r.rejections := by
  have hread : (played underReview).2.claims.get (.claimPda 0) =
      some ⟨0, job, worker, 1, 1100, 1200, 0, 0, 99⟩ := by decide +kernel
  have hlater : (playFrom exec (played underReview).2 reworks).2.claims.get (.claimPda 0) =
      some ⟨0, job, worker, 1, 1100, 1400, 0, 1, 7⟩ := by decide +kernel
  obtain ⟨out, s'', hstep, _⟩ := Accepts.of_check exec
    (playFrom exec (played underReview).2 reworks).2 (approves usdc worker 0) (fun _ _ => true)
    (by decide +kernel)
  exact ⟨_, _, _, _, _, _, out, s'', played_reaches underReview, hread, rfl,
    playFrom_run exec _ reworks, hlater, hstep, by decide, by decide⟩

end ClustlyEscrow
