import ClustlyEscrow.Guarantees.Authority

/-!
# Review windows and the submission under review

The record of a claim is the one its latest event wrote. So a claim that is
submitted or disputed dates back to one submission or dispute, with nothing in
between, and the window of a crank is measured from there.
-/
namespace ClustlyEscrow
open Foundations

variable {s s' : State} {h : History} {l : Label} {out : List Transfer} {c : Pubkey}
  {r : EscrowClaim}

/-- The last clock value there is. -/
def lastClock : I64 := ⟨2 ^ 63 - 1, by decide⟩

theorem le_lastClock (now : I64) : now.val ≤ lastClock.val := by
  have hnow := now.property.2
  change now.val ≤ 2 ^ 63 - 1
  omega

/-- Claim `c` has had the record `r` ever since the step labelled `l`, and no
step has touched it in between. -/
def Since (h : History) (c : Pubkey) (r : EscrowClaim) (l : Label) : Prop :=
  ∃ h₁ e h₀, h = h₁ ++ e :: h₀ ∧ e.label = l ∧ e.post.claims.get c = some r ∧
    ∀ e' ∈ h₁, e'.label.claim? ≠ some c ∧ e'.pre.claims.get c = some r ∧
      e'.post.claims.get c = some r

/-- Only a submission leaves a claim submitted, with its clock and its hash. -/
theorem Touch.left_submitted (h : Touch s s' out c l) (hc : s'.claims.get c = some r)
    (hst : r.status = ClaimStatus.submitted.toU8) :
    ∃ now a, l = .instr now (.submit a r.deliverableHash) ∧ r.submittedAt = now := by
  rcases h.left_live hc (live_of_eq hst rfl) with ⟨_, _, _, _, rfl⟩ | ⟨_, _, hg⟩
  · cases hst
  · cases hg with
    | submit => exact ⟨_, _, rfl, rfl⟩
    | dispute | reject => cases hst

/-- Only a dispute leaves a claim disputed, with its clock. -/
theorem Touch.left_disputed (h : Touch s s' out c l) (hc : s'.claims.get c = some r)
    (hst : r.status = ClaimStatus.disputed.toU8) :
    ∃ now a, l = .instr now (.openDispute a) ∧ r.disputedAt = now := by
  rcases h.left_live hc (live_of_eq hst rfl) with ⟨_, _, _, _, rfl⟩ | ⟨_, _, hg⟩
  · cases hst
  · cases hg with
    | dispute => exact ⟨_, _, rfl, rfl⟩
    | submit | reject => cases hst

/-- One more event: either it names the claim, or the record stays as it was. -/
theorem Since.step {q : EscrowClaim} {l₀ : Label} (hsince : Since h c q l₀)
    (hpre : s.claims.get c = some q) (hpost : s'.claims.get c = some q)
    (hl : l.claim? ≠ some c) : Since (⟨l, s, s', out⟩ :: h) c q l₀ := by
  obtain ⟨h₁, e, h₀, rfl, hlab, hleft, hrest⟩ := hsince
  exact ⟨_ :: h₁, e, h₀, rfl, hlab, hleft, List.forall_mem_cons.mpr ⟨⟨hl, hpre, hpost⟩, hrest⟩⟩

/-- Every claim record was left by the latest step that names the claim. -/
theorem Reaches.since (hr : Reaches h s) : ∀ c r, s.claims.get c = some r →
    ∃ l s₁ s₂ out, l.claim? = some c ∧ Touch s₁ s₂ out c l ∧ s₂.claims.get c = some r ∧
      Since h c r l := by
  apply hr.history_invariant (I := fun h s => ∀ c r, s.claims.get c = some r →
    ∃ l s₁ s₂ out, l.claim? = some c ∧ Touch s₁ s₂ out c l ∧ s₂.claims.get c = some r ∧
      Since h c r l) (by simp [State.genesis])
  intro h s l out s' hrun ih hstep c r hc
  have hmove := Reaches.move hrun hstep
  by_cases hl : l.claim? = some c
  · exact ⟨l, s, s', out, hl, hmove.touch hl, hc, [], _, h, rfl, rfl, hc, by simp⟩
  · have hpre := hmove.claim_frame hl ▸ hc
    obtain ⟨l₀, s₁, s₂, out₀, hname, htouch, hleft, hsince⟩ := ih c r hpre
    exact ⟨l₀, s₁, s₂, out₀, hname, htouch, hleft, hsince.step hpre hc hl⟩

/-- A submitted claim dates back to one submission, untouched since. -/
theorem Reaches.since_submit (hr : Reaches h s) (hc : s.claims.get c = some r)
    (hst : r.status = ClaimStatus.submitted.toU8) :
    ∃ (u : I64) (b : Submit), b.claim = c ∧ r.submittedAt = u ∧
      Since h c r (.instr u (.submit b r.deliverableHash)) := by
  obtain ⟨l, _, _, _, hname, htouch, hleft, hsince⟩ := hr.since c r hc
  obtain ⟨u, b, rfl, hu⟩ := htouch.left_submitted hleft hst
  exact ⟨u, b, Option.some.inj hname, hu, hsince⟩

theorem Reaches.since_dispute (hr : Reaches h s) (hc : s.claims.get c = some r)
    (hst : r.status = ClaimStatus.disputed.toU8) :
    ∃ (u : I64) (b : OpenDispute), b.claim = c ∧ r.disputedAt = u ∧
      Since h c r (.instr u (.openDispute b)) := by
  obtain ⟨l, _, _, _, hname, htouch, hleft, hsince⟩ := hr.since c r hc
  obtain ⟨u, b, rfl, hu⟩ := htouch.left_disputed hleft hst
  exact ⟨u, b, Option.some.inj hname, hu, hsince⟩

/-! ## What a verdict and a crank found -/

theorem Touch.found_by_verdict {now : I64} (h : Touch s s' out c l)
    (hl : (∃ a, l = .instr now (.approveClaim a)) ∨ (∃ a, l = .instr now (.rejectClaim a))) :
    ∃ r, s.claims.get c = some r ∧ r.status = ClaimStatus.submitted.toU8 := by
  cases h with
  | enrolled => simp at hl
  | advanced _ hpre _ hg =>
    cases hg with
    | submit | dispute => simp at hl
    | reject _ _ hst => exact ⟨_, hpre, hst⟩
  | paid _ hpre _ hg =>
    cases hg with
    | approve _ _ hst => exact ⟨_, hpre, hst⟩
    | autoApprove | resolve | autoResolve => simp at hl
  | refunded _ hpre _ hg =>
    cases hg with
    | reject _ _ hst => exact ⟨_, hpre, hst⟩
    | resolve => simp at hl

theorem Touch.found_by_auto_approve {now : I64} {a : AutoApprove}
    (h : Touch s s' out c (.instr now (.autoApprove a))) :
    ∃ r, s.claims.get c = some r ∧ r.status = ClaimStatus.submitted.toU8 ∧
      autoApproveWindowSecs ≤ now.val - r.submittedAt := by
  cases h with
  | advanced _ _ _ hg => cases hg
  | refunded _ _ _ hg => cases hg
  | paid _ hpre _ hg =>
    cases hg with
    | autoApprove _ hst hel => exact ⟨_, hpre, hst, hel.window⟩

theorem Touch.found_by_auto_resolve {now : I64} {a : AutoResolveDispute}
    (h : Touch s s' out c (.instr now (.autoResolveDispute a))) :
    ∃ r, s.claims.get c = some r ∧ r.status = ClaimStatus.disputed.toU8 ∧
      autoDisputeWindowSecs ≤ now.val - r.disputedAt := by
  cases h with
  | advanced _ _ _ hg => cases hg
  | refunded _ _ _ hg => cases hg
  | paid _ hpre _ hg =>
    cases hg with
    | autoResolve hst hel => exact ⟨_, hpre, hst, hel.window⟩

/-- Full windows and no bait-and-switch, in every run. -/
theorem review_windows (hr : Reaches h s) :
    (∀ t a out s', Accepts exec s (.instr t (.autoApprove a)) out s' →
      ∃ (r : EscrowClaim) (u : I64) (b : Submit), b.claim = a.claim ∧
        s.claims.get a.claim = some r ∧ r.status = ClaimStatus.submitted.toU8 ∧
        Since h a.claim r (.instr u (.submit b r.deliverableHash)) ∧
        autoApproveWindowSecs ≤ t.val - u.val) ∧
    (∀ t a out s', Accepts exec s (.instr t (.autoResolveDispute a)) out s' →
      ∃ (r : EscrowClaim) (u : I64) (b : OpenDispute), b.claim = a.claim ∧
        s.claims.get a.claim = some r ∧ r.status = ClaimStatus.disputed.toU8 ∧
        Since h a.claim r (.instr u (.openDispute b)) ∧
        autoDisputeWindowSecs ≤ t.val - u.val) ∧
    ∀ t l c out s', (∃ a, l = .instr t (.approveClaim a)) ∨ (∃ a, l = .instr t (.rejectClaim a)) →
      l.claim? = some c → Accepts exec s l out s' →
      ∃ (r : EscrowClaim) (u : I64) (b : Submit), b.claim = c ∧ s.claims.get c = some r ∧
        Since h c r (.instr u (.submit b r.deliverableHash)) := by
  refine ⟨fun t a out s' hstep => ?_, fun t a out s' hstep => ?_,
    fun t l c out s' hl hname hstep => ?_⟩
  · obtain ⟨r, hc, hst, hw⟩ := ((hr.move hstep).touch rfl).found_by_auto_approve
    obtain ⟨u, b, hb, hu, hsince⟩ := hr.since_submit hc hst
    exact ⟨r, u, b, hb, hc, hst, hsince, hu ▸ hw⟩
  · obtain ⟨r, hc, hst, hw⟩ := ((hr.move hstep).touch rfl).found_by_auto_resolve
    obtain ⟨u, b, hb, hu, hsince⟩ := hr.since_dispute hc hst
    exact ⟨r, u, b, hb, hc, hst, hsince, hu ▸ hw⟩
  · obtain ⟨r, hc, hst⟩ := ((hr.move hstep).touch hname).found_by_verdict hl
    obtain ⟨u, b, hb, _, hsince⟩ := hr.since_submit hc hst
    exact ⟨r, u, b, hb, hc, hsince⟩

namespace Scenario

/-- The helper submits again after the rejection, and nobody answers. -/
def silent : List Label := twoClaims ++ [submits (clock 1400) helper 1]

def cranks (now : I64) (mint w : Pubkey) (n : BitVec 128) : Label :=
  .instr now (.autoApprove ⟨payout mint w n, stranger⟩)

end Scenario

open Scenario in
theorem review_windows_crank : ∃ (r : EscrowClaim) (u : I64) (b : Submit),
    Since (played silent).1 (.claimPda 1) r (.instr u (.submit b r.deliverableHash)) ∧
      autoApproveWindowSecs ≤ (clock 1211000).val - u.val := by
  obtain ⟨out, s', hstep, _⟩ := Accepts.of_check exec (played silent).2
    (cranks (clock 1211000) usdc helper 1) (fun _ _ => true) (by decide +kernel)
  obtain ⟨r, u, b, _, _, _, hsince, hw⟩ :=
    (review_windows (played_reaches silent)).1 _ _ out s' hstep
  exact ⟨r, u, b, hsince, hw⟩

end ClustlyEscrow
