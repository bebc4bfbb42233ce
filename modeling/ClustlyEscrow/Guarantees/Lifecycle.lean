import ClustlyEscrow.Abstract.Review
import ClustlyEscrow.Guarantees.Census

/-!
# The lifecycle of a claim

The history of a run, read for one claim, is a review: every step that names
the claim after its enrolment is one step of it. So status, rejections and the
steps that were taken on a claim determine each other.
-/
namespace ClustlyEscrow
open Foundations

/-! ## Reading a history -/

/-- The step names claim `c` and does not create it. -/
def Label.handles (c : Pubkey) : Label → Bool
  | .instr _ (.enroll _ _) => false
  | l => decide (l.claim? = some c)

def Label.submits (c : Pubkey) : Label → Bool
  | .instr _ (.submit a _) => decide (a.claim = c)
  | _ => false

def Label.disputes (c : Pubkey) : Label → Bool
  | .instr _ (.openDispute a) => decide (a.claim = c)
  | _ => false

/-- How many successful steps touched claim `c` after its enrolment. -/
def touches (c : Pubkey) (h : History) : ℕ := h.countP fun e => e.label.handles c

def submissions (c : Pubkey) (h : History) : ℕ := h.countP fun e => e.label.submits c

def disputes (c : Pubkey) (h : History) : ℕ := h.countP fun e => e.label.disputes c

def ClaimStatus.stage : ClaimStatus → Stage
  | .enrolled => .enrolled
  | .submitted => .submitted
  | .approved => .approved
  | .rejected => .rejected
  | .cancelled => .cancelled
  | .disputed => .disputed
  | .resolvedDeliverer | .resolvedPoster => .resolved

/-- The abstraction function. -/
def reviewOf (h : History) (c : Pubkey) (r : EscrowClaim) (st : ClaimStatus) : Review :=
  ⟨st.stage, r.rejections, submissions c h, disputes c h, touches c h⟩

theorem ClaimStatus.toU8_injective {st st' : ClaimStatus} (h : st.toU8 = st'.toU8) : st = st' := by
  rw [← ClaimStatus.fromU8_eq_some, ClaimStatus.fromU8_toU8, Option.some.injEq] at h
  exact h

section Counting
variable {l : Label} {c : Pubkey} {h : History} {s s' : State} {out : List Transfer}
  {r : EscrowClaim} {st : ClaimStatus}

theorem reviewOf_cons : reviewOf (⟨l, s, s', out⟩ :: h) c r st =
    ⟨st.stage, r.rejections, submissions c h + (if l.submits c then 1 else 0),
      disputes c h + (if l.disputes c then 1 else 0),
      touches c h + (if l.handles c then 1 else 0)⟩ := by
  simp only [reviewOf, submissions, disputes, touches, List.countP_cons]

/-- A step that does not name a claim counts for nothing in its review. -/
theorem silent_of_claim_ne (hl : l.claim? ≠ some c) :
    l.submits c = false ∧ l.disputes c = false ∧ l.handles c = false := by
  cases l with
  | token op => exact ⟨rfl, rfl, decide_eq_false hl⟩
  | instr now ix =>
    cases ix
    case submit a hash =>
      exact ⟨decide_eq_false fun heq => hl (congrArg some heq), rfl, decide_eq_false hl⟩
    case openDispute a =>
      exact ⟨rfl, decide_eq_false fun heq => hl (congrArg some heq), decide_eq_false hl⟩
    case enroll => exact ⟨rfl, rfl, rfl⟩
    all_goals exact ⟨rfl, rfl, decide_eq_false hl⟩

theorem reviewOf_cons_of_ne (hl : l.claim? ≠ some c) :
    reviewOf (⟨l, s, s', out⟩ :: h) c r st = reviewOf h c r st := by
  obtain ⟨hsub, hdis, htouch⟩ := silent_of_claim_ne hl
  rw [reviewOf_cons, hsub, hdis, htouch]
  rfl

end Counting

/-! ## One step on a claim is one step of its review -/

section Refinement
variable {l : Label} {c : Pubkey} {h : History} {s s' : State} {out : List Transfer}
  {cfg : EscrowConfig} {t : EscrowTask} {r r' : EscrowClaim} {outcome : ClaimStatus}

/-- The step takes the review of claim `c` from record `r` to record `r'`. -/
def ReviewStep (h : History) (e : EscrowEvent) (c : Pubkey) (r r' : EscrowClaim) : Prop :=
  ∃ st st' : ClaimStatus, r.status = st.toU8 ∧ r'.status = st'.toU8 ∧ st' ≠ .enrolled ∧
    Review.Step maxRejections (reviewOf h c r st) (reviewOf (e :: h) c r' st')

theorem AdvanceGround.review_step (hg : AdvanceGround t r l r') (hl : l.claim? = some c) :
    ReviewStep h ⟨l, s, s', out⟩ c r r' := by
  cases hg with
  | @submit now a hash _ hst =>
    have hc := Option.some.inj hl
    have step (st : ClaimStatus) (hst : r.status = st.toU8)
        (ready : st.stage = .enrolled ∨ st.stage = .rejected) :
        ReviewStep h ⟨.instr now (.submit a hash), s, s', out⟩ c r (r.submitted now hash) := by
      refine ⟨st, .submitted, hst, rfl, by decide, ?_⟩
      rw [reviewOf_cons]
      simp only [Label.submits, Label.disputes, Label.handles, hl, hc, decide_true]
      exact .submit ready
    rcases hst with hst | hst
    · exact step .enrolled hst (.inl rfl)
    · exact step .rejected hst (.inr rfl)
  | dispute _ hst =>
    have hc := Option.some.inj hl
    refine ⟨.rejected, .disputed, hst, rfl, by decide, ?_⟩
    rw [reviewOf_cons]
    simp only [Label.submits, Label.disputes, Label.handles, hl, hc, decide_true]
    exact .dispute rfl
  | reject _ _ hst hearly =>
    refine ⟨.submitted, .rejected, hst, rfl, by decide, ?_⟩
    rw [reviewOf_cons]
    simp only [Label.submits, Label.disputes, Label.handles, hl, decide_true]
    exact .reject rfl hearly

theorem PayGround.review_step (hg : PayGround cfg t r l outcome) (hl : l.claim? = some c) :
    ReviewStep h ⟨l, s, s', out⟩ c r (r.setStatus outcome) := by
  cases hg with
  | approve _ _ hst | autoApprove _ hst =>
    refine ⟨.submitted, .approved, hst, rfl, by decide, ?_⟩
    rw [reviewOf_cons]
    simp only [Label.submits, Label.disputes, Label.handles, hl, decide_true]
    exact .approve rfl
  | resolve _ hst | autoResolve hst =>
    refine ⟨.disputed, .resolvedDeliverer, hst, rfl, by decide, ?_⟩
    rw [reviewOf_cons]
    simp only [Label.submits, Label.disputes, Label.handles, hl, decide_true]
    exact .resolve rfl

theorem RefundGround.review_step (hg : RefundGround cfg t r l r') (hl : l.claim? = some c) :
    ReviewStep h ⟨l, s, s', out⟩ c r r' := by
  cases hg with
  | reject _ _ hst hthird =>
    refine ⟨.submitted, .cancelled, hst, rfl, by decide, ?_⟩
    rw [reviewOf_cons]
    simp only [Label.submits, Label.disputes, Label.handles, hl, decide_true]
    exact .cancel rfl hthird
  | resolve _ hst =>
    refine ⟨.disputed, .resolvedPoster, hst, rfl, by decide, ?_⟩
    rw [reviewOf_cons]
    simp only [Label.submits, Label.disputes, Label.handles, hl, decide_true]
    exact .resolve rfl

/-- Only the enrolment gives a claim no review step. -/
theorem Touch.review_step (h' : Touch s s' out c l) (hl : l.claim? = some c)
    (hc : s.claims.get c = some r) (hc' : s'.claims.get c = some r') :
    ReviewStep h ⟨l, s, s', out⟩ c r r' := by
  cases h' with
  | enrolled hpre =>
    rw [hpre] at hc
    cases hc
  | advanced _ hpre hpost hg =>
    cases hpre.symm.trans hc
    cases hpost.symm.trans hc'
    exact hg.review_step hl
  | paid _ hpre hpost hg =>
    cases hpre.symm.trans hc
    cases hpost.symm.trans hc'
    exact hg.review_step hl
  | refunded _ hpre hpost hg =>
    cases hpre.symm.trans hc
    cases hpost.symm.trans hc'
    exact hg.review_step hl

/-- A dispute is the only step that dates one. -/
theorem Touch.disputedAt_kept (h' : Touch s s' out c l) (hl : l.claim? = some c)
    (hdis : l.disputes c = false) (hc : s.claims.get c = some r)
    (hc' : s'.claims.get c = some r') : r'.disputedAt = r.disputedAt := by
  cases h' with
  | enrolled hpre =>
    rw [hpre] at hc
    cases hc
  | advanced _ hpre hpost hg =>
    cases hpre.symm.trans hc
    cases hpost.symm.trans hc'
    cases hg with
    | submit | reject => rfl
    | dispute => exact absurd (Option.some.inj hl) (of_decide_eq_false hdis)
  | paid _ hpre hpost =>
    cases hpre.symm.trans hc
    cases hpost.symm.trans hc'
    rfl
  | refunded _ hpre hpost hg =>
    cases hpre.symm.trans hc
    cases hpost.symm.trans hc'
    cases hg <;> rfl

end Refinement

/-! ## Every run -/

/-- What the history says about claim `c`, next to its record. -/
structure Reviewed (h : History) (c : Pubkey) (r : EscrowClaim) (st : ClaimStatus) : Prop where
  status : r.status = st.toU8
  regular : (reviewOf h c r st).Regular maxRejections
  untouched : st = .enrolled → r.submittedAt = 0 ∧ r.deliverableHash = 0
  undisputed : disputes c h = 0 → r.disputedAt = 0

section Run
variable {s s' : State} {h : History} {c : Pubkey} {r : EscrowClaim} {l : Label}
  {out : List Transfer}

/-- Nothing was ever done to a claim that does not exist. -/
theorem Reaches.unnamed_of_none (hr : Reaches h s) : ∀ c, s.claims.get c = none →
    ∀ e ∈ h, e.label.claim? ≠ some c := by
  apply hr.history_invariant (I := fun h s => ∀ c, s.claims.get c = none →
    ∀ e ∈ h, e.label.claim? ≠ some c) (by simp)
  intro h s l out s' hrun ih hstep c hc'
  have hmove := Reaches.move hrun hstep
  have hl : l.claim? ≠ some c := by
    intro hl
    obtain ⟨r, hr'⟩ := (hmove.touch hl).post_exists
    rw [hc'] at hr'
    cases hr'
  rw [List.forall_mem_cons]
  exact ⟨hl, ih c ((hmove.claim_frame hl).symm.trans hc')⟩

/-- The enrolment starts the review. -/
theorem reviewed_of_enrolled {now : I64} {a : Enroll} {claimId : BitVec 128}
    (hfresh : ∀ e ∈ h, e.label.claim? ≠ some c) :
    Reviewed (⟨.instr now (.enroll a claimId), s, s', out⟩ :: h) c (a.record now claimId)
      .enrolled := by
  have none_of {p : Label → Bool} (hp : ∀ l, l.claim? ≠ some c → p l = false) :
      (h.countP fun e => p e.label) = 0 := by
    rw [List.countP_eq_zero]
    intro e he
    rw [hp _ (hfresh e he)]
    exact Bool.false_ne_true
  have hsub := none_of (p := Label.submits c) fun l hl => (silent_of_claim_ne hl).1
  have hdis := none_of (p := Label.disputes c) fun l hl => (silent_of_claim_ne hl).2.1
  have htouch := none_of (p := Label.handles c) fun l hl => (silent_of_claim_ne hl).2.2
  refine ⟨rfl, ?_, fun _ => ⟨rfl, rfl⟩, fun _ => rfl⟩
  rw [reviewOf_cons, submissions, disputes, touches, hsub, hdis, htouch]
  exact Review.regular_start _

/-- One more step on the claim. -/
theorem Reviewed.step {st : ClaimStatus} {r' : EscrowClaim} (hrev : Reviewed h c r st)
    (htouch : Touch s s' out c l) (hl : l.claim? = some c) (hc : s.claims.get c = some r)
    (hc' : s'.claims.get c = some r') : ∃ st', Reviewed (⟨l, s, s', out⟩ :: h) c r' st' := by
  obtain ⟨st₀, st', hst, hst', hne, hstep⟩ := htouch.review_step (h := h) hl hc hc'
  cases ClaimStatus.toU8_injective (hrev.status.symm.trans hst)
  refine ⟨st', hst', hrev.regular.step (by decide) hstep, fun heq => absurd heq hne, fun hz => ?_⟩
  simp only [disputes, List.countP_cons] at hz
  have hdis : l.disputes c = false := by
    by_contra ht
    rw [Bool.not_eq_false] at ht
    rw [if_pos ht] at hz
    omega
  rw [htouch.disputedAt_kept hl hdis hc hc']
  exact hrev.undisputed (Nat.eq_zero_of_add_eq_zero_right hz)

theorem Reaches.reviewed (hr : Reaches h s) : ∀ c r, s.claims.get c = some r →
    ∃ st, Reviewed h c r st := by
  apply hr.history_invariant (I := fun h s => ∀ c r, s.claims.get c = some r →
    ∃ st, Reviewed h c r st) (by simp [State.genesis])
  intro h s l out s' hrun ih hstep c r' hc'
  have hmove := Reaches.move hrun hstep
  by_cases hl : l.claim? = some c
  · cases hc : s.claims.get c with
    | some r =>
      obtain ⟨st, hrev⟩ := ih c r hc
      exact hrev.step (hmove.touch hl) hl hc hc'
    | none =>
      cases hmove.touch hl with
      | enrolled _ hpost =>
        cases hpost.symm.trans hc'
        exact ⟨_, reviewed_of_enrolled (Reaches.unnamed_of_none hrun c hc)⟩
      | advanced _ hpre | paid _ hpre | refunded _ hpre => cases hpre.symm.trans hc
  · obtain ⟨st, hrev⟩ := ih c r' ((hmove.claim_frame hl).symm.trans hc')
    obtain ⟨_, hdis, _⟩ := silent_of_claim_ne hl
    refine ⟨st, hrev.status, by rw [reviewOf_cons_of_ne hl]; exact hrev.regular, hrev.untouched,
      fun hz => hrev.undisputed ?_⟩
    simp only [disputes, List.countP_cons] at hz
    exact Nat.eq_zero_of_add_eq_zero_right hz

end Run

/-! ## The lifecycle in the words of the program -/

/-- The status of a claim, with its record and its history. -/
structure Lifecycle (h : History) (c : Pubkey) (r : EscrowClaim) : Prop where
  status : ∃ st : ClaimStatus, r.status = st.toU8
  enrolled : r.status = ClaimStatus.enrolled.toU8 →
    r.rejections = 0 ∧ r.submittedAt = 0 ∧ r.disputedAt = 0 ∧ r.deliverableHash = 0
  underReview : r.status = ClaimStatus.submitted.toU8 ∨ r.status = ClaimStatus.approved.toU8 →
    r.rejections ≤ 2
  contested : r.status = ClaimStatus.rejected.toU8 ∨ r.status = ClaimStatus.disputed.toU8 ∨
      r.status = ClaimStatus.resolvedDeliverer.toU8 ∨
      r.status = ClaimStatus.resolvedPoster.toU8 →
    1 ≤ r.rejections ∧ r.rejections ≤ 2
  cancelled : r.status = ClaimStatus.cancelled.toU8 ↔ r.rejections = 3
  /-- A dispute was opened on the claim; before that its time is zero. -/
  disputed : (∃ e ∈ h, e.label.disputes c = true) ↔ r.status = ClaimStatus.disputed.toU8 ∨
    r.status = ClaimStatus.resolvedDeliverer.toU8 ∨ r.status = ClaimStatus.resolvedPoster.toU8
  undisputed : (¬ ∃ e ∈ h, e.label.disputes c = true) → r.disputedAt = 0
  submissions : submissions c h = r.rejections +
    if r.status = ClaimStatus.submitted.toU8 ∨ r.status = ClaimStatus.approved.toU8 then 1 else 0
  touches : touches c h ≤ 6

theorem disputes_pos {h : History} {c : Pubkey} :
    0 < disputes c h ↔ ∃ e ∈ h, e.label.disputes c = true := List.countP_pos_iff

theorem Reviewed.lifecycle {h : History} {c : Pubkey} {r : EscrowClaim} {st : ClaimStatus}
    (hrev : Reviewed h c r st) : Lifecycle h c r := by
  have hrounds := hrev.regular.rounds
  have hsub := hrev.regular.submissions
  have hdis := hrev.regular.disputes
  have htouch := hrev.regular.touches_le
  have hundisputed := hrev.undisputed
  have hst := hrev.status
  simp only [reviewOf, maxRejections] at hrounds hsub hdis htouch
  constructor
  · exact ⟨st, hst⟩
  · intro henrolled
    cases ClaimStatus.toU8_injective (hst.symm.trans henrolled)
    obtain ⟨hsubmitted, hhash⟩ := hrev.untouched rfl
    exact ⟨hrounds, hsubmitted, hundisputed hdis, hhash⟩
  · rw [hst]
    cases st <;> simp [ClaimStatus.toU8, ClaimStatus.stage, Stage.Rounds] at hrounds ⊢ <;> omega
  · rw [hst]
    cases st <;> simp [ClaimStatus.toU8, ClaimStatus.stage, Stage.Rounds] at hrounds ⊢ <;> omega
  · rw [hst]
    cases st <;> simp [ClaimStatus.toU8, ClaimStatus.stage, Stage.Rounds] at hrounds ⊢ <;> omega
  · rw [← disputes_pos, hdis, hst]
    cases st <;> simp [ClaimStatus.toU8, ClaimStatus.stage, Stage.contested]
  · rw [← disputes_pos]
    exact fun hnone => hundisputed (Nat.eq_zero_of_not_pos hnone)
  · rw [hsub, hst]
    cases st <;> simp [ClaimStatus.toU8, ClaimStatus.stage, Stage.underReview]
  · omega

section Claim
variable {s : State} {h : History} {c : Pubkey} {r : EscrowClaim}

/-- A settled claim is never named again, so its record is final. -/
theorem Reaches.terminal_final (hr : Reaches h s) (hc : s.claims.get c = some r)
    (hterminal : r.terminal = true) {h' : History} {s' : State} (hrun : Runs s h' s') :
    s'.claims.get c = some r ∧ ∀ e ∈ h', e.label.claim? ≠ some c := by
  refine (hrun.history_invariant (I := fun h' s' => Reaches (h' ++ h) s' ∧
    s'.claims.get c = some r ∧ ∀ e ∈ h', e.label.claim? ≠ some c) ⟨hr, hc, by simp⟩ ?_).2
  rintro h₁ s₁ l out s₂ _ ⟨hr₁, hc₁, hnamed⟩ hstep
  have hmove := hr₁.move hstep
  have hl : l.claim? ≠ some c := fun hl =>
    terminal_iff.mp hterminal ((hmove.touch hl).found_live hc₁)
  exact ⟨hr₁.next hstep, (hmove.claim_frame hl).trans hc₁, List.forall_mem_cons.mpr ⟨hl, hnamed⟩⟩

/-- Status, rejections, timestamps and history of every claim in every
reachable state; a terminal status is final. -/
theorem claim_lifecycle (hr : Reaches h s) (hc : s.claims.get c = some r) :
    Lifecycle h c r ∧ (r.terminal = true → ∀ h' s', Runs s h' s' →
      s'.claims.get c = some r ∧ ∀ e ∈ h', e.label.claim? ≠ some c) := by
  obtain ⟨st, hrev⟩ := hr.reviewed c r hc
  exact ⟨hrev.lifecycle, fun hterminal h' s' hrun => hr.terminal_final hc hterminal hrun⟩

end Claim

open Scenario in
theorem claim_lifecycle_rejected : Lifecycle (played twoClaims).1 (.claimPda 1)
    ⟨1, job, helper, 3, 1100, 1200, 0, 1, 99⟩ :=
  (claim_lifecycle (played_reaches twoClaims) (by decide +kernel)).1

end ClustlyEscrow
