import ClustlyEscrow.Guarantees.Deal
import ClustlyEscrow.Guarantees.Windows

/-!
# The submission window

`initialize_task` takes a submission window and `enroll` notes when it opens,
but no instruction reads either: a claim that was never submitted can be
submitted at any clock. So a window is kept only if it never closes.
-/
namespace ClustlyEscrow
open Foundations

/-- Whatever is submitted on a claim that is still enrolled comes within the
window that its task grants from the enrolment on. -/
def WindowEnforced (s : State) : Prop :=
  ∀ c r t, s.claims.get c = some r → r.status = ClaimStatus.enrolled.toU8 →
    s.tasks.get r.task = some t → 0 < t.claimDeadlineSecs →
    ∀ (now : I64) (a : Submit) hash out s', a.claim = c →
      Accepts exec s (.instr now (.submit a hash)) out s' →
        now.val ≤ r.enrolledAt + t.claimDeadlineSecs

/-- If the step enrols in a task with a window, then the clock never gets past
the end of that window. -/
def windowOutlastsClock (s : State) : Label → Bool
  | .instr now (.enroll a _) => (s.tasks.get a.task).all fun t =>
      decide (0 < t.claimDeadlineSecs → lastClock.val ≤ now.val + t.claimDeadlineSecs)
  | _ => true

section Steps
variable {s s' : State} {h : History} {l : Label} {out : List Transfer} {c : Pubkey}
  {r r' : EscrowClaim} {t : EscrowTask}

theorem Sound.submit_accepted (hs : Sound s) (hc : s.claims.get c = some r)
    (hst : r.status = ClaimStatus.enrolled.toU8) (ht : s.tasks.get r.task = some t) (now : I64)
    (hash : BitVec 256) : ∃ s', Accepts exec s
      (.instr now (.submit ⟨r.claimer, r.task, c⟩ hash)) [] s' ∧
      s'.claims.get c = some (r.submitted now hash) := by
  have hclaim := hs.claim c r hc
  have hload : ClaimerAccounts.Loaded s ⟨r.claimer, r.task, c⟩ t r :=
    ⟨hclaim.claimer, ht, (hs.task r.task t ht).key, hc, hclaim.key, rfl, rfl⟩
  refine ⟨{ s with claims := s.claims.set c (r.submitted now hash) }, ?_, ?_⟩
  · exact submit_eq_ok.mpr ⟨t, r, hload, .inl hst, ⟨t, ht⟩, hc, rfl, rfl⟩
  · exact Store.get_set_self _ _ _

theorem Sound.window_enforced_iff (hs : Sound s) : WindowEnforced s ↔
    ∀ c r t, s.claims.get c = some r → r.status = ClaimStatus.enrolled.toU8 →
      s.tasks.get r.task = some t → 0 < t.claimDeadlineSecs →
        lastClock.val ≤ r.enrolledAt + t.claimDeadlineSecs := by
  constructor
  · intro henforced c r t hc hst ht hpos
    obtain ⟨s', hstep, _⟩ := hs.submit_accepted hc hst ht lastClock 0
    exact henforced c r t hc hst ht hpos _ _ _ _ _ rfl hstep
  · intro hlast c r t hc hst ht hpos now a hash out s' _ _
    exact (le_lastClock now).trans (hlast c r t hc hst ht hpos)

theorem Touch.left_enrolled (h : Touch s s' out c l) (hc' : s'.claims.get c = some r')
    (hst : r'.status = ClaimStatus.enrolled.toU8) :
    ∃ now a claimId, l = .instr now (.enroll a claimId) ∧ r' = a.record now claimId := by
  rcases h.left_live hc' (live_of_eq hst rfl) with henrolled | ⟨_, _, hg⟩
  · exact henrolled
  · cases hg <;> cases hst

theorem Reaches.window_step (hr : Reaches h s) (hstep : Accepts exec s l out s')
    (henforced : WindowEnforced s) :
    WindowEnforced s' ↔ windowOutlastsClock s l = true := by
  have hr' : Reaches (⟨l, s, s', out⟩ :: h) s' := hr.next hstep
  have hmove := hr.move hstep
  rw [hr.sound.window_enforced_iff] at henforced
  rw [hr'.sound.window_enforced_iff]
  constructor
  · intro hlast
    cases l with
    | token => rfl
    | instr now ix =>
      cases ix
      case enroll a claimId =>
        obtain ⟨t, he⟩ := enroll_eq_ok.mp hstep
        simp only [windowOutlastsClock, he.task, Option.all_some, decide_eq_true_eq]
        refine hlast a.claim (a.record now claimId)
          { t with slotsEnrolled := t.slotsEnrolled + 1 } ?_ rfl ?_
        · rw [he.claims', Store.get_set_self]
        · rw [he.tasks']
          exact Store.get_set_self _ _ _
      all_goals rfl
  · intro hopens c r' t' hc' hst ht' hpos
    by_cases hl : l.claim? = some c
    · obtain ⟨now, a, claimId, rfl, rfl⟩ := (hmove.touch hl).left_enrolled hc' hst
      obtain ⟨t, he⟩ := enroll_eq_ok.mp hstep
      simp only [windowOutlastsClock, he.task, Option.all_some, decide_eq_true_eq] at hopens
      have hterms := hmove.terms he.task ht'
      rw [hterms.claimDeadlineSecs] at hpos ⊢
      exact hopens hpos
    · have hc : s.claims.get c = some r' := (hmove.claim_frame hl).symm.trans hc'
      obtain ⟨t, ht⟩ := hr.parent hc
      have hterms := hmove.terms ht ht'
      rw [hterms.claimDeadlineSecs] at hpos ⊢
      exact henforced c r' t hc hst ht hpos

/-- In every run: all submissions that can be made on enrolled claims are in
time just if no enrolment opens a window that the clock can leave. -/
theorem submission_window (hr : Reaches h s) :
    (∀ e ∈ h, WindowEnforced e.post) ↔
      ∀ e ∈ h, windowOutlastsClock e.pre e.label = true := by
  apply hr.posts_iff (P := fun _ => True) (Q := WindowEnforced)
    (C := fun e => windowOutlastsClock e.pre e.label = true)
  · simp [WindowEnforced, State.genesis]
  · intro h₁ s₁ l out s₂ hrun _ henforced hstep
    exact Reaches.window_step hrun hstep henforced
  · exact fun _ _ => trivial

end Steps

namespace Scenario

def enrolledLast : List Label := offered ++
  [.instr lastClock (.enroll ⟨worker, .configPda, usdc, job, .claimPda 0, .ata worker usdc⟩ 0)]

def enrolledEarly : List Label := offered ++ [enrolls worker 0]

def approvesLate : Label := .instr (clock 11000) (.approveClaim ⟨payout usdc worker 0, poster⟩)

end Scenario

open Scenario in
theorem submission_window_last : ∃ e ∈ (played enrolledLast).1,
    e.post.claims.get (.claimPda 0) = some ⟨0, job, worker, 0, lastClock, 0, 0, 0, 0⟩ ∧
      WindowEnforced e.post := by
  have hall := (submission_window (played_reaches enrolledLast)).mpr (by decide +kernel)
  obtain ⟨e, he, hc⟩ : ∃ e ∈ (played enrolledLast).1, e.post.claims.get (.claimPda 0) =
      some ⟨0, job, worker, 0, lastClock, 0, 0, 0, 0⟩ := by decide +kernel
  exact ⟨e, he, hc, hall e he⟩

open Scenario in
/-- More than two hours later the worker submits and collects the bounty. -/
theorem submission_window_lapsed : Reaches (played enrolledEarly).1 (played enrolledEarly).2 ∧
    ¬ WindowEnforced (played enrolledEarly).2 ∧
    ∃ out s' out' s'',
      Accepts exec (played enrolledEarly).2 (submits (clock 10000) worker 0) out s' ∧
      Accepts exec s' approvesLate out' s'' ∧
      s''.tokens.balance (.ata worker usdc) = 9600 := by
  have hc : (played enrolledEarly).2.claims.get (.claimPda 0) =
      some ⟨0, job, worker, 0, 1100, 0, 0, 0, 0⟩ := by decide +kernel
  have ht : (played enrolledEarly).2.tasks.get job =
      some ⟨0, poster, 10000, 3, 1, 0, 0, 0, 5000, 3600⟩ := by decide +kernel
  obtain ⟨out, s', hstep, hnext⟩ := Accepts.of_check exec (played enrolledEarly).2
    (submits (clock 10000) worker 0)
    (fun s' _ => (exec s' approvesLate).toOption.any fun x : State × List Transfer =>
      decide (x.1.tokens.balance (.ata worker usdc) = 9600)) (by decide +kernel)
  obtain ⟨out', s'', happrove, hpaid⟩ := Accepts.of_check exec s' approvesLate
    (fun s'' _ => decide (s''.tokens.balance (.ata worker usdc) = 9600)) hnext
  refine ⟨played_reaches enrolledEarly, fun henforced => ?_, out, s', out', s'', hstep, happrove,
    of_decide_eq_true hpaid⟩
  have hlate := henforced _ _ _ hc rfl ht (by decide) _ _ _ _ _ rfl hstep
  revert hlate
  decide

end ClustlyEscrow
