import Mathlib.Algebra.Order.Ring.Nat

/-!
# The review of one piece of work

What a claim is for, without accounts, money and clocks. The work is submitted,
and sent back fewer than `cap` times; the last time it is cancelled. Work that
was sent back may be disputed, once, and a dispute is only ever resolved. So the
stage and the number of rejections tell how often the work was touched.
-/
namespace ClustlyEscrow

inductive Stage
  | enrolled
  | submitted
  | approved
  | rejected
  | cancelled
  | disputed
  | resolved
  deriving DecidableEq, Repr

structure Review where
  stage : Stage
  rejections : ℕ
  /-- How often the work was submitted, disputed, and touched at all. -/
  submissions : ℕ
  disputes : ℕ
  touches : ℕ
  deriving DecidableEq, Repr

namespace Stage

/-- A submission that has not been sent back. -/
def underReview : Stage → ℕ
  | .submitted | .approved => 1
  | _ => 0

def contested : Stage → ℕ
  | .disputed | .resolved => 1
  | _ => 0

/-- Touches since the last rejection. -/
def pending : Stage → ℕ
  | .submitted | .disputed => 1
  | .approved | .resolved => 2
  | _ => 0

/-- The number of rejections that a stage allows. -/
def Rounds (cap k : ℕ) : Stage → Prop
  | .enrolled => k = 0
  | .submitted | .approved => k < cap
  | .rejected | .disputed | .resolved => 1 ≤ k ∧ k < cap
  | .cancelled => k = cap

end Stage

namespace Review

def start : Review := ⟨.enrolled, 0, 0, 0, 0⟩

inductive Step (cap : ℕ) (p : Review) : Review → Prop
  | submit (ready : p.stage = .enrolled ∨ p.stage = .rejected) :
      Step cap p { p with
        stage := .submitted, submissions := p.submissions + 1, touches := p.touches + 1 }
  | approve (ready : p.stage = .submitted) :
      Step cap p { p with stage := .approved, touches := p.touches + 1 }
  | reject (ready : p.stage = .submitted) (early : p.rejections + 1 < cap) :
      Step cap p { p with
        stage := .rejected, rejections := p.rejections + 1, touches := p.touches + 1 }
  | cancel (ready : p.stage = .submitted) (last : cap ≤ p.rejections + 1) :
      Step cap p { p with
        stage := .cancelled, rejections := p.rejections + 1, touches := p.touches + 1 }
  | dispute (ready : p.stage = .rejected) :
      Step cap p { p with
        stage := .disputed, disputes := p.disputes + 1, touches := p.touches + 1 }
  | resolve (ready : p.stage = .disputed) :
      Step cap p { p with stage := .resolved, touches := p.touches + 1 }

/-- Stage and rejections determine everything that was counted. -/
structure Regular (cap : ℕ) (p : Review) : Prop where
  rounds : p.stage.Rounds cap p.rejections
  submissions : p.submissions = p.rejections + p.stage.underReview
  disputes : p.disputes = p.stage.contested
  touches : p.touches = 2 * p.rejections + p.stage.pending

theorem regular_start (cap : ℕ) : start.Regular cap := ⟨rfl, rfl, rfl, rfl⟩

theorem Regular.step {cap : ℕ} (hcap : 0 < cap) {p q : Review} (h : p.Regular cap)
    (hs : Step cap p q) : q.Regular cap := by
  obtain ⟨hrounds, hsub, hdis, htouch⟩ := h
  cases hs with
  | submit ready =>
    rcases ready with hst | hst
    all_goals
      rw [hst] at hrounds hsub hdis htouch
      refine ⟨?_, ?_, hdis, ?_⟩ <;>
        simp only [Stage.Rounds, Stage.underReview, Stage.pending] at * <;> omega
  | approve ready =>
    rw [ready] at hrounds hsub hdis htouch
    exact ⟨hrounds, hsub, hdis, by simp only [htouch, Stage.pending]⟩
  | reject ready early =>
    rw [ready] at hrounds hsub hdis htouch
    refine ⟨⟨Nat.succ_pos _, early⟩, hsub, hdis, ?_⟩
    simp only [Stage.pending] at htouch ⊢
    omega
  | cancel ready last =>
    rw [ready] at hrounds hsub hdis htouch
    refine ⟨?_, hsub, hdis, ?_⟩ <;> simp only [Stage.Rounds, Stage.pending] at * <;> omega
  | dispute ready =>
    rw [ready] at hrounds hsub hdis htouch
    refine ⟨hrounds, hsub, ?_, ?_⟩ <;> simp only [Stage.contested, Stage.pending] at * <;> omega
  | resolve ready =>
    rw [ready] at hrounds hsub hdis htouch
    exact ⟨hrounds, hsub, hdis, by simp only [htouch, Stage.pending]⟩

/-- A review takes at most two touches a round. -/
theorem Regular.touches_le {cap : ℕ} {p : Review} (h : p.Regular cap) : p.touches ≤ 2 * cap := by
  have hrounds := h.rounds
  rw [h.touches]
  cases hst : p.stage <;> rw [hst] at hrounds <;>
    simp only [Stage.Rounds, Stage.pending] at hrounds ⊢ <;> omega

end Review
end ClustlyEscrow
