import ClustlyEscrow.Guarantees.Lifecycle
import ClustlyEscrow.Guarantees.Terms

/-!
# Every task comes to rest

Whoever acts, a task is named by finitely many successful instructions. Their
number can be read off the state: every one of them moves a claim one step
along its review, takes a slot, or creates or ends the task.
-/
namespace ClustlyEscrow
open Foundations

/-- How many successful instructions it takes to bring a claim where it is. -/
def EscrowClaim.steps (r : EscrowClaim) : ℕ :=
  1 + 2 * r.rejections + (ClaimStatus.fromU8 r.status).elim 0 fun st => st.stage.pending

/-- The same for task `T` without its claims; a closed task takes no more steps. -/
def State.taskSteps (s : State) (T : Pubkey) : ℕ :=
  (s.tasks.get T).elim 0 fun t => if t.taskStatus = .closed then 2 else 1

def State.claimSteps (s : State) (T : Pubkey) : ℕ :=
  s.claims.sum fun r => if r.task = T then r.steps else 0

def Label.names (T : Pubkey) (l : Label) : Bool := decide (l.task? = some T)

/-- The step names task `T` and one claim. -/
def Label.namesClaimOf (T : Pubkey) (l : Label) : Bool := l.names T && l.claim?.isSome

/-- How many successful instructions of a run named task `T`. -/
def namings (T : Pubkey) (h : History) : ℕ := h.countP fun e => e.label.names T

def cancellations (T : Pubkey) (h : History) : ℕ := h.countP fun e => e.label.cancels T

/-! ## Claims -/

section Claims
variable {s s' : State} {out : List Transfer} {l : Label} {T c : Pubkey} {cfg : EscrowConfig}
  {t : EscrowTask} {r r' : EscrowClaim} {outcome st : ClaimStatus}

theorem steps_of_status (st : ClaimStatus) (h : r.status = st.toU8) :
    r.steps = 1 + 2 * r.rejections + st.stage.pending := by
  rw [EscrowClaim.steps, h, ClaimStatus.fromU8_toU8, Option.elim_some]

@[simp] theorem steps_setStatus :
    (r.setStatus st).steps = 1 + 2 * r.rejections + st.stage.pending :=
  steps_of_status _ rfl

theorem AdvanceGround.steps (hg : AdvanceGround t r l r') : r'.steps = r.steps + 1 := by
  cases hg with
  | @submit now _ hash _ hst =>
    have hpost : (r.submitted now hash).steps = 1 + 2 * r.rejections + 1 :=
      steps_of_status .submitted rfl
    rcases hst with hst | hst
    all_goals rw [hpost, steps_of_status _ hst]; rfl
  | @dispute now _ _ hst =>
    have hpost : (r.disputed now).steps = 1 + 2 * r.rejections + 1 :=
      steps_of_status .disputed rfl
    rw [hpost, steps_of_status _ hst]
    rfl
  | reject _ _ hst =>
    have hpost : (r.rejectedAs .rejected).steps = 1 + 2 * (r.rejections + 1) + 0 :=
      steps_of_status .rejected rfl
    rw [hpost, steps_of_status _ hst]
    simp only [ClaimStatus.stage, Stage.pending]
    omega

theorem PayGround.steps (hg : PayGround cfg t r l outcome) :
    (r.setStatus outcome).steps = r.steps + 1 := by
  cases hg with
  | approve _ _ hst | autoApprove _ hst | resolve _ hst | autoResolve hst =>
    rw [steps_setStatus, steps_of_status _ hst]
    rfl

theorem RefundGround.steps (hg : RefundGround cfg t r l r') : r'.steps = r.steps + 1 := by
  cases hg with
  | reject _ _ hst =>
    have hpost : (r.rejectedAs .cancelled).steps = 1 + 2 * (r.rejections + 1) + 0 :=
      steps_of_status .cancelled rfl
    rw [hpost, steps_of_status _ hst]
    simp only [ClaimStatus.stage, Stage.pending]
    omega
  | resolve _ hst =>
    rw [steps_setStatus, steps_of_status _ hst]
    rfl

/-- What a step did to the claim accounts: nothing, or one more step of one claim. -/
inductive ClaimsAfter (s s' : State) (l : Label) : Prop
  | same (claims : s'.claims = s.claims) (unnamed : l.claim? = none)
  | wrote {c : Pubkey} {r' : EscrowClaim} (named : l.claim? = some c)
      (claims : s'.claims = s.claims.set c r') (task : l.task? = some r'.task)
      (kept : ∀ r, s.claims.get c = some r → r.task = r'.task)
      (steps : r'.steps = (s.claims.get c).elim 0 EscrowClaim.steps + 1)

theorem Move.claims_after (hmove : Move s s' out l) : ClaimsAfter s s' l := by
  have rewrote {c : Pubkey} {r r' : EscrowClaim} (hname : l.claim? = some c)
      (hclaims : s'.claims = s.claims.set c r') (htask : l.task? = some r.task)
      (hc : s.claims.get c = some r) (hsame : r'.task = r.task)
      (hsteps : r'.steps = r.steps + 1) : ClaimsAfter s s' l := by
    refine .wrote hname hclaims (by rw [htask, hsame]) (fun q hq => ?_) (by rw [hc]; exact hsteps)
    cases hc.symm.trans hq
    exact hsame.symm
  cases hmove with
  | configCreated he | withdrawn he | funded he => exact .same he.claims' rfl
  | reconfigured _ _ hclaim _ he => exact .same (by rw [he.post]) hclaim
  | ended _ hclaim _ he => exact .same he.claims' hclaim
  | outside _ hpost => exact .same (by rw [hpost]) rfl
  | enrolled he =>
    refine .wrote rfl he.claims' rfl (fun r hr => ?_) ?_
    · rw [he.fresh] at hr
      cases hr
    · rw [he.fresh]
      exact steps_of_status .enrolled rfl
  | advanced htask hclaim _ hg he =>
    exact rewrote hclaim (by rw [he.post]) htask he.claim hg.task_eq hg.steps
  | paid htask hclaim hg he => exact rewrote hclaim he.claims' htask he.claim rfl hg.steps
  | refunded htask hclaim hg he =>
    exact rewrote hclaim he.claims' htask he.claim hg.task_eq hg.steps

theorem Move.claimSteps (hmove : Move s s' out l) :
    s'.claimSteps T = s.claimSteps T + if l.namesClaimOf T then 1 else 0 := by
  simp only [State.claimSteps, Label.namesClaimOf, Label.names]
  cases hmove.claims_after with
  | same hclaims hnone => simp [hclaims, hnone]
  | @wrote c r' hname hclaims htask hkept hsteps =>
    have hsum := s.claims.sum_set c r' fun r => if r.task = T then r.steps else 0
    rw [← hclaims] at hsum
    simp only [hname, htask, Option.some.injEq, Option.isSome_some, Bool.and_true,
      decide_eq_true_eq]
    cases hc : s.claims.get c with
    | none =>
      rw [hc] at hsum hsteps
      simp only [Option.elim_none] at hsum hsteps
      split_ifs at hsum ⊢ <;> omega
    | some r =>
      rw [hc] at hsum hsteps
      simp only [Option.elim_some, hkept r hc] at hsum hsteps
      split_ifs at hsum ⊢ <;> omega

end Claims

/-! ## Tasks -/

section Tasks
variable {s s' : State} {out : List Transfer} {l : Label} {h : History} {T : Pubkey}
  {t : EscrowTask}

theorem cancels_named (hl : l.task? ≠ some T) : l.cancels T = false := by
  cases l with
  | token => rfl
  | instr now ix =>
    cases ix
    case cancelBeforeEnroll a => exact decide_eq_false fun heq => hl (congrArg some heq)
    all_goals rfl

theorem cancels_of_claim (hl : l.claim?.isSome = true) : l.cancels T = false := by
  cases l with
  | token => rfl
  | instr now ix =>
    cases ix
    case cancelBeforeEnroll => cases hl
    all_goals rfl

theorem taskSteps_of_get (ht : s.tasks.get T = some t) :
    s.taskSteps T = if t.taskStatus = .closed then 2 else 1 := by
  rw [State.taskSteps, ht, Option.elim_some]

theorem taskSteps_opened (ht : s.tasks.get T = some t) (hopen : t.taskStatus = .opened) :
    s.taskSteps T = 1 := by
  rw [taskSteps_of_get ht, hopen]
  rfl

/-- A step that names a claim of the task leaves the task as open or closed as it was. -/
theorem taskSteps_kept {t' : EscrowTask} (ht : s.tasks.get T = some t)
    (ht' : s'.tasks.get T = some t') (hst : t'.taskStatus = t.taskStatus) :
    s'.taskSteps T = s.taskSteps T := by
  rw [taskSteps_of_get ht, taskSteps_of_get ht', hst]

/-- The step creates the task, ends it, cancels it, or works on one of its claims. -/
theorem Move.taskSteps (hmove : Move s s' out l) :
    s'.taskSteps T + (if l.cancels T then 2 else 0) + (if l.namesClaimOf T then 1 else 0) =
      s.taskSteps T + if l.names T then 1 else 0 := by
  by_cases hname : l.task? = some T
  swap
  · have hnot : l.names T = false := decide_eq_false hname
    have hsame : s'.taskSteps T = s.taskSteps T := by
      rw [State.taskSteps, State.taskSteps, hmove.task_frame hname]
    simp [Label.namesClaimOf, hnot, cancels_named hname, hsame]
  have hyes : l.names T = true := decide_eq_true hname
  -- What is left to compare when the step names a claim of an existing task.
  have on_claim {c : Pubkey} {t t' : EscrowTask} (hl : l.claim? = some c)
      (ht : s.tasks.get T = some t) (ht' : s'.tasks.get T = some t')
      (hst : t'.taskStatus = t.taskStatus) : s'.taskSteps T + (if l.cancels T then 2 else 0) +
        (if l.namesClaimOf T then 1 else 0) = s.taskSteps T + if l.names T then 1 else 0 := by
    have hsome : l.claim?.isSome = true := by rw [hl]; rfl
    simp [Label.namesClaimOf, hyes, hsome, cancels_of_claim hsome, taskSteps_kept ht ht' hst]
  cases ht : s.tasks.get T with
  | none =>
    obtain ⟨_, a, _, _, _, _, _, _, rfl, rfl, he⟩ := hmove.funded_of_none hname ht
    have hnone : s.taskSteps a.task = 0 := by rw [State.taskSteps, ht, Option.elim_none]
    rw [taskSteps_opened (Store.get_of_eq_set he.tasks') rfl, hnone, Label.namesClaimOf, hyes]
    rfl
  | some t =>
    cases hmove.on_task hname ht with
    | ended hg he =>
      rw [taskSteps_opened ht he.opened, hyes]
      cases hg with
      | cancel =>
        have hnone : s'.taskSteps T = 0 := by
          rw [State.taskSteps, he.tasks', Store.get_erase_self, Option.elim_none]
        rw [hnone, Label.cancels, decide_eq_true (Option.some.inj hname), Label.namesClaimOf, hyes]
        rfl
      | close | autoCancel =>
        rw [taskSteps_of_get (Store.get_of_eq_set he.tasks'), Label.namesClaimOf, hyes]
        rfl
    | enrolled htask he =>
      subst htask
      exact on_claim rfl ht (Store.get_of_eq_set he.tasks') rfl
    | advanced htask hclaim _ he => exact on_claim hclaim ht (by rw [he.post, ht]) rfl
    | paid htask hclaim _ he =>
      subst htask
      exact on_claim hclaim ht (Store.get_of_eq_set he.tasks') rfl
    | refunded htask hclaim _ he =>
      subst htask
      exact on_claim hclaim ht (Store.get_of_eq_set he.tasks') rfl

/-! ## Runs -/

/-- Every successful instruction on a task shows in the state, or it was undone
by a cancellation together with the creation before it. -/
theorem Reaches.namings_eq (hr : Reaches h s) (T : Pubkey) :
    namings T h = 2 * cancellations T h + s.taskSteps T + s.claimSteps T := by
  have hbalance := hr.balance (fun s => s.taskSteps T + s.claimSteps T)
    (fun e => if e.label.names T then 1 else 0) (fun e => if e.label.cancels T then 2 else 0)
    fun h s l out s' hrun hstep => by
      have hmove := Reaches.move hrun hstep
      have htask := hmove.taskSteps (T := T)
      have hclaims := hmove.claimSteps (T := T)
      dsimp only
      omega
  rw [sum_ite_eq_countP, sum_ite_eq_countP, Nat.one_mul] at hbalance
  change _ + 2 * cancellations T h = 0 + namings T h at hbalance
  omega

/-- Seven steps are enough for a claim. -/
theorem Reviewed.steps_le {c : Pubkey} {r : EscrowClaim} {st : ClaimStatus}
    (hrev : Reviewed h c r st) : r.steps ≤ 7 := by
  have htouches := hrev.regular.touches
  have hle := hrev.regular.touches_le
  simp only [reviewOf, maxRejections] at htouches hle
  rw [steps_of_status _ hrev.status]
  omega

theorem Reaches.claimSteps_le (hr : Reaches h s) (T : Pubkey) :
    s.claimSteps T ≤ 7 * s.claims.count fun r => r.task = T := by
  apply Store.sum_le_mul_count
  intro c r hc
  obtain ⟨st, hrev⟩ := hr.reviewed c r hc
  split_ifs
  · exact hrev.steps_le
  · exact le_rfl

/-- In every run, whoever acts: how often the instructions named a task is read
off its accounts, one instruction for each step of each of its claims, and so at
most seven times for every slot that was taken since the last cancellation. -/
theorem task_lifespan (hr : Reaches h s) (T : Pubkey) :
    (s.tasks.get T = none → namings T h = 2 * cancellations T h) ∧
    ∀ t, s.tasks.get T = some t →
      namings T h = 2 * cancellations T h + (if t.taskStatus = .closed then 2 else 1) +
        s.claimSteps T ∧
      s.claimSteps T ≤ 7 * t.slotsEnrolled ∧
      namings T h ≤ 2 * cancellations T h + 2 + 7 * t.maxSlots ∧ t.maxSlots ≤ 100 := by
  have hnamings := hr.namings_eq T
  have hclaims := hr.claimSteps_le T
  constructor
  · intro ht
    have hnone : s.claims.count (fun r => r.task = T) = 0 := by
      rw [Store.count_eq_zero_iff]
      rintro c r hc rfl
      obtain ⟨t, ht'⟩ := hr.parent hc
      rw [ht] at ht'
      cases ht'
    rw [State.taskSteps, ht, Option.elim_none] at hnamings
    omega
  · intro t ht
    have hcensus := hr.census ht
    have henrolled := hcensus.enrolled
    have hroom := hcensus.enrolled_le
    have hmax := hcensus.slots_le
    rw [taskSteps_of_get ht] at hnamings
    rw [← henrolled] at hclaims
    refine ⟨hnamings, hclaims, ?_, hmax⟩
    split_ifs at hnamings <;> omega

end Tasks

open Scenario in
/-- Ten instructions: the funding, three steps of one claim, five of the other, the close. -/
theorem task_lifespan_closed : namings job (played closedTask).1 =
    2 * cancellations job (played closedTask).1 + 2 + (played closedTask).2.claimSteps job :=
  ((task_lifespan (played_reaches closedTask) job).2
    ⟨0, poster, 10000, 3, 2, 2, 0, 1, 5000, 3600⟩ (by decide +kernel)).1

end ClustlyEscrow
