import ClustlyEscrow.Guarantees.Lifespan

/-!
# Sending an instruction again

A client that does not hear back sends its instruction again. That is safe: an
instruction on a task or a claim that went through is refused until another
instruction on the same task or claim goes through, at whatever time it comes.
-/
namespace ClustlyEscrow
open Foundations

/-- The status of the claim account `c`. -/
def State.statusOf (s : State) (c : Pubkey) : Option ClaimStatus :=
  (s.claims.get c).bind fun r => ClaimStatus.fromU8 r.status

/-- The status in which an instruction on a claim has to find it. -/
def Instruction.awaits : Instruction → List (Option ClaimStatus)
  | .enroll _ _ => [none]
  | .submit _ _ => [some .enrolled, some .rejected]
  | .approveClaim _ | .rejectClaim _ | .autoApprove _ => [some .submitted]
  | .openDispute _ => [some .rejected]
  | .resolveDispute _ _ | .autoResolveDispute _ => [some .disputed]
  | _ => []

/-- How far the task has to be for an instruction on the task itself. -/
def Instruction.awaitsTask : Instruction → ℕ
  | .initializeTask _ _ _ _ _ _ => 0
  | _ => 1

/-- The instructions that need the claim, or the task itself, where `ix` needs it. -/
structure Instruction.Rivals (ix ix' : Instruction) : Prop where
  task : ix'.task? = ix.task?
  claim : ix'.claim? = ix.claim?
  awaits : ix'.awaits ⊆ ix.awaits
  awaitsTask : ix'.awaitsTask = ix.awaitsTask

/-- Sent again, an instruction is a rival of itself. -/
theorem Instruction.Rivals.refl (ix : Instruction) : ix.Rivals ix :=
  ⟨rfl, rfl, List.Subset.refl _, rfl⟩

/-- The step is about the same claim as `ix`, or about the same task itself. -/
def Label.sameAs (ix : Instruction) (l : Label) : Prop :=
  l.claim? = ix.claim? ∧ (ix.claim? = none → l.task? = ix.task?)

instance (ix : Instruction) (l : Label) : Decidable (l.sameAs ix) :=
  inferInstanceAs (Decidable (_ ∧ _))

section Retry
variable {s s' s'' : State} {h h' : History} {l : Label} {out out' : List Transfer}
  {ix ix' : Instruction} {c T : Pubkey} {now : I64}

/-! ## Claims -/

theorem statusOf_of_get {r : EscrowClaim} (st : ClaimStatus) (hc : s.claims.get c = some r)
    (hst : r.status = st.toU8) : s.statusOf c = some st := by
  rw [State.statusOf, hc, Option.bind_some, hst, ClaimStatus.fromU8_toU8]

/-- A step on a claim finds it in a status that it does not leave it in. -/
theorem Move.awaited (hmove : Move s s' out (.instr now ix))
    (hl : (Label.instr now ix).claim? = some c) :
    s.statusOf c ∈ ix.awaits ∧ s'.statusOf c ∉ ix.awaits := by
  have wrote {c' : Pubkey} {r r' : EscrowClaim} {st : ClaimStatus} (st' : ClaimStatus)
      (hname : (Label.instr now ix).claim? = some c') (hc : s.claims.get c' = some r)
      (hclaims : s'.claims = s.claims.set c' r') (hst : r.status = st.toU8)
      (hst' : r'.status = st'.toU8) (hin : some st ∈ ix.awaits) (hnot : some st' ∉ ix.awaits) :
      s.statusOf c ∈ ix.awaits ∧ s'.statusOf c ∉ ix.awaits := by
    cases hname.symm.trans hl
    rw [statusOf_of_get st hc hst, statusOf_of_get st' (Store.get_of_eq_set hclaims) hst']
    exact ⟨hin, hnot⟩
  cases hmove with
  | configCreated | withdrawn | funded => cases hl
  | reconfigured _ _ hclaim => cases hclaim.symm.trans hl
  | ended _ hclaim => cases hclaim.symm.trans hl
  | enrolled he =>
    cases hl
    rw [statusOf_of_get .enrolled (Store.get_of_eq_set he.claims') rfl, State.statusOf, he.fresh]
    simp [Instruction.awaits]
  | @advanced _ c' _ r r' _ hclaim _ hg he =>
    have hclaims : s'.claims = s.claims.set c' r' := by rw [he.post]
    cases hg with
    | submit _ hst =>
      rcases hst with hst | hst
      all_goals
        exact wrote .submitted hclaim he.claim hclaims hst rfl (by simp [Instruction.awaits])
          (by simp [Instruction.awaits])
    | dispute _ hst =>
      exact wrote .disputed hclaim he.claim hclaims hst rfl (List.mem_singleton_self _)
        (by simp [Instruction.awaits])
    | reject _ _ hst =>
      exact wrote .rejected hclaim he.claim hclaims hst rfl (List.mem_singleton_self _)
        (by simp [Instruction.awaits])
  | paid _ hclaim hg he =>
    cases hg with
    | approve _ _ hst | autoApprove _ hst =>
      exact wrote .approved hclaim he.claim he.claims' hst rfl (List.mem_singleton_self _)
        (by simp [Instruction.awaits])
    | resolve _ hst | autoResolve hst =>
      exact wrote .resolvedDeliverer hclaim he.claim he.claims' hst rfl
        (List.mem_singleton_self _) (by simp [Instruction.awaits])
  | refunded _ hclaim hg he =>
    cases hg with
    | reject _ _ hst =>
      exact wrote .cancelled hclaim he.claim he.claims' hst rfl (List.mem_singleton_self _)
        (by simp [Instruction.awaits])
    | resolve _ hst =>
      exact wrote .resolvedPoster hclaim he.claim he.claims' hst rfl (List.mem_singleton_self _)
        (by simp [Instruction.awaits])

theorem Move.statusOf_kept (hmove : Move s s' out l) (hl : l.claim? ≠ some c) :
    s'.statusOf c = s.statusOf c := by
  rw [State.statusOf, State.statusOf, hmove.claim_frame hl]

/-! ## Tasks -/

/-- The same for the steps on a task itself. -/
theorem Move.task_awaited (hmove : Move s s' out (.instr now ix))
    (hl : (Label.instr now ix).task? = some T) (hclaim : (Label.instr now ix).claim? = none) :
    s.taskSteps T = ix.awaitsTask ∧ s'.taskSteps T ≠ ix.awaitsTask := by
  have hsteps := hmove.taskSteps (T := T)
  have hnames : (Label.instr now ix).names T = true := decide_eq_true hl
  rw [Label.namesClaimOf, hnames, hclaim] at hsteps
  simp only [Option.isSome_none, Bool.and_false, Bool.false_eq_true, if_false, if_true] at hsteps
  cases hmove with
  | configCreated | withdrawn => cases hl
  | enrolled => cases hclaim
  | reconfigured _ htask => cases htask.symm.trans hl
  | advanced _ hc | paid _ hc | refunded _ hc => cases hc.symm.trans hclaim
  | @funded _ a _ _ _ _ _ _ he =>
    cases hl
    have hnone : s.taskSteps a.task = 0 := by rw [State.taskSteps, he.fresh, Option.elim_none]
    change s'.taskSteps a.task + 0 + 0 = s.taskSteps a.task + 1 at hsteps
    change s.taskSteps a.task = 0 ∧ s'.taskSteps a.task ≠ 0
    omega
  | ended htask _ hg he =>
    cases htask.symm.trans hl
    have hone := taskSteps_opened he.task he.opened
    cases hg with
    | cancel | close | autoCancel =>
      change s.taskSteps T = 1 ∧ s'.taskSteps T ≠ 1
      split_ifs at hsteps <;> omega

theorem Move.taskSteps_kept (hmove : Move s s' out l)
    (hl : l.claim? = none → l.task? ≠ some T) : s'.taskSteps T = s.taskSteps T := by
  have hsteps := hmove.taskSteps (T := T)
  by_cases hname : l.task? = some T
  · have hclaim : l.claim?.isSome = true := by
      rw [Option.isSome_iff_ne_none]
      exact fun hnone => hl hnone hname
    have hnames : l.names T = true := decide_eq_true hname
    rw [Label.namesClaimOf, hnames, hclaim, cancels_of_claim hclaim] at hsteps
    simpa using hsteps
  · have hnames : l.names T = false := decide_eq_false hname
    rw [Label.namesClaimOf, hnames, cancels_named hname] at hsteps
    simpa using hsteps

/-! ## Runs -/

/-- What an instruction left stays until another one on the same claim or task. -/
theorem Reaches.left_alone (hr : Reaches h s') (hrun : Runs s' h' s'')
    (hquiet : ∀ e ∈ h', ¬ e.label.sameAs ix) :
    (∀ c, ix.claim? = some c → s''.statusOf c = s'.statusOf c) ∧
      ∀ T, ix.claim? = none → ix.task? = some T → s''.taskSteps T = s'.taskSteps T := by
  refine hrun.history_invariant_of (P := fun e => ¬ e.label.sameAs ix)
    (I := fun _ s₁ => (∀ c, ix.claim? = some c → s₁.statusOf c = s'.statusOf c) ∧
      ∀ T, ix.claim? = none → ix.task? = some T → s₁.taskSteps T = s'.taskSteps T)
    ⟨fun _ _ => rfl, fun _ _ _ => rfl⟩ ?_ hquiet
  rintro h₁ s₁ l out s₂ hrun₁ _ hapart ⟨hclaims, htasks⟩ hstep
  have hmove : Move s₁ s₂ out l := Reaches.move (hr.trans hrun₁) hstep
  constructor
  · intro c hc
    rw [← hclaims c hc]
    apply hmove.statusOf_kept
    exact fun hl => hapart ⟨hl.trans hc.symm, fun hnone => by cases hnone.symm.trans hc⟩
  · intro T hc hT
    rw [← htasks T hc hT]
    apply hmove.taskSteps_kept
    exact fun hnone hl => hapart ⟨hnone.trans hc.symm, fun _ => hl.trans hT.symm⟩

/-- In every run, whatever happens: once an instruction on a claim or a task has
gone through, it is refused when it comes again, at any time, and so is every
rival of it, until another instruction on the same claim or task goes through. -/
theorem rivals_refused (hr : Reaches h s) (hstep : Accepts exec s (.instr now ix) out s')
    (hname : ix.task? = some T) (hrun : Runs s' h' s'')
    (hquiet : ∀ e ∈ h', ¬ e.label.sameAs ix) (hrival : ix.Rivals ix') (now' : I64) :
    ∃ e, exec s'' (.instr now' ix') = .error e := by
  have hr' : Reaches _ s' := hr.next hstep
  have hmove := hr.move hstep
  have hsame := hr'.left_alone hrun hquiet
  cases hexec : exec s'' (.instr now' ix') with
  | error e => exact ⟨e, rfl⟩
  | ok res =>
    exfalso
    have hagain : Move s'' res.1 res.2 (.instr now' ix') := Reaches.move (hr'.trans hrun) hexec
    cases hclaim : ix.claim? with
    | some c =>
      have hleft := (hmove.awaited hclaim).2
      have hneeds := (hagain.awaited (hrival.claim.trans hclaim)).1
      rw [hsame.1 c hclaim] at hneeds
      exact hleft (hrival.awaits hneeds)
    | none =>
      have hleft := (hmove.task_awaited hname hclaim).2
      have hneeds := (hagain.task_awaited (hrival.task.trans hname)
        (hrival.claim.trans hclaim)).1
      rw [hrival.awaitsTask, hsame.2 T hclaim hname] at hneeds
      exact hleft hneeds

end Retry

namespace Scenario

/-- Two claims wait for their verdicts. -/
def handedIn : List Label := setup ++
  [fund 10000 3 (clock 5000), enrolls worker 0, enrolls helper 1, submits (clock 1200) worker 0,
    submits (clock 1200) helper 1]

def verdict : Instruction := .approveClaim ⟨payout usdc worker 0, poster⟩

def crankOf : Instruction := .autoApprove ⟨payout usdc worker 0, stranger⟩

end Scenario

open Scenario in
/-- The verdict of the poster came first, and the other worker is paid: the verdict
is not taken twice, and a crank is refused. -/
theorem rivals_refused_crank : ∃ out s' out' s'',
    Accepts exec (played handedIn).2 (.instr (clock 1300) verdict) out s' ∧
      Accepts exec s' (approves usdc helper 1) out' s'' ∧
      (∃ e, exec s'' (.instr (clock 1301) verdict) = .error e) ∧
      ∃ e, exec s'' (.instr (clock 1211000) crankOf) = .error e := by
  obtain ⟨out, s', hstep, hnext⟩ := Accepts.of_check exec (played handedIn).2
    (.instr (clock 1300) verdict)
    (fun s' _ => (exec s' (approves usdc helper 1)).toOption.any fun _ => true)
    (by decide +kernel)
  obtain ⟨out', s'', hother, _⟩ :=
    Accepts.of_check exec s' (approves usdc helper 1) (fun _ _ => true) hnext
  have hapart : ¬ (approves usdc helper 1).sameAs verdict := by decide
  have hrefused (ix' : Instruction) (hrival : verdict.Rivals ix') (now' : I64) :=
    rivals_refused (played_reaches handedIn) hstep rfl (.single hother)
      (List.forall_mem_singleton.mpr hapart) hrival now'
  have hcrank : verdict.Rivals crankOf := ⟨rfl, rfl, List.Subset.refl _, rfl⟩
  exact ⟨out, s', out', s'', hstep, hother, hrefused _ (.refl verdict) (clock 1301),
    hrefused _ hcrank (clock 1211000)⟩

end ClustlyEscrow
