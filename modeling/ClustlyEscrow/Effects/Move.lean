import ClustlyEscrow.Effects.Claims
import ClustlyEscrow.Effects.Config
import ClustlyEscrow.Effects.Tasks

/-!
# What one step can do

Every successful step is one of ten moves. A move carries its effect on the
state and the ground on which it was allowed; invariants are proved by cases on
the move and never open an instruction.
-/
namespace ClustlyEscrow
open Foundations

/-- The deadline has passed at the clock of the step. -/
def EscrowTask.Due (t : EscrowTask) (now : I64) : Prop :=
  0 < t.taskDeadlineTs ∧ t.taskDeadlineTs ≤ now

inductive ConfigGround (s : State) (cfg : EscrowConfig) : Label → EscrowConfig → Prop
  | admin {now : I64} {a : UpdateAdmin} {newAdmin : Pubkey} :
      ConfigGround s cfg (.instr now (.updateAdmin a newAdmin)) { cfg with admin := newAdmin }
  | fee {now : I64} {a : UpdateFee} {newFeeBps : U16} (capped : newFeeBps.val ≤ feeBpsCap) :
      ConfigGround s cfg (.instr now (.updateFee a newFeeBps)) { cfg with feeBps := newFeeBps }
  | mint {now : I64} {a : UpdateMint} (known : a.newMint ∈ s.tokens.mints) :
      ConfigGround s cfg (.instr now (.updateMint a)) { cfg with usdcMint := a.newMint }

inductive AdvanceGround (t : EscrowTask) (r : EscrowClaim) : Label → EscrowClaim → Prop
  | submit {now : I64} {a : Submit} {hash : BitVec 256} (claimer : r.claimer = a.claimer)
      (status : r.status = ClaimStatus.enrolled.toU8 ∨ r.status = ClaimStatus.rejected.toU8) :
      AdvanceGround t r (.instr now (.submit a hash)) (r.submitted now hash)
  | dispute {now : I64} {a : OpenDispute} (claimer : r.claimer = a.claimer)
      (status : r.status = ClaimStatus.rejected.toU8) :
      AdvanceGround t r (.instr now (.openDispute a)) (r.disputed now)
  | reject {now : I64} {a : RejectClaim} (poster : t.poster = a.poster)
      (opened : t.taskStatus = .opened) (status : r.status = ClaimStatus.submitted.toU8)
      (early : r.rejections + 1 < maxRejections) :
      AdvanceGround t r (.instr now (.rejectClaim a)) (r.rejectedAs .rejected)

inductive PayGround (cfg : EscrowConfig) (t : EscrowTask) (r : EscrowClaim) :
    Label → ClaimStatus → Prop
  | approve {now : I64} {a : ApproveClaim} (poster : t.poster = a.poster)
      (opened : t.taskStatus = .opened) (status : r.status = ClaimStatus.submitted.toU8) :
      PayGround cfg t r (.instr now (.approveClaim a)) .approved
  | autoApprove {now : I64} {a : AutoApprove} (opened : t.taskStatus = .opened)
      (status : r.status = ClaimStatus.submitted.toU8)
      (elapsed : Elapsed now r.submittedAt autoApproveWindowSecs) :
      PayGround cfg t r (.instr now (.autoApprove a)) .approved
  | resolve {now : I64} {a : ResolveDispute} (admin : cfg.admin = a.admin)
      (status : r.status = ClaimStatus.disputed.toU8) :
      PayGround cfg t r (.instr now (.resolveDispute a .deliverer)) .resolvedDeliverer
  | autoResolve {now : I64} {a : AutoResolveDispute}
      (status : r.status = ClaimStatus.disputed.toU8)
      (elapsed : Elapsed now r.disputedAt autoDisputeWindowSecs) :
      PayGround cfg t r (.instr now (.autoResolveDispute a)) .resolvedDeliverer

inductive RefundGround (cfg : EscrowConfig) (t : EscrowTask) (r : EscrowClaim) :
    Label → EscrowClaim → Prop
  | reject {now : I64} {a : RejectClaim} (poster : t.poster = a.poster)
      (opened : t.taskStatus = .opened) (status : r.status = ClaimStatus.submitted.toU8)
      (third : maxRejections ≤ r.rejections + 1) :
      RefundGround cfg t r (.instr now (.rejectClaim a)) (r.rejectedAs .cancelled)
  | resolve {now : I64} {a : ResolveDispute} (admin : cfg.admin = a.admin)
      (status : r.status = ClaimStatus.disputed.toU8) :
      RefundGround cfg t r (.instr now (.resolveDispute a .poster)) (r.setStatus .resolvedPoster)

inductive EndGround (s : State) (t : EscrowTask) (T : Pubkey) :
    Label → Store Pubkey EscrowTask → Prop
  | cancel {now : I64} {a : CancelBeforeEnroll} (poster : t.poster = a.poster)
      (unused : t.slotsEnrolled = 0) :
      EndGround s t T (.instr now (.cancelBeforeEnroll a)) (s.tasks.erase T)
  | close {now : I64} {a : CloseTask} (who : a.caller = t.poster ∨ t.Due now)
      (settled : t.activeSlots = 0) :
      EndGround s t T (.instr now (.closeTask a)) (s.tasks.set T (t.setStatus .closed))
  | autoCancel {now : I64} {a : AutoCancelTask} (due : t.Due now)
      (unused : t.slotsEnrolled = 0) :
      EndGround s t T (.instr now (.autoCancelTask a)) (s.tasks.set T (t.setStatus .closed))

inductive Move (s s' : State) (out : List Transfer) : Label → Prop
  | configCreated {now : I64} {a : InitializeConfig} {admin : Pubkey} {feeBps : U16}
      (effect : ConfigCreated s s' out ⟨admin, a.usdcMint, feeBps⟩) :
      Move s s' out (.instr now (.initializeConfig a admin feeBps))
  | reconfigured {l : Label} {p : Pubkey} {cfg cfg' : EscrowConfig} (signed : l.signedBy? = some p)
      (task : l.task? = none) (claim : l.claim? = none) (ground : ConfigGround s cfg l cfg')
      (effect : Reconfigured s s' out p cfg cfg') : Move s s' out l
  | withdrawn {now : I64} {a : WithdrawFees} {amount : U64} {cfg : EscrowConfig}
      (effect : Withdrawn s s' out a cfg amount) :
      Move s s' out (.instr now (.withdrawFees a amount))
  | funded {now : I64} {a : InitializeTask} {taskId : BitVec 128} {bounty : U64} {maxSlots : U16}
      {claimDeadlineSecs : U32} {taskDeadlineTs : I64} {cfg : EscrowConfig}
      (effect : Funded s s' out a cfg
        (a.record taskId bounty maxSlots claimDeadlineSecs taskDeadlineTs)) :
      Move s s' out (.instr now
        (.initializeTask a taskId bounty maxSlots claimDeadlineSecs taskDeadlineTs))
  | ended {l : Label} {T P : Pubkey} {cfg : EscrowConfig} {t : EscrowTask}
      {tasks' : Store Pubkey EscrowTask} (task : l.task? = some T) (claim : l.claim? = none)
      (ground : EndGround s t T l tasks') (effect : Ended s s' out T P cfg t tasks') :
      Move s s' out l
  | enrolled {now : I64} {a : Enroll} {claimId : BitVec 128} {t : EscrowTask}
      (effect : Enrolled s s' out now a claimId t) : Move s s' out (.instr now (.enroll a claimId))
  | advanced {l : Label} {c : Pubkey} {t : EscrowTask} {r r' : EscrowClaim}
      (task : l.task? = some r.task) (claim : l.claim? = some c)
      (found : s.tasks.get r.task = some t) (ground : AdvanceGround t r l r')
      (effect : Advanced s s' out c r r') : Move s s' out l
  | paid {l : Label} {c : Pubkey} {cfg : EscrowConfig} {t : EscrowTask} {r : EscrowClaim}
      {outcome : ClaimStatus} (task : l.task? = some r.task) (claim : l.claim? = some c)
      (ground : PayGround cfg t r l outcome) (effect : Paid s s' out c cfg t r outcome) :
      Move s s' out l
  | refunded {l : Label} {c P : Pubkey} {cfg : EscrowConfig} {t : EscrowTask}
      {r r' : EscrowClaim} (task : l.task? = some r.task) (claim : l.claim? = some c)
      (ground : RefundGround cfg t r l r') (effect : Refunded s s' out c P cfg t r r') :
      Move s s' out l
  | outside {op : TokenOp} {tokens : Bank Pubkey} (effect : Outside s.tokens tokens op)
      (post : s' = { s with tokens }) (silent : out = []) : Move s s' out (.token op)

section Inversion
variable {s s' : State} {out : List Transfer} {now : I64}

theorem move_of_process (hs : Sound s) {ix : Instruction}
    (h : ix.process s now = .ok (s', out)) : Move s s' out (.instr now ix) := by
  cases ix with
  | initializeConfig a admin feeBps =>
    obtain ⟨_, _, _, he⟩ := initializeConfig_eq_ok.mp h
    exact .configCreated he
  | updateAdmin a newAdmin =>
    obtain ⟨cfg, _, he⟩ := updateAdmin_eq_ok.mp h
    exact .reconfigured rfl rfl rfl .admin he
  | updateFee a newFeeBps =>
    obtain ⟨cfg, _, hcap, he⟩ := updateFee_eq_ok.mp h
    exact .reconfigured rfl rfl rfl (.fee hcap) he
  | updateMint a =>
    obtain ⟨cfg, _, hknown, he⟩ := updateMint_eq_ok.mp h
    exact .reconfigured rfl rfl rfl (.mint hknown) he
  | initializeTask a taskId bounty maxSlots claimDeadlineSecs taskDeadlineTs =>
    obtain ⟨cfg, he⟩ := initializeTask_eq_ok.mp h
    exact .funded he
  | cancelBeforeEnroll a =>
    obtain ⟨cfg, t, hl, hnone, he⟩ := (cancelBeforeEnroll_eq_ok hs).mp h
    exact .ended rfl rfl (.cancel hl.poster hnone) he
  | closeTask a =>
    obtain ⟨cfg, t, hl, hwho, hact, he⟩ := (closeTask_eq_ok hs).mp h
    exact .ended rfl rfl (.close hwho hact) he
  | autoCancelTask a =>
    obtain ⟨cfg, t, hl, hdue, hnone, he⟩ := (autoCancelTask_eq_ok hs).mp h
    exact .ended rfl rfl (.autoCancel hdue hnone) he
  | enroll a claimId =>
    obtain ⟨t, he⟩ := enroll_eq_ok.mp h
    exact .enrolled he
  | submit a hash =>
    obtain ⟨t, r, hl, hst, he⟩ := submit_eq_ok.mp h
    exact .advanced (congrArg some hl.claim_task.symm) rfl (hl.claim_task ▸ hl.task)
      (.submit hl.claimer hst) he
  | approveClaim a =>
    obtain ⟨cfg, t, r, hl, _, _, hposter, hopen, hst, _, he⟩ := (approveClaim_eq_ok hs).mp h
    exact .paid (congrArg some hl.claim_task.symm) rfl (.approve hposter hopen hst) he
  | rejectClaim a =>
    obtain ⟨cfg, t, r, hl, hopen, hst, _, hrej⟩ := (rejectClaim_eq_ok hs).mp h
    have htask : (Label.instr now (.rejectClaim a)).task? = some r.task :=
      congrArg some hl.claim_task.symm
    rcases hrej with ⟨hmax, _, he⟩ | ⟨hmax, he⟩
    · exact .refunded htask rfl (.reject hl.poster hopen hst hmax) he
    · exact .advanced htask rfl (hl.claim_task ▸ hl.task) (.reject hl.poster hopen hst hmax) he
  | autoApprove a =>
    obtain ⟨cfg, t, r, hl, _, _, hopen, hst, hel, _, he⟩ := (autoApprove_eq_ok hs).mp h
    exact .paid (congrArg some hl.claim_task.symm) rfl (.autoApprove hopen hst hel) he
  | openDispute a =>
    obtain ⟨t, r, hl, hst, he⟩ := openDispute_eq_ok.mp h
    exact .advanced (congrArg some hl.claim_task.symm) rfl (hl.claim_task ▸ hl.task)
      (.dispute hl.claimer hst) he
  | resolveDispute a favor =>
    obtain ⟨cfg, t, r, hl, _, _, hadmin, _, hst, hrule⟩ := (resolveDispute_eq_ok hs).mp h
    have htask : (Label.instr now (.resolveDispute a favor)).task? = some r.task :=
      congrArg some hl.claim_task.symm
    cases favor with
    | deliverer => exact .paid htask rfl (.resolve hadmin hst) hrule.2
    | poster => exact .refunded htask rfl (.resolve hadmin hst) hrule.2
  | autoResolveDispute a =>
    obtain ⟨cfg, t, r, hl, _, _, hst, hel, _, he⟩ := (autoResolveDispute_eq_ok hs).mp h
    exact .paid (congrArg some hl.claim_task.symm) rfl (.autoResolve hst hel) he
  | withdrawFees a amount =>
    obtain ⟨cfg, _, _, _, he⟩ := (withdrawFees_eq_ok hs).mp h
    exact .withdrawn he

/-- The inversion of `exec` that every invariant below is proved from. -/
theorem move_of_exec (hs : Sound s) {l : Label} (h : Accepts exec s l out s') :
    Move s s' out l := by
  cases l with
  | instr now ix => exact move_of_process hs h
  | token op =>
    simp only [Accepts, exec, seq_eq_ok, return_eq_ok, Prod.mk.injEq] at h
    obtain ⟨tokens, hop, rfl, rfl⟩ := h
    exact .outside (TokenOp.process_outside hop) rfl rfl

/-- No instruction succeeds without the signature it asks for. -/
theorem signs_of_process {ix : Instruction} (h : ix.process s now = .ok (s', out)) :
    ix.signedBy.canSign = true := by
  cases ix with
  | updateAdmin | updateFee | updateMint =>
    simp only [Instruction.process, updateAdmin, updateFee, updateMint, seq_eq_ok,
      UpdateConfig.load_eq_ok] at h
    obtain ⟨_, hload, _⟩ := h
    exact hload.2.2.2
  | closeTask | autoCancelTask =>
    simp only [Instruction.process, closeTask, autoCancelTask, seq_eq_ok,
      CloseTask.load_eq_ok] at h
    obtain ⟨_, ⟨_, hload⟩, _⟩ := h
    exact hload.caller_signs
  | submit | openDispute =>
    simp only [Instruction.process, submit, openDispute, seq_eq_ok,
      ClaimerAccounts.load_eq_ok] at h
    obtain ⟨_, ⟨_, hload⟩, _⟩ := h
    exact hload.claimer_signs
  | initializeConfig | initializeTask | cancelBeforeEnroll | enroll | approveClaim | rejectClaim
  | autoApprove | resolveDispute | autoResolveDispute | withdrawFees =>
    simp only [Instruction.process, initializeConfig, initializeTask, cancelBeforeEnroll, enroll,
      approveClaim, rejectClaim, autoApprove, resolveDispute, autoResolveDispute, withdrawFees,
      seq_eq_ok, signer_eq_ok] at h
    obtain ⟨_, hsign, _⟩ := h
    exact hsign

end Inversion
end ClustlyEscrow
