import ClustlyEscrow.Effects.Claims
import ClustlyEscrow.Effects.Config
import ClustlyEscrow.Effects.Tasks

/-!
# What an instruction can fail with

The guards of an instruction fail with refusals, its token calls with errors of
the token program, and its checked operations with an overflow. What the guards
have established is at hand where the later steps are looked at.
-/
namespace ClustlyEscrow
open Foundations

/-- The error of an operation that overflows. -/
def Error.isArithmetic : Error → Bool
  | .escrow .mathOverflow | .arithmeticPanic => true
  | _ => false

/-- The error of a guard. -/
def Error.isRefusal : Error → Bool
  | .escrow .mathOverflow | .arithmeticPanic | .token _ => false
  | _ => true

theorem Error.not_arithmetic_of_refusal {e : Error} (h : e.isRefusal = true) :
    e.isArithmetic = false := by
  cases e with
  | escrow e => cases e <;> first | rfl | cases h
  | constraint => rfl
  | token => rfl
  | arithmeticPanic => cases h

abbrev Refuses {α : Type} (x : Result α) : Prop := FailsOnly (fun e => e.isRefusal = true) x

/-- No operation of the computation overflows. -/
abbrev NoOverflow {α : Type} (x : Result α) : Prop :=
  FailsOnly (fun e => e.isArithmetic = false) x

theorem Refuses.noOverflow {α : Type} {x : Result α} (h : Refuses x) : NoOverflow x :=
  h.mono fun _ => Error.not_arithmetic_of_refusal

section Guards
variable {s : State} {k mint authority : Pubkey}

theorem signer_refuses : Refuses (signer k) := .require rfl

theorem loadConfig_refuses : Refuses (loadConfig s k) :=
  .seq (.require rfl) (fun _ _ => .okOr rfl)

theorem loadTask_refuses : Refuses (loadTask s k) :=
  .seq (.okOr rfl) (fun _ _ => .seq (.require rfl) (fun _ _ => .ret _))

theorem loadClaim_refuses : Refuses (loadClaim s k) :=
  .seq (.okOr rfl) (fun _ _ => .seq (.require rfl) (fun _ _ => .ret _))

theorem loadMint_refuses : Refuses (loadMint s k) := .require rfl

theorem loadAta_refuses : Refuses (loadAta s k mint authority) :=
  .seq (.okOr rfl) (fun _ _ => .seq (.require rfl) (fun _ _ => .require rfl))

theorem loadToken_refuses : Refuses (loadToken s k mint authority) :=
  .seq (.okOr rfl) (fun _ _ => .seq (.require rfl) (fun _ _ => .require rfl))

theorem loadTokenOfMint_refuses : Refuses (loadTokenOfMint s k mint) :=
  .seq (.okOr rfl) (fun _ _ => .require rfl)

theorem PayoutAccounts.load_refuses (a : PayoutAccounts) : Refuses (a.load s) :=
  .seq loadConfig_refuses fun _ _ => .seq loadMint_refuses fun _ _ =>
  .seq loadTask_refuses fun _ _ => .seq loadClaim_refuses fun _ _ =>
  .seq (.require rfl) fun _ _ => .seq loadAta_refuses fun _ _ =>
  .seq loadAta_refuses fun _ _ => .seq (.require rfl) fun _ _ =>
  .seq loadAta_refuses fun _ _ => .ret _

theorem UpdateConfig.load_refuses (a : UpdateConfig) : Refuses (a.load s) :=
  .seq loadConfig_refuses fun _ _ => .seq (.require rfl) fun _ _ =>
  .seq signer_refuses fun _ _ => .ret _

theorem CloseTask.load_refuses (a : CloseTask) : Refuses (a.load s) :=
  .seq signer_refuses fun _ _ => .seq loadConfig_refuses fun _ _ =>
  .seq loadTask_refuses fun _ _ => .seq loadAta_refuses fun _ _ =>
  .seq loadToken_refuses fun _ _ => .seq (.require rfl) fun _ _ => .ret _

theorem ClaimerAccounts.load_refuses (a : ClaimerAccounts) : Refuses (a.load s) :=
  .seq signer_refuses fun _ _ => .seq loadTask_refuses fun _ _ =>
  .seq loadClaim_refuses fun _ _ => .seq (.require rfl) fun _ _ =>
  .seq (.require rfl) fun _ _ => .ret _

end Guards

/-! ## Token calls -/

namespace Cpi
variable {c : Cpi} {authority source dest account mint : Pubkey} {amount : ℕ}

theorem lift_noOverflow {α : Type} {x : Except TokenError α} : NoOverflow (lift x) := by
  intro e h
  cases x with
  | ok => cases h
  | error =>
    cases h
    rfl

theorem transfer_noOverflow : NoOverflow (c.transfer authority source dest amount) :=
  .seq lift_noOverflow (fun _ _ => .ret _)

theorem transferPos_noOverflow : NoOverflow (c.transferPos authority source dest amount) := by
  unfold transferPos
  split_ifs
  · exact transfer_noOverflow
  · exact .ret _

theorem closeAccount_noOverflow : NoOverflow (c.closeAccount authority account) :=
  .seq lift_noOverflow (fun _ _ => .ret _)

theorem initAta_noOverflow : NoOverflow (c.initAta account mint authority) :=
  .seq (.require rfl) (fun _ _ => .seq lift_noOverflow (fun _ _ => .ret _))

theorem initAtaIfNeeded_noOverflow : NoOverflow (c.initAtaIfNeeded account mint authority) := by
  unfold initAtaIfNeeded
  split
  · exact initAta_noOverflow
  · exact .seq (.require rfl) fun _ _ => .seq (.require rfl) fun _ _ =>
      .seq (.require rfl) fun _ _ => .ret _

end Cpi

section Settling
variable {s : State} {cfg : EscrowConfig} {t : EscrowTask} {r : EscrowClaim} {now : I64}
  {P : Error → Prop}

theorem sweepVault_noOverflow {T vault dest : Pubkey} : NoOverflow (sweepVault s T vault dest) :=
  .seq Cpi.transferPos_noOverflow (fun _ _ => Cpi.closeAccount_noOverflow)

/-- A payout overflows only in the counter of the approved slots. -/
theorem payDeliverer_noOverflow (hs : Sound s) {a : PayoutAccounts} (hl : a.Loaded s cfg t r)
    (hroom : t.slotsApproved + 1 < 2 ^ 16) (outcome : ClaimStatus) :
    NoOverflow (payDeliverer s a cfg t r outcome) := by
  have hsplit := computeFeeSplit_eq_ok (hs.task _ _ hl.task).bounty_lt (hs.fee_le _ hl.config)
  refine .seq (.of_ok hsplit) fun _ _ => .seq ?_ fun _ _ =>
    .seq (.checkedAdd hroom) fun _ _ => .ret _
  exact .seq Cpi.transferPos_noOverflow (fun _ _ => Cpi.transferPos_noOverflow)

theorem refundPoster_noOverflow {T c vault dest : Pubkey} (hroom : t.slotsRefunded + 1 < 2 ^ 16)
    (r' : EscrowClaim) : NoOverflow (refundPoster s T c vault dest t r') :=
  .seq Cpi.transfer_noOverflow fun _ _ => .seq (.checkedAdd hroom) fun _ _ => .ret _

/-! ## The five settling instructions -/

/-- The log line does not overflow once the window has passed. -/
theorem Elapsed.logs {since window : ℤ} (h : Elapsed now since window) :
    FailsOnly P (okOr (subI64 now since) .arithmeticPanic) :=
  .of_ok ((okOr_eq_ok _ _ _).mpr (subI64_eq_some.mpr ⟨h.logged, rfl⟩))

theorem status_of_checks {st st' : ClaimStatus} {u : Unit} {e : Error}
    (hst : r.claimStatus = .ok st) (hreq : require (st = st') e = .ok u) :
    r.status = st'.toU8 := by
  rw [require_eq_ok] at hreq
  rw [claimStatus_eq_ok.mp hst, hreq]

/-- What bounds the errors of the instructions that settle a claim: those of
their guards, of a payout, of a refund and of the counter of rejections. -/
structure SettlesWithin (s : State) (P : Error → Prop) : Prop where
  guards : ∀ e : Error, e.isRefusal = true → P e
  pays : ∀ (a : PayoutAccounts) cfg t r, a.Loaded s cfg t r → a.usdcMint = cfg.usdcMint →
    r.status = ClaimStatus.submitted.toU8 ∨ r.status = ClaimStatus.disputed.toU8 →
      ∀ outcome, FailsOnly P (payDeliverer s a cfg t r outcome)
  refunds : ∀ c dest cfg t r, s.config = some cfg → s.tasks.get r.task = some t →
    s.claims.get c = some r → s.tokens.holder dest = some (t.poster, cfg.usdcMint) →
    r.status = ClaimStatus.submitted.toU8 ∨ r.status = ClaimStatus.disputed.toU8 → ∀ r',
      FailsOnly P (refundPoster s r.task c (.ata r.task cfg.usdcMint) dest t r')
  counts : ∀ c r, s.claims.get c = some r → r.status = ClaimStatus.submitted.toU8 →
    FailsOnly P (okOr (checkedAdd 8 r.rejections 1) (.escrow .mathOverflow))

theorem SettlesWithin.approveClaim (h : SettlesWithin s P) (a : ApproveClaim) :
    FailsOnly P (approveClaim s a) := by
  have guard (e : Error) (he : e.isRefusal = true) := h.guards e he
  refine .seq (signer_refuses.mono guard) fun _ _ => .seq (a.load_refuses.mono guard)
    fun ⟨cfg, t, r⟩ hload => .seq (.require (guard _ rfl)) fun _ _ =>
    .seq (.require (guard _ rfl)) fun _ hm => .seq (.require (guard _ rfl)) fun _ _ =>
    .seq (.okOr (guard _ rfl)) fun st hst => .seq (.require (guard _ rfl)) fun _ hsub => ?_
  exact h.pays _ cfg t r (PayoutAccounts.load_eq_ok.mp hload) ((require_eq_ok _ _ _).mp hm)
    (.inl (status_of_checks hst hsub)) .approved

theorem SettlesWithin.autoApprove (h : SettlesWithin s P) (a : AutoApprove) :
    FailsOnly P (autoApprove s now a) := by
  have guard (e : Error) (he : e.isRefusal = true) := h.guards e he
  refine .seq (signer_refuses.mono guard) fun _ _ => .seq (a.load_refuses.mono guard)
    fun ⟨cfg, t, r⟩ hload => .seq (.require (guard _ rfl)) fun _ hm =>
    .seq (.require (guard _ rfl)) fun _ _ => .seq (.okOr (guard _ rfl)) fun st hst =>
    .seq (.require (guard _ rfl)) fun _ hsub => .seq (.require (guard _ rfl)) fun _ htime =>
    .seq ?_ fun _ _ => .seq ?_ fun _ _ => .ret _
  · exact h.pays _ cfg t r (PayoutAccounts.load_eq_ok.mp hload) ((require_eq_ok _ _ _).mp hm)
      (.inl (status_of_checks hst hsub)) .approved
  · exact ((elapsed_iff _ (by decide) (by decide)).mpr ((require_eq_ok _ _ _).mp htime)).logs

theorem SettlesWithin.autoResolveDispute (h : SettlesWithin s P) (a : AutoResolveDispute) :
    FailsOnly P (autoResolveDispute s now a) := by
  have guard (e : Error) (he : e.isRefusal = true) := h.guards e he
  refine .seq (signer_refuses.mono guard) fun _ _ => .seq (a.load_refuses.mono guard)
    fun ⟨cfg, t, r⟩ hload => .seq (.require (guard _ rfl)) fun _ hm =>
    .seq (.okOr (guard _ rfl)) fun st hst => .seq (.require (guard _ rfl)) fun _ hdis =>
    .seq (.require (guard _ rfl)) fun _ htime => .seq ?_ fun _ _ => .seq ?_ fun _ _ => .ret _
  · exact h.pays _ cfg t r (PayoutAccounts.load_eq_ok.mp hload) ((require_eq_ok _ _ _).mp hm)
      (.inr (status_of_checks hst hdis)) .resolvedDeliverer
  · exact ((elapsed_iff _ (by decide) (by decide)).mpr ((require_eq_ok _ _ _).mp htime)).logs

theorem SettlesWithin.resolveDispute (h : SettlesWithin s P) (a : ResolveDispute)
    (favor : DisputeFavor) : FailsOnly P (resolveDispute s a favor) := by
  have guard (e : Error) (he : e.isRefusal = true) := h.guards e he
  refine .seq (signer_refuses.mono guard) fun _ _ => .seq (a.load_refuses.mono guard)
    fun ⟨cfg, t, r⟩ hload => .seq (.require (guard _ rfl)) fun _ _ =>
    .seq (loadToken_refuses.mono guard) fun _ hdest => .seq (.require (guard _ rfl)) fun _ hm =>
    .seq (.okOr (guard _ rfl)) fun st hst => .seq (.require (guard _ rfl)) fun _ hdis => ?_
  have hl := PayoutAccounts.load_eq_ok.mp hload
  have hmint : a.usdcMint = cfg.usdcMint := (require_eq_ok _ _ _).mp hm
  have hdisputed := status_of_checks hst hdis
  cases favor with
  | deliverer => exact h.pays _ cfg t r hl hmint (.inr hdisputed) .resolvedDeliverer
  | poster =>
    have href := h.refunds a.claim a.posterAta cfg t r hl.config hl.task_get hl.claim
      (hmint ▸ loadToken_eq_ok.mp hdest) (.inr hdisputed) (r.setStatus .resolvedPoster)
    rw [← hmint, hl.claim_task, ← hl.vault_key] at href
    exact href

theorem SettlesWithin.rejectClaim (h : SettlesWithin s P) (a : RejectClaim) :
    FailsOnly P (rejectClaim s a) := by
  have guard (e : Error) (he : e.isRefusal = true) := h.guards e he
  refine .seq (signer_refuses.mono guard) fun _ _ => .seq (loadConfig_refuses.mono guard)
    fun cfg hcfg => .seq (loadTask_refuses.mono guard) fun t ht =>
    .seq (.require (guard _ rfl)) fun _ _ => .seq (loadClaim_refuses.mono guard) fun r hc =>
    .seq (.require (guard _ rfl)) fun _ hT => .seq (loadAta_refuses.mono guard) fun _ hv =>
    .seq (loadToken_refuses.mono guard) fun _ hdest => .seq (.require (guard _ rfl)) fun _ _ =>
    .seq (.okOr (guard _ rfl)) fun st hst => .seq (.require (guard _ rfl)) fun _ hsub =>
    .seq ?_ fun n _ => ?_
  · exact h.counts a.claim r (loadClaim_eq_ok.mp hc).1 (status_of_checks hst hsub)
  split_ifs with hmax
  · generalize { r with rejections := n }.setStatus .cancelled = r'
    have htask : r.task = a.task := (require_eq_ok _ _ _).mp hT
    have href := h.refunds a.claim a.posterAta cfg t r (loadConfig_eq_ok.mp hcfg).2
      (htask ▸ (loadTask_eq_ok.mp ht).1) (loadClaim_eq_ok.mp hc).1 (loadToken_eq_ok.mp hdest)
      (.inl (status_of_checks hst hsub)) r'
    rw [htask, ← (loadAta_eq_ok.mp hv).1] at href
    exact href
  · exact .ret _

theorem SettlesWithin.settles (h : SettlesWithin s P) {ix : Instruction}
    (hix : ix.settles = true) : FailsOnly P (exec s (.instr now ix)) := by
  cases ix with
  | approveClaim a => exact h.approveClaim a
  | rejectClaim a => exact h.rejectClaim a
  | autoApprove a => exact h.autoApprove a
  | resolveDispute a favor => exact h.resolveDispute a favor
  | autoResolveDispute a => exact h.autoResolveDispute a
  | _ => cases hix

end Settling

/-! ## The other instructions -/

section Others
variable {s : State} {now : I64}

theorem initializeConfig_noOverflow (a : InitializeConfig) (admin : Pubkey) (feeBps : U16) :
    NoOverflow (initializeConfig s a admin feeBps) :=
  .seq signer_refuses.noOverflow fun _ _ => .seq loadMint_refuses.noOverflow fun _ _ =>
  .seq (.require rfl) fun _ _ => .seq (.require rfl) fun _ _ =>
  .seq Cpi.initAta_noOverflow fun _ _ => .seq (.require rfl) fun _ _ => .ret _

theorem updateAdmin_noOverflow (a : UpdateAdmin) (newAdmin : Pubkey) :
    NoOverflow (updateAdmin s a newAdmin) :=
  .seq a.load_refuses.noOverflow fun _ _ => .ret _

theorem updateFee_noOverflow (a : UpdateFee) (newFeeBps : U16) :
    NoOverflow (updateFee s a newFeeBps) :=
  .seq a.load_refuses.noOverflow fun _ _ => .seq (.require rfl) fun _ _ => .ret _

theorem updateMint_noOverflow (a : UpdateMint) : NoOverflow (updateMint s a) :=
  .seq a.load_refuses.noOverflow fun _ _ => .seq loadMint_refuses.noOverflow fun _ _ => .ret _

theorem withdrawFees_noOverflow (a : WithdrawFees) (amount : U64) :
    NoOverflow (withdrawFees s a amount) :=
  .seq signer_refuses.noOverflow fun _ _ => .seq loadConfig_refuses.noOverflow fun _ _ =>
  .seq (.require rfl) fun _ _ => .seq loadAta_refuses.noOverflow fun _ _ =>
  .seq loadTokenOfMint_refuses.noOverflow fun _ _ => .seq loadMint_refuses.noOverflow fun _ _ =>
  .seq (.require rfl) fun _ _ => .seq Cpi.transfer_noOverflow fun _ _ => .ret _

theorem cancelBeforeEnroll_noOverflow (a : CancelBeforeEnroll) :
    NoOverflow (cancelBeforeEnroll s a) :=
  .seq signer_refuses.noOverflow fun _ _ => .seq loadConfig_refuses.noOverflow fun _ _ =>
  .seq loadTask_refuses.noOverflow fun _ _ => .seq (.require rfl) fun _ _ =>
  .seq loadAta_refuses.noOverflow fun _ _ => .seq loadToken_refuses.noOverflow fun _ _ =>
  .seq (.require rfl) fun _ _ => .seq (.require rfl) fun _ _ =>
  .seq sweepVault_noOverflow fun _ _ => .ret _

theorem requireClosable_noOverflow {caller : Pubkey} {t : EscrowTask} :
    NoOverflow (requireClosable now caller t) := by
  unfold requireClosable
  split_ifs
  · exact .ret _
  · exact .require rfl

theorem closeTask_noOverflow (a : CloseTask) : NoOverflow (closeTask s now a) :=
  .seq a.load_refuses.noOverflow fun _ _ => .seq requireClosable_noOverflow fun _ _ =>
  .seq (.require rfl) fun _ _ => .seq (.require rfl) fun _ _ =>
  .seq sweepVault_noOverflow fun _ _ => .ret _

theorem autoCancelTask_noOverflow (a : AutoCancelTask) : NoOverflow (autoCancelTask s now a) :=
  .seq (CloseTask.load_refuses a).noOverflow fun _ _ => .seq (.require rfl) fun _ _ =>
  .seq (.require rfl) fun _ _ => .seq (.require rfl) fun _ _ =>
  .seq sweepVault_noOverflow fun _ _ => .ret _

/-- The counter of enrolled slots stays below the number of slots. -/
theorem enroll_noOverflow (hs : Sound s) (a : Enroll) (claimId : BitVec 128) :
    NoOverflow (enroll s now a claimId) := by
  refine .seq signer_refuses.noOverflow fun _ _ => .seq loadConfig_refuses.noOverflow fun _ _ =>
    .seq loadMint_refuses.noOverflow fun _ _ => .seq loadTask_refuses.noOverflow fun t ht =>
    .seq (.require rfl) fun _ _ => .seq (.require rfl) fun _ _ =>
    .seq Cpi.initAtaIfNeeded_noOverflow fun _ _ => .seq (.require rfl) fun _ _ =>
    .seq (.require rfl) fun _ hroom => .seq (.require rfl) fun _ _ =>
    .seq (.checkedAdd ?_) fun _ _ => .ret _
  have hmax := (hs.task _ t (loadTask_eq_ok.mp ht).1).slots_le
  have hfree : t.slotsEnrolled < t.maxSlots := (require_eq_ok _ _ _).mp hroom
  unfold maxSlotsLimit at hmax
  omega

theorem submit_noOverflow (a : Submit) (hash : BitVec 256) : NoOverflow (submit s now a hash) :=
  .seq (ClaimerAccounts.load_refuses a).noOverflow fun _ _ => .seq (.okOr rfl) fun _ _ =>
  .seq (.require rfl) fun _ _ => .ret _

theorem openDispute_noOverflow (a : OpenDispute) : NoOverflow (openDispute s now a) :=
  .seq (ClaimerAccounts.load_refuses a).noOverflow fun _ _ => .seq (.okOr rfl) fun _ _ =>
  .seq (.require rfl) fun _ _ => .ret _

end Others
end ClustlyEscrow
