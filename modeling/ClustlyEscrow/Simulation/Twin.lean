import ClustlyEscrow.Invariants.Book
import ClustlyEscrow.Simulation.Change

/-!
# States that a handler of one claim can not tell apart

The instructions on an existing claim read its record, the config, who holds the
token accounts, and of its task everything but the counters of settled slots. Of
the balances it only matters whether the vault covers the bounty. From two
states that agree on all this they make the same change.
-/
namespace ClustlyEscrow
open Foundations

/-- The record of a task without its counters of settled slots. -/
def EscrowTask.uncounted (t : EscrowTask) : EscrowTask :=
  { t with slotsApproved := 0, slotsRefunded := 0 }

structure Twin (c : Pubkey) (s₁ s₂ : State) : Prop where
  config : s₂.config = s₁.config
  mints : s₂.tokens.mints = s₁.tokens.mints
  holder : ∀ k, s₂.tokens.holder k = s₁.tokens.holder k
  claim : s₂.claims.get c = s₁.claims.get c
  task : ∀ T, (s₂.tasks.get T).map EscrowTask.uncounted = (s₁.tasks.get T).map EscrowTask.uncounted

/-- The counters of the task of a live claim can take one more settlement. -/
def Roomy (c : Pubkey) (s : State) : Prop :=
  ∀ r t, s.claims.get c = some r → phaseOf r.status = .live → s.tasks.get r.task = some t →
    t.slotsApproved + 1 < 2 ^ 16 ∧ t.slotsRefunded + 1 < 2 ^ 16

/-- Twins in which a settlement of the claim meets the same obstacles. -/
structure Paired (c : Pubkey) (s₁ s₂ : State) : Prop extends Twin c s₁ s₂ where
  sound₁ : Sound s₁
  sound₂ : Sound s₂
  room₁ : Roomy c s₁
  room₂ : Roomy c s₂
  funds : ∀ cfg r t, s₁.config = some cfg → s₁.claims.get c = some r →
    phaseOf r.status = .live → s₁.tasks.get r.task = some t →
    (t.bounty ≤ s₁.tokens.balance (.ata r.task cfg.usdcMint) ↔
      t.bounty ≤ s₂.tokens.balance (.ata r.task cfg.usdcMint))

/-- Two steps that make one and the same change to claim `c`. -/
def SameChange (c : Pubkey) (s₁ s₁' s₂ s₂' : State) : Prop :=
  ∃ x : Change, x.claim = c ∧ x.Applied s₁ s₁' ∧ x.Applied s₂ s₂'

section Twins
variable {s₁ s₁' s₂ s₂' : State} {out : List Transfer} {c P : Pubkey} {cfg : EscrowConfig}
  {t t₂ : EscrowTask} {r r' : EscrowClaim}

theorem Twin.symm (h : Twin c s₁ s₂) : Twin c s₂ s₁ :=
  ⟨h.config.symm, h.mints.symm, fun k => (h.holder k).symm, h.claim.symm, fun T => (h.task T).symm⟩

theorem Twin.task_of (h : Twin c s₁ s₂) {T : Pubkey} (ht : s₁.tasks.get T = some t) :
    ∃ t₂, s₂.tasks.get T = some t₂ ∧ t₂.uncounted = t.uncounted := by
  have hT := h.task T
  rw [ht, Option.map_some] at hT
  exact Option.map_eq_some_iff.mp hT

/-- Whatever does not read the two counters is the same. -/
theorem eq_of_uncounted {α : Type} (f : EscrowTask → α) (hf : ∀ t, f t.uncounted = f t)
    (h : t₂.uncounted = t.uncounted) : f t₂ = f t := by
  rw [← hf t₂, h, hf]

theorem bounty_of_uncounted : t₂.uncounted = t.uncounted → t₂.bounty = t.bounty :=
  eq_of_uncounted EscrowTask.bounty fun _ => rfl

theorem poster_of_uncounted : t₂.uncounted = t.uncounted → t₂.poster = t.poster :=
  eq_of_uncounted EscrowTask.poster fun _ => rfl

theorem taskId_of_uncounted : t₂.uncounted = t.uncounted → t₂.taskId = t.taskId :=
  eq_of_uncounted EscrowTask.taskId fun _ => rfl

theorem taskStatus_of_uncounted : t₂.uncounted = t.uncounted → t₂.taskStatus = t.taskStatus :=
  eq_of_uncounted EscrowTask.taskStatus fun _ => rfl

theorem Paired.symm (h : Paired c s₁ s₂) : Paired c s₂ s₁ := by
  refine ⟨h.toTwin.symm, h.sound₂, h.sound₁, h.room₂, h.room₁, ?_⟩
  intro cfg r t₂ hcfg hc hl ht₂
  obtain ⟨t, ht, hsame⟩ := h.toTwin.symm.task_of ht₂
  rw [← bounty_of_uncounted hsame]
  exact (h.funds cfg r t (h.config ▸ hcfg) (h.claim ▸ hc) hl ht).symm

/-! ## The account lists -/

theorem ClaimerAccounts.Loaded.twin {a : ClaimerAccounts} (h : Twin a.claim s₁ s₂)
    (hl : a.Loaded s₁ t r) : ∃ t₂, a.Loaded s₂ t₂ r := by
  obtain ⟨t₂, ht₂, hsame⟩ := h.task_of hl.task
  exact ⟨t₂, hl.claimer_signs, ht₂, taskId_of_uncounted hsame ▸ hl.task_key, h.claim.trans hl.claim,
    hl.claim_key, hl.claimer, hl.claim_task⟩

theorem PayoutAccounts.Loaded.twin {a : PayoutAccounts} (h : Twin a.claim s₁ s₂)
    (hl : a.Loaded s₁ cfg t r) : ∃ t₂, a.Loaded s₂ cfg t₂ r ∧ t₂.uncounted = t.uncounted := by
  obtain ⟨t₂, ht₂, hsame⟩ := h.task_of hl.task
  refine ⟨t₂, ?_, hsame⟩
  exact {
    config_key := hl.config_key
    config := h.config.trans hl.config
    mint := h.mints.symm ▸ hl.mint
    task := ht₂
    task_key := taskId_of_uncounted hsame ▸ hl.task_key
    claim := h.claim.trans hl.claim
    claim_key := hl.claim_key
    claim_task := hl.claim_task
    vault_key := hl.vault_key
    vault := (h.holder a.taskVault).symm ▸ hl.vault
    claimerAta_key := hl.claimerAta_key
    claimerAta := (h.holder a.claimerAta).symm ▸ hl.claimerAta
    claimer := hl.claimer
    feeVault_key := hl.feeVault_key
    feeVault := (h.holder a.feeVault).symm ▸ hl.feeVault }

theorem RejectClaim.Loaded.twin {a : RejectClaim} (h : Twin a.claim s₁ s₂)
    (hl : a.Loaded s₁ cfg t r) : ∃ t₂, a.Loaded s₂ cfg t₂ r ∧ t₂.uncounted = t.uncounted := by
  obtain ⟨t₂, ht₂, hsame⟩ := h.task_of hl.task
  refine ⟨t₂, ?_, hsame⟩
  exact {
    poster_signs := hl.poster_signs
    config_key := hl.config_key
    config := h.config.trans hl.config
    task := ht₂
    task_key := taskId_of_uncounted hsame ▸ hl.task_key
    poster := (poster_of_uncounted hsame).trans hl.poster
    claim := h.claim.trans hl.claim
    claim_key := hl.claim_key
    claim_task := hl.claim_task
    vault_key := hl.vault_key
    vault := (h.holder a.taskVault).symm ▸ hl.vault
    posterAta := by
      rw [h.holder, poster_of_uncounted hsame]
      exact hl.posterAta }

/-! ## The three effects -/

/-- What the first state did to a record, the second can do. -/
theorem Advanced.again (h : Twin c s₁ s₂) (ha : Advanced s₁ s₁' out c r r') :
    ∃ s₂', Advanced s₂ s₂' out c r r' ∧ SameChange c s₁ s₁' s₂ s₂' := by
  obtain ⟨t, ht⟩ := ha.task
  obtain ⟨t₂, ht₂, _⟩ := h.task_of ht
  have ha₂ : Advanced s₂ { s₂ with claims := s₂.claims.set c r' } out c r r' :=
    ⟨⟨t₂, ht₂⟩, h.claim.trans ha.claim, rfl, ha.transfers⟩
  exact ⟨_, ha₂, _, rfl, ha.applied, ha₂.applied⟩

/-- What the first state paid, the second can pay. -/
theorem Paid.again {outcome : ClaimStatus} (h : Paired c s₁ s₂)
    (hp : Paid s₁ s₁' out c cfg t r outcome) (hlive : phaseOf r.status = .live)
    (ht₂ : s₂.tasks.get r.task = some t₂) (hsame : t₂.uncounted = t.uncounted) :
    t₂.slotsApproved + 1 < 2 ^ 16 ∧
      ∃ s₂', Paid s₂ s₂' out c cfg t₂ r outcome ∧ SameChange c s₁ s₁' s₂ s₂' := by
  have hcfg : s₂.config = some cfg := h.config.trans hp.config
  have hc : s₂.claims.get c = some r := h.claim.trans hp.claim
  have hready : PayoutReady s₂ cfg r.task r.claimer :=
    ⟨(h.holder _).trans hp.ready.vault, (h.holder _).trans hp.ready.claimerAta,
      (h.holder _).trans hp.ready.feeVault⟩
  have hcov : t₂.bounty ≤ s₂.tokens.balance (.ata r.task cfg.usdcMint) := by
    rw [bounty_of_uncounted hsame]
    exact (h.funds cfg r t hp.config hp.claim hlive hp.task).mp hp.covered
  obtain ⟨s₂', out₂, hp₂⟩ := PayoutReady.pays h.sound₂ hcfg ht₂ hc hready hcov outcome
  have hout : out₂ = out := by
    rw [hp₂.transfers, hp.transfers, bounty_of_uncounted hsame]
  subst hout
  exact ⟨(h.room₂ r t₂ hc hlive ht₂).1, s₂', hp₂, _, rfl, hp.applied h.sound₁, hp₂.applied h.sound₂⟩

/-- What the first state refunded, the second can refund. -/
theorem Refunded.again (h : Paired c s₁ s₂) (hp : Refunded s₁ s₁' out c P cfg t r r')
    (hlive : phaseOf r.status = .live) (ht₂ : s₂.tasks.get r.task = some t₂)
    (hsame : t₂.uncounted = t.uncounted) :
    t₂.slotsRefunded + 1 < 2 ^ 16 ∧
      ∃ s₂', Refunded s₂ s₂' out c P cfg t₂ r r' ∧ SameChange c s₁ s₁' s₂ s₂' := by
  have hcfg : s₂.config = some cfg := h.config.trans hp.config
  have hc : s₂.claims.get c = some r := h.claim.trans hp.claim
  have hP : s₂.tokens.holder P = some (t₂.poster, cfg.usdcMint) := by
    rw [h.holder, poster_of_uncounted hsame, hp.posterAta]
  have hcov : t₂.bounty ≤ s₂.tokens.balance (.ata r.task cfg.usdcMint) := by
    rw [bounty_of_uncounted hsame]
    exact (h.funds cfg r t hp.config hp.claim hlive hp.task).mp hp.covered
  obtain ⟨s₂', out₂, hp₂⟩ := refund_succeeds hcfg ht₂ hc ((h.holder _).trans hp.vault) hP hcov r'
  have hout : out₂ = out := by
    rw [hp₂.transfers, hp.transfers, bounty_of_uncounted hsame]
  subst hout
  exact ⟨(h.room₂ r t₂ hc hlive ht₂).2, s₂', hp₂, _, rfl, hp.applied, hp₂.applied⟩

end Twins

/-! ## The seven instructions -/

section Instructions
variable {s₁ s₁' s₂ : State} {out : List Transfer} {now : I64}

theorem Paired.submit {a : Submit} {hash : BitVec 256} (h : Paired a.claim s₁ s₂)
    (hx : submit s₁ now a hash = .ok (s₁', out)) :
    ∃ s₂', submit s₂ now a hash = .ok (s₂', out) ∧ SameChange a.claim s₁ s₁' s₂ s₂' := by
  obtain ⟨t, r, hl, hst, ha⟩ := submit_eq_ok.mp hx
  obtain ⟨t₂, hl₂⟩ := hl.twin h.toTwin
  obtain ⟨s₂', ha₂, hsame⟩ := ha.again h.toTwin
  exact ⟨s₂', submit_eq_ok.mpr ⟨t₂, r, hl₂, hst, ha₂⟩, hsame⟩

theorem Paired.openDispute {a : OpenDispute} (h : Paired a.claim s₁ s₂)
    (hx : openDispute s₁ now a = .ok (s₁', out)) :
    ∃ s₂', openDispute s₂ now a = .ok (s₂', out) ∧ SameChange a.claim s₁ s₁' s₂ s₂' := by
  obtain ⟨t, r, hl, hst, ha⟩ := openDispute_eq_ok.mp hx
  obtain ⟨t₂, hl₂⟩ := hl.twin h.toTwin
  obtain ⟨s₂', ha₂, hsame⟩ := ha.again h.toTwin
  exact ⟨s₂', openDispute_eq_ok.mpr ⟨t₂, r, hl₂, hst, ha₂⟩, hsame⟩

theorem Paired.approveClaim {a : ApproveClaim} (h : Paired a.claim s₁ s₂)
    (hx : approveClaim s₁ a = .ok (s₁', out)) :
    ∃ s₂', approveClaim s₂ a = .ok (s₂', out) ∧ SameChange a.claim s₁ s₁' s₂ s₂' := by
  obtain ⟨cfg, t, r, hl, hm, hsign, hposter, hopen, hst, _, hp⟩ :=
    (approveClaim_eq_ok h.sound₁).mp hx
  obtain ⟨t₂, hl₂, hsame⟩ := hl.twin h.toTwin
  obtain ⟨hroom, s₂', hp₂, hchange⟩ := hp.again h (live_of_eq hst rfl) hl₂.task_get hsame
  refine ⟨s₂', (approveClaim_eq_ok h.sound₂).mpr ?_, hchange⟩
  exact ⟨cfg, t₂, r, hl₂, hm, hsign, (poster_of_uncounted hsame).trans hposter,
    (taskStatus_of_uncounted hsame).trans hopen, hst, hroom, hp₂⟩

theorem Paired.autoApprove {a : AutoApprove} (h : Paired a.claim s₁ s₂)
    (hx : autoApprove s₁ now a = .ok (s₁', out)) :
    ∃ s₂', autoApprove s₂ now a = .ok (s₂', out) ∧ SameChange a.claim s₁ s₁' s₂ s₂' := by
  obtain ⟨cfg, t, r, hl, hm, hsign, hopen, hst, he, _, hp⟩ := (autoApprove_eq_ok h.sound₁).mp hx
  obtain ⟨t₂, hl₂, hsame⟩ := hl.twin h.toTwin
  obtain ⟨hroom, s₂', hp₂, hchange⟩ := hp.again h (live_of_eq hst rfl) hl₂.task_get hsame
  refine ⟨s₂', (autoApprove_eq_ok h.sound₂).mpr ?_, hchange⟩
  exact ⟨cfg, t₂, r, hl₂, hm, hsign, (taskStatus_of_uncounted hsame).trans hopen, hst, he, hroom,
    hp₂⟩

theorem Paired.autoResolveDispute {a : AutoResolveDispute} (h : Paired a.claim s₁ s₂)
    (hx : autoResolveDispute s₁ now a = .ok (s₁', out)) :
    ∃ s₂', autoResolveDispute s₂ now a = .ok (s₂', out) ∧
      SameChange a.claim s₁ s₁' s₂ s₂' := by
  obtain ⟨cfg, t, r, hl, hm, hsign, hst, he, _, hp⟩ := (autoResolveDispute_eq_ok h.sound₁).mp hx
  obtain ⟨t₂, hl₂, hsame⟩ := hl.twin h.toTwin
  obtain ⟨hroom, s₂', hp₂, hchange⟩ := hp.again h (live_of_eq hst rfl) hl₂.task_get hsame
  exact ⟨s₂', (autoResolveDispute_eq_ok h.sound₂).mpr
    ⟨cfg, t₂, r, hl₂, hm, hsign, hst, he, hroom, hp₂⟩, hchange⟩

theorem Paired.resolveDispute {a : ResolveDispute} {favor : DisputeFavor}
    (h : Paired a.claim s₁ s₂) (hx : resolveDispute s₁ a favor = .ok (s₁', out)) :
    ∃ s₂', resolveDispute s₂ a favor = .ok (s₂', out) ∧ SameChange a.claim s₁ s₁' s₂ s₂' := by
  obtain ⟨cfg, t, r, hl, hm, hsign, hadmin, hP, hst, hrule⟩ :=
    (resolveDispute_eq_ok h.sound₁).mp hx
  obtain ⟨t₂, hl₂, hsame⟩ := hl.twin h.toTwin
  have hP₂ : s₂.tokens.holder a.posterAta = some (t₂.poster, a.usdcMint) := by
    rw [h.holder, poster_of_uncounted hsame, hP]
  have hlive : phaseOf r.status = .live := live_of_eq hst rfl
  have hrule₂ : ∃ s₂', Ruling s₂ s₂' out a cfg t₂ r favor ∧
      SameChange a.claim s₁ s₁' s₂ s₂' := by
    cases favor with
    | deliverer =>
      obtain ⟨hroom, s₂', hp₂, hchange⟩ := hrule.2.again h hlive hl₂.task_get hsame
      exact ⟨s₂', ⟨hroom, hp₂⟩, hchange⟩
    | poster =>
      obtain ⟨hroom, s₂', hp₂, hchange⟩ := hrule.2.again h hlive hl₂.task_get hsame
      exact ⟨s₂', ⟨hroom, hp₂⟩, hchange⟩
  obtain ⟨s₂', hruled, hchange⟩ := hrule₂
  exact ⟨s₂', (resolveDispute_eq_ok h.sound₂).mpr
    ⟨cfg, t₂, r, hl₂, hm, hsign, hadmin, hP₂, hst, hruled⟩, hchange⟩

theorem Paired.rejectClaim {a : RejectClaim} (h : Paired a.claim s₁ s₂)
    (hx : rejectClaim s₁ a = .ok (s₁', out)) :
    ∃ s₂', rejectClaim s₂ a = .ok (s₂', out) ∧ SameChange a.claim s₁ s₁' s₂ s₂' := by
  obtain ⟨cfg, t, r, hl, hopen, hst, hlt, hrej⟩ := (rejectClaim_eq_ok h.sound₁).mp hx
  obtain ⟨t₂, hl₂, hsame⟩ := hl.twin h.toTwin
  have hrej₂ : ∃ s₂', Rejection s₂ s₂' out a.claim a.posterAta cfg t₂ r ∧
      SameChange a.claim s₁ s₁' s₂ s₂' := by
    rcases hrej with ⟨hmax, _, hp⟩ | ⟨hmax, ha⟩
    · obtain ⟨hroom, s₂', hp₂, hchange⟩ := hp.again h (live_of_eq hst rfl) hl₂.task_get hsame
      exact ⟨s₂', .inl ⟨hmax, hroom, hp₂⟩, hchange⟩
    · obtain ⟨s₂', ha₂, hchange⟩ := ha.again h.toTwin
      exact ⟨s₂', .inr ⟨hmax, ha₂⟩, hchange⟩
  obtain ⟨s₂', hrejected, hchange⟩ := hrej₂
  exact ⟨s₂', (rejectClaim_eq_ok h.sound₂).mpr
    ⟨cfg, t₂, r, hl₂, (taskStatus_of_uncounted hsame).trans hopen, hst, hlt, hrejected⟩, hchange⟩

end Instructions
end ClustlyEscrow
