import ClustlyEscrow.Guarantees.Windows

/-!
# Permissionless paths

The payout is written out in four instructions and the refund of an idle task
in two. A copy that anybody may call has guards of its own, but wherever it
succeeds the copy of the poster or the admin does, and to the same effect.
-/
namespace ClustlyEscrow
open Foundations

/-- Wherever step `l` succeeds, so does step `l'`, with the same result. -/
def Covers (s : State) (l' l : Label) : Prop :=
  ∀ out s', Accepts exec s l out s' → Accepts exec s l' out s'

/-- The state in which the record of claim `c` is `r`. -/
def State.withClaim (s : State) (c : Pubkey) (r : EscrowClaim) : State :=
  { s with claims := s.claims.set c r }

/-- A ruling for the deliverer and an approval, had the claim been submitted,
make the same transfers and leave the same state but for the status of the claim. -/
structure SamePayout (s : State) (a : ResolveDispute) (t : EscrowTask) (r : EscrowClaim) :
    Prop where
  approved : ∀ now now' out s', Accepts exec s (.instr now (.resolveDispute a .deliverer)) out s' →
    Accepts exec (s.withClaim a.claim (r.setStatus .submitted))
      (.instr now' (.approveClaim ⟨a.toPayoutAccounts, t.poster⟩)) out
      (s'.withClaim a.claim (r.setStatus .approved))
  ruled : ∀ now now' out s', Accepts exec (s.withClaim a.claim (r.setStatus .submitted))
      (.instr now' (.approveClaim ⟨a.toPayoutAccounts, t.poster⟩)) out s' →
    Accepts exec s (.instr now (.resolveDispute a .deliverer)) out
      (s'.withClaim a.claim (r.setStatus .resolvedDeliverer))

section Paths
variable {s s' : State} {h : History} {out : List Transfer} {now now' : I64} {c : Pubkey}
  {cfg : EscrowConfig} {t : EscrowTask} {r : EscrowClaim}

theorem Sound.covers_autoApprove (hs : Sound s) {a : PayoutAccounts} {caller : Pubkey}
    (ht : s.tasks.get a.task = some t) :
    Covers s (.instr now' (.approveClaim ⟨a, t.poster⟩))
      (.instr now (.autoApprove ⟨a, caller⟩)) := by
  intro out s' hstep
  obtain ⟨cfg, t', r, hl, hmint, _, hopen, hst, _, hfits, hpaid⟩ := (autoApprove_eq_ok hs).mp hstep
  cases ht.symm.trans hl.task
  have hposter := (hs.task a.task t ht).poster
  exact (approveClaim_eq_ok hs).mpr
    ⟨cfg, t, r, hl, hmint, hposter, rfl, hopen, hst, hfits, hpaid⟩

theorem Sound.covers_autoResolve (hs : Sound s) {a : PayoutAccounts} {caller posterAta : Pubkey}
    (hcfg : s.config = some cfg) (ht : s.tasks.get a.task = some t)
    (hsign : cfg.admin.canSign = true)
    (hP : s.tokens.holder posterAta = some (t.poster, cfg.usdcMint)) :
    Covers s (.instr now' (.resolveDispute ⟨a, cfg.admin, posterAta⟩ .deliverer))
      (.instr now (.autoResolveDispute ⟨a, caller⟩)) := by
  intro out s' hstep
  obtain ⟨cfg', t', r, hl, hmint, _, hst, _, hfits, hpaid⟩ :=
    (autoResolveDispute_eq_ok hs).mp hstep
  cases hcfg.symm.trans hl.config
  cases ht.symm.trans hl.task
  have hP' : s.tokens.holder posterAta = some (t.poster, a.usdcMint) := by
    rw [hP, hmint]
  have hrule : Ruling s s' out ⟨a, cfg.admin, posterAta⟩ cfg t r .deliverer := ⟨hfits, hpaid⟩
  change resolveDispute s ⟨a, cfg.admin, posterAta⟩ .deliverer = .ok (s', out)
  exact (resolveDispute_eq_ok hs).mpr ⟨cfg, t, r, hl, hmint, hsign, rfl, hP', hst, hrule⟩

theorem Sound.covers_autoCancel (hs : Sound s) (a : AutoCancelTask) :
    Covers s (.instr now (.closeTask a)) (.instr now (.autoCancelTask a)) := by
  intro out s' hstep
  obtain ⟨cfg, t, hl, hdue, hunused, hended⟩ := (autoCancelTask_eq_ok hs).mp hstep
  have hidle : t.activeSlots = 0 := by
    rw [EscrowTask.activeSlots, hunused, Nat.zero_sub, Nat.zero_sub]
  exact (closeTask_eq_ok hs).mpr ⟨cfg, t, hl, .inr hdue, hidle, hended⟩

/-! ## A ruling as an approval -/

theorem State.withClaim_withClaim (s : State) (c : Pubkey) (r r' : EscrowClaim) :
    (s.withClaim c r).withClaim c r' = s.withClaim c r' := by
  simp only [State.withClaim, Store.set_set]

theorem State.withClaim_same (hc : s.claims.get c = some r) : s.withClaim c r = s := by
  simp only [State.withClaim, Store.set_same hc]

theorem Sound.withStatus (hs : Sound s) (hc : s.claims.get c = some r) (st : ClaimStatus) :
    Sound (s.withClaim c (r.setStatus st)) where
  fee_le := hs.fee_le
  mint_mem := hs.mint_mem
  mint_signs := hs.mint_signs
  task := hs.task
  claim := Store.forall_set hs.claim ((hs.claim c r hc).of_status rfl rfl ⟨st, rfl⟩)
  ata_mint := hs.ata_mint
  ata_owner := hs.ata_owner

theorem PayoutAccounts.Loaded.withStatus {a : PayoutAccounts} (hl : a.Loaded s cfg t r)
    (st : ClaimStatus) :
    a.Loaded (s.withClaim a.claim (r.setStatus st)) cfg t (r.setStatus st) where
  config_key := hl.config_key
  config := hl.config
  mint := hl.mint
  task := hl.task
  task_key := hl.task_key
  claim := Store.get_set_self _ _ _
  claim_key := hl.claim_key
  claim_task := hl.claim_task
  vault_key := hl.vault_key
  vault := hl.vault
  claimerAta_key := hl.claimerAta_key
  claimerAta := hl.claimerAta
  claimer := hl.claimer
  feeVault_key := hl.feeVault_key
  feeVault := hl.feeVault

/-- A payout does not depend on the status that the claim had. -/
theorem Paid.withStatus {outcome : ClaimStatus} (hp : Paid s s' out c cfg t r outcome)
    (st outcome' : ClaimStatus) :
    Paid (s.withClaim c (r.setStatus st)) (s'.withClaim c (r.setStatus outcome')) out c cfg t
      (r.setStatus st) outcome' where
  config := hp.config
  task := hp.task
  claim := Store.get_set_self _ _ _
  ready := ⟨hp.ready.vault, hp.ready.claimerAta, hp.ready.feeVault⟩
  covered := hp.covered
  config' := hp.config'
  tasks' := hp.tasks'
  claims' := by
    simp only [State.withClaim, hp.claims', Store.set_set]
    rfl
  tokens' := hp.tokens'
  transfers := hp.transfers

/-- A ruling for the deliverer does what an approval would do, had the claim
been submitted. -/
theorem Reaches.approved_of_ruled (hr : Reaches h s) {a : ResolveDispute}
    (ht : s.tasks.get a.task = some t) (hc : s.claims.get a.claim = some r)
    (hstep : Accepts exec s (.instr now (.resolveDispute a .deliverer)) out s') :
    Accepts exec (s.withClaim a.claim (r.setStatus .submitted))
      (.instr now' (.approveClaim ⟨a.toPayoutAccounts, t.poster⟩)) out
      (s'.withClaim a.claim (r.setStatus .approved)) := by
  have hs := hr.sound
  have hok : resolveDispute s a .deliverer = .ok (s', out) := hstep
  obtain ⟨cfg, t', r', hl, hmint, _, _, _, hst, hfits, hpaid⟩ := (resolveDispute_eq_ok hs).mp hok
  cases ht.symm.trans hl.task
  cases hc.symm.trans hl.claim
  have hopen := hr.opened_of_live hc (live_of_eq hst rfl) hl.task_get
  change approveClaim (s.withClaim a.claim (r.setStatus .submitted))
    ⟨a.toPayoutAccounts, t.poster⟩ = .ok (s'.withClaim a.claim (r.setStatus .approved), out)
  exact (approveClaim_eq_ok (hs.withStatus hc .submitted)).mpr
    ⟨cfg, t, r.setStatus .submitted, hl.withStatus .submitted, hmint,
      (hs.task a.task t ht).poster, rfl, hopen, rfl, hfits, hpaid.withStatus .submitted .approved⟩

/-- And the other way round, where the admin signs and names an account of the poster. -/
theorem Reaches.ruled_of_approved (hr : Reaches h s) {a : ResolveDispute}
    (hcfg : s.config = some cfg) (ht : s.tasks.get a.task = some t)
    (hc : s.claims.get a.claim = some r) (hst : r.status = ClaimStatus.disputed.toU8)
    (hsign : a.admin.canSign = true) (hadmin : cfg.admin = a.admin)
    (hP : s.tokens.holder a.posterAta = some (t.poster, cfg.usdcMint))
    (hstep : Accepts exec (s.withClaim a.claim (r.setStatus .submitted))
      (.instr now' (.approveClaim ⟨a.toPayoutAccounts, t.poster⟩)) out s') :
    Accepts exec s (.instr now (.resolveDispute a .deliverer)) out
      (s'.withClaim a.claim (r.setStatus .resolvedDeliverer)) := by
  have hs := hr.sound
  obtain ⟨cfg', t', r', hl, hmint, _, _, _, _, hfits, hpaid⟩ :=
    (approveClaim_eq_ok (hs.withStatus hc .submitted)).mp hstep
  cases hcfg.symm.trans hl.config
  cases ht.symm.trans hl.task
  cases hl.claim.symm.trans (Store.get_set_self _ _ _)
  -- back to the status that the claim had
  have hr' : (r.setStatus .submitted).setStatus .disputed = r := by
    cases r
    cases hst
    rfl
  have hs' : (s.withClaim a.claim (r.setStatus .submitted)).withClaim a.claim
      ((r.setStatus .submitted).setStatus .disputed) = s := by
    rw [hr', State.withClaim_withClaim, State.withClaim_same hc]
  have hl' := hl.withStatus .disputed
  have hpaid' := hpaid.withStatus .disputed .resolvedDeliverer
  rw [hr'] at hl' hpaid'
  rw [hr'] at hs'
  rw [hs'] at hl' hpaid'
  have hP' : s.tokens.holder a.posterAta = some (t.poster, a.usdcMint) := by
    rw [hP, hmint]
  have hrule : Ruling s (s'.withClaim a.claim (r.setStatus .resolvedDeliverer)) out a cfg t r
      .deliverer := ⟨hfits, hpaid'⟩
  change resolveDispute s a .deliverer =
    .ok (s'.withClaim a.claim (r.setStatus .resolvedDeliverer), out)
  exact (resolveDispute_eq_ok hs).mpr ⟨cfg, t, r, hl', hmint, hsign, hadmin, hP', hst, hrule⟩

/-- Each permissionless instruction does what the signed one does, and a ruling
for the deliverer does what an approval does. -/
theorem permissionless_paths_agree (hr : Reaches h s) :
    (∀ now now' (a : PayoutAccounts) caller t, s.tasks.get a.task = some t →
      Covers s (.instr now' (.approveClaim ⟨a, t.poster⟩))
        (.instr now (.autoApprove ⟨a, caller⟩))) ∧
    (∀ now now' (a : PayoutAccounts) caller posterAta cfg t, s.config = some cfg →
      s.tasks.get a.task = some t → cfg.admin.canSign = true →
      s.tokens.holder posterAta = some (t.poster, cfg.usdcMint) →
      Covers s (.instr now' (.resolveDispute ⟨a, cfg.admin, posterAta⟩ .deliverer))
        (.instr now (.autoResolveDispute ⟨a, caller⟩))) ∧
    (∀ now a, Covers s (.instr now (.closeTask a)) (.instr now (.autoCancelTask a))) ∧
    (∀ a cfg t r, s.config = some cfg → s.tasks.get a.task = some t →
      s.claims.get a.claim = some r → r.status = ClaimStatus.disputed.toU8 →
      a.admin.canSign = true → cfg.admin = a.admin →
      s.tokens.holder a.posterAta = some (t.poster, cfg.usdcMint) → SamePayout s a t r) := by
  have hs := hr.sound
  refine ⟨fun _ _ _ _ _ ht => hs.covers_autoApprove ht, ?_, fun _ a => hs.covers_autoCancel a, ?_⟩
  · intro now now' a caller posterAta cfg t hcfg ht hsign hP
    exact hs.covers_autoResolve hcfg ht hsign hP
  · intro a cfg t r hcfg ht hc hst hsign hadmin hP
    constructor
    · exact fun _ _ _ _ hstep => hr.approved_of_ruled ht hc hstep
    · exact fun _ _ _ _ hstep => hr.ruled_of_approved hcfg ht hc hst hsign hadmin hP hstep

end Paths

open Scenario in
theorem permissionless_paths_agree_silent : ∃ out s',
    Accepts exec (played silent).2 (cranks (clock 1211000) usdc helper 1) out s' ∧
      Accepts exec (played silent).2 (approves usdc helper 1) out s' := by
  obtain ⟨out, s', hstep, _⟩ := Accepts.of_check exec (played silent).2
    (cranks (clock 1211000) usdc helper 1) (fun _ _ => true) (by decide +kernel)
  have ht : (played silent).2.tasks.get job =
      some ⟨0, poster, 10000, 3, 2, 1, 0, 0, 5000, 3600⟩ := by decide +kernel
  exact ⟨out, s', hstep, (permissionless_paths_agree (played_reaches silent)).1 _ _
    (payout usdc helper 1) stranger _ ht out s' hstep⟩

end ClustlyEscrow
