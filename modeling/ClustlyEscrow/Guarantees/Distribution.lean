import ClustlyEscrow.Guarantees.Solvency

/-!
# Where the money of a task ends up

A claim moves tokens at most once: one payout when it is settled for its
claimer, one refund when it is settled for the poster. When the task is wound
up its vault is gone, and the poster has back every unpaid slot and all
deposits.
-/
namespace ClustlyEscrow
open Foundations

/-- The events that name claim `c` and move tokens. -/
def movements (c : Pubkey) (h : History) : History :=
  h.filter fun e => decide (e.label.claim? = some c) && !e.output.isEmpty

/-- The event pays the bounty of claim `r` out of the vault in `mint`. -/
structure Payout (e : EscrowEvent) (r : EscrowClaim) (t : EscrowTask) (mint : Pubkey)
    (net fee : ℕ) : Prop where
  fee_eq : ∃ cfg, e.pre.config = some cfg ∧ cfg.usdcMint = mint ∧
    fee = t.bounty * cfg.feeBps / 10000
  split : net + fee = t.bounty
  net_ge : t.bounty - t.bounty * 500 / 10000 ≤ net
  transfers : e.output = transferList (.ata r.task mint) (.ata r.claimer mint) net ++
    transferList (.ata r.task mint) (.ata .configPda mint) fee

/-- The event returns the bounty of claim `r` to an account `P` of the poster. -/
structure Refund (e : EscrowEvent) (r : EscrowClaim) (t : EscrowTask) (mint P : Pubkey) :
    Prop where
  config : ∃ cfg, e.pre.config = some cfg ∧ cfg.usdcMint = mint
  poster : e.pre.tokens.holder P = some (t.poster, mint)
  transfers : e.output = [⟨.ata r.task mint, P, t.bounty⟩]

/-- What a claim has moved so far, by its phase. -/
def Accounted (h : History) (c : Pubkey) (r : EscrowClaim) (t : EscrowTask) (mint : Pubkey) :
    SlotBook.Phase → Prop
  | .live => movements c h = []
  | .approved => ∃ e net fee, movements c h = [e] ∧ Payout e r t mint net fee
  | .refunded => ∃ e P, movements c h = [e] ∧ Refund e r t mint P

section Movements
variable {s s' : State} {out : List Transfer} {l : Label} {h : History} {c : Pubkey}
  {r : EscrowClaim} {t t' : EscrowTask} {cfg : EscrowConfig} {M : Pubkey}

theorem movements_cons_of_ne (hl : l.claim? ≠ some c) :
    movements c (⟨l, s, s', out⟩ :: h) = movements c h := by
  simp [movements, hl]

theorem movements_cons_silent (hout : out = []) :
    movements c (⟨l, s, s', out⟩ :: h) = movements c h := by
  simp [movements, hout]

theorem movements_cons (hl : l.claim? = some c) (hout : out ≠ []) :
    movements c (⟨l, s, s', out⟩ :: h) = ⟨l, s, s', out⟩ :: movements c h := by
  simp [movements, hl, hout]

/-- Payouts and refunds only read the terms of the task. -/
theorem Accounted.of_terms {p : SlotBook.Phase} (ha : Accounted h c r t M p)
    (hterms : t.SameTerms t') {h' : History} (hm : movements c h' = movements c h) :
    Accounted h' c r t' M p := by
  cases p with
  | live => exact hm.trans ha
  | approved =>
    obtain ⟨e, net, fee, he, hp⟩ := ha
    refine ⟨e, net, fee, hm.trans he, ?_, ?_, ?_, hp.transfers⟩
    · rw [hterms.bounty]
      exact hp.fee_eq
    · rw [hterms.bounty]
      exact hp.split
    · rw [hterms.bounty]
      exact hp.net_ge
  | refunded =>
    obtain ⟨e, P, he, hp⟩ := ha
    refine ⟨e, P, hm.trans he, hp.config, ?_, ?_⟩
    · rw [hterms.poster]
      exact hp.poster
    · rw [hterms.bounty]
      exact hp.transfers

theorem Paid.payout (hs : Sound s) {outcome : ClaimStatus} (he : Paid s s' out c cfg t r outcome) :
    Payout ⟨l, s, s', out⟩ (r.setStatus outcome) t cfg.usdcMint (netOf t.bounty cfg.feeBps)
      (feeOf t.bounty cfg.feeBps) := by
  have hcap := hs.fee_le cfg he.config
  refine ⟨⟨cfg, he.config, rfl, rfl⟩, netOf_add_feeOf t.bounty hcap, ?_, he.transfers⟩
  have hle : feeOf t.bounty cfg.feeBps ≤ t.bounty * 500 / 10000 := feeOf_le_cap t.bounty hcap
  unfold netOf
  omega

theorem Paid.moves (hs : Sound s) {outcome : ClaimStatus}
    (he : Paid s s' out c cfg t r outcome) : out ≠ [] := by
  have hnet := netOf_pos (hs.task _ _ he.task).bounty_pos (hs.fee_le cfg he.config)
  rw [he.transfers, transferList, if_pos hnet]
  simp

theorem Refunded.refund {P : Pubkey} {r' : EscrowClaim} (he : Refunded s s' out c P cfg t r r')
    (hT : r'.task = r.task) : Refund ⟨l, s, s', out⟩ r' t cfg.usdcMint P :=
  ⟨⟨cfg, he.config, rfl⟩, he.posterAta, by rw [hT]; exact he.transfers⟩

/-- An existing task is not funded again. -/
theorem Move.fundsIn_none (hmove : Move s s' out l) {T : Pubkey} (ht : s.tasks.get T = some t) :
    l.fundsIn? T = none := by
  cases hl : l.fundsIn? T with
  | none => rfl
  | some M =>
    obtain ⟨a, _, _, rfl, _, hfund, _⟩ := hmove.funds hl
    rw [hfund.fresh] at ht
    cases ht

/-- Every existing task was funded in some mint. -/
theorem Reaches.fundingMint_exists (hr : Reaches h s) : ∀ T t, s.tasks.get T = some t →
    ∃ M, fundingMint T h = some M := by
  apply hr.history_invariant (I := fun h s => ∀ T t, s.tasks.get T = some t →
    ∃ M, fundingMint T h = some M) (by simp [State.genesis])
  intro h s l out s' hrun ih hstep T t' ht'
  cases hl : l.fundsIn? T with
  | some M => exact ⟨M, fundingMint_cons_of_some hl⟩
  | none =>
    obtain ⟨t, ht⟩ := (Reaches.move hrun hstep).task_existed hl ht'
    rw [fundingMint_cons_of_none hl]
    exact ih T t ht

/-- The account of a claim after the step that names it. -/
theorem Touch.accounted (hrun : Reaches h s) (hsteady : ∀ e ∈ h, MintSteady e)
    (htouch : Touch s s' out c l) (hl : l.claim? = some c) {r' : EscrowClaim}
    (hnone : s.claims.get c = none → movements c h = [])
    (hlive : ∀ r t, s.claims.get c = some r → s.tasks.get r.task = some t →
      phaseOf r.status = .live → movements c h = [])
    (hc' : s'.claims.get c = some r') (ht : s.tasks.get r'.task = some t)
    (hM : fundingMint r'.task h = some M) :
    Accounted (⟨l, s, s', out⟩ :: h) c r' t M (phaseOf r'.status) := by
  cases htouch with
  | enrolled hpre hpost he =>
    cases hpost.symm.trans hc'
    exact (movements_cons_silent he.transfers).trans (hnone hpre)
  | advanced _ hpre hpost hg he =>
    cases hpost.symm.trans hc'
    rw [hg.task_eq] at ht
    rw [hg.phase_post]
    exact (movements_cons_silent he.transfers).trans (hlive _ t hpre ht hg.live)
  | paid _ hpre hpost hg he =>
    cases hpost.symm.trans hc'
    cases he.task.symm.trans ht
    have hledger := (hrun.covered hsteady hpre hg.live ht he.config).1
    cases hledger.mint.symm.trans hM
    rw [hg.phase_post]
    refine ⟨⟨l, s, s', out⟩, _, _, ?_, he.payout hrun.sound⟩
    rw [movements_cons hl (he.moves hrun.sound), hlive _ t hpre ht hg.live]
  | refunded _ hpre hpost hg he =>
    cases hpost.symm.trans hc'
    rw [hg.task_eq] at ht hM
    cases he.task.symm.trans ht
    have hledger := (hrun.covered hsteady hpre hg.live ht he.config).1
    cases hledger.mint.symm.trans hM
    rw [hg.phase_post]
    refine ⟨⟨l, s, s', out⟩, _, ?_, he.refund hg.task_eq⟩
    rw [movements_cons hl (by simp [he.transfers]), hlive _ t hpre ht hg.live]

/-- Every claim has moved exactly what its phase says. -/
theorem Reaches.accounted (hr : Reaches h s) (hsteady : ∀ e ∈ h, MintSteady e) :
    (∀ c, s.claims.get c = none → movements c h = []) ∧
    ∀ c r t M, s.claims.get c = some r → s.tasks.get r.task = some t →
      fundingMint r.task h = some M → Accounted h c r t M (phaseOf r.status) := by
  refine hr.history_invariant_of (P := MintSteady) (I := fun h s =>
    (∀ c, s.claims.get c = none → movements c h = []) ∧
    ∀ c r t M, s.claims.get c = some r → s.tasks.get r.task = some t →
      fundingMint r.task h = some M → Accounted h c r t M (phaseOf r.status))
    ⟨fun _ _ => rfl, by simp [State.genesis]⟩ ?_ hsteady
  intro h s l out s' hrun hsteady _ ih hstep
  have hmove := Reaches.move hrun hstep
  constructor
  · intro c hc'
    have hl : l.claim? ≠ some c := by
      intro hl
      obtain ⟨r, hr'⟩ := (hmove.touch hl).post_exists
      rw [hc'] at hr'
      cases hr'
    rw [movements_cons_of_ne hl]
    exact ih.1 c ((hmove.claim_frame hl) ▸ hc')
  · intro c r' t' M hc' ht' hM'
    obtain ⟨t, ht⟩ : ∃ t, s.tasks.get r'.task = some t := by
      rcases hmove.claim_origin hc' with ⟨t, ht, _⟩ | ⟨r, hc, htask, _⟩
      · exact ⟨t, ht⟩
      · rw [htask]
        exact Reaches.parent hrun hc
    rw [fundingMint_cons_of_none (hmove.fundsIn_none ht)] at hM'
    have hterms := hmove.terms ht ht'
    by_cases hl : l.claim? = some c
    · have hlive (r : EscrowClaim) (u : EscrowTask) (hc : s.claims.get c = some r)
          (hu : s.tasks.get r.task = some u) (hphase : phaseOf r.status = .live) :
          movements c h = [] := by
        obtain ⟨N, hN⟩ := Reaches.fundingMint_exists hrun r.task u hu
        have ha := ih.2 c r u N hc hu hN
        rw [hphase] at ha
        exact ha
      exact ((hmove.touch hl).accounted hrun hsteady hl (ih.1 c) hlive hc' ht hM').of_terms
        hterms rfl
    · have hc := (hmove.claim_frame hl) ▸ hc'
      exact (ih.2 c r' t M hc ht hM').of_terms hterms (movements_cons_of_ne hl)

/-- Winding a task up removes the vault and completes the returns to the poster. -/
theorem Ended.distribution (hr : Reaches h s) {T P : Pubkey} {tasks' : Store Pubkey EscrowTask}
    (hledger : Ledger h s T t cfg) (he : Ended s s' out T P cfg t tasks')
    (hl : l.task? = some T) (hf : l.fundsIn? T = none) :
    s'.tokens.holder (.ata T cfg.usdcMint) = none ∧
      receipts (.ata T cfg.usdcMint) t.poster (epoch T (⟨l, s, s', out⟩ :: h)) =
        t.bounty * (t.maxSlots - t.slotsApproved) +
          deposits (.ata T cfg.usdcMint) (epoch T (⟨l, s, s', out⟩ :: h)) := by
  have hne := vault_ne_posterAta hr.sound he.task he.vault he.posterAta
  have hcredit : creditOf (.ata T cfg.usdcMint) out l = 0 := by
    rw [creditOf_of_task hl, he.transfers, credit_transferList hne]
  have hreceipt : receiptOf (.ata T cfg.usdcMint) t.poster ⟨l, s, s', out⟩ =
      s.tokens.balance (.ata T cfg.usdcMint) := by
    simp only [receiptOf, he.transfers, transferList]
    split_ifs with hpos
    · simp [he.posterAta]
    · simp only [List.map_nil, List.sum_nil]
      omega
  have hfull := hledger.solvent.returned_in_full
  simp only [potOf] at hfull
  refine ⟨by rw [he.tokens'.holder, Function.update_self], ?_⟩
  rw [epoch_cons_of_none (e := ⟨l, s, s', out⟩) hf, receipts_cons, deposits_cons, hreceipt]
  dsimp only
  rw [hcredit]
  omega

/-- The whole distribution of a task, for every run that keeps the mint while a
task is open: one payout or one refund for a settled claim, nothing for any
other, and at the end everything else back to the poster. -/
theorem final_distribution (hr : Reaches h s) (hsteady : ∀ e ∈ h, MintSteady e) :
    (∀ c r t, s.claims.get c = some r → s.tasks.get r.task = some t →
      ∃ M, fundingMint r.task h = some M ∧
        (r.status = ClaimStatus.approved.toU8 ∨ r.status = ClaimStatus.resolvedDeliverer.toU8 →
          ∃ e net fee, movements c h = [e] ∧ Payout e r t M net fee) ∧
        (r.status = ClaimStatus.cancelled.toU8 ∨ r.status = ClaimStatus.resolvedPoster.toU8 →
          ∃ e P, movements c h = [e] ∧ Refund e r t M P) ∧
        (r.terminal = false → movements c h = [])) ∧
    ∀ l out s' T, l.ends? = some T → Accepts exec s l out s' →
      ∃ t M, s.tasks.get T = some t ∧ fundingMint T h = some M ∧
        s'.tokens.holder (.ata T M) = none ∧
        receipts (.ata T M) t.poster (epoch T (⟨l, s, s', out⟩ :: h)) =
          t.bounty * (t.maxSlots - t.slotsApproved) +
            deposits (.ata T M) (epoch T (⟨l, s, s', out⟩ :: h)) := by
  constructor
  · intro c r t hc ht
    obtain ⟨M, hM⟩ := hr.fundingMint_exists r.task t ht
    have ha := (hr.accounted hsteady).2 c r t M hc ht hM
    refine ⟨M, hM, fun hst => ?_, fun hst => ?_, fun hlive => ?_⟩
    · rw [phaseOf_approved.mpr hst] at ha
      exact ha
    · rw [phaseOf_refunded.mpr hst] at ha
      exact ha
    · rw [terminal_eq_false.mp hlive] at ha
      exact ha
  · intro l out s' T hl hstep
    have hmove := hr.move hstep
    obtain ⟨P, cfg, t, tasks', hg, he⟩ := hmove.ended_of_ends hl
    obtain ⟨cfg', hledger⟩ := hr.ledger hsteady T t he.task he.opened
    cases he.config.symm.trans hledger.config
    have hname : l.task? = some T := by
      rw [← hl]
      cases hg <;> rfl
    obtain ⟨hgone, hback⟩ := he.distribution hr hledger hname (hmove.fundsIn_none he.task)
    exact ⟨t, cfg.usdcMint, he.task, hledger.mint, hgone, hback⟩

end Movements

namespace Scenario

/-- Both claims are settled and a donation lies in the vault; the close is next. -/
def settled : List Label := donated ++
  [submits (clock 1400) helper 1, approves usdc helper 1]

end Scenario

open Scenario in
theorem final_distribution_settled : ∃ out s' M,
    Accepts exec (played settled).2 (closes (clock 6000) stranger usdc) out s' ∧
      s'.tokens.holder (.ata job M) = none ∧ ∃ e net fee,
        movements (.claimPda 1) (played settled).1 = [e] ∧
        Payout e ⟨1, job, helper, 2, 1100, 1400, 0, 1, 99⟩
          ⟨0, poster, 10000, 3, 2, 2, 0, 0, 5000, 3600⟩ M net fee := by
  obtain ⟨out, s', hstep, _⟩ := Accepts.of_check exec (played settled).2
    (closes (clock 6000) stranger usdc) (fun _ _ => true) (by decide +kernel)
  have hall := final_distribution (played_reaches settled)
    (MintSteady.of_no_update (by decide +kernel))
  obtain ⟨M, hM, hpaid, _⟩ := hall.1 (.claimPda 1) ⟨1, job, helper, 2, 1100, 1400, 0, 1, 99⟩
    ⟨0, poster, 10000, 3, 2, 2, 0, 0, 5000, 3600⟩ (by decide +kernel) (by decide +kernel)
  obtain ⟨t, N, _, hN, hgone, _⟩ := hall.2 _ out s' job rfl hstep
  cases hM.symm.trans hN
  exact ⟨out, s', M, hstep, hgone, hpaid (.inl rfl)⟩

end ClustlyEscrow
