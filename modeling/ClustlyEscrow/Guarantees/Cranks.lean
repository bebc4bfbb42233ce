import ClustlyEscrow.Guarantees.Payoff

/-!
# Strangers can finish a task

When poster and admin are gone and every open claim is submitted or disputed,
a stranger alone can settle the claims, in any order, and close the task.
-/
namespace ClustlyEscrow
open Foundations

/-- The auto instruction for a claim, called by `caller`. -/
def crank (cfg : EscrowConfig) (caller : Pubkey) (clock : Pubkey → I64)
    (x : Pubkey × EscrowClaim) : Label :=
  if x.2.status = ClaimStatus.submitted.toU8 then
    .instr (clock x.1) (.autoApprove ⟨payoutOf cfg x.1 x.2, caller⟩)
  else .instr (clock x.1) (.autoResolveDispute ⟨payoutOf cfg x.1 x.2, caller⟩)

def crankOutcome (x : Pubkey × EscrowClaim) : ClaimStatus :=
  if x.2.status = ClaimStatus.submitted.toU8 then .approved else .resolvedDeliverer

/-- Every instruction of the run read a positive clock below `2 ^ 62`. -/
abbrev ClocksTame (h : History) : Prop :=
  ∀ e ∈ h, ∀ now ∈ e.label.clock?, 0 < now.val ∧ now.val < 2 ^ 62

section Cranks
variable {s : State} {h : History} {T P c caller : Pubkey} {cfg : EscrowConfig} {t : EscrowTask}
  {r : EscrowClaim} {cs : List (Pubkey × EscrowClaim)} {clock : Pubkey → I64}

/-- The clock of a step that left a claim as it is was tame. -/
theorem Since.tame {now : I64} {ix : Instruction} (hsince : Since h c r (.instr now ix))
    (htame : ClocksTame h) : 0 < now.val ∧ now.val < 2 ^ 62 := by
  obtain ⟨h₁, e, h₀, rfl, hl, _⟩ := hsince
  exact htame e (List.mem_append_right _ List.mem_cons_self) now (by rw [hl]; rfl)

theorem Elapsed.of_late {now : I64} {since : ℤ} (hpos : 0 < since) (hlt : since < 2 ^ 62)
    (hlate : 2 ^ 62 + 14 * 24 * 60 * 60 ≤ now.val) : Elapsed now since (14 * 24 * 60 * 60) := by
  have hnow := now.property
  exact ⟨hpos, by omega, by unfold InI64 at *; omega⟩

/-- Late enough, the stranger's step pays any claim that is submitted or disputed. -/
theorem Reaches.crank_pays (hr : Reaches h s) (htame : ClocksTame h)
    (hcaller : caller.canSign = true) (hc : s.claims.get c = some r)
    (hst : r.status = ClaimStatus.submitted.toU8 ∨ r.status = ClaimStatus.disputed.toU8)
    (hlate : 2 ^ 62 + 14 * 24 * 60 * 60 ≤ (clock c).val) :
    Pays cfg t.poster P c r (crank cfg caller clock (c, r)) (crankOutcome (c, r)) := by
  rcases hst with hst | hst
  · obtain ⟨u, b, _, hu, hsince⟩ := hr.since_submit hc hst
    obtain ⟨hpos, hlt⟩ := Since.tame hsince htame
    rw [crank, crankOutcome, if_pos hst, if_pos hst]
    exact .autoApprove hcaller hst (.of_late (hu ▸ hpos) (hu ▸ hlt) hlate)
  · obtain ⟨u, b, _, hu, hsince⟩ := hr.since_dispute hc hst
    obtain ⟨hpos, hlt⟩ := Since.tame hsince htame
    have hne : r.status ≠ ClaimStatus.submitted.toU8 := by
      rw [hst]
      decide
    rw [crank, crankOutcome, if_neg hne, if_neg hne]
    exact .autoResolve hcaller hst (.of_late (hu ▸ hpos) (hu ▸ hlt) hlate)

/-- What the payouts of a backlog leave in the vault. -/
theorem Cleared.remainder (hr : Reaches h s) (hledger : Ledger h s T t cfg) {h' : History}
    {s' : State} {act : Pubkey × EscrowClaim → Label}
    {outcome : Pubkey × EscrowClaim → ClaimStatus}
    (hclear : Cleared s h' s' T cfg t P cs act outcome) :
    s'.tokens.balance (.ata T cfg.usdcMint) =
      t.bounty * (t.maxSlots - t.slotsApproved - t.slotsRefunded - cs.length) +
        deposits (.ata T cfg.usdcMint) (epoch T h) := by
  have hcensus := Reaches.activeSlots_eq (hr.trans hclear.run) hclear.backlog.task
  have hheld := hledger.solvent.held
  have hvault := hclear.vault
  have hslots : t.bounty * cs.length ≤
      t.bounty * (t.maxSlots - t.slotsApproved - t.slotsRefunded) :=
    Nat.mul_le_mul_left _ (by have hsettled := hcensus.2; dsimp only at hsettled; omega)
  simp only [potOf] at hheld
  rw [Nat.mul_sub t.bounty _ cs.length]
  omega

/-- Winding a task up pays the rest of the vault to the poster. -/
theorem Ended.credited (hs : Sound s) {s' : State} {out : List Transfer}
    {tasks' : Store Pubkey EscrowTask} (he : Ended s s' out T P cfg t tasks') :
    s'.tokens.balance P = s.tokens.balance P + s.tokens.balance (.ata T cfg.usdcMint) := by
  have hne := vault_ne_posterAta hs he.task he.vault he.posterAta
  rw [he.tokens'.balance]
  simp [Bank.movedBalance, hne, hne.symm]

/-- A stranger can finish a task from every state of every run without
`update_mint`, paying the open claims in any order. -/
theorem cranks_finish (hr : Reaches h s) (hno : ∀ e ∈ h, e.label.updatesMint = false)
    (htame : ClocksTame h) (hcfg : s.config = some cfg) (ht : s.tasks.get T = some t)
    (hopen : t.taskStatus = .opened) (hdue : 0 < t.taskDeadlineTs ∧ t.taskDeadlineTs < 2 ^ 62)
    (hstatus : ∀ c r, s.claims.get c = some r → r.task = T → r.terminal = false →
      r.status = ClaimStatus.submitted.toU8 ∨ r.status = ClaimStatus.disputed.toU8)
    (hfee : s.tokens.holder (.ata .configPda cfg.usdcMint) = some (.configPda, cfg.usdcMint))
    (hata : ∀ c r, s.claims.get c = some r → r.task = T → r.terminal = false →
      s.tokens.holder (.ata r.claimer cfg.usdcMint) = some (r.claimer, cfg.usdcMint))
    (hP : s.tokens.holder P = some (t.poster, cfg.usdcMint)) (hcaller : caller.canSign = true) :
    (∃ cs, Unsettled s T cs) ∧
    ∀ cs, Unsettled s T cs → ∀ (clock : Pubkey → I64) (last : I64),
      (∀ x ∈ cs, 2 ^ 62 + 14 * 24 * 60 * 60 ≤ (clock x.1).val) → 2 ^ 62 ≤ last.val →
      ∃ h' s', Runs s h' s' ∧
        h'.map Event.label = .instr last (.closeTask (closeOf cfg T P t.poster caller)) ::
          (cs.map (crank cfg caller clock)).reverse ∧
        (∀ x ∈ cs, s'.claims.get x.1 = some (x.2.setStatus (crankOutcome x)) ∧
          ∃ e ∈ h', e.label = crank cfg caller clock x ∧ e.output =
            transferList (.ata T cfg.usdcMint) (.ata x.2.claimer cfg.usdcMint)
              (netOf t.bounty cfg.feeBps) ++
            transferList (.ata T cfg.usdcMint) (.ata .configPda cfg.usdcMint)
              (feeOf t.bounty cfg.feeBps)) ∧
        (∃ t', s'.tasks.get T = some t' ∧ t'.taskStatus = .closed) ∧
        s'.tokens.holder (.ata T cfg.usdcMint) = none ∧
        s'.tokens.balance P = s.tokens.balance P +
          (t.bounty * (t.maxSlots - t.slotsApproved - t.slotsRefunded - cs.length) +
            deposits (.ata T cfg.usdcMint) (epoch T h)) := by
  refine ⟨exists_unsettled s T, fun cs hcs clock last hclock hlast => ?_⟩
  have hb := hcs.backlog hcfg ht hopen hfee hata hP
  obtain ⟨cfg', hledger⟩ := hr.ledger (MintSteady.of_no_update hno) T t ht hopen
  cases hcfg.symm.trans hledger.config
  have hact : ∀ x ∈ cs,
      Pays cfg t.poster P x.1 x.2 (crank cfg caller clock x) (crankOutcome x) := by
    intro x hx
    obtain ⟨hc, hT, hlive⟩ := (hcs.listed x.1 x.2).mp hx
    exact hr.crank_pays htame hcaller hc (hstatus x.1 x.2 hc hT hlive) (hclock x hx)
  obtain ⟨h', s', hclear⟩ := hb.cleared hr hno hact
  have hr' : Reaches (h' ++ h) s' := hr.trans hclear.run
  have hsteady' := MintSteady.of_no_update (hclear.no_update hact hno)
  have hlate : EscrowTask.Due { t with slotsApproved := t.slotsApproved + cs.length } last :=
    ⟨hdue.1, by dsimp only; omega⟩
  obtain ⟨s'', out, hstep, he⟩ := hclear.backlog.close hr' hsteady' last hcaller (.inr hlate)
  refine ⟨_, s'', hclear.run.next hstep, ?_, ?_, ?_, ?_, ?_⟩
  · rw [List.map_cons, hclear.labels]
  · intro x hx
    obtain ⟨e, hmem, u, hl, hu, hpaid⟩ := hclear.paid x hx
    refine ⟨by rw [he.claims', hclear.settled x hx], e, List.mem_cons_of_mem _ hmem, hl, ?_⟩
    rw [hpaid.transfers, ((hcs.listed x.1 x.2).mp hx).2.1, hu]
  · exact ⟨_, by rw [he.tasks', Store.get_set_self], rfl⟩
  · rw [he.tokens'.holder, Function.update_self]
  · rw [he.credited hr'.sound, hclear.poster, hclear.remainder hr hledger]

end Cranks

open Scenario in
theorem cranks_finish_waiting : ∃ h' s', Runs (played waiting).2 h' s' ∧
    (∃ t', s'.tasks.get job = some t' ∧ t'.taskStatus = .closed) ∧
      s'.tokens.holder (.ata job usdc) = none := by
  have hcfg : (played waiting).2.config = some ⟨admin, usdc, 400⟩ := by decide +kernel
  have ht : (played waiting).2.tasks.get job =
      some ⟨0, poster, 10000, 3, 2, 0, 0, 0, 5000, 3600⟩ := by decide +kernel
  have hP : (played waiting).2.tokens.holder (.ata poster usdc) = some (poster, usdc) := by
    decide +kernel
  obtain ⟨⟨cs, hcs⟩, hall⟩ := cranks_finish (played_reaches waiting) (by decide +kernel)
    (by decide +kernel) hcfg ht rfl (by decide) (fun c r hc _ _ => (waiting_claims c r hc).2.1)
    (by decide +kernel) (fun c r hc _ _ => (waiting_claims c r hc).1) hP
    (show stranger.canSign = true from rfl)
  obtain ⟨h', s', hrun, _, _, hclosed, hgone, _⟩ := hall cs hcs (fun _ => late) late
    (fun _ _ => by decide) (by decide)
  exact ⟨h', s', hrun, hclosed, hgone⟩

end ClustlyEscrow
