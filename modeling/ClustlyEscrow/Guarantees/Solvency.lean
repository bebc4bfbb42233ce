import ClustlyEscrow.Effects.Failures
import ClustlyEscrow.Guarantees.Windows
import ClustlyEscrow.Invariants.Ledger

/-!
# Vaults are solvent

The vault of an open task holds one bounty for every slot that is not settled,
and the deposits on top of that. So no payout and no refund can ever meet a
vault that is short of funds.
-/
namespace ClustlyEscrow
open Foundations

/-- The computation does not fail in the token program. -/
def NoTokenError {α : Type} (x : Result α) : Prop := ∀ e, x ≠ .error (.token e)

/-! ## Settling a live claim -/

section Settling
variable {s : State} {h : History} {c : Pubkey} {cfg : EscrowConfig} {t : EscrowTask}
  {r : EscrowClaim}

/-- The books of the vault of an open task. -/
theorem Ledger.solvent {T : Pubkey} (hl : Ledger h s T t cfg) :
    (potOf h s T t cfg.usdcMint).Solvent :=
  Pot.solvent_of_steps hl.pot

/-- A live claim is covered by the vault of its task. -/
theorem Reaches.covered (hr : Reaches h s) (hsteady : ∀ e ∈ h, MintSteady e)
    (hc : s.claims.get c = some r) (hl : phaseOf r.status = .live)
    (ht : s.tasks.get r.task = some t) (hcfg : s.config = some cfg) :
    Ledger h s r.task t cfg ∧ t.bounty ≤ s.tokens.balance (.ata r.task cfg.usdcMint) := by
  obtain ⟨cfg', hledger⟩ := hr.ledger hsteady r.task t ht (hr.opened_of_live hc hl ht)
  cases hcfg.symm.trans hledger.config
  exact ⟨hledger, hledger.solvent.covers (hr.free_slot hc hl ht)⟩

/-- The counters of a live claim's task have room for one more settlement. -/
theorem Reaches.counter_room (hr : Reaches h s) (hc : s.claims.get c = some r)
    (hl : phaseOf r.status = .live) (ht : s.tasks.get r.task = some t) :
    t.slotsApproved + 1 < 2 ^ 16 ∧ t.slotsRefunded + 1 < 2 ^ 16 := by
  have hfree := hr.free_slot hc hl ht
  have hmax := (hr.sound.task _ _ ht).slots_le
  unfold maxSlotsLimit at hmax
  omega

/-- Once the accounts of a live claim are loaded, paying its deliverer can not fail. -/
theorem Reaches.payDeliverer_ok (hr : Reaches h s) (hsteady : ∀ e ∈ h, MintSteady e)
    {a : PayoutAccounts} (hload : a.Loaded s cfg t r) (hm : a.usdcMint = cfg.usdcMint)
    (hl : phaseOf r.status = .live) (outcome : ClaimStatus) :
    ∃ s' out, payDeliverer s a cfg t r outcome = .ok (s', out) := by
  have ht := hload.task_get
  have hcov := (hr.covered hsteady hload.claim hl ht hload.config).2
  obtain ⟨s', out, hpaid⟩ := PayoutReady.pays hr.sound hload.config ht hload.claim
    (hload.ready hr.sound hm) hcov outcome
  exact ⟨s', out, (payDeliverer_eq_ok hr.sound hload hm).mpr
    ⟨(hr.counter_room hload.claim hl ht).1, hpaid⟩⟩

theorem Reaches.refundPoster_ok (hr : Reaches h s) (hsteady : ∀ e ∈ h, MintSteady e)
    {P : Pubkey} (hcfg : s.config = some cfg) (ht : s.tasks.get r.task = some t)
    (hc : s.claims.get c = some r) (hl : phaseOf r.status = .live)
    (hP : s.tokens.holder P = some (t.poster, cfg.usdcMint)) (r' : EscrowClaim) :
    ∃ s' out, refundPoster s r.task c (.ata r.task cfg.usdcMint) P t r' = .ok (s', out) := by
  obtain ⟨hledger, hcov⟩ := hr.covered hsteady hc hl ht hcfg
  obtain ⟨s', out, href⟩ := refund_succeeds hcfg ht hc hledger.vault hP hcov r'
  exact ⟨s', out, (refundPoster_eq_ok hcfg ht hc hledger.vault hP).mpr
    ⟨(hr.counter_room hc hl ht).2, href⟩⟩

theorem live_of_pending
    (hst : r.status = ClaimStatus.submitted.toU8 ∨ r.status = ClaimStatus.disputed.toU8) :
    phaseOf r.status = .live := by
  rcases hst with hst | hst <;> exact live_of_eq hst rfl

/-- Once its guards pass, a settlement does not fail in the token program. -/
theorem Reaches.settles_within (hr : Reaches h s) (hsteady : ∀ e ∈ h, MintSteady e) :
    SettlesWithin s (fun e => ∀ e', e ≠ .token e') where
  guards := by
    rintro e he e' rfl
    cases he
  pays a cfg t r hl hm hst outcome := by
    obtain ⟨s', out, hok⟩ := hr.payDeliverer_ok hsteady hl hm (live_of_pending hst) outcome
    exact .of_ok hok
  refunds c dest cfg t r hcfg ht hc hdest hst r' := by
    obtain ⟨s', out, hok⟩ :=
      hr.refundPoster_ok hsteady hcfg ht hc (live_of_pending hst) hdest r'
    exact .of_ok hok
  counts _ _ _ _ := .okOr (fun _ => Error.noConfusion)

theorem Reaches.settles_noTokenError (hr : Reaches h s) (hsteady : ∀ e ∈ h, MintSteady e)
    {now : I64} {ix : Instruction} (hix : ix.settles = true) :
    NoTokenError (exec s (.instr now ix)) :=
  fun e he => (hr.settles_within hsteady).settles hix _ he e rfl

end Settling

/-- The vault of every open task holds its free slots and its deposits, to the
token, in every run that keeps the mint while a task is open. -/
theorem vault_solvency {h : History} {s : State} (hr : Reaches h s)
    (hsteady : ∀ e ∈ h, MintSteady e) :
    (∀ T t, s.tasks.get T = some t → t.taskStatus = .opened → ∃ cfg, s.config = some cfg ∧
      s.tokens.holder (.ata T cfg.usdcMint) = some (T, cfg.usdcMint) ∧
      t.slotsApproved + t.slotsRefunded ≤ t.maxSlots ∧
      s.tokens.balance (.ata T cfg.usdcMint) =
        t.bounty * (t.maxSlots - t.slotsApproved - t.slotsRefunded) +
          deposits (.ata T cfg.usdcMint) (epoch T h)) ∧
    ∀ now ix, ix.settles = true →
      exec s (.instr now ix) ≠ .error (.token .insufficientFunds) := by
  constructor
  · intro T t ht hopen
    obtain ⟨cfg, hledger⟩ := hr.ledger hsteady T t ht hopen
    exact ⟨cfg, hledger.config, hledger.vault, hledger.solvent.within, hledger.solvent.held⟩
  · intro now ix hix
    exact hr.settles_noTokenError hsteady hix _

namespace Scenario

/-- A stranger donates to the vault while one slot is settled and one is pending. -/
def donated : List Label := twoClaims ++
  [.token (.createAta stranger usdc), .token (.mintTo (.ata stranger usdc) 700),
    .token (.transfer stranger (.ata stranger usdc) (.ata job usdc) 500)]

end Scenario

open Scenario in
theorem vault_solvency_donated :
    ∃ cfg, (played donated).2.config = some cfg ∧
      (played donated).2.tokens.balance (.ata job cfg.usdcMint) =
        10000 * (3 - 1 - 0) + deposits (.ata job cfg.usdcMint) (epoch job (played donated).1) := by
  obtain ⟨cfg, hcfg, _, _, hbal⟩ := (vault_solvency (played_reaches donated)
    (MintSteady.of_no_update (by decide +kernel))).1 job
    ⟨0, poster, 10000, 3, 2, 1, 0, 0, 5000, 3600⟩ (by decide +kernel) rfl
  exact ⟨cfg, hcfg, hbal⟩

end ClustlyEscrow
