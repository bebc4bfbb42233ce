import ClustlyEscrow.Guarantees.Lifecycle
import ClustlyEscrow.Guarantees.Solvency

/-!
# No overflow after the deposit

Each checked operation behind a deposit is bounded by a fact about reachable
states: the cap of the fee, the census of the slots, the rounds of a review.
Only the total of a new deposit can be too large, and that is reported.
-/
namespace ClustlyEscrow
open Foundations

/-- What `initialize_task` asks of its accounts. -/
structure InitializeTask.Loaded (s : State) (a : InitializeTask) (cfg : EscrowConfig)
    (taskId : BitVec 128) : Prop where
  poster_signs : a.poster.canSign = true
  config_key : a.config = .configPda
  config : s.config = some cfg
  mint : a.usdcMint = cfg.usdcMint
  mint_mem : cfg.usdcMint ∈ s.tokens.mints
  task_key : a.task = .taskPda taskId
  fresh : s.tasks.get a.task = none
  vault_key : a.taskVault = .ata a.task cfg.usdcMint
  vault_not_mint : a.taskVault ∉ s.tokens.mints
  vault_fresh : s.tokens.holder a.taskVault = none
  posterAta : s.tokens.holder a.posterAta = some (a.poster, cfg.usdcMint)

def Instruction.deposits : Instruction → Bool
  | .initializeTask _ _ _ _ _ _ => true
  | _ => false

section Deposit
variable {s : State} {a : InitializeTask} {taskId : BitVec 128} {bounty : U64} {maxSlots : U16}
  {claimDeadlineSecs : U32} {taskDeadlineTs : I64}

/-- The last steps of a deposit overflow just in its total. -/
theorem total_overflows {c : Cpi} {authority source dest : Pubkey} (bounty : U64) (maxSlots : U16)
    (f : Cpi → State × List Transfer) :
    (do
      let product ← okOr (checkedMul 128 bounty maxSlots) (.escrow .mathOverflow)
      let total ← okOr (tryIntoU64 product) (.escrow .mathOverflow)
      let cpi ← c.transfer authority source dest total
      return f cpi : Result (State × List Transfer)) = .error (.escrow .mathOverflow) ↔
      2 ^ 64 ≤ bounty.val * maxSlots.val := by
  have hmoves (total : ℕ) : ¬ (do
      let cpi ← c.transfer authority source dest total
      return f cpi : Result (State × List Transfer)) = .error (.escrow .mathOverflow) := by
    intro he
    cases FailsOnly.seq Cpi.transfer_noOverflow (fun _ _ => FailsOnly.ret _) _ he
  have hwide : bounty.val * maxSlots.val < 2 ^ 128 := by
    have hlt := Nat.mul_lt_mul'' bounty.isLt maxSlots.isLt
    omega
  simp only [seq_eq_error, hmoves, and_false, exists_false, or_false, okOr_eq_error, okOr_eq_ok,
    checkedMul_eq_some, checkedMul_eq_none, tryIntoU64_eq_none, hwide, true_and, and_true,
    exists_eq_left, not_le.mpr hwide, false_or]

theorem initializeTask_overflows_iff :
    initializeTask s a taskId bounty maxSlots claimDeadlineSecs taskDeadlineTs =
        .error (.escrow .mathOverflow) ↔
      (∃ cfg, a.Loaded s cfg taskId) ∧ 0 < bounty.val ∧
        (1 ≤ maxSlots.val ∧ maxSlots.val ≤ maxSlotsLimit) ∧
        2 ^ 64 ≤ bounty.val * maxSlots.val := by
  have hrefused : ¬ (Error.escrow .mathOverflow).isRefusal = true := by decide
  have hfine : ¬ (Error.escrow .mathOverflow).isArithmetic = false := by decide
  -- every guard in front of the total fails with another error
  simp only [initializeTask, signer_refuses.seq_eq_error hrefused,
    loadConfig_refuses.seq_eq_error hrefused, loadMint_refuses.seq_eq_error hrefused,
    loadToken_refuses.seq_eq_error hrefused, Cpi.initAta_noOverflow.seq_eq_error hfine,
    require_seq_eq_error, total_overflows, reduceCtorEq, ne_eq, not_false_eq_true,
    Error.escrow.injEq, signer_eq_ok, loadConfig_eq_ok, loadMint_eq_ok, Cpi.initAta_eq_ok,
    loadToken_eq_ok]
  constructor
  · rintro ⟨_, h1, cfg, ⟨h2, h3⟩, _, h4, h5, h6, h7, c, ⟨h8, hopen, _⟩, _, h9, hlimits⟩
    obtain ⟨_, hnm, hnone, _⟩ := Bank.openAccount_eq_ok.mp hopen
    rw [h5] at h4 h8 h9
    exact ⟨⟨cfg, h1, h2, h3, h5, h4, h6, h7, h8, hnm, hnone, h9⟩, hlimits⟩
  · rintro ⟨⟨cfg, hl⟩, hlimits⟩
    obtain ⟨b, hopen⟩ := Bank.openAccount_succeeds a.task hl.mint_mem hl.vault_not_mint
      hl.vault_fresh
    rw [← hl.mint] at hopen
    exact ⟨(), hl.poster_signs, cfg, ⟨hl.config_key, hl.config⟩, (), hl.mint ▸ hl.mint_mem, hl.mint,
      hl.task_key, hl.fresh, ⟨b, []⟩, ⟨hl.mint ▸ hl.vault_key, hopen, rfl⟩, (),
      hl.mint ▸ hl.posterAta, hlimits⟩

/-- A deposit has no unchecked operation. -/
theorem initializeTask_no_panic :
    FailsOnly (· ≠ .arithmeticPanic)
      (initializeTask s a taskId bounty maxSlots claimDeadlineSecs taskDeadlineTs) := by
  have guard {α : Type} {x : Result α} (hx : NoOverflow x) :
      FailsOnly (· ≠ Error.arithmeticPanic) x := by
    refine hx.mono fun e he => ?_
    rintro rfl
    cases he
  have checked {e : EscrowError} : Error.escrow e ≠ .arithmeticPanic := Error.noConfusion
  exact .seq (guard signer_refuses.noOverflow) fun _ _ =>
    .seq (guard loadConfig_refuses.noOverflow) fun _ _ =>
    .seq (guard loadMint_refuses.noOverflow) fun _ _ => .seq (.require checked) fun _ _ =>
    .seq (.require Error.noConfusion) fun _ _ => .seq (.require Error.noConfusion) fun _ _ =>
    .seq (guard Cpi.initAta_noOverflow) fun _ _ =>
    .seq (guard loadToken_refuses.noOverflow) fun _ _ => .seq (.require checked) fun _ _ =>
    .seq (.require checked) fun _ _ => .seq (.okOr checked) fun _ _ =>
    .seq (.okOr checked) fun _ _ => .seq (guard Cpi.transfer_noOverflow) fun _ _ => .ret _

end Deposit

/-! ## Reachable states -/

section Reachable
variable {s : State} {h : History} {now : I64} {ix : Instruction}

/-- The counters of a claim that is settled have room, of its task and its own. -/
theorem Reaches.settles_noOverflow (hr : Reaches h s) :
    SettlesWithin s (fun e => e.isArithmetic = false) where
  guards _ he := Error.not_arithmetic_of_refusal he
  pays a cfg t r hl _ hst outcome := by
    have hroom := hr.counter_room hl.claim (live_of_pending hst) hl.task_get
    exact payDeliverer_noOverflow hr.sound hl hroom.1 outcome
  refunds c dest cfg t r _ ht hc _ hst r' := by
    have hroom := hr.counter_room hc (live_of_pending hst) ht
    exact refundPoster_noOverflow hroom.2 r'
  counts c r hc hst := by
    obtain ⟨_, hrev⟩ := hr.reviewed c r hc
    have hrounds := hrev.lifecycle.underReview (.inl hst)
    exact .checkedAdd (by omega)

theorem Reaches.noOverflow (hr : Reaches h s) (hix : ix.deposits = false) :
    NoOverflow (exec s (.instr now ix)) := by
  have settled (hset : ix.settles = true) : NoOverflow (exec s (.instr now ix)) :=
    hr.settles_noOverflow.settles hset
  cases ix with
  | initializeConfig a admin feeBps => exact initializeConfig_noOverflow a admin feeBps
  | updateAdmin a newAdmin => exact updateAdmin_noOverflow a newAdmin
  | updateFee a newFeeBps => exact updateFee_noOverflow a newFeeBps
  | updateMint a => exact updateMint_noOverflow a
  | initializeTask => cases hix
  | cancelBeforeEnroll a => exact cancelBeforeEnroll_noOverflow a
  | closeTask a => exact closeTask_noOverflow a
  | autoCancelTask a => exact autoCancelTask_noOverflow a
  | enroll a claimId => exact enroll_noOverflow hr.sound a claimId
  | submit a hash => exact submit_noOverflow a hash
  | openDispute a => exact openDispute_noOverflow a
  | approveClaim | rejectClaim | autoApprove | resolveDispute | autoResolveDispute =>
    exact settled rfl
  | withdrawFees a amount => exact withdrawFees_noOverflow a amount

theorem Reaches.no_panic (hr : Reaches h s) :
    exec s (.instr now ix) ≠ .error .arithmeticPanic := by
  intro he
  cases hix : ix.deposits with
  | true =>
    cases ix
    case initializeTask => exact initializeTask_no_panic _ he rfl
    all_goals cases hix
  | false => cases hr.noOverflow hix _ he

/-- The split of a bounty never fails, and its cast to 64 bits is exact. -/
theorem Reaches.split_exact (hr : Reaches h s) {cfg : EscrowConfig} {T : Pubkey} {t : EscrowTask}
    (hcfg : s.config = some cfg) (ht : s.tasks.get T = some t) :
    (∃ split, computeFeeSplit t.bounty cfg.feeBps = .ok split) ∧
      asU64 (t.bounty * cfg.feeBps / bpsDenominator) =
        t.bounty * cfg.feeBps / bpsDenominator := by
  have hlt := (hr.sound.task T t ht).bounty_lt
  have hcap := hr.sound.fee_le cfg hcfg
  refine ⟨⟨_, computeFeeSplit_eq_ok hlt hcap⟩, Nat.mod_eq_of_lt ?_⟩
  have hfee : 20 * (t.bounty * cfg.feeBps / bpsDenominator) ≤ t.bounty := feeOf_le t.bounty hcap
  omega

/-- In every reachable state, at every clock: no operation overflows but the
total of a deposit, no cast truncates and no saturating subtraction saturates. -/
theorem arithmetic_never_fails (hr : Reaches h s) :
    (∀ now ix, exec s (.instr now ix) ≠ .error .arithmeticPanic) ∧
    (∀ now ix, exec s (.instr now ix) = .error (.escrow .mathOverflow) → ix.deposits = true) ∧
    (∀ now a taskId bounty maxSlots claimDeadlineSecs taskDeadlineTs,
      exec s (.instr now (.initializeTask a taskId bounty maxSlots claimDeadlineSecs
          taskDeadlineTs)) = .error (.escrow .mathOverflow) ↔
        (∃ cfg, a.Loaded s cfg taskId) ∧ 0 < bounty.val ∧
          (1 ≤ maxSlots.val ∧ maxSlots.val ≤ maxSlotsLimit) ∧
          2 ^ 64 ≤ bounty.val * maxSlots.val) ∧
    (∀ cfg T t, s.config = some cfg → s.tasks.get T = some t →
      (∃ split, computeFeeSplit t.bounty cfg.feeBps = .ok split) ∧
        asU64 (t.bounty * cfg.feeBps / bpsDenominator) =
          t.bounty * cfg.feeBps / bpsDenominator) ∧
    ∀ T t, s.tasks.get T = some t → t.slotsApproved ≤ t.slotsEnrolled ∧
      t.slotsRefunded ≤ t.slotsEnrolled - t.slotsApproved := by
  refine ⟨fun _ _ => hr.no_panic, ?_, fun _ _ _ _ _ _ _ => initializeTask_overflows_iff,
    fun _ _ _ hcfg ht => hr.split_exact hcfg ht, ?_⟩
  · intro now ix he
    by_contra hix
    rw [Bool.not_eq_true] at hix
    cases hr.noOverflow hix _ he
  · intro T t ht
    obtain ⟨_, hsettled, _⟩ := hr.activeSlots_eq ht
    omega

end Reachable

open Scenario in
theorem arithmetic_never_fails_large :
    exec (played setup).2 (fund ⟨2 ^ 63, by decide⟩ 2 (clock 5000)) =
      .error (.escrow .mathOverflow) := by
  have hl : InitializeTask.Loaded (played setup).2
      ⟨poster, .configPda, usdc, job, .ata job usdc, .ata poster usdc⟩ ⟨admin, usdc, 400⟩ 0 := by
    constructor <;> decide +kernel
  exact ((arithmetic_never_fails (played_reaches setup)).2.2.1 _ _ _ _ _ _ _).mpr
    ⟨⟨_, hl⟩, by decide, by decide, by decide⟩

end ClustlyEscrow
