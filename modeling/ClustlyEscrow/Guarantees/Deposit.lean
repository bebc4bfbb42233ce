import ClustlyEscrow.Guarantees.Maturity

/-!
# Who can stand in the way of a deposit

`initialize_task` creates the vault with `init`, which refuses an address that
is already a token account. The address follows from the task id alone and
anybody may create the account there, so a deposit succeeds just if nobody has
done so, now or in an earlier life of the task.
-/
namespace ClustlyEscrow
open Foundations

def depositOf (cfg : EscrowConfig) (poster P : Pubkey) (taskId : BitVec 128) :
    InitializeTask where
  poster := poster
  config := .configPda
  usdcMint := cfg.usdcMint
  task := .taskPda taskId
  taskVault := .ata (.taskPda taskId) cfg.usdcMint
  posterAta := P

/-- A poster offers a deposit within the limits, covered by an account of the
configured mint, under an id that no task account uses. -/
structure DepositOffer (s : State) (cfg : EscrowConfig) (poster P : Pubkey) (taskId : BitVec 128)
    (bounty : U64) (maxSlots : U16) : Prop where
  config : s.config = some cfg
  unused : s.tasks.get (.taskPda taskId) = none
  signs : poster.canSign = true
  account : s.tokens.holder P = some (poster, cfg.usdcMint)
  covered : bounty.val * maxSlots.val ≤ s.tokens.balance P
  bounty_pos : 0 < bounty.val
  slots : 1 ≤ maxSlots.val ∧ maxSlots.val ≤ maxSlotsLimit
  total_lt : bounty.val * maxSlots.val < 2 ^ 64

section Offer
variable {s : State} {cfg : EscrowConfig} {poster P : Pubkey} {taskId : BitVec 128}
  {bounty : U64} {maxSlots : U16}

theorem DepositOffer.funded (ho : DepositOffer s cfg poster P taskId bounty maxSlots)
    (hs : Sound s) (hfree : s.tokens.holder (.ata (.taskPda taskId) cfg.usdcMint) = none)
    (claimDeadlineSecs : U32) (taskDeadlineTs : I64) :
    ∃ s' out, Funded s s' out (depositOf cfg poster P taskId) cfg
      ((depositOf cfg poster P taskId).record taskId bounty maxSlots claimDeadlineSecs
        taskDeadlineTs) := by
  have hmint := hs.mint_mem cfg ho.config
  have hnot : Pubkey.ata (.taskPda taskId) cfg.usdcMint ∉ s.tokens.mints := fun hmem => by
    cases hs.mint_signs _ hmem
  obtain ⟨b₁, hopen⟩ := Bank.openAccount_succeeds (.taskPda taskId) hmint hnot hfree
  obtain ⟨_, _, _, hobs⟩ := Bank.openAccount_eq_ok.mp hopen
  have hP : b₁.holder P = some (poster, cfg.usdcMint) := (opened_of_ne hopen ho.account).1
  have hvault : b₁.holder (.ata (.taskPda taskId) cfg.usdcMint) =
      some (.taskPda taskId, cfg.usdcMint) := by
    rw [hobs.holder, Function.update_self]
  obtain ⟨b₂, hmove⟩ := Bank.transfer_succeeds hP hvault
    ((hobs.balance P).symm ▸ ho.covered)
  obtain ⟨_, _, _, _, _, hmoved⟩ := Bank.transfer_moved hmove
  exact ⟨{ s with
    tasks := s.tasks.set (.taskPda taskId) ((depositOf cfg poster P taskId).record taskId bounty
      maxSlots claimDeadlineSecs taskDeadlineTs)
    tokens := b₂ }, _, ho.signs, rfl, ho.config, rfl, hmint, rfl, ho.unused, rfl, hnot, hfree,
    ho.account, ho.bounty_pos, ho.slots, ho.total_lt, ho.covered, rfl, rfl, rfl,
    opened_then_moved hobs hmoved, rfl⟩

theorem DepositOffer.callable_iff (ho : DepositOffer s cfg poster P taskId bounty maxSlots)
    (hs : Sound s) (now : I64) (claimDeadlineSecs : U32) (taskDeadlineTs : I64) :
    Callable s now (.initializeTask (depositOf cfg poster P taskId) taskId bounty maxSlots
      claimDeadlineSecs taskDeadlineTs) ↔
        s.tokens.holder (.ata (.taskPda taskId) cfg.usdcMint) = none := by
  constructor
  · rintro ⟨out, s', hstep⟩
    obtain ⟨cfg', he⟩ := initializeTask_eq_ok.mp hstep
    exact he.vault_fresh
  · intro hfree
    obtain ⟨s', out, he⟩ := ho.funded hs hfree claimDeadlineSecs taskDeadlineTs
    exact ⟨out, s', initializeTask_eq_ok.mpr ⟨cfg, he⟩⟩

end Offer

/-! ## Runs in which nobody else opens an account for the task -/

/-- An unused task address owns no associated account, an open task at most one. -/
structure OnlyVault (s : State) (T : Pubkey) : Prop where
  unused : s.tasks.get T = none → ∀ m, s.tokens.holder (.ata T m) = none
  opened : ∀ t, s.tasks.get T = some t → t.taskStatus = .opened →
    ∃ mint, ∀ m, m ≠ mint → s.tokens.holder (.ata T m) = none

section Runs
variable {s s' : State} {h : History} {l : Label} {out : List Transfer} {T : Pubkey}
  {t t' : EscrowTask}

theorem OnlyVault.rewritten (hv : OnlyVault s T) (ht : s.tasks.get T = some t)
    (ht' : s'.tasks.get T = some t') (hst : t'.taskStatus = t.taskStatus)
    (habsent : ∀ m, s.tokens.holder (.ata T m) = none → s'.tokens.holder (.ata T m) = none) :
    OnlyVault s' T := by
  constructor
  · intro hnone
    rw [ht'] at hnone
    cases hnone
  · intro u hu hopen
    cases ht'.symm.trans hu
    obtain ⟨mint, hmint⟩ := hv.opened t ht (hst ▸ hopen)
    exact ⟨mint, fun m hm => habsent m (hmint m hm)⟩

/-- Cancelling closes the one account of the task; a closed task is not reopened. -/
theorem OnlyVault.ended {P : Pubkey} {cfg : EscrowConfig} {tasks' : Store Pubkey EscrowTask}
    (hv : OnlyVault s T) (hg : EndGround s t T l tasks') (he : Ended s s' out T P cfg t tasks')
    (habsent : ∀ m, s.tokens.holder (.ata T m) = none → s'.tokens.holder (.ata T m) = none) :
    OnlyVault s' T := by
  obtain ⟨mint, hmint⟩ := hv.opened t he.task he.opened
  have hclosed (htasks : tasks' = s.tasks.set T (t.setStatus .closed)) : OnlyVault s' T := by
    have ht' : s'.tasks.get T = some (t.setStatus .closed) := by
      rw [he.tasks', htasks, Store.get_set_self]
    constructor
    · intro hnone
      rw [ht'] at hnone
      cases hnone
    · intro u hu hopen
      cases ht'.symm.trans hu
      cases hopen
  cases hg with
  | cancel =>
    have hvault : cfg.usdcMint = mint := by
      by_contra hne
      have hnone := hmint _ hne
      rw [he.vault] at hnone
      cases hnone
    constructor
    · intro _ m
      by_cases hm : m = mint
      · rw [he.tokens'.holder, hm, hvault, Function.update_self]
      · exact habsent m (hmint m hm)
    · intro u hu
      rw [he.tasks', Store.get_erase_self] at hu
      cases hu
  | close => exact hclosed rfl
  | autoCancel => exact hclosed rfl

theorem OnlyVault.funded {a : InitializeTask} {cfg : EscrowConfig} (hv : OnlyVault s a.task)
    (he : Funded s s' out a cfg t) : OnlyVault s' a.task := by
  constructor
  · intro hnone
    rw [he.tasks', Store.get_set_self] at hnone
    cases hnone
  · intro _ _ _
    refine ⟨cfg.usdcMint, fun m hm => ?_⟩
    rw [he.tokens'.holder, he.vault_key]
    exact update_none _ (hv.unused he.fresh m) fun heq => hm (Pubkey.ata.inj heq).2

theorem OnlyVault.step (hv : OnlyVault s T) (hs : Sound s) (hstep : Accepts exec s l out s')
    (hT : T.canSign = false) (hcfg : T ≠ .configPda) (hl : l.createsAtaOf T = false) :
    OnlyVault s' T := by
  have hmove := move_of_exec hs hstep
  have habsent (hfund : l.task? = some T → ∃ t, s.tasks.get T = some t) (m : Pubkey) :=
    holder_absent (m := m) hs hstep hT hcfg hl hfund
  cases ht : s.tasks.get T with
  | none =>
    by_cases htask : l.task? = some T
    · obtain ⟨_, a, _, _, _, _, _, cfg, _, rfl, he⟩ := hmove.funded_of_none htask ht
      exact hv.funded he
    · have hframe := (hmove.task_frame htask).trans ht
      constructor
      · exact fun _ m => habsent (fun heq => absurd heq htask) m (hv.unused ht m)
      · intro t' ht'
        rw [hframe] at ht'
        cases ht'
  | some t =>
    have hkept := habsent fun _ => ⟨t, ht⟩
    rcases hmove.wound_or_kept ht with ⟨_, _, _, _, hg, he⟩ | ⟨t', ht', hst, _⟩
    · exact hv.ended hg he hkept
    · exact hv.rewritten ht ht' hst hkept

theorem Reaches.only_vault (hr : Reaches h s) (taskId : BitVec 128)
    (hnobody : ∀ e ∈ h, e.label.createsAtaOf (.taskPda taskId) = false) :
    OnlyVault s (.taskPda taskId) := by
  apply hr.history_invariant_of (P := fun e => e.label.createsAtaOf (.taskPda taskId) = false)
    (I := fun _ s => OnlyVault s (.taskPda taskId))
  · constructor <;> simp [State.genesis]
  · intro h s l out s' hrun _ hl hv hstep
    exact hv.step (Reaches.sound hrun) hstep rfl Pubkey.noConfusion hl
  · exact hnobody

/-- A deposit that is offered succeeds just if no token account is at its vault
address, and so in every run in which nobody else creates an associated account
of the task address. -/
theorem deposit_unblocked {cfg : EscrowConfig} {poster P : Pubkey} {taskId : BitVec 128}
    {bounty : U64} {maxSlots : U16} (hr : Reaches h s)
    (ho : DepositOffer s cfg poster P taskId bounty maxSlots) (now : I64)
    (claimDeadlineSecs : U32) (taskDeadlineTs : I64) :
    (Callable s now (.initializeTask (depositOf cfg poster P taskId) taskId bounty maxSlots
        claimDeadlineSecs taskDeadlineTs) ↔
      s.tokens.holder (.ata (.taskPda taskId) cfg.usdcMint) = none) ∧
    ((∀ e ∈ h, e.label.createsAtaOf (.taskPda taskId) = false) →
      Callable s now (.initializeTask (depositOf cfg poster P taskId) taskId bounty maxSlots
        claimDeadlineSecs taskDeadlineTs)) := by
  have hiff := ho.callable_iff hr.sound now claimDeadlineSecs taskDeadlineTs
  refine ⟨hiff, fun hnobody => hiff.mpr ?_⟩
  exact (hr.only_vault taskId hnobody).unused ho.unused cfg.usdcMint

end Runs

namespace Scenario

/-- A stranger creates the associated account of the address of the first task. -/
def squatted : List Label := setup ++ [.token (.createAta job usdc)]

end Scenario

open Scenario in
theorem deposit_unblocked_setup : Callable (played setup).2 (clock 1000)
    (.initializeTask (depositOf ⟨admin, usdc, 400⟩ poster (.ata poster usdc) 0) 0 10000 3 3600
      (clock 5000)) := by
  have ho : DepositOffer (played setup).2 ⟨admin, usdc, 400⟩ poster (.ata poster usdc) 0
      10000 3 := by
    constructor <;> decide +kernel
  exact (deposit_unblocked (played_reaches setup) ho _ _ _).2 (by decide +kernel)

open Scenario in
theorem deposit_unblocked_squatted : Reaches (played squatted).1 (played squatted).2 ∧
    DepositOffer (played squatted).2 ⟨admin, usdc, 400⟩ poster (.ata poster usdc) 0 10000 3 ∧
    exec (played squatted).2 (fund 10000 3 (clock 5000)) = .error (.token .alreadyInUse) := by
  refine ⟨played_reaches squatted, ?_, rfl⟩
  constructor <;> decide +kernel

end ClustlyEscrow
