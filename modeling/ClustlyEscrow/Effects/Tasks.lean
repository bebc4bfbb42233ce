import ClustlyEscrow.Effects.Settle

/-!
# What the task instructions do

Funding opens a vault and fills it; the three instructions that end a task
empty the vault into an account of the poster and close it.
-/
namespace ClustlyEscrow
open Foundations

section Instructions
variable {s s' : State} {out : List Transfer} {now : I64}

/-! ## Funding -/

def InitializeTask.record (a : InitializeTask) (taskId : BitVec 128) (bounty : U64)
    (maxSlots : U16) (claimDeadlineSecs : U32) (taskDeadlineTs : I64) : EscrowTask where
  taskId := taskId
  poster := a.poster
  bounty := bounty
  maxSlots := maxSlots
  slotsEnrolled := 0
  slotsApproved := 0
  slotsRefunded := 0
  status := TaskStatus.opened.toU8
  taskDeadlineTs := taskDeadlineTs
  claimDeadlineSecs := claimDeadlineSecs

/-- Task `a.task` is created as `t` and its vault filled. -/
structure Funded (s s' : State) (out : List Transfer) (a : InitializeTask) (cfg : EscrowConfig)
    (t : EscrowTask) : Prop where
  poster_signs : a.poster.canSign = true
  config_key : a.config = .configPda
  config : s.config = some cfg
  mint : a.usdcMint = cfg.usdcMint
  mint_mem : cfg.usdcMint ∈ s.tokens.mints
  task_key : a.task = .taskPda t.taskId
  fresh : s.tasks.get a.task = none
  vault_key : a.taskVault = .ata a.task cfg.usdcMint
  vault_not_mint : a.taskVault ∉ s.tokens.mints
  vault_fresh : s.tokens.holder a.taskVault = none
  posterAta : s.tokens.holder a.posterAta = some (a.poster, cfg.usdcMint)
  bounty_pos : 0 < t.bounty
  slots : 1 ≤ t.maxSlots ∧ t.maxSlots ≤ maxSlotsLimit
  total_lt : t.bounty * t.maxSlots < 2 ^ 64
  covered : t.bounty * t.maxSlots ≤ s.tokens.balance a.posterAta
  config' : s'.config = s.config
  tasks' : s'.tasks = s.tasks.set a.task t
  claims' : s'.claims = s.claims
  tokens' : s'.tokens.Observes s.tokens.mints
    (Function.update s.tokens.holder a.taskVault (some (a.task, cfg.usdcMint)))
    (s.tokens.movedBalance a.posterAta a.taskVault (t.bounty * t.maxSlots))
  transfers : out = [⟨a.posterAta, a.taskVault, t.bounty * t.maxSlots⟩]

/-- Opening an account and moving tokens into it from another one. -/
theorem opened_then_moved {b b₁ b₂ : Bank Pubkey} {vault P T m : Pubkey} {n : ℕ}
    (h₁ : b₁.Observes b.mints (Function.update b.holder vault (some (T, m))) b.balance)
    (h₂ : b₁.Moved b₂ P vault n) :
    b₂.Observes b.mints (Function.update b.holder vault (some (T, m)))
      (b.movedBalance P vault n) := by
  refine ⟨h₂.mints.trans h₁.mints, fun k => (h₂.holder k).trans (h₁.holder k), fun k => ?_⟩
  rw [h₂.balance]
  simp only [Bank.movedBalance, h₁.balance]

theorem initializeTask_eq_ok {a : InitializeTask} {taskId : BitVec 128} {bounty : U64}
    {maxSlots : U16} {claimDeadlineSecs : U32} {taskDeadlineTs : I64} :
    initializeTask s a taskId bounty maxSlots claimDeadlineSecs taskDeadlineTs = .ok (s', out) ↔
      ∃ cfg, Funded s s' out a cfg
        (a.record taskId bounty maxSlots claimDeadlineSecs taskDeadlineTs) := by
  simp only [initializeTask, seq_eq_ok, signer_eq_ok, loadConfig_eq_ok, loadMint_eq_ok,
    require_eq_ok, Cpi.initAta_eq_ok, loadToken_eq_ok, okOr_eq_ok, checkedMul_eq_some,
    tryIntoU64_eq_some, Cpi.transfer_eq_ok, return_eq_ok, Prod.mk.injEq]
  constructor
  · rintro ⟨_, h1, cfg, ⟨h2, h3⟩, _, h4, _, h5, _, h6, _, h7, c₁, ⟨h8, hopen, hl₁⟩, _, h9, _, h10,
      _, h11, p, ⟨_, rfl⟩, n, ⟨hlt, rfl⟩, c₂, ⟨hmove, hl₂⟩, rfl, rfl⟩
    obtain ⟨hmem, hnm, hnone, hobs⟩ := Bank.openAccount_eq_ok.mp hopen
    obtain ⟨_, _, _, _, hle, hmoved⟩ := Bank.transfer_moved hmove
    rw [h5] at h4 h8 h9 hobs
    refine ⟨cfg, ⟨h1, h2, h3, h5, h4, h6, h7, h8, hnm, hnone, h9, h10, h11, hlt, ?_, rfl, rfl, rfl,
      opened_then_moved hobs hmoved, ?_⟩⟩
    · rw [hobs.balance] at hle
      exact hle
    · rw [hl₂, hl₁]
      rfl
  · rintro ⟨cfg, h⟩
    have hPv : a.posterAta ≠ a.taskVault := ne_of_fresh h.posterAta h.vault_fresh
    obtain ⟨b₁, hopen⟩ := Bank.openAccount_succeeds a.task h.mint_mem h.vault_not_mint
      h.vault_fresh
    obtain ⟨_, _, _, hobs⟩ := Bank.openAccount_eq_ok.mp hopen
    have hP : b₁.holder a.posterAta = some (a.poster, cfg.usdcMint) := by
      rw [hobs.holder, Function.update_of_ne hPv, h.posterAta]
    have hV : b₁.holder a.taskVault = some (a.task, cfg.usdcMint) := by
      rw [hobs.holder, Function.update_self]
    have hmoved : b₁.Moved s'.tokens a.posterAta a.taskVault (bounty.val * maxSlots.val) := by
      refine ⟨h.tokens'.mints.trans hobs.mints.symm,
        fun k => (h.tokens'.holder k).trans (hobs.holder k).symm, fun k => ?_⟩
      rw [h.tokens'.balance]
      simp only [Bank.movedBalance, hobs.balance]
      rfl
    have hmove := Bank.transfer_eq_ok.mpr ⟨_, _, hP, hV, by
      rw [hobs.balance]
      exact h.covered, hmoved⟩
    have hlt := h.total_lt
    have hlt' : bounty.val * maxSlots.val < 2 ^ 64 := hlt
    refine ⟨(), h.poster_signs, cfg, ⟨h.config_key, h.config⟩, (), by rw [h.mint]; exact h.mint_mem,
      (), h.mint, (), h.task_key, (), h.fresh, ⟨b₁, []⟩, ⟨by rw [h.mint]; exact h.vault_key,
        by rw [h.mint]; exact hopen, rfl⟩, (), by rw [h.mint]; exact h.posterAta, (), h.bounty_pos,
      (), h.slots, _, ⟨by omega, rfl⟩, _, ⟨hlt', rfl⟩, ⟨s'.tokens, out⟩, ⟨hmove, h.transfers⟩,
      ?_, rfl⟩
    exact State.ext h.config'.symm h.tasks'.symm h.claims'.symm rfl

/-! ## Ending a task -/

/-- Vault and record of task `T` are wound up, the rest paid into `P`. -/
structure Ended (s s' : State) (out : List Transfer) (T P : Pubkey) (cfg : EscrowConfig)
    (t : EscrowTask) (tasks' : Store Pubkey EscrowTask) : Prop where
  config : s.config = some cfg
  task : s.tasks.get T = some t
  opened : t.taskStatus = .opened
  vault : s.tokens.holder (.ata T cfg.usdcMint) = some (T, cfg.usdcMint)
  posterAta : s.tokens.holder P = some (t.poster, cfg.usdcMint)
  config' : s'.config = s.config
  tasks' : s'.tasks = tasks'
  claims' : s'.claims = s.claims
  tokens' : s'.tokens.Observes s.tokens.mints
    (Function.update s.tokens.holder (.ata T cfg.usdcMint) none)
    (s.tokens.movedBalance (.ata T cfg.usdcMint) P
      (s.tokens.balance (.ata T cfg.usdcMint)))
  transfers : out = transferList (.ata T cfg.usdcMint) P
    (s.tokens.balance (.ata T cfg.usdcMint))

theorem sweepVault_eq_ok {T vault P o m : Pubkey} (cpi : Cpi) (hne : vault ≠ P)
    (hv : s.tokens.holder vault = some (T, m)) (hP : s.tokens.holder P = some (o, m)) :
    sweepVault s T vault P = .ok cpi ↔
      cpi.tokens.Observes s.tokens.mints (Function.update s.tokens.holder vault none)
        (s.tokens.movedBalance vault P (s.tokens.balance vault)) ∧
      cpi.transfers = transferList vault P (s.tokens.balance vault) := by
  have hmove (c : Cpi) := transferPos_eq_ok s.cpi c (s.tokens.balance vault) hv hP
  have hend {b₁ b₂ : Bank Pubkey} (h₁ : s.tokens.Moved b₁ vault P (s.tokens.balance vault)) :
      b₁.closeAccount T vault = .ok b₂ ↔
        b₂.Observes s.tokens.mints (Function.update s.tokens.holder vault none)
          (s.tokens.movedBalance vault P (s.tokens.balance vault)) :=
    h₁.closeAccount_eq_ok hne hv
  simp only [sweepVault, seq_eq_ok, Cpi.closeAccount_eq_ok]
  constructor
  · rintro ⟨c₁, h₁, h₂, hl⟩
    obtain ⟨_, hm₁, hl₁⟩ := (hmove c₁).mp h₁
    refine ⟨(hend hm₁).mp h₂, ?_⟩
    rw [hl, hl₁]
    rfl
  · rintro ⟨hobs, hl⟩
    obtain ⟨b₁, h₁⟩ := Bank.transfer_succeeds hv hP le_rfl
    obtain ⟨_, _, _, _, _, hm₁⟩ := Bank.transfer_moved h₁
    exact ⟨⟨b₁, transferList vault P (s.tokens.balance vault)⟩,
      (hmove _).mpr ⟨le_rfl, hm₁, rfl⟩, (hend hm₁).mpr hobs, hl⟩

/-- The vault of a task is not an account of its poster. -/
theorem vault_ne_posterAta (hs : Sound s) {T P m : Pubkey} {t : EscrowTask}
    (ht : s.tasks.get T = some t) (hv : s.tokens.holder (.ata T m) = some (T, m))
    (hP : s.tokens.holder P = some (t.poster, m)) : Pubkey.ata T m ≠ P :=
  ne_of_owner hv hP (ne_of_canSign (hs.task T t ht).poster (hs.task T t ht).canSign).symm

/-- The common tail of the three instructions that end a task. -/
theorem sweep_then_eq_ok (hs : Sound s) {T P : Pubkey} {cfg : EscrowConfig} {t : EscrowTask}
    {tasks' : Store Pubkey EscrowTask} (hc : s.config = some cfg) (ht : s.tasks.get T = some t)
    (hopen : t.taskStatus = .opened)
    (hv : s.tokens.holder (.ata T cfg.usdcMint) = some (T, cfg.usdcMint))
    (hP : s.tokens.holder P = some (t.poster, cfg.usdcMint)) :
    (∃ cpi, sweepVault s T (.ata T cfg.usdcMint) P = .ok cpi ∧
      { s with tasks := tasks', tokens := cpi.tokens } = s' ∧ cpi.transfers = out) ↔
      Ended s s' out T P cfg t tasks' := by
  have hsweep (cpi : Cpi) := sweepVault_eq_ok cpi (vault_ne_posterAta hs ht hv hP) hv hP
  constructor
  · rintro ⟨cpi, hcpi, rfl, rfl⟩
    obtain ⟨hobs, hl⟩ := (hsweep cpi).mp hcpi
    exact ⟨hc, ht, hopen, hv, hP, rfl, rfl, rfl, hobs, hl⟩
  · intro h
    refine ⟨⟨s'.tokens, out⟩, (hsweep _).mpr ⟨h.tokens', h.transfers⟩, ?_, rfl⟩
    exact State.ext h.config'.symm h.tasks'.symm h.claims'.symm rfl

/-- Between existing accounts a task can always be wound up. -/
theorem Ended.exists (hs : Sound s) {T P : Pubkey} {cfg : EscrowConfig} {t : EscrowTask}
    (hc : s.config = some cfg) (ht : s.tasks.get T = some t) (hopen : t.taskStatus = .opened)
    (hv : s.tokens.holder (.ata T cfg.usdcMint) = some (T, cfg.usdcMint))
    (hP : s.tokens.holder P = some (t.poster, cfg.usdcMint)) (tasks' : Store Pubkey EscrowTask) :
    ∃ s' out, Ended s s' out T P cfg t tasks' := by
  have hne := vault_ne_posterAta hs ht hv hP
  obtain ⟨_, b, h₁, h₂⟩ := Bank.sweep_succeeds hne hv hP
  exact ⟨{ s with tasks := tasks', tokens := b }, _, hc, ht, hopen, hv, hP, rfl, rfl, rfl,
    Bank.sweep_observes hne hv h₁ h₂, rfl⟩

/-- An associated vault that passed its constraint holds the configured mint. -/
theorem loaded_vault (hs : Sound s) {T k mint m : Pubkey} (hk : k = .ata T mint)
    (hh : s.tokens.holder k = some (T, m)) : s.tokens.holder (.ata T mint) = some (T, mint) := by
  subst k
  rw [hh, hs.ata_mint _ _ _ _ hh]

structure CancelBeforeEnroll.Loaded (s : State) (a : CancelBeforeEnroll) (cfg : EscrowConfig)
    (t : EscrowTask) : Prop where
  poster_signs : a.poster.canSign = true
  config_key : a.config = .configPda
  task_key : a.task = .taskPda t.taskId
  poster : t.poster = a.poster
  vault_key : a.taskVault = .ata a.task cfg.usdcMint

theorem cancelBeforeEnroll_eq_ok (hs : Sound s) {a : CancelBeforeEnroll} :
    cancelBeforeEnroll s a = .ok (s', out) ↔ ∃ cfg t, a.Loaded s cfg t ∧ t.slotsEnrolled = 0 ∧
      Ended s s' out a.task a.posterAta cfg t (s.tasks.erase a.task) := by
  simp only [cancelBeforeEnroll, seq_eq_ok, signer_eq_ok, loadConfig_eq_ok, loadTask_eq_ok,
    require_eq_ok, loadAta_eq_ok, loadToken_eq_ok, return_eq_ok, Prod.mk.injEq]
  constructor
  · rintro ⟨_, h1, cfg, ⟨h2, h3⟩, t, ⟨h4, h5⟩, _, h6, _, ⟨h7, m, h8⟩, _, h9, _, h10, _, h11, hrest⟩
    have hv := loaded_vault hs h7 h8
    rw [h7] at hrest
    exact ⟨cfg, t, ⟨h1, h2, h5, h6, h7⟩, h10,
      (sweep_then_eq_ok hs h3 h4 h11 hv (h6 ▸ h9)).mp hrest⟩
  · rintro ⟨cfg, t, hl, h10, he⟩
    have hrest := (sweep_then_eq_ok hs he.config he.task he.opened he.vault he.posterAta).mpr he
    refine ⟨(), hl.poster_signs, cfg, ⟨hl.config_key, he.config⟩, t, ⟨he.task, hl.task_key⟩, (),
      hl.poster, (), ⟨hl.vault_key, cfg.usdcMint, hl.vault_key ▸ he.vault⟩, (),
      hl.poster ▸ he.posterAta, (), h10, (), he.opened, ?_⟩
    rw [hl.vault_key]
    exact hrest

structure CloseTask.Loaded (s : State) (a : CloseTask) (cfg : EscrowConfig) (t : EscrowTask) :
    Prop where
  caller_signs : a.caller.canSign = true
  config_key : a.config = .configPda
  config : s.config = some cfg
  task : s.tasks.get a.task = some t
  task_key : a.task = .taskPda t.taskId
  vault_key : a.taskVault = .ata a.task cfg.usdcMint
  vault : ∃ m, s.tokens.holder a.taskVault = some (a.task, m)
  posterAta : s.tokens.holder a.posterAta = some (t.poster, cfg.usdcMint)
  poster : a.poster = t.poster

theorem CloseTask.load_eq_ok {a : CloseTask} {t : EscrowTask} :
    a.load s = .ok t ↔ ∃ cfg, a.Loaded s cfg t := by
  simp only [CloseTask.load, seq_eq_ok, signer_eq_ok, loadConfig_eq_ok, loadTask_eq_ok,
    require_eq_ok, loadAta_eq_ok, loadToken_eq_ok, return_eq_ok]
  constructor
  · rintro ⟨_, h1, cfg, ⟨h2, h3⟩, t, ⟨h4, h5⟩, _, ⟨h6, h7⟩, _, h8, _, h9, rfl⟩
    exact ⟨cfg, h1, h2, h3, h4, h5, h6, h7, h8, h9⟩
  · rintro ⟨cfg, h⟩
    exact ⟨(), h.caller_signs, cfg, ⟨h.config_key, h.config⟩, t, ⟨h.task, h.task_key⟩, (),
      ⟨h.vault_key, h.vault⟩, (), h.posterAta, (), h.poster, rfl⟩

theorem requireDeadline_eq_ok {t : EscrowTask} {u : Unit} :
    requireDeadline now t = .ok u ↔ 0 < t.taskDeadlineTs ∧ t.taskDeadlineTs ≤ now := by
  rw [requireDeadline, require_eq_ok]

theorem requireClosable_eq_ok {caller : Pubkey} {t : EscrowTask} {u : Unit} :
    requireClosable now caller t = .ok u ↔
      caller = t.poster ∨ 0 < t.taskDeadlineTs ∧ t.taskDeadlineTs ≤ now := by
  unfold requireClosable
  split_ifs with h
  · simp [h]
  · rw [requireDeadline_eq_ok, or_iff_right h]

/-- The two closing instructions share their accounts and their effect. -/
theorem closing_eq_ok (hs : Sound s) {a : CloseTask} {cfg : EscrowConfig} {t : EscrowTask}
    (hl : a.Loaded s cfg t) (hopen : t.taskStatus = .opened) :
    (∃ cpi, sweepVault s a.task a.taskVault a.posterAta = .ok cpi ∧
      { s with tasks := s.tasks.set a.task (t.setStatus .closed), tokens := cpi.tokens } = s' ∧
        cpi.transfers = out) ↔
      Ended s s' out a.task a.posterAta cfg t (s.tasks.set a.task (t.setStatus .closed)) := by
  obtain ⟨m, hm⟩ := hl.vault
  rw [hl.vault_key]
  exact sweep_then_eq_ok hs hl.config hl.task hopen (loaded_vault hs hl.vault_key hm) hl.posterAta

theorem closeTask_eq_ok (hs : Sound s) {a : CloseTask} :
    closeTask s now a = .ok (s', out) ↔ ∃ cfg t, a.Loaded s cfg t ∧
      (a.caller = t.poster ∨ 0 < t.taskDeadlineTs ∧ t.taskDeadlineTs ≤ now) ∧
      t.activeSlots = 0 ∧
      Ended s s' out a.task a.posterAta cfg t (s.tasks.set a.task (t.setStatus .closed)) := by
  simp only [closeTask, seq_eq_ok, CloseTask.load_eq_ok, requireClosable_eq_ok, require_eq_ok,
    return_eq_ok, Prod.mk.injEq]
  constructor
  · rintro ⟨t, ⟨cfg, hl⟩, _, hwho, _, hopen, _, hact, hrest⟩
    exact ⟨cfg, t, hl, hwho, hact, (closing_eq_ok hs hl hopen).mp hrest⟩
  · rintro ⟨cfg, t, hl, hwho, hact, he⟩
    exact ⟨t, ⟨cfg, hl⟩, (), hwho, (), he.opened, (), hact, (closing_eq_ok hs hl he.opened).mpr he⟩

theorem autoCancelTask_eq_ok (hs : Sound s) {a : AutoCancelTask} :
    autoCancelTask s now a = .ok (s', out) ↔ ∃ cfg t, a.Loaded s cfg t ∧
      (0 < t.taskDeadlineTs ∧ t.taskDeadlineTs ≤ now) ∧ t.slotsEnrolled = 0 ∧
      Ended s s' out a.task a.posterAta cfg t (s.tasks.set a.task (t.setStatus .closed)) := by
  simp only [autoCancelTask, seq_eq_ok, CloseTask.load_eq_ok, requireDeadline_eq_ok,
    require_eq_ok, return_eq_ok, Prod.mk.injEq]
  constructor
  · rintro ⟨t, ⟨cfg, hl⟩, _, hnone, _, hopen, _, hdue, hrest⟩
    exact ⟨cfg, t, hl, hdue, hnone, (closing_eq_ok hs hl hopen).mp hrest⟩
  · rintro ⟨cfg, t, hl, hdue, hnone, he⟩
    exact ⟨t, ⟨cfg, hl⟩, (), hnone, (), he.opened, (), hdue, (closing_eq_ok hs hl he.opened).mpr he⟩

end Instructions

end ClustlyEscrow
