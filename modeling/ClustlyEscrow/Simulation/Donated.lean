import ClustlyEscrow.Effects.Tasks
import ClustlyEscrow.Foundations.Surplus
import ClustlyEscrow.Simulation.Twin

/-!
# States that differ by a donation

Two states with the same records, one of them with more tokens at one address.
Every handler runs on both in lockstep as long as it draws from that address no
more than the poorer state has there. A handler that sweeps the address hands
the difference to the account it sweeps into.
-/
namespace ClustlyEscrow
open Foundations

/-- `s₂` is `s₁` with `d` more tokens at `v`. -/
structure Donated (v : Pubkey) (d : ℕ) (s₁ s₂ : State) : Prop where
  config : s₂.config = s₁.config
  tasks : s₂.tasks = s₁.tasks
  claims : s₂.claims = s₁.claims
  tokens : s₁.tokens.Surplus v d s₂.tokens

/-! ## Token calls -/

section Calls
variable {α : Type} {x y : Except TokenError α} {c c' : Cpi} {v : Pubkey} {d : ℕ}

theorem Cpi.lift_lockstep {R : α → α → Prop} (h : Lockstep R x y) :
    Lockstep R (Cpi.lift x) (Cpi.lift y) := by
  cases h with
  | ok related => exact .ok related
  | error e e' => exact .error _ _

theorem Cpi.transfer_lockstep (h : c.tokens.Surplus v d c'.tokens)
    {authority source dest : Pubkey} {amount : ℕ}
    (hcov : source = v → amount ≤ c.tokens.balance v) :
    Lockstep (fun e e' : Cpi => e.tokens.Surplus v d e'.tokens)
      (c.transfer authority source dest amount) (c'.transfer authority source dest amount) :=
  .seq (lift_lockstep (h.transfer hcov)) fun _ _ _ _ hmoved => .ret hmoved

theorem Cpi.initAta_lockstep (h : c.tokens.Surplus v d c'.tokens) (account mint owner : Pubkey) :
    Lockstep (fun e e' : Cpi => e.tokens.Surplus v d e'.tokens)
      (c.initAta account mint owner) (c'.initAta account mint owner) :=
  .seq_eq (.refl _) fun _ _ _ =>
    .seq (lift_lockstep (h.openAccount _ _ _)) fun _ _ _ _ hopened => .ret hopened

theorem Cpi.initAtaIfNeeded_lockstep (h : c.tokens.Surplus v d c'.tokens)
    (account mint owner : Pubkey) :
    Lockstep (fun e e' : Cpi => e.tokens.Surplus v d e'.tokens)
      (c.initAtaIfNeeded account mint owner) (c'.initAtaIfNeeded account mint owner) := by
  unfold Cpi.initAtaIfNeeded
  rw [h.holder]
  split
  · exact initAta_lockstep h account mint owner
  · exact .seq_eq (.refl _) fun _ _ _ => .seq_eq (.refl _) fun _ _ _ =>
      .seq_eq (.refl _) fun _ _ _ => .ret h

end Calls

section Handlers
variable {s₁ s₁' s₂ s₂' : State} {v k mint owner : Pubkey} {d : ℕ} {now : I64}

/-! ## Constraints -/

theorem Donated.loadConfig_lockstep (h : Donated v d s₁ s₂) :
    Lockstep Eq (loadConfig s₁ k) (loadConfig s₂ k) := by
  unfold loadConfig
  rw [h.config]
  exact .refl _

theorem Donated.loadTask_lockstep (h : Donated v d s₁ s₂) :
    Lockstep Eq (loadTask s₁ k) (loadTask s₂ k) := by
  unfold loadTask
  rw [h.tasks]
  exact .refl _

theorem Donated.loadMint_lockstep (h : Donated v d s₁ s₂) :
    Lockstep Eq (loadMint s₁ k) (loadMint s₂ k) :=
  .require (by rw [h.tokens.mints])

theorem Donated.loadAta_lockstep (h : Donated v d s₁ s₂) :
    Lockstep Eq (loadAta s₁ k mint owner) (loadAta s₂ k mint owner) := by
  unfold loadAta
  rw [h.tokens.holder]
  exact .refl _

theorem Donated.loadToken_lockstep (h : Donated v d s₁ s₂) :
    Lockstep Eq (loadToken s₁ k mint owner) (loadToken s₂ k mint owner) := by
  unfold loadToken
  rw [h.tokens.holder]
  exact .refl _

theorem Donated.loadTokenOfMint_lockstep (h : Donated v d s₁ s₂) :
    Lockstep Eq (loadTokenOfMint s₁ k mint) (loadTokenOfMint s₂ k mint) := by
  unfold loadTokenOfMint
  rw [h.tokens.holder]
  exact .refl _

/-! ## Handlers that draw nothing from the address -/

/-- The results of a handler still differ by the donation only. -/
abbrev Alongside (v : Pubkey) (d : ℕ) (p q : State × List Transfer) : Prop :=
  Donated v d p.1 q.1

theorem Donated.initializeConfig_lockstep (h : Donated v d s₁ s₂) (a : InitializeConfig)
    (admin : Pubkey) (feeBps : U16) :
    Lockstep (Alongside v d) (initializeConfig s₁ a admin feeBps)
      (initializeConfig s₂ a admin feeBps) :=
  .seq_eq (.refl _) fun _ _ _ => .seq_eq h.loadMint_lockstep fun _ _ _ =>
  .seq_eq (.refl _) fun _ _ _ => .seq_eq (.require (by rw [h.config])) fun _ _ _ =>
  .seq (Cpi.initAta_lockstep h.tokens _ _ _) fun _ _ _ _ hcpi =>
  .seq_eq (.refl _) fun _ _ _ => .ret ⟨rfl, h.tasks, h.claims, hcpi⟩

theorem Donated.updateLoad_lockstep (h : Donated v d s₁ s₂) (a : UpdateConfig) :
    Lockstep Eq (a.load s₁) (a.load s₂) :=
  .seq_eq h.loadConfig_lockstep fun _ _ _ => .seq_eq (.refl _) fun _ _ _ =>
  .seq_eq (.refl _) fun _ _ _ => .ret rfl

theorem Donated.updateAdmin_lockstep (h : Donated v d s₁ s₂) (a : UpdateAdmin)
    (newAdmin : Pubkey) :
    Lockstep (Alongside v d) (updateAdmin s₁ a newAdmin) (updateAdmin s₂ a newAdmin) :=
  .seq_eq (h.updateLoad_lockstep a) fun _ _ _ => .ret ⟨rfl, h.tasks, h.claims, h.tokens⟩

theorem Donated.updateFee_lockstep (h : Donated v d s₁ s₂) (a : UpdateFee) (newFeeBps : U16) :
    Lockstep (Alongside v d) (updateFee s₁ a newFeeBps) (updateFee s₂ a newFeeBps) :=
  .seq_eq (h.updateLoad_lockstep a) fun _ _ _ => .seq_eq (.refl _) fun _ _ _ =>
  .ret ⟨rfl, h.tasks, h.claims, h.tokens⟩

theorem Donated.updateMint_lockstep (h : Donated v d s₁ s₂) (a : UpdateMint) :
    Lockstep (Alongside v d) (updateMint s₁ a) (updateMint s₂ a) :=
  .seq_eq (h.updateLoad_lockstep a.toUpdateConfig) fun _ _ _ =>
  .seq_eq h.loadMint_lockstep fun _ _ _ => .ret ⟨rfl, h.tasks, h.claims, h.tokens⟩

theorem Donated.enroll_lockstep (h : Donated v d s₁ s₂) (a : Enroll) (claimId : BitVec 128) :
    Lockstep (Alongside v d) (enroll s₁ now a claimId) (enroll s₂ now a claimId) :=
  .seq_eq (.refl _) fun _ _ _ => .seq_eq h.loadConfig_lockstep fun _ _ _ =>
  .seq_eq h.loadMint_lockstep fun _ _ _ => .seq_eq h.loadTask_lockstep fun _ _ _ =>
  .seq_eq (.refl _) fun _ _ _ => .seq_eq (.require (by rw [h.claims])) fun _ _ _ =>
  .seq (Cpi.initAtaIfNeeded_lockstep h.tokens _ _ _) fun _ _ _ _ hcpi =>
  .seq_eq (.refl _) fun _ _ _ => .seq_eq (.refl _) fun _ _ _ =>
  .seq_eq (.refl _) fun _ _ _ => .seq_eq (.refl _) fun _ _ _ =>
  .ret ⟨h.config, by rw [h.tasks], by rw [h.claims], hcpi⟩

/-- The poster funds a task from an account of its own. -/
theorem Donated.initializeTask_lockstep (h : Donated v d s₁ s₂) {T M : Pubkey}
    (hv : s₁.tokens.holder v = some (T, M)) (hT : T.canSign = false) (a : InitializeTask)
    (taskId : BitVec 128) (bounty : U64) (maxSlots : U16) (claimDeadlineSecs : U32)
    (taskDeadlineTs : I64) :
    Lockstep (Alongside v d)
      (initializeTask s₁ a taskId bounty maxSlots claimDeadlineSecs taskDeadlineTs)
      (initializeTask s₂ a taskId bounty maxSlots claimDeadlineSecs taskDeadlineTs) := by
  refine .seq_eq (.refl _) fun _ hsign _ => .seq_eq h.loadConfig_lockstep fun _ _ _ =>
    .seq_eq h.loadMint_lockstep fun _ _ _ => .seq_eq (.refl _) fun _ _ _ =>
    .seq_eq (.refl _) fun _ _ _ => .seq_eq (.require (by rw [h.tasks])) fun _ _ _ =>
    .seq (Cpi.initAta_lockstep h.tokens _ _ _) fun cpi _ _ _ hcpi =>
    .seq_eq h.loadToken_lockstep fun _ hposter _ => .seq_eq (.refl _) fun _ _ _ =>
    .seq_eq (.refl _) fun _ _ _ => .seq_eq (.refl _) fun _ _ _ => .seq_eq (.refl _) fun _ _ _ =>
    .seq (Cpi.transfer_lockstep hcpi ?_) fun _ _ _ _ hmoved =>
    .ret ⟨h.config, by rw [h.tasks], h.claims, hmoved⟩
  intro hP
  have hne := ne_of_owner (loadToken_eq_ok.mp hposter) hv
    (ne_of_canSign (signer_eq_ok.mp hsign) hT)
  exact absurd hP hne

/-- Fees are withdrawn from the fee vault. -/
theorem Donated.withdrawFees_lockstep (h : Donated v d s₁ s₂) {T M : Pubkey}
    (hv : s₁.tokens.holder v = some (T, M)) (hT : T ≠ .configPda) (a : WithdrawFees)
    (amount : U64) :
    Lockstep (Alongside v d) (withdrawFees s₁ a amount) (withdrawFees s₂ a amount) := by
  refine .seq_eq (.refl _) fun _ _ _ => .seq_eq h.loadConfig_lockstep fun cfg hcfg _ =>
    .seq_eq (.refl _) fun _ _ _ => .seq_eq h.loadAta_lockstep fun _ hfee _ => ?_
  obtain ⟨_, _, hheld⟩ := loadAta_eq_ok.mp hfee
  have hne : a.feeVault ≠ v := by
    apply ne_of_owner hheld hv
    rw [(loadConfig_eq_ok.mp hcfg).1]
    exact hT.symm
  exact .seq_eq h.loadTokenOfMint_lockstep fun _ _ _ => .seq_eq h.loadMint_lockstep fun _ _ _ =>
    .seq_eq (.require (by rw [h.tokens.balance_of_ne hne])) fun _ _ _ =>
    .seq (Cpi.transfer_lockstep h.tokens fun heq => absurd heq hne) fun _ _ _ _ hmoved =>
    .ret ⟨h.config, h.tasks, h.claims, hmoved⟩

/-! ## Handlers that sweep a vault -/

/-- The results of a handler that sweeps the vault of task `U` into `P`. -/
structure Parted (v : Pubkey) (d : ℕ) (s₁ : State) (U P : Pubkey) (p q : State × List Transfer) :
    Prop where
  config : ∃ cfg, s₁.config = some cfg
  kept : ∀ cfg, s₁.config = some cfg → .ata U cfg.usdcMint ≠ v → Donated v d p.1 q.1
  swept : ∀ cfg, s₁.config = some cfg → .ata U cfg.usdcMint = v →
    p.1.tokens.holder v = none ∧ Donated P d p.1 q.1

/-- Sweeping the address moves the difference, sweeping another one does not. -/
theorem Donated.sweepVault_lockstep (h : Donated v d s₁ s₂) {U P o m : Pubkey} (hne : k ≠ P)
    (hk : s₁.tokens.holder k = some (U, m)) (hP : s₁.tokens.holder P = some (o, m)) :
    Lockstep (fun c c' : Cpi => (k ≠ v → c.tokens.Surplus v d c'.tokens) ∧
      (k = v → c.tokens.holder v = none ∧ c.tokens.Surplus P d c'.tokens))
      (sweepVault s₁ U k P) (sweepVault s₂ U k P) := by
  have hk₂ := (h.tokens.holder k).trans hk
  have hP₂ := (h.tokens.holder P).trans hP
  obtain ⟨_, b₁, hmove₁, hclose₁⟩ := Bank.sweep_succeeds hne hk hP
  obtain ⟨_, b₂, hmove₂, hclose₂⟩ := Bank.sweep_succeeds hne hk₂ hP₂
  have hb₁ := Bank.sweep_observes hne hk hmove₁ hclose₁
  have hb₂ := Bank.sweep_observes hne hk₂ hmove₂ hclose₂
  rw [(sweepVault_eq_ok ⟨b₁, _⟩ hne hk hP).mpr ⟨hb₁, rfl⟩,
    (sweepVault_eq_ok ⟨b₂, _⟩ hne hk₂ hP₂).mpr ⟨hb₂, rfl⟩]
  rw [h.tokens.mints, funext h.tokens.holder] at hb₂
  refine .ok ⟨fun hkv => h.tokens.swept_of_ne hkv hb₁ hb₂, ?_⟩
  rintro rfl
  refine ⟨?_, h.tokens.swept hne hb₁ hb₂⟩
  rw [hb₁.holder, Function.update_self]

/-- The tail of the three handlers that end a task. -/
theorem Donated.wind_up (h : Donated v d s₁ s₂) {U P o : Pubkey} {cfg : EscrowConfig}
    {tasks₁ tasks₂ : Store Pubkey EscrowTask} (htasks : tasks₂ = tasks₁)
    (hcfg : s₁.config = some cfg) (hne : .ata U cfg.usdcMint ≠ P)
    (hk : s₁.tokens.holder (.ata U cfg.usdcMint) = some (U, cfg.usdcMint))
    (hP : s₁.tokens.holder P = some (o, cfg.usdcMint)) :
    Lockstep (Parted v d s₁ U P)
      (do
        let cpi ← sweepVault s₁ U (.ata U cfg.usdcMint) P
        return ({ s₁ with tasks := tasks₁, tokens := cpi.tokens }, cpi.transfers))
      (do
        let cpi ← sweepVault s₂ U (.ata U cfg.usdcMint) P
        return ({ s₂ with tasks := tasks₂, tokens := cpi.tokens }, cpi.transfers)) := by
  refine .seq (h.sweepVault_lockstep hne hk hP) fun c c' _ _ hcpi => .ret ⟨⟨cfg, hcfg⟩, ?_, ?_⟩
  · intro cfg' hcfg' hv
    cases hcfg.symm.trans hcfg'
    exact ⟨h.config, htasks, h.claims, hcpi.1 hv⟩
  · intro cfg' hcfg' hv
    cases hcfg.symm.trans hcfg'
    exact ⟨(hcpi.2 hv).1, h.config, htasks, h.claims, (hcpi.2 hv).2⟩

theorem Donated.cancelBeforeEnroll_lockstep (h : Donated v d s₁ s₂) (hs : Sound s₁)
    (a : CancelBeforeEnroll) :
    Lockstep (Parted v d s₁ a.task a.posterAta) (cancelBeforeEnroll s₁ a)
      (cancelBeforeEnroll s₂ a) := by
  refine .seq_eq (.refl _) fun _ _ _ => .seq_eq h.loadConfig_lockstep fun cfg hcfg _ =>
    .seq_eq h.loadTask_lockstep fun t ht _ => .seq_eq (.refl _) fun _ hposter _ =>
    .seq_eq h.loadAta_lockstep fun _ hvault _ => .seq_eq h.loadToken_lockstep fun _ hP _ =>
    .seq_eq (.refl _) fun _ _ _ => .seq_eq (.refl _) fun _ _ _ => ?_
  obtain ⟨hkey, m, hheld⟩ := loadAta_eq_ok.mp hvault
  have hk := loaded_vault hs hkey hheld
  have hP' := loadToken_eq_ok.mp hP
  have hne := vault_ne_posterAta hs (loadTask_eq_ok.mp ht).1 hk
    ((require_eq_ok _ _ _).mp hposter ▸ hP')
  rw [hkey]
  exact h.wind_up (by rw [h.tasks]) (loadConfig_eq_ok.mp hcfg).2 hne hk hP'

theorem Donated.closeLoad_lockstep (h : Donated v d s₁ s₂) (a : CloseTask) :
    Lockstep Eq (a.load s₁) (a.load s₂) :=
  .seq_eq (.refl _) fun _ _ _ => .seq_eq h.loadConfig_lockstep fun _ _ _ =>
  .seq_eq h.loadTask_lockstep fun _ _ _ => .seq_eq h.loadAta_lockstep fun _ _ _ =>
  .seq_eq h.loadToken_lockstep fun _ _ _ => .seq_eq (.refl _) fun _ _ _ => .ret rfl

theorem Donated.close_up (h : Donated v d s₁ s₂) (hs : Sound s₁) {a : CloseTask} {t : EscrowTask}
    (hload : a.load s₁ = .ok t) :
    Lockstep (Parted v d s₁ a.task a.posterAta)
      (do
        let cpi ← sweepVault s₁ a.task a.taskVault a.posterAta
        return ({ s₁ with
          tasks := s₁.tasks.set a.task (t.setStatus .closed), tokens := cpi.tokens },
          cpi.transfers))
      (do
        let cpi ← sweepVault s₂ a.task a.taskVault a.posterAta
        return ({ s₂ with
          tasks := s₂.tasks.set a.task (t.setStatus .closed), tokens := cpi.tokens },
          cpi.transfers)) := by
  obtain ⟨cfg, hl⟩ := CloseTask.load_eq_ok.mp hload
  obtain ⟨m, hheld⟩ := hl.vault
  have hk := loaded_vault hs hl.vault_key hheld
  have hne := vault_ne_posterAta hs hl.task hk hl.posterAta
  rw [hl.vault_key]
  exact h.wind_up (by rw [h.tasks]) hl.config hne hk hl.posterAta

theorem Donated.closeTask_lockstep (h : Donated v d s₁ s₂) (hs : Sound s₁) (a : CloseTask) :
    Lockstep (Parted v d s₁ a.task a.posterAta) (closeTask s₁ now a) (closeTask s₂ now a) :=
  .seq_eq (h.closeLoad_lockstep a) fun _ hload _ => .seq_eq (.refl _) fun _ _ _ =>
  .seq_eq (.refl _) fun _ _ _ => .seq_eq (.refl _) fun _ _ _ => h.close_up hs hload

theorem Donated.autoCancelTask_lockstep (h : Donated v d s₁ s₂) (hs : Sound s₁)
    (a : AutoCancelTask) :
    Lockstep (Parted v d s₁ a.task a.posterAta) (autoCancelTask s₁ now a)
      (autoCancelTask s₂ now a) :=
  .seq_eq (h.closeLoad_lockstep a) fun _ hload _ => .seq_eq (.refl _) fun _ _ _ =>
  .seq_eq (.refl _) fun _ _ _ => .seq_eq (.refl _) fun _ _ _ => h.close_up hs hload

end Handlers
end ClustlyEscrow
