import ClustlyEscrow.Guarantees.Isolation

/-!
# Who can move money and change the config

A vault of an open task is debited by its poster, by the admin ruling on a
dispute, or by anybody once a window or the deadline has passed; and the tokens
reach the claimer, the fee vault or the poster. The fee vault pays the admin
only, and the config follows its own admin.
-/
namespace ClustlyEscrow
open Foundations

/-- The grounds on which the vault of task `T` may be debited. -/
inductive MayDebit (s : State) (cfg : EscrowConfig) (T : Pubkey) (t : EscrowTask) (l : Label) :
    Prop
  | poster (signed : l.signedBy? = some t.poster)
  | admin {now : I64} {a : ResolveDispute} {favor : DisputeFavor} {r : EscrowClaim}
      (step : l = .instr now (.resolveDispute a favor)) (signed : l.signedBy? = some cfg.admin)
      (claim : s.claims.get a.claim = some r) (task : r.task = T)
      (disputed : r.status = ClaimStatus.disputed.toU8)
  | reviewLapsed {now : I64} {a : AutoApprove} {r : EscrowClaim}
      (step : l = .instr now (.autoApprove a)) (claim : s.claims.get a.claim = some r)
      (task : r.task = T) (submitted : r.status = ClaimStatus.submitted.toU8)
      (window : autoApproveWindowSecs ≤ now.val - r.submittedAt)
  | disputeLapsed {now : I64} {a : AutoResolveDispute} {r : EscrowClaim}
      (step : l = .instr now (.autoResolveDispute a)) (claim : s.claims.get a.claim = some r)
      (task : r.task = T) (disputed : r.status = ClaimStatus.disputed.toU8)
      (window : autoDisputeWindowSecs ≤ now.val - r.disputedAt)
  | deadline {now : I64} {a : CloseTask} (names : a.task = T)
      (step : l = .instr now (.closeTask a) ∨ l = .instr now (.autoCancelTask a))
      (due : 0 < t.taskDeadlineTs ∧ t.taskDeadlineTs ≤ now)
      (settled : ∀ c r, s.claims.get c = some r → r.task = T → r.terminal = true)

/-- Where tokens of the vault of task `T` may go. -/
def Payee (s : State) (cfg : EscrowConfig) (T : Pubkey) (t : EscrowTask) (l : Label)
    (k : Pubkey) : Prop :=
  (∃ c r, l.claim? = some c ∧ s.claims.get c = some r ∧ r.task = T ∧
      k = .ata r.claimer cfg.usdcMint) ∨
    k = .ata .configPda cfg.usdcMint ∨ ∃ m, s.tokens.holder k = some (t.poster, m)

section Grounds
variable {s s' : State} {h : History} {l : Label} {out : List Transfer} {T c : Pubkey}
  {cfg : EscrowConfig} {t : EscrowTask} {r r' : EscrowClaim}

theorem PayGround.mayDebit {outcome : ClaimStatus} (hg : PayGround cfg t r l outcome)
    (hl : l.claim? = some c) (hc : s.claims.get c = some r) : MayDebit s cfg r.task t l := by
  cases hg with
  | approve hposter => exact .poster (congrArg some hposter.symm)
  | autoApprove _ hst hel =>
    cases hl
    exact .reviewLapsed rfl hc rfl hst hel.window
  | resolve hadmin hst =>
    cases hl
    exact .admin rfl (congrArg some hadmin.symm) hc rfl hst
  | autoResolve hst hel =>
    cases hl
    exact .disputeLapsed rfl hc rfl hst hel.window

theorem RefundGround.mayDebit (hg : RefundGround cfg t r l r') (hl : l.claim? = some c)
    (hc : s.claims.get c = some r) : MayDebit s cfg r.task t l := by
  cases hg with
  | reject hposter => exact .poster (congrArg some hposter.symm)
  | resolve hadmin hst =>
    cases hl
    exact .admin rfl (congrArg some hadmin.symm) hc rfl hst

theorem EndGround.mayDebit {tasks' : Store Pubkey EscrowTask} (hr : Reaches h s)
    (ht : s.tasks.get T = some t) (hg : EndGround s t T l tasks') (hl : l.task? = some T) :
    MayDebit s cfg T t l := by
  have hsettled (c : Pubkey) (r : EscrowClaim) (hc : s.claims.get c = some r)
      (hT : r.task = T) : r.terminal = true :=
    terminal_iff.mpr (hr.settled_of_end ht hg.activeSlots hc hT)
  cases hg with
  | cancel hposter => exact .poster (congrArg some hposter.symm)
  | close hwho =>
    rcases hwho with hposter | hdue
    · exact .poster (congrArg some hposter)
    · exact .deadline (Option.some.inj hl) (.inl rfl) hdue hsettled
  | autoCancel hdue => exact .deadline (Option.some.inj hl) (.inr rfl) hdue hsettled

end Grounds

section Authority
variable {s s' : State} {h : History} {l : Label} {out : List Transfer}

/-- A debit of the vault of an open task: its ground, its amount and its payees. -/
structure Debit (s s' : State) (out : List Transfer) (l : Label) (cfg : EscrowConfig)
    (T : Pubkey) (t : EscrowTask) : Prop where
  ground : MayDebit s cfg T t l
  amount : s.tokens.balance (.ata T cfg.usdcMint) = s'.tokens.balance (.ata T cfg.usdcMint) +
    (out.map (Transfer.debit (.ata T cfg.usdcMint))).sum
  payees : ∀ x ∈ out, x.source = .ata T cfg.usdcMint → Payee s cfg T t l x.dest

theorem Reaches.debit (hr : Reaches h s) (hstep : Accepts exec s l out s') {T : Pubkey}
    {t : EscrowTask} {cfg : EscrowConfig} (ht : s.tasks.get T = some t)
    (hcfg : s.config = some cfg)
    (hdec : s'.tokens.balance (.ata T cfg.usdcMint) < s.tokens.balance (.ata T cfg.usdcMint)) :
    Debit s s' out l cfg T t := by
  have hs := hr.sound
  have hok := hs.task T t ht
  have hhold := hs.vault_holder (m := cfg.usdcMint) hok.canSign (by omega)
  have hmove := hr.move hstep
  have hl : l.task? = some T := by
    by_contra hne
    have hb := (hmove.foreign hs hok.canSign hok.ne_config hhold hne).balance
    omega
  cases hmove.on_task hl ht with
  | ended hg he =>
    cases he.config.symm.trans hcfg
    obtain ⟨hz, hout⟩ := he.debited hs
    refine ⟨hg.mayDebit hr ht hl, by omega, fun x hx _ => .inr (.inr ⟨cfg.usdcMint, ?_⟩)⟩
    rw [he.transfers] at hx
    rw [(mem_transferList hx).2]
    exact he.posterAta
  | enrolled _ he =>
    have hb := (he.tokens'.kept hhold).2
    omega
  | advanced _ _ _ he =>
    rw [he.post] at hdec
    exact absurd hdec (lt_irrefl _)
  | paid htask hclaim hg he =>
    subst htask
    cases he.config.symm.trans hcfg
    obtain ⟨hamount, hout⟩ := he.debited hs
    refine ⟨hg.mayDebit hclaim he.claim, by omega, fun x hx _ => ?_⟩
    rw [he.transfers, List.mem_append] at hx
    rcases hx with hx | hx
    · exact .inl ⟨_, _, hclaim, he.claim, rfl, (mem_transferList hx).2⟩
    · exact .inr (.inl (mem_transferList hx).2)
  | refunded htask hclaim hg he =>
    subst htask
    cases he.config.symm.trans hcfg
    obtain ⟨hamount, hout⟩ := he.debited hs
    refine ⟨hg.mayDebit hclaim he.claim, by omega, fun x hx _ => .inr (.inr ⟨cfg.usdcMint, ?_⟩)⟩
    rw [he.transfers, List.mem_singleton] at hx
    subst x
    exact he.posterAta

/-- Only a withdrawal of the admin takes tokens from a fee vault. -/
theorem Move.fee_vault (hmove : Move s s' out l) (hs : Sound s) {m : Pubkey}
    (hdec : s'.tokens.balance (.ata .configPda m) < s.tokens.balance (.ata .configPda m)) :
    ∃ now a amount cfg, l = .instr now (.withdrawFees a amount) ∧ s.config = some cfg ∧
      l.signedBy? = some cfg.admin := by
  have hhold := hs.vault_holder (T := .configPda) (m := m) rfl (by omega)
  have kept (hb : s'.tokens.balance (.ata .configPda m) = s.tokens.balance (.ata .configPda m)) :
      ∃ now a amount cfg, l = .instr now (.withdrawFees a amount) ∧ s.config = some cfg ∧
        l.signedBy? = some cfg.admin := by omega
  have hposter {T : Pubkey} {t : EscrowTask} (ht : s.tasks.get T = some t) :
      Pubkey.configPda ≠ t.poster :=
    (ne_of_canSign (hs.task T t ht).poster rfl).symm
  have htask {T : Pubkey} {t : EscrowTask} (ht : s.tasks.get T = some t) :
      Pubkey.configPda ≠ T :=
    (hs.task T t ht).ne_config.symm
  cases hmove with
  | configCreated he => exact kept (opened_of_ne he.tokens' hhold).2
  | reconfigured _ _ _ _ he => exact kept (by rw [he.post])
  | withdrawn he => exact ⟨_, _, _, _, rfl, he.config, congrArg some he.admin.symm⟩
  | funded he =>
    exact kept (he.balance_of_ne (ne_of_fresh hhold he.vault_fresh)
      (ne_of_owner hhold he.posterAta (ne_of_canSign he.poster_signs rfl).symm)).2.1
  | ended _ _ _ he =>
    exact kept (he.balance_of_ne (ne_of_owner hhold he.vault (htask he.task))
      (ne_of_owner hhold he.posterAta (hposter he.task))).2.1
  | enrolled he => exact kept (he.tokens'.kept hhold).2
  | advanced _ _ _ _ he => exact kept (by rw [he.post])
  | paid _ _ _ he =>
    have hv := ne_of_owner hhold he.ready.vault (htask he.task)
    have hw := ne_of_owner hhold he.ready.claimerAta
      (ne_of_canSign (hs.claim _ _ he.claim).claimer rfl).symm
    have hb := he.tokens'.balance (.ata .configPda m)
    rw [paidBalance, if_neg hv, if_neg hw] at hb
    split_ifs at hb <;> omega
  | refunded _ _ _ he =>
    exact kept (he.balance_of_ne (ne_of_owner hhold he.vault (htask he.task))
      (ne_of_owner hhold he.posterAta (hposter he.task))).1
  | @outside op tokens he hpost _ =>
    have hb := (he.kept _ _ _ rfl hhold).2
    have htokens : s'.tokens = tokens := by rw [hpost]
    rw [htokens] at hdec
    omega

/-- Whoever signs, whatever accounts are passed: debits of an open vault, debits
of a fee vault and changes of the config all have their ground. -/
theorem money_and_config_authority (hr : Reaches h s) (hstep : Accepts exec s l out s') :
    (∀ T t cfg, s.tasks.get T = some t → t.taskStatus = .opened → s.config = some cfg →
      s'.tokens.balance (.ata T cfg.usdcMint) < s.tokens.balance (.ata T cfg.usdcMint) →
      Debit s s' out l cfg T t) ∧
    (∀ m, s'.tokens.balance (.ata .configPda m) < s.tokens.balance (.ata .configPda m) →
      ∃ now a amount cfg, l = .instr now (.withdrawFees a amount) ∧ s.config = some cfg ∧
        l.signedBy? = some cfg.admin) ∧
    ∀ cfg, s.config = some cfg → ∃ cfg', s'.config = some cfg' ∧
      (cfg' ≠ cfg → l.signedBy? = some cfg.admin) := by
  refine ⟨fun T t cfg ht _ hcfg hdec => hr.debit hstep ht hcfg hdec,
    fun m hdec => (hr.move hstep).fee_vault hr.sound hdec, fun cfg hcfg => ?_⟩
  rcases (hr.move hstep).config_cases with
    hsame | ⟨_, hnone, _⟩ | ⟨p, c, c', hsign, hadm, hc, hc', _⟩
  · exact ⟨cfg, hsame.trans hcfg, fun hne => absurd rfl hne⟩
  · rw [hnone] at hcfg
    cases hcfg
  · rw [hcfg, Option.some.injEq] at hc
    subst c
    exact ⟨c', hc', fun _ => hadm ▸ hsign⟩

end Authority

open Scenario in
theorem money_and_config_authority_close : ∃ out s',
    Accepts exec (played closedTask.dropLast).2 (closes (clock 6000) stranger usdc) out s' ∧
      Debit (played closedTask.dropLast).2 s' out (closes (clock 6000) stranger usdc)
        ⟨admin, usdc, 400⟩ job ⟨0, poster, 10000, 3, 2, 2, 0, 0, 5000, 3600⟩ := by
  obtain ⟨out, s', hstep, hdec⟩ := Accepts.of_check exec
    (played closedTask.dropLast).2 (closes (clock 6000) stranger usdc)
    (fun s' _ => decide (s'.tokens.balance (.ata job usdc) <
      (played closedTask.dropLast).2.tokens.balance (.ata job usdc))) (by decide +kernel)
  exact ⟨out, s', hstep, (money_and_config_authority (played_reaches closedTask.dropLast) hstep).1
    job _ ⟨admin, usdc, 400⟩ (by decide +kernel) rfl (by decide +kernel) (of_decide_eq_true hdec)⟩

end ClustlyEscrow
