import ClustlyEscrow.Abstract.Pot
import ClustlyEscrow.Effects.Holders
import ClustlyEscrow.Effects.Vault
import ClustlyEscrow.Invariants.Book

/-!
# The vault of an open task is a pot

The history of a run since a task was last funded, together with its record and
its vault, forms a pot. While the mint stays the one the task was funded in,
every step of the program and of the outside is one step of that pot.
-/
namespace ClustlyEscrow
open Foundations

/-! ## Reading a history -/

/-- The mint in which a step funds task `T`, if it does. -/
def Label.fundsIn? (T : Pubkey) : Label → Option Pubkey
  | .instr _ (.initializeTask a _ _ _ _ _) => if a.task = T then some a.usdcMint else none
  | _ => none

/-- The steps since task `T` was last funded. -/
def epoch (T : Pubkey) (h : History) : History :=
  h.takeWhile fun e => (e.label.fundsIn? T).isNone

/-- The mint in which task `T` was last funded. -/
def fundingMint (T : Pubkey) (h : History) : Option Pubkey :=
  h.findSome? fun e => e.label.fundsIn? T

/-- Everything that was put into an account. -/
def deposits (k : Pubkey) (h : History) : ℕ :=
  (h.map fun e => creditOf k e.output e.label).sum

/-- What one event pays out of `k` into accounts of `owner`. -/
def receiptOf (k owner : Pubkey) (e : EscrowEvent) : ℕ :=
  (e.output.map fun x => if x.source = k ∧
    (e.pre.tokens.holder x.dest).map Prod.fst = some owner then x.amount else 0).sum

def receipts (k owner : Pubkey) (h : History) : ℕ := (h.map (receiptOf k owner)).sum

section Reading
variable {T M k owner : Pubkey} {e : EscrowEvent} {h : History}

theorem epoch_cons_of_none (he : e.label.fundsIn? T = none) :
    epoch T (e :: h) = e :: epoch T h := by
  simp [epoch, he]

theorem epoch_cons_of_some (he : e.label.fundsIn? T = some M) : epoch T (e :: h) = [] := by
  simp [epoch, he]

theorem fundingMint_cons_of_none (he : e.label.fundsIn? T = none) :
    fundingMint T (e :: h) = fundingMint T h := by
  simp [fundingMint, he]

theorem fundingMint_cons_of_some (he : e.label.fundsIn? T = some M) :
    fundingMint T (e :: h) = some M := by
  simp [fundingMint, he]

theorem deposits_cons : deposits k (e :: h) = creditOf k e.output e.label + deposits k h := by
  simp [deposits]

theorem receipts_cons : receipts k owner (e :: h) = receiptOf k owner e + receipts k owner h := by
  simp [receipts]

/-- A step that pays nothing out of an account adds nothing to its receipts. -/
theorem receiptOf_of_source_ne (hsrc : ∀ x ∈ e.output, x.source ≠ k) : receiptOf k owner e = 0 := by
  unfold receiptOf
  apply List.sum_eq_zero
  intro n hn
  obtain ⟨x, hx, rfl⟩ := List.mem_map.mp hn
  rw [if_neg (fun hand => hsrc x hx hand.1)]

end Reading

/-- The step is no `update_mint` while some task is open. -/
def MintSteady (e : EscrowEvent) : Prop :=
  e.label.updatesMint = true → ∀ T t, e.pre.tasks.get T = some t → t.taskStatus ≠ .opened

theorem Label.updatesMint_eq_false {l : Label} (hne : ∀ now a, l ≠ .instr now (.updateMint a)) :
    l.updatesMint = false := by
  cases l with
  | token => rfl
  | instr now ix =>
    cases ix
    case updateMint a => exact absurd rfl (hne now a)
    all_goals rfl

theorem MintSteady.of_no_update {h : History} (hno : ∀ e ∈ h, e.label.updatesMint = false) :
    ∀ e ∈ h, MintSteady e := by
  intro e he hup
  rw [hno e he] at hup
  cases hup

section Step
variable {s s' : State} {out : List Transfer} {l : Label} {h : History} {T : Pubkey}

/-- Only `initialize_task` funds a task, under a fresh address and in the configured mint. -/
theorem Move.funds (hmove : Move s s' out l) {M : Pubkey} (hl : l.fundsIn? T = some M) :
    ∃ a cfg t, a.task = T ∧ cfg.usdcMint = M ∧ Funded s s' out a cfg t ∧
      t.taskStatus = .opened ∧ t.slotsApproved = 0 ∧ t.slotsRefunded = 0 := by
  cases hmove with
  | configCreated | withdrawn | enrolled | outside => cases hl
  | reconfigured _ _ _ hg => cases hg <;> cases hl
  | ended _ _ hg => cases hg <;> cases hl
  | advanced _ _ _ hg => cases hg <;> cases hl
  | paid _ _ hg => cases hg <;> cases hl
  | refunded _ _ hg => cases hg <;> cases hl
  | @funded _ a _ _ _ _ _ cfg he =>
    simp only [Label.fundsIn?] at hl
    split_ifs at hl with hT
    rw [Option.some.injEq, he.mint] at hl
    exact ⟨a, cfg, _, hT, hl, he, rfl, rfl, rfl⟩

/-- A task that a step does not fund was there before. -/
theorem Move.task_existed (hmove : Move s s' out l) (hl : l.fundsIn? T = none) {t' : EscrowTask}
    (ht' : s'.tasks.get T = some t') : ∃ t, s.tasks.get T = some t := by
  by_cases hname : l.task? = some T
  swap
  · exact ⟨t', hmove.task_frame hname ▸ ht'⟩
  cases ht : s.tasks.get T with
  | some t => exact ⟨t, rfl⟩
  | none =>
    obtain ⟨_, a, _, _, _, _, _, _, rfl, rfl, _⟩ := hmove.funded_of_none hname ht
    simp [Label.fundsIn?] at hl

/-- The configured mint only changes by `update_mint`. -/
theorem Move.config_mint_kept (hmove : Move s s' out l) (hno : l.updatesMint = false)
    {cfg : EscrowConfig} (hcfg : s.config = some cfg) :
    ∃ cfg', s'.config = some cfg' ∧ cfg'.usdcMint = cfg.usdcMint := by
  rcases hmove.config_cases with hsame | ⟨_, hnone, _⟩ | ⟨_, c, c', _, _, hc, hc', hg⟩
  · exact ⟨cfg, hsame.trans hcfg, rfl⟩
  · rw [hnone] at hcfg
    cases hcfg
  · cases hcfg.symm.trans hc
    refine ⟨c', hc', ?_⟩
    cases hg with
    | admin | fee => rfl
    | mint => cases hno

/-- While a task is open and the step is steady, the mint of the config stays. -/
theorem Move.mint_kept (hmove : Move s s' out l) (hsteady : MintSteady ⟨l, s, s', out⟩)
    {cfg : EscrowConfig} {t : EscrowTask} (hcfg : s.config = some cfg)
    (ht : s.tasks.get T = some t) (hopen : t.taskStatus = .opened) :
    ∃ cfg', s'.config = some cfg' ∧ cfg'.usdcMint = cfg.usdcMint := by
  apply hmove.config_mint_kept _ hcfg
  by_contra hup
  exact hsteady (Bool.not_eq_false _ ▸ hup) T t ht hopen

/-- A config comes from nothing only by its creation. -/
theorem Move.config_created (hmove : Move s s' out l) {cfg : EscrowConfig}
    (hnone : s.config = none) (hcfg' : s'.config = some cfg) : ConfigCreated s s' out cfg := by
  have kept {α : Prop} (hsame : s'.config = s.config) : α := by
    rw [hsame, hnone] at hcfg'
    cases hcfg'
  cases hmove with
  | configCreated he =>
    cases he.config'.symm.trans hcfg'
    exact he
  | reconfigured _ _ _ _ he => cases hnone.symm.trans he.config
  | withdrawn he => exact kept he.config'
  | funded he => exact kept he.config'
  | ended _ _ _ he => exact kept he.config'
  | enrolled he => exact kept he.config'
  | advanced _ _ _ _ he => exact kept (by rw [he.post])
  | paid _ _ _ he => exact kept he.config'
  | refunded _ _ _ he => exact kept he.config'
  | outside _ hpost => exact kept (by rw [hpost])

/-- While the mint stays, the fee vault that was created with the config is there. -/
theorem Reaches.fee_vault (hr : Reaches h s) (hno : ∀ e ∈ h, e.label.updatesMint = false) :
    ∀ cfg, s.config = some cfg →
      s.tokens.holder (.ata .configPda cfg.usdcMint) = some (.configPda, cfg.usdcMint) := by
  refine hr.history_invariant_of (P := fun e => e.label.updatesMint = false)
    (I := fun _ s => ∀ cfg, s.config = some cfg →
      s.tokens.holder (.ata .configPda cfg.usdcMint) = some (.configPda, cfg.usdcMint))
    (by simp [State.genesis]) ?_ hno
  intro h s l out s' hrun _ hmint ih hstep cfg' hcfg'
  have hs := Reaches.sound hrun
  have hmove := move_of_exec hs hstep
  cases hcfg : s.config with
  | some cfg =>
    obtain ⟨cfg₁, hcfg₁, hsame⟩ := hmove.config_mint_kept hmint hcfg
    cases hcfg₁.symm.trans hcfg'
    rw [hsame]
    exact holder_kept hs hstep (ih cfg hcfg) (hmove.ends_ne_config hs) fun hsign => by cases hsign
  | none =>
    have he := hmove.config_created hcfg hcfg'
    obtain ⟨_, _, _, hobs⟩ := Bank.openAccount_eq_ok.mp he.tokens'
    rw [hobs.holder, Function.update_self]

end Step

/-! ## Poster and claimer -/

section Parties
variable {s s' : State} {out : List Transfer} {l : Label} {h : History}

theorem AdvanceGround.claimer_eq {t : EscrowTask} {r r' : EscrowClaim}
    (hg : AdvanceGround t r l r') : r'.claimer = r.claimer := by
  cases hg <;> rfl

theorem RefundGround.claimer_eq {cfg : EscrowConfig} {t : EscrowTask} {r r' : EscrowClaim}
    (hg : RefundGround cfg t r l r') : r'.claimer = r.claimer := by
  cases hg <;> rfl

/-- A claim is new and of a stranger, or it was there before with the same claimer. -/
theorem Move.claim_origin (hmove : Move s s' out l) {c : Pubkey} {r' : EscrowClaim}
    (hc' : s'.claims.get c = some r') :
    (∃ t, s.tasks.get r'.task = some t ∧ r'.claimer ≠ t.poster) ∨
      ∃ r, s.claims.get c = some r ∧ r'.task = r.task ∧ r'.claimer = r.claimer := by
  by_cases hl : l.claim? = some c
  · cases hmove.touch hl with
    | enrolled _ hpost he =>
      cases hpost.symm.trans hc'
      exact .inl ⟨_, he.task, he.stranger⟩
    | advanced _ hpre hpost hg =>
      cases hpost.symm.trans hc'
      exact .inr ⟨_, hpre, hg.task_eq, hg.claimer_eq⟩
    | paid _ hpre hpost =>
      cases hpost.symm.trans hc'
      exact .inr ⟨_, hpre, rfl, rfl⟩
    | refunded _ hpre hpost hg =>
      cases hpost.symm.trans hc'
      exact .inr ⟨_, hpre, hg.task_eq, hg.claimer_eq⟩
  · exact .inr ⟨r', hmove.claim_frame hl ▸ hc', rfl, rfl⟩

/-- Nobody works on a task of their own. -/
theorem Reaches.not_self (hr : Reaches h s) : ∀ c r t, s.claims.get c = some r →
    s.tasks.get r.task = some t → r.claimer ≠ t.poster := by
  apply hr.history_invariant (I := fun _ s => ∀ c r t, s.claims.get c = some r →
    s.tasks.get r.task = some t → r.claimer ≠ t.poster) (by simp [State.genesis])
  intro h s l out s' hrun ih hstep c r' t' hc' ht'
  have hmove := Reaches.move hrun hstep
  rcases hmove.claim_origin hc' with ⟨t, ht, hne⟩ | ⟨r, hc, htask, hclaimer⟩
  · rw [(hmove.terms ht ht').poster]
    exact hne
  · obtain ⟨t, ht⟩ := Reaches.parent hrun hc
    rw [htask] at ht'
    rw [hclaimer, (hmove.terms ht ht').poster]
    exact ih c r t hc ht

/-- A live claim stands for a slot that is still free to settle. -/
theorem Reaches.free_slot (hr : Reaches h s) {c : Pubkey} {r : EscrowClaim} {t : EscrowTask}
    (hc : s.claims.get c = some r) (hl : phaseOf r.status = .live)
    (ht : s.tasks.get r.task = some t) : t.slotsApproved + t.slotsRefunded < t.maxSlots := by
  obtain ⟨hactive, _, hwithin⟩ := hr.activeSlots_eq ht
  have hpos := s.claims.count_pos hc (fun q => q.task = r.task ∧ phaseOf q.status = .live) ⟨rfl, hl⟩
  unfold EscrowTask.activeSlots at hactive
  omega

end Parties

/-! ## The pot of an open task -/

def potOf (h : History) (s : State) (T : Pubkey) (t : EscrowTask) (mint : Pubkey) : Pot where
  bounty := t.bounty
  slots := t.maxSlots
  paid := t.slotsApproved
  refunded := t.slotsRefunded
  held := s.tokens.balance (.ata T mint)
  donated := deposits (.ata T mint) (epoch T h)
  returned := receipts (.ata T mint) t.poster (epoch T h)

structure Ledger (h : History) (s : State) (T : Pubkey) (t : EscrowTask) (cfg : EscrowConfig) :
    Prop where
  config : s.config = some cfg
  mint : fundingMint T h = some cfg.usdcMint
  vault : s.tokens.holder (.ata T cfg.usdcMint) = some (T, cfg.usdcMint)
  pot : Relation.ReflTransGen Pot.Step (Pot.funded t.bounty t.maxSlots)
    (potOf h s T t cfg.usdcMint)

section Pot
variable {s s' : State} {out : List Transfer} {l : Label} {h : History} {T : Pubkey}
  {t t' : EscrowTask} {cfg : EscrowConfig}

/-- Funding a task starts its pot. -/
theorem Funded.ledger {a : InitializeTask} (he : Funded s s' out a cfg t)
    (hl : l.fundsIn? a.task = some cfg.usdcMint) (ha : t.slotsApproved = 0)
    (hr : t.slotsRefunded = 0) : Ledger (⟨l, s, s', out⟩ :: h) s' a.task t cfg := by
  have hPv : a.posterAta ≠ a.taskVault := ne_of_fresh he.posterAta he.vault_fresh
  have hbal : s'.tokens.balance (.ata a.task cfg.usdcMint) = t.bounty * t.maxSlots := by
    rw [← he.vault_key, he.tokens'.balance]
    simp [Bank.movedBalance, hPv, Ne.symm hPv, s.tokens.balance_of_no_holder he.vault_fresh]
  refine ⟨he.config'.trans he.config, fundingMint_cons_of_some hl, ?_, ?_⟩
  · rw [← he.vault_key, he.tokens'.holder, Function.update_self]
  · have hpot : potOf (⟨l, s, s', out⟩ :: h) s' a.task t cfg.usdcMint =
        Pot.funded t.bounty t.maxSlots := by
      simp only [potOf, epoch_cons_of_some (e := ⟨l, s, s', out⟩) hl, hbal, ha, hr, deposits,
        receipts, List.map_nil, List.sum_nil, Pot.funded]
    rw [hpot]

/-- A step that only adds to the vault is a donation to the pot. -/
theorem potOf_donate {m : Pubkey} (hl : l.fundsIn? T = none) (hb : t'.bounty = t.bounty)
    (hm : t'.maxSlots = t.maxSlots) (hp : t'.poster = t.poster)
    (ha : t'.slotsApproved = t.slotsApproved) (hr : t'.slotsRefunded = t.slotsRefunded)
    (hbal : s'.tokens.balance (.ata T m) =
      s.tokens.balance (.ata T m) + creditOf (.ata T m) out l)
    (hsrc : ∀ x ∈ out, x.source ≠ .ata T m) :
    Pot.Step (potOf h s T t m) (potOf (⟨l, s, s', out⟩ :: h) s' T t' m) := by
  have hpot : potOf (⟨l, s, s', out⟩ :: h) s' T t' m = { potOf h s T t m with
      held := (potOf h s T t m).held + creditOf (.ata T m) out l
      donated := (potOf h s T t m).donated + creditOf (.ata T m) out l } := by
    simp only [potOf, epoch_cons_of_none (e := ⟨l, s, s', out⟩) hl, hbal, hb, hm, hp, ha, hr,
      deposits_cons, receipts_cons, receiptOf_of_source_ne (e := ⟨l, s, s', out⟩) hsrc,
      Nat.zero_add, Nat.add_comm (deposits _ _)]
  rw [hpot]
  exact .donate _

/-- The tokens of a payout reach nobody who is the poster. -/
theorem Paid.receipt (hrun : Reaches h s) {c : Pubkey} {r : EscrowClaim} {outcome : ClaimStatus}
    (he : Paid s s' out c cfg t r outcome) :
    receiptOf (.ata r.task cfg.usdcMint) t.poster ⟨l, s, s', out⟩ = 0 := by
  have hposter := (hrun.sound.task _ _ he.task).poster
  unfold receiptOf
  apply List.sum_eq_zero
  intro n hn
  obtain ⟨x, hx, rfl⟩ := List.mem_map.mp hn
  apply if_neg
  intro hand
  rw [he.transfers, List.mem_append] at hx
  rcases hx with hx | hx
  · rw [(mem_transferList hx).2, he.ready.claimerAta, Option.map_some, Option.some.injEq] at hand
    exact hrun.not_self c r t he.claim he.task hand.2
  · rw [(mem_transferList hx).2, he.ready.feeVault, Option.map_some, Option.some.injEq] at hand
    exact ne_of_canSign hposter rfl hand.2.symm

theorem Paid.pot_step (hrun : Reaches h s) {c : Pubkey} {r : EscrowClaim} {outcome : ClaimStatus}
    (he : Paid s s' out c cfg t r outcome) (hg : PayGround cfg t r l outcome)
    (htask : l.task? = some r.task) (hl : l.fundsIn? r.task = none)
    (ha : t'.slotsApproved = t.slotsApproved + 1) (hr : t'.slotsRefunded = t.slotsRefunded)
    (hterms : t.SameTerms t') :
    Pot.Step (potOf h s r.task t cfg.usdcMint)
      (potOf (⟨l, s, s', out⟩ :: h) s' r.task t' cfg.usdcMint) := by
  have hbal := (he.debited hrun.sound).1
  obtain ⟨hva, hvf, _⟩ := vaults_ne hrun.sound he.task he.claim cfg.usdcMint
  have hcredit : creditOf (.ata r.task cfg.usdcMint) out l = 0 := by
    rw [creditOf_of_task htask, he.transfers, List.map_append, List.sum_append,
      credit_transferList hva, credit_transferList hvf]
  have hpot : potOf (⟨l, s, s', out⟩ :: h) s' r.task t' cfg.usdcMint =
      { potOf h s r.task t cfg.usdcMint with
        paid := (potOf h s r.task t cfg.usdcMint).paid + 1
        held := (potOf h s r.task t cfg.usdcMint).held -
          (potOf h s r.task t cfg.usdcMint).bounty } := by
    simp only [potOf, epoch_cons_of_none (e := ⟨l, s, s', out⟩) hl, hbal, Nat.add_sub_cancel,
      hterms.bounty, hterms.maxSlots, hterms.poster, ha, hr, deposits_cons, receipts_cons, hcredit,
      he.receipt hrun, Nat.zero_add]
  rw [hpot]
  exact .pay (hrun.free_slot he.claim hg.live he.task)

theorem Refunded.pot_step (hrun : Reaches h s) {c P : Pubkey} {r r' : EscrowClaim}
    (he : Refunded s s' out c P cfg t r r') (hg : RefundGround cfg t r l r')
    (htask : l.task? = some r.task) (hl : l.fundsIn? r.task = none)
    (ha : t'.slotsApproved = t.slotsApproved) (hr : t'.slotsRefunded = t.slotsRefunded + 1)
    (hterms : t.SameTerms t') :
    Pot.Step (potOf h s r.task t cfg.usdcMint)
      (potOf (⟨l, s, s', out⟩ :: h) s' r.task t' cfg.usdcMint) := by
  have hbal := (he.debited hrun.sound).1
  have hne := vault_ne_posterAta hrun.sound he.task he.vault he.posterAta
  have hcredit : creditOf (.ata r.task cfg.usdcMint) out l = 0 := by
    rw [creditOf_of_task htask, he.transfers, List.map_singleton, List.sum_singleton,
      credit_of_ne hne]
  have hreceipt : receiptOf (.ata r.task cfg.usdcMint) t.poster ⟨l, s, s', out⟩ = t.bounty := by
    simp [receiptOf, he.transfers, he.posterAta]
  have hpot : potOf (⟨l, s, s', out⟩ :: h) s' r.task t' cfg.usdcMint =
      { potOf h s r.task t cfg.usdcMint with
        refunded := (potOf h s r.task t cfg.usdcMint).refunded + 1
        held := (potOf h s r.task t cfg.usdcMint).held -
          (potOf h s r.task t cfg.usdcMint).bounty
        returned := (potOf h s r.task t cfg.usdcMint).returned +
          (potOf h s r.task t cfg.usdcMint).bounty } := by
    simp only [potOf, epoch_cons_of_none (e := ⟨l, s, s', out⟩) hl, hbal, Nat.add_sub_cancel,
      hterms.bounty, hterms.maxSlots, hterms.poster, ha, hr, deposits_cons, receipts_cons, hcredit,
      hreceipt, Nat.zero_add, Nat.add_comm t.bounty]
  rw [hpot]
  exact .refund (hrun.free_slot he.claim hg.live he.task)

/-- Every step on an open task is a step of its pot and keeps its vault. -/
theorem Ledger.pot_step (hrun : Reaches h s) (hledger : Ledger h s T t cfg)
    (hmove : Move s s' out l) (hl : l.fundsIn? T = none) (ht : s.tasks.get T = some t)
    (ht' : s'.tasks.get T = some t') (hopen' : t'.taskStatus = .opened) :
    s'.tokens.holder (.ata T cfg.usdcMint) = some (T, cfg.usdcMint) ∧
      Pot.Step (potOf h s T t cfg.usdcMint)
        (potOf (⟨l, s, s', out⟩ :: h) s' T t' cfg.usdcMint) := by
  have hs := hrun.sound
  have hok := hs.task T t ht
  have hv := hledger.vault
  have hterms := hmove.terms ht ht'
  have quiet (hh : s'.tokens.holder (.ata T cfg.usdcMint) = some (T, cfg.usdcMint))
      (hb : s'.tokens.balance (.ata T cfg.usdcMint) =
        s.tokens.balance (.ata T cfg.usdcMint) + creditOf (.ata T cfg.usdcMint) out l)
      (hsrc : ∀ x ∈ out, x.source ≠ .ata T cfg.usdcMint)
      (ha : t'.slotsApproved = t.slotsApproved) (hr : t'.slotsRefunded = t.slotsRefunded) :
      s'.tokens.holder (.ata T cfg.usdcMint) = some (T, cfg.usdcMint) ∧
        Pot.Step (potOf h s T t cfg.usdcMint)
          (potOf (⟨l, s, s', out⟩ :: h) s' T t' cfg.usdcMint) :=
    ⟨hh, potOf_donate hl hterms.bounty hterms.maxSlots hterms.poster ha hr hb hsrc⟩
  by_cases hname : l.task? = some T
  swap
  · have hf := hmove.foreign hs hok.canSign hok.ne_config hv hname
    rw [hmove.task_frame hname, ht, Option.some.injEq] at ht'
    subst t'
    exact quiet hf.holder hf.balance hf.source rfl rfl
  cases hmove.on_task hname ht with
  | ended hg he =>
    rw [he.tasks'] at ht'
    cases hg with
    | cancel => simp at ht'
    | close | autoCancel =>
      rw [Store.get_set_self, Option.some.injEq] at ht'
      subst t'
      cases hopen'
  | enrolled htask he =>
    subst htask
    rw [he.tasks', Store.get_set_self, Option.some.injEq] at ht'
    subst t'
    obtain ⟨hh, hb⟩ := he.tokens'.kept hv
    exact quiet hh (by rw [hb, he.transfers]; rfl) (by simp [he.transfers]) rfl rfl
  | advanced _ _ _ he =>
    have htokens : s'.tokens = s.tokens := by rw [he.post]
    have htasks : s'.tasks = s.tasks := by rw [he.post]
    rw [htasks, ht, Option.some.injEq] at ht'
    subst t'
    refine quiet (htokens ▸ hv) ?_ (by simp [he.transfers]) rfl rfl
    rw [htokens, creditOf_of_task hname, he.transfers]
    rfl
  | paid htask _ hg he =>
    subst htask
    cases he.config.symm.trans hledger.config
    rw [he.tasks', Store.get_set_self, Option.some.injEq] at ht'
    subst t'
    exact ⟨(he.tokens'.holder _).trans hv, he.pot_step hrun hg hname hl rfl rfl hterms⟩
  | refunded htask _ hg he =>
    subst htask
    cases he.config.symm.trans hledger.config
    rw [he.tasks', Store.get_set_self, Option.some.injEq] at ht'
    subst t'
    exact ⟨(he.tokens'.holder _).trans hv, he.pot_step hrun hg hname hl rfl rfl hterms⟩

/-- A closed task is never reopened. -/
theorem Reaches.opened_before (hrun : Reaches h s) (hstep : Accepts exec s l out s')
    (ht : s.tasks.get T = some t) (ht' : s'.tasks.get T = some t')
    (hopen' : t'.taskStatus = .opened) : t.taskStatus = .opened := by
  cases hst : t.taskStatus with
  | opened => rfl
  | closed =>
    have hne := hrun.closed_unnamed ht hst hstep
    rw [(hrun.move hstep).task_frame hne, ht, Option.some.injEq] at ht'
    rw [← ht', hst] at hopen'
    cases hopen'

/-- In a run whose mint is steady, the vault of every open task is its pot. -/
theorem Reaches.ledger (hr : Reaches h s) (hsteady : ∀ e ∈ h, MintSteady e) :
    ∀ T t, s.tasks.get T = some t → t.taskStatus = .opened → ∃ cfg, Ledger h s T t cfg := by
  refine hr.history_invariant_of (P := MintSteady) (I := fun h s => ∀ T t,
    s.tasks.get T = some t → t.taskStatus = .opened → ∃ cfg, Ledger h s T t cfg)
    (by simp [State.genesis]) ?_ hsteady
  intro h s l out s' hrun _ he ih hstep T t' ht' hopen'
  have hmove := Reaches.move hrun hstep
  cases hl : l.fundsIn? T with
  | some M =>
    obtain ⟨a, cfg, t, rfl, rfl, hfund, _, ha, hr⟩ := hmove.funds hl
    rw [hfund.tasks', Store.get_set_self, Option.some.injEq] at ht'
    subst t'
    exact ⟨cfg, hfund.ledger hl ha hr⟩
  | none =>
    obtain ⟨t, ht⟩ := hmove.task_existed hl ht'
    have hopen := Reaches.opened_before hrun hstep ht ht' hopen'
    obtain ⟨cfg, hledger⟩ := ih T t ht hopen
    obtain ⟨cfg', hcfg', hmint⟩ := hmove.mint_kept he hledger.config ht hopen
    obtain ⟨hv, hpot⟩ := hledger.pot_step hrun hmove hl ht ht' hopen'
    have hterms := hmove.terms ht ht'
    refine ⟨cfg', hcfg', ?_, ?_, ?_⟩
    · rw [fundingMint_cons_of_none hl, hledger.mint, hmint]
    · rw [hmint]
      exact hv
    · rw [hmint, hterms.bounty, hterms.maxSlots]
      exact hledger.pot.tail hpot

end Pot
end ClustlyEscrow
