import ClustlyEscrow.Guarantees.Mint
import ClustlyEscrow.Guarantees.Cranks

/-!
# The funded vault is never short

An admin who names another mint can settle slots of a task from elsewhere, or
block their settlement, but can not reach what was funded: the vault of an open
task always holds a bounty for every slot that is not settled. Once the config
names the mint of the funding again, every claim can be paid out of it.
-/
namespace ClustlyEscrow
open Foundations

/-- The settled slots of task `T`. -/
def settledSlots (s : State) (T : Pubkey) : ℕ :=
  (s.tasks.get T).elim 0 fun t => t.slotsApproved + t.slotsRefunded

/-- The step settles a slot of `T` while the config names a mint other than `M`. -/
def strays (T M : Pubkey) (e : EscrowEvent) : Bool :=
  decide (settledSlots e.pre T < settledSlots e.post T ∧ configMint e ≠ some M)

/-- How many slots of `T` were settled from another vault than the one in `M`. -/
def strayed (T M : Pubkey) (h : History) : ℕ := (epoch T h).countP (strays T M)

/-- The slots of the task that are not settled. -/
def EscrowTask.unsettledSlots (t : EscrowTask) : ℕ :=
  t.maxSlots - t.slotsApproved - t.slotsRefunded

/-- What the vault that was funded holds for an open task. -/
structure Collateral (h : History) (s : State) (T : Pubkey) (t : EscrowTask) (M : Pubkey) :
    Prop where
  mint : fundingMint T h = some M
  vault : s.tokens.holder (.ata T M) = some (T, M)
  balance : s.tokens.balance (.ata T M) =
    t.bounty * (t.unsettledSlots + strayed T M h) + deposits (.ata T M) (epoch T h)
  settled : strayed T M h ≤ t.slotsApproved + t.slotsRefunded

section Step
variable {s s' : State} {out : List Transfer} {l : Label} {h : History} {T M : Pubkey}
  {t t' : EscrowTask}

theorem strayed_cons (hl : l.fundsIn? T = none) : strayed T M (⟨l, s, s', out⟩ :: h) =
    strayed T M h + if strays T M ⟨l, s, s', out⟩ then 1 else 0 := by
  rw [strayed, epoch_cons_of_none (e := ⟨l, s, s', out⟩) hl, List.countP_cons]
  rfl

theorem strays_iff (ht : s.tasks.get T = some t) (ht' : s'.tasks.get T = some t') :
    strays T M ⟨l, s, s', out⟩ = true ↔
      t.slotsApproved + t.slotsRefunded < t'.slotsApproved + t'.slotsRefunded ∧
        configMint ⟨l, s, s', out⟩ ≠ some M := by
  simp only [strays, decide_eq_true_eq, settledSlots, ht, ht', Option.elim_some]

/-- A step that settles no slot and takes nothing from the vault. -/
theorem Collateral.quiet (hcol : Collateral h s T t M) (hl : l.fundsIn? T = none)
    (ht : s.tasks.get T = some t) (ht' : s'.tasks.get T = some t') (hterms : t.SameTerms t')
    (ha : t'.slotsApproved = t.slotsApproved) (hr : t'.slotsRefunded = t.slotsRefunded)
    (hv : s'.tokens.holder (.ata T M) = some (T, M))
    (hb : s'.tokens.balance (.ata T M) =
      s.tokens.balance (.ata T M) + creditOf (.ata T M) out l) :
    Collateral (⟨l, s, s', out⟩ :: h) s' T t' M := by
  have hstay : ¬ strays T M ⟨l, s, s', out⟩ = true := by
    rw [strays_iff ht ht', ha, hr]
    exact fun hlt => lt_irrefl _ hlt.1
  have hcount : strayed T M (⟨l, s, s', out⟩ :: h) = strayed T M h := by
    rw [strayed_cons hl, if_neg hstay, Nat.add_zero]
  have hslots : t'.unsettledSlots = t.unsettledSlots := by
    simp only [EscrowTask.unsettledSlots, hterms.maxSlots, ha, hr]
  refine ⟨(fundingMint_cons_of_none hl).trans hcol.mint, hv, ?_, ?_⟩
  · rw [hb, hcol.balance, hcount, epoch_cons_of_none (e := ⟨l, s, s', out⟩) hl, deposits_cons,
      hterms.bounty, hslots, Nat.add_comm (creditOf _ _ _), Nat.add_assoc]
  · rw [hcount, ha, hr]
    exact hcol.settled

/-- A settled slot is paid for by this vault, or it strays. -/
theorem Collateral.settle (hcol : Collateral h s T t M) (hl : l.fundsIn? T = none)
    (ht : s.tasks.get T = some t) (ht' : s'.tasks.get T = some t') (hterms : t.SameTerms t')
    (hfree : t.slotsApproved + t.slotsRefunded < t.maxSlots)
    (hone : t'.slotsApproved + t'.slotsRefunded = t.slotsApproved + t.slotsRefunded + 1)
    (hv : s'.tokens.holder (.ata T M) = some (T, M)) (hcredit : creditOf (.ata T M) out l = 0)
    (hb : (configMint ⟨l, s, s', out⟩ = some M ∧
        s.tokens.balance (.ata T M) = s'.tokens.balance (.ata T M) + t.bounty) ∨
      (configMint ⟨l, s, s', out⟩ ≠ some M ∧
        s'.tokens.balance (.ata T M) = s.tokens.balance (.ata T M))) :
    Collateral (⟨l, s, s', out⟩ :: h) s' T t' M := by
  have hbal := hcol.balance
  have hold := hcol.settled
  have hfewer : t.unsettledSlots = t'.unsettledSlots + 1 := by
    simp only [EscrowTask.unsettledSlots, hterms.maxSlots]
    omega
  have hdeposits : deposits (.ata T M) (epoch T (⟨l, s, s', out⟩ :: h)) =
      deposits (.ata T M) (epoch T h) := by
    rw [epoch_cons_of_none (e := ⟨l, s, s', out⟩) hl, deposits_cons, hcredit, Nat.zero_add]
  rcases hb with ⟨hmint, hpaid⟩ | ⟨hmint, hsame⟩
  · have hstay : ¬ strays T M ⟨l, s, s', out⟩ = true := by
      rw [strays_iff ht ht']
      exact fun hstray => hstray.2 hmint
    have hcount : strayed T M (⟨l, s, s', out⟩ :: h) = strayed T M h := by
      rw [strayed_cons hl, if_neg hstay, Nat.add_zero]
    refine ⟨(fundingMint_cons_of_none hl).trans hcol.mint, hv, ?_, by rw [hcount, hone]; omega⟩
    rw [hfewer, Nat.add_right_comm, Nat.mul_succ] at hbal
    rw [hcount, hdeposits, hterms.bounty]
    omega
  · have hstray : strays T M ⟨l, s, s', out⟩ = true := by
      rw [strays_iff ht ht', hone]
      exact ⟨Nat.lt_succ_self _, hmint⟩
    have hcount : strayed T M (⟨l, s, s', out⟩ :: h) = strayed T M h + 1 := by
      rw [strayed_cons hl, if_pos hstray]
    refine ⟨(fundingMint_cons_of_none hl).trans hcol.mint, hv, ?_, by rw [hcount, hone]; omega⟩
    rw [hsame, hbal, hcount, hdeposits, hterms.bounty, hfewer, Nat.add_right_comm,
      ← Nat.add_assoc]

theorem Funded.collateral {a : InitializeTask} {cfg : EscrowConfig}
    (he : Funded s s' out a cfg t) (hl : l.fundsIn? a.task = some cfg.usdcMint)
    (ha : t.slotsApproved = 0) (hr : t.slotsRefunded = 0) :
    Collateral (⟨l, s, s', out⟩ :: h) s' a.task t cfg.usdcMint := by
  have hledger := he.ledger (h := h) hl ha hr
  have hheld := hledger.solvent.held
  have hepoch := epoch_cons_of_some (h := h) (e := ⟨l, s, s', out⟩) hl
  have hnone : strayed a.task cfg.usdcMint (⟨l, s, s', out⟩ :: h) = 0 := by
    rw [strayed, hepoch, List.countP_nil]
  refine ⟨hledger.mint, hledger.vault, ?_, by rw [hnone]; exact Nat.zero_le _⟩
  rw [hnone, Nat.add_zero]
  exact hheld

/-- A payout out of one vault of a task leaves its vault in another mint alone. -/
theorem Paid.other_vault {c : Pubkey} {cfg : EscrowConfig} {r : EscrowClaim}
    {outcome : ClaimStatus} (he : Paid s s' out c cfg t r outcome) (hM : cfg.usdcMint ≠ M) :
    s'.tokens.balance (.ata r.task M) = s.tokens.balance (.ata r.task M) := by
  rw [he.tokens'.balance, paidBalance, if_neg, if_neg, if_neg]
  all_goals
    simp only [Pubkey.ata.injEq, not_and]
    exact fun _ heq => hM heq.symm

theorem Refunded.other_vault (hs : Sound s) {c P : Pubkey} {cfg : EscrowConfig}
    {r r' : EscrowClaim} (he : Refunded s s' out c P cfg t r r') (hM : cfg.usdcMint ≠ M) :
    s'.tokens.balance (.ata r.task M) = s.tokens.balance (.ata r.task M) := by
  have hok := hs.task _ t he.task
  apply he.tokens'.balance_of_ne
  · simp only [ne_eq, Pubkey.ata.injEq, true_and]
    exact fun heq => hM heq.symm
  · rintro rfl
    have hown := hs.ata_owner _ M _ _ hok.canSign he.posterAta
    exact ne_of_canSign hok.poster hok.canSign hown

/-- The tokens of a payout do not go back into a vault of the task. -/
theorem Paid.no_credit (hs : Sound s) {c : Pubkey} {cfg : EscrowConfig} {r : EscrowClaim}
    {outcome : ClaimStatus} (he : Paid s s' out c cfg t r outcome)
    (hname : l.task? = some r.task) : creditOf (.ata r.task M) out l = 0 := by
  have hok := hs.task _ t he.task
  have hclaimer : r.task ≠ r.claimer :=
    (ne_of_canSign (hs.claim c r he.claim).claimer hok.canSign).symm
  rw [creditOf_of_task hname, he.transfers, List.map_append, List.sum_append,
    credit_transferList, credit_transferList]
  · simp [hok.ne_config]
  · simp [hclaimer]

theorem Refunded.no_credit (hs : Sound s) {c P : Pubkey} {cfg : EscrowConfig}
    {r r' : EscrowClaim} (he : Refunded s s' out c P cfg t r r')
    (hname : l.task? = some r.task) : creditOf (.ata r.task M) out l = 0 := by
  have hok := hs.task _ t he.task
  have hne : Pubkey.ata r.task M ≠ P := by
    rintro rfl
    have hown := hs.ata_owner _ M _ _ hok.canSign he.posterAta
    exact ne_of_canSign hok.poster hok.canSign hown
  rw [creditOf_of_task hname, he.transfers, List.map_singleton, List.sum_singleton,
    credit_of_ne hne]

/-- Every step on an open task keeps its collateral, whichever mint the config names. -/
theorem Collateral.step (hrun : Reaches h s) (hcol : Collateral h s T t M)
    (hmove : Move s s' out l) (hl : l.fundsIn? T = none) (ht : s.tasks.get T = some t)
    (ht' : s'.tasks.get T = some t') (hopen' : t'.taskStatus = .opened) :
    Collateral (⟨l, s, s', out⟩ :: h) s' T t' M := by
  have hs := hrun.sound
  have hok := hs.task T t ht
  have hv := hcol.vault
  have hterms := hmove.terms ht ht'
  by_cases hname : l.task? = some T
  swap
  · have hf := hmove.foreign hs hok.canSign hok.ne_config hv hname
    have hsame := ht'
    rw [hmove.task_frame hname, ht, Option.some.injEq] at hsame
    subst t'
    exact hcol.quiet hl ht ht' hterms rfl rfl hf.holder hf.balance
  cases hmove.on_task hname ht with
  | ended hg he =>
    rw [he.tasks'] at ht'
    cases hg with
    | cancel => simp at ht'
    | close | autoCancel =>
      rw [Store.get_set_self, Option.some.injEq] at ht'
      subst t'
      cases hopen'
  | enrolled htask he =>
    subst htask
    obtain ⟨hh, hb⟩ := he.tokens'.kept hv
    have hnew := ht'
    rw [he.tasks', Store.get_set_self, Option.some.injEq] at hnew
    subst t'
    exact hcol.quiet hl ht ht' hterms rfl rfl hh (by rw [hb, he.transfers]; rfl)
  | advanced _ _ _ he =>
    have htokens : s'.tokens = s.tokens := by rw [he.post]
    have hsame := ht'
    rw [he.post, ht, Option.some.injEq] at hsame
    subst t'
    refine hcol.quiet hl ht ht' hterms rfl rfl (htokens ▸ hv) ?_
    rw [htokens, creditOf_of_task hname, he.transfers]
    rfl
  | @paid l c cfg r outcome htask _ hg he =>
    subst htask
    have hnew := ht'
    rw [he.tasks', Store.get_set_self, Option.some.injEq] at hnew
    subst t'
    refine hcol.settle hl ht ht' hterms (hrun.free_slot he.claim hg.live ht)
      (Nat.add_right_comm _ _ _) ((he.tokens'.holder _).trans hv) (he.no_credit hs hname) ?_
    have hmint : configMint ⟨l, s, s', out⟩ = some cfg.usdcMint := by
      rw [configMint, he.config, Option.map_some]
    by_cases hM : cfg.usdcMint = M
    · subst hM
      exact .inl ⟨hmint, (he.debited hs).1⟩
    · exact .inr ⟨by rw [hmint]; simpa using hM, he.other_vault hM⟩
  | @refunded l c P cfg r r' htask _ hg he =>
    subst htask
    have hnew := ht'
    rw [he.tasks', Store.get_set_self, Option.some.injEq] at hnew
    subst t'
    refine hcol.settle hl ht ht' hterms (hrun.free_slot he.claim hg.live ht)
      (Nat.add_assoc _ _ _).symm ((he.tokens'.holder _).trans hv) (he.no_credit hs hname) ?_
    have hmint : configMint ⟨l, s, s', out⟩ = some cfg.usdcMint := by
      rw [configMint, he.config, Option.map_some]
    by_cases hM : cfg.usdcMint = M
    · subst hM
      exact .inl ⟨hmint, (he.debited hs).1⟩
    · exact .inr ⟨by rw [hmint]; simpa using hM, he.other_vault hs hM⟩

theorem Reaches.collateral (hr : Reaches h s) : ∀ T t, s.tasks.get T = some t →
    t.taskStatus = .opened → ∃ M, Collateral h s T t M := by
  apply hr.history_invariant (I := fun h s => ∀ T t, s.tasks.get T = some t →
    t.taskStatus = .opened → ∃ M, Collateral h s T t M) (by simp [State.genesis])
  intro h s l out s' hrun ih hstep T t' ht' hopen'
  have hmove := Reaches.move hrun hstep
  cases hl : l.fundsIn? T with
  | some M =>
    obtain ⟨a, cfg, t, rfl, rfl, hfund, _, ha, hr⟩ := hmove.funds hl
    rw [hfund.tasks', Store.get_set_self, Option.some.injEq] at ht'
    subst t'
    exact ⟨_, hfund.collateral hl ha hr⟩
  | none =>
    obtain ⟨t, ht⟩ := hmove.task_existed hl ht'
    obtain ⟨M, hcol⟩ := ih T t ht (Reaches.opened_before hrun hstep ht ht' hopen')
    exact ⟨M, hcol.step hrun hmove hl ht ht' hopen'⟩

end Step

section Recovery
variable {s s' : State} {out : List Transfer} {l : Label} {h : History} {T P M c : Pubkey}
  {t : EscrowTask} {r : EscrowClaim} {cfg : EscrowConfig} {outcome : ClaimStatus}

/-- Whatever the admin does to the mint in the config, the vault in which an open
task was funded holds one bounty for every slot that is not settled or was
settled from elsewhere, and all deposits, to the token. -/
theorem funded_vault_collateral (hr : Reaches h s) (ht : s.tasks.get T = some t)
    (hopen : t.taskStatus = .opened) :
    ∃ M, fundingMint T h = some M ∧ s.tokens.holder (.ata T M) = some (T, M) ∧
      s.tokens.balance (.ata T M) = t.bounty * (t.unsettledSlots + strayed T M h) +
        deposits (.ata T M) (epoch T h) ∧
      strayed T M h ≤ t.slotsApproved + t.slotsRefunded := by
  obtain ⟨M, hcol⟩ := hr.collateral T t ht hopen
  exact ⟨M, hcol.mint, hcol.vault, hcol.balance, hcol.settled⟩

/-- The vault that was funded covers every live claim. -/
theorem Collateral.covers (hr : Reaches h s) (hcol : Collateral h s r.task t M)
    (hc : s.claims.get c = some r) (hlive : phaseOf r.status = .live)
    (ht : s.tasks.get r.task = some t) : t.bounty ≤ s.tokens.balance (.ata r.task M) := by
  have hfree := hr.free_slot hc hlive ht
  have hslots : 0 < t.unsettledSlots + strayed r.task M h := by
    unfold EscrowTask.unsettledSlots
    omega
  have hle := Nat.le_mul_of_pos_right t.bounty hslots
  have hbal := hcol.balance
  omega

/-- A mint in which something was funded still exists. -/
theorem Reaches.funding_mint_mem (hr : Reaches h s) :
    ∀ T M, fundingMint T h = some M → M ∈ s.tokens.mints := by
  apply hr.history_invariant (I := fun h s => ∀ T M, fundingMint T h = some M →
    M ∈ s.tokens.mints) (by simp [fundingMint])
  intro h s l out s' hrun ih hstep T M hM
  have hmove := Reaches.move hrun hstep
  apply hmove.custody.mints_sub
  cases hl : l.fundsIn? T with
  | none =>
    rw [fundingMint_cons_of_none hl] at hM
    exact ih T M hM
  | some m =>
    rw [fundingMint_cons_of_some hl, Option.some.injEq] at hM
    obtain ⟨_, cfg, _, _, hmint, hfund, _⟩ := hmove.funds hl
    rw [← hM, ← hmint]
    exact (Reaches.sound hrun).mint_mem cfg hfund.config

theorem Pays.funds_nothing {poster : Pubkey} (hp : Pays cfg poster P c r l outcome) :
    l.fundsIn? T = none := by
  cases hp <;> rfl

/-- The first claim of a backlog is paid out of the funded vault. -/
theorem Backlog.pay_of_collateral {cs : List (Pubkey × EscrowClaim)} (hr : Reaches h s)
    (hcol : Collateral h s T t cfg.usdcMint) (hb : Backlog s T cfg t P ((c, r) :: cs))
    (hp : Pays cfg t.poster P c r l outcome) :
    ∃ s' out, Accepts exec s l out s' ∧ Paid s s' out c cfg t r outcome := by
  obtain ⟨hc, rfl, hopen⟩ := (hb.unsettled.listed c r).mp List.mem_cons_self
  have hlive := terminal_eq_false.mp hopen
  have hcov := hcol.covers hr hc hlive hb.task
  obtain ⟨s', out, he⟩ := PayoutReady.pays hr.sound hb.config hb.task hc
    ⟨hcol.vault, hb.claimerAta _ List.mem_cons_self, hb.feeVault⟩ hcov outcome
  exact ⟨s', out, hp.fires hr.sound he hb.opened hb.posterAta (hr.counter_room hc hlive hb.task).1,
    he⟩

/-- With its funding mint in the config a backlog can be paid off, whatever
happened to the mint before. -/
theorem Backlog.cleared_of_collateral {cs : List (Pubkey × EscrowClaim)} (hr : Reaches h s)
    (hcol : Collateral h s T t cfg.usdcMint) (hb : Backlog s T cfg t P cs)
    {act : Pubkey × EscrowClaim → Label} {outcome : Pubkey × EscrowClaim → ClaimStatus}
    (hact : ∀ x ∈ cs, Pays cfg t.poster P x.1 x.2 (act x) (outcome x)) :
    ∃ h' s', Cleared s h' s' T cfg t P cs act outcome ∧
      Collateral (h' ++ h) s' T { t with slotsApproved := t.slotsApproved + cs.length }
        cfg.usdcMint := by
  induction cs generalizing s h t with
  | nil => exact ⟨[], s, hb.cleared_nil act outcome, hcol⟩
  | cons x cs ih =>
    obtain ⟨c, r⟩ := x
    have hpays := hact _ List.mem_cons_self
    obtain ⟨s₁, out, hstep, he⟩ := hb.pay_of_collateral hr hcol hpays
    have hb' := hb.next he (hpays.ground hb.opened).phase_post
    have hcol' := hcol.step hr (hr.move hstep) hpays.funds_nothing hb.task hb'.task hb'.opened
    obtain ⟨h', s₂, hrest, hcol''⟩ := ih (hr.next hstep) hcol' hb'
      (fun x hx => hact x (List.mem_cons_of_mem _ hx))
    refine ⟨_, s₂, hrest.cons hr hb hstep he, ?_⟩
    rw [List.append_assoc, List.singleton_append, List.length_cons, Nat.add_comm cs.length,
      ← Nat.add_assoc]
    exact hcol''

/-- The collateral of a task without live claims goes back to the poster, who closes it. -/
theorem Collateral.close (hr : Reaches h s) (hcol : Collateral h s T t cfg.usdcMint)
    (hcfg : s.config = some cfg) (ht : s.tasks.get T = some t) (hopen : t.taskStatus = .opened)
    (hP : s.tokens.holder P = some (t.poster, cfg.usdcMint))
    (hdone : ∀ c r, s.claims.get c = some r → r.task = T → phaseOf r.status ≠ .live) (now : I64) :
    ∃ s' out, Accepts exec s (.instr now (.closeTask (closeOf cfg T P t.poster t.poster))) out s' ∧
      Ended s s' out T P cfg t (s.tasks.set T (t.setStatus .closed)) := by
  have hok := hr.sound.task T t ht
  have hactive : t.activeSlots = 0 := by
    rw [(hr.activeSlots_eq ht).1, Store.count_eq_zero_iff]
    rintro c r hc ⟨hT, hlive⟩
    exact hdone c r hc hT hlive
  obtain ⟨s', out, he⟩ := Ended.exists hr.sound hcfg ht hopen hcol.vault hP
    (s.tasks.set T (t.setStatus .closed))
  have hload : (closeOf cfg T P t.poster t.poster).Loaded s cfg t :=
    ⟨hok.poster, rfl, hcfg, ht, hok.key, rfl, ⟨_, hcol.vault⟩, hP, rfl⟩
  exact ⟨s', out, (closeTask_eq_ok hr.sound).mpr ⟨cfg, t, hload, .inl rfl, hactive, he⟩, he⟩

/-- Naming the funding mint again undoes every detour of the mint. Once all claims
that are not settled are submitted or disputed, and with an admin who can sign and
the accounts that the payouts and the refund need, they can be paid in full and in
any order, and then the poster gets everything that is left. -/
theorem repinning_recovers {cs : List (Pubkey × EscrowClaim)}
    {act : Pubkey × EscrowClaim → Label} {outcome : Pubkey × EscrowClaim → ClaimStatus}
    (hr : Reaches h s) (hcfg : s.config = some cfg) (hadmin : cfg.admin.canSign = true)
    (ht : s.tasks.get T = some t) (hopen : t.taskStatus = .opened)
    (hM : fundingMint T h = some M)
    (hfee : s.tokens.holder (.ata .configPda M) = some (.configPda, M))
    (hP : s.tokens.holder P = some (t.poster, M)) (hcs : Unsettled s T cs)
    (hata : ∀ c r, s.claims.get c = some r → r.task = T → r.terminal = false →
      s.tokens.holder (.ata r.claimer M) = some (r.claimer, M))
    (hact : ∀ x ∈ cs, Pays { cfg with usdcMint := M } t.poster P x.1 x.2 (act x) (outcome x))
    (now last : I64) :
    ∃ h' s', Runs s h' s' ∧
      h'.map Event.label =
        .instr last (.closeTask (closeOf { cfg with usdcMint := M } T P t.poster t.poster)) ::
          (cs.map act).reverse ++ [.instr now (.updateMint ⟨⟨.configPda, cfg.admin⟩, M⟩)] ∧
      (∀ x ∈ cs, s'.claims.get x.1 = some (x.2.setStatus (outcome x)) ∧
        ∃ e ∈ h', e.label = act x ∧ e.output =
          transferList (.ata T M) (.ata x.2.claimer M) (netOf t.bounty cfg.feeBps) ++
          transferList (.ata T M) (.ata .configPda M) (feeOf t.bounty cfg.feeBps)) ∧
      (∃ t', s'.tasks.get T = some t' ∧ t'.taskStatus = .closed) ∧
      s'.tokens.holder (.ata T M) = none ∧
      s'.tokens.balance P + t.bounty * cs.length =
        s.tokens.balance P + s.tokens.balance (.ata T M) := by
  -- The config names the funding mint again, and nothing else changes.
  have hstep : Accepts exec s (.instr now (.updateMint ⟨⟨.configPda, cfg.admin⟩, M⟩)) []
      { s with config := some { cfg with usdcMint := M } } :=
    updateMint_eq_ok.mpr ⟨cfg, rfl, hr.funding_mint_mem T M hM, ⟨hcfg, rfl, hadmin, rfl, rfl⟩⟩
  have hr₁ := hr.next hstep
  obtain ⟨m, hcol⟩ := Reaches.collateral hr₁ T t ht hopen
  have hm : M = m := by
    have hmint := hcol.mint
    rw [fundingMint_cons_of_none (by rfl), hM, Option.some.injEq] at hmint
    exact hmint
  subst hm
  -- From there the backlog is paid off and the task is closed.
  have hb := Unsettled.backlog (s := { s with config := some { cfg with usdcMint := M } })
    ⟨hcs.nodup, hcs.listed⟩ rfl ht hopen hfee hata hP
  obtain ⟨h', s', hclear, hcol'⟩ := hb.cleared_of_collateral hr₁ hcol hact
  have hr' := Run.trans hr₁ hclear.run
  have hdone (c : Pubkey) (r : EscrowClaim) (hc : s'.claims.get c = some r) (hT : r.task = T) :
      phaseOf r.status ≠ .live := fun hlive => List.not_mem_nil
    ((hclear.backlog.unsettled.listed c r).mpr ⟨hc, hT, terminal_eq_false.mpr hlive⟩)
  obtain ⟨s'', out, hclose, he⟩ := hcol'.close hr' hclear.backlog.config hclear.backlog.task
    hclear.backlog.opened hclear.backlog.posterAta hdone last
  refine ⟨_, s'', ((Run.single hstep).trans hclear.run).next hclose, ?_, ?_, ?_, ?_, ?_⟩
  · simp only [List.map_cons, List.map_append, hclear.labels, List.map_nil, List.cons_append]
  · intro x hx
    obtain ⟨e, hmem, u, hl, hu, hpaid⟩ := hclear.paid x hx
    refine ⟨by rw [he.claims', hclear.settled x hx], e,
      List.mem_cons_of_mem _ (List.mem_append_left _ hmem), hl, ?_⟩
    rw [hpaid.transfers, ((hcs.listed x.1 x.2).mp hx).2.1, hu]
  · exact ⟨_, by rw [he.tasks', Store.get_set_self], rfl⟩
  · rw [he.tokens'.holder, Function.update_self]
  · have hvault := hclear.vault
    have hposter := hclear.poster
    dsimp only at hvault hposter
    rw [he.credited (Reaches.sound hr'), hposter, hvault]
    dsimp only
    omega

end Recovery

namespace Scenario

/-- The claim of the worker is settled in another mint, with tokens of somebody
else, while the claim of the helper waits for its verdict. -/
def detour : List Label := setup ++
  [fund 10000 3 (clock 5000), enrolls worker 0, enrolls helper 1, submits (clock 1200) worker 0,
    submits (clock 1200) helper 1, .token (.createMint otherMint),
    .instr (clock 1300) (.updateMint ⟨⟨.configPda, admin⟩, otherMint⟩),
    .token (.createAta job otherMint), .token (.createAta .configPda otherMint),
    .token (.createAta worker otherMint), .token (.mintTo (.ata job otherMint) 10000),
    cranks (clock 1211000) otherMint worker 0]

theorem detour_claims (c : Pubkey) (r : EscrowClaim)
    (hc : (played detour).2.claims.get c = some r) :
    (played detour).2.tokens.holder (.ata r.claimer usdc) = some (r.claimer, usdc) ∧
      (r.terminal = false → r.status = ClaimStatus.submitted.toU8) :=
  of_decide_eq_true (Store.forall_of_keys (p := fun _ r => decide
    ((played detour).2.tokens.holder (.ata r.claimer usdc) = some (r.claimer, usdc) ∧
      (r.terminal = false → r.status = ClaimStatus.submitted.toU8)))
    (by decide +kernel) c r hc)

end Scenario

open Scenario in
theorem funded_vault_collateral_detour : ∃ M, fundingMint job (played detour).1 = some M ∧
    (played detour).2.tokens.balance (.ata job M) =
      10000 * (2 + strayed job M (played detour).1) +
        deposits (.ata job M) (epoch job (played detour).1) := by
  have ht : (played detour).2.tasks.get job =
      some ⟨0, poster, 10000, 3, 2, 1, 0, 0, 5000, 3600⟩ := by decide +kernel
  obtain ⟨M, hM, _, hb, _⟩ := funded_vault_collateral (played_reaches detour) ht rfl
  exact ⟨M, hM, hb⟩

open Scenario in
theorem repinning_recovers_detour : ∃ h' s', Runs (played detour).2 h' s' ∧
    (∃ t', s'.tasks.get job = some t' ∧ t'.taskStatus = .closed) ∧
      s'.tokens.holder (.ata job usdc) = none := by
  have hcfg : (played detour).2.config = some ⟨admin, otherMint, 400⟩ := by decide +kernel
  have ht : (played detour).2.tasks.get job =
      some ⟨0, poster, 10000, 3, 2, 1, 0, 0, 5000, 3600⟩ := by decide +kernel
  obtain ⟨cs, hcs⟩ := exists_unsettled (played detour).2 job
  have hact : ∀ x ∈ cs, Pays ⟨admin, usdc, 400⟩ poster (.ata poster usdc) x.1 x.2
      (.instr late (.approveClaim ⟨payoutOf ⟨admin, usdc, 400⟩ x.1 x.2, poster⟩)) .approved := by
    intro x hx
    obtain ⟨hc, _, hopen⟩ := (hcs.listed x.1 x.2).mp hx
    exact .approve ((detour_claims x.1 x.2 hc).2 hopen)
  obtain ⟨h', s', hrun, _, _, hclosed, hgone, _⟩ := repinning_recovers (played_reaches detour)
    hcfg rfl ht rfl (show fundingMint job _ = some usdc by decide +kernel) (by decide +kernel)
    (by decide +kernel) hcs (fun c r hc _ _ => (detour_claims c r hc).1) hact late late
  exact ⟨h', s', hrun, hclosed, hgone⟩

end ClustlyEscrow
