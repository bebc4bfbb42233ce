import ClustlyEscrow.Guarantees.Distribution

/-!
# Paying a task off

When every live claim of an open task has a step that pays it, these steps can
be taken one after the other, in any order, and the task can be closed at the
end. Nothing runs out on the way: each payout leaves the vault able to make the
next one.
-/
namespace ClustlyEscrow
open Foundations

/-- The accounts with which claim `c` is paid. -/
def payoutOf (cfg : EscrowConfig) (c : Pubkey) (r : EscrowClaim) : PayoutAccounts where
  config := .configPda
  usdcMint := cfg.usdcMint
  task := r.task
  claim := c
  taskVault := .ata r.task cfg.usdcMint
  claimerAta := .ata r.claimer cfg.usdcMint
  claimer := r.claimer
  feeVault := .ata .configPda cfg.usdcMint

/-- The accounts with which task `T` is closed into `P`. -/
def closeOf (cfg : EscrowConfig) (T P poster caller : Pubkey) : CloseTask where
  caller := caller
  config := .configPda
  task := T
  taskVault := .ata T cfg.usdcMint
  posterAta := P
  poster := poster

/-- The step pays claim `c`, whatever else happens to its task. -/
inductive Pays (cfg : EscrowConfig) (poster P c : Pubkey) (r : EscrowClaim) :
    Label → ClaimStatus → Prop
  | approve {now : I64} (status : r.status = ClaimStatus.submitted.toU8) :
      Pays cfg poster P c r (.instr now (.approveClaim ⟨payoutOf cfg c r, poster⟩)) .approved
  | autoApprove {now : I64} {caller : Pubkey} (signs : caller.canSign = true)
      (status : r.status = ClaimStatus.submitted.toU8)
      (elapsed : Elapsed now r.submittedAt autoApproveWindowSecs) :
      Pays cfg poster P c r (.instr now (.autoApprove ⟨payoutOf cfg c r, caller⟩)) .approved
  | resolve {now : I64} (signs : cfg.admin.canSign = true)
      (status : r.status = ClaimStatus.disputed.toU8) :
      Pays cfg poster P c r
        (.instr now (.resolveDispute ⟨payoutOf cfg c r, cfg.admin, P⟩ .deliverer))
        .resolvedDeliverer
  | autoResolve {now : I64} {caller : Pubkey} (signs : caller.canSign = true)
      (status : r.status = ClaimStatus.disputed.toU8)
      (elapsed : Elapsed now r.disputedAt autoDisputeWindowSecs) :
      Pays cfg poster P c r (.instr now (.autoResolveDispute ⟨payoutOf cfg c r, caller⟩))
        .resolvedDeliverer

/-- The claims of `T` that are not settled, each listed once, in some order. -/
structure Unsettled (s : State) (T : Pubkey) (cs : List (Pubkey × EscrowClaim)) : Prop where
  nodup : (cs.map Prod.fst).Nodup
  listed : ∀ c r, (c, r) ∈ cs ↔ s.claims.get c = some r ∧ r.task = T ∧ r.terminal = false

/-- The unsettled claims of the open task `T`, and the accounts to settle them. -/
structure Backlog (s : State) (T : Pubkey) (cfg : EscrowConfig) (t : EscrowTask) (P : Pubkey)
    (cs : List (Pubkey × EscrowClaim)) : Prop where
  config : s.config = some cfg
  task : s.tasks.get T = some t
  opened : t.taskStatus = .opened
  feeVault : s.tokens.holder (.ata .configPda cfg.usdcMint) = some (.configPda, cfg.usdcMint)
  posterAta : s.tokens.holder P = some (t.poster, cfg.usdcMint)
  unsettled : Unsettled s T cs
  claimerAta : ∀ x ∈ cs, s.tokens.holder (.ata x.2.claimer cfg.usdcMint) =
    some (x.2.claimer, cfg.usdcMint)

theorem exists_unsettled (s : State) (T : Pubkey) : ∃ cs, Unsettled s T cs := by
  obtain ⟨cs, hnodup, hlisted⟩ := s.claims.exists_list fun r => r.task = T ∧ r.terminal = false
  exact ⟨cs, hnodup, hlisted⟩

theorem Unsettled.backlog {s : State} {T P : Pubkey} {cfg : EscrowConfig} {t : EscrowTask}
    {cs : List (Pubkey × EscrowClaim)} (hcs : Unsettled s T cs) (hcfg : s.config = some cfg)
    (ht : s.tasks.get T = some t) (hopen : t.taskStatus = .opened)
    (hfee : s.tokens.holder (.ata .configPda cfg.usdcMint) = some (.configPda, cfg.usdcMint))
    (hata : ∀ c r, s.claims.get c = some r → r.task = T → r.terminal = false →
      s.tokens.holder (.ata r.claimer cfg.usdcMint) = some (r.claimer, cfg.usdcMint))
    (hP : s.tokens.holder P = some (t.poster, cfg.usdcMint)) : Backlog s T cfg t P cs := by
  refine ⟨hcfg, ht, hopen, hfee, hP, hcs, fun x hx => ?_⟩
  obtain ⟨hc, hT, hlive⟩ := (hcs.listed x.1 x.2).mp hx
  exact hata x.1 x.2 hc hT hlive

section Payoff
variable {s s' : State} {h : History} {l : Label} {out : List Transfer} {T P c : Pubkey}
  {cfg : EscrowConfig} {t : EscrowTask} {r : EscrowClaim} {outcome : ClaimStatus}
  {cs : List (Pubkey × EscrowClaim)}

theorem Pays.ground (hp : Pays cfg t.poster P c r l outcome) (hopen : t.taskStatus = .opened) :
    PayGround cfg t r l outcome := by
  cases hp with
  | approve hst => exact .approve rfl hopen hst
  | autoApprove _ hst hel => exact .autoApprove hopen hst hel
  | resolve _ hst => exact .resolve rfl hst
  | autoResolve _ hst hel => exact .autoResolve hst hel

theorem Pays.updatesMint {poster : Pubkey} (hp : Pays cfg poster P c r l outcome) :
    l.updatesMint = false := by
  cases hp <;> rfl

theorem payoutOf_loaded (hs : Sound s) (hc : s.config = some cfg)
    (ht : s.tasks.get r.task = some t) (hr : s.claims.get c = some r)
    (hready : PayoutReady s cfg r.task r.claimer) : (payoutOf cfg c r).Loaded s cfg t r where
  config_key := rfl
  config := hc
  mint := hs.mint_mem cfg hc
  task := ht
  task_key := (hs.task _ _ ht).key
  claim := hr
  claim_key := (hs.claim _ _ hr).key
  claim_task := rfl
  vault_key := rfl
  vault := ⟨_, hready.vault⟩
  claimerAta_key := rfl
  claimerAta := ⟨_, hready.claimerAta⟩
  claimer := rfl
  feeVault_key := rfl
  feeVault := ⟨_, hready.feeVault⟩

/-- A payout that can be made is made by each of the four instructions. -/
theorem Pays.fires (hs : Sound s) (hp : Pays cfg t.poster P c r l outcome)
    (he : Paid s s' out c cfg t r outcome) (hopen : t.taskStatus = .opened)
    (hP : s.tokens.holder P = some (t.poster, cfg.usdcMint))
    (hroom : t.slotsApproved + 1 < 2 ^ 16) : Accepts exec s l out s' := by
  have hload := payoutOf_loaded hs he.config he.task he.claim he.ready
  have hposter := (hs.task _ _ he.task).poster
  cases hp with
  | approve hst =>
    change ClustlyEscrow.approveClaim s ⟨payoutOf cfg c r, t.poster⟩ = .ok (s', out)
    exact (approveClaim_eq_ok hs).mpr
      ⟨cfg, t, r, hload, rfl, hposter, rfl, hopen, hst, hroom, he⟩
  | @autoApprove now caller hsign hst hel =>
    change ClustlyEscrow.autoApprove s now ⟨payoutOf cfg c r, caller⟩ = .ok (s', out)
    exact (autoApprove_eq_ok hs).mpr
      ⟨cfg, t, r, hload, rfl, hsign, hopen, hst, hel, hroom, he⟩
  | resolve hsign hst =>
    have hrule : Ruling s s' out ⟨payoutOf cfg c r, cfg.admin, P⟩ cfg t r .deliverer := ⟨hroom, he⟩
    change ClustlyEscrow.resolveDispute s ⟨payoutOf cfg c r, cfg.admin, P⟩ .deliverer =
      .ok (s', out)
    exact (resolveDispute_eq_ok hs).mpr
      ⟨cfg, t, r, hload, rfl, hsign, rfl, hP, hst, hrule⟩
  | @autoResolve now caller hsign hst hel =>
    change ClustlyEscrow.autoResolveDispute s now ⟨payoutOf cfg c r, caller⟩ = .ok (s', out)
    exact (autoResolveDispute_eq_ok hs).mpr
      ⟨cfg, t, r, hload, rfl, hsign, hst, hel, hroom, he⟩

/-! ## One payout -/

/-- The first claim of a backlog can be paid. -/
theorem Backlog.pay (hr : Reaches h s) (hsteady : ∀ e ∈ h, MintSteady e)
    (hb : Backlog s T cfg t P ((c, r) :: cs)) (hp : Pays cfg t.poster P c r l outcome) :
    ∃ s' out, Accepts exec s l out s' ∧ Paid s s' out c cfg t r outcome := by
  obtain ⟨hc, rfl, hopen⟩ := (hb.unsettled.listed c r).mp List.mem_cons_self
  have hlive := terminal_eq_false.mp hopen
  obtain ⟨hledger, hcov⟩ := hr.covered hsteady hc hlive hb.task hb.config
  obtain ⟨s', out, he⟩ := PayoutReady.pays hr.sound hb.config hb.task hc
    ⟨hledger.vault, hb.claimerAta _ List.mem_cons_self, hb.feeVault⟩ hcov outcome
  exact ⟨s', out, hp.fires hr.sound he hb.opened hb.posterAta (hr.counter_room hc hlive hb.task).1,
    he⟩

/-- Paying the first claim of a backlog leaves the others. -/
theorem Backlog.next (hb : Backlog s T cfg t P ((c, r) :: cs))
    (he : Paid s s' out c cfg t r outcome)
    (hphase : phaseOf (r.setStatus outcome).status = .approved) :
    Backlog s' T cfg { t with slotsApproved := t.slotsApproved + 1 } P cs := by
  obtain ⟨_, rfl, _⟩ := (hb.unsettled.listed c r).mp List.mem_cons_self
  have hnodup := hb.unsettled.nodup
  rw [List.map_cons, List.nodup_cons] at hnodup
  have hlisted (d : Pubkey) (q : EscrowClaim) : (d, q) ∈ cs ↔
      s'.claims.get d = some q ∧ q.task = r.task ∧ q.terminal = false := by
    by_cases hd : d = c
    · subst d
      rw [he.claims', Store.get_set_self, Option.some.injEq]
      constructor
      · intro hmem
        exact absurd (List.mem_map_of_mem hmem) hnodup.1
      · rintro ⟨rfl, _, hopen⟩
        rw [terminal_eq_false, hphase] at hopen
        cases hopen
    · rw [he.claims', Store.get_set_of_ne _ hd, ← hb.unsettled.listed d q, List.mem_cons,
        Prod.mk.injEq, or_iff_right (fun heq => hd heq.1)]
  constructor
  · exact he.config'.trans hb.config
  · rw [he.tasks', Store.get_set_self]
  · exact hb.opened
  · exact (he.tokens'.holder _).trans hb.feeVault
  · exact (he.tokens'.holder _).trans hb.posterAta
  · exact ⟨hnodup.2, hlisted⟩
  · intro x hx
    exact (he.tokens'.holder _).trans (hb.claimerAta x (List.mem_cons_of_mem _ hx))

/-- The account of the poster takes no part in a payout. -/
theorem Paid.posterAta (hr : Reaches h s) (he : Paid s s' out c cfg t r outcome)
    (hP : s.tokens.holder P = some (t.poster, cfg.usdcMint)) :
    s'.tokens.balance P = s.tokens.balance P := by
  have hok := hr.sound.task _ _ he.task
  exact (he.balance_of_ne (ne_of_owner hP he.ready.vault (ne_of_canSign hok.poster hok.canSign))
    (ne_of_owner hP he.ready.claimerAta (hr.not_self c r t he.claim he.task).symm)
    (ne_of_owner hP he.ready.feeVault (ne_of_canSign hok.poster rfl))).1

/-! ## All payouts -/

/-- The run `h'` takes the step `act x` for every listed claim `x`, in order. -/
structure Cleared (s : State) (h' : History) (s' : State) (T : Pubkey) (cfg : EscrowConfig)
    (t : EscrowTask) (P : Pubkey) (cs : List (Pubkey × EscrowClaim))
    (act : Pubkey × EscrowClaim → Label) (outcome : Pubkey × EscrowClaim → ClaimStatus) :
    Prop where
  run : Runs s h' s'
  labels : h'.map Event.label = (cs.map act).reverse
  backlog : Backlog s' T cfg { t with slotsApproved := t.slotsApproved + cs.length } P []
  /-- The steps of the run and the listed claims correspond to each other. -/
  events : ∀ e ∈ h', ∃ x ∈ cs, ∃ u, e.label = act x ∧ u.bounty = t.bounty ∧
    Paid e.pre e.post e.output x.1 cfg u x.2 (outcome x)
  paid : ∀ x ∈ cs, ∃ e ∈ h', ∃ u, e.label = act x ∧ u.bounty = t.bounty ∧
    Paid e.pre e.post e.output x.1 cfg u x.2 (outcome x)
  settled : ∀ x ∈ cs, s'.claims.get x.1 = some (x.2.setStatus (outcome x))
  others : ∀ c, c ∉ cs.map Prod.fst → s'.claims.get c = s.claims.get c
  vault : s.tokens.balance (.ata T cfg.usdcMint) =
    s'.tokens.balance (.ata T cfg.usdcMint) + t.bounty * cs.length
  poster : s'.tokens.balance P = s.tokens.balance P

theorem Backlog.cleared_nil (hb : Backlog s T cfg t P [])
    (act : Pubkey × EscrowClaim → Label) (outcome : Pubkey × EscrowClaim → ClaimStatus) :
    Cleared s [] s T cfg t P [] act outcome :=
  ⟨.start, rfl, hb, by simp, by simp, by simp, fun _ _ => rfl, rfl, rfl⟩

/-- One payout in front of a run that pays the others. -/
theorem Cleared.cons (hr : Reaches h s) (hb : Backlog s T cfg t P ((c, r) :: cs))
    {act : Pubkey × EscrowClaim → Label} {outcome : Pubkey × EscrowClaim → ClaimStatus}
    {s₁ s₂ : State} {h' : History} (hstep : Accepts exec s (act (c, r)) out s₁)
    (he : Paid s s₁ out c cfg t r (outcome (c, r)))
    (hrest : Cleared s₁ h' s₂ T cfg { t with slotsApproved := t.slotsApproved + 1 } P cs act
      outcome) :
    Cleared s (h' ++ [⟨act (c, r), s, s₁, out⟩]) s₂ T cfg t P ((c, r) :: cs) act outcome := by
  obtain ⟨_, rfl, _⟩ := (hb.unsettled.listed c r).mp List.mem_cons_self
  have hnodup := hb.unsettled.nodup
  rw [List.map_cons, List.nodup_cons] at hnodup
  have hvault := (he.debited hr.sound).1
  constructor
  · exact (Run.single hstep).trans hrest.run
  · simp [hrest.labels]
  · have hcount : t.slotsApproved + ((c, r) :: cs).length = t.slotsApproved + 1 + cs.length := by
      rw [List.length_cons]
      omega
    rw [hcount]
    exact hrest.backlog
  · intro e hmem
    rcases List.mem_append.mp hmem with hmem | hmem
    · obtain ⟨x, hx, u, hl, hu, hpaid⟩ := hrest.events e hmem
      exact ⟨x, List.mem_cons_of_mem _ hx, u, hl, hu, hpaid⟩
    · rw [List.mem_singleton] at hmem
      subst e
      exact ⟨(c, r), List.mem_cons_self, t, rfl, rfl, he⟩
  · intro x hx
    rcases List.mem_cons.mp hx with rfl | hx
    · exact ⟨_, List.mem_append_right _ (List.mem_singleton_self _), t, rfl, rfl, he⟩
    · obtain ⟨e, hmem, u, hl, hu, hpaid⟩ := hrest.paid x hx
      exact ⟨e, List.mem_append_left _ hmem, u, hl, hu, hpaid⟩
  · intro x hx
    rcases List.mem_cons.mp hx with rfl | hx
    · rw [hrest.others c hnodup.1, he.claims', Store.get_set_self]
    · exact hrest.settled x hx
  · intro d hd
    rw [List.map_cons, List.mem_cons, not_or] at hd
    rw [hrest.others d hd.2, he.claims', Store.get_set_of_ne _ hd.1]
  · have hrestVault := hrest.vault
    dsimp only at hrestVault
    rw [List.length_cons, Nat.mul_succ]
    omega
  · exact hrest.poster.trans (he.posterAta hr hb.posterAta)

/-- Every backlog can be paid off, in the order in which it is listed. -/
theorem Backlog.cleared (hr : Reaches h s) (hno : ∀ e ∈ h, e.label.updatesMint = false)
    (hb : Backlog s T cfg t P cs) {act : Pubkey × EscrowClaim → Label}
    {outcome : Pubkey × EscrowClaim → ClaimStatus}
    (hact : ∀ x ∈ cs, Pays cfg t.poster P x.1 x.2 (act x) (outcome x)) :
    ∃ h' s', Cleared s h' s' T cfg t P cs act outcome := by
  induction cs generalizing s h t with
  | nil => exact ⟨[], s, hb.cleared_nil act outcome⟩
  | cons x cs ih =>
    obtain ⟨c, r⟩ := x
    have hpays := hact _ List.mem_cons_self
    obtain ⟨s₁, out, hstep, he⟩ := hb.pay hr (MintSteady.of_no_update hno) hpays
    obtain ⟨h', s₂, hrest⟩ := ih (hr.next hstep)
      (List.forall_mem_cons.mpr ⟨hpays.updatesMint, hno⟩)
      (hb.next he (hpays.ground hb.opened).phase_post)
      (fun x hx => hact x (List.mem_cons_of_mem _ hx))
    exact ⟨_, s₂, hrest.cons hr hb hstep he⟩

/-- Paying off needs no `update_mint`. -/
theorem Cleared.no_update {h' : History} {act : Pubkey × EscrowClaim → Label}
    {outcome : Pubkey × EscrowClaim → ClaimStatus}
    (hclear : Cleared s h' s' T cfg t P cs act outcome)
    (hact : ∀ x ∈ cs, Pays cfg t.poster P x.1 x.2 (act x) (outcome x))
    (hno : ∀ e ∈ h, e.label.updatesMint = false) :
    ∀ e ∈ h' ++ h, e.label.updatesMint = false := by
  refine List.forall_mem_append.mpr ⟨fun e he => ?_, hno⟩
  obtain ⟨x, hx, _, hl, _⟩ := hclear.events e he
  rw [hl]
  exact (hact x hx).updatesMint

/-! ## The close -/

/-- A task without backlog can be closed by its poster, and after the deadline by anybody. -/
theorem Backlog.close (hr : Reaches h s) (hsteady : ∀ e ∈ h, MintSteady e)
    (hb : Backlog s T cfg t P []) {caller : Pubkey} (now : I64) (hsign : caller.canSign = true)
    (hwho : caller = t.poster ∨ t.Due now) :
    ∃ s' out, Accepts exec s (.instr now (.closeTask (closeOf cfg T P t.poster caller))) out s' ∧
      Ended s s' out T P cfg t (s.tasks.set T (t.setStatus .closed)) := by
  have hactive : t.activeSlots = 0 := by
    rw [(hr.activeSlots_eq hb.task).1, Store.count_eq_zero_iff]
    rintro c r hc ⟨hT, hlive⟩
    exact List.not_mem_nil
      ((hb.unsettled.listed c r).mpr ⟨hc, hT, terminal_eq_false.mpr hlive⟩)
  obtain ⟨cfg', hledger⟩ := hr.ledger hsteady T t hb.task hb.opened
  cases hb.config.symm.trans hledger.config
  obtain ⟨s', out, he⟩ := Ended.exists hr.sound hb.config hb.task hb.opened hledger.vault
    hb.posterAta (s.tasks.set T (t.setStatus .closed))
  refine ⟨s', out, (closeTask_eq_ok hr.sound).mpr ⟨cfg, t, ?_, hwho, hactive, he⟩, he⟩
  exact ⟨hsign, rfl, hb.config, hb.task, (hr.sound.task T t hb.task).key, rfl,
    ⟨_, hledger.vault⟩, hb.posterAta, rfl⟩

end Payoff

namespace Scenario

/-- One claim waits for its verdict and one for a ruling; one slot is free. -/
def waiting : List Label := setup ++
  [fund 10000 3 (clock 5000), enrolls worker 0, enrolls helper 1, submits (clock 1200) worker 0,
    submits (clock 1200) helper 1, rejects 1, disputes (clock 1400) helper 1]

def late : I64 := clock 9223372036854775807

theorem waiting_claims (c : Pubkey) (r : EscrowClaim)
    (hc : (played waiting).2.claims.get c = some r) :
    (played waiting).2.tokens.holder (.ata r.claimer usdc) = some (r.claimer, usdc) ∧
      (r.status = ClaimStatus.submitted.toU8 ∨ r.status = ClaimStatus.disputed.toU8) ∧
      (r.status = ClaimStatus.disputed.toU8 →
        0 < r.disputedAt ∧ r.disputedAt + autoDisputeWindowSecs < 2 ^ 63) :=
  of_decide_eq_true (Store.forall_of_keys (p := fun _ r => decide
    ((played waiting).2.tokens.holder (.ata r.claimer usdc) = some (r.claimer, usdc) ∧
      (r.status = ClaimStatus.submitted.toU8 ∨ r.status = ClaimStatus.disputed.toU8) ∧
      (r.status = ClaimStatus.disputed.toU8 →
        0 < r.disputedAt ∧ r.disputedAt + autoDisputeWindowSecs < 2 ^ 63)))
    (by decide +kernel) c r hc)

end Scenario

end ClustlyEscrow
