import ClustlyEscrow.Guarantees.Commute
import ClustlyEscrow.Guarantees.Maturity
import ClustlyEscrow.Simulation.Donated

/-!
# Donations decide nothing

Two runs of the same instructions, one of them from a state in which the vault
of an open task holds some tokens more. As long as the task is open the vault
covers every free slot, so the surplus is never needed: the runs stay in
lockstep, and the surplus ends up with the poster.
-/
namespace ClustlyEscrow
open Foundations

def OpenIn (s : State) (T : Pubkey) : Prop :=
  ∃ t, s.tasks.get T = some t ∧ t.taskStatus = .opened

/-- Try instructions in turn, each with the clock it reads. -/
def tried (s : State) (xs : List (I64 × Instruction)) : History × State :=
  attempts exec s (xs.map fun x => .instr x.1 x.2)

/-- The poster's account that an instruction sweeps a vault into. -/
def Instruction.sweepsTo? : Instruction → Option Pubkey
  | .cancelBeforeEnroll a => some a.posterAta
  | .closeTask a => some a.posterAta
  | .autoCancelTask a => some a.posterAta
  | _ => none

/-! ## The reserve of an open task -/

/-- The vault in mint `M` holds a bounty for every slot that is not settled. This
survives a change of the configured mint, unlike the exact books. -/
structure Reserved (s : State) (T M : Pubkey) : Prop where
  vault : s.tokens.holder (.ata T M) = some (T, M)
  held : ∀ t, s.tasks.get T = some t →
    t.bounty * (t.maxSlots - t.slotsApproved - t.slotsRefunded) ≤ s.tokens.balance (.ata T M)

section Reserve
variable {s s' : State} {h : History} {out : List Transfer} {l : Label} {T M c : Pubkey}
  {cfg : EscrowConfig} {t t' : EscrowTask} {r : EscrowClaim}

theorem Reaches.reserved (hr : Reaches h s) (hno : ∀ e ∈ h, e.label.updatesMint = false)
    (hcfg : s.config = some cfg) (hopen : OpenIn s T) : Reserved s T cfg.usdcMint := by
  obtain ⟨t, ht, hop⟩ := hopen
  obtain ⟨cfg', hl⟩ := hr.ledger (.of_no_update hno) T t ht hop
  cases hcfg.symm.trans hl.config
  refine ⟨hl.vault, fun t' ht' => ?_⟩
  cases ht.symm.trans ht'
  have hheld := hl.solvent.held
  simp only [potOf] at hheld
  omega

/-- A step that ends a task leaves it gone or closed. -/
theorem Move.not_open_of_ends (hmove : Move s s' out l) (hl : l.ends? = some T) :
    ¬ OpenIn s' T := by
  rintro ⟨t', ht', hop⟩
  obtain ⟨P, cfg, t, tasks', hg, he⟩ := hmove.ended_of_ends hl
  rw [he.tasks'] at ht'
  cases hg with
  | cancel =>
    rw [Store.get_erase_self] at ht'
    cases ht'
  | close | autoCancel =>
    rw [Store.get_set_self] at ht'
    cases ht'
    cases hop

/-- The reserve of a task that no slot of is settled keeps its size. -/
theorem Reserved.of_unsettled (hres : Reserved s T M) (ht : s.tasks.get T = some t)
    (ht' : s'.tasks.get T = some t') (hb : t'.bounty = t.bounty) (hm : t'.maxSlots = t.maxSlots)
    (ha : t'.slotsApproved = t.slotsApproved) (hf : t'.slotsRefunded = t.slotsRefunded)
    (hv : s'.tokens.holder (.ata T M) = some (T, M))
    (hle : s.tokens.balance (.ata T M) ≤ s'.tokens.balance (.ata T M)) : Reserved s' T M := by
  refine ⟨hv, fun u hu => ?_⟩
  cases ht'.symm.trans hu
  rw [hb, hm, ha, hf]
  exact (hres.held t ht).trans hle

/-- Settling a free slot takes at most its own bounty. -/
theorem Reserved.of_settled (hres : Reserved s T M) (ht : s.tasks.get T = some t)
    (hfree : t.slotsApproved + t.slotsRefunded < t.maxSlots)
    (ht' : s'.tasks.get T = some t') (hb : t'.bounty = t.bounty) (hm : t'.maxSlots = t.maxSlots)
    (hone : t'.slotsApproved + t'.slotsRefunded = t.slotsApproved + t.slotsRefunded + 1)
    (hv : s'.tokens.holder (.ata T M) = some (T, M))
    (hle : s.tokens.balance (.ata T M) ≤ s'.tokens.balance (.ata T M) + t.bounty) :
    Reserved s' T M := by
  refine ⟨hv, fun u hu => ?_⟩
  cases ht'.symm.trans hu
  have hheld := hres.held t ht
  have hsettle := Pot.bounty_mul_settle t.bounty
    (show 0 < t.maxSlots - t.slotsApproved - t.slotsRefunded by omega)
  have hleft : t'.maxSlots - t'.slotsApproved - t'.slotsRefunded =
      t.maxSlots - t.slotsApproved - t.slotsRefunded - 1 := by omega
  rw [hb, hleft]
  omega

theorem ata_ne_of_mint {o o' m m' : Pubkey} (h : m ≠ m') : Pubkey.ata o m ≠ .ata o' m' := by
  intro heq
  exact h (Pubkey.ata.inj heq).2

/-- A payout out of the vault of one mint spares the vault of another one. -/
theorem Paid.vault_le (hs : Sound s) {outcome : ClaimStatus}
    (he : Paid s s' out c cfg t r outcome) (M : Pubkey) :
    s.tokens.balance (.ata r.task M) ≤ s'.tokens.balance (.ata r.task M) + t.bounty := by
  by_cases hM : M = cfg.usdcMint
  · rw [hM, (he.debited hs).1]
  · rw [(he.balance_of_ne (ata_ne_of_mint hM) (ata_ne_of_mint hM) (ata_ne_of_mint hM)).1]
    exact Nat.le_add_right _ _

theorem Refunded.vault_le (hs : Sound s) {P : Pubkey} {r' : EscrowClaim}
    (he : Refunded s s' out c P cfg t r r')
    (hv : s.tokens.holder (.ata r.task M) = some (r.task, M)) :
    s.tokens.balance (.ata r.task M) ≤ s'.tokens.balance (.ata r.task M) + t.bounty := by
  by_cases hM : M = cfg.usdcMint
  · rw [hM, (he.debited hs).1]
  · have hT := hs.task _ t he.task
    have hP := ne_of_owner hv he.posterAta (ne_of_canSign hT.poster hT.canSign).symm
    rw [(he.balance_of_ne (ata_ne_of_mint hM) hP).1]
    exact Nat.le_add_right _ _

/-- While a task stays open, no step touches its reserve. -/
theorem Reserved.step (hres : Reserved s T M) (hr : Reaches h s)
    (hstep : Accepts exec s l out s') (hopen : OpenIn s T) (hopen' : OpenIn s' T) :
    Reserved s' T M := by
  obtain ⟨t, ht, _⟩ := hopen
  have hs := hr.sound
  have hmove := hr.move hstep
  by_cases hl : l.task? = some T
  swap
  · have hT := hs.task T t ht
    have hforeign := hmove.foreign hs hT.canSign hT.ne_config hres.vault hl
    refine hres.of_unsettled ht ((hmove.task_frame hl).trans ht) rfl rfl rfl rfl hforeign.holder ?_
    rw [hforeign.balance]
    exact Nat.le_add_right _ _
  cases hmove.on_task hl ht with
  | ended hg he =>
    exact absurd hopen' (hmove.not_open_of_ends (hg.ends_eq.trans hl))
  | enrolled htask he =>
    subst htask
    obtain ⟨hv, hb⟩ := he.tokens'.kept hres.vault
    exact hres.of_unsettled ht (Store.get_of_eq_set he.tasks') rfl rfl rfl rfl hv hb.ge
  | advanced _ _ _ he =>
    rw [he.post]
    exact ⟨hres.vault, hres.held⟩
  | paid htask _ hg he =>
    subst htask
    exact hres.of_settled ht (hr.free_slot he.claim hg.live ht)
      (Store.get_of_eq_set he.tasks') rfl rfl (Nat.add_right_comm _ _ _)
      ((he.tokens'.holder _).trans hres.vault) (he.vault_le hs M)
  | refunded htask _ hg he =>
    subst htask
    exact hres.of_settled ht (hr.free_slot he.claim hg.live ht)
      (Store.get_of_eq_set he.tasks') rfl rfl rfl
      ((he.tokens'.holder _).trans hres.vault) (he.vault_le hs hres.vault)

end Reserve

/-! ## One instruction -/

section Step
variable {s₁ s₁' s₂ s₂' : State} {h : History} {v T M c : Pubkey} {d : ℕ}

theorem Donated.sound (hd : Donated v d s₁ s₂) (hs : Sound s₁) : Sound s₂ := by
  constructor
  · rw [hd.config]
    exact hs.fee_le
  · rw [hd.config, hd.tokens.mints]
    exact hs.mint_mem
  · rw [hd.tokens.mints]
    exact hs.mint_signs
  · rw [hd.tasks]
    exact hs.task
  · rw [hd.claims]
    exact hs.claim
  · simp only [hd.tokens.holder]
    exact hs.ata_mint
  · simp only [hd.tokens.holder]
    exact hs.ata_owner

theorem Donated.twin (hd : Donated v d s₁ s₂) (c : Pubkey) : Twin c s₁ s₂ :=
  ⟨hd.config, hd.tokens.mints, hd.tokens.holder, by rw [hd.claims], fun T => by rw [hd.tasks]⟩

/-- One change on both sides keeps the difference. -/
theorem Donated.of_sameChange (hd : Donated v d s₁ s₂) (hx : SameChange c s₁ s₁' s₂ s₂') :
    Donated v d s₁' s₂' := by
  obtain ⟨x, _, hx₁, hx₂⟩ := hx
  constructor
  · rw [hx₂.config, hx₁.config, hd.config]
  · ext U : 1
    rw [hx₂.tasks, hx₁.tasks, hd.tasks]
  · rw [hx₂.claims, hx₁.claims, hd.claims]
  · refine ⟨?_, fun k => ?_, fun k => ?_⟩
    · rw [hx₂.mints, hx₁.mints, hd.tokens.mints]
    · rw [hx₂.holder, hx₁.holder, hd.tokens.holder]
    · have h₁ := hx₁.flows k
      have h₂ := hx₂.flows k
      rw [hd.tokens.balance] at h₂
      omega

/-- The reserve makes the surplus irrelevant for every settlement. -/
theorem Donated.paired (hd : Donated (.ata T M) d s₁ s₂) (hr : Reaches h s₁)
    (hres : Reserved s₁ T M) (c : Pubkey) : Paired c s₁ s₂ := by
  refine ⟨hd.twin c, hr.sound, hd.sound hr.sound, fun r t => hr.counter_room, ?_, ?_⟩
  · unfold Roomy
    rw [hd.claims, hd.tasks]
    exact fun r t => hr.counter_room
  · intro cfg r t _ hc hl ht
    by_cases hv : Pubkey.ata r.task cfg.usdcMint = .ata T M
    · have hfree := hr.free_slot hc hl ht
      obtain ⟨hT, hM⟩ := Pubkey.ata.inj hv
      have hcov : t.bounty ≤ s₁.tokens.balance (.ata r.task cfg.usdcMint) := by
        have hle := Nat.le_mul_of_pos_right t.bounty
          (show 0 < t.maxSlots - t.slotsApproved - t.slotsRefunded by omega)
        rw [hv]
        exact hle.trans (hres.held t (hT ▸ ht))
      exact iff_of_true hcov (hcov.trans (hd.tokens.le_balance _))
    · rw [hd.tokens.balance_of_ne hv]

theorem Donated.claim_lockstep {l : Label} (hd : Donated v d s₁ s₂) (hp : Paired c s₁ s₂)
    (hl : l.handles c = true) : Lockstep (Alongside v d) (exec s₁ l) (exec s₂ l) := by
  apply Lockstep.of_follows
  · rintro ⟨s₁', out⟩ hstep
    obtain ⟨s₂', hstep₂, hx⟩ := hp.follows hl hstep
    exact ⟨(s₂', out), hstep₂, hd.of_sameChange hx⟩
  · rintro ⟨s₂', out⟩ hstep
    obtain ⟨s₁', hstep₁, _⟩ := hp.symm.follows hl hstep
    exact ⟨(s₁', out), hstep₁⟩

/-- What an instruction makes of the difference at the vault of `T` in mint `M`. -/
structure Outcome (T M : Pubkey) (d : ℕ) (ix : Instruction) (s₁ : State)
    (p q : State × List Transfer) : Prop where
  kept : ix.ends? ≠ some T → Donated (.ata T M) d p.1 q.1
  swept : ix.ends? = some T → (∀ cfg, s₁.config = some cfg → cfg.usdcMint = M) →
    p.1.tokens.holder (.ata T M) = none ∧ ∃ P, ix.sweepsTo? = some P ∧ Donated P d p.1 q.1

theorem Outcome.of_kept {ix : Instruction} {p q : State × List Transfer}
    (hd : Donated (.ata T M) d p.1 q.1) (hends : ix.ends? = none) : Outcome T M d ix s₁ p q := by
  refine ⟨fun _ => hd, fun hl => ?_⟩
  rw [hends] at hl
  cases hl

theorem Parted.outcome {U P : Pubkey} {ix : Instruction} {p q : State × List Transfer}
    (hp : Parted (.ata T M) d s₁ U P p q) (hends : ix.ends? = some U)
    (hto : ix.sweepsTo? = some P) : Outcome T M d ix s₁ p q := by
  obtain ⟨cfg, hcfg⟩ := hp.config
  constructor
  · intro hne
    apply hp.kept cfg hcfg
    intro heq
    exact hne (hends.trans (congrArg some (Pubkey.ata.inj heq).1))
  · intro hl hmint
    cases hends.symm.trans hl
    obtain ⟨hgone, hd⟩ := hp.swept cfg hcfg (by rw [hmint cfg hcfg])
    exact ⟨hgone, P, hto, hd⟩

/-- Every instruction runs on both sides in lockstep while the task is open. -/
theorem Donated.exec_lockstep (hd : Donated (.ata T M) d s₁ s₂) (hr : Reaches h s₁)
    (hres : Reserved s₁ T M) (hopen : OpenIn s₁ T) (now : I64) (ix : Instruction) :
    Lockstep (Outcome T M d ix s₁) (exec s₁ (.instr now ix)) (exec s₂ (.instr now ix)) := by
  obtain ⟨t, ht, _⟩ := hopen
  have hs := hr.sound
  have hT := hs.task T t ht
  cases ix with
  | initializeConfig a admin feeBps =>
    exact (hd.initializeConfig_lockstep a admin feeBps).mono fun _ _ h => .of_kept h rfl
  | updateAdmin a newAdmin =>
    exact (hd.updateAdmin_lockstep a newAdmin).mono fun _ _ h => .of_kept h rfl
  | updateFee a newFeeBps =>
    exact (hd.updateFee_lockstep a newFeeBps).mono fun _ _ h => .of_kept h rfl
  | updateMint a => exact (hd.updateMint_lockstep a).mono fun _ _ h => .of_kept h rfl
  | initializeTask a taskId bounty maxSlots claimDeadlineSecs taskDeadlineTs =>
    exact (hd.initializeTask_lockstep hres.vault hT.canSign a taskId bounty maxSlots
      claimDeadlineSecs taskDeadlineTs).mono fun _ _ h => .of_kept h rfl
  | cancelBeforeEnroll a =>
    exact (hd.cancelBeforeEnroll_lockstep hs a).mono fun _ _ h => h.outcome rfl rfl
  | closeTask a => exact (hd.closeTask_lockstep hs a).mono fun _ _ h => h.outcome rfl rfl
  | autoCancelTask a => exact (hd.autoCancelTask_lockstep hs a).mono fun _ _ h => h.outcome rfl rfl
  | enroll a claimId => exact (hd.enroll_lockstep a claimId).mono fun _ _ h => .of_kept h rfl
  | withdrawFees a amount =>
    exact (hd.withdrawFees_lockstep hres.vault hT.ne_config a amount).mono fun _ _ h =>
      .of_kept h rfl
  | submit a | approveClaim a | rejectClaim a | autoApprove a | openDispute a | resolveDispute a
  | autoResolveDispute a =>
    exact .mono (hd.claim_lockstep (hd.paired hr hres a.claim) (decide_eq_true rfl))
      fun _ _ h => .of_kept h rfl

end Step

/-! ## Whole runs -/

section Runs
variable {s s₂ : State} {h : History} {T : Pubkey} {M : Pubkey} {d : ℕ} {cfg : EscrowConfig}
  {xs : List (I64 × Instruction)}

theorem tried_snoc (x : I64 × Instruction) :
    tried s (xs ++ [x]) = attempt exec (tried s xs) (.instr x.1 x.2) := by
  simp only [tried, List.map_append, List.map_cons, List.map_nil, attempts_snoc]

theorem tried_run (s : State) (xs : List (I64 × Instruction)) :
    Runs s (tried s xs).1 (tried s xs).2 :=
  attempts_run exec s _

/-- Without a change of the mint a run keeps the one that is configured. -/
theorem Runs.config_mint {h' : History} {s' : State} (hr : Reaches h s) (hrun : Runs s h' s')
    (hcfg : s.config = some cfg) (hno : ∀ e ∈ h', e.label.updatesMint = false) :
    ∃ cfg', s'.config = some cfg' ∧ cfg'.usdcMint = cfg.usdcMint := by
  refine (hrun.history_invariant_of (P := fun e => e.label.updatesMint = false)
    (I := fun h' s' => Reaches (h' ++ h) s' ∧
      ∃ cfg', s'.config = some cfg' ∧ cfg'.usdcMint = cfg.usdcMint)
    ⟨hr, cfg, hcfg, rfl⟩ ?_ hno).2
  rintro h₁ s₁ l out s₁' _ _ hmint ⟨hr₁, cfg₁, hcfg₁, hsame⟩ hstep
  obtain ⟨cfg', hcfg', hkept⟩ := (hr₁.move hstep).config_mint_kept hmint hcfg₁
  exact ⟨hr₁.next hstep, cfg', hcfg', hkept.trans hsame⟩

/-- The two runs stay in lockstep while the task is open. -/
theorem Donated.tried (hd : Donated (.ata T M) d s s₂) (hr : Reaches h s) (hres : Reserved s T M)
    (hopen : ∀ ys, ys <+: xs → OpenIn (tried s ys).2 T) :
    Reserved (tried s xs).2 T M ∧ Donated (.ata T M) d (tried s xs).2 (tried s₂ xs).2 := by
  induction xs using List.reverseRecOn with
  | nil => exact ⟨hres, hd⟩
  | append_singleton xs x ih =>
    obtain ⟨hres₁, hd₁⟩ := ih fun ys hys => hopen ys (hys.trans (List.prefix_append xs [x]))
    have hr₁ : Reaches ((ClustlyEscrow.tried s xs).1 ++ h) (ClustlyEscrow.tried s xs).2 :=
      hr.trans (tried_run s xs)
    have hopen₁ := hopen xs (List.prefix_append xs [x])
    have hlock := hd₁.exec_lockstep hr₁ hres₁ hopen₁ x.1 x.2
    have hopen₁' := hopen (xs ++ [x]) List.prefix_rfl
    rw [tried_snoc] at hopen₁' ⊢
    rw [tried_snoc]
    cases hx : exec (ClustlyEscrow.tried s xs).2 (.instr x.1 x.2) with
    | error e =>
      cases hy : exec (ClustlyEscrow.tried s₂ xs).2 (.instr x.1 x.2) with
      | error e' =>
        rw [attempt_of_error hx, attempt_of_error hy]
        exact ⟨hres₁, hd₁⟩
      | ok q =>
        obtain ⟨_, hx', _⟩ := hlock.follow_back hy
        rw [hx] at hx'
        cases hx'
    | ok p =>
      obtain ⟨q, hy, hout⟩ := hlock.follow hx
      rw [attempt_of_ok hx] at hopen₁' ⊢
      rw [attempt_of_ok hy]
      refine ⟨hres₁.step hr₁ hx hopen₁ hopen₁', hout.kept fun hl => ?_⟩
      exact (hr₁.move hx).not_open_of_ends hl hopen₁'

/-- Donations to the vault of an open task do not influence anything: until the
task ends every instruction succeeds with them exactly when it succeeds without
them and has the same effect, and the step that ends the task pays them out. -/
theorem donation_inert (hr : Reaches h s) (hno : ∀ e ∈ h, e.label.updatesMint = false)
    (hcfg : s.config = some cfg) (hd : Donated (.ata T cfg.usdcMint) d s s₂)
    (hopen : ∀ ys, ys <+: xs → OpenIn (tried s ys).2 T) :
    Donated (.ata T cfg.usdcMint) d (tried s xs).2 (tried s₂ xs).2 ∧
    ∀ now ix, (Callable (tried s xs).2 now ix ↔ Callable (tried s₂ xs).2 now ix) ∧
      ∀ out s' out₂ s₂', Accepts exec (tried s xs).2 (.instr now ix) out s' →
        Accepts exec (tried s₂ xs).2 (.instr now ix) out₂ s₂' →
        (ix.ends? ≠ some T → Donated (.ata T cfg.usdcMint) d s' s₂') ∧
        (ix.ends? = some T → (∀ e ∈ (tried s xs).1, e.label.updatesMint = false) →
          s'.tokens.holder (.ata T cfg.usdcMint) = none ∧
          s₂'.tokens.holder (.ata T cfg.usdcMint) = none ∧
          ∃ P, ix.sweepsTo? = some P ∧ Donated P d s' s₂') := by
  have hres := hr.reserved hno hcfg (hopen [] xs.nil_prefix)
  obtain ⟨hres₁, hd₁⟩ := hd.tried hr hres hopen
  have hr₁ : Reaches ((tried s xs).1 ++ h) (tried s xs).2 := hr.trans (tried_run s xs)
  refine ⟨hd₁, fun now ix => ?_⟩
  have hlock := hd₁.exec_lockstep hr₁ hres₁ (hopen xs List.prefix_rfl) now ix
  refine ⟨⟨?_, ?_⟩, ?_⟩
  · rintro ⟨out, s', hstep⟩
    obtain ⟨q, hy, _⟩ := hlock.follow hstep
    exact ⟨q.2, q.1, hy⟩
  · rintro ⟨out, s₂', hstep⟩
    obtain ⟨p, hx, _⟩ := hlock.follow_back hstep
    exact ⟨p.2, p.1, hx⟩
  · intro out s' out₂ s₂' hstep hstep₂
    obtain ⟨q, hy, hout⟩ := hlock.follow hstep
    cases hstep₂.symm.trans hy
    refine ⟨hout.kept, fun hl hsteady => ?_⟩
    obtain ⟨cfg₁, hcfg₁, hmint⟩ := Runs.config_mint hr (tried_run s xs) hcfg hsteady
    obtain ⟨hgone, P, hP, hd'⟩ := hout.swept hl fun cfg' hcfg' => by
      cases hcfg₁.symm.trans hcfg'
      exact hmint
    exact ⟨hgone, (hd'.tokens.holder _).trans hgone, P, hP, hd'⟩

end Runs

/-- Tokens that somebody mints into an account are a donation. -/
theorem Donated.of_mintTo {s s₂ : State} {v : Pubkey} {amount : U64} {out : List Transfer}
    (hstep : Accepts exec s (.token (.mintTo v amount)) out s₂) : Donated v amount s s₂ := by
  obtain ⟨b, hb, rfl, _⟩ := token_eq_ok.mp hstep
  have hobs := Bank.mintTo_ok (Cpi.lift_eq_ok.mp hb)
  refine ⟨rfl, rfl, rfl, hobs.mints, hobs.holder, fun k => ?_⟩
  rw [hobs.balance, Function.update_apply]
  split_ifs with hk
  · rw [hk]
  · rw [Nat.add_zero]

theorem OpenIn.of_check {s : State} {T : Pubkey}
    (h : (s.tasks.get T).any (fun t => decide (t.taskStatus = .opened)) = true) : OpenIn s T := by
  obtain ⟨t, ht, hop⟩ := (Option.any_eq_true _ _).mp h
  exact ⟨t, ht, of_decide_eq_true hop⟩

namespace Scenario

/-- The helper works on the rejected claim once more and is paid. -/
def finishing : List (I64 × Instruction) :=
  [(clock 1400, .submit ⟨helper, job, .claimPda 1⟩ 7),
    (clock 1500, .approveClaim ⟨payout usdc helper 1, poster⟩)]

def closing : Instruction :=
  .closeTask ⟨stranger, .configPda, job, .ata job usdc, .ata poster usdc, poster⟩

end Scenario

open Scenario in
theorem donation_inert_closed : ∃ s₂ out s' out₂ s₂',
    Donated (.ata job usdc) 500 (played twoClaims).2 s₂ ∧
    Accepts exec (tried (played twoClaims).2 finishing).2 (.instr (clock 6000) closing) out s' ∧
    Accepts exec (tried s₂ finishing).2 (.instr (clock 6000) closing) out₂ s₂' ∧
    s'.tokens.holder (.ata job usdc) = none ∧ s₂'.tokens.holder (.ata job usdc) = none ∧
    s₂'.tokens.balance (.ata poster usdc) = s'.tokens.balance (.ata poster usdc) + 500 := by
  obtain ⟨_, s₂, hgift, _⟩ := Accepts.of_check exec (played twoClaims).2
    (.token (.mintTo (.ata job usdc) 500)) (fun _ _ => true) (by decide +kernel)
  have hd : Donated (.ata job usdc) 500 (played twoClaims).2 s₂ := .of_mintTo hgift
  have hcfg : (played twoClaims).2.config = some ⟨admin, usdc, 400⟩ := by decide +kernel
  have hopen : ∀ ys ∈ finishing.inits, ((tried (played twoClaims).2 ys).2.tasks.get job).any
      (fun t => decide (t.taskStatus = .opened)) = true := by decide +kernel
  obtain ⟨out, s', hclose, _⟩ := Accepts.of_check exec (tried (played twoClaims).2 finishing).2
    (.instr (clock 6000) closing) (fun _ _ => true) (by decide +kernel)
  obtain ⟨hiff, heffect⟩ := (donation_inert (played_reaches twoClaims) (by decide +kernel) hcfg hd
    fun ys hys => .of_check (hopen ys ((List.mem_inits ys finishing).mpr hys))).2
    (clock 6000) closing
  obtain ⟨out₂, s₂', hclose₂⟩ := hiff.mp ⟨out, s', hclose⟩
  obtain ⟨hgone, hgone₂, P, hP, hd'⟩ := (heffect out s' out₂ s₂' hclose hclose₂).2 rfl
    (by decide +kernel)
  cases hP
  refine ⟨s₂, out, s', out₂, s₂', hd, hclose, hclose₂, hgone, hgone₂, ?_⟩
  rw [hd'.tokens.balance, if_pos rfl]

end ClustlyEscrow
