import ClustlyEscrow.Guarantees.Payoff

/-!
# Getting a task closed without its claimers

Poster, admin and callers of the auto instructions can settle a submitted claim
and, as a rule, a disputed one. An enrolled or a rejected claim waits for its
claimer alone: no deadline ends it, and while it is open the whole vault stays.
-/
namespace ClustlyEscrow
open Foundations

def IsClaimer (s : State) (T p : Pubkey) : Prop :=
  ∃ c r, s.claims.get c = some r ∧ r.task = T ∧ r.claimer = p

/-- An instruction at clock `now` or later in which the claimers that task `T`
has in `s` take no part: none of them signs, and nobody enrolls. -/
def WithoutClaimers (s : State) (T : Pubkey) (now : I64) (l : Label) : Prop :=
  ∃ clock ix, l = .instr clock ix ∧ now.val ≤ clock.val ∧ ¬ IsClaimer s T ix.signedBy ∧
    ∀ a claimId, ix ≠ .enroll a claimId

/-- The run closes task `T` without its claimers, at clocks that do not go
back, and empties its vault in mint `M` to claimers, fee vault and poster. -/
structure Escape (s : State) (T M poster : Pubkey) (now : I64) (h' : History) (s' : State) :
    Prop where
  run : Runs s h' s'
  steps : ∀ e ∈ h', WithoutClaimers s T now e.label
  ordered : h'.Pairwise fun later e => ∀ a ∈ e.label.clock?, ∀ b ∈ later.label.clock?,
    a.val ≤ b.val
  closed : ∃ t', s'.tasks.get T = some t' ∧ t'.taskStatus = .closed
  emptied : s'.tokens.holder (.ata T M) = none
  payees : ∀ e ∈ h', ∀ x ∈ e.output, x.source = .ata T M →
    (∃ w, IsClaimer s T w ∧ x.dest = .ata w M) ∨ x.dest = .ata .configPda M ∨
      ∃ m, e.pre.tokens.holder x.dest = some (poster, m)

def Escapes (s : State) (T M poster : Pubkey) (now : I64) : Prop :=
  ∃ h' s', Escape s T M poster now h' s'

/-- The admin can rule on the disputes of task `T` without being its claimer. -/
def AdminRules (s : State) (T : Pubkey) (cfg : EscrowConfig) : Prop :=
  cfg.admin.canSign = true ∧ ¬ IsClaimer s T cfg.admin

/-- The dispute window of the claim starts and ends within the range of the clock. -/
def WindowEnds (r : EscrowClaim) : Prop :=
  0 < r.disputedAt ∧ r.disputedAt + autoDisputeWindowSecs < 2 ^ 63

/-- The claim is submitted, or disputed with somebody left to end the dispute. -/
def Releasable (s : State) (T : Pubkey) (cfg : EscrowConfig) (r : EscrowClaim) : Prop :=
  r.status = ClaimStatus.submitted.toU8 ∨
    r.status = ClaimStatus.disputed.toU8 ∧ (AdminRules s T cfg ∨ WindowEnds r)

/-- No open claim of task `T` is enrolled or rejected, or in a dispute without end. -/
def NoHostage (s : State) (T : Pubkey) (cfg : EscrowConfig) : Prop :=
  ∀ c r, s.claims.get c = some r → r.task = T → r.terminal = false → Releasable s T cfg r

section Escape
variable {s s' s₀ : State} {h h' : History} {l : Label} {out : List Transfer} {T P c : Pubkey}
  {cfg : EscrowConfig} {t : EscrowTask} {r : EscrowClaim} {now : I64}

/-! ## Releasing every claim -/

theorem WindowEnds.elapsed (h : WindowEnds r) :
    Elapsed lastClock r.disputedAt autoDisputeWindowSecs := by
  obtain ⟨hpos, hfits⟩ := h
  refine ⟨hpos, ?_, ?_⟩
  · change _ ≤ (2 ^ 63 - 1 : ℤ) - r.disputedAt
    omega
  · unfold autoDisputeWindowSecs at hfits
    change InI64 (2 ^ 63 - 1 - r.disputedAt)
    unfold InI64
    omega

/-- A window that some clock finds elapsed ends. -/
theorem Elapsed.windowEnds (h : Elapsed now r.disputedAt autoDisputeWindowSecs) : WindowEnds r := by
  have hnow := now.property.2
  have hwindow := h.window
  exact ⟨h.started, by omega⟩

theorem Reaches.poster_not_claimer (hr : Reaches h s) (ht : s.tasks.get T = some t) :
    ¬ IsClaimer s T t.poster := by
  rintro ⟨c, r, hc, rfl, hw⟩
  exact hr.not_self c r t hc ht hw

/-- A releasable claim has a step that pays it and that needs no claimer. -/
theorem Reaches.release (hr : Reaches h s) (ht : s.tasks.get T = some t)
    (hrel : Releasable s T cfg r) : ∃ l outcome, Pays cfg t.poster P c r l outcome ∧
      WithoutClaimers s T now l ∧ l.clock? = some lastClock := by
  have hposter := hr.poster_not_claimer ht
  have hlast := le_lastClock now
  rcases hrel with hst | ⟨hst, ⟨hsign, hadmin⟩ | hends⟩
  · exact ⟨.instr lastClock _, _, .approve hst, ⟨_, _, rfl, hlast, hposter, by simp⟩, rfl⟩
  · exact ⟨.instr lastClock _, _, .resolve hsign hst, ⟨_, _, rfl, hlast, hadmin, by simp⟩, rfl⟩
  · exact ⟨.instr lastClock _, _, .autoResolve (hr.sound.task T t ht).poster hst hends.elapsed,
      ⟨_, _, rfl, hlast, hposter, by simp⟩, rfl⟩

theorem ordered_of_clock (hall : ∀ e ∈ h, e.label.clock? = some now) :
    h.Pairwise fun later e => ∀ a ∈ e.label.clock?, ∀ b ∈ later.label.clock?, a.val ≤ b.val := by
  apply List.pairwise_of_forall_mem_list
  intro later hlater e he a ha b hb
  rw [hall e he, Option.mem_some_iff] at ha
  rw [hall later hlater, Option.mem_some_iff] at hb
  rw [← ha, ← hb]

theorem Paid.payees {outcome : ClaimStatus} (he : Paid s s' out c cfg t r outcome) :
    ∀ x ∈ out, x.dest = .ata r.claimer cfg.usdcMint ∨ x.dest = .ata .configPda cfg.usdcMint := by
  intro x hx
  rw [he.transfers, List.mem_append] at hx
  rcases hx with hx | hx
  · exact .inl (mem_transferList hx).2
  · exact .inr (mem_transferList hx).2

/-- When every open claim is releasable, the task can be closed without its claimers. -/
theorem NoHostage.escapes (hr : Reaches h s) (hno : ∀ e ∈ h, e.label.updatesMint = false)
    (hcfg : s.config = some cfg) (ht : s.tasks.get T = some t) (hopen : t.taskStatus = .opened)
    (hfee : s.tokens.holder (.ata .configPda cfg.usdcMint) = some (.configPda, cfg.usdcMint))
    (hata : ∀ c r, s.claims.get c = some r → r.task = T → r.terminal = false →
      s.tokens.holder (.ata r.claimer cfg.usdcMint) = some (r.claimer, cfg.usdcMint))
    (hP : s.tokens.holder P = some (t.poster, cfg.usdcMint)) (now : I64)
    (hrel : NoHostage s T cfg) : Escapes s T cfg.usdcMint t.poster now := by
  obtain ⟨cs, hcs⟩ := exists_unsettled s T
  have hb := hcs.backlog hcfg ht hopen hfee hata hP
  have hrelease (x : Pubkey × EscrowClaim) : ∃ l outcome, x ∈ cs →
      Pays cfg t.poster P x.1 x.2 l outcome ∧ WithoutClaimers s T now l ∧
        l.clock? = some lastClock := by
    by_cases hx : x ∈ cs
    · obtain ⟨hc, hT, hlive⟩ := (hcs.listed x.1 x.2).mp hx
      obtain ⟨l, outcome, hl⟩ := hr.release ht (hrel x.1 x.2 hc hT hlive)
      exact ⟨l, outcome, fun _ => hl⟩
    · exact ⟨.token (.createMint x.1), .approved, fun hin => absurd hin hx⟩
  choose act outcome hact using hrelease
  obtain ⟨h', s', hclear⟩ := hb.cleared hr hno (fun x hx => (hact x hx).1)
  have hr' : Reaches (h' ++ h) s' := hr.trans hclear.run
  have hsteady' := MintSteady.of_no_update (hclear.no_update (fun x hx => (hact x hx).1) hno)
  obtain ⟨s'', out, hstep, he⟩ := hclear.backlog.close hr' hsteady' lastClock
    (hr.sound.task T t ht).poster (.inl rfl)
  have hclose : WithoutClaimers s T now
      (.instr lastClock (.closeTask (closeOf cfg T P t.poster t.poster))) :=
    ⟨_, _, rfl, le_lastClock now, hr.poster_not_claimer ht, by simp⟩
  have hclocks : ∀ e ∈ h', e.label.clock? = some lastClock := by
    intro e hmem
    obtain ⟨x, hx, _, hl, _⟩ := hclear.events e hmem
    rw [hl]
    exact (hact x hx).2.2
  refine ⟨_, s'', hclear.run.next hstep, ?_, ?_, ?_, ?_, ?_⟩
  · refine List.forall_mem_cons.mpr ⟨hclose, fun e hmem => ?_⟩
    obtain ⟨x, hx, _, hl, _⟩ := hclear.events e hmem
    rw [hl]
    exact (hact x hx).2.1
  · exact ordered_of_clock (List.forall_mem_cons.mpr ⟨rfl, hclocks⟩)
  · exact ⟨_, by rw [he.tasks', Store.get_set_self], rfl⟩
  · rw [he.tokens'.holder, Function.update_self]
  · rw [List.forall_mem_cons]
    constructor
    · -- The close pays the rest to the poster.
      intro x hx _
      dsimp only at hx
      rw [he.transfers] at hx
      rw [(mem_transferList hx).2]
      exact .inr (.inr ⟨cfg.usdcMint, he.posterAta⟩)
    · intro e hmem y hy _
      obtain ⟨x, hx, _, _, _, hpaid⟩ := hclear.events e hmem
      obtain ⟨hc, hT, _⟩ := (hcs.listed x.1 x.2).mp hx
      rcases hpaid.payees y hy with hdest | hdest
      · exact .inl ⟨_, ⟨_, _, hc, hT, rfl⟩, hdest⟩
      · exact .inr (.inl hdest)

/-! ## Claims that wait for their claimer -/

/-- What a step needs that names an unsettled claim which is not submitted: its
claimer, the admin, or the end of the dispute window. -/
theorem Touch.needs (htouch : Touch s s' out c l) (hc : s.claims.get c = some r)
    (hst : r.status ≠ ClaimStatus.submitted.toU8) : l.signedBy? = some r.claimer ∨
      r.status = ClaimStatus.disputed.toU8 ∧
        ((∃ cfg, s.config = some cfg ∧ l.signedBy? = some cfg.admin) ∨ WindowEnds r) := by
  cases htouch with
  | enrolled hpre =>
    rw [hpre] at hc
    cases hc
  | advanced _ hpre _ hg =>
    cases hpre.symm.trans hc
    cases hg with
    | submit hw | dispute hw => exact .inl (congrArg some hw.symm)
    | reject _ _ hsub => exact absurd hsub hst
  | paid _ hpre _ hg he =>
    cases hpre.symm.trans hc
    cases hg with
    | approve _ _ hsub | autoApprove _ hsub => exact absurd hsub hst
    | resolve hadmin hdis =>
      exact .inr ⟨hdis, .inl ⟨_, he.config, congrArg some hadmin.symm⟩⟩
    | autoResolve hdis hel => exact .inr ⟨hdis, .inr hel.windowEnds⟩
  | refunded _ hpre _ hg he =>
    cases hpre.symm.trans hc
    cases hg with
    | reject _ _ hsub => exact absurd hsub hst
    | resolve hadmin hdis =>
      exact .inr ⟨hdis, .inl ⟨_, he.config, congrArg some hadmin.symm⟩⟩

/-- Claim `c` still is as it was in `s₀`, and so is the admin of its dispute. -/
structure Stuck (s₀ s : State) (T c : Pubkey) (cfg : EscrowConfig) (r : EscrowClaim) : Prop where
  claim : s.claims.get c = some r
  admin : r.status = ClaimStatus.disputed.toU8 → ∃ cfg', s.config = some cfg' ∧
    cfg'.admin = cfg.admin

/-- Nothing that happens without the claimers of `T` frees a claim that is not releasable. -/
theorem Stuck.step (hstuck : Stuck s₀ s T c cfg r) (hclaimer : IsClaimer s₀ T r.claimer)
    (hheld : ¬ Releasable s₀ T cfg r) (hmove : Move s s' out l) (hstep : Accepts exec s l out s')
    (hl : WithoutClaimers s₀ T now l) : Stuck s₀ s' T c cfg r := by
  obtain ⟨clock, ix, rfl, _, hsigner, _⟩ := hl
  rw [Releasable, not_or, not_and, not_or] at hheld
  obtain ⟨hsub, hdispute⟩ := hheld
  -- The admin of the dispute either has no key or is a claimer of the task.
  have hbarred (hdis : r.status = ClaimStatus.disputed.toU8) : ix.signedBy ≠ cfg.admin := by
    intro heq
    exact (hdispute hdis).1 ⟨heq ▸ signs_of_process hstep, heq ▸ hsigner⟩
  constructor
  · by_cases hname : (Label.instr clock ix).claim? = some c
    · rcases (hmove.touch hname).needs hstuck.claim hsub with hw | ⟨hdis, ⟨cfg', hc', hadm⟩ | hends⟩
      · exact absurd (Option.some.inj hw ▸ hclaimer) hsigner
      · obtain ⟨cfg'', hc'', hsame⟩ := hstuck.admin hdis
        cases hc'.symm.trans hc''
        exact absurd ((Option.some.inj hadm).trans hsame) (hbarred hdis)
      · exact absurd hends (hdispute hdis).2
    · exact (hmove.claim_frame hname).trans hstuck.claim
  · intro hdis
    obtain ⟨cfg', hc', hsame⟩ := hstuck.admin hdis
    rcases hmove.config_cases with hkeep | ⟨_, hnone, _⟩ | ⟨p, cfg₁, _, hp, hadm, hc₁, _⟩
    · exact ⟨cfg', hkeep.trans hc', hsame⟩
    · rw [hnone] at hc'
      cases hc'
    · cases hc'.symm.trans hc₁
      exact absurd ((Option.some.inj hp).trans (hadm.symm.trans hsame)) (hbarred hdis)

/-- A claim that is not releasable keeps its task open, whatever the others do. -/
theorem Reaches.no_escape (hr : Reaches h s) (hcfg : s.config = some cfg)
    (hc : s.claims.get c = some r) (hT : r.task = T) (hlive : r.terminal = false)
    (hheld : ¬ Releasable s T cfg r) (M poster : Pubkey) (now : I64) :
    ¬ Escapes s T M poster now := by
  rintro ⟨h', s', hesc⟩
  have hrun := hesc.run.history_invariant_of (P := fun e => WithoutClaimers s T now e.label)
    (I := fun h' s' => Reaches (h' ++ h) s' ∧ Stuck s s' T c cfg r)
    ⟨hr, hc, fun _ => ⟨cfg, hcfg, rfl⟩⟩ (fun h₁ s₁ l out s₂ _ _ hl hI hstep =>
      ⟨hI.1.next hstep, hI.2.step ⟨c, r, hc, hT, rfl⟩ hheld (Reaches.move hI.1 hstep) hstep hl⟩)
    hesc.steps
  obtain ⟨t', ht', hclosed⟩ := hesc.closed
  rw [Reaches.opened_of_live hrun.1 hrun.2.claim (terminal_eq_false.mp hlive) (hT ▸ ht')] at hclosed
  cases hclosed

/-- From a reachable state a task can be closed without its claimers exactly
when all its open claims are releasable. -/
theorem escapes_iff (hr : Reaches h s) (hno : ∀ e ∈ h, e.label.updatesMint = false)
    (hcfg : s.config = some cfg) (ht : s.tasks.get T = some t) (hopen : t.taskStatus = .opened)
    (hfee : s.tokens.holder (.ata .configPda cfg.usdcMint) = some (.configPda, cfg.usdcMint))
    (hata : ∀ c r, s.claims.get c = some r → r.task = T → r.terminal = false →
      s.tokens.holder (.ata r.claimer cfg.usdcMint) = some (r.claimer, cfg.usdcMint))
    (hP : s.tokens.holder P = some (t.poster, cfg.usdcMint)) (now : I64) :
    Escapes s T cfg.usdcMint t.poster now ↔ NoHostage s T cfg := by
  constructor
  · intro hesc c r hc hT hlive
    by_contra hheld
    exact hr.no_escape hcfg hc hT hlive hheld _ _ now hesc
  · exact NoHostage.escapes hr hno hcfg ht hopen hfee hata hP now

end Escape

namespace Scenario

/-- A worker takes one of three slots and never submits. -/
def idle : List Label := setup ++ [fund 10000 3 (clock 5000), enrolls worker 0]

end Scenario

open Scenario in
theorem enrolled_claim_locks :
    Reaches (played idle).1 (played idle).2 ∧
    (∀ e ∈ (played idle).1, e.label.updatesMint = false) ∧
    (played idle).2.config = some ⟨admin, usdc, 400⟩ ∧
    (played idle).2.tasks.get job = some ⟨0, poster, 10000, 3, 1, 0, 0, 0, 5000, 3600⟩ ∧
    (played idle).2.tokens.holder (.ata .configPda usdc) = some (.configPda, usdc) ∧
    (played idle).2.tokens.holder (.ata worker usdc) = some (worker, usdc) ∧
    (played idle).2.tokens.holder (.ata poster usdc) = some (poster, usdc) ∧
    ∀ now, ¬ Escapes (played idle).2 job usdc poster now := by
  have hcfg : (played idle).2.config = some ⟨admin, usdc, 400⟩ := by decide +kernel
  have hc : (played idle).2.claims.get (.claimPda 0) =
      some ⟨0, job, worker, 0, 1100, 0, 0, 0, 0⟩ := by
    decide +kernel
  refine ⟨played_reaches idle, by decide +kernel, hcfg, by decide +kernel, by decide +kernel,
    by decide +kernel, by decide +kernel, ?_⟩
  refine (played_reaches idle).no_escape hcfg hc rfl rfl ?_ usdc poster
  rintro (hst | ⟨hst, _⟩)
  · exact absurd hst (by decide)
  · exact absurd hst (by decide)

open Scenario in
theorem escapes_iff_waiting : Escapes (played waiting).2 job usdc poster (clock 6000) := by
  have hcfg : (played waiting).2.config = some ⟨admin, usdc, 400⟩ := by decide +kernel
  have ht : (played waiting).2.tasks.get job =
      some ⟨0, poster, 10000, 3, 2, 0, 0, 0, 5000, 3600⟩ := by decide +kernel
  have hP : (played waiting).2.tokens.holder (.ata poster usdc) = some (poster, usdc) := by
    decide +kernel
  refine (escapes_iff (played_reaches waiting) (by decide +kernel) hcfg ht rfl (by decide +kernel)
    (fun c r hc _ _ => (waiting_claims c r hc).1) hP (clock 6000)).mpr (fun c r hc _ _ => ?_)
  obtain ⟨_, hst | hst, hends⟩ := waiting_claims c r hc
  · exact .inl hst
  · exact .inr ⟨hst, .inr (hends hst)⟩

end ClustlyEscrow
