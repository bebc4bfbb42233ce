import ClustlyEscrow.Guarantees.Collateral
import ClustlyEscrow.Guarantees.Lifecycle

/-!
# What a worker can count on

A worker loses a bounty to an admin who rules against him or who has it paid in
another mint, or by sending his work in a third time. Otherwise he is never
trapped: at every moment of every run he has been paid, or he and any stranger
can get him paid, without the poster and the admin.
-/
namespace ClustlyEscrow
open Foundations

/-- The step is the ruling of the admin that claim `c` goes to the poster. -/
def Label.rulesAgainst (c : Pubkey) : Label → Bool
  | .instr _ (.resolveDispute a .poster) => decide (a.claim = c)
  | _ => false

/-- At most two steps that pay claim `c`, each signed by the claimer at clock `now`
or by `caller` at clock `last`. -/
structure Collected (s : State) (c caller : Pubkey) (now last : I64) (cfg : EscrowConfig)
    (t : EscrowTask) (r : EscrowClaim) (h' : History) (s' : State) : Prop where
  run : Runs s h' s'
  short : h'.length ≤ 2
  signed : ∀ e ∈ h', e.label.signedBy? = some r.claimer ∧ e.label.clock? = some now ∨
    e.label.signedBy? = some caller ∧ e.label.clock? = some last
  settled : ∃ r', s'.claims.get c = some r' ∧ r'.PaidOut
  paid : ∃ e ∈ h', e.output =
    transferList (.ata r.task cfg.usdcMint) (.ata r.claimer cfg.usdcMint)
      (netOf t.bounty cfg.feeBps) ++
    transferList (.ata r.task cfg.usdcMint) (.ata .configPda cfg.usdcMint)
      (feeOf t.bounty cfg.feeBps)

section Worker
variable {s s' : State} {h h' : History} {l : Label} {out : List Transfer}
  {c caller M : Pubkey} {cfg : EscrowConfig} {t t' : EscrowTask} {r r' : EscrowClaim}
  {net fee : ℕ} {now last : I64}

/-! ## What was paid, and what was ruled -/

theorem Payout.of_terms {e : EscrowEvent} (hp : Payout e r t M net fee) (hterms : t.SameTerms t') :
    Payout e r t' M net fee := by
  constructor
  · rw [hterms.bounty]
    exact hp.fee_eq
  · rw [hterms.bounty]
    exact hp.split
  · rw [hterms.bounty]
    exact hp.net_ge
  · exact hp.transfers

theorem Payout.configMint {e : EscrowEvent} (hp : Payout e r t M net fee) :
    configMint e = some M := by
  obtain ⟨cfg, hcfg, rfl, _⟩ := hp.fee_eq
  simp [ClustlyEscrow.configMint, hcfg]

/-- A payout is never empty. -/
theorem Payout.moves {e : EscrowEvent} {T : Pubkey} (hp : Payout e r t M net fee)
    (ht : t.Ok T) : e.output ≠ [] := by
  have hnet := hp.net_ge
  have hpos := ht.bounty_pos
  have hnonempty : 0 < net := by omega
  rw [hp.transfers, transferList, if_pos hnonempty]
  simp

/-- A claim that is settled for its claimer was paid, in whatever mint. -/
theorem Reaches.payout_of_paidOut (hr : Reaches h s) : ∀ c r t, s.claims.get c = some r →
    s.tasks.get r.task = some t → r.PaidOut →
    ∃ e ∈ h, e.label.claim? = some c ∧ ∃ M net fee, Payout e r t M net fee := by
  apply hr.history_invariant (I := fun h s => ∀ c r t, s.claims.get c = some r →
    s.tasks.get r.task = some t → r.PaidOut →
    ∃ e ∈ h, e.label.claim? = some c ∧ ∃ M net fee, Payout e r t M net fee)
    (by simp [State.genesis])
  intro h s l out s' hrun ih hstep c r' t' hc' ht' hpaid
  have hmove := Reaches.move hrun hstep
  by_cases hl : l.claim? = some c
  · refine ⟨_, List.mem_cons_self, hl, ?_⟩
    have hphase := paidOut_iff.mp hpaid
    rcases (hmove.touch hl).left_settled hc' (by simp [hphase]) with
      ⟨cfg, t, r, outcome, hg, he, rfl⟩ | ⟨_, _, _, _, hg, _⟩
    · exact ⟨_, _, _, (he.payout (Reaches.sound hrun)).of_terms (hmove.terms he.task ht')⟩
    · rw [hg.phase_post] at hphase
      cases hphase
  · have hc := (hmove.claim_frame hl).symm.trans hc'
    obtain ⟨t, ht⟩ := Reaches.parent hrun hc
    obtain ⟨e, hmem, hname, M, net, fee, hp⟩ := ih c r' t hc ht hpaid
    exact ⟨e, List.mem_cons_of_mem _ hmem, hname, M, net, fee, hp.of_terms (hmove.terms ht ht')⟩

/-- Only the ruling of the admin resolves a dispute for the poster. -/
theorem Reaches.ruled_against (hr : Reaches h s) : ∀ c r, s.claims.get c = some r →
    r.status = ClaimStatus.resolvedPoster.toU8 → ∃ e ∈ h, e.label.rulesAgainst c = true := by
  apply hr.history_invariant (I := fun h s => ∀ c r, s.claims.get c = some r →
    r.status = ClaimStatus.resolvedPoster.toU8 → ∃ e ∈ h, e.label.rulesAgainst c = true)
    (by simp [State.genesis])
  intro h s l out s' hrun ih hstep c r' hc' hst
  have hmove := Reaches.move hrun hstep
  by_cases hl : l.claim? = some c
  · refine ⟨_, List.mem_cons_self, ?_⟩
    rcases (hmove.touch hl).left_settled hc' (by rw [hst]; decide) with
      ⟨_, _, _, _, hg, _, rfl⟩ | ⟨_, _, _, _, hg, _⟩
    · cases hg <;> cases hst
    · cases hg with
      | reject => cases hst
      | resolve => exact decide_eq_true (Option.some.inj hl)
  · have hc := (hmove.claim_frame hl).symm.trans hc'
    obtain ⟨e, hmem, hrules⟩ := ih c r' hc hst
    exact ⟨e, List.mem_cons_of_mem _ hmem, hrules⟩

/-- A claim that was sent in at most twice and not ruled against was not sent back. -/
theorem Reaches.not_sentBack (hr : Reaches h s) (hc : s.claims.get c = some r)
    (hsubs : submissions c h ≤ 2) (hrules : ∀ e ∈ h, e.label.rulesAgainst c = false) :
    ¬ r.SentBack := by
  rintro (hst | hst)
  · obtain ⟨st, hrev⟩ := hr.reviewed c r hc
    cases ClaimStatus.toU8_injective (hrev.status.symm.trans hst)
    have hrounds := hrev.regular.rounds
    have hcount := hrev.regular.submissions
    simp only [reviewOf, ClaimStatus.stage, Stage.Rounds, Stage.underReview, maxRejections]
      at hrounds hcount
    omega
  · obtain ⟨e, he, hrule⟩ := hr.ruled_against c r hc hst
    rw [hrules e he] at hrule
    cases hrule

/-! ## Collecting -/

theorem crankOutcome_paidOut (x : Pubkey × EscrowClaim) :
    (x.2.setStatus (crankOutcome x)).PaidOut := by
  unfold crankOutcome
  split_ifs
  · exact .inl rfl
  · exact .inr rfl

theorem signedBy_crank (clock : Pubkey → I64) (x : Pubkey × EscrowClaim) :
    (crank cfg caller clock x).signedBy? = some caller ∧
      (crank cfg caller clock x).clock? = some (clock x.1) := by
  unfold crank
  split_ifs <;> exact ⟨rfl, rfl⟩

/-- Late enough a stranger can pay a submitted or disputed claim out of the funded vault. -/
theorem Reaches.cranked (hr : Reaches h s) (htame : ClocksTame h)
    (hcol : Collateral h s r.task t cfg.usdcMint) (hcfg : s.config = some cfg)
    (hc : s.claims.get c = some r) (ht : s.tasks.get r.task = some t)
    (hst : r.status = ClaimStatus.submitted.toU8 ∨ r.status = ClaimStatus.disputed.toU8)
    (hready : PayoutReady s cfg r.task r.claimer) (hcaller : caller.canSign = true)
    (hlate : 2 ^ 62 + 14 * 24 * 60 * 60 ≤ last.val) : ∃ s' out,
      Accepts exec s (crank cfg caller (fun _ => last) (c, r)) out s' ∧
        Paid s s' out c cfg t r (crankOutcome (c, r)) := by
  have hs := hr.sound
  have hlive : phaseOf r.status = .live := by
    rcases hst with hst | hst <;> exact live_of_eq hst rfl
  have hroom := (hr.counter_room hc hlive ht).1
  obtain ⟨s', out, he⟩ :=
    hready.pays hs hcfg ht hc (hcol.covers hr hc hlive ht) (crankOutcome (c, r))
  have hload := payoutOf_loaded hs hcfg ht hc hready
  refine ⟨s', out, ?_, he⟩
  rcases hst with hst | hst
  · obtain ⟨u, b, _, hu, hsince⟩ := hr.since_submit hc hst
    obtain ⟨hpos, hlt⟩ := Since.tame hsince htame
    have hel := Elapsed.of_late (hu ▸ hpos) (hu ▸ hlt) hlate
    rw [crankOutcome, if_pos hst] at he
    rw [crank, if_pos hst]
    exact (autoApprove_eq_ok hs).mpr
      ⟨cfg, t, r, hload, rfl, hcaller, hr.opened_of_live hc hlive ht, hst, hel, hroom, he⟩
  · obtain ⟨u, b, _, hu, hsince⟩ := hr.since_dispute hc hst
    obtain ⟨hpos, hlt⟩ := Since.tame hsince htame
    have hel := Elapsed.of_late (hu ▸ hpos) (hu ▸ hlt) hlate
    have hne : r.status ≠ ClaimStatus.submitted.toU8 := by
      rw [hst]
      decide
    rw [crankOutcome, if_neg hne] at he
    rw [crank, if_neg hne]
    exact (autoResolveDispute_eq_ok hs).mpr
      ⟨cfg, t, r, hload, rfl, hcaller, hst, hel, hroom, he⟩

theorem Paid.collected (now : I64)
    (hstep : Accepts exec s (crank cfg caller (fun _ => last) (c, r)) out s')
    (he : Paid s s' out c cfg t r (crankOutcome (c, r))) :
    Collected s c caller now last cfg t r
      [⟨crank cfg caller (fun _ => last) (c, r), s, s', out⟩] s' := by
  constructor
  · exact .single hstep
  · exact Nat.le_succ 1
  · rw [List.forall_mem_singleton]
    exact .inr (signedBy_crank (fun _ => last) (c, r))
  · exact ⟨_, by rw [he.claims', Store.get_set_self], crankOutcome_paidOut (c, r)⟩
  · exact ⟨_, List.mem_singleton_self _, he.transfers⟩

/-- A step of the claimer in front of one that pays. -/
theorem Collected.after {s₁ : State} {e : EscrowEvent} (hstep : Accepts exec s l out s₁)
    (hsign : l.signedBy? = some r.claimer ∧ l.clock? = some now) (htask : r'.task = r.task)
    (hclaimer : r'.claimer = r.claimer) (hcol : Collected s₁ c caller now last cfg t r' [e] s') :
    Collected s c caller now last cfg t r [e, ⟨l, s, s₁, out⟩] s' := by
  constructor
  · exact (Run.single hstep).trans hcol.run
  · exact le_rfl
  · rw [List.forall_mem_cons, List.forall_mem_singleton]
    exact ⟨hclaimer ▸ hcol.signed e (List.mem_singleton_self e), .inl hsign⟩
  · exact hcol.settled
  · obtain ⟨f, hf, hout⟩ := hcol.paid
    rw [htask, hclaimer] at hout
    exact ⟨f, List.mem_cons.mpr (.inl (List.mem_singleton.mp hf)), hout⟩

/-- The claimer of a claim that waits for him moves it on, and a stranger pays it. -/
theorem Reaches.moved_on (hr : Reaches h s) (htame : ClocksTame h)
    (hcol : Collateral h s r.task t cfg.usdcMint) (hcfg : s.config = some cfg)
    (ht : s.tasks.get r.task = some t) (hopen : t.taskStatus = .opened)
    (hready : PayoutReady s cfg r.task r.claimer) (hcaller : caller.canSign = true)
    (hlate : 2 ^ 62 + 14 * 24 * 60 * 60 ≤ last.val) (hnow : 0 < now.val ∧ now.val < 2 ^ 62)
    {ix : Instruction} {s₁ : State} (hstep : Accepts exec s (.instr now ix) out s₁)
    (he : Advanced s s₁ out c r r') (hsign : ix.signedBy = r.claimer) (htask : r'.task = r.task)
    (hclaimer : r'.claimer = r.claimer)
    (hst : r'.status = ClaimStatus.submitted.toU8 ∨ r'.status = ClaimStatus.disputed.toU8) :
    ∃ h' s', Collected s c caller now last cfg t r h' s' := by
  have hmove := hr.move hstep
  have htame₁ : ClocksTame (⟨.instr now ix, s, s₁, out⟩ :: h) := by
    rw [ClocksTame, List.forall_mem_cons]
    refine ⟨fun u hu => ?_, htame⟩
    cases hu
    exact hnow
  have hsame : s₁.tasks = s.tasks ∧ s₁.tokens = s.tokens ∧ s₁.config = s.config := by
    rw [he.post]
    exact ⟨rfl, rfl, rfl⟩
  have ht₁ : s₁.tasks.get r.task = some t := by rw [hsame.1, ht]
  have hcol₁ := hcol.step hr hmove (hmove.fundsIn_none ht) ht ht₁ hopen
  have hready₁ : PayoutReady s₁ cfg r'.task r'.claimer := by
    rw [htask, hclaimer]
    constructor
    all_goals rw [hsame.2.1]
    · exact hready.vault
    · exact hready.claimerAta
    · exact hready.feeVault
  rw [← htask] at hcol₁ ht₁
  obtain ⟨s', out', hcrank, hpaid⟩ := Reaches.cranked (hr.next hstep) htame₁ hcol₁
    (hsame.2.2.trans hcfg) (by rw [he.post, Store.get_set_self]) ht₁ hst hready₁ hcaller hlate
  exact ⟨_, s',
    (hpaid.collected now hcrank).after hstep ⟨congrArg some hsign, rfl⟩ htask hclaimer⟩

/-- In every run: a worker who sent his work in at most twice, whom no ruling of
the admin went against and whose claim was not settled in another mint, has been
paid in the funding mint, or a step of his own and one of any stranger are enough
to pay him in full. The clocks must not lie far off, and the accounts that a
payout needs must be there. -/
theorem worker_collects (hr : Reaches h s) (htame : ClocksTame h) (hcfg : s.config = some cfg)
    (hc : s.claims.get c = some r) (ht : s.tasks.get r.task = some t)
    (hM : fundingMint r.task h = some cfg.usdcMint)
    (hfee : s.tokens.holder (.ata .configPda cfg.usdcMint) = some (.configPda, cfg.usdcMint))
    (hata : s.tokens.holder (.ata r.claimer cfg.usdcMint) = some (r.claimer, cfg.usdcMint))
    (hcaller : caller.canSign = true) (hsubs : submissions c h ≤ 2)
    (hrules : ∀ e ∈ h, e.label.rulesAgainst c = false)
    (hmint : ∀ e ∈ h, e.label.claim? = some c → e.output ≠ [] →
      configMint e = fundingMint r.task h) :
    (∃ e ∈ h, e.label.claim? = some c ∧ ∃ net fee, Payout e r t cfg.usdcMint net fee) ∨
    ∀ now last : I64, 0 < now.val → now.val < 2 ^ 62 →
      2 ^ 62 + 14 * 24 * 60 * 60 ≤ last.val →
        ∃ h' s', Collected s c caller now last cfg t r h' s' := by
  have hnot := hr.not_sentBack hc hsubs hrules
  cases hphase : phaseOf r.status with
  | approved =>
    obtain ⟨e, he, hname, M, net, fee, hpay⟩ :=
      hr.payout_of_paidOut c r t hc ht (paidOut_iff.mpr hphase)
    have hpaid := hpay.configMint.symm.trans (hmint e he hname (hpay.moves (hr.sound.task _ t ht)))
    cases hpaid.trans hM
    exact .inl ⟨e, he, hname, net, fee, hpay⟩
  | refunded => exact absurd (sentBack_iff.mpr hphase) hnot
  | live =>
    refine .inr fun now last hpos hlt hlate => ?_
    have hs := hr.sound
    have hopen := hr.opened_of_live hc hphase ht
    obtain ⟨M, hcol⟩ := hr.collateral r.task t ht hopen
    cases hcol.mint.symm.trans hM
    have hready : PayoutReady s cfg r.task r.claimer := ⟨hcol.vault, hata, hfee⟩
    have hclaim := hs.claim c r hc
    have hload : ClaimerAccounts.Loaded s ⟨r.claimer, r.task, c⟩ t r :=
      ⟨hclaim.claimer, ht, (hs.task r.task t ht).key, hc, hclaim.key, rfl, rfl⟩
    have submits (hst : r.status = ClaimStatus.enrolled.toU8) :
        ∃ h' s', Collected s c caller now last cfg t r h' s' := by
      have hadv : Advanced s { s with claims := s.claims.set c (r.submitted now 0) } [] c r
        (r.submitted now 0) := ⟨⟨t, ht⟩, hc, rfl, rfl⟩
      have hstep : Accepts exec s (.instr now (.submit ⟨r.claimer, r.task, c⟩ 0)) [] _ :=
        submit_eq_ok.mpr ⟨t, r, hload, .inl hst, hadv⟩
      exact hr.moved_on htame hcol hcfg ht hopen hready hcaller hlate ⟨hpos, hlt⟩ hstep hadv rfl
        rfl rfl (.inl rfl)
    have disputes (hst : r.status = ClaimStatus.rejected.toU8) :
        ∃ h' s', Collected s c caller now last cfg t r h' s' := by
      have hadv : Advanced s { s with claims := s.claims.set c (r.disputed now) } [] c r
        (r.disputed now) := ⟨⟨t, ht⟩, hc, rfl, rfl⟩
      have hstep : Accepts exec s (.instr now (.openDispute ⟨r.claimer, r.task, c⟩)) [] _ :=
        openDispute_eq_ok.mpr ⟨t, r, hload, hst, hadv⟩
      exact hr.moved_on htame hcol hcfg ht hopen hready hcaller hlate ⟨hpos, hlt⟩ hstep hadv rfl
        rfl rfl (.inr rfl)
    have cranked (hst : r.status = ClaimStatus.submitted.toU8 ∨
        r.status = ClaimStatus.disputed.toU8) :
        ∃ h' s', Collected s c caller now last cfg t r h' s' := by
      obtain ⟨s', out, hstep, he⟩ :=
        hr.cranked htame hcol hcfg hc ht hst hready hcaller hlate
      exact ⟨_, s', he.collected now hstep⟩
    obtain ⟨st, hst⟩ := hclaim.status
    cases st with
    | enrolled => exact submits hst
    | submitted => exact cranked (.inl hst)
    | rejected => exact disputes hst
    | disputed => exact cranked (.inr hst)
    | approved | cancelled | resolvedDeliverer | resolvedPoster =>
      rw [hst] at hphase
      cases hphase

end Worker

open Scenario in
theorem worker_collects_rejected : ∃ h' s',
    Collected (played twoClaims).2 (.claimPda 1) stranger (clock 1500) late ⟨admin, usdc, 400⟩
      ⟨0, poster, 10000, 3, 2, 1, 0, 0, 5000, 3600⟩ ⟨1, job, helper, 3, 1100, 1200, 0, 1, 99⟩
      h' s' := by
  have hr := played_reaches twoClaims
  have ht : (played twoClaims).2.tasks.get job =
      some ⟨0, poster, 10000, 3, 2, 1, 0, 0, 5000, 3600⟩ := by decide +kernel
  have hcollect := worker_collects hr (by decide +kernel)
    (show _ = some ⟨admin, usdc, 400⟩ by decide +kernel)
    (show (played twoClaims).2.claims.get (.claimPda 1) =
      some ⟨1, job, helper, 3, 1100, 1200, 0, 1, 99⟩ by decide +kernel)
    ht (by decide +kernel) (by decide +kernel) (by decide +kernel)
    (show stranger.canSign = true from rfl) (by decide +kernel) (by decide +kernel)
    (by decide +kernel)
  have hunpaid : ∀ e ∈ (played twoClaims).1,
      e.label.claim? = some (.claimPda 1) → e.output = [] := by decide +kernel
  rcases hcollect with ⟨e, he, hname, _, _, hpay⟩ | hsteps
  · exact absurd (hunpaid e he hname) (hpay.moves (Reaches.sound hr |>.task job _ ht))
  · exact hsteps (clock 1500) late (by decide) (by decide) (by decide)

end ClustlyEscrow
