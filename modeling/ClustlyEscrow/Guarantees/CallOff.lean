import ClustlyEscrow.Guarantees.Collateral
import ClustlyEscrow.Guarantees.Lifespan
import ClustlyEscrow.Guarantees.Veto

/-!
# Calling a task off

There is no instruction by which the parties of a task call it off together,
but no state keeps them from it: the workers send in what they have, the poster
sends it back until the claims are cancelled, and the admin rules for the
poster where there is a dispute. Everything in the funded vault returns.
-/
namespace ClustlyEscrow
open Foundations

/-- The step opens a token account, or one of the parties signs it. -/
def Label.consented (admin poster : Pubkey) (workers : Pubkey → Prop) (l : Label) : Prop :=
  l.opens = true ∨ ∃ p, l.signedBy? = some p ∧ (p = admin ∨ p = poster ∨ workers p)

/-- The address `p` has a claim on task `T`. -/
def State.worksOn (s : State) (T p : Pubkey) : Prop :=
  ∃ c r, s.claims.get c = some r ∧ r.task = T ∧ r.claimer = p

/-- The parties closed task `T`, and account `P` of the poster got its vault in mint `M`. -/
structure CalledOff (s : State) (T P admin poster M : Pubkey) (h' : History) (s' : State) :
    Prop where
  run : Runs s h' s'
  consented : ∀ e ∈ h', e.label.consented admin poster (s.worksOn T)
  closed : ∃ t', s'.tasks.get T = some t' ∧ t'.taskStatus = .closed
  vault : s'.tokens.holder (.ata T M) = none
  returned : s'.tokens.balance P = s.tokens.balance P + s.tokens.balance (.ata T M)

/-- What the parties keep in place on the way. -/
structure CallingOff (s : State) (T P : Pubkey) (cfg : EscrowConfig) (poster : Pubkey)
    (workers : Pubkey → Prop) (total : ℕ) : Prop where
  config : s.config = some cfg
  opened : ∃ t, s.tasks.get T = some t ∧ t.taskStatus = .opened ∧ t.poster = poster
  account : s.tokens.holder P = some (poster, cfg.usdcMint)
  workers : ∀ c r, s.claims.get c = some r → r.task = T → workers r.claimer
  free : ∀ c r, s.claims.get c = some r → r.task = T → r.status = ClaimStatus.disputed.toU8 →
    AccountFree s.tokens r.claimer cfg.usdcMint
  money : s.tokens.balance P + s.tokens.balance (.ata T cfg.usdcMint) = total

section CallOff
variable {s s' : State} {h h' : History} {l : Label} {out : List Transfer}
  {T P c w poster : Pubkey} {cfg : EscrowConfig} {t : EscrowTask} {r r' : EscrowClaim}
  {workers : Pubkey → Prop} {total : ℕ}

/-! ## Opening accounts -/

theorem fundingMint_of_opens (hopens : ∀ e ∈ h', e.label.opens = true) :
    fundingMint T (h' ++ h) = fundingMint T h := by
  induction h' with
  | nil => rfl
  | cons e h' ih =>
    rw [List.forall_mem_cons] at hopens
    rw [List.cons_append, fundingMint_cons_of_none, ih hopens.2]
    obtain ⟨l, _, _, _⟩ := e
    cases l with
    | token => rfl
    | instr => cases hopens.1

theorem balance_of_opens (hrun : Runs s h' s') (hopens : ∀ e ∈ h', e.label.opens = true)
    (k : Pubkey) : s'.tokens.balance k = s.tokens.balance k := by
  apply hrun.history_invariant_of (P := fun e => e.label.opens = true)
    (I := fun _ s' => s'.tokens.balance k = s.tokens.balance k) rfl ?_ hopens
  intro h₁ s₁ l out s₂ _ _ hl hsame hstep
  cases l with
  | instr => cases hl
  | token op =>
    obtain ⟨b, hb, rfl, _⟩ := token_eq_ok.mp hstep
    cases TokenOp.process_eq_ok.mp hb with
    | createMint | transfer | mintTo | closeAccount | setOwner => cases hl
    | createAccount _ call | createAta call =>
      exact ((Bank.openAccount_eq_ok.mp call).2.2.2.balance k).trans hsame

/-- Nobody but the config is the owner of an associated account of the config. -/
theorem Sound.config_free (hs : Sound s) (mint : Pubkey) :
    AccountFree s.tokens .configPda mint := by
  unfold AccountFree
  cases hk : s.tokens.holder (.ata .configPda mint) with
  | none => exact .inl rfl
  | some om =>
    obtain ⟨o, m⟩ := om
    rw [hs.ata_mint _ _ _ _ hk, hs.ata_owner _ _ _ _ rfl hk]
    exact .inr rfl

/-- A run from `s` by common consent. -/
structure Agreed (h : History) (s : State) (T P : Pubkey) (cfg : EscrowConfig)
    (poster : Pubkey) (workers : Pubkey → Prop) (total : ℕ) (h' : History) (s' : State) :
    Prop where
  run : Runs s h' s'
  consented : ∀ e ∈ h', e.label.consented cfg.admin poster workers
  mint : fundingMint T (h' ++ h) = some cfg.usdcMint
  state : CallingOff s' T P cfg poster workers total

theorem Agreed.trans {h'' : History} {s'' : State}
    (ha : Agreed h s T P cfg poster workers total h' s')
    (hb : Agreed (h' ++ h) s' T P cfg poster workers total h'' s'') :
    Agreed h s T P cfg poster workers total (h'' ++ h') s'' := by
  constructor
  · exact ha.run.trans hb.run
  · rw [List.forall_mem_append]
    exact ⟨hb.consented, ha.consented⟩
  · rw [List.append_assoc]
    exact hb.mint
  · exact hb.state

/-- One associated account more, on the way. -/
theorem CallingOff.open_ata (hco : CallingOff s T P cfg poster workers total) (hs : Sound s)
    (hM : fundingMint T h = some cfg.usdcMint) (hfree : AccountFree s.tokens w cfg.usdcMint) :
    ∃ h₁ s₁, Agreed h s T P cfg poster workers total h₁ s₁ ∧ Opened s s₁ ∧
      s₁.tokens.holder (.ata w cfg.usdcMint) = some (w, cfg.usdcMint) := by
  obtain ⟨h₁, s₁, hrun, hopens, hw, hothers⟩ := hfree.opened hs (hs.mint_mem cfg hco.config)
  have hopened := opened_of_run hrun hopens
  have hmint : fundingMint T (h₁ ++ h) = some cfg.usdcMint := by
    rw [fundingMint_of_opens hopens, hM]
  refine ⟨h₁, s₁, ⟨hrun, fun e he => .inl (hopens e he), hmint, ?_⟩, hopened, hw⟩
  constructor
  · rw [hopened.config, hco.config]
  · rw [hopened.tasks]
    exact hco.opened
  · exact hopened.kept _ _ _ hco.account
  · rw [hopened.claims]
    exact hco.workers
  · rw [hopened.claims]
    intro c r hc hT hst
    by_cases hsame : r.claimer = w
    · rw [hsame]
      exact .inr hw
    · have hold := hco.free c r hc hT hst
      unfold AccountFree at hold ⊢
      rwa [hothers _ fun heq => hsame (Pubkey.ata.inj heq).1]
  · rw [balance_of_opens hrun hopens, balance_of_opens hrun hopens]
    exact hco.money

/-! ## One claim -/

theorem CallingOff.advanced (hco : CallingOff s T P cfg poster workers total) (st : ClaimStatus)
    (he : Advanced s s' out c r r') (htask : r'.task = r.task) (hwho : r'.claimer = r.claimer)
    (hst : r'.status = st.toU8) (hne : st ≠ .disputed) :
    CallingOff s' T P cfg poster workers total := by
  rw [he.post]
  constructor
  · exact hco.config
  · exact hco.opened
  · exact hco.account
  · refine Store.forall_set hco.workers fun hT => ?_
    rw [hwho]
    exact hco.workers c r he.claim (htask ▸ hT)
  · exact Store.forall_set hco.free fun _ hd =>
      absurd (ClaimStatus.toU8_injective (hst.symm.trans hd)) hne
  · exact hco.money

theorem CallingOff.refunded (hco : CallingOff s r.task P cfg poster workers total) (hs : Sound s)
    (st : ClaimStatus) (he : Refunded s s' out c P cfg t r r') (hwho : r'.claimer = r.claimer)
    (hst : r'.status = st.toU8) (hne : st ≠ .disputed) :
    CallingOff s' r.task P cfg poster workers total := by
  constructor
  · rw [he.config', hco.config]
  · obtain ⟨t', ht', hopen, hposter⟩ := hco.opened
    cases he.task.symm.trans ht'
    exact ⟨_, Store.get_of_eq_set he.tasks', hopen, hposter⟩
  · rw [he.tokens'.holder, hco.account]
  · rw [he.claims']
    refine Store.forall_set hco.workers fun _ => ?_
    rw [hwho]
    exact hco.workers c r he.claim rfl
  · rw [he.claims']
    refine Store.forall_set (fun c' q hc' hT hd => ?_) fun _ hd =>
      absurd (ClaimStatus.toU8_injective (hst.symm.trans hd)) hne
    unfold AccountFree
    rw [he.tokens'.holder]
    exact hco.free c' q hc' hT hd
  · have hne := vault_ne_posterAta hs he.task he.vault he.posterAta
    have hle := he.covered
    have hmoney := hco.money
    rw [he.tokens'.balance_source hne, he.tokens'.balance, Bank.movedBalance, if_neg hne,
      if_neg hne.symm, if_pos rfl]
    omega

theorem CallingOff.fires (hco : CallingOff s' T P cfg poster workers total)
    (hstep : Accepts exec s l out s') (hM : fundingMint T h = some cfg.usdcMint)
    (hl : l.fundsIn? T = none) (hsign : l.consented cfg.admin poster workers) :
    Agreed h s T P cfg poster workers total [⟨l, s, s', out⟩] s' := by
  constructor
  · exact .single hstep
  · exact List.forall_mem_singleton.mpr hsign
  · rw [List.singleton_append, fundingMint_cons_of_none hl, hM]
  · exact hco

theorem claimSteps_lt (hmove : Move s s' out l) (htask : l.task? = some T)
    (hclaim : l.claim? = some c) : s.claimSteps T < s'.claimSteps T := by
  have hnames : l.namesClaimOf T = true := by
    simp [Label.namesClaimOf, Label.names, htask, hclaim]
  rw [hmove.claimSteps, if_pos hnames]
  exact Nat.lt_succ_self _

/-- A claim of the task can be brought one step further by common consent. -/
def Furthered (h : History) (s : State) (T P : Pubkey) (cfg : EscrowConfig) (poster : Pubkey)
    (workers : Pubkey → Prop) (total : ℕ) : Prop :=
  ∃ h' s', Agreed h s T P cfg poster workers total h' s' ∧ s.claimSteps T < s'.claimSteps T

theorem CallingOff.furthered (hco : CallingOff s' T P cfg poster workers total)
    (hr : Reaches h s) (hstep : Accepts exec s l out s')
    (hM : fundingMint T h = some cfg.usdcMint) (hl : l.fundsIn? T = none)
    (hsign : l.consented cfg.admin poster workers) (htask : l.task? = some T)
    (hclaim : l.claim? = some c) : Furthered h s T P cfg poster workers total :=
  ⟨_, _, hco.fires hstep hM hl hsign, claimSteps_lt (hr.move hstep) htask hclaim⟩

theorem CallingOff.submits (hr : Reaches h s)
    (hco : CallingOff s r.task P cfg poster workers total)
    (hM : fundingMint r.task h = some cfg.usdcMint) (hc : s.claims.get c = some r)
    (hst : r.status = ClaimStatus.enrolled.toU8 ∨ r.status = ClaimStatus.rejected.toU8)
    (now : I64) : Furthered h s r.task P cfg poster workers total := by
  obtain ⟨t, ht, _⟩ := hco.opened
  have hclaim := hr.sound.claim c r hc
  have hadv : Advanced s { s with claims := s.claims.set c (r.submitted now 0) } [] c r
    (r.submitted now 0) := ⟨⟨t, ht⟩, hc, rfl, rfl⟩
  have hload : ClaimerAccounts.Loaded s ⟨r.claimer, r.task, c⟩ t r :=
    ⟨hclaim.claimer, ht, (hr.sound.task _ t ht).key, hc, hclaim.key, rfl, rfl⟩
  have hstep : Accepts exec s (.instr now (.submit ⟨r.claimer, r.task, c⟩ 0)) [] _ :=
    submit_eq_ok.mpr ⟨t, r, hload, hst, hadv⟩
  have hworker := hco.workers c r hc rfl
  have hco' : CallingOff _ r.task P cfg poster workers total :=
    hco.advanced .submitted hadv rfl rfl rfl (by decide)
  exact hco'.furthered hr hstep hM rfl (.inr ⟨_, rfl, .inr (.inr hworker)⟩) rfl rfl

/-- The bounty of a live claim can go back to the poster. -/
theorem CallingOff.refundable (hr : Reaches h s)
    (hco : CallingOff s r.task P cfg poster workers total)
    (hM : fundingMint r.task h = some cfg.usdcMint) (hc : s.claims.get c = some r)
    (hlive : phaseOf r.status = .live) (r' : EscrowClaim) :
    ∃ t, s.tasks.get r.task = some t ∧ t.taskStatus = .opened ∧ t.poster = poster ∧
      s.tokens.holder (.ata r.task cfg.usdcMint) = some (r.task, cfg.usdcMint) ∧
      t.slotsRefunded + 1 < 2 ^ 16 ∧ ∃ s' out, Refunded s s' out c P cfg t r r' := by
  obtain ⟨t, ht, hopen, hposter⟩ := hco.opened
  obtain ⟨M, hcol⟩ := hr.collateral r.task t ht hopen
  cases hcol.mint.symm.trans hM
  exact ⟨t, ht, hopen, hposter, hcol.vault, (hr.counter_room hc hlive ht).2,
    refund_succeeds hco.config ht hc hcol.vault (hposter ▸ hco.account)
      (hcol.covers hr hc hlive ht) r'⟩

theorem CallingOff.rejects (hr : Reaches h s)
    (hco : CallingOff s r.task P cfg poster workers total)
    (hM : fundingMint r.task h = some cfg.usdcMint) (hc : s.claims.get c = some r)
    (hst : r.status = ClaimStatus.submitted.toU8) (now : I64) :
    Furthered h s r.task P cfg poster workers total := by
  obtain ⟨t, ht, hopen, rfl, hvault, hroom, s₁, out, he⟩ :=
    hco.refundable hr hM hc (live_of_eq hst rfl) (r.rejectedAs .cancelled)
  have hs := hr.sound
  have hrejections : r.rejections + 1 ≤ 3 := by
    obtain ⟨st, hrev⟩ := hr.reviewed c r hc
    cases ClaimStatus.toU8_injective (hrev.status.symm.trans hst)
    have hrounds := hrev.regular.rounds
    simp only [reviewOf, ClaimStatus.stage, Stage.Rounds, maxRejections] at hrounds
    omega
  have hload : RejectClaim.Loaded s
      ⟨t.poster, .configPda, r.task, c, .ata r.task cfg.usdcMint, P⟩ cfg t r :=
    ⟨(hs.task _ t ht).poster, rfl, hco.config, ht, (hs.task _ t ht).key, rfl, hc,
      (hs.claim c r hc).key, rfl, rfl, ⟨_, hvault⟩, hco.account⟩
  have fires {s₁ : State} {out : List Transfer} (hrej : Rejection s s₁ out c P cfg t r) :
      Accepts exec s (.instr now (.rejectClaim
        ⟨t.poster, .configPda, r.task, c, .ata r.task cfg.usdcMint, P⟩)) out s₁ :=
    (rejectClaim_eq_ok hs).mpr ⟨cfg, t, r, hload, hopen, hst, by omega, hrej⟩
  by_cases hlast : maxRejections ≤ r.rejections + 1
  · have hco' := hco.refunded hs .cancelled he rfl rfl (by decide)
    exact hco'.furthered hr (fires (.inl ⟨hlast, hroom, he⟩)) hM rfl
      (.inr ⟨_, rfl, .inr (.inl rfl)⟩) rfl rfl
  · have hadv : Advanced s { s with claims := s.claims.set c (r.rejectedAs .rejected) } [] c r
      (r.rejectedAs .rejected) := ⟨⟨t, ht⟩, hc, rfl, rfl⟩
    have hco' := hco.advanced .rejected hadv rfl rfl rfl (by decide)
    exact hco'.furthered hr (fires (.inr ⟨not_le.mp hlast, hadv⟩)) hM rfl
      (.inr ⟨_, rfl, .inr (.inl rfl)⟩) rfl rfl

theorem CallingOff.rules (hr : Reaches h s)
    (hco : CallingOff s r.task P cfg poster workers total)
    (hM : fundingMint r.task h = some cfg.usdcMint) (hc : s.claims.get c = some r)
    (hst : r.status = ClaimStatus.disputed.toU8) (hadmin : cfg.admin.canSign = true)
    (hw : s.tokens.holder (.ata r.claimer cfg.usdcMint) = some (r.claimer, cfg.usdcMint))
    (hf : s.tokens.holder (.ata .configPda cfg.usdcMint) = some (.configPda, cfg.usdcMint))
    (now : I64) : Furthered h s r.task P cfg poster workers total := by
  obtain ⟨t, ht, _, rfl, hvault, hroom, s₁, out, he⟩ :=
    hco.refundable hr hM hc (live_of_eq hst rfl) (r.setStatus .resolvedPoster)
  have hs := hr.sound
  have hload := payoutOf_loaded hs hco.config ht hc ⟨hvault, hw, hf⟩
  have hruling : Ruling s s₁ out ⟨payoutOf cfg c r, cfg.admin, P⟩ cfg t r .poster := ⟨hroom, he⟩
  have hstep : Accepts exec s
      (.instr now (.resolveDispute ⟨payoutOf cfg c r, cfg.admin, P⟩ .poster)) out s₁ := by
    change resolveDispute s ⟨payoutOf cfg c r, cfg.admin, P⟩ .poster = .ok (s₁, out)
    exact (resolveDispute_eq_ok hs).mpr
      ⟨cfg, t, r, hload, rfl, hadmin, rfl, hco.account, hst, hruling⟩
  have hco' := hco.refunded hs .resolvedPoster he rfl rfl (by decide)
  exact hco'.furthered hr hstep hM rfl (.inr ⟨_, rfl, .inl rfl⟩) rfl rfl

theorem Furthered.after (ha : Agreed h s T P cfg poster workers total h' s')
    (hopened : Opened s s') (hf : Furthered (h' ++ h) s' T P cfg poster workers total) :
    Furthered h s T P cfg poster workers total := by
  obtain ⟨h₁, s₁, hb, hlt⟩ := hf
  have hsame : s'.claimSteps T = s.claimSteps T := by
    rw [State.claimSteps, hopened.claims]
    rfl
  exact ⟨_, s₁, ha.trans hb, hsame ▸ hlt⟩

/-- Whatever a claim waits for, one of the parties can see to it. -/
theorem CallingOff.step (hr : Reaches h s)
    (hco : CallingOff s r.task P cfg poster workers total)
    (hM : fundingMint r.task h = some cfg.usdcMint) (hadmin : cfg.admin.canSign = true)
    (hc : s.claims.get c = some r) (hlive : phaseOf r.status = .live) (now : I64) :
    Furthered h s r.task P cfg poster workers total := by
  have hs := hr.sound
  obtain ⟨st, hst⟩ := (hs.claim c r hc).status
  cases st with
  | enrolled => exact hco.submits hr hM hc (.inl hst) now
  | rejected => exact hco.submits hr hM hc (.inr hst) now
  | submitted => exact hco.rejects hr hM hc hst now
  | disputed =>
    -- A ruling asks for two associated accounts, which anybody can open.
    obtain ⟨h₁, s₁, ha, hopened, hw⟩ := hco.open_ata hs hM (hco.free c r hc rfl hst)
    have hr₁ : Reaches (h₁ ++ h) s₁ := hr.trans ha.run
    obtain ⟨h₂, s₂, hb, hopened', hf⟩ :=
      ha.state.open_ata hr₁.sound ha.mint (hr₁.sound.config_free cfg.usdcMint)
    have hr₂ : Reaches (h₂ ++ (h₁ ++ h)) s₂ := Run.trans hr₁ hb.run
    have hc₂ : s₂.claims.get c = some r := by
      rw [hopened'.claims, hopened.claims, hc]
    have hrules := hb.state.rules hr₂ hb.mint hc₂ hst hadmin (hopened'.kept _ _ _ hw) hf now
    exact (hrules.after hb hopened').after ha hopened
  | approved | cancelled | resolvedDeliverer | resolvedPoster =>
    rw [hst] at hlive
    cases hlive

/-! ## The whole task -/

theorem Reaches.claimSteps_bound (hr : Reaches h s) (ht : s.tasks.get T = some t) :
    s.claimSteps T ≤ 700 := by
  have hle := hr.claimSteps_le T
  have hcensus := hr.census ht
  have hroom := hcensus.enrolled_le
  have hmax := hcensus.slots_le
  rw [← hcensus.enrolled] at hle
  unfold maxSlotsLimit at hmax
  omega

/-- By induction on the steps that are left for the claims. -/
theorem CallingOff.settled (hadmin : cfg.admin.canSign = true) (now : I64) (n : ℕ) :
    ∀ {h s}, Reaches h s → CallingOff s T P cfg poster workers total →
      fundingMint T h = some cfg.usdcMint → 700 ≤ s.claimSteps T + n →
      ∃ h' s', Agreed h s T P cfg poster workers total h' s' ∧
        ∀ c r, s'.claims.get c = some r → r.task = T → phaseOf r.status ≠ .live := by
  induction n with
  | zero =>
    intro h s hr hco hM hn
    refine ⟨[], s, ⟨.start, by simp, hM, hco⟩, fun c r hc hT hlive => ?_⟩
    subst hT
    obtain ⟨h₁, s₁, ha, hlt⟩ := hco.step hr hM hadmin hc hlive now
    obtain ⟨t, ht, _⟩ := ha.state.opened
    have hbound := Reaches.claimSteps_bound (hr.trans ha.run) ht
    omega
  | succ n ih =>
    intro h s hr hco hM hn
    by_cases hex : ∃ c r, s.claims.get c = some r ∧ r.task = T ∧ phaseOf r.status = .live
    · obtain ⟨c, r, hc, hT, hlive⟩ := hex
      subst hT
      obtain ⟨h₁, s₁, ha, hlt⟩ := hco.step hr hM hadmin hc hlive now
      obtain ⟨h₂, s₂, hb, hdone⟩ := ih (hr.trans ha.run) ha.state ha.mint (by omega)
      exact ⟨_, s₂, ha.trans hb, hdone⟩
    · exact ⟨[], s, ⟨.start, by simp, hM, hco⟩, fun c r hc hT hlive => hex ⟨c, r, hc, hT, hlive⟩⟩

/-- From every reachable state, whatever was done to the mint and the claims, and
at whatever time: the parties of an open task can call it off, and everything in
the vault that was funded goes back to the poster. They need an admin who can sign
and an account of the poster in the funding mint, and no worker with an open
dispute may have handed his associated account over. -/
theorem called_off {M : Pubkey} (hr : Reaches h s) (hcfg : s.config = some cfg)
    (hadmin : cfg.admin.canSign = true) (ht : s.tasks.get T = some t)
    (hopen : t.taskStatus = .opened) (hM : fundingMint T h = some M)
    (hP : s.tokens.holder P = some (t.poster, M))
    (hfree : ∀ c r, s.claims.get c = some r → r.task = T →
      r.status = ClaimStatus.disputed.toU8 → AccountFree s.tokens r.claimer M) (now : I64) :
    ∃ h' s', CalledOff s T P cfg.admin t.poster M h' s' := by
  -- The config names the funding mint again.
  have hstep : Accepts exec s (.instr now (.updateMint ⟨⟨.configPda, cfg.admin⟩, M⟩)) []
      { s with config := some { cfg with usdcMint := M } } :=
    updateMint_eq_ok.mpr ⟨cfg, rfl, hr.funding_mint_mem T M hM, ⟨hcfg, rfl, hadmin, rfl, rfl⟩⟩
  have hco : CallingOff { s with config := some { cfg with usdcMint := M } } T P
      { cfg with usdcMint := M } t.poster (s.worksOn T)
      (s.tokens.balance P + s.tokens.balance (.ata T M)) :=
    ⟨rfl, ⟨t, ht, hopen, rfl⟩, hP, fun c r hc hT => ⟨c, r, hc, hT, rfl⟩, hfree, rfl⟩
  have ha : Agreed h s T P { cfg with usdcMint := M } t.poster (s.worksOn T) _ _ _ :=
    hco.fires hstep hM rfl (.inr ⟨_, rfl, .inl rfl⟩)
  have hr₁ := hr.trans ha.run
  -- The claims are settled, and the task is closed.
  have hsigns : ({ cfg with usdcMint := M } : EscrowConfig).admin.canSign = true := hadmin
  obtain ⟨h₂, s₂, hb, hdone⟩ := CallingOff.settled hsigns now 700 hr₁ hco ha.mint (by omega)
  have hr₂ := Run.trans hr₁ hb.run
  obtain ⟨t₂, ht₂, hopen₂, hposter⟩ := hb.state.opened
  obtain ⟨_, hcol⟩ := Reaches.collateral hr₂ T t₂ ht₂ hopen₂
  cases hcol.mint.symm.trans hb.mint
  obtain ⟨s₃, out, hclose, he⟩ :=
    hcol.close hr₂ hb.state.config ht₂ hopen₂ (hposter ▸ hb.state.account) hdone now
  have hall := ha.trans hb
  refine ⟨_, s₃, hall.run.next hclose, ?_, ?_, ?_, ?_⟩
  · rw [List.forall_mem_cons]
    exact ⟨.inr ⟨_, rfl, .inr (.inl hposter)⟩, hall.consented⟩
  · exact ⟨_, Store.get_of_eq_set he.tasks', rfl⟩
  · rw [he.tokens'.holder, Function.update_self]
  · rw [he.credited (Reaches.sound hr₂)]
    exact hb.state.money

end CallOff

namespace Scenario

/-- The helper contests the rejection. -/
def appealed : List Label := twoClaims ++ [disputes (clock 1400) helper 1]

theorem appealed_atas (c : Pubkey) (r : EscrowClaim)
    (hc : (played appealed).2.claims.get c = some r) :
    (played appealed).2.tokens.holder (.ata r.claimer usdc) = some (r.claimer, usdc) :=
  of_decide_eq_true (Store.forall_of_keys (p := fun _ r => decide
    ((played appealed).2.tokens.holder (.ata r.claimer usdc) = some (r.claimer, usdc)))
    (by decide +kernel) c r hc)

end Scenario

open Scenario in
theorem called_off_appealed : ∃ h' s',
    CalledOff (played appealed).2 job (.ata poster usdc) admin poster usdc h' s' :=
  called_off (played_reaches appealed)
    (show _ = some ⟨admin, usdc, 400⟩ by decide +kernel) rfl
    (show _ = some ⟨0, poster, 10000, 3, 2, 1, 0, 0, 5000, 3600⟩ by decide +kernel) rfl
    (show fundingMint job _ = some usdc by decide +kernel) (by decide +kernel)
    (fun c r hc _ _ => .inr (appealed_atas c r hc)) late

end ClustlyEscrow
