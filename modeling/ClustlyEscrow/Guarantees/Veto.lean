import ClustlyEscrow.Guarantees.Deal
import ClustlyEscrow.Guarantees.Payoff

/-!
# The loser of a dispute and the ruling

`resolve_dispute` asks for an account of the claimer and one of the poster
whichever way it rules. Any account of the poster will do, and anybody can
open one. The account of the claimer has to be the associated one, and once
its owner has handed it over nobody can put another one in its place.
-/
namespace ClustlyEscrow
open Foundations

/-- The owner who signs an outside operation on an account. -/
def TokenOp.owner? : TokenOp → Option Pubkey
  | .transfer authority _ _ _ => some authority
  | .closeAccount authority _ => some authority
  | .setOwner authority _ _ => some authority
  | _ => none

def Label.owner? : Label → Option Pubkey
  | .instr _ _ => none
  | .token op => op.owner?

/-- The step opens a token account and does nothing else. -/
def Label.opens : Label → Bool
  | .token (.createAccount _ _ _) => true
  | .token (.createAta _ _) => true
  | _ => false

/-- The party that a ruling goes against. -/
def DisputeFavor.loser (t : EscrowTask) (r : EscrowClaim) : DisputeFavor → Pubkey
  | .deliverer => t.poster
  | .poster => r.claimer

/-- After at most opening token accounts the admin's ruling on claim `c` succeeds. -/
def CanRule (s : State) (c : Pubkey) (favor : DisputeFavor) : Prop :=
  ∃ h₁ s₁, Runs s h₁ s₁ ∧ (∀ e ∈ h₁, e.label.opens = true) ∧ ∃ now a out s₂ cfg t r,
    Accepts exec s₁ (.instr now (.resolveDispute a favor)) out s₂ ∧ a.claim = c ∧
      Ruling s₁ s₂ out a cfg t r favor

/-- The associated account of the claimer is in place or still to be opened. -/
def AccountFree (b : Bank Pubkey) (claimer mint : Pubkey) : Prop :=
  b.holder (.ata claimer mint) = none ∨ b.holder (.ata claimer mint) = some (claimer, mint)

/-! ## What outside steps leave alone -/

structure SameRecords (s s' : State) : Prop where
  config : s'.config = s.config
  tasks : s'.tasks = s.tasks
  claims : s'.claims = s.claims
  mints : s'.tokens.mints = s.tokens.mints

theorem SameRecords.trans {s s' s'' : State} (h : SameRecords s s') (h' : SameRecords s' s'') :
    SameRecords s s'' :=
  ⟨h'.config.trans h.config, h'.tasks.trans h.tasks, h'.claims.trans h.claims,
    h'.mints.trans h.mints⟩

section Outside
variable {s s' : State} {h : History} {l : Label} {out : List Transfer} {p k o m : Pubkey}

/-- What the owner `p` can do to the accounts. -/
structure Tampered (p : Pubkey) (s s' : State) : Prop extends SameRecords s s' where
  unopened : ∀ k, s.tokens.holder k = none → s'.tokens.holder k = none
  others : ∀ k o m, o ≠ p → s.tokens.holder k = some (o, m) → s'.tokens.holder k = some (o, m)

theorem Tampered.refl (p : Pubkey) (s : State) : Tampered p s s :=
  ⟨⟨rfl, rfl, rfl, rfl⟩, fun _ hk => hk, fun _ _ _ _ hk => hk⟩

theorem Tampered.trans {s'' : State} (h : Tampered p s s') (h' : Tampered p s' s'') :
    Tampered p s s'' :=
  ⟨h.toSameRecords.trans h'.toSameRecords, fun k hk => h'.unopened k (h.unopened k hk),
    fun k o m ho hk => h'.others k o m ho (h.others k o m ho hk)⟩

/-- Writing the holder of an account of `p` tampers. -/
theorem Tampered.of_own {b : Bank Pubkey} {n : Pubkey} {holding : Option (Pubkey × Pubkey)}
    (hold : s.tokens.holder k = some (p, n))
    (hobs : b.Observes s.tokens.mints (Function.update s.tokens.holder k holding)
      s.tokens.balance) : Tampered p s { s with tokens := b } := by
  refine ⟨⟨rfl, rfl, rfl, hobs.mints⟩, fun j hj => ?_, fun j o m ho hj => ?_⟩
  · have hne : j ≠ k := (ne_of_fresh hold hj).symm
    exact (hobs.holder j).trans ((Function.update_of_ne hne _ _).trans hj)
  · exact (hobs.holder j).trans (update_kept _ hj (ne_of_owner hj hold ho))

theorem tampered_of_step (hstep : Accepts exec s l out s') (hl : l.owner? = some p) :
    Tampered p s s' := by
  cases l with
  | instr => cases hl
  | token op =>
    obtain ⟨b, hb, rfl, _⟩ := token_eq_ok.mp hstep
    cases TokenOp.process_eq_ok.mp hb with
    | createMint | createAccount | createAta | mintTo => cases hl
    | transfer _ call =>
      obtain ⟨_, _, _, _, _, hmoved⟩ := Bank.transfer_moved call
      exact ⟨⟨rfl, rfl, rfl, hmoved.mints⟩, fun k hk => (hmoved.holder k).trans hk,
        fun k _ _ _ hk => (hmoved.holder k).trans hk⟩
    | closeAccount _ call =>
      cases hl
      obtain ⟨⟨_, hold⟩, _, hobs⟩ := Bank.closeAccount_eq_ok.mp call
      exact .of_own hold hobs
    | setOwner _ call =>
      cases hl
      obtain ⟨_, hold, hobs⟩ := Bank.setOwner_ok call
      exact .of_own hold hobs

theorem tampered_of_run (hrun : Runs s h s') (hown : ∀ e ∈ h, e.label.owner? = some p) :
    Tampered p s s' := by
  refine hrun.history_invariant_of (P := fun e => e.label.owner? = some p)
    (I := fun _ s' => Tampered p s s') (.refl p s) ?_ hown
  intro h₁ s₁ l out s₂ _ _ hl htampered hstep
  exact htampered.trans (tampered_of_step hstep hl)

/-- Opening accounts keeps the accounts there are. -/
structure Opened (s s' : State) : Prop extends SameRecords s s' where
  kept : ∀ k o m, s.tokens.holder k = some (o, m) → s'.tokens.holder k = some (o, m)

theorem opened_of_step (hstep : Accepts exec s l out s') (hl : l.opens = true) :
    Opened s s' := by
  cases l with
  | instr => cases hl
  | token op =>
    obtain ⟨b, hb, rfl, _⟩ := token_eq_ok.mp hstep
    have opened {j owner mint : Pubkey} (hopen : s.tokens.openAccount j owner mint = .ok b) :
        Opened s { s with tokens := b } :=
      ⟨⟨rfl, rfl, rfl, (Bank.openAccount_eq_ok.mp hopen).2.2.2.mints⟩,
        fun _ _ _ hk => (opened_of_ne hopen hk).1⟩
    cases TokenOp.process_eq_ok.mp hb with
    | createMint | transfer | mintTo | closeAccount | setOwner => cases hl
    | createAccount _ call | createAta call => exact opened call

theorem opened_of_run (hrun : Runs s h s') (hopens : ∀ e ∈ h, e.label.opens = true) :
    Opened s s' := by
  refine hrun.history_invariant_of (P := fun e => e.label.opens = true)
    (I := fun _ s' => Opened s s') ⟨⟨rfl, rfl, rfl, rfl⟩, fun _ _ _ hk => hk⟩ ?_ hopens
  intro h₁ s₁ l out s₂ _ _ hl hopened hstep
  have hnext := opened_of_step hstep hl
  exact ⟨hopened.toSameRecords.trans hnext.toSameRecords,
    fun k o m hk => hnext.kept k o m (hopened.kept k o m hk)⟩

end Outside

/-! ## What a ruling needs -/

section Ruling
variable {s s' : State} {h : History} {c P : Pubkey} {cfg : EscrowConfig} {t : EscrowTask}
  {r : EscrowClaim} {favor : DisputeFavor}

theorem sound_of_run (hs : Sound s) (hrun : Runs s h s') : Sound s' :=
  hrun.invariant hs fun _ _ _ _ hs fired => hs.step (move_of_exec hs fired)

/-- Whichever way it goes, a ruling finds the associated account of the claimer. -/
theorem CanRule.account (hcan : CanRule s c favor) (hs : Sound s) (hcfg : s.config = some cfg)
    (hc : s.claims.get c = some r) :
    cfg.admin.canSign = true ∧ AccountFree s.tokens r.claimer cfg.usdcMint := by
  obtain ⟨h₁, s₁, hrun, hopens, now, a, out, s₂, _, _, _, hstep, rfl, _⟩ := hcan
  have hs₁ := sound_of_run hs hrun
  have hopened := opened_of_run hrun hopens
  obtain ⟨cfg₁, t, r₁, hl, hm, hsign, hadmin, _⟩ := (resolveDispute_eq_ok hs₁).mp hstep
  cases (hopened.config.trans hcfg).symm.trans hl.config
  cases (hopened.claims ▸ hc).symm.trans hl.claim
  refine ⟨hadmin ▸ hsign, ?_⟩
  have hready := (hl.ready hs₁ hm).claimerAta
  unfold AccountFree
  cases hk : s.tokens.holder (.ata r.claimer cfg.usdcMint) with
  | none => exact .inl rfl
  | some om =>
    rw [hopened.kept _ om.1 om.2 hk] at hready
    exact .inr hready

/-- One call opens the associated account of the claimer, if it is not there. -/
theorem AccountFree.opened {w mint : Pubkey} (hs : Sound s) (hm : mint ∈ s.tokens.mints)
    (hfree : AccountFree s.tokens w mint) : ∃ h₁ s₁, Runs s h₁ s₁ ∧
      (∀ e ∈ h₁, e.label.opens = true) ∧ s₁.tokens.holder (.ata w mint) = some (w, mint) ∧
      ∀ k, k ≠ .ata w mint → s₁.tokens.holder k = s.tokens.holder k := by
  rcases hfree with hnone | hthere
  · have hnot : Pubkey.ata w mint ∉ s.tokens.mints := fun hmem => by
      cases hs.mint_signs _ hmem
    obtain ⟨b, hb⟩ := Bank.openAccount_succeeds w hm hnot hnone
    obtain ⟨_, _, _, hobs⟩ := Bank.openAccount_eq_ok.mp hb
    have hstep : Accepts exec s (.token (.createAta w mint)) [] { s with tokens := b } :=
      token_eq_ok.mpr ⟨b, TokenOp.process_eq_ok.mpr (.createAta hb), rfl, rfl⟩
    refine ⟨_, _, .single hstep, List.forall_mem_singleton.mpr rfl, ?_, fun k hk => ?_⟩
    · exact (hobs.holder _).trans (Function.update_self _ _ _)
    · exact (hobs.holder k).trans (Function.update_of_ne hk _ _)
  · exact ⟨[], s, .start, by simp, hthere, fun _ _ => rfl⟩

/-- With an unused key anybody opens an account for the poster. -/
theorem spare_opened {o mint : Pubkey} (hm : mint ∈ s.tokens.mints) (hP : P.canSign = true)
    (hfresh : s.tokens.holder P = none) (hnot : P ∉ s.tokens.mints) : ∃ e s₁,
      Runs s [e] s₁ ∧ e.label.opens = true ∧ s₁.tokens.holder P = some (o, mint) := by
  obtain ⟨b, hb⟩ := Bank.openAccount_succeeds o hm hnot hfresh
  obtain ⟨_, _, _, hobs⟩ := Bank.openAccount_eq_ok.mp hb
  have hstep : Accepts exec s (.token (.createAccount P o mint)) [] { s with tokens := b } :=
    token_eq_ok.mpr ⟨b, TokenOp.process_eq_ok.mpr (.createAccount hP hb), rfl, rfl⟩
  exact ⟨_, _, .single hstep, rfl, (hobs.holder P).trans (Function.update_self _ _ _)⟩

/-- Between existing accounts the admin can rule either way. -/
theorem Reaches.rules (hr : Reaches h s) (hno : ∀ e ∈ h, e.label.updatesMint = false)
    (hcfg : s.config = some cfg) (hc : s.claims.get c = some r)
    (hst : r.status = ClaimStatus.disputed.toU8) (ht : s.tasks.get r.task = some t)
    (hadmin : cfg.admin.canSign = true)
    (hw : s.tokens.holder (.ata r.claimer cfg.usdcMint) = some (r.claimer, cfg.usdcMint))
    (hP : s.tokens.holder P = some (t.poster, cfg.usdcMint)) (now : I64)
    (favor : DisputeFavor) : ∃ a out s₂, Accepts exec s (.instr now (.resolveDispute a favor))
      out s₂ ∧ a.claim = c ∧ Ruling s s₂ out a cfg t r favor := by
  have hs := hr.sound
  have hlive : phaseOf r.status = .live := live_of_eq hst rfl
  obtain ⟨hledger, hcov⟩ := hr.covered (.of_no_update hno) hc hlive ht hcfg
  obtain ⟨happroved, hrefunded⟩ := hr.counter_room hc hlive ht
  have hready : PayoutReady s cfg r.task r.claimer :=
    ⟨hledger.vault, hw, hr.fee_vault hno cfg hcfg⟩
  have hl := payoutOf_loaded hs hcfg ht hc hready
  have hrule : ∃ s₂ out, Ruling s s₂ out ⟨payoutOf cfg c r, cfg.admin, P⟩ cfg t r favor := by
    cases favor with
    | deliverer =>
      obtain ⟨s₂, out, hpaid⟩ := hready.pays hs hcfg ht hc hcov .resolvedDeliverer
      exact ⟨s₂, out, happroved, hpaid⟩
    | poster =>
      obtain ⟨s₂, out, hrefund⟩ :=
        refund_succeeds hcfg ht hc hledger.vault hP hcov (r.setStatus .resolvedPoster)
      exact ⟨s₂, out, hrefunded, hrefund⟩
  obtain ⟨s₂, out, hruling⟩ := hrule
  exact ⟨_, out, s₂, (resolveDispute_eq_ok hs).mpr
    ⟨cfg, t, r, hl, rfl, hadmin, rfl, hP, hst, hruling⟩, rfl, hruling⟩

theorem Reaches.canRule (hr : Reaches h s) (hno : ∀ e ∈ h, e.label.updatesMint = false)
    (hcfg : s.config = some cfg) (hc : s.claims.get c = some r)
    (hst : r.status = ClaimStatus.disputed.toU8) (ht : s.tasks.get r.task = some t)
    (hspare : ∃ k : Pubkey, k.canSign = true ∧ s.tokens.holder k = none ∧ k ∉ s.tokens.mints)
    (hadmin : cfg.admin.canSign = true) (hfree : AccountFree s.tokens r.claimer cfg.usdcMint)
    (favor : DisputeFavor) : CanRule s c favor := by
  obtain ⟨P, hP, hfresh, hnot⟩ := hspare
  have hm := hr.sound.mint_mem cfg hcfg
  obtain ⟨h₁, s₁, hrun₁, hopens₁, hw, hothers⟩ := hfree.opened hr.sound hm
  have hopened₁ := opened_of_run hrun₁ hopens₁
  have hfresh₁ : s₁.tokens.holder P = none := by
    rw [hothers P (ne_of_canSign hP rfl), hfresh]
  rw [← hopened₁.mints] at hm hnot
  obtain ⟨e, s₂, hrun₂, hopens₂, hposter⟩ :=
    spare_opened (o := t.poster) hm hP hfresh₁ hnot
  have hrun : Runs s ([e] ++ h₁) s₂ := hrun₁.trans hrun₂
  have hopens : ∀ e' ∈ [e] ++ h₁, e'.label.opens = true := by
    rw [List.singleton_append, List.forall_mem_cons]
    exact ⟨hopens₂, hopens₁⟩
  have hopened := opened_of_run hrun hopens
  have hopened₂ := opened_of_run hrun₂ (List.forall_mem_singleton.mpr hopens₂)
  have hr₂ : Reaches (([e] ++ h₁) ++ h) s₂ := hr.trans hrun
  have hno₂ : ∀ e' ∈ ([e] ++ h₁) ++ h, e'.label.updatesMint = false := by
    rw [List.forall_mem_append]
    refine ⟨fun e' he' => Label.updatesMint_eq_false fun _ _ heq => ?_, hno⟩
    have hop := hopens e' he'
    rw [heq] at hop
    cases hop
  obtain ⟨a, out, s₃, hstep, hclaim, hruling⟩ := hr₂.rules hno₂ (hopened.config.trans hcfg)
    (hopened.claims ▸ hc) hst (hopened.tasks ▸ ht) hadmin (hopened₂.kept _ _ _ hw) hposter
    ⟨0, by decide⟩ favor
  exact ⟨_, s₂, hrun, hopens, _, a, out, s₃, cfg, t, r, hstep, hclaim, hruling⟩

/-! ## The loser's move -/

/-- What keeps the loser from a veto: a ruling for the poster is safe only
while the claimer has no associated account that he could hand over. -/
def VetoProof (b : Bank Pubkey) (claimer mint : Pubkey) : DisputeFavor → Prop
  | .deliverer => AccountFree b claimer mint
  | .poster => b.holder (.ata claimer mint) = none

/-- The claimer hands his associated account over to an address without a key. -/
theorem CanRule.refused (favor : DisputeFavor) (hs : Sound s) (hcfg : s.config = some cfg)
    (hc : s.claims.get c = some r)
    (hw : s.tokens.holder (.ata r.claimer cfg.usdcMint) = some (r.claimer, cfg.usdcMint)) :
    ∃ e s', Runs s [e] s' ∧ e.label.owner? = some r.claimer ∧ ¬ CanRule s' c favor := by
  have hsign := (hs.claim c r hc).claimer
  obtain ⟨b, hb⟩ := Bank.setOwner_succeeds .configPda hw
  obtain ⟨_, _, hobs⟩ := Bank.setOwner_ok hb
  have hstep : Accepts exec s (.token (.setOwner r.claimer (.ata r.claimer cfg.usdcMint)
      .configPda)) [] { s with tokens := b } :=
    token_eq_ok.mpr ⟨b, TokenOp.process_eq_ok.mpr (.setOwner hsign hb), rfl, rfl⟩
  refine ⟨_, _, .single hstep, rfl, fun hcan => ?_⟩
  obtain ⟨_, hfree⟩ := hcan.account (sound_of_run hs (.single hstep)) hcfg hc
  have hgone := hobs.holder (.ata r.claimer cfg.usdcMint)
  rw [Function.update_self] at hgone
  rcases hfree with hnone | hback
  · cases hgone.symm.trans hnone
  · have howner := hgone.symm.trans hback
    rw [Option.some.injEq, Prod.mk.injEq] at howner
    exact ne_of_canSign hsign rfl howner.1.symm

/-- Whatever the loser of a dispute does with his token accounts, the admin's
ruling still succeeds, after opening accounts at most, just if the admin can
sign and the account of the claimer is out of the loser's reach. It is assumed
that somebody has a key that no account was created under. -/
theorem ruling_veto (hr : Reaches h s) (hno : ∀ e ∈ h, e.label.updatesMint = false)
    (hcfg : s.config = some cfg) (hc : s.claims.get c = some r)
    (hst : r.status = ClaimStatus.disputed.toU8) (ht : s.tasks.get r.task = some t)
    (hspare : ∃ k : Pubkey, k.canSign = true ∧ s.tokens.holder k = none ∧ k ∉ s.tokens.mints)
    (favor : DisputeFavor) :
    (∀ h' s', Runs s h' s' → (∀ e ∈ h', e.label.owner? = some (favor.loser t r)) →
      CanRule s' c favor) ↔
        cfg.admin.canSign = true ∧ VetoProof s.tokens r.claimer cfg.usdcMint favor := by
  constructor
  · intro hall
    obtain ⟨hadmin, hfree⟩ := (hall [] s .start (by simp)).account hr.sound hcfg hc
    refine ⟨hadmin, ?_⟩
    cases favor with
    | deliverer => exact hfree
    | poster =>
      rcases hfree with hnone | hthere
      · exact hnone
      · obtain ⟨e, s', hrun, hown, hrefused⟩ :=
          CanRule.refused .poster hr.sound hcfg hc hthere
        exact absurd (hall [e] s' hrun (List.forall_mem_singleton.mpr hown)) hrefused
  · rintro ⟨hadmin, hproof⟩ h' s' hrun hown
    have htampered := tampered_of_run hrun hown
    have hfree : AccountFree s'.tokens r.claimer cfg.usdcMint := by
      cases favor with
      | deliverer =>
        rcases hproof with hnone | hthere
        · exact .inl (htampered.unopened _ hnone)
        · exact .inr (htampered.others _ _ _ (hr.not_self c r t hc ht) hthere)
      | poster => exact .inl (htampered.unopened _ hproof)
    obtain ⟨k, hk, hfresh, hnot⟩ := hspare
    have hr' : Reaches (h' ++ h) s' := hr.trans hrun
    have hno' : ∀ e ∈ h' ++ h, e.label.updatesMint = false := by
      rw [List.forall_mem_append]
      refine ⟨fun e he => Label.updatesMint_eq_false fun _ _ heq => ?_, hno⟩
      have howner := hown e he
      rw [heq] at howner
      cases howner
    exact hr'.canRule hno' (htampered.config.trans hcfg) (htampered.claims ▸ hc) hst
      (htampered.tasks ▸ ht) ⟨k, hk, htampered.unopened k hfresh, htampered.mints ▸ hnot⟩ hadmin
      hfree favor

end Ruling

namespace Scenario

/-- The worker has disputed the rejection of his submission. -/
def contested : List Label := offered ++ [enrolls worker 0, submits (clock 1200) worker 0,
  rejects 0, disputes (clock 1400) worker 0]

/-- The poster hands his only account over. -/
def movesAway : Label := .token (.setOwner poster (.ata poster usdc) helper)

/-- The worker hands his account over to a second key of his. -/
def handsOver : Label := .token (.setOwner worker (.ata worker usdc) stranger)

end Scenario

open Scenario in
theorem ruling_veto_deliverer : ∃ out s', Accepts exec (played contested).2 movesAway out s' ∧
    CanRule s' (.claimPda 0) .deliverer := by
  have hcfg : (played contested).2.config = some ⟨admin, usdc, 400⟩ := by decide +kernel
  have hc : (played contested).2.claims.get (.claimPda 0) =
      some ⟨0, job, worker, 5, 1100, 1200, 1400, 1, 99⟩ := by decide +kernel
  have ht : (played contested).2.tasks.get job =
      some ⟨0, poster, 10000, 3, 1, 0, 0, 0, 5000, 3600⟩ := by decide +kernel
  obtain ⟨out, s', hstep, _⟩ := Accepts.of_check exec (played contested).2 movesAway
    (fun _ _ => true) (by decide +kernel)
  have hall := (ruling_veto (played_reaches contested) (by decide +kernel) hcfg hc rfl ht
    ⟨stranger, by decide +kernel⟩ .deliverer).mpr ⟨by decide, .inr (by decide +kernel)⟩
  exact ⟨out, s', hstep, hall _ s' (.single hstep) (List.forall_mem_singleton.mpr rfl)⟩

open Scenario in
/-- With one call the worker keeps the admin from ruling for the poster. -/
theorem ruling_veto_claimer : ∃ h s t r e s', Reaches h s ∧
    (∀ e ∈ h, e.label.updatesMint = false) ∧ s.claims.get (.claimPda 0) = some r ∧
      r.status = ClaimStatus.disputed.toU8 ∧ s.tasks.get r.task = some t ∧ Runs s [e] s' ∧
      e.label.owner? = some (DisputeFavor.poster.loser t r) ∧
      ¬ CanRule s' (.claimPda 0) .poster := by
  have hcfg : (played contested).2.config = some ⟨admin, usdc, 400⟩ := by decide +kernel
  have hc : (played contested).2.claims.get (.claimPda 0) =
      some ⟨0, job, worker, 5, 1100, 1200, 1400, 1, 99⟩ := by decide +kernel
  have ht : (played contested).2.tasks.get job =
      some ⟨0, poster, 10000, 3, 1, 0, 0, 0, 5000, 3600⟩ := by decide +kernel
  obtain ⟨out, s', hstep, hgone⟩ := Accepts.of_check exec (played contested).2 handsOver
    (fun s' _ => s'.tokens.holder (.ata worker usdc) == some (stranger, usdc))
    (by decide +kernel)
  have hrun : Runs (played contested).2 [⟨handsOver, _, s', out⟩] s' := .single hstep
  have hsame := tampered_of_run (p := worker) hrun (List.forall_mem_singleton.mpr rfl)
  refine ⟨_, _, _, _, _, s', played_reaches contested, by decide +kernel, hc, rfl, ht, hrun,
    rfl, fun hcan => ?_⟩
  obtain ⟨_, hfree⟩ := hcan.account (sound_of_run (played_reaches contested).sound hrun)
    (hsame.config.trans hcfg) (hsame.claims ▸ hc)
  have hholder := eq_of_beq hgone
  rcases hfree with hnone | hback
  · cases hholder.symm.trans hnone
  · cases hholder.symm.trans hback

end ClustlyEscrow
