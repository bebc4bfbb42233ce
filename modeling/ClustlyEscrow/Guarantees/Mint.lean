import ClustlyEscrow.Guarantees.Distribution

/-!
# Settling in the mint that was funded

A task record does not store its mint: every payout, refund and sweep derives
the vault from the mint in the config at that moment. So tokens of the funded
mint are used exactly when the config still, or again, names that mint.
-/
namespace ClustlyEscrow
open Foundations

/-- The claim was settled in favor of its claimer. -/
def EscrowClaim.PaidOut (r : EscrowClaim) : Prop :=
  r.status = ClaimStatus.approved.toU8 ∨ r.status = ClaimStatus.resolvedDeliverer.toU8

/-- The claim was settled in favor of the poster. -/
def EscrowClaim.SentBack (r : EscrowClaim) : Prop :=
  r.status = ClaimStatus.cancelled.toU8 ∨ r.status = ClaimStatus.resolvedPoster.toU8

/-- A claim of task `T` comes to satisfy `p` in the step. -/
def Becomes (e : EscrowEvent) (T : Pubkey) (p : EscrowClaim → Prop) : Prop :=
  ∃ c r r', e.pre.claims.get c = some r ∧ ¬ p r ∧ e.post.claims.get c = some r' ∧ p r' ∧
    r'.task = T

/-- The step closes task `T` or removes its account. -/
def WoundUp (e : EscrowEvent) (T : Pubkey) : Prop :=
  (∃ t, e.pre.tasks.get T = some t ∧ t.taskStatus = .opened) ∧
    ∀ t', e.post.tasks.get T = some t' → t'.taskStatus = .closed

/-- The step settles and sweeps task `T` in mint `M`. -/
structure UsesMint (e : EscrowEvent) (T M : Pubkey) : Prop where
  paid : Becomes e T EscrowClaim.PaidOut → ∀ x ∈ e.output, x.source = .ata T M ∧
    e.pre.tokens.holder x.source = some (T, M) ∧ ∃ o, e.pre.tokens.holder x.dest = some (o, M)
  refunded : Becomes e T EscrowClaim.SentBack → ∀ x ∈ e.output,
    ∃ o, e.pre.tokens.holder x.source = some (o, M)
  emptied : WoundUp e T → e.post.tokens.balance (.ata T M) = 0

/-- Every step of the run acts on the vault that was funded. -/
def FundedVaultUsed (h : History) : Prop :=
  ∀ h₂ e h₁, h = h₂ ++ e :: h₁ → ∀ T M, fundingMint T h₁ = some M → UsesMint e T M

/-- The mint in the config, read in the state before a step. -/
def configMint (e : EscrowEvent) : Option Pubkey := e.pre.config.map EscrowConfig.usdcMint

/-- The instruction moves the bounty of a claim with record `r`: a rejection
does so from the third one on, the other settling instructions always. -/
def Label.movesBounty (r : EscrowClaim) : Label → Prop
  | .instr _ (.rejectClaim _) => maxRejections ≤ r.rejections + 1
  | .instr _ ix => ix.settles = true
  | .token _ => False

/-- Before an instruction that moves a bounty of `T` the config names mint `M`,
and before one that winds `T` up it does, or the vault in `M` is already empty. -/
structure ConfigMatches (e : EscrowEvent) (T M : Pubkey) : Prop where
  settles : ∀ c r, e.label.claim? = some c → e.pre.claims.get c = some r → r.task = T →
    e.label.movesBounty r → configMint e = some M
  ends : e.label.ends? = some T → configMint e = some M ∨ e.pre.tokens.balance (.ata T M) = 0

def ConfigKept (h : History) : Prop :=
  ∀ h₂ e h₁, h = h₂ ++ e :: h₁ → ∀ T M, fundingMint T h₁ = some M → ConfigMatches e T M

section Grounds
variable {cfg : EscrowConfig} {t : EscrowTask} {r r' : EscrowClaim} {l : Label}
  {outcome : ClaimStatus}

theorem paidOut_iff : r.PaidOut ↔ phaseOf r.status = .approved := phaseOf_approved.symm

theorem sentBack_iff : r.SentBack ↔ phaseOf r.status = .refunded := phaseOf_refunded.symm

theorem PayGround.movesBounty (h : PayGround cfg t r l outcome) : l.movesBounty r := by
  cases h <;> rfl

theorem RefundGround.movesBounty (h : RefundGround cfg t r l r') : l.movesBounty r := by
  cases h with
  | reject _ _ _ hthird => exact hthird
  | resolve => rfl

theorem AdvanceGround.not_movesBounty (h : AdvanceGround t r l r') : ¬ l.movesBounty r := by
  cases h with
  | submit | dispute => exact Bool.false_ne_true
  | reject _ _ _ hearly => exact not_le.mpr hearly

end Grounds

section Effects
variable {s s' : State} {out : List Transfer} {l : Label} {h : History} {T M : Pubkey}

/-- A claim whose record changes is the one that the step names. -/
theorem Becomes.touch {p : EscrowClaim → Prop} (hb : Becomes ⟨l, s, s', out⟩ T p)
    (hmove : Move s s' out l) : ∃ c r', l.claim? = some c ∧ Touch s s' out c l ∧
      s'.claims.get c = some r' ∧ p r' ∧ r'.task = T := by
  obtain ⟨c, r, r', hc, hnp, hc', hp, hT⟩ := hb
  dsimp only at hc hc'
  have hl : l.claim? = some c := by
    by_contra hne
    rw [hmove.claim_frame hne, hc, Option.some.injEq] at hc'
    exact hnp (hc' ▸ hp)
  exact ⟨c, r', hl, hmove.touch hl, hc', hp, hT⟩

theorem Becomes.paid (hb : Becomes ⟨l, s, s', out⟩ T EscrowClaim.PaidOut)
    (hmove : Move s s' out l) : ∃ c cfg t r outcome, l.claim? = some c ∧
      PayGround cfg t r l outcome ∧ Paid s s' out c cfg t r outcome ∧ r.task = T := by
  obtain ⟨c, r', hl, htouch, hc', hp, rfl⟩ := hb.touch hmove
  rw [paidOut_iff] at hp
  rcases htouch.left_settled hc' (by simp [hp]) with
    ⟨_, _, _, _, hg, he, rfl⟩ | ⟨_, _, _, _, hg, _⟩
  · exact ⟨_, _, _, _, _, hl, hg, he, rfl⟩
  · rw [hg.phase_post] at hp
    cases hp

theorem Becomes.refunded (hb : Becomes ⟨l, s, s', out⟩ T EscrowClaim.SentBack)
    (hmove : Move s s' out l) : ∃ c P cfg t r r', l.claim? = some c ∧
      RefundGround cfg t r l r' ∧ Refunded s s' out c P cfg t r r' ∧ r.task = T := by
  obtain ⟨c, r', hl, htouch, hc', hp, rfl⟩ := hb.touch hmove
  rw [sentBack_iff] at hp
  rcases htouch.left_settled hc' (by simp [hp]) with
    ⟨_, _, _, _, hg, _, rfl⟩ | ⟨_, _, _, _, hg, he⟩
  · rw [hg.phase_post] at hp
    cases hp
  · exact ⟨_, _, _, _, _, _, hl, hg, he, hg.task_eq.symm⟩

theorem PayGround.becomes {c : Pubkey} {cfg : EscrowConfig} {t : EscrowTask} {r : EscrowClaim}
    {outcome : ClaimStatus} (hg : PayGround cfg t r l outcome)
    (he : Paid s s' out c cfg t r outcome) :
    Becomes ⟨l, s, s', out⟩ r.task EscrowClaim.PaidOut := by
  refine ⟨c, r, r.setStatus outcome, he.claim, ?_, by rw [he.claims', Store.get_set_self], ?_, rfl⟩
  · rw [paidOut_iff, hg.live]
    exact SlotBook.Phase.noConfusion
  · rw [paidOut_iff, hg.phase_post]

theorem RefundGround.becomes {c P : Pubkey} {cfg : EscrowConfig} {t : EscrowTask}
    {r r' : EscrowClaim} (hg : RefundGround cfg t r l r')
    (he : Refunded s s' out c P cfg t r r') :
    Becomes ⟨l, s, s', out⟩ r.task EscrowClaim.SentBack := by
  refine ⟨c, r, r', he.claim, ?_, by rw [he.claims', Store.get_set_self], ?_, hg.task_eq⟩
  · rw [sentBack_iff, hg.live]
    exact SlotBook.Phase.noConfusion
  · rw [sentBack_iff, hg.phase_post]

/-- A task is wound up by nothing but the three instructions that end it. -/
theorem WoundUp.ends (hw : WoundUp ⟨l, s, s', out⟩ T) (hmove : Move s s' out l) :
    l.ends? = some T := by
  obtain ⟨⟨t, ht, hopen⟩, hclosed⟩ := hw
  dsimp only at ht hclosed
  rcases hmove.wound_or_kept ht with ⟨_, _, _, hl, hg, _⟩ | ⟨t', ht', hst, _⟩
  · rw [hg.ends_eq, hl]
  · have hstill := hst.trans hopen
    rw [hclosed t' ht'] at hstill
    cases hstill

theorem EndGround.woundUp {P : Pubkey} {cfg : EscrowConfig} {t : EscrowTask}
    {tasks' : Store Pubkey EscrowTask} (hg : EndGround s t T l tasks')
    (he : Ended s s' out T P cfg t tasks') : WoundUp ⟨l, s, s', out⟩ T := by
  refine ⟨⟨t, he.task, he.opened⟩, fun t' ht' => ?_⟩
  dsimp only at ht'
  rw [he.tasks'] at ht'
  cases hg with
  | cancel => simp at ht'
  | close | autoCancel =>
    rw [Store.get_set_self, Option.some.injEq] at ht'
    rw [← ht']
    rfl

/-- Sweeping one vault of a task leaves its vault in another mint alone. -/
theorem Ended.other_vault (hs : Sound s) {P : Pubkey} {cfg : EscrowConfig} {t : EscrowTask}
    {tasks' : Store Pubkey EscrowTask} (he : Ended s s' out T P cfg t tasks')
    (hM : cfg.usdcMint ≠ M) :
    s'.tokens.balance (.ata T M) = s.tokens.balance (.ata T M) := by
  have hok := hs.task T t he.task
  refine (he.balance_of_ne ?_ ?_).2.1
  · simp only [ne_eq, Pubkey.ata.injEq, true_and]
    exact fun heq => hM heq.symm
  · rintro rfl
    have hown := hs.ata_owner T M _ _ hok.canSign he.posterAta
    exact ne_of_canSign hok.poster hok.canSign hown

/-! ## One step -/

/-- A step that acts on the funded vault found its mint in the config. -/
theorem UsesMint.matches (hs : Sound s) (hmove : Move s s' out l)
    (huse : UsesMint ⟨l, s, s', out⟩ T M) : ConfigMatches ⟨l, s, s', out⟩ T M := by
  constructor
  · rintro c r hl hc rfl hbounty
    dsimp only at hl hc hbounty
    cases hmove.touch hl with
    | enrolled hpre =>
      rw [hpre] at hc
      cases hc
    | advanced _ hpre _ hg =>
      cases hpre.symm.trans hc
      exact absurd hbounty hg.not_movesBounty
    | paid _ hpre _ hg he =>
      cases hpre.symm.trans hc
      obtain ⟨x, hx⟩ := List.exists_mem_of_ne_nil _ (he.moves hs)
      have hsrc := (huse.paid (hg.becomes he) x hx).1
      rw [he.source x hx, Pubkey.ata.injEq] at hsrc
      rw [configMint, he.config, Option.map_some, hsrc.2]
    | @refunded _ P cfg t _ _ _ hpre _ hg he =>
      cases hpre.symm.trans hc
      obtain ⟨o, ho⟩ := huse.refunded (hg.becomes he) ⟨.ata r.task cfg.usdcMint, P, t.bounty⟩
        (by simp [he.transfers])
      dsimp only at ho
      rw [he.vault, Option.some.injEq, Prod.mk.injEq] at ho
      rw [configMint, he.config, Option.map_some, ho.2]
  · intro hends
    obtain ⟨P, cfg, t, tasks', hg, he⟩ := hmove.ended_of_ends hends
    by_cases hM : cfg.usdcMint = M
    · exact .inl (by rw [configMint, he.config, Option.map_some, hM])
    · have hz := huse.emptied (hg.woundUp he)
      dsimp only at hz
      rw [he.other_vault hs hM] at hz
      exact .inr hz

/-- A step that finds the funded mint in the config acts on the funded vault. -/
theorem ConfigMatches.uses (hs : Sound s) (hmove : Move s s' out l)
    (hmatch : ConfigMatches ⟨l, s, s', out⟩ T M) : UsesMint ⟨l, s, s', out⟩ T M := by
  constructor
  · intro hb x hx
    obtain ⟨c, cfg, t, r, outcome, hl, hg, he, rfl⟩ := hb.paid hmove
    have hM := hmatch.settles c r hl he.claim rfl hg.movesBounty
    rw [configMint, he.config, Option.map_some, Option.some.injEq] at hM
    subst hM
    dsimp only at hx
    refine ⟨he.source x hx, by rw [he.source x hx]; exact he.ready.vault, ?_⟩
    rw [he.transfers, List.mem_append] at hx
    rcases hx with hx | hx
    · exact ⟨_, (mem_transferList hx).2 ▸ he.ready.claimerAta⟩
    · exact ⟨_, (mem_transferList hx).2 ▸ he.ready.feeVault⟩
  · intro hb x hx
    obtain ⟨c, P, cfg, t, r, r', hl, hg, he, rfl⟩ := hb.refunded hmove
    have hM := hmatch.settles c r hl he.claim rfl hg.movesBounty
    rw [configMint, he.config, Option.map_some, Option.some.injEq] at hM
    subst hM
    dsimp only at hx
    rw [he.transfers, List.mem_singleton] at hx
    subst x
    exact ⟨_, he.vault⟩
  · intro hw
    have hends := hw.ends hmove
    obtain ⟨P, cfg, t, tasks', hg, he⟩ := hmove.ended_of_ends hends
    by_cases hM : cfg.usdcMint = M
    · subst hM
      exact (he.debited hs).1
    · have hz := hmatch.ends hends
      rw [configMint, he.config, Option.map_some, Option.some.injEq, or_iff_right hM] at hz
      exact (he.other_vault hs hM).trans hz

/-! ## A whole run -/

/-- In every run, whatever the admin does: settlements act on the vault that was
funded exactly when the config names its mint at each of them. -/
theorem funded_vault_used_iff (hr : Reaches h s) : FundedVaultUsed h ↔ ConfigKept h := by
  constructor
  · rintro huse h₂ ⟨l, s₁, s₂, out⟩ h₁ rfl T M hM
    obtain ⟨hr₁, hstep, _⟩ := hr.at_event
    exact (huse h₂ _ h₁ rfl T M hM).matches (Reaches.sound hr₁) (Reaches.move hr₁ hstep)
  · rintro hkept h₂ ⟨l, s₁, s₂, out⟩ h₁ rfl T M hM
    obtain ⟨hr₁, hstep, _⟩ := hr.at_event
    exact (hkept h₂ _ h₁ rfl T M hM).uses (Reaches.sound hr₁) (Reaches.move hr₁ hstep)

/-- The condition holds in every run without an `update_mint` while a task is open. -/
theorem ConfigKept.of_steady (hr : Reaches h s) (hsteady : ∀ e ∈ h, MintSteady e) :
    ConfigKept h := by
  rintro h₂ ⟨l, s₁, s₂, out⟩ h₁ rfl T M hM
  obtain ⟨hr₁, hstep, _⟩ := hr.at_event
  have hsteady₁ : ∀ e ∈ h₁, MintSteady e := fun e he =>
    hsteady e (List.mem_append_right _ (List.mem_cons_of_mem _ he))
  have hmove := Reaches.move hr₁ hstep
  have matched (t : EscrowTask) (ht : s₁.tasks.get T = some t) (hopen : t.taskStatus = .opened) :
      configMint ⟨l, s₁, s₂, out⟩ = some M := by
    obtain ⟨cfg, hledger⟩ := Reaches.ledger hr₁ hsteady₁ T t ht hopen
    rw [configMint, hledger.config, Option.map_some, ← hledger.mint, hM]
  constructor
  · rintro c r hl hc rfl _
    have hlive := (hmove.touch hl).found_live hc
    obtain ⟨t, ht⟩ := Reaches.parent hr₁ hc
    exact matched t ht (Reaches.opened_of_live hr₁ hc hlive ht)
  · intro hends
    obtain ⟨P, cfg, t, tasks', _, he⟩ := hmove.ended_of_ends hends
    exact .inl (matched t he.task he.opened)

end Effects

namespace Scenario

/-- While a claim waits for its verdict the admin switches the mint and fills a
vault of the new mint; then anybody can settle the claim in it. -/
def swapped : List Label := setup ++
  [fund 10000 1 (clock 5000), enrolls worker 0, submits (clock 1200) worker 0,
    .token (.createMint otherMint),
    .instr (clock 1300) (.updateMint ⟨⟨.configPda, admin⟩, otherMint⟩),
    .token (.createAta job otherMint), .token (.createAta .configPda otherMint),
    .token (.createAta worker otherMint), .token (.mintTo (.ata job otherMint) 10000),
    cranks (clock 1211000) otherMint worker 0]

end Scenario

open Scenario in
theorem funded_vault_missed :
    Reaches (played swapped).1 (played swapped).2 ∧ ¬ FundedVaultUsed (played swapped).1 := by
  refine ⟨played_reaches swapped, fun huse => ?_⟩
  obtain ⟨e, h₁, hcons⟩ : ∃ e h₁, (played swapped).1 = e :: h₁ :=
    List.exists_cons_of_ne_nil (List.isEmpty_eq_false_iff.mp (by decide +kernel))
  have hmint : fundingMint job (played swapped).1.tail = some usdc := by decide +kernel
  have hlast : (played swapped).1.head?.map (fun e => (e.pre.claims.get (.claimPda 0),
      e.post.claims.get (.claimPda 0), e.output.map Transfer.source)) =
      some (some ⟨0, job, worker, 1, 1100, 1200, 0, 0, 99⟩,
        some ⟨0, job, worker, 2, 1100, 1200, 0, 0, 99⟩,
        [.ata job otherMint, .ata job otherMint]) := by decide +kernel
  rw [hcons, List.tail_cons] at hmint
  simp only [hcons, List.head?_cons, Option.map_some, Option.some.injEq, Prod.mk.injEq] at hlast
  obtain ⟨hpre, hpost, hsources⟩ := hlast
  have hpaid : Becomes e job EscrowClaim.PaidOut :=
    ⟨_, _, _, hpre, by rw [paidOut_iff]; decide, hpost, .inl rfl, rfl⟩
  obtain ⟨x, hx, hsource⟩ := List.mem_map.mp (hsources ▸ List.mem_cons_self)
  have hfunded := ((huse [] e h₁ hcons job usdc hmint).paid hpaid x hx).1
  rw [hsource] at hfunded
  revert hfunded
  decide

open Scenario in
theorem funded_vault_used_closed : FundedVaultUsed (played closedTask).1 :=
  (funded_vault_used_iff (played_reaches closedTask)).mpr
    (.of_steady (played_reaches closedTask) (MintSteady.of_no_update (by decide +kernel)))

end ClustlyEscrow
