import ClustlyEscrow.Effects.Holders
import ClustlyEscrow.Guarantees.Deal

/-!
# The account that an enrolment leaves for the payout

`enroll` creates the associated account of its claimer in the mint it is
given; the payout handlers ask for the one in the configured mint. So a claim
is payable from its enrolment on just if the two mints agree there or the
right account was there already.
-/
namespace ClustlyEscrow
open Foundations

/-- The account that the payout of claim `r` goes to is there, and the
constraint that the four payout handlers put on `claimer_ata` passes on it. -/
def Payable (s : State) (r : EscrowClaim) : Prop :=
  ∃ cfg, s.config = some cfg ∧
    s.tokens.holder (.ata r.claimer cfg.usdcMint) = some (r.claimer, cfg.usdcMint) ∧
    loadAta s (.ata r.claimer cfg.usdcMint) cfg.usdcMint r.claimer = .ok ()

/-- If the step enrols, it names the configured mint, or the claimer has the
associated account of that mint already. -/
def enrolsPayable (s : State) : Label → Bool
  | .instr _ (.enroll a _) => s.config.any fun cfg => decide (a.usdcMint = cfg.usdcMint ∨
      s.tokens.holder (.ata a.claimer cfg.usdcMint) = some (a.claimer, cfg.usdcMint))
  | _ => true

section Steps
variable {s s' : State} {h : History} {l : Label} {out : List Transfer} {c : Pubkey}
  {r r' : EscrowClaim} {cfg : EscrowConfig}

theorem Payable.of_holder (hcfg : s.config = some cfg)
    (hh : s.tokens.holder (.ata r.claimer cfg.usdcMint) = some (r.claimer, cfg.usdcMint)) :
    Payable s r :=
  ⟨cfg, hcfg, hh, loadAta_eq_ok.mpr ⟨rfl, _, hh⟩⟩

theorem Payable.kept (hp : Payable s r) (hs : Sound s) (hc : s.claims.get c = some r)
    (hstep : Accepts exec s l out s') (hno : l.updatesMint = false) (hkeep : l.disposes? = none)
    (hw : r'.claimer = r.claimer) : Payable s' r' := by
  obtain ⟨cfg, hcfg, hh, _⟩ := hp
  have hmove := move_of_exec hs hstep
  obtain ⟨cfg', hcfg', hmint⟩ := hmove.config_mint_kept hno hcfg
  apply Payable.of_holder hcfg'
  rw [hw, hmint]
  apply holder_kept hs hstep hh (hmove.ends_ne_of_canSign hs (hs.claim c r hc).claimer)
  rw [hkeep]
  exact fun _ => (Option.some_ne_none _).symm

theorem Enrolled.payable_iff {now : I64} {a : Enroll} {claimId : BitVec 128} {t : EscrowTask}
    (he : Enrolled s s' out now a claimId t) :
    Payable s' (a.record now claimId) ↔
      enrolsPayable s (.instr now (.enroll a claimId)) = true := by
  simp only [enrolsPayable, Option.any_eq_true, decide_eq_true_eq]
  constructor
  · rintro ⟨cfg, hcfg, hh, _⟩
    refine ⟨cfg, he.config'.symm.trans hcfg, ?_⟩
    by_cases hmint : a.usdcMint = cfg.usdcMint
    · exact .inl hmint
    right
    rcases he.tokens' with ⟨_, hsame⟩ | hopen
    · rw [hsame] at hh
      exact hh
    · obtain ⟨_, _, _, hobs⟩ := Bank.openAccount_eq_ok.mp hopen
      have hne : Pubkey.ata a.claimer cfg.usdcMint ≠ .ata a.claimer a.usdcMint := by
        intro heq
        exact hmint (Pubkey.ata.inj heq).2.symm
      rw [hobs.holder] at hh
      exact (Function.update_of_ne hne _ _).symm.trans hh
  · rintro ⟨cfg, hcfg, hmint | hh⟩
    · apply Payable.of_holder (he.config'.trans hcfg)
      rw [← hmint]
      rcases he.tokens' with ⟨hh, hsame⟩ | hopen
      · rw [hsame]
        exact hh
      · obtain ⟨_, _, _, hobs⟩ := Bank.openAccount_eq_ok.mp hopen
        rw [hobs.holder]
        exact Function.update_self _ _ _
    · exact .of_holder (he.config'.trans hcfg) (he.tokens'.kept hh).1

/-- A claim is new only by an enrolment. -/
theorem Move.claim_new (hmove : Move s s' out l) (hc : s.claims.get c = none)
    (hc' : s'.claims.get c = some r') : ∃ now a claimId t, l = .instr now (.enroll a claimId) ∧
      r' = a.record now claimId ∧ Enrolled s s' out now a claimId t := by
  by_cases hl : l.claim? = some c
  swap
  · rw [hmove.claim_frame hl, hc] at hc'
    cases hc'
  cases hmove.touch hl with
  | enrolled _ hpost he =>
    cases hpost.symm.trans hc'
    exact ⟨_, _, _, _, rfl, rfl, he⟩
  | advanced _ hpre | paid _ hpre | refunded _ hpre => cases hpre.symm.trans hc

/-- Over payable claims a step leaves payable claims just if it enrols payably. -/
theorem Reaches.payable_step (hr : Reaches h s) (hstep : Accepts exec s l out s')
    (hno : l.updatesMint = false) (hkeep : l.disposes? = none)
    (hall : ∀ c r, s.claims.get c = some r → Payable s r) :
    (∀ c r', s'.claims.get c = some r' → Payable s' r') ↔ enrolsPayable s l = true := by
  have hmove := hr.move hstep
  constructor
  · intro hall'
    cases l with
    | token => rfl
    | instr now ix =>
      cases ix
      case enroll a claimId =>
        obtain ⟨t, he⟩ := enroll_eq_ok.mp hstep
        exact he.payable_iff.mp (hall' a.claim _ (by rw [he.claims', Store.get_set_self]))
      all_goals rfl
  · intro henrol c r' hc'
    cases hc : s.claims.get c with
    | some r =>
      obtain ⟨r'', hc'', hdeal⟩ := hmove.claim_kept hc
      cases hc''.symm.trans hc'
      exact (hall c r hc).kept hr.sound hc hstep hno hkeep hdeal.claimer
    | none =>
      obtain ⟨now, a, claimId, t, rfl, rfl, he⟩ := hmove.claim_new hc hc'
      exact he.payable_iff.mpr henrol

/-- In a run that keeps the mint and in which no token account is closed or
handed over, every claim is payable in every state just if every enrolment
named the configured mint or found the right account in place. -/
theorem payable_claims (hr : Reaches h s) (hno : ∀ e ∈ h, e.label.updatesMint = false)
    (hkeep : ∀ e ∈ h, e.label.disposes? = none) :
    (∀ e ∈ h, ∀ c r, e.post.claims.get c = some r → Payable e.post r) ↔
      ∀ e ∈ h, enrolsPayable e.pre e.label = true := by
  apply hr.posts_iff (P := fun e => e.label.updatesMint = false ∧ e.label.disposes? = none)
    (Q := fun s => ∀ c r, s.claims.get c = some r → Payable s r)
    (C := fun e => enrolsPayable e.pre e.label = true)
  · simp [State.genesis]
  · intro h₁ s₁ l out s₂ hrun hside hall hstep
    exact Reaches.payable_step hrun hstep hside.1 hside.2 hall
  · exact fun e he => ⟨hno e he, hkeep e he⟩

end Steps

namespace Scenario

/-- The worker enrols with an account in a mint of no concern to the program. -/
def misplaced : List Label := offered ++ [.token (.createMint otherMint),
  .instr (clock 1100) (.enroll
    ⟨worker, .configPda, otherMint, job, .claimPda 0, .ata worker otherMint⟩ 0),
  submits (clock 1200) worker 0]

end Scenario

open Scenario in
theorem payable_claims_waiting : ∃ e ∈ (played twoClaims).1, ∃ r,
    e.post.claims.get (.claimPda 1) = some r ∧ Payable e.post r := by
  have hall := (payable_claims (played_reaches twoClaims) (by decide +kernel)
    (by decide +kernel)).mpr (by decide +kernel)
  obtain ⟨e, he, hc⟩ : ∃ e ∈ (played twoClaims).1, e.post.claims.get (.claimPda 1) =
      some ⟨1, job, helper, 3, 1100, 1200, 0, 1, 99⟩ := by decide +kernel
  exact ⟨e, he, _, hc, hall e he _ _ hc⟩

open Scenario in
/-- The submission can not be approved: the account its payout goes to does not exist. -/
theorem payable_claims_misplaced : Reaches (played misplaced).1 (played misplaced).2 ∧
    (∀ e ∈ (played misplaced).1, e.label.updatesMint = false) ∧
    (∀ e ∈ (played misplaced).1, e.label.disposes? = none) ∧
    (∃ r, (played misplaced).2.claims.get (.claimPda 0) = some r ∧
      ¬ Payable (played misplaced).2 r) ∧
    exec (played misplaced).2 (approves usdc worker 0) =
      .error (.constraint .accountNotInitialized) := by
  have hcfg : (played misplaced).2.config = some ⟨admin, usdc, 400⟩ := by decide +kernel
  have hmissing : (played misplaced).2.tokens.holder (.ata worker usdc) = none := by
    decide +kernel
  refine ⟨played_reaches misplaced, by decide +kernel, by decide +kernel,
    ⟨⟨0, job, worker, 1, 1100, 1200, 0, 0, 99⟩, by decide +kernel, ?_⟩, rfl⟩
  rintro ⟨cfg, hcfg', hh, _⟩
  cases hcfg.symm.trans hcfg'
  rw [hmissing] at hh
  cases hh

end ClustlyEscrow
