import ClustlyEscrow.Guarantees.FeeVault

/-!
# Payout math

The docs round the net amount down and give the rest to the fee vault; the
program rounds the fee down and gives the rest to the deliverer. The two agree
on the bounties whose fee is a whole number.
-/
namespace ClustlyEscrow
open Foundations

/-- `net = bounty × (10000 - fee_bps) / 10000` -/
def documentedNet (bounty feeBps : ℕ) : ℕ := bounty * (bpsDenominator - feeBps) / bpsDenominator

/-- `fee = bounty - net` -/
def documentedFee (bounty feeBps : ℕ) : ℕ := bounty - documentedNet bounty feeBps

/-- The transfers of a payout bring claimer and fee vault what the docs say. -/
structure PaidAsDocumented (out : List Transfer) (l : Label) (cfg : EscrowConfig) (t : EscrowTask)
    (r : EscrowClaim) : Prop where
  net : creditOf (.ata r.claimer cfg.usdcMint) out l = documentedNet t.bounty cfg.feeBps
  fee : creditOf (feeVaultOf cfg.usdcMint) out l = documentedFee t.bounty cfg.feeBps

section Payouts
variable {s s' : State} {h : History} {l : Label} {out : List Transfer} {c k : Pubkey}
  {cfg : EscrowConfig} {t : EscrowTask} {r : EscrowClaim} {outcome : ClaimStatus}

/-- The four paying instructions are the payouts. -/
theorem Move.paid_of_pays (h : Move s s' out l) (hl : l.pays = true) :
    ∃ c cfg t r outcome, l.claim? = some c ∧ l.task? = some r.task ∧
      Paid s s' out c cfg t r outcome := by
  cases h with
  | configCreated | withdrawn | funded | enrolled | outside => cases hl
  | reconfigured _ _ _ hg _ => cases hg <;> cases hl
  | ended _ _ hg _ => cases hg <;> cases hl
  | advanced _ _ _ hg _ => cases hg <;> cases hl
  | refunded _ _ hg _ => cases hg <;> cases hl
  | paid htask hclaim _ he => exact ⟨_, _, _, _, _, hclaim, htask, he⟩

theorem credit_transferList_dest {source : Pubkey} {n : ℕ} (hk : source ≠ k) :
    ((transferList source k n).map (Transfer.credit k)).sum = n := by
  unfold transferList
  split_ifs with hpos
  · simp [Transfer.credit, hk]
  · exact (Nat.eq_zero_of_not_pos hpos).symm

/-- What a payout brings to each of its two accounts. -/
theorem Paid.credits (hs : Sound s) (hp : Paid s s' out c cfg t r outcome)
    (htask : l.task? = some r.task) :
    creditOf (.ata r.claimer cfg.usdcMint) out l = netOf t.bounty cfg.feeBps ∧
      creditOf (feeVaultOf cfg.usdcMint) out l = feeOf t.bounty cfg.feeBps := by
  obtain ⟨hva, hvf, haf⟩ := vaults_ne hs hp.task hp.claim cfg.usdcMint
  simp only [creditOf_of_task htask, hp.transfers, List.map_append, List.sum_append, feeVaultOf]
  constructor
  · rw [credit_transferList_dest hva, credit_transferList haf, Nat.add_zero]
  · rw [credit_transferList haf.symm, credit_transferList_dest hvf, Nat.zero_add]

/-- The deliverer gets the documented amount, or one unit more. -/
theorem netOf_eq_documented (bounty : ℕ) {feeBps : ℕ} (hf : feeBps ≤ feeBpsCap) :
    netOf bounty feeBps = documentedNet bounty feeBps +
      if bpsDenominator ∣ bounty * feeBps then 0 else 1 :=
  rest_of_fee bounty (by decide) (hf.trans (by decide))

theorem documented_iff (bounty : ℕ) {feeBps : ℕ} (hf : feeBps ≤ feeBpsCap) :
    (netOf bounty feeBps = documentedNet bounty feeBps ∧
        feeOf bounty feeBps = documentedFee bounty feeBps) ↔
      bpsDenominator ∣ bounty * feeBps := by
  have hnet := netOf_eq_documented bounty hf
  have hsplit := netOf_add_feeOf bounty hf
  unfold documentedFee
  by_cases hdvd : bpsDenominator ∣ bounty * feeBps
  · rw [if_pos hdvd] at hnet
    simp only [hdvd, iff_true]
    omega
  · rw [if_neg hdvd] at hnet
    simp only [hdvd, iff_false]
    omega

/-- A payout of any of the four paths pays what the docs say just if the fee of
the bounty is a whole number. -/
theorem payout_documented_iff (hr : Reaches h s) (hstep : Accepts exec s l out s')
    (hl : l.pays = true) (hcfg : s.config = some cfg) (hclaim : l.claim? = some c)
    (hc : s.claims.get c = some r) (ht : s.tasks.get r.task = some t) :
    PaidAsDocumented out l cfg t r ↔ bpsDenominator ∣ t.bounty * cfg.feeBps := by
  have hs := hr.sound
  obtain ⟨c', cfg', t', r', outcome, hclaim', htask, hp⟩ := (hr.move hstep).paid_of_pays hl
  cases hclaim.symm.trans hclaim'
  cases hcfg.symm.trans hp.config
  cases hc.symm.trans hp.claim
  cases ht.symm.trans hp.task
  obtain ⟨hnet, hfee⟩ := hp.credits hs htask
  rw [← documented_iff t.bounty (hs.fee_le cfg hcfg), ← hnet, ← hfee]
  constructor
  · rintro ⟨h₁, h₂⟩
    exact ⟨h₁, h₂⟩
  · rintro ⟨h₁, h₂⟩
    exact ⟨h₁, h₂⟩

end Payouts

namespace Scenario

/-- One submission on a task with the given bounty. -/
def delivered (bounty : U64) : List Label := setup ++
  [fund bounty 3 (clock 5000), enrolls worker 0, submits (clock 1200) worker 0]

def deliveredTask (bounty : ℕ) : EscrowTask := ⟨0, poster, bounty, 3, 1, 0, 0, 0, 5000, 3600⟩

def deliveredClaim : EscrowClaim := ⟨0, job, worker, 1, 1100, 1200, 0, 0, 99⟩

end Scenario

open Scenario in
theorem payout_documented_round : ∃ out s',
    Accepts exec (played (delivered 10000)).2 (approves usdc worker 0) out s' ∧
      PaidAsDocumented out (approves usdc worker 0) ⟨admin, usdc, 400⟩ (deliveredTask 10000)
        deliveredClaim := by
  obtain ⟨out, s', hstep, _⟩ := Accepts.of_check exec (played (delivered 10000)).2
    (approves usdc worker 0) (fun _ _ => true) (by decide +kernel)
  refine ⟨out, s', hstep, (payout_documented_iff (played_reaches _) hstep rfl ?_ rfl ?_ ?_).mpr ?_⟩
  all_goals decide +kernel

open Scenario in
/-- A bounty of 99 at 4% pays 96 and 3, where the docs say 95 and 4. -/
theorem payout_documented_odd :
    Reaches (played (delivered 99)).1 (played (delivered 99)).2 ∧
    (played (delivered 99)).2.config = some ⟨admin, usdc, 400⟩ ∧
    (played (delivered 99)).2.tasks.get job = some (deliveredTask 99) ∧
    (played (delivered 99)).2.claims.get (.claimPda 0) = some deliveredClaim ∧
    ∃ out s', Accepts exec (played (delivered 99)).2 (approves usdc worker 0) out s' ∧
      creditOf (.ata worker usdc) out (approves usdc worker 0) = 96 ∧
      creditOf (feeVaultOf usdc) out (approves usdc worker 0) = 3 ∧
      ¬ PaidAsDocumented out (approves usdc worker 0) ⟨admin, usdc, 400⟩ (deliveredTask 99)
        deliveredClaim := by
  obtain ⟨out, s', hstep, hcheck⟩ := Accepts.of_check exec (played (delivered 99)).2
    (approves usdc worker 0) (fun _ out =>
      decide (creditOf (.ata worker usdc) out (approves usdc worker 0) = 96 ∧
        creditOf (feeVaultOf usdc) out (approves usdc worker 0) = 3)) (by decide +kernel)
  obtain ⟨hnet, hfee⟩ := of_decide_eq_true hcheck
  refine ⟨played_reaches _, by decide +kernel, by decide +kernel, by decide +kernel, out, s', hstep,
    hnet, hfee, fun hdocs => ?_⟩
  have hclash : (96 : ℕ) = documentedNet 99 400 := hnet.symm.trans hdocs.net
  revert hclash
  decide

end ClustlyEscrow
