import ClustlyEscrow.Guarantees.Census
import ClustlyEscrow.Simulation.Footprint

/-!
# Transactions that run side by side

The runtime schedules transactions by their account lists. A transaction of this
program sees no account outside its list and changes none that is not marked
writable there, so a batch without conflicts has one result in every order, and
each of its transactions does what it would have done alone.
-/
namespace ClustlyEscrow
open Foundations

section Parallel
variable {rent : Rent} {tx : Transaction} {c c' : Chain} {outs : List (List Transfer)}
  {h : ChainHistory}

theorem ChainReaches.trans {h' : ChainHistory} (hr : ChainReaches rent h c)
    (hr' : ChainRuns rent c h' c') : ChainReaches rent (h' ++ h) c' := by
  obtain ⟨lamports, hrun⟩ := hr
  exact ⟨lamports, hrun.trans hr'⟩

/-- A transaction that succeeds is a run of its instructions. -/
theorem inTurn_run {now : I64} {ixs : List Instruction}
    (hok : inTurn (ixs.map (Instruction.processChain rent now)) c = .ok (c', outs)) :
    ∃ h', ChainRuns rent c h' c' := by
  induction ixs generalizing c outs with
  | nil =>
    simp only [List.map_nil, inTurn, Except.ok.injEq, Prod.mk.injEq] at hok
    exact ⟨[], hok.1 ▸ .start⟩
  | cons ix ixs ih =>
    simp only [List.map_cons, inTurn, seq_eq_ok, return_eq_ok, Prod.mk.injEq] at hok
    obtain ⟨⟨mid, out⟩, hix, ⟨c₂, outs₂⟩, hrest, rfl, _⟩ := hok
    obtain ⟨h', hrun⟩ := ih hrest
    exact ⟨_, (Run.single (l := .instr now ix) hix).trans hrun⟩

/-- Whatever a transaction does, the chain stays reachable. -/
theorem ChainReaches.after (hr : ChainReaches rent h c) (tx : Transaction) :
    ∃ h', ChainReaches rent h' (Foundations.after (tx.process rent) c) := by
  unfold Foundations.after
  split
  · rename_i c' outs hok
    obtain ⟨h', hrun⟩ := inTurn_run hok
    exact ⟨_, hr.trans hrun⟩
  · exact ⟨h, hr⟩

theorem ChainReaches.runBatch (hr : ChainReaches rent h c) (txs : List Transaction) :
    ∃ h', ChainReaches rent h' (Foundations.runBatch (Transaction.process rent) c txs) := by
  induction txs generalizing h c with
  | nil => exact ⟨h, hr⟩
  | cons tx txs ih =>
    obtain ⟨h', hr'⟩ := hr.after tx
    exact ih hr'

/-- Nothing outside the writable accounts of a transaction changes, and from two
chains that agree on its accounts it ends the same way on them. -/
theorem transaction_confined (rent : Rent) (tx : Transaction) (c d : Chain) :
    (∀ k ∉ tx.writable, (after (tx.process rent) c).cell k = c.cell k) ∧
      ((∀ k ∈ tx.listed, c.cell k = d.cell k) →
        outcome (tx.process rent) c = outcome (tx.process rent) d ∧
          ∀ k ∈ tx.listed, (after (tx.process rent) c).cell k =
            (after (tx.process rent) d).cell k) := by
  have hlocal := Transaction.process_local rent tx
  refine ⟨hlocal.after_frame c, fun hagree => ?_⟩
  exact ⟨hlocal.outcome_eq hagree, hlocal.after_agree hagree⟩

theorem pairwise_apart {txs : List Transaction} (hfree : txs.Pairwise Transaction.ConflictFree) :
    ∀ x ∈ txs, ∀ y ∈ txs, x ≠ y → Apart Transaction.listed Transaction.writable x y := by
  intro x hx y hy hne
  exact (hfree.forall hx hy hne).apart

/-- A batch whose transactions pairwise do not conflict leads to one and the same
reachable chain in every order, and each of its transactions succeeds or fails,
with the same transfers, as if it had been the only one. -/
theorem conflict_free_batch (rent : Rent) {h : ChainHistory} {c : Chain}
    (hr : ChainReaches rent h c) {txs txs' : List Transaction}
    (hfree : txs.Pairwise Transaction.ConflictFree) (hperm : txs.Perm txs') :
    (∃ h' c', ChainReaches rent h' c' ∧ runBatch (Transaction.process rent) c txs = c' ∧
        runBatch (Transaction.process rent) c txs' = c') ∧
      ∀ before tx later, txs' = before ++ tx :: later →
        outcome (tx.process rent) (runBatch (Transaction.process rent) c before) =
          outcome (tx.process rent) c := by
  constructor
  · obtain ⟨h', hr'⟩ := hr.runBatch txs
    refine ⟨h', _, hr', rfl, ?_⟩
    exact (runBatch_perm (fun _ _ => Chain.ext_cell) (Transaction.process_local rent)
      Transaction.writable_subset (pairwise_apart hfree) hperm c).symm
  · rintro before tx later rfl
    have hsplit := (hperm.pairwise_iff fun h => h.symm).mp hfree
    have hbefore := (List.pairwise_append.mp hsplit).2.2
    apply (Transaction.process_local rent tx).outcome_eq
    exact runBatch_unnoticed (Transaction.process_local rent)
      (fun y hy => (hbefore y hy tx List.mem_cons_self).apart.left) c

end Parallel

namespace Scenario

/-- Seven thousand lamports a byte, as long as two years of storage cost. -/
def yearlyRent : Rent := ⟨fun space => (128 + space) * 6960, fun space => by omega⟩

def bank : Pubkey := .key 8

/-- Everybody who can sign has a billion lamports. -/
def purse : Coins Pubkey := fun k => if k.canSign then 1000000000 else 0

def onChain : Label → ChainLabel
  | .instr now ix => .instr now ix
  | .token op => .token op bank

def chainPlayed (ls : List ChainLabel) : ChainHistory × Chain :=
  playFrom (Chain.exec yearlyRent) ⟨.genesis, purse⟩ ls

theorem chainPlayed_reaches (ls : List ChainLabel) :
    ChainReaches yearlyRent (chainPlayed ls).1 (chainPlayed ls).2 :=
  ⟨purse, playFrom_run (Chain.exec yearlyRent) ⟨.genesis, purse⟩ ls⟩

def bothEnrolled : List ChainLabel := (setup ++
  [fund 10000 3 (clock 5000), enrolls worker 0, enrolls helper 1]).map onChain

def submission (w : Pubkey) (n : BitVec 128) : Transaction :=
  ⟨clock 1200, [.submit ⟨w, job, .claimPda n⟩ 99]⟩

end Scenario

open Scenario in
theorem conflict_free_batch_submissions :
    (∃ h' c', ChainReaches yearlyRent h' c' ∧
      runBatch (Transaction.process yearlyRent) (chainPlayed bothEnrolled).2
        [submission worker 0, submission helper 1] = c' ∧
      runBatch (Transaction.process yearlyRent) (chainPlayed bothEnrolled).2
        [submission helper 1, submission worker 0] = c') ∧
      outcome ((submission worker 0).process yearlyRent)
        (runBatch (Transaction.process yearlyRent) (chainPlayed bothEnrolled).2
          [submission helper 1]) = some [[]] := by
  have hbatch := conflict_free_batch yearlyRent (chainPlayed_reaches bothEnrolled)
    (show [submission worker 0, submission helper 1].Pairwise _ by decide)
    (.swap (submission helper 1) (submission worker 0) [])
  refine ⟨hbatch.1, (hbatch.2 [submission helper 1] (submission worker 0) [] rfl).trans ?_⟩
  decide +kernel

end ClustlyEscrow
