import ClustlyEscrow.Effects.Vault
import ClustlyEscrow.Guarantees.Authority
import ClustlyEscrow.Guarantees.FeeVault

/-!
# The journal of a run

The transfers that the steps of a run list, and those that others make, explain
every balance to the token. Read for the fee vaults, the journal books each of
them in its own mint, however often the mint changes. Read for the account of a
wallet, it says that nothing leaves it that its owner did not sign for.
-/
namespace ClustlyEscrow
open Foundations

/-- What an outside operation takes from an account. -/
def TokenOp.debit (k : Pubkey) : TokenOp → ℕ
  | .transfer _ source dest amount => if source = k ∧ dest ≠ k then amount else 0
  | _ => 0

/-- What a step takes from an account, read off its label and its output. -/
def debitOf (k : Pubkey) (out : List Transfer) : Label → ℕ
  | .instr _ _ => (out.map (Transfer.debit k)).sum
  | .token op => op.debit k

/-- What the owner `p` of account `k` signs away in a step. -/
def Label.spends (p k : Pubkey) : Label → ℕ
  | .instr _ (.initializeTask a _ bounty maxSlots _ _) =>
    if a.poster = p ∧ a.posterAta = k then bounty * maxSlots else 0
  | .token (.transfer authority source dest amount) =>
    if authority = p ∧ source = k ∧ dest ≠ k then amount else 0
  | _ => 0

/-- The entries of a step explain the balance of account `k`. -/
def Explained (k : Pubkey) (s s' : State) (out : List Transfer) (l : Label) : Prop :=
  s'.tokens.balance k + debitOf k out l = s.tokens.balance k + creditOf k out l

section Step
variable {s s' : State} {out : List Transfer} {l : Label} {k p m : Pubkey} {now : I64}
  {ix : Instruction} {op : TokenOp}

theorem journal_transferList {source dest : Pubkey} {n : ℕ} :
    ((transferList source dest n).map (Transfer.debit k)).sum =
        (if source = k ∧ dest ≠ k then n else 0) ∧
      ((transferList source dest n).map (Transfer.credit k)).sum =
        if dest = k ∧ source ≠ k then n else 0 := by
  unfold transferList
  split_ifs with hn <;> simp_all [Transfer.debit, Transfer.credit]

/-- A single covered transfer. -/
theorem explained_of_moved {source dest : Pubkey} {n : ℕ}
    (hb : s'.tokens.balance k = s.tokens.movedBalance source dest n k)
    (hn : n ≤ s.tokens.balance source)
    (hd : (out.map (Transfer.debit k)).sum = if source = k ∧ dest ≠ k then n else 0)
    (hc : (out.map (Transfer.credit k)).sum = if dest = k ∧ source ≠ k then n else 0) :
    Explained k s s' out (.instr now ix) := by
  change _ + (out.map (Transfer.debit k)).sum = _ + (out.map (Transfer.credit k)).sum
  rw [hb, hd, hc]
  exact s.tokens.movedBalance_books hn k

theorem explained_of_kept (hb : s'.tokens.balance k = s.tokens.balance k) (hout : out = []) :
    Explained k s s' out (.instr now ix) := by
  subst hout
  exact congrArg (· + 0) hb

/-- Net and fee leave the vault one after the other. -/
theorem Paid.explained {c : Pubkey} {cfg : EscrowConfig} {t : EscrowTask} {r : EscrowClaim}
    {outcome : ClaimStatus} (hs : Sound s) (he : Paid s s' out c cfg t r outcome) :
    Explained k s s' out (.instr now ix) := by
  obtain ⟨hva, hvf, haf⟩ := vaults_ne hs he.task he.claim cfg.usdcMint
  have hsplit := netOf_add_feeOf t.bounty (hs.fee_le cfg he.config)
  have hle := he.covered
  have hb := he.tokens'.balance k
  change _ + (out.map (Transfer.debit k)).sum = _ + (out.map (Transfer.credit k)).sum
  rw [he.transfers, List.map_append, List.map_append, List.sum_append, List.sum_append,
    journal_transferList.1, journal_transferList.1, journal_transferList.2,
    journal_transferList.2, hb, paidBalance]
  by_cases hv : k = .ata r.task cfg.usdcMint
  · subst k
    simp [hva.symm, hvf.symm]
    omega
  by_cases ha : k = .ata r.claimer cfg.usdcMint
  · subst k
    simp [hva, hva.symm, haf.symm]
  · by_cases hf : k = .ata .configPda cfg.usdcMint
    · subst k
      simp only [hvf, hvf.symm, haf, haf.symm, if_true, if_false, ne_eq, not_true, not_false_iff,
        and_self, and_true, Nat.add_zero, Nat.zero_add]
    · simp [hv, ha, hf, Ne.symm hv, Ne.symm ha, Ne.symm hf]

theorem TokenOp.explained {b b' : Bank Pubkey} (hop : op.process b = .ok b') :
    b'.balance k + op.debit k = b.balance k + op.credit k := by
  cases TokenOp.process_eq_ok.mp hop with
  | createMint _ call => exact (Bank.createMint_ok call).balance k
  | createAccount _ call | createAta call =>
    exact (Bank.openAccount_eq_ok.mp call).2.2.2.balance k
  | transfer _ call =>
    obtain ⟨_, _, _, _, hle, hmoved⟩ := Bank.transfer_moved call
    rw [hmoved.balance]
    exact b.movedBalance_books hle k
  | @mintTo dest amount call =>
    change b'.balance k + 0 = b.balance k + if dest = k then amount.val else 0
    rw [(Bank.mintTo_ok call).balance, Nat.add_zero]
    by_cases hk : dest = k
    · subst k
      rw [Function.update_self, if_pos rfl]
    · rw [Function.update_of_ne (Ne.symm hk), if_neg hk, Nat.add_zero]
  | closeAccount _ call => exact (Bank.closeAccount_eq_ok.mp call).2.2.balance k
  | setOwner _ call =>
    obtain ⟨_, _, hobs⟩ := Bank.setOwner_ok call
    exact hobs.balance k

theorem Sound.explained (hs : Sound s) (hstep : Accepts exec s l out s') (k : Pubkey) :
    Explained k s s' out l := by
  cases l with
  | token op =>
    obtain ⟨tokens, hop, rfl, rfl⟩ := token_eq_ok.mp hstep
    exact TokenOp.explained hop
  | instr now ix =>
    cases move_of_exec hs hstep with
    | configCreated he =>
      exact explained_of_kept ((Bank.openAccount_eq_ok.mp he.tokens').2.2.2.balance k) he.transfers
    | reconfigured _ _ _ _ he => exact explained_of_kept (by rw [he.post]) he.transfers
    | withdrawn he =>
      apply explained_of_moved (he.tokens'.balance k) he.covered
      all_goals simp [he.transfers, Transfer.debit, Transfer.credit]
    | funded he =>
      apply explained_of_moved (he.tokens'.balance k) he.covered
      all_goals simp [he.transfers, Transfer.debit, Transfer.credit]
    | ended _ _ _ he =>
      apply explained_of_moved (he.tokens'.balance k) le_rfl
      · rw [he.transfers, journal_transferList.1]
      · rw [he.transfers, journal_transferList.2]
    | enrolled he =>
      rcases he.tokens' with ⟨_, hsame⟩ | hopen
      · exact explained_of_kept (by rw [hsame]) he.transfers
      · exact explained_of_kept ((Bank.openAccount_eq_ok.mp hopen).2.2.2.balance k) he.transfers
    | advanced _ _ _ _ he => exact explained_of_kept (by rw [he.post]) he.transfers
    | paid _ _ _ he => exact he.explained hs
    | refunded _ _ _ he =>
      apply explained_of_moved (he.tokens'.balance k) he.covered
      all_goals simp [he.transfers, Transfer.debit, Transfer.credit]

/-! ## The fee vaults of all mints -/

/-- The step was taken while the config named mint `M`. -/
def inMint (M : Pubkey) (e : EscrowEvent) : Bool :=
  decide (e.pre.config.map EscrowConfig.usdcMint = some M)

/-- No step takes from the fee vault of a mint that the config does not name, and
no payout adds to it. -/
theorem Sound.unnamed_vault (hs : Sound s) (hstep : Accepts exec s l out s') {M : Pubkey}
    (hM : ∀ cfg, s.config = some cfg → cfg.usdcMint ≠ M) :
    debitOf (feeVaultOf M) out l = 0 ∧ (l.pays = true → creditOf (feeVaultOf M) out l = 0) := by
  have vault {T : Pubkey} {t : EscrowTask} (ht : s.tasks.get T = some t) (n : Pubkey) :
      .ata T n ≠ feeVaultOf M := (feeVault_ne_ata (hs.task T t ht).ne_config).symm
  have other {cfg : EscrowConfig} (hcfg : s.config = some cfg) :
      feeVaultOf cfg.usdcMint ≠ feeVaultOf M := fun heq => hM cfg hcfg (Pubkey.ata.inj heq).2
  cases l with
  | token op =>
    obtain ⟨tokens, hop, rfl, rfl⟩ := token_eq_ok.mp hstep
    refine ⟨?_, fun hpays => by cases hpays⟩
    cases TokenOp.process_eq_ok.mp hop with
    | @transfer authority source dest amount hsign call =>
      obtain ⟨_, _, hheld, _⟩ := Bank.transfer_moved call
      have hne := hs.feeVault_ne (m := M) hheld hsign
      exact if_neg fun hx => hne hx.1.symm
    | _ => rfl
  | instr now ix =>
    change (out.map (Transfer.debit (feeVaultOf M))).sum = 0 ∧
      (_ → (out.map (Transfer.credit (feeVaultOf M))).sum = 0)
    cases move_of_exec hs hstep with
    | configCreated he | enrolled he =>
      rw [he.transfers]
      exact ⟨rfl, fun _ => rfl⟩
    | reconfigured _ _ _ _ he | advanced _ _ _ _ he =>
      rw [he.transfers]
      exact ⟨rfl, fun _ => rfl⟩
    | withdrawn he =>
      rw [he.transfers]
      exact ⟨by simp [Transfer.debit, other he.config], fun hpays => by cases hpays⟩
    | funded he =>
      have hne := (hs.feeVault_ne (m := M) he.posterAta he.poster_signs).symm
      rw [he.transfers]
      exact ⟨by simp [Transfer.debit, hne], fun hpays => by cases hpays⟩
    | ended _ _ hg he =>
      rw [he.transfers, journal_transferList.1, if_neg fun hx => vault he.task _ hx.1]
      exact ⟨rfl, fun hpays => by cases hg <;> cases hpays⟩
    | @paid _ _ cfg _ r _ _ _ _ he =>
      have hv := vault he.task cfg.usdcMint
      have hw : Pubkey.ata r.claimer cfg.usdcMint ≠ feeVaultOf M :=
        (feeVault_ne_ata (ne_of_canSign (hs.claim _ _ he.claim).claimer rfl)).symm
      rw [he.transfers, List.map_append, List.map_append, List.sum_append, List.sum_append,
        journal_transferList.1, journal_transferList.1, journal_transferList.2,
        journal_transferList.2]
      exact ⟨by simp [hv], fun _ => by simp [hw, other he.config]⟩
    | refunded _ _ hg he =>
      rw [he.transfers]
      exact ⟨by simp [Transfer.debit, vault he.task], fun hpays => by cases hg <;> cases hpays⟩

/-- A step is booked at the fee vault of mint `M` if the config names `M`, and
otherwise only by what else it deposits there. -/
theorem Sound.booked_in (hs : Sound s) (hstep : Accepts exec s l out s') (M : Pubkey) :
    if inMint M ⟨l, s, s', out⟩ then Booked (feeVaultOf M) ⟨l, s, s', out⟩
    else s'.tokens.balance (feeVaultOf M) =
      s.tokens.balance (feeVaultOf M) + otherDeposits (feeVaultOf M) [⟨l, s, s', out⟩] := by
  split_ifs with hin
  · apply hs.booked hstep
    intro cfg hcfg
    have hmint := of_decide_eq_true hin
    rw [hcfg] at hmint
    exact Option.some.inj hmint
  · have hother (cfg : EscrowConfig) (hcfg : s.config = some cfg) : cfg.usdcMint ≠ M := by
      rintro rfl
      exact hin (decide_eq_true (congrArg (Option.map EscrowConfig.usdcMint) hcfg))
    obtain ⟨hdebit, hcredit⟩ := hs.unnamed_vault hstep hother
    have hexplained := hs.explained hstep (feeVaultOf M)
    rw [Explained, hdebit, Nat.add_zero] at hexplained
    rw [hexplained, otherDeposits_singleton]
    split_ifs with hpays
    · rw [hcredit hpays]
    · rfl

/-! ## The account of a wallet -/

theorem Label.spends_of_claim {c : Pubkey} (hl : l.claim? = some c) : l.spends p k = 0 := by
  cases l with
  | token op => cases hl
  | instr now ix => cases ix <;> first | rfl | cases hl

/-- A step takes from the account of a wallet what its owner signs for. -/
theorem Sound.debitOf_eq (hs : Sound s) (hstep : Accepts exec s l out s')
    (hp : p.canSign = true) (hk : s.tokens.holder k = some (p, m)) :
    debitOf k out l = l.spends p k := by
  have other {j q n : Pubkey} (hj : s.tokens.holder j = some (q, n)) (hq : q.canSign = false) :
      j ≠ k := ne_of_owner hj hk (ne_of_canSign hp hq).symm
  cases l with
  | token op =>
    obtain ⟨tokens, hop, rfl, rfl⟩ := token_eq_ok.mp hstep
    cases TokenOp.process_eq_ok.mp hop with
    | @transfer authority source dest amount _ call =>
      obtain ⟨_, _, hheld, _⟩ := Bank.transfer_moved call
      by_cases hsource : source = k
      · subst k
        rw [hheld, Option.some.injEq, Prod.mk.injEq] at hk
        simp [debitOf, TokenOp.debit, Label.spends, hk.1]
      · simp [debitOf, TokenOp.debit, Label.spends, hsource]
    | _ => rfl
  | instr now ix =>
    have hmove := move_of_exec hs hstep
    have hdebit : debitOf k out (.instr now ix) = (out.map (Transfer.debit k)).sum := rfl
    rw [hdebit]
    cases hmove with
    | configCreated he => rw [he.transfers]; rfl
    | reconfigured _ _ _ hg he =>
      rw [he.transfers]
      cases hg <;> rfl
    | withdrawn he =>
      rw [he.transfers]
      simp [Transfer.debit, Label.spends, other he.feeVault rfl]
    | @funded _ a _ bounty maxSlots _ _ _ he =>
      have hvault := ne_of_fresh hk he.vault_fresh
      rw [he.transfers]
      by_cases hwallet : a.posterAta = k
      · have howner := he.posterAta
        rw [hwallet, hk, Option.some.injEq, Prod.mk.injEq] at howner
        have hside : a.posterAta = k ∧ a.taskVault ≠ k := ⟨hwallet, hvault.symm⟩
        change (if a.posterAta = k ∧ a.taskVault ≠ k then bounty.val * maxSlots.val else 0) + 0 =
          if a.poster = p ∧ a.posterAta = k then bounty.val * maxSlots.val else 0
        rw [if_pos hside, if_pos ⟨howner.1.symm, hwallet⟩, Nat.add_zero]
      · simp [Transfer.debit, Label.spends, hwallet]
    | ended htask _ hg he =>
      have hT := other he.vault (hs.task _ _ he.task).canSign
      rw [he.transfers, journal_transferList.1, if_neg fun h => hT h.1]
      cases hg <;> rfl
    | enrolled he => rw [he.transfers]; rfl
    | advanced _ hclaim _ _ he => rw [he.transfers, Label.spends_of_claim hclaim]; rfl
    | paid _ hclaim _ he =>
      have hT := other he.ready.vault (hs.task _ _ he.task).canSign
      rw [he.transfers, List.map_append, List.sum_append, journal_transferList.1,
        journal_transferList.1, if_neg fun h => hT h.1, if_neg fun h => hT h.1,
        Label.spends_of_claim hclaim]
    | refunded _ hclaim _ he =>
      have hT := other he.vault (hs.task _ _ he.task).canSign
      rw [he.transfers, Label.spends_of_claim hclaim]
      simp [Transfer.debit, hT]

end Step

section Runs
variable {s s' : State} {h h' : History}

/-- In every run, `update_mint` included: the fee vault of every mint holds the
fees of the payouts that were made while the config named that mint, and all
other deposits, less what was withdrawn while the config named it. -/
theorem fee_vaults_ledger (hr : Reaches h s) (M : Pubkey) :
    s.tokens.balance (feeVaultOf M) + withdrawals (feeVaultOf M) (h.filter (inMint M)) =
      fees (h.filter (inMint M)) + otherDeposits (feeVaultOf M) h := by
  apply hr.history_invariant (I := fun h s => s.tokens.balance (feeVaultOf M) +
    withdrawals (feeVaultOf M) (h.filter (inMint M)) =
      fees (h.filter (inMint M)) + otherDeposits (feeVaultOf M) h) rfl
  intro h s l out s' hrun ih hstep
  have hbooked := (Reaches.sound hrun).booked_in hstep M
  rw [otherDeposits_cons, List.filter_cons]
  split_ifs at hbooked ⊢
  · unfold Booked at hbooked
    simp only [withdrawals, fees, List.map_cons, List.sum_cons] at hbooked ih ⊢
    omega
  · omega

/-- In every run, whatever happens in it: as long as `p` owns the account `k`,
its balance is what it was plus what was credited, less the bounties of the tasks
that `p` funded from it and the transfers that `p` signed. -/
theorem wallet_statement (hr : Reaches h s) (hrun : Runs s h' s') {p k m : Pubkey}
    (hp : p.canSign = true) (hk : ∀ e ∈ h', e.pre.tokens.holder k = some (p, m)) :
    s'.tokens.balance k + (h'.map fun e => e.label.spends p k).sum =
      s.tokens.balance k + (h'.map fun e => creditOf k e.output e.label).sum := by
  apply Run.balance_of (P := fun e => e.pre.tokens.holder k = some (p, m))
    (fun s => s.tokens.balance k) _ _ ?_ hrun hk
  intro h₁ s₁ l out s₂ hrun₁ hheld hstep
  have hs : Sound s₁ := Reaches.sound (hr.trans hrun₁)
  have hexplained := hs.explained hstep k
  rwa [Explained, hs.debitOf_eq hstep hp hheld] at hexplained

end Runs

/-! ## Two runs -/

namespace Scenario

/-- After the payouts and withdrawals the config names another mint. -/
def renamed : List Label := harvested ++ [.token (.createMint otherMint),
  .instr (clock 1500) (.updateMint ⟨⟨.configPda, admin⟩, otherMint⟩)]

/-- What the poster and the others do once the poster has tokens. -/
def wholeTask : List Label := closedTask.drop setup.length

theorem wallet_kept : ∀ e ∈ (playFrom exec (played setup).2 wholeTask).1,
    e.pre.tokens.holder (.ata poster usdc) = some (poster, usdc) := by
  decide +kernel

end Scenario

open Scenario in
/-- The fees are still booked where they were paid. -/
theorem fee_vaults_ledger_renamed :
    (played renamed).2.config = some ⟨admin, otherMint, 250⟩ ∧
    (played renamed).2.tokens.balance (feeVaultOf usdc) + 300 =
      650 + otherDeposits (feeVaultOf usdc) (played renamed).1 := by
  have hfees : fees ((played renamed).1.filter (inMint usdc)) = 650 := by decide +kernel
  have hout : withdrawals (feeVaultOf usdc) ((played renamed).1.filter (inMint usdc)) = 300 := by
    decide +kernel
  have hbooks := fee_vaults_ledger (played_reaches renamed) usdc
  rw [hfees, hout] at hbooks
  exact ⟨by decide +kernel, hbooks⟩

open Scenario in
/-- Three bounties of 10000 leave the account of the poster, and one of them comes back. -/
theorem wallet_statement_wholeTask :
    (playFrom exec (played setup).2 wholeTask).2.tokens.balance (.ata poster usdc) +
        ((playFrom exec (played setup).2 wholeTask).1.map fun e =>
          e.label.spends poster (.ata poster usdc)).sum =
      (played setup).2.tokens.balance (.ata poster usdc) +
        ((playFrom exec (played setup).2 wholeTask).1.map fun e =>
          creditOf (.ata poster usdc) e.output e.label).sum :=
  wallet_statement (played_reaches setup) (playFrom_run exec _ _) rfl wallet_kept

open Scenario in
example : (playFrom exec (played setup).2 wholeTask).2.tokens.balance (.ata poster usdc) + 30000 =
    (played setup).2.tokens.balance (.ata poster usdc) + 10000 := by
  decide +kernel

end ClustlyEscrow
