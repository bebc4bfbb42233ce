import ClustlyEscrow.Effects.Supply
import ClustlyEscrow.Guarantees.Deal

/-!
# The fee vault

The four payouts add the fee of the day to the fee vault, anybody may deposit
into it, and `withdraw_fees` alone takes from it, also back into itself. The
history accounts for its balance to the token.
-/
namespace ClustlyEscrow
open Foundations

/-! ## Reading a history -/

/-- The four instructions that pay a deliverer. -/
def Label.pays : Label → Bool
  | .instr _ (.approveClaim _) => true
  | .instr _ (.autoApprove _) => true
  | .instr _ (.resolveDispute _ .deliverer) => true
  | .instr _ (.autoResolveDispute _) => true
  | _ => false

/-- The fee of a payout, at the bounty and the rate that it finds. -/
def feeAt (e : EscrowEvent) : ℕ :=
  if e.label.pays then
    match e.pre.config, e.label.task?.bind e.pre.tasks.get with
    | some cfg, some t => t.bounty * cfg.feeBps / bpsDenominator
    | _, _ => 0
  else 0

def fees (h : History) : ℕ := (h.map feeAt).sum

/-- What a withdrawal takes out of account `k` to another one. -/
def Label.withdraws (k : Pubkey) : Label → ℕ
  | .instr _ (.withdrawFees a amount) => if a.destination = k then 0 else amount
  | _ => 0

def withdrawals (k : Pubkey) (h : History) : ℕ := (h.map fun e => e.label.withdraws k).sum

/-- What the steps other than payouts put into account `k`. -/
def otherDeposits (k : Pubkey) (h : History) : ℕ := deposits k (h.filter fun e => !e.label.pays)

abbrev feeVaultOf (mint : Pubkey) : Pubkey := .ata .configPda mint

/-- The books of account `k` balance over a step. -/
def Booked (k : Pubkey) (e : EscrowEvent) : Prop :=
  e.post.tokens.balance k + e.label.withdraws k =
    e.pre.tokens.balance k + feeAt e + otherDeposits k [e]

section Steps
variable {s s' : State} {h : History} {l : Label} {out : List Transfer} {k m o n : Pubkey}
  {cfg : EscrowConfig} {t : EscrowTask} {r r' : EscrowClaim}

theorem otherDeposits_singleton {e : EscrowEvent} : otherDeposits k [e] =
    if e.label.pays then 0 else creditOf k e.output e.label := by
  unfold otherDeposits
  cases hpays : e.label.pays <;> simp [hpays, deposits]

/-- A step that neither pays nor withdraws is booked by what it credits. -/
theorem booked_of_credit (hpays : l.pays = false) (hw : l.withdraws k = 0)
    (hb : s'.tokens.balance k = s.tokens.balance k + creditOf k out l) :
    Booked k ⟨l, s, s', out⟩ := by
  unfold Booked
  rw [otherDeposits_singleton]
  simp only [feeAt, hpays, hw, hb, Bool.false_eq_true, if_false, Nat.add_zero]

theorem booked_of_unmoved {now : I64} {ix : Instruction} (hpays : (Label.instr now ix).pays = false)
    (hw : (Label.instr now ix).withdraws k = 0)
    (hb : s'.tokens.balance k = s.tokens.balance k ∧ (out.map (Transfer.credit k)).sum = 0) :
    Booked k ⟨.instr now ix, s, s', out⟩ := by
  apply booked_of_credit hpays hw
  rw [creditOf, hb.1, hb.2]
  rfl

/-- No account of a signer is a fee vault. -/
theorem Sound.feeVault_ne (hs : Sound s) {P : Pubkey} (hP : s.tokens.holder P = some (o, n))
    (ho : o.canSign = true) : feeVaultOf m ≠ P := by
  rintro rfl
  exact ne_of_canSign ho rfl (hs.ata_owner _ _ _ _ rfl hP)

theorem feeVault_ne_ata (ho : o ≠ .configPda) : feeVaultOf m ≠ .ata o n := by
  intro heq
  exact ho (Pubkey.ata.inj heq).1.symm

/-- An outside operation credits no account that does not exist. -/
theorem TokenOp.unheld {b b' : Bank Pubkey} {op : TokenOp} (hop : op.process b = .ok b')
    (hk : b.holder k = none) : b'.balance k = 0 ∧ op.credit k = 0 := by
  have hz := b.balance_of_no_holder hk
  cases TokenOp.process_eq_ok.mp hop with
  | createMint _ call => exact ⟨((Bank.createMint_ok call).balance k).trans hz, rfl⟩
  | createAccount _ call | createAta call =>
    exact ⟨((Bank.openAccount_eq_ok.mp call).2.2.2.balance k).trans hz, rfl⟩
  | transfer _ call =>
    obtain ⟨_, _, hsrc, hdest, _, hmoved⟩ := Bank.transfer_moved call
    have hkd : k ≠ _ := (ne_of_fresh hdest hk).symm
    refine ⟨(hmoved.balance_of_ne (ne_of_fresh hsrc hk).symm hkd).trans hz, ?_⟩
    exact if_neg fun hx => hkd hx.1.symm
  | mintTo call =>
    have hne : _ ≠ k := Bank.mintTo_ne call hk
    rw [(Bank.mintTo_ok call).balance, Function.update_of_ne hne.symm]
    exact ⟨hz, if_neg hne⟩
  | closeAccount _ call =>
    exact ⟨((Bank.closeAccount_eq_ok.mp call).2.2.balance k).trans hz, rfl⟩
  | setOwner _ call =>
    obtain ⟨_, _, hobs⟩ := Bank.setOwner_ok call
    exact ⟨(hobs.balance k).trans hz, rfl⟩

theorem PayGround.pays {outcome : ClaimStatus} (hg : PayGround cfg t r l outcome) :
    l.pays = true := by
  cases hg <;> rfl

theorem Paid.booked {c : Pubkey} {outcome : ClaimStatus} (hs : Sound s)
    (h : Paid s s' out c cfg t r outcome) (hg : PayGround cfg t r l outcome)
    (htask : l.task? = some r.task) :
    Booked (feeVaultOf cfg.usdcMint) ⟨l, s, s', out⟩ := by
  obtain ⟨_, hvf, haf⟩ := vaults_ne hs h.task h.claim cfg.usdcMint
  have hw : l.withdraws (feeVaultOf cfg.usdcMint) = 0 := by cases hg <;> rfl
  have hfee : feeAt ⟨l, s, s', out⟩ = feeOf t.bounty cfg.feeBps := by
    simp only [feeAt, hg.pays, if_true, h.config, htask, Option.bind_some, h.task]
    rfl
  unfold Booked
  rw [otherDeposits_singleton, hfee, if_pos hg.pays, hw, h.tokens'.balance]
  simp only [paidBalance, feeVaultOf, if_neg hvf.symm, if_neg haf.symm, if_true, Nat.add_zero]

/-- A withdrawal into the fee vault itself moves nothing. -/
theorem Withdrawn.booked {a : WithdrawFees} {amount : U64} {now : I64}
    (h : Withdrawn s s' out a cfg amount) :
    Booked (feeVaultOf cfg.usdcMint) ⟨.instr now (.withdrawFees a amount), s, s', out⟩ := by
  have hcov := h.covered
  have hcredit : otherDeposits (feeVaultOf cfg.usdcMint)
      [⟨.instr now (.withdrawFees a amount), s, s', out⟩] = 0 := by
    rw [otherDeposits_singleton, h.transfers]
    simp [Label.pays, creditOf, Transfer.credit, feeVaultOf]
  unfold Booked
  rw [hcredit, h.tokens'.balance]
  simp only [feeAt, Label.pays, Label.withdraws, Bool.false_eq_true, if_false, Nat.add_zero,
    Bank.movedBalance, if_true]
  by_cases hself : a.destination = feeVaultOf cfg.usdcMint
  · rw [if_pos hself, if_pos hself.symm, Nat.add_zero]
  · rw [if_neg hself, if_neg (Ne.symm hself), Nat.sub_add_cancel hcov]

/-- Every step is booked at the fee vault of the mint in force. -/
theorem Sound.booked (hs : Sound s) (hstep : Accepts exec s l out s')
    (hm : ∀ cfg, s.config = some cfg → cfg.usdcMint = m) :
    Booked (feeVaultOf m) ⟨l, s, s', out⟩ := by
  have vault {T : Pubkey} {t : EscrowTask} (ht : s.tasks.get T = some t) (n : Pubkey) :
      feeVaultOf m ≠ .ata T n := feeVault_ne_ata (hs.task T t ht).ne_config
  cases move_of_exec hs hstep with
  | configCreated he =>
    obtain ⟨_, _, _, hobs⟩ := Bank.openAccount_eq_ok.mp he.tokens'
    exact booked_of_unmoved rfl rfl ⟨hobs.balance _, by simp [he.transfers]⟩
  | reconfigured hsign _ _ hg he =>
    apply booked_of_credit (by cases hg <;> rfl) (by cases hg <;> rfl)
    rw [creditOf_of_signed hsign, he.transfers, he.post]
    rfl
  | withdrawn he =>
    rw [← hm _ he.config]
    exact he.booked
  | @funded now a _ _ _ _ _ cfg he =>
    have hv : feeVaultOf m ≠ a.taskVault := by
      rw [he.vault_key, he.task_key]
      exact feeVault_ne_ata Pubkey.noConfusion
    exact booked_of_unmoved rfl rfl
      (he.balance_of_ne hv (hs.feeVault_ne he.posterAta he.poster_signs)).2
  | ended htask _ hg he =>
    have hb := he.balance_of_ne (vault he.task _)
      (hs.feeVault_ne he.posterAta (hs.task _ _ he.task).poster)
    cases hg <;> exact booked_of_unmoved rfl rfl hb.2
  | enrolled he =>
    refine booked_of_unmoved rfl rfl ⟨?_, by simp [he.transfers]⟩
    rcases he.tokens' with ⟨_, hsame⟩ | hopen
    · rw [hsame]
    · exact (Bank.openAccount_eq_ok.mp hopen).2.2.2.balance _
  | advanced _ _ _ hg he =>
    have hb : s'.tokens.balance (feeVaultOf m) = s.tokens.balance (feeVaultOf m) ∧
        (out.map (Transfer.credit (feeVaultOf m))).sum = 0 := ⟨by rw [he.post], by
      rw [he.transfers]; rfl⟩
    cases hg <;> exact booked_of_unmoved rfl rfl hb
  | paid htask _ hg he =>
    rw [← hm _ he.config]
    exact he.booked hs hg htask
  | refunded _ _ hg he =>
    have hb := he.balance_of_ne (vault he.task _)
      (hs.feeVault_ne he.posterAta (hs.task _ _ he.task).poster)
    cases hg <;> exact booked_of_unmoved rfl rfl hb
  | @outside op b he hpost =>
    apply booked_of_credit rfl rfl
    obtain ⟨b', hb', hpost', _⟩ := token_eq_ok.mp hstep
    cases hk : s.tokens.holder (feeVaultOf m) with
    | some on =>
      obtain ⟨o, n⟩ := on
      have ho : o = .configPda := hs.ata_owner _ _ _ _ rfl hk
      rw [hpost]
      exact (he.kept _ o n (ho ▸ rfl) hk).2
    | none =>
      obtain ⟨hz, hcredit⟩ := TokenOp.unheld hb' hk
      rw [hpost', s.tokens.balance_of_no_holder hk]
      change b'.balance _ = 0 + op.credit _
      rw [hz, hcredit]

/-! ## Whole runs -/

theorem otherDeposits_cons {e : EscrowEvent} :
    otherDeposits k (e :: h) = otherDeposits k [e] + otherDeposits k h := by
  rw [otherDeposits_singleton]
  unfold otherDeposits
  cases hpays : e.label.pays <;> simp [hpays, deposits]

theorem Reaches.fee_books (hr : Reaches h s) (hno : ∀ e ∈ h, e.label.updatesMint = false) :
    ∀ m, (∀ cfg, s.config = some cfg → cfg.usdcMint = m) →
      s.tokens.balance (feeVaultOf m) + withdrawals (feeVaultOf m) h =
        fees h + otherDeposits (feeVaultOf m) h := by
  refine hr.history_invariant_of (P := fun e => e.label.updatesMint = false)
    (I := fun h s => ∀ m, (∀ cfg, s.config = some cfg → cfg.usdcMint = m) →
      s.tokens.balance (feeVaultOf m) + withdrawals (feeVaultOf m) h =
        fees h + otherDeposits (feeVaultOf m) h) (fun m _ => rfl) ?_ hno
  intro h₁ s₁ l out s₂ hrun _ hmint ih hstep m hm
  have hs := Reaches.sound hrun
  have hforce (cfg : EscrowConfig) (hcfg : s₁.config = some cfg) : cfg.usdcMint = m := by
    obtain ⟨cfg', hcfg', hsame⟩ := (move_of_exec hs hstep).config_mint_kept hmint hcfg
    rw [← hsame]
    exact hm cfg' hcfg'
  have hold := ih m hforce
  have hnew : s₂.tokens.balance (feeVaultOf m) + l.withdraws (feeVaultOf m) =
      s₁.tokens.balance (feeVaultOf m) + feeAt ⟨l, s₁, s₂, out⟩ +
        otherDeposits (feeVaultOf m) [⟨l, s₁, s₂, out⟩] := hs.booked hstep hforce
  rw [otherDeposits_cons]
  simp only [withdrawals, fees, List.map_cons, List.sum_cons] at hold ⊢
  omega

/-- The admin's withdrawal succeeds just if the fee vault covers it. -/
theorem Reaches.withdraws_iff (hr : Reaches h s) (hno : ∀ e ∈ h, e.label.updatesMint = false)
    (hcfg : s.config = some cfg) (hadmin : cfg.admin.canSign = true) {dest : Pubkey}
    (hdest : ∃ o, s.tokens.holder dest = some (o, cfg.usdcMint)) (now : I64) (amount : U64) :
    (∃ out s', Accepts exec s (.instr now (.withdrawFees
      ⟨cfg.admin, .configPda, feeVaultOf cfg.usdcMint, dest, cfg.usdcMint⟩ amount)) out s') ↔
        amount.val ≤ s.tokens.balance (feeVaultOf cfg.usdcMint) := by
  have hvault := hr.fee_vault hno cfg hcfg
  constructor
  · rintro ⟨out, s', hstep⟩
    obtain ⟨cfg', _, _, _, he⟩ := (withdrawFees_eq_ok hr.sound).mp hstep
    cases hcfg.symm.trans he.config
    exact he.covered
  · intro hcov
    obtain ⟨o, ho⟩ := hdest
    obtain ⟨b, hb⟩ := Bank.transfer_succeeds hvault ho hcov
    obtain ⟨_, _, _, _, _, hmoved⟩ := Bank.transfer_moved hb
    have he : Withdrawn s { s with tokens := b } [⟨feeVaultOf cfg.usdcMint, dest, amount⟩]
        ⟨cfg.admin, .configPda, feeVaultOf cfg.usdcMint, dest, cfg.usdcMint⟩ cfg amount :=
      ⟨hcfg, rfl, hadmin, hvault, ⟨o, ho⟩, hcov, rfl, rfl, rfl, hmoved, rfl⟩
    exact ⟨_, _, (withdrawFees_eq_ok hr.sound).mpr
      ⟨cfg, rfl, rfl, hr.sound.mint_mem cfg hcfg, he⟩⟩

/-- While the mint stays, the fee vault holds the fees of all payouts and all
other deposits less what was withdrawn to other accounts; the admin can
withdraw any amount up to that; and no instruction changes a supply. -/
theorem fee_vault_ledger (hr : Reaches h s) (hno : ∀ e ∈ h, e.label.updatesMint = false)
    (hcfg : s.config = some cfg) :
    s.tokens.balance (feeVaultOf cfg.usdcMint) + withdrawals (feeVaultOf cfg.usdcMint) h =
        fees h + otherDeposits (feeVaultOf cfg.usdcMint) h ∧
      (∀ now dest (amount : U64), cfg.admin.canSign = true →
        (∃ o, s.tokens.holder dest = some (o, cfg.usdcMint)) →
        ((∃ out s', Accepts exec s (.instr now (.withdrawFees
          ⟨cfg.admin, .configPda, feeVaultOf cfg.usdcMint, dest, cfg.usdcMint⟩ amount)) out s') ↔
            amount.val ≤ s.tokens.balance (feeVaultOf cfg.usdcMint))) ∧
      ∀ now ix out s', Accepts exec s (.instr now ix) out s' →
        ∀ m, s'.tokens.supply m = s.tokens.supply m := by
  refine ⟨?_, fun now dest amount hadmin hdest => ?_, fun now ix out s' hstep m => ?_⟩
  · apply hr.fee_books hno
    intro cfg' hcfg'
    cases hcfg.symm.trans hcfg'
    rfl
  · exact hr.withdraws_iff hno hcfg hadmin hdest now amount
  · exact supply_kept hr.sound hstep m

end Steps

namespace Scenario

def withdraws (dest : Pubkey) (amount : U64) : Label :=
  .instr (clock 6500) (.withdrawFees ⟨admin, .configPda, feeVaultOf usdc, dest, usdc⟩ amount)

/-- Two payouts at different rates, a withdrawal and one into the fee vault itself. -/
def harvested : List Label := twoClaims ++
  [.instr (clock 1350) (.updateFee ⟨.configPda, admin⟩ 250), submits (clock 1400) helper 1,
    approves usdc helper 1, withdraws (.ata poster usdc) 300, withdraws (feeVaultOf usdc) 200]

end Scenario

open Scenario in
theorem fee_vault_ledger_harvested : fees (played harvested).1 = 650 ∧
    withdrawals (feeVaultOf usdc) (played harvested).1 = 300 ∧
    (played harvested).2.tokens.balance (feeVaultOf usdc) + 300 =
      650 + otherDeposits (feeVaultOf usdc) (played harvested).1 := by
  have hfees : fees (played harvested).1 = 650 := by decide +kernel
  have hout : withdrawals (feeVaultOf usdc) (played harvested).1 = 300 := by decide +kernel
  have hcfg : (played harvested).2.config = some ⟨admin, usdc, 250⟩ := by decide +kernel
  have hbooks := (fee_vault_ledger (played_reaches harvested) (by decide +kernel) hcfg).1
  rw [hfees, hout] at hbooks
  exact ⟨hfees, hout, hbooks⟩

end ClustlyEscrow
