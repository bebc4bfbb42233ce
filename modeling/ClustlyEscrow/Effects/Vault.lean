import ClustlyEscrow.Effects.Frame

/-!
# What a step takes from the vault it names

A settled slot costs the vault one bounty, winding a task up empties it, and the
transfers of the step account for every token that leaves.
-/
namespace ClustlyEscrow
open Foundations

/-- What a transfer takes from an account. -/
def Transfer.debit (k : Pubkey) (x : Transfer) : ℕ :=
  if x.source = k ∧ x.dest ≠ k then x.amount else 0

section Vault
variable {s s' : State} {out : List Transfer} {l : Label}

theorem debit_transferList {source dest : Pubkey} {n : ℕ} (h : source ≠ dest) :
    ((transferList source dest n).map (Transfer.debit source)).sum = n := by
  unfold transferList
  split_ifs with hn
  · simp [Transfer.debit, Ne.symm h]
  · simp at hn ⊢
    omega

/-- A payout takes exactly the bounty out of the vault. -/
theorem Paid.debited (hs : Sound s) {c : Pubkey} {cfg : EscrowConfig} {t : EscrowTask}
    {r : EscrowClaim} {outcome : ClaimStatus} (h : Paid s s' out c cfg t r outcome) :
    s.tokens.balance (.ata r.task cfg.usdcMint) =
      s'.tokens.balance (.ata r.task cfg.usdcMint) + t.bounty ∧
    (out.map (Transfer.debit (.ata r.task cfg.usdcMint))).sum = t.bounty := by
  obtain ⟨hva, hvf, _⟩ := vaults_ne hs h.task h.claim cfg.usdcMint
  have hsplit := netOf_add_feeOf t.bounty (hs.fee_le cfg h.config)
  have hle := h.covered
  constructor
  · rw [h.tokens'.balance, paidBalance, if_pos rfl]
    omega
  · rw [h.transfers, List.map_append, List.sum_append, debit_transferList hva,
      debit_transferList hvf, hsplit]

theorem Refunded.debited (hs : Sound s) {c P : Pubkey} {cfg : EscrowConfig} {t : EscrowTask}
    {r r' : EscrowClaim} (h : Refunded s s' out c P cfg t r r') :
    s.tokens.balance (.ata r.task cfg.usdcMint) =
      s'.tokens.balance (.ata r.task cfg.usdcMint) + t.bounty ∧
    (out.map (Transfer.debit (.ata r.task cfg.usdcMint))).sum = t.bounty := by
  have hne := vault_ne_posterAta hs h.task h.vault h.posterAta
  have hle := h.covered
  constructor
  · rw [h.tokens'.balance_source hne]
    omega
  · rw [h.transfers, List.map_singleton, List.sum_singleton, Transfer.debit,
      if_pos ⟨rfl, hne.symm⟩]

/-- Winding up takes everything. -/
theorem Ended.debited (hs : Sound s) {T P : Pubkey} {cfg : EscrowConfig} {t : EscrowTask}
    {tasks' : Store Pubkey EscrowTask} (h : Ended s s' out T P cfg t tasks') :
    s'.tokens.balance (.ata T cfg.usdcMint) = 0 ∧
      (out.map (Transfer.debit (.ata T cfg.usdcMint))).sum =
        s.tokens.balance (.ata T cfg.usdcMint) := by
  have hne := vault_ne_posterAta hs h.task h.vault h.posterAta
  constructor
  · rw [h.tokens'.balance]
    simp [Bank.movedBalance, hne]
  · rw [h.transfers, debit_transferList hne]

/-- The vault of an existing task holds tokens only as an account of that task. -/
theorem Sound.vault_holder (hs : Sound s) {T m : Pubkey} (hT : T.canSign = false)
    (hb : s.tokens.balance (.ata T m) ≠ 0) : s.tokens.holder (.ata T m) = some (T, m) := by
  cases hh : s.tokens.holder (.ata T m) with
  | none => exact absurd (s.tokens.balance_of_no_holder hh) hb
  | some om =>
    obtain ⟨o, n⟩ := om
    rw [hs.ata_owner T m o n hT hh, hs.ata_mint T m o n hh]

end Vault

end ClustlyEscrow
