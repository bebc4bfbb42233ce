import ClustlyEscrow.Effects.Move

/-!
# Instructions move tokens and make none

Every effect on the token accounts is a sequence of transfers, openings and
closings of emptied accounts, so no instruction changes the supply of a mint.
-/
namespace ClustlyEscrow
open Foundations

section Supply
variable {s s' : State} {out : List Transfer} {c P T : Pubkey} {cfg : EscrowConfig}
  {t : EscrowTask} {r r' : EscrowClaim}

theorem Paid.supply {outcome : ClaimStatus} (hs : Sound s)
    (h : Paid s s' out c cfg t r outcome) (m : Pubkey) :
    s'.tokens.supply m = s.tokens.supply m := by
  obtain ⟨b, hnet, hfee, hm₁, hm₂⟩ := h.moved hs
  calc s'.tokens.supply m = b.supply m := hm₂.supply ((hm₁.holder _).trans h.ready.vault)
        ((hm₁.holder _).trans h.ready.feeVault) hfee m
    _ = s.tokens.supply m := hm₁.supply h.ready.vault h.ready.claimerAta hnet m

theorem Refunded.supply (h : Refunded s s' out c P cfg t r r') (m : Pubkey) :
    s'.tokens.supply m = s.tokens.supply m :=
  h.tokens'.supply h.vault h.posterAta h.covered m

theorem Withdrawn.supply {a : WithdrawFees} {amount : ℕ}
    (h : Withdrawn s s' out a cfg amount) (m : Pubkey) :
    s'.tokens.supply m = s.tokens.supply m := by
  obtain ⟨o, ho⟩ := h.destination
  exact h.tokens'.supply h.feeVault ho h.covered m

theorem Funded.supply {a : InitializeTask} (h : Funded s s' out a cfg t) (m : Pubkey) :
    s'.tokens.supply m = s.tokens.supply m := by
  have hne : a.posterAta ≠ a.taskVault := ne_of_fresh h.posterAta h.vault_fresh
  obtain ⟨b₁, hopen⟩ := Bank.openAccount_succeeds a.task h.mint_mem h.vault_not_mint h.vault_fresh
  obtain ⟨_, _, _, hobs⟩ := Bank.openAccount_eq_ok.mp hopen
  have hP : b₁.holder a.posterAta = some (a.poster, cfg.usdcMint) := by
    rw [hobs.holder, Function.update_of_ne hne, h.posterAta]
  have hV : b₁.holder a.taskVault = some (a.task, cfg.usdcMint) := by
    rw [hobs.holder, Function.update_self]
  have hle : t.bounty * t.maxSlots ≤ b₁.balance a.posterAta := by
    rw [hobs.balance]
    exact h.covered
  obtain ⟨b₂, hmove⟩ := Bank.transfer_succeeds hP hV hle
  obtain ⟨_, _, _, _, _, hm₂⟩ := Bank.transfer_moved hmove
  have hb₂ : s'.tokens = b₂ := h.tokens'.unique (opened_then_moved hobs hm₂)
  rw [hb₂, Bank.transfer_supply hmove, Bank.openAccount_supply hopen]

theorem Ended.supply {tasks' : Store Pubkey EscrowTask} (hs : Sound s)
    (h : Ended s s' out T P cfg t tasks') (m : Pubkey) :
    s'.tokens.supply m = s.tokens.supply m := by
  have hne := vault_ne_posterAta hs h.task h.vault h.posterAta
  obtain ⟨b₁, b₂, hmove, hclose⟩ := Bank.sweep_succeeds hne h.vault h.posterAta
  have hb₂ : s'.tokens = b₂ := h.tokens'.unique (Bank.sweep_observes hne h.vault hmove hclose)
  rw [hb₂, Bank.closeAccount_supply hclose, Bank.transfer_supply hmove]

theorem AtaReady.supply {b b' : Bank Pubkey} {owner mint : Pubkey}
    (h : AtaReady b b' owner mint) (m : Pubkey) : b'.supply m = b.supply m := by
  rcases h with ⟨_, rfl⟩ | hopen
  · rfl
  · exact Bank.openAccount_supply hopen m

/-- No instruction changes the supply of a mint. -/
theorem supply_kept {now : I64} {ix : Instruction} (hs : Sound s)
    (hstep : Accepts exec s (.instr now ix) out s') (m : Pubkey) :
    s'.tokens.supply m = s.tokens.supply m := by
  cases move_of_exec hs hstep with
  | configCreated he => exact Bank.openAccount_supply he.tokens' m
  | reconfigured _ _ _ _ he => rw [he.post]
  | withdrawn he => exact he.supply m
  | funded he => exact he.supply m
  | ended _ _ _ he => exact he.supply hs m
  | enrolled he => exact he.tokens'.supply m
  | advanced _ _ _ _ he => rw [he.post]
  | paid _ _ _ he => exact he.supply hs m
  | refunded _ _ _ he => exact he.supply m

end Supply
end ClustlyEscrow
