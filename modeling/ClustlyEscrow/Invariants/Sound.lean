import ClustlyEscrow.Program.Entrypoint

/-!
# Well-formed states

What every single record and token account satisfies in a reachable state,
without relating different records to each other.
-/
namespace ClustlyEscrow
open Foundations

structure EscrowTask.Ok (t : EscrowTask) (T : Pubkey) : Prop where
  key : T = .taskPda t.taskId
  poster : t.poster.canSign = true
  bounty_pos : 0 < t.bounty
  slots_pos : 1 ≤ t.maxSlots
  slots_le : t.maxSlots ≤ maxSlotsLimit
  total_lt : t.bounty * t.maxSlots < 2 ^ 64

structure EscrowClaim.Ok (r : EscrowClaim) (c : Pubkey) : Prop where
  key : c = .claimPda r.claimId
  claimer : r.claimer.canSign = true
  status : ∃ st : ClaimStatus, r.status = st.toU8

structure Sound (s : State) : Prop where
  fee_le : ∀ cfg, s.config = some cfg → cfg.feeBps ≤ feeBpsCap
  mint_mem : ∀ cfg, s.config = some cfg → cfg.usdcMint ∈ s.tokens.mints
  mint_signs : ∀ m ∈ s.tokens.mints, m.canSign = true
  task : ∀ T t, s.tasks.get T = some t → t.Ok T
  claim : ∀ c r, s.claims.get c = some r → r.Ok c
  /-- An associated account keeps the mint it is derived from. -/
  ata_mint : ∀ o m o' m', s.tokens.holder (.ata o m) = some (o', m') → m' = m
  /-- Only a signer can hand an account over, so program vaults keep their owner. -/
  ata_owner : ∀ o m o' m', o.canSign = false → s.tokens.holder (.ata o m) = some (o', m') →
    o' = o

theorem EscrowTask.Ok.bounty_lt {t : EscrowTask} {T : Pubkey} (h : t.Ok T) :
    t.bounty < 2 ^ 64 := by
  have hle := Nat.le_mul_of_pos_right t.bounty h.slots_pos
  have hlt := h.total_lt
  omega

theorem EscrowTask.Ok.canSign {t : EscrowTask} {T : Pubkey} (h : t.Ok T) :
    T.canSign = false := by
  rw [h.key]
  rfl

theorem EscrowTask.Ok.ne_config {t : EscrowTask} {T : Pubkey} (h : t.Ok T) :
    T ≠ .configPda := by
  rw [h.key]
  exact Pubkey.noConfusion

/-- A signer is none of the addresses that can not sign. -/
theorem ne_of_canSign {p q : Pubkey} (hp : p.canSign = true) (hq : q.canSign = false) :
    p ≠ q := by
  rintro rfl
  rw [hp] at hq
  cases hq

/-- Accounts of different owners are different. -/
theorem ne_of_owner {b : Bank Pubkey} {k j o p m n : Pubkey} (hk : b.holder k = some (o, m))
    (hj : b.holder j = some (p, n)) (h : o ≠ p) : k ≠ j := by
  rintro rfl
  rw [hk, Option.some.injEq, Prod.mk.injEq] at hj
  exact h hj.1

theorem ne_of_fresh {b : Bank Pubkey} {k j o m : Pubkey} (hk : b.holder k = some (o, m))
    (hj : b.holder j = none) : k ≠ j := by
  rintro rfl
  rw [hj] at hk
  cases hk

theorem sound_genesis : Sound State.genesis := by
  constructor <;> simp [State.genesis]

end ClustlyEscrow
