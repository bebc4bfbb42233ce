import ClustlyEscrow.Effects.Vault

/-!
# The change that handling a claim makes

Submitting, rejecting, disputing and settling a claim all make one kind of
change: the record of the claim is replaced, the counters of its task go up, and
tokens are transferred. Changes to different claims commute.
-/
namespace ClustlyEscrow
open Foundations

/-! ## The books of a list of transfers -/

/-- What an account has and has paid is what it had and was given. -/
def Flows (b b' : Bank Pubkey) (out : List Transfer) : Prop :=
  ∀ k, b'.balance k + (out.map (Transfer.debit k)).sum =
    b.balance k + (out.map (Transfer.credit k)).sum

section Flows
variable {b b₁ b' : Bank Pubkey} {source dest : Pubkey} {n : ℕ} {out out' : List Transfer}

theorem Flows.refl (b : Bank Pubkey) : Flows b b [] := fun _ => rfl

theorem Flows.append (h : Flows b b₁ out) (h' : Flows b₁ b' out') : Flows b b' (out ++ out') := by
  intro k
  have hk := h k
  have hk' := h' k
  simp only [List.map_append, List.sum_append]
  omega

theorem Flows.of_moved (h : b.Moved b' source dest n) (hle : n ≤ b.balance source) :
    Flows b b' [⟨source, dest, n⟩] := by
  intro k
  rw [h.balance]
  simp only [List.map_singleton, List.sum_singleton, Transfer.debit, Transfer.credit,
    Bank.movedBalance]
  by_cases hsd : source = dest
  · subst dest
    simp
  · by_cases hks : k = source
    · subst k
      simp [hsd, Ne.symm hsd, hle]
    · by_cases hkd : k = dest
      · subst k
        simp [hsd, hks]
      · simp [hsd, hks, hkd, Ne.symm hks, Ne.symm hkd]

theorem Flows.of_transferList (h : b.Moved b' source dest n) (hle : n ≤ b.balance source) :
    Flows b b' (transferList source dest n) := by
  unfold transferList
  split_ifs with hpos
  · exact .of_moved h hle
  · have hz : n = 0 := by omega
    subst hz
    intro k
    rw [h.balance, Bank.movedBalance]
    simp only [Nat.sub_zero, Nat.add_zero, ite_self]
    rfl

end Flows

/-! ## Changes -/

def EscrowTask.settled (approved refunded : ℕ) (t : EscrowTask) : EscrowTask :=
  { t with
    slotsApproved := t.slotsApproved + approved
    slotsRefunded := t.slotsRefunded + refunded }

structure Change where
  claim : Pubkey
  record : EscrowClaim
  task : Pubkey
  approved : ℕ
  refunded : ℕ
  transfers : List Transfer

structure Change.Applied (x : Change) (s s' : State) : Prop where
  config : s'.config = s.config
  tasks : ∀ U, s'.tasks.get U = if U = x.task then
    (s.tasks.get U).map (EscrowTask.settled x.approved x.refunded) else s.tasks.get U
  claims : s'.claims = s.claims.set x.claim x.record
  mints : s'.tokens.mints = s.tokens.mints
  holder : ∀ k, s'.tokens.holder k = s.tokens.holder k
  flows : Flows s.tokens s'.tokens x.transfers

section Changes
variable {s s' : State} {out : List Transfer} {c P : Pubkey} {cfg : EscrowConfig}
  {t : EscrowTask} {r r' : EscrowClaim}

theorem settled_comm (a b a' b' : ℕ) (t : EscrowTask) :
    (t.settled a b).settled a' b' = (t.settled a' b').settled a b := by
  simp only [EscrowTask.settled, Nat.add_right_comm]

/-- Writing a task record that counts one settlement more. -/
theorem tasks_of_set {T : Pubkey} {a b : ℕ} (ht : s.tasks.get T = some t)
    (htasks : s'.tasks = s.tasks.set T (t.settled a b)) (U : Pubkey) :
    s'.tasks.get U = if U = T then (s.tasks.get U).map (EscrowTask.settled a b)
      else s.tasks.get U := by
  rw [htasks, Store.get_set]
  by_cases hU : U = T
  · subst U
    rw [if_pos rfl, if_pos rfl, ht, Option.map_some]
  · rw [if_neg hU, if_neg hU]

theorem Advanced.applied (h : Advanced s s' out c r r') :
    Change.Applied ⟨c, r', r.task, 0, 0, []⟩ s s' := by
  obtain ⟨t, ht⟩ := h.task
  rw [h.post]
  refine ⟨rfl, fun U => ?_, rfl, rfl, fun _ => rfl, .refl _⟩
  have hsame : EscrowTask.settled 0 0 = id := rfl
  rw [hsame, Option.map_id, id, ite_self]

theorem Paid.applied {outcome : ClaimStatus} (hs : Sound s)
    (h : Paid s s' out c cfg t r outcome) :
    Change.Applied ⟨c, r.setStatus outcome, r.task, 1, 0, out⟩ s s' := by
  obtain ⟨b, hnet, hfee, hm₁, hm₂⟩ := h.moved hs
  refine ⟨h.config', tasks_of_set h.task h.tasks', h.claims', h.tokens'.mints, h.tokens'.holder, ?_⟩
  rw [h.transfers]
  exact (Flows.of_transferList hm₁ hnet).append (.of_transferList hm₂ hfee)

theorem Refunded.applied (h : Refunded s s' out c P cfg t r r') :
    Change.Applied ⟨c, r', r.task, 0, 1, out⟩ s s' := by
  refine ⟨h.config', tasks_of_set h.task h.tasks', h.claims', h.tokens'.mints, h.tokens'.holder, ?_⟩
  rw [h.transfers]
  exact .of_moved h.tokens' h.covered

end Changes

/-! ## Changes to different claims commute -/

theorem Change.Applied.commute {x y : Change} {s m n s' s'' : State} (hne : x.claim ≠ y.claim)
    (hx : x.Applied s m) (hy : y.Applied m s') (hy' : y.Applied s n) (hx' : x.Applied n s'') :
    s' = s'' := by
  apply State.ext
  · rw [hy.config, hx.config, hx'.config, hy'.config]
  · ext U : 1
    rw [hy.tasks, hx.tasks, hx'.tasks, hy'.tasks]
    by_cases hUx : U = x.task
    · by_cases hUy : U = y.task
      · simp only [if_pos hUx, if_pos hUy, Option.map_map]
        congr 1
        funext t
        exact settled_comm _ _ _ _ t
      · simp only [if_pos hUx, if_neg hUy]
    · simp only [if_neg hUx]
  · ext k : 1
    rw [hy.claims, hx.claims, hx'.claims, hy'.claims]
    simp only [Store.get_set]
    by_cases hkx : k = x.claim
    · rw [if_pos hkx, if_neg (hkx ▸ hne), if_pos hkx]
    · simp only [if_neg hkx]
  · apply Bank.ext_observers
    · rw [hy.mints, hx.mints, hx'.mints, hy'.mints]
    · intro k
      rw [hy.holder, hx.holder, hx'.holder, hy'.holder]
    · intro k
      have h₁ := hx.flows k
      have h₂ := hy.flows k
      have h₃ := hy'.flows k
      have h₄ := hx'.flows k
      omega

end ClustlyEscrow
