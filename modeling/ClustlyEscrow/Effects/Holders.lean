import ClustlyEscrow.Effects.Frame

/-!
# Which token accounts stay

No instruction takes a token account from its owner; only the end of a task
closes its vault. Outside the program an account is closed or handed over by
its owner alone.
-/
namespace ClustlyEscrow
open Foundations

/-- The token account that an outside operation closes or hands over. -/
def TokenOp.disposes? : TokenOp → Option Pubkey
  | .closeAccount _ account => some account
  | .setOwner _ account _ => some account
  | _ => none

def Label.disposes? : Label → Option Pubkey
  | .instr _ _ => none
  | .token op => op.disposes?

/-- Somebody outside the program creates an associated account of address `T`. -/
def Label.createsAtaOf (T : Pubkey) : Label → Bool
  | .token (.createAta owner _) => decide (owner = T)
  | _ => false

section Kept
variable {s s' : State} {out : List Transfer} {l : Label} {k o m : Pubkey}

theorem update_kept {f : Pubkey → Option (Pubkey × Pubkey)} {j : Pubkey}
    (x : Option (Pubkey × Pubkey)) (hk : f k = some (o, m)) (hj : k ≠ j) :
    Function.update f j x k = some (o, m) := by
  rw [Function.update_of_ne hj, hk]

theorem TokenOp.holder_kept {b b' : Bank Pubkey} {op : TokenOp} (h : op.process b = .ok b')
    (hk : b.holder k = some (o, m)) (hkeep : op.disposes? ≠ some k) :
    b'.holder k = some (o, m) := by
  have spared {j : Pubkey} (hj : op.disposes? = some j) : k ≠ j := by
    rintro rfl
    exact hkeep hj
  cases TokenOp.process_eq_ok.mp h with
  | createMint _ call => exact ((Bank.createMint_ok call).holder k).trans hk
  | createAccount _ call | createAta call => exact (opened_of_ne call hk).1
  | transfer _ call =>
    obtain ⟨_, _, _, _, _, hmoved⟩ := Bank.transfer_moved call
    exact (hmoved.holder k).trans hk
  | mintTo call => exact ((Bank.mintTo_ok call).holder k).trans hk
  | closeAccount _ call =>
    obtain ⟨_, _, hobs⟩ := Bank.closeAccount_eq_ok.mp call
    rw [hobs.holder]
    exact update_kept none hk (spared rfl)
  | setOwner _ call =>
    obtain ⟨_, _, hobs⟩ := Bank.setOwner_ok call
    rw [hobs.holder]
    exact update_kept _ hk (spared rfl)

theorem token_eq_ok {op : TokenOp} :
    exec s (.token op) = .ok (s', out) ↔
      ∃ b, op.process s.tokens = .ok b ∧ s' = { s with tokens := b } ∧ out = [] := by
  simp only [exec, seq_eq_ok, return_eq_ok, Prod.mk.injEq]
  constructor
  · rintro ⟨b, hb, rfl, rfl⟩
    exact ⟨b, hb, rfl, rfl⟩
  · rintro ⟨b, hb, rfl, rfl⟩
    exact ⟨b, hb, rfl, rfl⟩

/-- The only steps that wind a task up are the three that end it. -/
theorem Move.ended_of_ends (h : Move s s' out l) {T : Pubkey} (hl : l.ends? = some T) :
    ∃ P cfg t tasks', EndGround s t T l tasks' ∧ Ended s s' out T P cfg t tasks' := by
  cases h with
  | configCreated | withdrawn | funded | enrolled | outside => cases hl
  | reconfigured _ _ _ hg _ => cases hg <;> cases hl
  | advanced _ _ _ hg _ => cases hg <;> cases hl
  | paid _ _ hg _ => cases hg <;> cases hl
  | refunded _ _ hg _ => cases hg <;> cases hl
  | ended htask _ hg he =>
    rw [hg.ends_eq, htask, Option.some.injEq] at hl
    subst hl
    exact ⟨_, _, _, _, hg, he⟩

theorem Move.ends_ne_of_canSign (hs : Sound s) (hmove : Move s s' out l)
    (ho : o.canSign = true) : l.ends? ≠ some o := by
  intro hl
  obtain ⟨_, _, t, _, _, he⟩ := hmove.ended_of_ends hl
  exact ne_of_canSign ho (hs.task _ t he.task).canSign rfl

theorem Move.ends_ne_config (hs : Sound s) (hmove : Move s s' out l) :
    l.ends? ≠ some .configPda := by
  intro hl
  obtain ⟨_, _, t, _, _, he⟩ := hmove.ended_of_ends hl
  exact (hs.task _ t he.task).ne_config rfl

/-- An account stays with its owner unless the step ends the task that owns it
or is the outside operation by which a signer gives it away. -/
theorem holder_kept (hs : Sound s) (hstep : Accepts exec s l out s')
    (hk : s.tokens.holder k = some (o, m)) (hends : l.ends? ≠ some o)
    (hkeep : o.canSign = true → l.disposes? ≠ some k) : s'.tokens.holder k = some (o, m) := by
  cases move_of_exec hs hstep with
  | configCreated he => exact (opened_of_ne he.tokens' hk).1
  | reconfigured _ _ _ _ he =>
    rw [he.post]
    exact hk
  | withdrawn he => exact (he.tokens'.holder k).trans hk
  | funded he =>
    rw [he.tokens'.holder]
    exact update_kept _ hk (ne_of_fresh hk he.vault_fresh)
  | ended htask _ hg he =>
    rw [hg.ends_eq, htask] at hends
    rw [he.tokens'.holder]
    exact update_kept _ hk (ne_of_owner hk he.vault fun heq => hends (congrArg some heq.symm))
  | enrolled he => exact (he.tokens'.kept hk).1
  | advanced _ _ _ _ he =>
    rw [he.post]
    exact hk
  | paid _ _ _ he => exact (he.tokens'.holder k).trans hk
  | refunded _ _ _ he => exact (he.tokens'.holder k).trans hk
  | outside he hpost =>
    cases ho : o.canSign with
    | false =>
      rw [hpost]
      exact (he.kept k o m ho hk).1
    | true =>
      obtain ⟨b, hb, hpost', _⟩ := token_eq_ok.mp hstep
      rw [hpost']
      exact TokenOp.holder_kept hb hk (hkeep ho)

end Kept

/-! ## Accounts that are not there -/

section Absent
variable {s s' : State} {out : List Transfer} {l : Label} {T m : Pubkey}

theorem update_none {f : Pubkey → Option (Pubkey × Pubkey)} {j k : Pubkey}
    (x : Option (Pubkey × Pubkey)) (hk : f k = none) (hj : k ≠ j) :
    Function.update f j x k = none := by
  rw [Function.update_of_ne hj, hk]

/-- Opening the account of somebody else. -/
theorem opened_elsewhere {b b' : Bank Pubkey} {j k owner mint : Pubkey}
    (h : b.openAccount j owner mint = .ok b') (hk : b.holder k = none) (hj : k ≠ j) :
    b'.holder k = none := by
  obtain ⟨_, _, _, hobs⟩ := Bank.openAccount_eq_ok.mp h
  exact (hobs.holder k).trans (update_none _ hk hj)

theorem TokenOp.holder_absent {b b' : Bank Pubkey} {op : TokenOp} (h : op.process b = .ok b')
    (hk : b.holder (.ata T m) = none) (hl : (Label.token op).createsAtaOf T = false) :
    b'.holder (.ata T m) = none := by
  cases TokenOp.process_eq_ok.mp h with
  | createMint _ call => exact ((Bank.createMint_ok call).holder _).trans hk
  | createAccount signs call => exact opened_elsewhere call hk (ne_of_canSign signs rfl).symm
  | createAta call =>
    apply opened_elsewhere call hk
    intro heq
    exact of_decide_eq_false hl (Pubkey.ata.inj heq).1.symm
  | transfer _ call =>
    obtain ⟨_, _, _, _, _, hmoved⟩ := Bank.transfer_moved call
    exact (hmoved.holder _).trans hk
  | mintTo call => exact ((Bank.mintTo_ok call).holder _).trans hk
  | closeAccount _ call =>
    obtain ⟨⟨_, hold⟩, _, hobs⟩ := Bank.closeAccount_eq_ok.mp call
    exact (hobs.holder _).trans (update_none _ hk (ne_of_fresh hold hk).symm)
  | setOwner _ call =>
    obtain ⟨_, hold, hobs⟩ := Bank.setOwner_ok call
    exact (hobs.holder _).trans (update_none _ hk (ne_of_fresh hold hk).symm)

/-- An associated account of a program address other than the config appears
only by the funding of a task or by a call from outside. -/
theorem holder_absent (hs : Sound s) (hstep : Accepts exec s l out s')
    (hT : T.canSign = false) (hcfg : T ≠ .configPda) (hl : l.createsAtaOf T = false)
    (hfund : l.task? = some T → ∃ t, s.tasks.get T = some t)
    (hk : s.tokens.holder (.ata T m) = none) : s'.tokens.holder (.ata T m) = none := by
  have foreign {o n : Pubkey} (ho : T ≠ o) : Pubkey.ata T m ≠ .ata o n :=
    fun heq => ho (Pubkey.ata.inj heq).1
  cases move_of_exec hs hstep with
  | configCreated he => exact opened_elsewhere he.tokens' hk (foreign hcfg)
  | reconfigured _ _ _ _ he =>
    rw [he.post]
    exact hk
  | withdrawn he => exact (he.tokens'.holder _).trans hk
  | funded he =>
    rw [he.tokens'.holder, he.vault_key]
    apply update_none _ hk (foreign _)
    rintro rfl
    obtain ⟨t, ht⟩ := hfund rfl
    rw [he.fresh] at ht
    cases ht
  | ended _ _ _ he =>
    rw [he.tokens'.holder]
    exact update_none _ hk (ne_of_fresh he.vault hk).symm
  | enrolled he =>
    rcases he.tokens' with ⟨_, hb⟩ | hopen
    · rw [hb]
      exact hk
    · exact opened_elsewhere hopen hk (foreign (ne_of_canSign he.claimer_signs hT).symm)
  | advanced _ _ _ _ he =>
    rw [he.post]
    exact hk
  | paid _ _ _ he => exact (he.tokens'.holder _).trans hk
  | refunded _ _ _ he => exact (he.tokens'.holder _).trans hk
  | outside _ hpost =>
    obtain ⟨b, hb, hpost', _⟩ := token_eq_ok.mp hstep
    rw [hpost']
    exact TokenOp.holder_absent hb hk hl

end Absent
end ClustlyEscrow
