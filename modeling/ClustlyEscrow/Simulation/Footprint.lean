import ClustlyEscrow.Foundations.BankFootprint
import ClustlyEscrow.Program.Transaction
import ClustlyEscrow.Simulation.Donated

/-!
# The footprint of the instructions

Two states that agree at the accounts an instruction lists are followed through
its handler in lockstep. The constraints read listed accounts, the token calls
and the stores write writable ones, so each handler is local to its list.
-/
namespace ClustlyEscrow
open Foundations

/-- What a state holds at one address. -/
structure Cell where
  config : Option EscrowConfig
  task : Option EscrowTask
  claim : Option EscrowClaim
  token : Bool × Option (Pubkey × Pubkey) × ℕ

def State.cell (s : State) (k : Pubkey) : Cell where
  config := if k = .configPda then s.config else none
  task := s.tasks.get k
  claim := s.claims.get k
  token := s.tokens.cell k

theorem State.ext_cell {s t : State} (h : ∀ k, s.cell k = t.cell k) : s = t := by
  apply State.ext
  · have hconfig := congrArg Cell.config (h .configPda)
    simpa [State.cell] using hconfig
  · ext k : 1
    exact congrArg Cell.task (h k)
  · ext k : 1
    exact congrArg Cell.claim (h k)
  · exact Bank.ext_cell fun k => congrArg Cell.token (h k)

/-! ## Reading -/

section Reading
variable {s t : State} {A : Set Pubkey} {k mint owner : Pubkey}

theorem bank_of_agree (h : AgreeOn State.cell A s t) : AgreeOn Bank.cell A s.tokens t.tokens :=
  fun k hk => congrArg Cell.token (h k hk)

theorem config_of_agree (h : AgreeOn State.cell A s t) (hk : Pubkey.configPda ∈ A) :
    s.config = t.config := by
  have hconfig := congrArg Cell.config (h _ hk)
  simpa [State.cell] using hconfig

theorem task_of_agree (h : AgreeOn State.cell A s t) (hk : k ∈ A) :
    s.tasks.get k = t.tasks.get k :=
  congrArg Cell.task (h k hk)

theorem claim_of_agree (h : AgreeOn State.cell A s t) (hk : k ∈ A) :
    s.claims.get k = t.claims.get k :=
  congrArg Cell.claim (h k hk)

theorem loadConfig_local (h : AgreeOn State.cell A s t) (hk : k ∈ A) :
    Lockstep Eq (loadConfig s k) (loadConfig t k) := by
  refine .seq_eq (.refl _) fun _ hkey _ => ?_
  rw [config_of_agree h ((require_eq_ok _ _ _).mp hkey ▸ hk)]
  exact .refl _

theorem loadTask_local (h : AgreeOn State.cell A s t) (hk : k ∈ A) :
    Lockstep Eq (loadTask s k) (loadTask t k) := by
  unfold loadTask
  rw [task_of_agree h hk]
  exact .refl _

theorem loadClaim_local (h : AgreeOn State.cell A s t) (hk : k ∈ A) :
    Lockstep Eq (loadClaim s k) (loadClaim t k) := by
  unfold loadClaim
  rw [claim_of_agree h hk]
  exact .refl _

theorem loadMint_local (h : AgreeOn State.cell A s t) (hk : k ∈ A) :
    Lockstep Eq (loadMint s k) (loadMint t k) :=
  .require (Bank.mint_iff_of_agree (bank_of_agree h) hk)

theorem loadAta_local (h : AgreeOn State.cell A s t) (hk : k ∈ A) :
    Lockstep Eq (loadAta s k mint owner) (loadAta t k mint owner) := by
  unfold loadAta
  rw [Bank.holder_of_agree (bank_of_agree h) hk]
  exact .refl _

theorem loadToken_local (h : AgreeOn State.cell A s t) (hk : k ∈ A) :
    Lockstep Eq (loadToken s k mint owner) (loadToken t k mint owner) := by
  unfold loadToken
  rw [Bank.holder_of_agree (bank_of_agree h) hk]
  exact .refl _

theorem loadTokenOfMint_local (h : AgreeOn State.cell A s t) (hk : k ∈ A) :
    Lockstep Eq (loadTokenOfMint s k mint) (loadTokenOfMint t k mint) := by
  unfold loadTokenOfMint
  rw [Bank.holder_of_agree (bank_of_agree h) hk]
  exact .refl _

end Reading

/-! ## Writing -/

section Writing
variable {s t s' t' : State} {W : Set Pubkey} {k : Pubkey}

theorem wrote_tokens {b b' : Bank Pubkey} (h : Wrote State.cell W s t s' t')
    (hb : Wrote Bank.cell W s'.tokens t'.tokens b b') :
    Wrote State.cell W s t { s' with tokens := b } { t' with tokens := b' } := by
  apply h.trans
  constructor
  · intro k hk
    have hcell := h.same k hk
    simp only [State.cell, Cell.mk.injEq] at hcell ⊢
    exact ⟨hcell.1, hcell.2.1, hcell.2.2.1, hb.same k hk⟩
  · intro k hk
    simp only [State.cell, Cell.mk.injEq, true_and]
    exact hb.left k hk
  · intro k hk
    simp only [State.cell, Cell.mk.injEq, true_and]
    exact hb.right k hk

theorem wrote_config {config : Option EscrowConfig} (h : Wrote State.cell W s t s' t')
    (hk : Pubkey.configPda ∈ W) :
    Wrote State.cell W s t { s' with config } { t' with config } := by
  apply h.trans
  constructor
  · intro k hkW
    have hcell := h.same k hkW
    simp only [State.cell, Cell.mk.injEq] at hcell ⊢
    exact ⟨trivial, hcell.2⟩
  · intro k hkW
    have hne : k ≠ .configPda := fun heq => hkW (heq ▸ hk)
    simp [State.cell, hne]
  · intro k hkW
    have hne : k ≠ .configPda := fun heq => hkW (heq ▸ hk)
    simp [State.cell, hne]

/-- The tasks of both states are changed at one address, to the same. -/
theorem wrote_tasks {tasks tasks' : Store Pubkey EscrowTask} (h : Wrote State.cell W s t s' t')
    (hk : k ∈ W) (hsame : tasks.get k = tasks'.get k)
    (hleft : ∀ j, j ≠ k → tasks.get j = s'.tasks.get j)
    (hright : ∀ j, j ≠ k → tasks'.get j = t'.tasks.get j) :
    Wrote State.cell W s t { s' with tasks } { t' with tasks := tasks' } := by
  apply h.trans
  constructor
  · intro j hj
    have hcell := h.same j hj
    simp only [State.cell, Cell.mk.injEq] at hcell ⊢
    refine ⟨hcell.1, ?_, hcell.2.2⟩
    by_cases hjk : j = k
    · rw [hjk, hsame]
    · rw [hleft j hjk, hright j hjk]
      exact hcell.2.1
  · intro j hj
    have hne : j ≠ k := fun heq => hj (heq ▸ hk)
    simp [State.cell, hleft j hne]
  · intro j hj
    have hne : j ≠ k := fun heq => hj (heq ▸ hk)
    simp [State.cell, hright j hne]

theorem wrote_setTask {task : EscrowTask} (h : Wrote State.cell W s t s' t') (hk : k ∈ W) :
    Wrote State.cell W s t { s' with tasks := s'.tasks.set k task }
      { t' with tasks := t'.tasks.set k task } := by
  apply wrote_tasks h hk
  · simp
  · exact fun j hj => Store.get_set_of_ne _ hj _
  · exact fun j hj => Store.get_set_of_ne _ hj _

theorem wrote_eraseTask (h : Wrote State.cell W s t s' t') (hk : k ∈ W) :
    Wrote State.cell W s t { s' with tasks := s'.tasks.erase k }
      { t' with tasks := t'.tasks.erase k } := by
  apply wrote_tasks h hk
  · simp
  · exact fun j hj => Store.get_erase_of_ne _ hj
  · exact fun j hj => Store.get_erase_of_ne _ hj

theorem wrote_setClaim {claim : EscrowClaim} (h : Wrote State.cell W s t s' t') (hk : k ∈ W) :
    Wrote State.cell W s t { s' with claims := s'.claims.set k claim }
      { t' with claims := t'.claims.set k claim } := by
  apply h.trans
  constructor
  · intro j hj
    have hcell := h.same j hj
    simp only [State.cell, Cell.mk.injEq, Store.get_set] at hcell ⊢
    refine ⟨hcell.1, hcell.2.1, ?_, hcell.2.2.2⟩
    rw [hcell.2.2.1]
  · intro j hj
    have hne : j ≠ k := fun heq => hj (heq ▸ hk)
    simp [State.cell, Store.get_set_of_ne _ hne]
  · intro j hj
    have hne : j ≠ k := fun heq => hj (heq ▸ hk)
    simp [State.cell, Store.get_set_of_ne _ hne]

end Writing

/-! ## Token calls -/

/-- Two calls wrote the same at the accounts in `W` and made the same transfers. -/
structure CpiWrote (W : Set Pubkey) (b b' : Bank Pubkey) (c c' : Cpi) : Prop where
  tokens : Wrote Bank.cell W b b' c.tokens c'.tokens
  transfers : c.transfers = c'.transfers

section Calls
variable {W : Set Pubkey} {s t : State} {b b' : Bank Pubkey} {c c' : Cpi}
  {account authority source dest mint : Pubkey} {amount amount' : ℕ}

theorem cpi_local (h : AgreeOn State.cell W s t) : CpiWrote W s.tokens t.tokens s.cpi t.cpi :=
  ⟨.refl (bank_of_agree h), rfl⟩

/-- A token call after others. -/
theorem CpiWrote.trans {b₁ b₁' : Bank Pubkey} (h : CpiWrote W b b' c c')
    (hb : Wrote Bank.cell W c.tokens c'.tokens b₁ b₁') : Wrote Bank.cell W b b' b₁ b₁' :=
  h.tokens.trans hb

theorem CpiWrote.transfer (h : CpiWrote W b b' c c') (hs : source ∈ W) (hd : dest ∈ W) :
    Lockstep (CpiWrote W b b') (c.transfer authority source dest amount)
      (c'.transfer authority source dest amount) := by
  refine .seq (Cpi.lift_lockstep (Bank.transfer_footprint h.tokens.same hs hd)) ?_
  intro _ _ _ _ hb
  exact .ret ⟨h.trans hb, by rw [h.transfers]⟩

theorem CpiWrote.transferPos (h : CpiWrote W b b' c c') (hs : source ∈ W) (hd : dest ∈ W)
    (hamount : amount = amount') :
    Lockstep (CpiWrote W b b') (c.transferPos authority source dest amount)
      (c'.transferPos authority source dest amount') := by
  subst hamount
  unfold Cpi.transferPos
  split_ifs
  · exact h.transfer hs hd
  · exact .ok h

theorem CpiWrote.closeAccount (h : CpiWrote W b b' c c') (hk : account ∈ W) :
    Lockstep (CpiWrote W b b') (c.closeAccount authority account)
      (c'.closeAccount authority account) := by
  refine .seq (Cpi.lift_lockstep (Bank.closeAccount_footprint h.tokens.same hk)) ?_
  intro _ _ _ _ hb
  exact .ret ⟨h.trans hb, h.transfers⟩

theorem CpiWrote.initAta (h : CpiWrote W b b' c c') (hk : account ∈ W)
    (hmint : mint ∈ c.tokens.mints ↔ mint ∈ c'.tokens.mints) :
    Lockstep (CpiWrote W b b') (c.initAta account mint authority)
      (c'.initAta account mint authority) := by
  refine .seq_eq (.refl _) fun _ _ _ => .seq
    (Cpi.lift_lockstep (Bank.openAccount_footprint h.tokens.same hk hmint)) ?_
  intro _ _ _ _ hb
  exact .ret ⟨h.trans hb, h.transfers⟩

theorem CpiWrote.initAtaIfNeeded (h : CpiWrote W b b' c c') (hk : account ∈ W)
    (hmint : mint ∈ c.tokens.mints ↔ mint ∈ c'.tokens.mints) :
    Lockstep (CpiWrote W b b') (c.initAtaIfNeeded account mint authority)
      (c'.initAtaIfNeeded account mint authority) := by
  unfold Cpi.initAtaIfNeeded
  rw [Bank.holder_of_agree h.tokens.same hk]
  split
  · exact h.initAta hk hmint
  · exact .seq_eq (.refl _) fun _ _ _ => .seq_eq (.refl _) fun _ _ _ =>
      .seq_eq (.refl _) fun _ _ _ => .ret h

/-- The refund of a vault reads the balance it moves from the vault itself. -/
theorem sweepVault_local (h : AgreeOn State.cell W s t) (hv : source ∈ W) (hp : dest ∈ W) :
    Lockstep (CpiWrote W s.tokens t.tokens) (sweepVault s authority source dest)
      (sweepVault t authority source dest) := by
  have hbalance := Bank.balance_of_agree (bank_of_agree h) hv
  refine .seq ((cpi_local h).transferPos hv hp hbalance) ?_
  intro _ _ _ _ hcpi
  exact hcpi.closeAccount hv

end Calls

/-! ## Handlers -/

section Handlers
variable {s t : State} {A W : Set Pubkey} {now : I64}

theorem initializeConfig_local {a : InitializeConfig} {admin : Pubkey} {feeBps : U16}
    (hWA : W ⊆ A) (hA : a.usdcMint ∈ A) (hW : ∀ k ∈ [a.config, a.feeVault], k ∈ W) :
    Local State.cell A W fun s => initializeConfig s a admin feeBps := by
  intro s t h
  have hwrite := h.mono hWA
  refine .seq_eq (.refl _) fun _ _ _ => .seq_eq (loadMint_local h hA) fun _ _ _ =>
    .seq_eq (.refl _) fun _ hkey _ => ?_
  have hconfig : Pubkey.configPda ∈ W := (require_eq_ok _ _ _).mp hkey ▸ hW a.config (by simp)
  refine .seq_eq (.require (by rw [config_of_agree hwrite hconfig])) fun _ _ _ =>
    .seq ((cpi_local hwrite).initAta (hW _ (by simp))
      (Bank.mint_iff_of_agree (bank_of_agree h) hA)) fun _ _ _ _ hcpi =>
    .seq_eq (.refl _) fun _ _ _ => .ret ⟨?_, hcpi.transfers⟩
  exact wrote_tokens (wrote_config (.refl hwrite) hconfig) hcpi.tokens

theorem updateLoad_local (h : AgreeOn State.cell A s t) {a : UpdateConfig} (hA : a.config ∈ A) :
    Lockstep Eq (a.load s) (a.load t) :=
  .seq_eq (loadConfig_local h hA) fun _ _ _ => .seq_eq (.refl _) fun _ _ _ =>
  .seq_eq (.refl _) fun _ _ _ => .ret rfl

/-- An update rewrites the account at the address of the config. -/
theorem update_wrote (h : AgreeOn State.cell W s t) {a : UpdateConfig} {config : EscrowConfig}
    (hload : a.load s = .ok config) (hW : a.config ∈ W) (config' : Option EscrowConfig) :
    Wrote State.cell W s t { s with config := config' } { t with config := config' } :=
  wrote_config (.refl h) ((UpdateConfig.load_eq_ok.mp hload).1 ▸ hW)

theorem updateAdmin_local {a : UpdateAdmin} {newAdmin : Pubkey} (hWA : W ⊆ A)
    (hW : a.config ∈ W) : Local State.cell A W fun s => updateAdmin s a newAdmin :=
  fun _ _ h => .seq_eq (updateLoad_local h (hWA hW)) fun _ hload _ =>
    .ret ⟨update_wrote (h.mono hWA) hload hW _, rfl⟩

theorem updateFee_local {a : UpdateFee} {newFeeBps : U16} (hWA : W ⊆ A) (hW : a.config ∈ W) :
    Local State.cell A W fun s => updateFee s a newFeeBps :=
  fun _ _ h => .seq_eq (updateLoad_local h (hWA hW)) fun _ hload _ =>
    .seq_eq (.refl _) fun _ _ _ => .ret ⟨update_wrote (h.mono hWA) hload hW _, rfl⟩

theorem updateMint_local {a : UpdateMint} (hWA : W ⊆ A) (hA : a.newMint ∈ A)
    (hW : a.config ∈ W) : Local State.cell A W fun s => updateMint s a :=
  fun _ _ h => .seq_eq (updateLoad_local h (hWA hW)) fun _ hload _ =>
    .seq_eq (loadMint_local h hA) fun _ _ _ => .ret ⟨update_wrote (h.mono hWA) hload hW _, rfl⟩

theorem withdrawFees_local {a : WithdrawFees} {amount : U64} (hWA : W ⊆ A)
    (hA : ∀ k ∈ [a.config, a.usdcMint], k ∈ A)
    (hW : ∀ k ∈ [a.feeVault, a.destination], k ∈ W) :
    Local State.cell A W fun s => withdrawFees s a amount := by
  intro s t h
  have hwrite := h.mono hWA
  have hvault : a.feeVault ∈ W := hW _ (by simp)
  have hdest : a.destination ∈ W := hW _ (by simp)
  refine .seq_eq (.refl _) fun _ _ _ =>
    .seq_eq (loadConfig_local h (hA _ (by simp))) fun _ _ _ => .seq_eq (.refl _) fun _ _ _ =>
    .seq_eq (loadAta_local hwrite hvault) fun _ _ _ =>
    .seq_eq (loadTokenOfMint_local hwrite hdest) fun _ _ _ =>
    .seq_eq (loadMint_local h (hA _ (by simp))) fun _ _ _ =>
    .seq_eq (.require (by rw [Bank.balance_of_agree (bank_of_agree hwrite) hvault])) fun _ _ _ =>
    .seq ((cpi_local hwrite).transfer hvault hdest) fun _ _ _ _ hcpi => .ret ⟨?_, hcpi.transfers⟩
  exact wrote_tokens (.refl hwrite) hcpi.tokens

theorem initializeTask_local {a : InitializeTask} {taskId : BitVec 128} {bounty : U64}
    {maxSlots : U16} {claimDeadlineSecs : U32} {taskDeadlineTs : I64} (hWA : W ⊆ A)
    (hA : ∀ k ∈ [a.config, a.usdcMint], k ∈ A)
    (hW : ∀ k ∈ [a.task, a.taskVault, a.posterAta], k ∈ W) :
    Local State.cell A W fun s =>
      initializeTask s a taskId bounty maxSlots claimDeadlineSecs taskDeadlineTs := by
  intro s t h
  have hwrite := h.mono hWA
  have htask : a.task ∈ W := hW _ (by simp)
  have hvault : a.taskVault ∈ W := hW _ (by simp)
  have hposter : a.posterAta ∈ W := hW _ (by simp)
  have hmint : a.usdcMint ∈ A := hA _ (by simp)
  refine .seq_eq (.refl _) fun _ _ _ =>
    .seq_eq (loadConfig_local h (hA _ (by simp))) fun _ _ _ =>
    .seq_eq (loadMint_local h hmint) fun _ _ _ => .seq_eq (.refl _) fun _ _ _ =>
    .seq_eq (.refl _) fun _ _ _ =>
    .seq_eq (.require (by rw [task_of_agree hwrite htask])) fun _ _ _ =>
    .seq ((cpi_local hwrite).initAta hvault
      (Bank.mint_iff_of_agree (bank_of_agree h) hmint)) fun _ _ _ _ hcpi =>
    .seq_eq (loadToken_local hwrite hposter) fun _ _ _ => .seq_eq (.refl _) fun _ _ _ =>
    .seq_eq (.refl _) fun _ _ _ => .seq_eq (.refl _) fun _ _ _ => .seq_eq (.refl _) fun _ _ _ =>
    .seq (hcpi.transfer hposter hvault) fun _ _ _ _ hcpi => .ret ⟨?_, hcpi.transfers⟩
  exact wrote_tokens (wrote_setTask (.refl hwrite) htask) hcpi.tokens

theorem cancelBeforeEnroll_local {a : CancelBeforeEnroll} (hWA : W ⊆ A) (hA : a.config ∈ A)
    (hW : ∀ k ∈ [a.task, a.taskVault, a.posterAta], k ∈ W) :
    Local State.cell A W fun s => cancelBeforeEnroll s a := by
  intro s t h
  have hwrite := h.mono hWA
  have htask : a.task ∈ W := hW _ (by simp)
  have hvault : a.taskVault ∈ W := hW _ (by simp)
  have hposter : a.posterAta ∈ W := hW _ (by simp)
  refine .seq_eq (.refl _) fun _ _ _ => .seq_eq (loadConfig_local h hA) fun _ _ _ =>
    .seq_eq (loadTask_local hwrite htask) fun _ _ _ => .seq_eq (.refl _) fun _ _ _ =>
    .seq_eq (loadAta_local hwrite hvault) fun _ _ _ =>
    .seq_eq (loadToken_local hwrite hposter) fun _ _ _ => .seq_eq (.refl _) fun _ _ _ =>
    .seq_eq (.refl _) fun _ _ _ =>
    .seq (sweepVault_local hwrite hvault hposter) fun _ _ _ _ hcpi => .ret ⟨?_, hcpi.transfers⟩
  exact wrote_tokens (wrote_eraseTask (.refl hwrite) htask) hcpi.tokens

theorem closeLoad_local (h : AgreeOn State.cell A s t) {a : CloseTask}
    (hA : ∀ k ∈ [a.config, a.task, a.taskVault, a.posterAta], k ∈ A) :
    Lockstep Eq (a.load s) (a.load t) :=
  .seq_eq (.refl _) fun _ _ _ => .seq_eq (loadConfig_local h (hA _ (by simp))) fun _ _ _ =>
  .seq_eq (loadTask_local h (hA _ (by simp))) fun _ _ _ =>
  .seq_eq (loadAta_local h (hA _ (by simp))) fun _ _ _ =>
  .seq_eq (loadToken_local h (hA _ (by simp))) fun _ _ _ => .seq_eq (.refl _) fun _ _ _ => .ret rfl

/-- The tail that the two instructions on a `CloseTask` list share. -/
theorem closeTail_local (h : AgreeOn State.cell W s t) {a : CloseTask} {task : EscrowTask}
    (hW : ∀ k ∈ [a.task, a.taskVault, a.posterAta], k ∈ W) :
    Lockstep (Traced State.cell W s t)
      (do
        let cpi ← sweepVault s a.task a.taskVault a.posterAta
        return ({ s with tasks := s.tasks.set a.task task, tokens := cpi.tokens }, cpi.transfers))
      (do
        let cpi ← sweepVault t a.task a.taskVault a.posterAta
        return ({ t with tasks := t.tasks.set a.task task, tokens := cpi.tokens },
          cpi.transfers)) := by
  refine .seq (sweepVault_local h (hW _ (by simp)) (hW _ (by simp))) fun _ _ _ _ hcpi =>
    .ret ⟨?_, hcpi.transfers⟩
  exact wrote_tokens (wrote_setTask (.refl h) (hW _ (by simp))) hcpi.tokens

theorem closeTask_local {a : CloseTask} (hWA : W ⊆ A) (hA : a.config ∈ A)
    (hW : ∀ k ∈ [a.task, a.taskVault, a.posterAta], k ∈ W) :
    Local State.cell A W fun s => closeTask s now a := by
  intro s t h
  have hread : ∀ k ∈ [a.config, a.task, a.taskVault, a.posterAta], k ∈ A :=
    List.forall_mem_cons.mpr ⟨hA, fun k hk => hWA (hW k hk)⟩
  exact .seq_eq (closeLoad_local h hread) fun _ _ _ => .seq_eq (.refl _) fun _ _ _ =>
    .seq_eq (.refl _) fun _ _ _ => .seq_eq (.refl _) fun _ _ _ => closeTail_local (h.mono hWA) hW

theorem autoCancelTask_local {a : AutoCancelTask} (hWA : W ⊆ A) (hA : a.config ∈ A)
    (hW : ∀ k ∈ [a.task, a.taskVault, a.posterAta], k ∈ W) :
    Local State.cell A W fun s => autoCancelTask s now a := by
  intro s t h
  have hread : ∀ k ∈ [a.config, a.task, a.taskVault, a.posterAta], k ∈ A :=
    List.forall_mem_cons.mpr ⟨hA, fun k hk => hWA (hW k hk)⟩
  exact .seq_eq (closeLoad_local h hread) fun _ _ _ => .seq_eq (.refl _) fun _ _ _ =>
    .seq_eq (.refl _) fun _ _ _ => .seq_eq (.refl _) fun _ _ _ => closeTail_local (h.mono hWA) hW

theorem enroll_local {a : Enroll} {claimId : BitVec 128} (hWA : W ⊆ A)
    (hA : ∀ k ∈ [a.config, a.usdcMint], k ∈ A)
    (hW : ∀ k ∈ [a.task, a.claim, a.claimerAta], k ∈ W) :
    Local State.cell A W fun s => enroll s now a claimId := by
  intro s t h
  have hwrite := h.mono hWA
  have htask : a.task ∈ W := hW _ (by simp)
  have hclaim : a.claim ∈ W := hW _ (by simp)
  have hmint : a.usdcMint ∈ A := hA _ (by simp)
  refine .seq_eq (.refl _) fun _ _ _ =>
    .seq_eq (loadConfig_local h (hA _ (by simp))) fun _ _ _ =>
    .seq_eq (loadMint_local h hmint) fun _ _ _ =>
    .seq_eq (loadTask_local hwrite htask) fun _ _ _ => .seq_eq (.refl _) fun _ _ _ =>
    .seq_eq (.require (by rw [claim_of_agree hwrite hclaim])) fun _ _ _ =>
    .seq ((cpi_local hwrite).initAtaIfNeeded (hW _ (by simp))
      (Bank.mint_iff_of_agree (bank_of_agree h) hmint)) fun _ _ _ _ hcpi =>
    .seq_eq (.refl _) fun _ _ _ => .seq_eq (.refl _) fun _ _ _ => .seq_eq (.refl _) fun _ _ _ =>
    .seq_eq (.refl _) fun _ _ _ => .ret ⟨?_, hcpi.transfers⟩
  exact wrote_tokens (wrote_setClaim (wrote_setTask (.refl hwrite) htask) hclaim) hcpi.tokens

theorem claimerLoad_local (h : AgreeOn State.cell A s t) {a : ClaimerAccounts}
    (hA : ∀ k ∈ [a.task, a.claim], k ∈ A) : Lockstep Eq (a.load s) (a.load t) :=
  .seq_eq (.refl _) fun _ _ _ => .seq_eq (loadTask_local h (hA _ (by simp))) fun _ _ _ =>
  .seq_eq (loadClaim_local h (hA _ (by simp))) fun _ _ _ => .seq_eq (.refl _) fun _ _ _ =>
  .seq_eq (.refl _) fun _ _ _ => .ret rfl

theorem submit_local {a : Submit} {deliverableHash : BitVec 256} (hWA : W ⊆ A)
    (hA : a.task ∈ A) (hW : a.claim ∈ W) :
    Local State.cell A W fun s => submit s now a deliverableHash :=
  fun _ _ h => .seq_eq (claimerLoad_local h (by simp [hA, hWA hW])) fun _ _ _ =>
    .seq_eq (.refl _) fun _ _ _ => .seq_eq (.refl _) fun _ _ _ =>
    .ret ⟨wrote_setClaim (.refl (h.mono hWA)) hW, rfl⟩

theorem openDispute_local {a : OpenDispute} (hWA : W ⊆ A) (hA : a.task ∈ A) (hW : a.claim ∈ W) :
    Local State.cell A W fun s => openDispute s now a :=
  fun _ _ h => .seq_eq (claimerLoad_local h (by simp [hA, hWA hW])) fun _ _ _ =>
    .seq_eq (.refl _) fun _ _ _ => .seq_eq (.refl _) fun _ _ _ =>
    .ret ⟨wrote_setClaim (.refl (h.mono hWA)) hW, rfl⟩

/-! ### Settlements -/

/-- The writable accounts of a settlement. -/
def PayoutAccounts.written (a : PayoutAccounts) : List Pubkey :=
  [a.task, a.claim, a.taskVault, a.claimerAta, a.feeVault]

theorem payoutLoad_local (h : AgreeOn State.cell A s t) {a : PayoutAccounts}
    (hA : ∀ k ∈ a.config :: a.usdcMint :: a.written, k ∈ A) :
    Lockstep Eq (a.load s) (a.load t) :=
  .seq_eq (loadConfig_local h (hA _ (by simp))) fun _ _ _ =>
  .seq_eq (loadMint_local h (hA _ (by simp))) fun _ _ _ =>
  .seq_eq (loadTask_local h (hA _ (by simp [PayoutAccounts.written]))) fun _ _ _ =>
  .seq_eq (loadClaim_local h (hA _ (by simp [PayoutAccounts.written]))) fun _ _ _ =>
  .seq_eq (.refl _) fun _ _ _ =>
  .seq_eq (loadAta_local h (hA _ (by simp [PayoutAccounts.written]))) fun _ _ _ =>
  .seq_eq (loadAta_local h (hA _ (by simp [PayoutAccounts.written]))) fun _ _ _ =>
  .seq_eq (.refl _) fun _ _ _ =>
  .seq_eq (loadAta_local h (hA _ (by simp [PayoutAccounts.written]))) fun _ _ _ => .ret rfl

theorem payDeliverer_local (h : AgreeOn State.cell W s t) {a : PayoutAccounts}
    {config : EscrowConfig} {task : EscrowTask} {claim : EscrowClaim} {outcome : ClaimStatus}
    (hW : ∀ k ∈ a.written, k ∈ W) :
    Lockstep (Traced State.cell W s t) (payDeliverer s a config task claim outcome)
      (payDeliverer t a config task claim outcome) := by
  have htask : a.task ∈ W := hW _ (by simp [PayoutAccounts.written])
  have hclaim : a.claim ∈ W := hW _ (by simp [PayoutAccounts.written])
  have hvault : a.taskVault ∈ W := hW _ (by simp [PayoutAccounts.written])
  have hworker : a.claimerAta ∈ W := hW _ (by simp [PayoutAccounts.written])
  have hfees : a.feeVault ∈ W := hW _ (by simp [PayoutAccounts.written])
  refine .seq_eq (.refl _) fun split _ _ => ?_
  refine .seq (.seq ((cpi_local h).transferPos hvault hworker rfl) fun _ _ _ _ hnet =>
    hnet.transferPos hvault hfees rfl) fun _ _ _ _ hcpi => ?_
  refine .seq_eq (.refl _) fun _ _ _ => .ret ⟨?_, hcpi.transfers⟩
  exact wrote_tokens (wrote_setClaim (wrote_setTask (.refl h) htask) hclaim) hcpi.tokens

theorem refundPoster_local (h : AgreeOn State.cell W s t)
    {taskKey claimKey taskVault posterAta : Pubkey} {task : EscrowTask} {claim' : EscrowClaim}
    (hW : ∀ k ∈ [taskKey, claimKey, taskVault, posterAta], k ∈ W) :
    Lockstep (Traced State.cell W s t)
      (refundPoster s taskKey claimKey taskVault posterAta task claim')
      (refundPoster t taskKey claimKey taskVault posterAta task claim') := by
  have htask : taskKey ∈ W := hW _ (by simp)
  have hclaim : claimKey ∈ W := hW _ (by simp)
  refine .seq ((cpi_local h).transfer (hW _ (by simp)) (hW _ (by simp))) fun _ _ _ _ hcpi => ?_
  refine .seq_eq (.refl _) fun _ _ _ => .ret ⟨?_, hcpi.transfers⟩
  exact wrote_tokens (wrote_setClaim (wrote_setTask (.refl h) htask) hclaim) hcpi.tokens

theorem payoutRead {a : PayoutAccounts} (hWA : W ⊆ A)
    (hA : ∀ k ∈ [a.config, a.usdcMint], k ∈ A) (hW : ∀ k ∈ a.written, k ∈ W) :
    ∀ k ∈ a.config :: a.usdcMint :: a.written, k ∈ A := by
  simp only [List.forall_mem_cons] at hA ⊢
  exact ⟨hA.1, hA.2.1, fun k hk => hWA (hW k hk)⟩

theorem approveClaim_local {a : ApproveClaim} (hWA : W ⊆ A)
    (hA : ∀ k ∈ [a.config, a.usdcMint], k ∈ A) (hW : ∀ k ∈ a.written, k ∈ W) :
    Local State.cell A W fun s => approveClaim s a :=
  fun _ _ h => .seq_eq (.refl _) fun _ _ _ =>
    .seq_eq (payoutLoad_local h (payoutRead hWA hA hW)) fun _ _ _ =>
    .seq_eq (.refl _) fun _ _ _ => .seq_eq (.refl _) fun _ _ _ => .seq_eq (.refl _) fun _ _ _ =>
    .seq_eq (.refl _) fun _ _ _ => .seq_eq (.refl _) fun _ _ _ =>
    payDeliverer_local (h.mono hWA) hW

theorem autoApprove_local {a : AutoApprove} (hWA : W ⊆ A)
    (hA : ∀ k ∈ [a.config, a.usdcMint], k ∈ A) (hW : ∀ k ∈ a.written, k ∈ W) :
    Local State.cell A W fun s => autoApprove s now a :=
  fun _ _ h => .seq_eq (.refl _) fun _ _ _ =>
    .seq_eq (payoutLoad_local h (payoutRead hWA hA hW)) fun _ _ _ =>
    .seq_eq (.refl _) fun _ _ _ => .seq_eq (.refl _) fun _ _ _ => .seq_eq (.refl _) fun _ _ _ =>
    .seq_eq (.refl _) fun _ _ _ => .seq_eq (.refl _) fun _ _ _ =>
    .seq (payDeliverer_local (h.mono hWA) hW) fun _ _ _ _ hpaid =>
    .seq_eq (.refl _) fun _ _ _ => .ret hpaid

theorem autoResolveDispute_local {a : AutoResolveDispute} (hWA : W ⊆ A)
    (hA : ∀ k ∈ [a.config, a.usdcMint], k ∈ A) (hW : ∀ k ∈ a.written, k ∈ W) :
    Local State.cell A W fun s => autoResolveDispute s now a :=
  fun _ _ h => .seq_eq (.refl _) fun _ _ _ =>
    .seq_eq (payoutLoad_local h (payoutRead hWA hA hW)) fun _ _ _ =>
    .seq_eq (.refl _) fun _ _ _ => .seq_eq (.refl _) fun _ _ _ => .seq_eq (.refl _) fun _ _ _ =>
    .seq_eq (.refl _) fun _ _ _ =>
    .seq (payDeliverer_local (h.mono hWA) hW) fun _ _ _ _ hpaid =>
    .seq_eq (.refl _) fun _ _ _ => .ret hpaid

theorem resolveDispute_local {a : ResolveDispute} {favor : DisputeFavor} (hWA : W ⊆ A)
    (hA : ∀ k ∈ [a.config, a.usdcMint], k ∈ A) (hW : ∀ k ∈ a.written, k ∈ W)
    (hposter : a.posterAta ∈ W) : Local State.cell A W fun s => resolveDispute s a favor := by
  intro s t h
  have hrefund : ∀ k ∈ [a.task, a.claim, a.taskVault, a.posterAta], k ∈ W := by
    simp only [PayoutAccounts.written, List.forall_mem_cons] at hW ⊢
    exact ⟨hW.1, hW.2.1, hW.2.2.1, hposter, List.forall_mem_nil _⟩
  refine .seq_eq (.refl _) fun _ _ _ =>
    .seq_eq (payoutLoad_local h (payoutRead hWA hA hW)) fun _ _ _ =>
    .seq_eq (.refl _) fun _ _ _ => .seq_eq (loadToken_local h (hWA hposter)) fun _ _ _ =>
    .seq_eq (.refl _) fun _ _ _ => .seq_eq (.refl _) fun _ _ _ =>
    .seq_eq (.refl _) fun _ _ _ => ?_
  cases favor with
  | deliverer => exact payDeliverer_local (h.mono hWA) hW
  | poster => exact refundPoster_local (h.mono hWA) hrefund

theorem rejectClaim_local {a : RejectClaim} (hWA : W ⊆ A) (hA : a.config ∈ A)
    (hW : ∀ k ∈ [a.task, a.claim, a.taskVault, a.posterAta], k ∈ W) :
    Local State.cell A W fun s => rejectClaim s a := by
  intro s t h
  have hwrite := h.mono hWA
  refine .seq_eq (.refl _) fun _ _ _ => .seq_eq (loadConfig_local h hA) fun _ _ _ =>
    .seq_eq (loadTask_local hwrite (hW _ (by simp))) fun _ _ _ => .seq_eq (.refl _) fun _ _ _ =>
    .seq_eq (loadClaim_local hwrite (hW _ (by simp))) fun _ _ _ => .seq_eq (.refl _) fun _ _ _ =>
    .seq_eq (loadAta_local hwrite (hW _ (by simp))) fun _ _ _ =>
    .seq_eq (loadToken_local hwrite (hW _ (by simp))) fun _ _ _ => .seq_eq (.refl _) fun _ _ _ =>
    .seq_eq (.refl _) fun _ _ _ => .seq_eq (.refl _) fun _ _ _ =>
    .seq_eq (.refl _) fun _ _ _ => ?_
  split_ifs
  · exact refundPoster_local hwrite hW
  · exact .ret ⟨wrote_setClaim (.refl hwrite) (hW _ (by simp)), rfl⟩

/-- Every instruction is local to the accounts it lists, and writes the writable ones. -/
theorem process_local (ix : Instruction) (now : I64) :
    Local State.cell ix.listed ix.writable fun s => ix.process s now := by
  have hWA := ix.writable_subset
  cases ix with
  | initializeConfig a admin feeBps =>
    exact initializeConfig_local hWA (by simp [Instruction.accounts])
      (by simp [Instruction.accounts])
  | updateAdmin a newAdmin =>
    exact updateAdmin_local hWA (by simp [Instruction.accounts])
  | updateFee a newFeeBps =>
    exact updateFee_local hWA (by simp [Instruction.accounts])
  | updateMint a =>
    exact updateMint_local hWA (by simp [Instruction.accounts]) (by simp [Instruction.accounts])
  | initializeTask a taskId bounty maxSlots claimDeadlineSecs taskDeadlineTs =>
    exact initializeTask_local hWA (by simp [Instruction.accounts]) (by simp [Instruction.accounts])
  | cancelBeforeEnroll a =>
    exact cancelBeforeEnroll_local hWA (by simp [Instruction.accounts])
      (by simp [Instruction.accounts])
  | closeTask a =>
    exact closeTask_local hWA (by simp [Instruction.accounts]) (by simp [Instruction.accounts])
  | autoCancelTask a =>
    exact autoCancelTask_local hWA (by simp [Instruction.accounts]) (by simp [Instruction.accounts])
  | enroll a claimId =>
    exact enroll_local hWA (by simp [Instruction.accounts]) (by simp [Instruction.accounts])
  | submit a deliverableHash =>
    exact submit_local hWA (by simp [Instruction.accounts]) (by simp [Instruction.accounts])
  | approveClaim a =>
    exact approveClaim_local hWA (by simp [Instruction.accounts])
      (by simp [PayoutAccounts.written, Instruction.accounts])
  | rejectClaim a =>
    exact rejectClaim_local hWA (by simp [Instruction.accounts]) (by simp [Instruction.accounts])
  | autoApprove a =>
    exact autoApprove_local hWA (by simp [Instruction.accounts])
      (by simp [PayoutAccounts.written, Instruction.accounts])
  | openDispute a =>
    exact openDispute_local hWA (by simp [Instruction.accounts]) (by simp [Instruction.accounts])
  | resolveDispute a favor =>
    exact resolveDispute_local hWA (by simp [Instruction.accounts])
      (by simp [PayoutAccounts.written, Instruction.accounts]) (by simp [Instruction.accounts])
  | autoResolveDispute a =>
    exact autoResolveDispute_local hWA (by simp [Instruction.accounts])
      (by simp [PayoutAccounts.written, Instruction.accounts])
  | withdrawFees a amount =>
    exact withdrawFees_local hWA (by simp [Instruction.accounts]) (by simp [Instruction.accounts])

end Handlers

/-! ## Lamports -/

def Chain.cell (c : Chain) (k : Pubkey) : Cell × ℕ := (c.state.cell k, c.lamports k)

/-- The accounts that a rent operation takes from or gives to. -/
def RentOp.touched : RentOp → List Pubkey
  | .create payer account _ => [payer, account]
  | .close account receiver => [account, receiver]

section Lamports
variable {rent : Rent} {s t s' t' : State} {l l' : Coins Pubkey} {c d : Chain}
  {A W : Set Pubkey} {source : Pubkey} {amount : ℕ}

theorem state_of_agree (h : AgreeOn Chain.cell A c d) : AgreeOn State.cell A c.state d.state :=
  fun k hk => congrArg Prod.fst (h k hk)

theorem lamports_of_agree (h : AgreeOn Chain.cell A c d) :
    AgreeOn Coins.cell A c.lamports d.lamports :=
  fun k hk => congrArg Prod.snd (h k hk)

theorem wrote_chain (hs : Wrote State.cell W c.state d.state s' t')
    (hl : Wrote Coins.cell W c.lamports d.lamports l l') :
    Wrote Chain.cell W c d ⟨s', l⟩ ⟨t', l'⟩ :=
  ⟨fun k hk => Prod.ext (hs.same k hk) (hl.same k hk),
    fun k hk => Prod.ext (hs.left k hk) (hl.left k hk),
    fun k hk => Prod.ext (hs.right k hk) (hl.right k hk)⟩

theorem Chain.ext_cell (h : ∀ k, c.cell k = d.cell k) : c = d := by
  have hs : c.state = d.state := State.ext_cell fun k => congrArg Prod.fst (h k)
  have hl : c.lamports = d.lamports := funext fun k => congrArg Prod.snd (h k)
  cases c
  cases d
  exact congrArg₂ Chain.mk hs hl

theorem Chain.lift_lockstep {α : Type} {x y : Result α} {R : α → α → Prop}
    (h : Lockstep R x y) : Lockstep R (Chain.lift x) (Chain.lift y) := by
  cases h with
  | ok related => exact .ok related
  | error e e' => exact .error _ _

theorem payable_local (h : AgreeOn State.cell W s t) (hl : AgreeOn Coins.cell W l l')
    (hk : source ∈ W) :
    Lockstep Eq (payable s l source amount) (payable t l' source amount) := by
  have hplain : s.Plain source ↔ t.Plain source := by
    unfold State.Plain
    rw [Bank.holder_of_agree (bank_of_agree h) hk, Bank.mint_iff_of_agree (bank_of_agree h) hk]
  have hamount : l source = l' source := hl source hk
  exact .seq_eq (.refl _) fun _ _ _ => .seq_eq (.require hplain) fun _ _ _ =>
    .require (by rw [hamount])

theorem RentOp.process_local (h : AgreeOn State.cell W s t) (hl : AgreeOn Coins.cell W l l')
    {op : RentOp} (hW : ∀ k ∈ op.touched, k ∈ W) :
    Lockstep (Wrote Coins.cell W l l') (op.process rent s l) (op.process rent t l') := by
  cases op with
  | create payer account space =>
    have hpayer : payer ∈ W := hW _ (by simp [touched])
    have haccount : account ∈ W := hW _ (by simp [touched])
    have hheld : l account = l' account := hl account haccount
    simp only [RentOp.process, hheld]
    split_ifs
    · exact .ret (.refl hl)
    · exact .seq_eq (.refl _) fun _ _ _ => .seq_eq (payable_local h hl hpayer) fun _ _ _ =>
        .ret (Coins.move_footprint hl hpayer haccount)
  | close account receiver =>
    have haccount : account ∈ W := hW _ (by simp [touched])
    have hheld : l account = l' account := hl account haccount
    simp only [RentOp.process, hheld]
    exact .seq_eq (.refl _) fun _ _ _ =>
      .ret (Coins.move_footprint hl haccount (hW _ (by simp [touched])))

theorem runRentOps_local (h : AgreeOn State.cell W s t) (hl : AgreeOn Coins.cell W l l')
    {ops : List RentOp} (hW : ∀ op ∈ ops, ∀ k ∈ op.touched, k ∈ W) :
    Lockstep (Wrote Coins.cell W l l') (runRentOps rent s l ops) (runRentOps rent t l' ops) := by
  induction ops generalizing l l' with
  | nil => exact .ret (.refl hl)
  | cons op ops ih =>
    simp only [runRentOps, List.foldlM_cons]
    refine .seq (RentOp.process_local h hl (hW op List.mem_cons_self)) fun _ _ _ _ hop => ?_
    have hrest := ih hop.same fun o ho => hW o (List.mem_cons_of_mem _ ho)
    exact hrest.mono fun _ _ hw => hop.trans hw

variable {ix : Instruction}

theorem rentOps_of_agree (h : AgreeOn State.cell ix.listed s t) :
    ix.rentOps s = ix.rentOps t := by
  cases ix with
  | enroll a claimId =>
    have hata : s.tokens.holder a.claimerAta = t.tokens.holder a.claimerAta :=
      Bank.holder_of_agree (bank_of_agree h) (by simp [Instruction.accounts])
    simp only [Instruction.rentOps, hata]
  | _ => rfl

theorem rentOps_touched (ix : Instruction) (s : State) :
    ∀ op ∈ ix.rentOps s, ∀ k ∈ op.touched, k ∈ ix.writable := by
  cases ix with
  | enroll a claimId =>
    simp only [Instruction.rentOps]
    split_ifs
    all_goals simp [RentOp.touched, Instruction.accounts]
  | _ => simp [Instruction.rentOps, RentOp.touched, Instruction.accounts]

theorem processChain_local (rent : Rent) (now : I64) (ix : Instruction) :
    Local Chain.cell ix.listed ix.writable (ix.processChain rent now) := by
  intro c d h
  have hs := state_of_agree h
  have hwrite := h.mono ix.writable_subset
  refine .seq (Chain.lift_lockstep (process_local ix now _ _ hs)) fun p q _ _ htraced => ?_
  rw [rentOps_of_agree hs]
  refine .seq (runRentOps_local (state_of_agree hwrite) (lamports_of_agree hwrite)
    (rentOps_touched ix d.state)) fun _ _ _ _ hlamports => ?_
  exact .ret ⟨wrote_chain htraced.toWrote hlamports, htraced.output⟩

/-- A transaction is local to the accounts that its instructions list. -/
theorem Transaction.process_local (rent : Rent) (tx : Transaction) :
    Local Chain.cell tx.listed tx.writable (tx.process rent) := by
  refine Local.inTurn ?_ tx.writable_subset
  intro f hf
  obtain ⟨ix, hix, rfl⟩ := List.mem_map.mp hf
  exact (processChain_local rent tx.now ix).mono (Transaction.listed_of_mem hix)
    (Transaction.writable_of_mem hix) tx.writable_subset

end Lamports
end ClustlyEscrow
