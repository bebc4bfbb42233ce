import ClustlyEscrow.Effects.Settle

/-!
# What the config instructions and the outside operations do

The config is created once and then changed one field at a time by its admin.
An operation outside the program can only add to an account whose owner has no
private key.
-/
namespace ClustlyEscrow
open Foundations

section Instructions
variable {s s' : State} {out : List Transfer}

structure ConfigCreated (s s' : State) (out : List Transfer) (cfg : EscrowConfig) : Prop where
  fresh : s.config = none
  mint_mem : cfg.usdcMint ∈ s.tokens.mints
  fee_le : cfg.feeBps ≤ feeBpsCap
  config' : s'.config = some cfg
  tasks' : s'.tasks = s.tasks
  claims' : s'.claims = s.claims
  tokens' : s.tokens.openAccount (.ata .configPda cfg.usdcMint) .configPda cfg.usdcMint =
    .ok s'.tokens
  transfers : out = []

theorem initializeConfig_eq_ok {a : InitializeConfig} {admin : Pubkey} {feeBps : U16} :
    initializeConfig s a admin feeBps = .ok (s', out) ↔
      a.payer.canSign = true ∧ a.config = .configPda ∧
        a.feeVault = .ata .configPda a.usdcMint ∧
        ConfigCreated s s' out ⟨admin, a.usdcMint, feeBps⟩ := by
  simp only [initializeConfig, seq_eq_ok, signer_eq_ok, loadMint_eq_ok, require_eq_ok,
    Cpi.initAta_eq_ok, return_eq_ok, Prod.mk.injEq]
  constructor
  · rintro ⟨_, h1, _, h2, _, h3, _, h4, cpi, ⟨h5, hopen, hl⟩, _, h6, rfl, rfl⟩
    rw [h3] at h5 hopen
    rw [h5] at hopen
    exact ⟨h1, h3, h5, ⟨h4, h2, h6, rfl, rfl, rfl, hopen, hl⟩⟩
  · rintro ⟨h1, h3, h5, h⟩
    refine ⟨(), h1, (), h.mint_mem, (), h3, (), h.fresh, ⟨s'.tokens, out⟩,
      ⟨by rw [h5, h3], by rw [h5, h3]; exact h.tokens', h.transfers⟩, (), h.fee_le, ?_, rfl⟩
    exact State.ext h.config'.symm h.tasks'.symm h.claims'.symm rfl

/-- The config changes under the signature of its admin, and nothing else does. -/
structure Reconfigured (s s' : State) (out : List Transfer) (signedBy : Pubkey)
    (cfg cfg' : EscrowConfig) : Prop where
  config : s.config = some cfg
  admin : cfg.admin = signedBy
  signs : signedBy.canSign = true
  post : s' = { s with config := some cfg' }
  transfers : out = []

theorem UpdateConfig.load_eq_ok {a : UpdateConfig} {cfg : EscrowConfig} :
    a.load s = .ok cfg ↔
      a.config = .configPda ∧ s.config = some cfg ∧ cfg.admin = a.admin ∧
        a.admin.canSign = true := by
  simp only [UpdateConfig.load, seq_eq_ok, loadConfig_eq_ok, require_eq_ok, signer_eq_ok,
    return_eq_ok]
  constructor
  · rintro ⟨cfg, ⟨h1, h2⟩, _, h3, _, h4, rfl⟩
    exact ⟨h1, h2, h3, h4⟩
  · rintro ⟨h1, h2, h3, h4⟩
    exact ⟨cfg, ⟨h1, h2⟩, (), h3, (), h4, rfl⟩

theorem updateAdmin_eq_ok {a : UpdateAdmin} {newAdmin : Pubkey} :
    updateAdmin s a newAdmin = .ok (s', out) ↔ ∃ cfg, a.config = .configPda ∧
      Reconfigured s s' out a.admin cfg { cfg with admin := newAdmin } := by
  simp only [updateAdmin, seq_eq_ok, UpdateConfig.load_eq_ok, return_eq_ok, Prod.mk.injEq]
  constructor
  · rintro ⟨cfg, ⟨h1, h2, h3, h4⟩, rfl, rfl⟩
    exact ⟨cfg, h1, ⟨h2, h3, h4, rfl, rfl⟩⟩
  · rintro ⟨cfg, h1, h⟩
    exact ⟨cfg, ⟨h1, h.config, h.admin, h.signs⟩, h.post.symm, h.transfers.symm⟩

theorem updateFee_eq_ok {a : UpdateFee} {newFeeBps : U16} :
    updateFee s a newFeeBps = .ok (s', out) ↔ ∃ cfg, a.config = .configPda ∧
      newFeeBps.val ≤ feeBpsCap ∧
      Reconfigured s s' out a.admin cfg { cfg with feeBps := newFeeBps } := by
  simp only [updateFee, seq_eq_ok, UpdateConfig.load_eq_ok, require_eq_ok, return_eq_ok,
    Prod.mk.injEq]
  constructor
  · rintro ⟨cfg, ⟨h1, h2, h3, h4⟩, _, h5, rfl, rfl⟩
    exact ⟨cfg, h1, h5, ⟨h2, h3, h4, rfl, rfl⟩⟩
  · rintro ⟨cfg, h1, h5, h⟩
    exact ⟨cfg, ⟨h1, h.config, h.admin, h.signs⟩, (), h5, h.post.symm, h.transfers.symm⟩

theorem updateMint_eq_ok {a : UpdateMint} :
    updateMint s a = .ok (s', out) ↔ ∃ cfg, a.config = .configPda ∧
      a.newMint ∈ s.tokens.mints ∧
      Reconfigured s s' out a.admin cfg { cfg with usdcMint := a.newMint } := by
  simp only [updateMint, seq_eq_ok, UpdateConfig.load_eq_ok, loadMint_eq_ok, return_eq_ok,
    Prod.mk.injEq]
  constructor
  · rintro ⟨cfg, ⟨h1, h2, h3, h4⟩, _, h5, rfl, rfl⟩
    exact ⟨cfg, h1, h5, ⟨h2, h3, h4, rfl, rfl⟩⟩
  · rintro ⟨cfg, h1, h5, h⟩
    exact ⟨cfg, ⟨h1, h.config, h.admin, h.signs⟩, (), h5, h.post.symm, h.transfers.symm⟩

/-! ## The fee withdrawal -/

structure Withdrawn (s s' : State) (out : List Transfer) (a : WithdrawFees) (cfg : EscrowConfig)
    (amount : ℕ) : Prop where
  config : s.config = some cfg
  admin : cfg.admin = a.admin
  signs : a.admin.canSign = true
  feeVault : s.tokens.holder (.ata .configPda cfg.usdcMint) = some (.configPda, cfg.usdcMint)
  destination : ∃ o, s.tokens.holder a.destination = some (o, cfg.usdcMint)
  covered : amount ≤ s.tokens.balance (.ata .configPda cfg.usdcMint)
  config' : s'.config = s.config
  tasks' : s'.tasks = s.tasks
  claims' : s'.claims = s.claims
  tokens' : s.tokens.Moved s'.tokens (.ata .configPda cfg.usdcMint) a.destination amount
  transfers : out = [⟨.ata .configPda cfg.usdcMint, a.destination, amount⟩]

theorem withdrawFees_eq_ok (hs : Sound s) {a : WithdrawFees} {amount : U64} :
    withdrawFees s a amount = .ok (s', out) ↔ ∃ cfg, a.config = .configPda ∧
      a.feeVault = .ata .configPda cfg.usdcMint ∧ a.usdcMint ∈ s.tokens.mints ∧
      Withdrawn s s' out a cfg amount := by
  simp only [withdrawFees, seq_eq_ok, signer_eq_ok, loadConfig_eq_ok, require_eq_ok,
    loadAta_eq_ok, loadTokenOfMint_eq_ok, loadMint_eq_ok, Cpi.transfer_eq_ok, return_eq_ok,
    Prod.mk.injEq]
  constructor
  · rintro ⟨_, h1, cfg, ⟨h2, h3⟩, _, h4, _, ⟨h5, m, h6⟩, _, h7, _, h8, _, h9, cpi, ⟨hmove, hl⟩,
      rfl, rfl⟩
    rw [h2] at h5 h6
    rw [h5] at h6 h9 hmove hl
    have hm := hs.ata_mint _ _ _ _ h6
    obtain ⟨_, _, _, _, _, hmoved⟩ := Bank.transfer_moved hmove
    exact ⟨cfg, h2, h5, h8, ⟨h3, h4, h1, by rw [h6, hm], h7, h9, rfl, rfl, rfl, hmoved, hl⟩⟩
  · rintro ⟨cfg, h2, h5, h8, h⟩
    obtain ⟨o, ho⟩ := h.destination
    refine ⟨(), h.signs, cfg, ⟨h2, h.config⟩, (), h.admin, (), ⟨by rw [h5, h2], cfg.usdcMint,
      by rw [h5, h2]; exact h.feeVault⟩, (), h.destination, (), h8, (), by rw [h5]; exact h.covered,
      ⟨s'.tokens, out⟩, ⟨?_, by rw [h5]; exact h.transfers⟩, ?_, rfl⟩
    · rw [h2, h5]
      exact Bank.transfer_eq_ok.mpr ⟨_, _, h.feeVault, ho, h.covered, h.tokens'⟩
    · exact State.ext h.config'.symm h.tasks'.symm h.claims'.symm rfl

end Instructions

/-! ## Outside operations -/

/-- What an outside operation adds to an account. -/
def TokenOp.credit (k : Pubkey) : TokenOp → ℕ
  | .transfer _ source dest amount => if dest = k ∧ source ≠ k then amount else 0
  | .mintTo dest amount => if dest = k then amount else 0
  | _ => 0

/-- The call an outside operation comes down to, with the signature it asks for. -/
inductive TokenOp.Calls (b b' : Bank Pubkey) : TokenOp → Prop
  | createMint {mint : Pubkey} (signs : mint.canSign = true)
      (call : b.createMint mint = .ok b') : Calls b b' (.createMint mint)
  | createAccount {account owner mint : Pubkey} (signs : account.canSign = true)
      (call : b.openAccount account owner mint = .ok b') :
      Calls b b' (.createAccount account owner mint)
  | createAta {owner mint : Pubkey}
      (call : b.openAccount (.ata owner mint) owner mint = .ok b') :
      Calls b b' (.createAta owner mint)
  | transfer {authority source dest : Pubkey} {amount : U64} (signs : authority.canSign = true)
      (call : b.transfer authority source dest amount = .ok b') :
      Calls b b' (.transfer authority source dest amount)
  | mintTo {dest : Pubkey} {amount : U64} (call : b.mintTo dest amount = .ok b') :
      Calls b b' (.mintTo dest amount)
  | closeAccount {authority account : Pubkey} (signs : authority.canSign = true)
      (call : b.closeAccount authority account = .ok b') :
      Calls b b' (.closeAccount authority account)
  | setOwner {authority account newOwner : Pubkey} (signs : authority.canSign = true)
      (call : b.setOwner authority account newOwner = .ok b') :
      Calls b b' (.setOwner authority account newOwner)

theorem TokenOp.process_eq_ok {b b' : Bank Pubkey} {op : TokenOp} :
    op.process b = .ok b' ↔ TokenOp.Calls b b' op := by
  constructor
  · intro h
    cases op with
    | createAta | mintTo =>
      simp only [TokenOp.process, Cpi.lift_eq_ok] at h
      constructor
      exact h
    | _ =>
      simp only [TokenOp.process, seq_eq_ok, signer_eq_ok, Cpi.lift_eq_ok] at h
      obtain ⟨_, hsign, h⟩ := h
      constructor
      · exact hsign
      · exact h
  · intro h
    cases h with
    | createAta call | mintTo call => exact Cpi.lift_eq_ok.mpr call
    | createMint signs call | createAccount signs call | transfer signs call
    | closeAccount signs call | setOwner signs call =>
      simp only [TokenOp.process, seq_eq_ok, signer_eq_ok, Cpi.lift_eq_ok]
      exact ⟨(), signs, call⟩

structure Outside (b b' : Bank Pubkey) (op : TokenOp) : Prop where
  mints_sub : b.mints ⊆ b'.mints
  mint_new : ∀ m ∈ b'.mints, m ∈ b.mints ∨ m.canSign = true
  /-- An account whose owner can not sign keeps its owner and only gains. -/
  kept : ∀ k o m, o.canSign = false → b.holder k = some (o, m) →
    b'.holder k = some (o, m) ∧ b'.balance k = b.balance k + op.credit k
  /-- An account that is not new keeps its mint. -/
  held : ∀ k o' m', b'.holder k = some (o', m') → (∃ o, b.holder k = some (o, m')) ∨
    b.holder k = none ∧ (k.canSign = true ∨ k = .ata o' m')

/-- Opening an account is an outside step that credits nothing. -/
theorem Outside.of_open {b b' : Bank Pubkey} {op : TokenOp} {k owner mint : Pubkey}
    (hk : k.canSign = true ∨ k = .ata owner mint) (hz : ∀ j, op.credit j = 0)
    (h : b.openAccount k owner mint = .ok b') : Outside b b' op := by
  obtain ⟨_, _, hnone, hobs⟩ := Bank.openAccount_eq_ok.mp h
  refine ⟨hobs.mints.ge, fun m hm => .inl (hobs.mints ▸ hm), fun j o m _ hj => ?_,
    fun j o' m' hj => ?_⟩
  · rw [hobs.holder, Function.update_of_ne (ne_of_fresh hj hnone), hobs.balance, hz j]
    exact ⟨hj, rfl⟩
  · rw [hobs.holder] at hj
    by_cases hjk : j = k
    · subst j
      rw [Function.update_self] at hj
      cases hj
      exact .inr ⟨hnone, hk⟩
    · rw [Function.update_of_ne hjk] at hj
      exact .inl ⟨o', hj⟩

/-- An operation that opens nothing and keeps the mint of every account. -/
theorem Outside.of_kept {b b' : Bank Pubkey} {op : TokenOp} (hmints : b'.mints = b.mints)
    (kept : ∀ k o m, o.canSign = false → b.holder k = some (o, m) →
      b'.holder k = some (o, m) ∧ b'.balance k = b.balance k + op.credit k)
    (held : ∀ k o' m', b'.holder k = some (o', m') → ∃ o, b.holder k = some (o, m')) :
    Outside b b' op :=
  ⟨hmints.ge, fun _ hm => .inl (hmints ▸ hm), kept, fun k o' m' hk => .inl (held k o' m' hk)⟩

theorem Outside.of_transfer {b b' : Bank Pubkey} {authority source dest : Pubkey} {amount : U64}
    (hsign : authority.canSign = true) (h : b.transfer authority source dest amount = .ok b') :
    Outside b b' (.transfer authority source dest amount) := by
  obtain ⟨m, o, hsrc, _, hle, hmoved⟩ := Bank.transfer_moved h
  refine .of_kept hmoved.mints (fun k p n hp hk => ⟨(hmoved.holder k).trans hk, ?_⟩)
    (fun k o' m' hk => ⟨o', (hmoved.holder k) ▸ hk⟩)
  have hks : k ≠ source := ne_of_owner hk hsrc (ne_of_canSign hsign hp).symm
  rw [hmoved.balance]
  simp only [Bank.movedBalance, TokenOp.credit, if_neg hks]
  by_cases hkd : k = dest
  · subst k
    simp [Ne.symm hks]
  · simp [hkd, Ne.symm hkd]

theorem Outside.of_mintTo {b b' : Bank Pubkey} {dest : Pubkey} {amount : U64}
    (h : b.mintTo dest amount = .ok b') : Outside b b' (.mintTo dest amount) := by
  have hobs := Bank.mintTo_ok h
  apply Outside.of_kept hobs.mints
  · intro k o m _ hk
    refine ⟨(hobs.holder k).trans hk, ?_⟩
    rw [hobs.balance]
    by_cases hkd : k = dest
    · subst k
      simp [TokenOp.credit]
    · simp [TokenOp.credit, Function.update_of_ne hkd, Ne.symm hkd]
  · intro k o' m' hk
    exact ⟨o', (hobs.holder k) ▸ hk⟩

/-- An operation on an account of a signer that leaves the other accounts alone. -/
theorem Outside.of_own {b b' : Bank Pubkey} {op : TokenOp} {authority account m₀ : Pubkey}
    {holding : Option (Pubkey × Pubkey)} (hsign : authority.canSign = true)
    (hold : b.holder account = some (authority, m₀)) (hz : ∀ k, op.credit k = 0)
    (hmint : ∀ o m, holding = some (o, m) → m = m₀)
    (hobs : b'.Observes b.mints (Function.update b.holder account holding) b.balance) :
    Outside b b' op := by
  apply Outside.of_kept hobs.mints
  · intro k o m ho hk
    have hne := ne_of_owner hk hold (ne_of_canSign hsign ho).symm
    rw [hobs.holder, Function.update_of_ne hne, hobs.balance, hz]
    exact ⟨hk, rfl⟩
  · intro k o' m' hk
    rw [hobs.holder] at hk
    by_cases hne : k = account
    · subst k
      rw [Function.update_self] at hk
      exact ⟨authority, hmint o' m' hk ▸ hold⟩
    · rw [Function.update_of_ne hne] at hk
      exact ⟨o', hk⟩

theorem Outside.of_createMint {b b' : Bank Pubkey} {mint : Pubkey}
    (hsign : mint.canSign = true) (h : b.createMint mint = .ok b') :
    Outside b b' (.createMint mint) := by
  have hobs := Bank.createMint_ok h
  constructor
  · exact hobs.mints ▸ Finset.subset_insert _ _
  · intro m hm
    rw [hobs.mints, Finset.mem_insert] at hm
    rcases hm with rfl | hm
    · exact .inr hsign
    · exact .inl hm
  · intro k o m _ hk
    exact ⟨(hobs.holder k).trans hk, hobs.balance k⟩
  · intro k o' m' hk
    exact .inl ⟨o', (hobs.holder k) ▸ hk⟩

/-- Every outside operation that succeeds is an outside step. -/
theorem TokenOp.process_outside {b b' : Bank Pubkey} {op : TokenOp}
    (h : op.process b = .ok b') : Outside b b' op := by
  cases TokenOp.process_eq_ok.mp h with
  | createMint signs call => exact .of_createMint signs call
  | createAccount signs call => exact .of_open (.inl signs) (fun _ => rfl) call
  | createAta call => exact .of_open (.inr rfl) (fun _ => rfl) call
  | transfer signs call => exact .of_transfer signs call
  | mintTo call => exact .of_mintTo call
  | closeAccount signs call =>
    obtain ⟨⟨n, hn⟩, _, hobs⟩ := Bank.closeAccount_eq_ok.mp call
    exact .of_own signs hn (fun _ => rfl) (fun _ _ he => by cases he) hobs
  | setOwner signs call =>
    obtain ⟨n, hn, hobs⟩ := Bank.setOwner_ok call
    exact .of_own signs hn (fun _ => rfl) (fun _ _ he => by cases he; rfl) hobs

end ClustlyEscrow
