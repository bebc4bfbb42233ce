import ClustlyEscrow.Invariants.Sound

/-!
# What settling a slot does

The four instructions that pay a deliverer and the two that refund the poster
end in the same two calls. Each call succeeds exactly when the vault covers the
bounty, and its effect is one structure that later proofs read field by field.
-/
namespace ClustlyEscrow
open Foundations

/-! ## Transfers that skip zero amounts -/

def transferList (source dest : Pubkey) (amount : ℕ) : List Transfer :=
  if 0 < amount then [⟨source, dest, amount⟩] else []

theorem transferPos_eq_ok (c c' : Cpi) {authority source dest m o : Pubkey} (amount : ℕ)
    (hs : c.tokens.holder source = some (authority, m))
    (hd : c.tokens.holder dest = some (o, m)) :
    c.transferPos authority source dest amount = .ok c' ↔
      amount ≤ c.tokens.balance source ∧ c.tokens.Moved c'.tokens source dest amount ∧
        c'.transfers = c.transfers ++ transferList source dest amount := by
  unfold Cpi.transferPos
  by_cases hpos : 0 < amount
  · simp only [if_pos hpos, Cpi.transfer_eq_ok, transferList]
    constructor
    · rintro ⟨ht, hl⟩
      obtain ⟨_, _, _, _, hle, hmoved⟩ := Bank.transfer_moved ht
      exact ⟨hle, hmoved, hl⟩
    · rintro ⟨hle, hmoved, hl⟩
      exact ⟨Bank.transfer_eq_ok.mpr ⟨m, o, hs, hd, hle, hmoved⟩, hl⟩
  · have hz : amount = 0 := by omega
    subst hz
    have hstay : c.tokens.Moved c.tokens source dest 0 :=
      ⟨rfl, fun _ => rfl, fun k => by simp [Bank.movedBalance]⟩
    simp only [transferList, lt_irrefl, if_false, Except.ok.injEq, List.append_nil]
    constructor
    · rintro rfl
      exact ⟨Nat.zero_le _, hstay, rfl⟩
    · rintro ⟨_, hmoved, hl⟩
      have htokens := hstay.unique hmoved
      cases c
      cases c'
      simp_all

/-! ## The account lists -/

structure PayoutAccounts.Loaded (s : State) (a : PayoutAccounts) (cfg : EscrowConfig)
    (t : EscrowTask) (r : EscrowClaim) : Prop where
  config_key : a.config = .configPda
  config : s.config = some cfg
  mint : a.usdcMint ∈ s.tokens.mints
  task : s.tasks.get a.task = some t
  task_key : a.task = .taskPda t.taskId
  claim : s.claims.get a.claim = some r
  claim_key : a.claim = .claimPda r.claimId
  claim_task : r.task = a.task
  vault_key : a.taskVault = .ata a.task a.usdcMint
  vault : ∃ m, s.tokens.holder a.taskVault = some (a.task, m)
  claimerAta_key : a.claimerAta = .ata a.claimer a.usdcMint
  claimerAta : ∃ m, s.tokens.holder a.claimerAta = some (a.claimer, m)
  claimer : a.claimer = r.claimer
  feeVault_key : a.feeVault = .ata a.config a.usdcMint
  feeVault : ∃ m, s.tokens.holder a.feeVault = some (a.config, m)

theorem PayoutAccounts.load_eq_ok {s : State} {a : PayoutAccounts} {cfg : EscrowConfig}
    {t : EscrowTask} {r : EscrowClaim} : a.load s = .ok (cfg, t, r) ↔ a.Loaded s cfg t r := by
  simp only [PayoutAccounts.load, seq_eq_ok, loadConfig_eq_ok, loadMint_eq_ok, loadTask_eq_ok,
    loadClaim_eq_ok, require_eq_ok, loadAta_eq_ok, return_eq_ok, Prod.mk.injEq]
  constructor
  · rintro ⟨_, ⟨h1, h2⟩, _, h3, _, ⟨h4, h5⟩, _, ⟨h6, h7⟩, _, h8, _, ⟨h9, h10⟩, _, ⟨h11, h12⟩, _,
      h13, _, ⟨h14, h15⟩, rfl, rfl, rfl⟩
    exact ⟨h1, h2, h3, h4, h5, h6, h7, h8, h9, h10, h11, h12, h13, h14, h15⟩
  · intro h
    exact ⟨cfg, ⟨h.config_key, h.config⟩, (), h.mint, t, ⟨h.task, h.task_key⟩, r,
      ⟨h.claim, h.claim_key⟩, (), h.claim_task, (), ⟨h.vault_key, h.vault⟩, (),
      ⟨h.claimerAta_key, h.claimerAta⟩, (), h.claimer, (), ⟨h.feeVault_key, h.feeVault⟩,
      rfl, rfl, rfl⟩

theorem PayoutAccounts.Loaded.task_get {s : State} {a : PayoutAccounts} {cfg : EscrowConfig}
    {t : EscrowTask} {r : EscrowClaim} (h : a.Loaded s cfg t r) :
    s.tasks.get r.task = some t := by
  rw [h.claim_task, h.task]

/-- The token accounts that a payout touches exist and are the derived ones. -/
structure PayoutReady (s : State) (cfg : EscrowConfig) (T claimer : Pubkey) : Prop where
  vault : s.tokens.holder (.ata T cfg.usdcMint) = some (T, cfg.usdcMint)
  claimerAta : s.tokens.holder (.ata claimer cfg.usdcMint) = some (claimer, cfg.usdcMint)
  feeVault : s.tokens.holder (.ata .configPda cfg.usdcMint) = some (.configPda, cfg.usdcMint)

theorem PayoutAccounts.Loaded.ready {s : State} {a : PayoutAccounts} {cfg : EscrowConfig}
    {t : EscrowTask} {r : EscrowClaim} (hs : Sound s) (h : a.Loaded s cfg t r)
    (hm : a.usdcMint = cfg.usdcMint) : PayoutReady s cfg r.task r.claimer := by
  have hold (k o : Pubkey) (hk : k = .ata o a.usdcMint)
      (hex : ∃ m, s.tokens.holder k = some (o, m)) :
      s.tokens.holder (.ata o cfg.usdcMint) = some (o, cfg.usdcMint) := by
    obtain ⟨m, hm'⟩ := hex
    rw [hk, hm] at hm'
    rw [hm', hs.ata_mint _ _ _ _ hm']
  constructor
  · rw [h.claim_task]
    exact hold _ _ h.vault_key h.vault
  · rw [← h.claimer]
    exact hold _ _ h.claimerAta_key h.claimerAta
  · rw [← h.config_key]
    exact hold _ _ h.feeVault_key h.feeVault

/-! ## Paying the deliverer -/

/-- The balances after a payout out of `vault`. -/
def paidBalance (b : Bank Pubkey) (vault claimerAta feeVault : Pubkey) (net fee : ℕ)
    (k : Pubkey) : ℕ :=
  if k = vault then b.balance k - (net + fee)
  else if k = claimerAta then b.balance k + net
  else if k = feeVault then b.balance k + fee
  else b.balance k

def netOf (bounty feeBps : ℕ) : ℕ := bounty - feeOf bounty feeBps

theorem netOf_add_feeOf (bounty : ℕ) {feeBps : ℕ} (hf : feeBps ≤ feeBpsCap) :
    netOf bounty feeBps + feeOf bounty feeBps = bounty := by
  have h := feeOf_le bounty hf
  unfold netOf
  omega

theorem netOf_pos {bounty feeBps : ℕ} (hb : 0 < bounty) (hf : feeBps ≤ feeBpsCap) :
    0 < netOf bounty feeBps := by
  have h := feeOf_lt hb hf
  unfold netOf
  omega

/-- Claim `c` is settled in favor of its claimer. -/
structure Paid (s s' : State) (out : List Transfer) (c : Pubkey) (cfg : EscrowConfig)
    (t : EscrowTask) (r : EscrowClaim) (outcome : ClaimStatus) : Prop where
  config : s.config = some cfg
  task : s.tasks.get r.task = some t
  claim : s.claims.get c = some r
  ready : PayoutReady s cfg r.task r.claimer
  covered : t.bounty ≤ s.tokens.balance (.ata r.task cfg.usdcMint)
  config' : s'.config = s.config
  tasks' : s'.tasks = s.tasks.set r.task { t with slotsApproved := t.slotsApproved + 1 }
  claims' : s'.claims = s.claims.set c (r.setStatus outcome)
  tokens' : s'.tokens.Observes s.tokens.mints s.tokens.holder
    (paidBalance s.tokens (.ata r.task cfg.usdcMint) (.ata r.claimer cfg.usdcMint)
      (.ata .configPda cfg.usdcMint) (netOf t.bounty cfg.feeBps) (feeOf t.bounty cfg.feeBps))
  transfers : out =
    transferList (.ata r.task cfg.usdcMint) (.ata r.claimer cfg.usdcMint)
      (netOf t.bounty cfg.feeBps) ++
    transferList (.ata r.task cfg.usdcMint) (.ata .configPda cfg.usdcMint)
      (feeOf t.bounty cfg.feeBps)

/-- Two transfers out of one vault to two other accounts. -/
theorem moved_twice {b b₁ b₂ : Bank Pubkey} {vault ata feeVault : Pubkey} {net fee : ℕ}
    (hva : vault ≠ ata) (hvf : vault ≠ feeVault) (haf : ata ≠ feeVault)
    (h₁ : b.Moved b₁ vault ata net) (h₂ : b₁.Moved b₂ vault feeVault fee) :
    b₂.Observes b.mints b.holder (paidBalance b vault ata feeVault net fee) := by
  refine ⟨h₂.mints.trans h₁.mints, fun k => (h₂.holder k).trans (h₁.holder k), fun k => ?_⟩
  rw [h₂.balance]
  simp only [Bank.movedBalance, h₁.balance, hvf, hva, if_false, paidBalance]
  by_cases hkv : k = vault
  · simp only [hkv, if_true]
    omega
  · by_cases hka : k = ata
    · subst k
      simp [hkv, haf]
    · simp only [hkv, hka, if_false]

theorem moved_twice_exists {b : Bank Pubkey} {vault ata feeVault T w f m : Pubkey} {net fee : ℕ}
    (hva : vault ≠ ata) (hv : b.holder vault = some (T, m)) (ha : b.holder ata = some (w, m))
    (hf : b.holder feeVault = some (f, m)) (hle : net + fee ≤ b.balance vault) :
    ∃ b₁ b₂ : Bank Pubkey, b.Moved b₁ vault ata net ∧ b₁.Moved b₂ vault feeVault fee := by
  obtain ⟨b₁, h₁⟩ := Bank.transfer_succeeds hv ha (show net ≤ b.balance vault by omega)
  obtain ⟨_, _, _, _, _, hm₁⟩ := Bank.transfer_moved h₁
  have hleft := hm₁.balance_source hva
  obtain ⟨b₂, h₂⟩ := Bank.transfer_succeeds ((hm₁.holder vault).trans hv)
    ((hm₁.holder feeVault).trans hf) (show fee ≤ b₁.balance vault by omega)
  obtain ⟨_, _, _, _, _, hm₂⟩ := Bank.transfer_moved h₂
  exact ⟨b₁, b₂, hm₁, hm₂⟩

theorem payNetAndFee_eq_ok (s : State) (a : PayoutAccounts) (cpi : Cpi) (net fee : ℕ)
    {w f m : Pubkey} (hva : a.taskVault ≠ a.claimerAta) (hvf : a.taskVault ≠ a.feeVault)
    (haf : a.claimerAta ≠ a.feeVault) (hv : s.tokens.holder a.taskVault = some (a.task, m))
    (ha : s.tokens.holder a.claimerAta = some (w, m))
    (hf : s.tokens.holder a.feeVault = some (f, m)) :
    payNetAndFee s a net fee = .ok cpi ↔
      net + fee ≤ s.tokens.balance a.taskVault ∧
        cpi.tokens.Observes s.tokens.mints s.tokens.holder
          (paidBalance s.tokens a.taskVault a.claimerAta a.feeVault net fee) ∧
        cpi.transfers = transferList a.taskVault a.claimerAta net ++
          transferList a.taskVault a.feeVault fee := by
  simp only [payNetAndFee, seq_eq_ok]
  constructor
  · rintro ⟨c₁, h₁, h₂⟩
    obtain ⟨hnet, hm₁, hl₁⟩ := (transferPos_eq_ok s.cpi c₁ net hv ha).mp h₁
    obtain ⟨hfee, hm₂, hl₂⟩ := (transferPos_eq_ok c₁ cpi fee ((hm₁.holder _).trans hv)
      ((hm₁.holder _).trans hf)).mp h₂
    rw [hm₁.balance_source hva] at hfee
    have hnet' : net ≤ s.tokens.balance a.taskVault := hnet
    have hfee' : fee ≤ s.tokens.balance a.taskVault - net := hfee
    refine ⟨by omega, moved_twice hva hvf haf hm₁ hm₂, ?_⟩
    rw [hl₂, hl₁]
    rfl
  · rintro ⟨hle, hobs, hl⟩
    obtain ⟨b₁, b₂, hm₁, hm₂⟩ := moved_twice_exists hva hv ha hf hle
    have hb₂ : cpi.tokens = b₂ := hobs.unique (moved_twice hva hvf haf hm₁ hm₂)
    have hleft := hm₁.balance_source hva
    refine ⟨⟨b₁, transferList a.taskVault a.claimerAta net⟩,
      (transferPos_eq_ok s.cpi _ net hv ha).mpr ⟨?_, hm₁, rfl⟩,
      (transferPos_eq_ok _ cpi fee ((hm₁.holder _).trans hv) ((hm₁.holder _).trans hf)).mpr
        ⟨?_, hb₂ ▸ hm₂, hl⟩⟩
    · change net ≤ s.tokens.balance a.taskVault
      omega
    · change fee ≤ b₁.balance a.taskVault
      omega

/-- The vault, the claimer's account and the fee vault never coincide. -/
theorem vaults_ne {s : State} (hs : Sound s) {T c : Pubkey} {t : EscrowTask} {r : EscrowClaim}
    (ht : s.tasks.get T = some t) (hr : s.claims.get c = some r) (m : Pubkey) :
    Pubkey.ata T m ≠ .ata r.claimer m ∧ Pubkey.ata T m ≠ .ata .configPda m ∧
      Pubkey.ata r.claimer m ≠ .ata .configPda m := by
  have hT := (hs.task T t ht).canSign
  have hw := (hs.claim c r hr).claimer
  have hkey := (hs.task T t ht).key
  refine ⟨?_, ?_, ?_⟩ <;> simp only [ne_eq, Pubkey.ata.injEq, and_true]
  · exact (ne_of_canSign hw hT).symm
  · rw [hkey]
    exact Pubkey.noConfusion
  · exact ne_of_canSign hw rfl

theorem payDeliverer_eq_ok {s s' : State} {out : List Transfer} {a : PayoutAccounts}
    {cfg : EscrowConfig} {t : EscrowTask} {r : EscrowClaim} {outcome : ClaimStatus}
    (hs : Sound s) (h : a.Loaded s cfg t r) (hm : a.usdcMint = cfg.usdcMint) :
    payDeliverer s a cfg t r outcome = .ok (s', out) ↔
      t.slotsApproved + 1 < 2 ^ 16 ∧ Paid s s' out a.claim cfg t r outcome := by
  have hready := h.ready hs hm
  have hvault : a.taskVault = .ata r.task cfg.usdcMint := by rw [h.vault_key, h.claim_task, hm]
  have hata : a.claimerAta = .ata r.claimer cfg.usdcMint := by
    rw [h.claimerAta_key, h.claimer, hm]
  have hfee : a.feeVault = .ata .configPda cfg.usdcMint := by
    rw [h.feeVault_key, h.config_key, hm]
  have htask := h.task_get
  obtain ⟨hva, hvf, haf⟩ := vaults_ne hs htask h.claim cfg.usdcMint
  have hcap := hs.fee_le _ h.config
  have hpay (cpi : Cpi) := payNetAndFee_eq_ok s a cpi (netOf t.bounty cfg.feeBps)
    (feeOf t.bounty cfg.feeBps)
    (by rw [hvault, hata]; exact hva) (by rw [hvault, hfee]; exact hvf)
    (by rw [hata, hfee]; exact haf) (by rw [hvault, ← h.claim_task]; exact hready.vault)
    (by rw [hata]; exact hready.claimerAta) (by rw [hfee]; exact hready.feeVault)
  rw [hvault, hata, hfee, netOf_add_feeOf t.bounty hcap] at hpay
  have hsplit := computeFeeSplit_eq_ok (hs.task _ _ htask).bounty_lt hcap
  simp only [payDeliverer, hsplit, seq_eq_ok, Except.ok.injEq, exists_eq_left', okOr_eq_ok,
    checkedAdd_eq_some, return_eq_ok, Prod.mk.injEq]
  constructor
  · rintro ⟨cpi, hcpi, n, ⟨hlt, rfl⟩, rfl, rfl⟩
    obtain ⟨hle, hobs, hl⟩ := (hpay cpi).mp hcpi
    exact ⟨hlt, ⟨h.config, htask, h.claim, hready, hle, rfl, by rw [h.claim_task], rfl, hobs, hl⟩⟩
  · rintro ⟨hlt, hp⟩
    refine ⟨⟨s'.tokens, out⟩, (hpay _).mpr ⟨hp.covered, hp.tokens', hp.transfers⟩, _,
      ⟨hlt, rfl⟩, ?_, rfl⟩
    refine State.ext hp.config'.symm ?_ hp.claims'.symm rfl
    rw [hp.tasks', h.claim_task]

/-- A covered payout between existing accounts can always be made. -/
theorem PayoutReady.pays {s : State} {c : Pubkey} {cfg : EscrowConfig} {t : EscrowTask}
    {r : EscrowClaim} (hs : Sound s) (hc : s.config = some cfg) (ht : s.tasks.get r.task = some t)
    (hr : s.claims.get c = some r) (hready : PayoutReady s cfg r.task r.claimer)
    (hcov : t.bounty ≤ s.tokens.balance (.ata r.task cfg.usdcMint)) (outcome : ClaimStatus) :
    ∃ s' out, Paid s s' out c cfg t r outcome := by
  obtain ⟨hva, hvf, haf⟩ := vaults_ne hs ht hr cfg.usdcMint
  have hsplit := netOf_add_feeOf t.bounty (hs.fee_le cfg hc)
  obtain ⟨b₁, b₂, hm₁, hm₂⟩ := moved_twice_exists hva hready.vault hready.claimerAta hready.feeVault
    (hsplit.trans_le hcov)
  exact ⟨{ s with
    tasks := s.tasks.set r.task { t with slotsApproved := t.slotsApproved + 1 }
    claims := s.claims.set c (r.setStatus outcome)
    tokens := b₂ }, _, hc, ht, hr, hready, hcov, rfl, rfl, rfl, moved_twice hva hvf haf hm₁ hm₂,
    rfl⟩

/-- A payout is two transfers out of the vault, each of them covered. -/
theorem Paid.moved {s s' : State} {out : List Transfer} {c : Pubkey} {cfg : EscrowConfig}
    {t : EscrowTask} {r : EscrowClaim} {outcome : ClaimStatus} (hs : Sound s)
    (h : Paid s s' out c cfg t r outcome) : ∃ b : Bank Pubkey,
      netOf t.bounty cfg.feeBps ≤ s.tokens.balance (.ata r.task cfg.usdcMint) ∧
      feeOf t.bounty cfg.feeBps ≤ b.balance (.ata r.task cfg.usdcMint) ∧
      s.tokens.Moved b (.ata r.task cfg.usdcMint) (.ata r.claimer cfg.usdcMint)
        (netOf t.bounty cfg.feeBps) ∧
      b.Moved s'.tokens (.ata r.task cfg.usdcMint) (.ata .configPda cfg.usdcMint)
        (feeOf t.bounty cfg.feeBps) := by
  obtain ⟨hva, hvf, haf⟩ := vaults_ne hs h.task h.claim cfg.usdcMint
  have hsplit := netOf_add_feeOf t.bounty (hs.fee_le cfg h.config)
  have hcov := h.covered
  obtain ⟨b, b', hm₁, hm₂⟩ := moved_twice_exists hva h.ready.vault h.ready.claimerAta
    h.ready.feeVault (hsplit.trans_le hcov)
  have hb' : s'.tokens = b' := h.tokens'.unique (moved_twice hva hvf haf hm₁ hm₂)
  refine ⟨b, by omega, ?_, hm₁, hb' ▸ hm₂⟩
  rw [hm₁.balance_source hva]
  omega

/-! ## Refunding the poster -/

/-- Claim `c` is settled in favor of the poster, into the token account `P`. -/
structure Refunded (s s' : State) (out : List Transfer) (c P : Pubkey) (cfg : EscrowConfig)
    (t : EscrowTask) (r r' : EscrowClaim) : Prop where
  config : s.config = some cfg
  task : s.tasks.get r.task = some t
  claim : s.claims.get c = some r
  vault : s.tokens.holder (.ata r.task cfg.usdcMint) = some (r.task, cfg.usdcMint)
  posterAta : s.tokens.holder P = some (t.poster, cfg.usdcMint)
  covered : t.bounty ≤ s.tokens.balance (.ata r.task cfg.usdcMint)
  config' : s'.config = s.config
  tasks' : s'.tasks = s.tasks.set r.task { t with slotsRefunded := t.slotsRefunded + 1 }
  claims' : s'.claims = s.claims.set c r'
  tokens' : s.tokens.Moved s'.tokens (.ata r.task cfg.usdcMint) P t.bounty
  transfers : out = [⟨.ata r.task cfg.usdcMint, P, t.bounty⟩]

theorem refundPoster_eq_ok {s s' : State} {out : List Transfer} {c P : Pubkey}
    {cfg : EscrowConfig} {t : EscrowTask} {r r' : EscrowClaim} (hc : s.config = some cfg)
    (ht : s.tasks.get r.task = some t) (hr : s.claims.get c = some r)
    (hv : s.tokens.holder (.ata r.task cfg.usdcMint) = some (r.task, cfg.usdcMint))
    (hP : s.tokens.holder P = some (t.poster, cfg.usdcMint)) :
    refundPoster s r.task c (.ata r.task cfg.usdcMint) P t r' = .ok (s', out) ↔
      t.slotsRefunded + 1 < 2 ^ 16 ∧ Refunded s s' out c P cfg t r r' := by
  simp only [refundPoster, seq_eq_ok, Cpi.transfer_eq_ok, okOr_eq_ok, checkedAdd_eq_some,
    return_eq_ok, Prod.mk.injEq]
  constructor
  · rintro ⟨cpi, ⟨hcpi, hl⟩, n, ⟨hlt, rfl⟩, rfl, rfl⟩
    obtain ⟨_, _, _, _, hle, hmoved⟩ := Bank.transfer_moved hcpi
    exact ⟨hlt, ⟨hc, ht, hr, hv, hP, hle, rfl, rfl, rfl, hmoved, hl⟩⟩
  · rintro ⟨hlt, hp⟩
    refine ⟨⟨s'.tokens, out⟩,
      ⟨Bank.transfer_eq_ok.mpr ⟨_, _, hv, hP, hp.covered, hp.tokens'⟩, hp.transfers⟩, _,
      ⟨hlt, rfl⟩, ?_, rfl⟩
    exact State.ext hp.config'.symm hp.tasks'.symm hp.claims'.symm rfl

theorem refund_succeeds {s : State} {c P : Pubkey} {cfg : EscrowConfig} {t : EscrowTask}
    {r : EscrowClaim} (hc : s.config = some cfg) (ht : s.tasks.get r.task = some t)
    (hr : s.claims.get c = some r)
    (hv : s.tokens.holder (.ata r.task cfg.usdcMint) = some (r.task, cfg.usdcMint))
    (hP : s.tokens.holder P = some (t.poster, cfg.usdcMint))
    (hcov : t.bounty ≤ s.tokens.balance (.ata r.task cfg.usdcMint)) (r' : EscrowClaim) :
    ∃ s' out, Refunded s s' out c P cfg t r r' := by
  obtain ⟨b, hb⟩ := Bank.transfer_succeeds hv hP hcov
  obtain ⟨_, _, _, _, _, hmoved⟩ := Bank.transfer_moved hb
  exact ⟨{ s with
    tasks := s.tasks.set r.task { t with slotsRefunded := t.slotsRefunded + 1 }
    claims := s.claims.set c r'
    tokens := b }, _, hc, ht, hr, hv, hP, hcov, rfl, rfl, rfl, hmoved, rfl⟩

/-! ## The six settling instructions -/

theorem claimStatus_eq_ok {r : EscrowClaim} {st : ClaimStatus} :
    r.claimStatus = .ok st ↔ r.status = st.toU8 := by
  rw [EscrowClaim.claimStatus, okOr_eq_ok, ClaimStatus.fromU8_eq_some]

section Instructions
variable {s s' : State} {out : List Transfer}

theorem approveClaim_eq_ok (hs : Sound s) {a : ApproveClaim} :
    approveClaim s a = .ok (s', out) ↔ ∃ cfg t r,
      a.Loaded s cfg t r ∧ a.usdcMint = cfg.usdcMint ∧ a.poster.canSign = true ∧
      t.poster = a.poster ∧ t.taskStatus = .opened ∧ r.status = ClaimStatus.submitted.toU8 ∧
      t.slotsApproved + 1 < 2 ^ 16 ∧ Paid s s' out a.claim cfg t r .approved := by
  simp only [approveClaim, seq_eq_ok, signer_eq_ok, Prod.exists, PayoutAccounts.load_eq_ok,
    require_eq_ok, claimStatus_eq_ok]
  constructor
  · rintro ⟨_, hsign, cfg, t, r, hl, _, hposter, _, hm, _, hopen, st, hst, _, rfl, hpay⟩
    exact ⟨cfg, t, r, hl, hm, hsign, hposter, hopen, hst, (payDeliverer_eq_ok hs hl hm).mp hpay⟩
  · rintro ⟨cfg, t, r, hl, hm, hsign, hposter, hopen, hst, hpay⟩
    exact ⟨(), hsign, cfg, t, r, hl, (), hposter, (), hm, (), hopen, _, hst, (), rfl,
      (payDeliverer_eq_ok hs hl hm).mpr hpay⟩

/-- The time that the two auto instructions ask for, and their log line. -/
structure Elapsed (now : I64) (since window : ℤ) : Prop where
  started : 0 < since
  window : window ≤ now.val - since
  logged : InI64 (now.val - since)

theorem elapsed_iff {now : I64} {since : ℤ} (window : ℤ) (hw : 0 ≤ window) (hhi : window < 2 ^ 63) :
    Elapsed now since window ↔ (0 < since ∧ window ≤ saturatingSubI64 now since) := by
  rw [le_saturatingSubI64 (by omega) hhi]
  constructor
  · intro h
    exact ⟨h.started, h.window⟩
  · rintro ⟨hpos, hle⟩
    have hnow := now.property
    exact ⟨hpos, hle, by unfold InI64 at *; omega⟩

theorem autoApprove_eq_ok (hs : Sound s) {now : I64} {a : AutoApprove} :
    autoApprove s now a = .ok (s', out) ↔ ∃ cfg t r,
      a.Loaded s cfg t r ∧ a.usdcMint = cfg.usdcMint ∧ a.caller.canSign = true ∧
      t.taskStatus = .opened ∧ r.status = ClaimStatus.submitted.toU8 ∧
      Elapsed now r.submittedAt autoApproveWindowSecs ∧
      t.slotsApproved + 1 < 2 ^ 16 ∧ Paid s s' out a.claim cfg t r .approved := by
  simp only [autoApprove, seq_eq_ok, signer_eq_ok, Prod.exists, PayoutAccounts.load_eq_ok,
    require_eq_ok, claimStatus_eq_ok, okOr_eq_ok, subI64_eq_some, return_eq_ok, Prod.mk.injEq,
    ← elapsed_iff autoApproveWindowSecs (by decide) (by decide)]
  constructor
  · rintro ⟨_, hsign, cfg, t, r, hl, _, hm, _, hopen, st, hst, _, rfl, _, he, s₁, o₁, hpay, _, _,
      rfl, rfl⟩
    exact ⟨cfg, t, r, hl, hm, hsign, hopen, hst, he, (payDeliverer_eq_ok hs hl hm).mp hpay⟩
  · rintro ⟨cfg, t, r, hl, hm, hsign, hopen, hst, he, hpay⟩
    exact ⟨(), hsign, cfg, t, r, hl, (), hm, (), hopen, _, hst, (), rfl, (), he, s', out,
      (payDeliverer_eq_ok hs hl hm).mpr hpay, _, ⟨he.logged, rfl⟩, rfl, rfl⟩

theorem autoResolveDispute_eq_ok (hs : Sound s) {now : I64} {a : AutoResolveDispute} :
    autoResolveDispute s now a = .ok (s', out) ↔ ∃ cfg t r,
      a.Loaded s cfg t r ∧ a.usdcMint = cfg.usdcMint ∧ a.caller.canSign = true ∧
      r.status = ClaimStatus.disputed.toU8 ∧
      Elapsed now r.disputedAt autoDisputeWindowSecs ∧
      t.slotsApproved + 1 < 2 ^ 16 ∧ Paid s s' out a.claim cfg t r .resolvedDeliverer := by
  simp only [autoResolveDispute, seq_eq_ok, signer_eq_ok, Prod.exists, PayoutAccounts.load_eq_ok,
    require_eq_ok, claimStatus_eq_ok, okOr_eq_ok, subI64_eq_some, return_eq_ok, Prod.mk.injEq,
    ← elapsed_iff autoDisputeWindowSecs (by decide) (by decide)]
  constructor
  · rintro ⟨_, hsign, cfg, t, r, hl, _, hm, st, hst, _, rfl, _, he, s₁, o₁, hpay, _, _, rfl, rfl⟩
    exact ⟨cfg, t, r, hl, hm, hsign, hst, he, (payDeliverer_eq_ok hs hl hm).mp hpay⟩
  · rintro ⟨cfg, t, r, hl, hm, hsign, hst, he, hpay⟩
    exact ⟨(), hsign, cfg, t, r, hl, (), hm, _, hst, (), rfl, (), he, s', out,
      (payDeliverer_eq_ok hs hl hm).mpr hpay, _, ⟨he.logged, rfl⟩, rfl, rfl⟩

/-- What a ruling of the admin does, for either favor. -/
def Ruling (s s' : State) (out : List Transfer) (a : ResolveDispute) (cfg : EscrowConfig)
    (t : EscrowTask) (r : EscrowClaim) : DisputeFavor → Prop
  | .deliverer => t.slotsApproved + 1 < 2 ^ 16 ∧ Paid s s' out a.claim cfg t r .resolvedDeliverer
  | .poster => t.slotsRefunded + 1 < 2 ^ 16 ∧
      Refunded s s' out a.claim a.posterAta cfg t r (r.setStatus .resolvedPoster)

theorem resolveDispute_eq_ok (hs : Sound s) {a : ResolveDispute} {favor : DisputeFavor} :
    resolveDispute s a favor = .ok (s', out) ↔ ∃ cfg t r,
      a.Loaded s cfg t r ∧ a.usdcMint = cfg.usdcMint ∧ a.admin.canSign = true ∧
      cfg.admin = a.admin ∧ s.tokens.holder a.posterAta = some (t.poster, a.usdcMint) ∧
      r.status = ClaimStatus.disputed.toU8 ∧ Ruling s s' out a cfg t r favor := by
  have hrule (cfg : EscrowConfig) (t : EscrowTask) (r : EscrowClaim) (hl : a.Loaded s cfg t r)
      (hm : a.usdcMint = cfg.usdcMint)
      (hP : s.tokens.holder a.posterAta = some (t.poster, a.usdcMint)) :
      refundPoster s a.task a.claim a.taskVault a.posterAta t (r.setStatus .resolvedPoster) =
        .ok (s', out) ↔ Ruling s s' out a cfg t r .poster := by
    rw [hl.vault_key, ← hl.claim_task, hm]
    rw [hm] at hP
    exact refundPoster_eq_ok hl.config hl.task_get hl.claim
      (hl.ready hs hm).vault hP
  simp only [resolveDispute, seq_eq_ok, signer_eq_ok, Prod.exists, PayoutAccounts.load_eq_ok,
    require_eq_ok, claimStatus_eq_ok, loadToken_eq_ok]
  constructor
  · rintro ⟨_, hsign, cfg, t, r, hl, _, hadmin, _, hP, _, hm, st, hst, _, rfl, hfav⟩
    refine ⟨cfg, t, r, hl, hm, hsign, hadmin, hP, hst, ?_⟩
    cases favor with
    | deliverer => exact (payDeliverer_eq_ok hs hl hm).mp hfav
    | poster => exact (hrule cfg t r hl hm hP).mp hfav
  · rintro ⟨cfg, t, r, hl, hm, hsign, hadmin, hP, hst, hfav⟩
    refine ⟨(), hsign, cfg, t, r, hl, (), hadmin, (), hP, (), hm, _, hst, (), rfl, ?_⟩
    cases favor with
    | deliverer => exact (payDeliverer_eq_ok hs hl hm).mpr hfav
    | poster => exact (hrule cfg t r hl hm hP).mpr hfav

end Instructions

end ClustlyEscrow
