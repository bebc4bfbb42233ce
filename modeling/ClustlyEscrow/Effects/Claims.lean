import ClustlyEscrow.Effects.Settle

/-!
# What the remaining claim instructions do

Submitting, disputing and the first rejections only rewrite one claim record;
enrolling adds one and counts it.
-/
namespace ClustlyEscrow
open Foundations

/-- Only the record of claim `c` changes. -/
structure Advanced (s s' : State) (out : List Transfer) (c : Pubkey) (r r' : EscrowClaim) :
    Prop where
  task : ∃ t, s.tasks.get r.task = some t
  claim : s.claims.get c = some r
  post : s' = { s with claims := s.claims.set c r' }
  transfers : out = []

section Instructions
variable {s s' : State} {out : List Transfer} {now : I64}

structure ClaimerAccounts.Loaded (s : State) (a : ClaimerAccounts) (t : EscrowTask)
    (r : EscrowClaim) : Prop where
  claimer_signs : a.claimer.canSign = true
  task : s.tasks.get a.task = some t
  task_key : a.task = .taskPda t.taskId
  claim : s.claims.get a.claim = some r
  claim_key : a.claim = .claimPda r.claimId
  claimer : r.claimer = a.claimer
  claim_task : r.task = a.task

theorem ClaimerAccounts.Loaded.task_get {a : ClaimerAccounts} {t : EscrowTask} {r : EscrowClaim}
    (h : a.Loaded s t r) : s.tasks.get r.task = some t := by
  rw [h.claim_task, h.task]

theorem ClaimerAccounts.load_eq_ok {a : ClaimerAccounts} {r : EscrowClaim} :
    a.load s = .ok r ↔ ∃ t, a.Loaded s t r := by
  simp only [ClaimerAccounts.load, seq_eq_ok, signer_eq_ok, loadTask_eq_ok, loadClaim_eq_ok,
    require_eq_ok, return_eq_ok]
  constructor
  · rintro ⟨_, h1, t, ⟨h2, h3⟩, _, ⟨h4, h5⟩, _, h6, _, h7, rfl⟩
    exact ⟨t, h1, h2, h3, h4, h5, h6, h7⟩
  · rintro ⟨t, h⟩
    exact ⟨(), h.claimer_signs, t, ⟨h.task, h.task_key⟩, r, ⟨h.claim, h.claim_key⟩, (),
      h.claimer, (), h.claim_task, rfl⟩

def EscrowClaim.submitted (r : EscrowClaim) (now : I64) (hash : BitVec 256) : EscrowClaim :=
  { r.setStatus .submitted with submittedAt := now, deliverableHash := hash }

def EscrowClaim.disputed (r : EscrowClaim) (now : I64) : EscrowClaim :=
  { r.setStatus .disputed with disputedAt := now }

def EscrowClaim.rejectedAs (r : EscrowClaim) (st : ClaimStatus) : EscrowClaim :=
  { r with rejections := r.rejections + 1 }.setStatus st

theorem submit_eq_ok {a : Submit} {hash : BitVec 256} :
    submit s now a hash = .ok (s', out) ↔ ∃ t r, a.Loaded s t r ∧
      (r.status = ClaimStatus.enrolled.toU8 ∨ r.status = ClaimStatus.rejected.toU8) ∧
      Advanced s s' out a.claim r (r.submitted now hash) := by
  simp only [submit, seq_eq_ok, ClaimerAccounts.load_eq_ok, claimStatus_eq_ok, require_eq_ok,
    return_eq_ok, Prod.mk.injEq]
  constructor
  · rintro ⟨r, ⟨t, hl⟩, st, hst, _, hor, rfl, rfl⟩
    refine ⟨t, r, hl, ?_, ⟨⟨t, hl.task_get⟩, hl.claim, rfl, rfl⟩⟩
    rcases hor with rfl | rfl
    · exact .inl hst
    · exact .inr hst
  · rintro ⟨t, r, hl, hor, hadv⟩
    have hpost := hadv.post.symm
    rcases hor with hst | hst
    · exact ⟨r, ⟨t, hl⟩, _, hst, (), .inl rfl, hpost, hadv.transfers.symm⟩
    · exact ⟨r, ⟨t, hl⟩, _, hst, (), .inr rfl, hpost, hadv.transfers.symm⟩

theorem openDispute_eq_ok {a : OpenDispute} :
    openDispute s now a = .ok (s', out) ↔ ∃ t r, a.Loaded s t r ∧
      r.status = ClaimStatus.rejected.toU8 ∧
      Advanced s s' out a.claim r (r.disputed now) := by
  simp only [openDispute, seq_eq_ok, ClaimerAccounts.load_eq_ok, claimStatus_eq_ok,
    require_eq_ok, return_eq_ok, Prod.mk.injEq]
  constructor
  · rintro ⟨r, ⟨t, hl⟩, st, hst, _, rfl, rfl, rfl⟩
    exact ⟨t, r, hl, hst, ⟨⟨t, hl.task_get⟩, hl.claim, rfl, rfl⟩⟩
  · rintro ⟨t, r, hl, hst, hadv⟩
    exact ⟨r, ⟨t, hl⟩, _, hst, (), rfl, hadv.post.symm, hadv.transfers.symm⟩

/-! ## Rejecting -/

structure RejectClaim.Loaded (s : State) (a : RejectClaim) (cfg : EscrowConfig)
    (t : EscrowTask) (r : EscrowClaim) : Prop where
  poster_signs : a.poster.canSign = true
  config_key : a.config = .configPda
  config : s.config = some cfg
  task : s.tasks.get a.task = some t
  task_key : a.task = .taskPda t.taskId
  poster : t.poster = a.poster
  claim : s.claims.get a.claim = some r
  claim_key : a.claim = .claimPda r.claimId
  claim_task : r.task = a.task
  vault_key : a.taskVault = .ata a.task cfg.usdcMint
  vault : ∃ m, s.tokens.holder a.taskVault = some (a.task, m)
  posterAta : s.tokens.holder a.posterAta = some (t.poster, cfg.usdcMint)

theorem RejectClaim.Loaded.task_get {a : RejectClaim} {cfg : EscrowConfig} {t : EscrowTask}
    {r : EscrowClaim} (h : a.Loaded s cfg t r) : s.tasks.get r.task = some t := by
  rw [h.claim_task, h.task]

/-- The third rejection refunds the slot, an earlier one hands the claim back. -/
def Rejection (s s' : State) (out : List Transfer) (c P : Pubkey) (cfg : EscrowConfig)
    (t : EscrowTask) (r : EscrowClaim) : Prop :=
  maxRejections ≤ r.rejections + 1 ∧ t.slotsRefunded + 1 < 2 ^ 16 ∧
      Refunded s s' out c P cfg t r (r.rejectedAs .cancelled) ∨
    r.rejections + 1 < maxRejections ∧ Advanced s s' out c r (r.rejectedAs .rejected)

theorem rejectClaim_eq_ok (hs : Sound s) {a : RejectClaim} :
    rejectClaim s a = .ok (s', out) ↔ ∃ cfg t r, a.Loaded s cfg t r ∧ t.taskStatus = .opened ∧
      r.status = ClaimStatus.submitted.toU8 ∧ r.rejections + 1 < 2 ^ 8 ∧
      Rejection s s' out a.claim a.posterAta cfg t r := by
  have hrefund (cfg : EscrowConfig) (t : EscrowTask) (r : EscrowClaim)
      (hl : a.Loaded s cfg t r) (r' : EscrowClaim) :
      refundPoster s a.task a.claim a.taskVault a.posterAta t r' = .ok (s', out) ↔
        t.slotsRefunded + 1 < 2 ^ 16 ∧ Refunded s s' out a.claim a.posterAta cfg t r r' := by
    obtain ⟨m, hm⟩ := hl.vault
    have hmint := hs.ata_mint _ _ _ _ (hl.vault_key ▸ hm)
    rw [hl.vault_key, ← hl.claim_task]
    exact refundPoster_eq_ok hl.config hl.task_get hl.claim
      (by rw [hl.claim_task, ← hl.vault_key, hm, hmint]) hl.posterAta
  simp only [rejectClaim, seq_eq_ok, signer_eq_ok, loadConfig_eq_ok, loadTask_eq_ok,
    loadClaim_eq_ok, require_eq_ok, loadAta_eq_ok, loadToken_eq_ok, claimStatus_eq_ok,
    okOr_eq_ok, checkedAdd_eq_some]
  constructor
  · rintro ⟨_, h1, cfg, ⟨h2, h3⟩, t, ⟨h4, h5⟩, _, h6, r, ⟨h7, h8⟩, _, h9, _, ⟨h10, h11⟩, _, h12,
      _, hopen, st, hst, _, rfl, n, ⟨hlt, rfl⟩, hrest⟩
    have hl : a.Loaded s cfg t r := ⟨h1, h2, h3, h4, h5, h6, h7, h8, h9, h10, h11, h12⟩
    refine ⟨cfg, t, r, hl, hopen, hst, hlt, ?_⟩
    split_ifs at hrest with hmax
    · exact .inl ⟨hmax, (hrefund cfg t r hl _).mp hrest⟩
    · rw [return_eq_ok, Prod.mk.injEq] at hrest
      exact .inr ⟨not_le.mp hmax,
        ⟨⟨t, hl.task_get⟩, hl.claim, hrest.1.symm, hrest.2.symm⟩⟩
  · rintro ⟨cfg, t, r, hl, hopen, hst, hlt, hrej⟩
    refine ⟨(), hl.poster_signs, cfg, ⟨hl.config_key, hl.config⟩, t, ⟨hl.task, hl.task_key⟩, (),
      hl.poster, r, ⟨hl.claim, hl.claim_key⟩, (), hl.claim_task, (), ⟨hl.vault_key, hl.vault⟩,
      (), hl.posterAta, (), hopen, _, hst, (), rfl, _, ⟨hlt, rfl⟩, ?_⟩
    rcases hrej with ⟨hmax, href⟩ | ⟨hmax, hadv⟩
    · rw [if_pos hmax]
      exact (hrefund cfg t r hl _).mpr href
    · rw [if_neg (not_le.mpr hmax), return_eq_ok, Prod.mk.injEq]
      exact ⟨hadv.post.symm, hadv.transfers.symm⟩

/-! ## Enrolling -/

def Enroll.record (a : Enroll) (now : I64) (claimId : BitVec 128) : EscrowClaim where
  claimId := claimId
  task := a.task
  claimer := a.claimer
  status := ClaimStatus.enrolled.toU8
  enrolledAt := now
  submittedAt := 0
  disputedAt := 0
  rejections := 0
  deliverableHash := 0

/-- The claimer's associated account of the mint it names exists or is opened. -/
def AtaReady (b b' : Bank Pubkey) (owner mint : Pubkey) : Prop :=
  b.holder (.ata owner mint) = some (owner, mint) ∧ b' = b ∨
    b.openAccount (.ata owner mint) owner mint = .ok b'

structure Enrolled (s s' : State) (out : List Transfer) (now : I64) (a : Enroll)
    (claimId : BitVec 128) (t : EscrowTask) : Prop where
  claimer_signs : a.claimer.canSign = true
  config_key : a.config = .configPda
  config : ∃ cfg, s.config = some cfg
  mint : a.usdcMint ∈ s.tokens.mints
  task : s.tasks.get a.task = some t
  task_key : a.task = .taskPda t.taskId
  claim_key : a.claim = .claimPda claimId
  fresh : s.claims.get a.claim = none
  ata_key : a.claimerAta = .ata a.claimer a.usdcMint
  opened : t.taskStatus = .opened
  room : t.slotsEnrolled < t.maxSlots
  fits : t.slotsEnrolled + 1 < 2 ^ 16
  stranger : a.claimer ≠ t.poster
  config' : s'.config = s.config
  tasks' : s'.tasks = s.tasks.set a.task { t with slotsEnrolled := t.slotsEnrolled + 1 }
  claims' : s'.claims = s.claims.set a.claim (a.record now claimId)
  tokens' : AtaReady s.tokens s'.tokens a.claimer a.usdcMint
  transfers : out = []

theorem enroll_eq_ok {a : Enroll} {claimId : BitVec 128} :
    enroll s now a claimId = .ok (s', out) ↔ ∃ t, Enrolled s s' out now a claimId t := by
  simp only [enroll, seq_eq_ok, signer_eq_ok, loadConfig_eq_ok, loadMint_eq_ok, loadTask_eq_ok,
    require_eq_ok, Cpi.initAtaIfNeeded_eq_ok, okOr_eq_ok, checkedAdd_eq_some, return_eq_ok,
    Prod.mk.injEq]
  constructor
  · rintro ⟨_, h1, cfg, ⟨h2, h3⟩, _, h4, t, ⟨h5, h6⟩, _, h7, _, h8, cpi, ⟨h9, hcpi⟩, _, hopen, _,
      hroom, _, hself, n, ⟨hlt, rfl⟩, rfl, rfl⟩
    refine ⟨t, ⟨h1, h2, ⟨cfg, h3⟩, h4, h5, h6, h7, h8, h9, hopen, hroom, hlt, hself, rfl, rfl, rfl,
      ?_, ?_⟩⟩
    · rcases hcpi with ⟨hh, rfl⟩ | ⟨hb, _⟩
      · exact .inl ⟨h9 ▸ hh, rfl⟩
      · exact .inr (h9 ▸ hb)
    · rcases hcpi with ⟨_, rfl⟩ | ⟨_, hl⟩
      · rfl
      · exact hl
  · rintro ⟨t, h⟩
    obtain ⟨cfg, hcfg⟩ := h.config
    refine ⟨(), h.claimer_signs, cfg, ⟨h.config_key, hcfg⟩, (), h.mint, t, ⟨h.task, h.task_key⟩,
      (), h.claim_key, (), h.fresh, ⟨s'.tokens, out⟩, ⟨h.ata_key, ?_⟩, (), h.opened, (), h.room,
      (), h.stranger, _, ⟨h.fits, rfl⟩, ?_, rfl⟩
    · rw [h.ata_key]
      rcases h.tokens' with ⟨hh, hb⟩ | hb
      · refine .inl ⟨hh, ?_⟩
        rw [hb, h.transfers]
        rfl
      · exact .inr ⟨hb, h.transfers⟩
    · exact State.ext h.config'.symm h.tasks'.symm h.claims'.symm rfl

end Instructions

end ClustlyEscrow
