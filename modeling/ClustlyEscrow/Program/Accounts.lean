import ClustlyEscrow.Program.State

/-!
# Account constraints and token calls

One function per constraint of the account structs. A constraint reads the
state before the instruction; the token calls of a handler thread a `Cpi`,
which also records the transfers made so far. A failed instruction changes
nothing, so the order of the constraints only decides which error is reported.
-/
namespace ClustlyEscrow
open Foundations

def signer (k : Pubkey) : Result Unit :=
  require (k.canSign = true) (.constraint .accountNotSigner)

/-- `seeds = [CONFIG_SEED]`. -/
def loadConfig (s : State) (k : Pubkey) : Result EscrowConfig := do
  require (k = .configPda) (.constraint .seeds)
  okOr s.config (.constraint .accountNotInitialized)

/-- `seeds = [TASK_SEED, &task.task_id]`. -/
def loadTask (s : State) (k : Pubkey) : Result EscrowTask := do
  let task ← okOr (s.tasks.get k) (.constraint .accountNotInitialized)
  require (k = .taskPda task.taskId) (.constraint .seeds)
  return task

/-- `seeds = [CLAIM_SEED, &claim.claim_id]`. -/
def loadClaim (s : State) (k : Pubkey) : Result EscrowClaim := do
  let claim ← okOr (s.claims.get k) (.constraint .accountNotInitialized)
  require (k = .claimPda claim.claimId) (.constraint .seeds)
  return claim

def loadMint (s : State) (k : Pubkey) : Result Unit :=
  require (k ∈ s.tokens.mints) (.constraint .accountNotInitialized)

/-- `associated_token::mint`, `associated_token::authority`. -/
def loadAta (s : State) (k mint authority : Pubkey) : Result Unit := do
  let held ← okOr (s.tokens.holder k) (.constraint .accountNotInitialized)
  require (held.1 = authority) (.constraint .tokenOwner)
  require (k = .ata authority mint) (.constraint .associated)

/-- `token::mint`, `token::authority`. -/
def loadToken (s : State) (k mint authority : Pubkey) : Result Unit := do
  let held ← okOr (s.tokens.holder k) (.constraint .accountNotInitialized)
  require (held.1 = authority) (.constraint .tokenOwner)
  require (held.2 = mint) (.constraint .tokenMint)

/-- `token::mint` alone. -/
def loadTokenOfMint (s : State) (k mint : Pubkey) : Result Unit := do
  let held ← okOr (s.tokens.holder k) (.constraint .accountNotInitialized)
  require (held.2 = mint) (.constraint .tokenMint)

section Constraints
variable {s : State} {k mint authority : Pubkey} {u : Unit}

@[simp] theorem signer_eq_ok : signer k = .ok u ↔ k.canSign = true := by
  simp [signer]

@[simp] theorem loadConfig_eq_ok {c : EscrowConfig} :
    loadConfig s k = .ok c ↔ k = .configPda ∧ s.config = some c := by
  simp [loadConfig]

@[simp] theorem loadTask_eq_ok {t : EscrowTask} :
    loadTask s k = .ok t ↔ s.tasks.get k = some t ∧ k = .taskPda t.taskId := by
  simp only [loadTask, seq_eq_ok, okOr_eq_ok, require_eq_ok, return_eq_ok]
  constructor
  · rintro ⟨_, hg, _, hk, rfl⟩
    exact ⟨hg, hk⟩
  · rintro ⟨hg, hk⟩
    exact ⟨t, hg, (), hk, rfl⟩

@[simp] theorem loadClaim_eq_ok {c : EscrowClaim} :
    loadClaim s k = .ok c ↔ s.claims.get k = some c ∧ k = .claimPda c.claimId := by
  simp only [loadClaim, seq_eq_ok, okOr_eq_ok, require_eq_ok, return_eq_ok]
  constructor
  · rintro ⟨_, hg, _, hk, rfl⟩
    exact ⟨hg, hk⟩
  · rintro ⟨hg, hk⟩
    exact ⟨c, hg, (), hk, rfl⟩

@[simp] theorem loadMint_eq_ok : loadMint s k = .ok u ↔ k ∈ s.tokens.mints := by
  simp [loadMint]

@[simp] theorem loadAta_eq_ok :
    loadAta s k mint authority = .ok u ↔
      k = .ata authority mint ∧ ∃ m, s.tokens.holder k = some (authority, m) := by
  simp only [loadAta, seq_eq_ok, okOr_eq_ok, require_eq_ok]
  constructor
  · rintro ⟨⟨o, m⟩, hh, _, rfl, hk⟩
    exact ⟨hk, m, hh⟩
  · rintro ⟨hk, m, hh⟩
    exact ⟨_, hh, (), rfl, hk⟩

@[simp] theorem loadToken_eq_ok :
    loadToken s k mint authority = .ok u ↔ s.tokens.holder k = some (authority, mint) := by
  simp only [loadToken, seq_eq_ok, okOr_eq_ok, require_eq_ok]
  constructor
  · rintro ⟨⟨o, m⟩, hh, _, rfl, rfl⟩
    exact hh
  · intro hh
    exact ⟨_, hh, (), rfl, rfl⟩

@[simp] theorem loadTokenOfMint_eq_ok :
    loadTokenOfMint s k mint = .ok u ↔ ∃ o, s.tokens.holder k = some (o, mint) := by
  simp only [loadTokenOfMint, seq_eq_ok, okOr_eq_ok, require_eq_ok]
  constructor
  · rintro ⟨⟨o, m⟩, hh, rfl⟩
    exact ⟨o, hh⟩
  · rintro ⟨o, hh⟩
    exact ⟨_, hh, rfl⟩

end Constraints

/-! ## Token calls -/

structure Transfer where
  source : Pubkey
  dest : Pubkey
  amount : ℕ
  deriving DecidableEq, Repr

structure Cpi where
  tokens : Bank Pubkey
  transfers : List Transfer

def State.cpi (s : State) : Cpi := ⟨s.tokens, []⟩

namespace Cpi

def lift {α : Type} : Except TokenError α → Result α
  | .ok a => .ok a
  | .error e => .error (.token e)

@[simp] theorem lift_eq_ok {α : Type} {x : Except TokenError α} {a : α} :
    lift x = .ok a ↔ x = .ok a := by
  cases x <;> simp [lift]

def transfer (c : Cpi) (authority source dest : Pubkey) (amount : ℕ) : Result Cpi := do
  let tokens ← lift (c.tokens.transfer authority source dest amount)
  return ⟨tokens, c.transfers ++ [⟨source, dest, amount⟩]⟩

/-- `if amount > 0` around a transfer. -/
def transferPos (c : Cpi) (authority source dest : Pubkey) (amount : ℕ) : Result Cpi :=
  if 0 < amount then c.transfer authority source dest amount else .ok c

def closeAccount (c : Cpi) (authority account : Pubkey) : Result Cpi := do
  let tokens ← lift (c.tokens.closeAccount authority account)
  return { c with tokens }

/-- `init` with `associated_token::mint` and `associated_token::authority`. -/
def initAta (c : Cpi) (account mint authority : Pubkey) : Result Cpi := do
  require (account = .ata authority mint) (.constraint .associated)
  let tokens ← lift (c.tokens.openAccount account authority mint)
  return { c with tokens }

/-- `init_if_needed` with the same constraints. -/
def initAtaIfNeeded (c : Cpi) (account mint authority : Pubkey) : Result Cpi :=
  match c.tokens.holder account with
  | none => c.initAta account mint authority
  | some held => do
    require (held.2 = mint) (.constraint .tokenMint)
    require (held.1 = authority) (.constraint .tokenOwner)
    require (account = .ata authority mint) (.constraint .associated)
    return c

variable {c c' : Cpi} {authority source dest account mint : Pubkey} {amount : ℕ}

@[simp] theorem transfer_eq_ok : c.transfer authority source dest amount = .ok c' ↔
    c.tokens.transfer authority source dest amount = .ok c'.tokens ∧
      c'.transfers = c.transfers ++ [⟨source, dest, amount⟩] := by
  simp only [transfer, seq_eq_ok, lift_eq_ok, return_eq_ok]
  constructor
  · rintro ⟨b, hb, rfl⟩
    exact ⟨hb, rfl⟩
  · rintro ⟨hb, ht⟩
    exact ⟨_, hb, by cases c'; simp_all⟩

@[simp] theorem closeAccount_eq_ok : c.closeAccount authority account = .ok c' ↔
    c.tokens.closeAccount authority account = .ok c'.tokens ∧ c'.transfers = c.transfers := by
  simp only [closeAccount, seq_eq_ok, lift_eq_ok, return_eq_ok]
  constructor
  · rintro ⟨b, hb, rfl⟩
    exact ⟨hb, rfl⟩
  · rintro ⟨hb, ht⟩
    exact ⟨_, hb, by cases c'; simp_all⟩

@[simp] theorem initAta_eq_ok : c.initAta account mint authority = .ok c' ↔
    account = .ata authority mint ∧
      c.tokens.openAccount account authority mint = .ok c'.tokens ∧
        c'.transfers = c.transfers := by
  simp only [initAta, seq_eq_ok, require_eq_ok, lift_eq_ok, return_eq_ok]
  constructor
  · rintro ⟨_, ha, b, hb, rfl⟩
    exact ⟨ha, hb, rfl⟩
  · rintro ⟨ha, hb, ht⟩
    exact ⟨(), ha, _, hb, by cases c'; simp_all⟩

/-- Either the account is already the right one, or it is created. -/
theorem initAtaIfNeeded_eq_ok : c.initAtaIfNeeded account mint authority = .ok c' ↔
    account = .ata authority mint ∧
      (c.tokens.holder account = some (authority, mint) ∧ c' = c ∨
        c.tokens.openAccount account authority mint = .ok c'.tokens ∧
          c'.transfers = c.transfers) := by
  unfold initAtaIfNeeded
  split
  · rename_i hn
    simp [hn]
  · rename_i held hh
    have hopen : c.tokens.openAccount account authority mint ≠ .ok c'.tokens := by
      intro h
      rw [(Bank.openAccount_eq_ok.mp h).2.2.1] at hh
      cases hh
    simp only [seq_eq_ok, require_eq_ok, return_eq_ok, hopen, false_and, or_false, hh,
      Option.some.injEq]
    constructor
    · rintro ⟨_, hm, _, ho, _, ha, rfl⟩
      exact ⟨ha, Prod.ext ho hm, rfl⟩
    · rintro ⟨ha, hheld, rfl⟩
      exact ⟨(), by rw [hheld], (), by rw [hheld], (), ha, rfl⟩

end Cpi
end ClustlyEscrow
