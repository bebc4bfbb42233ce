import ClustlyEscrow.Foundations.Bank
import ClustlyEscrow.Foundations.Checked

/-!
# Accounts and records of the escrow program

Addresses are symbolic: a derived address is the term it is derived from, so
different seeds give different addresses and only a `key` can sign. Bumps are a
function of the seeds and are left out. Amounts, counters and timestamps are
numbers; the width of a field shows in the checked operation that writes it.
-/
namespace ClustlyEscrow
open Foundations

inductive Pubkey
  | key (k : BitVec 256)
  | configPda
  | taskPda (taskId : BitVec 128)
  | claimPda (claimId : BitVec 128)
  | ata (owner mint : Pubkey)
  deriving DecidableEq, Repr

/-- Derived addresses have no private key. -/
def Pubkey.canSign : Pubkey → Bool
  | .key _ => true
  | _ => false

def feeBpsCap : ℕ := 500
def bpsDenominator : ℕ := 10000
def autoApproveWindowSecs : ℤ := 14 * 24 * 60 * 60
def autoDisputeWindowSecs : ℤ := 14 * 24 * 60 * 60
def maxRejections : ℕ := 3
def maxSlotsLimit : ℕ := 100

/-! ## Errors -/

inductive EscrowError
  | feeTooHigh
  | unauthorized
  | selfEnrollment
  | slotsFull
  | invalidStateTransition
  | taskClaimMismatch
  | invalidMint
  | zeroBounty
  | invalidSlots
  | deadlineNotReached
  | autoActionTooEarly
  | claimsNotResolved
  | rejectionLimitReached
  | insufficientFeeVault
  | taskHasEnrollments
  | mathOverflow
  | alreadySubmitted
  deriving DecidableEq, Repr

/-- Failures of the account constraints, before the handler body runs. -/
inductive ConstraintError
  | accountNotSigner
  | accountNotInitialized
  | accountAlreadyInUse
  | seeds
  | tokenOwner
  | tokenMint
  | associated
  deriving DecidableEq, Repr

inductive Error
  | escrow (e : EscrowError)
  | constraint (e : ConstraintError)
  | token (e : TokenError)
  | arithmeticPanic
  deriving DecidableEq, Repr

abbrev Result (α : Type) := Except Error α

/-! ## Records -/

structure EscrowConfig where
  admin : Pubkey
  usdcMint : Pubkey
  feeBps : ℕ
  deriving DecidableEq, Repr

inductive TaskStatus
  | opened
  | closed
  deriving DecidableEq, Repr

def TaskStatus.toU8 : TaskStatus → ℕ
  | .opened => 0
  | .closed => 1

structure EscrowTask where
  taskId : BitVec 128
  poster : Pubkey
  bounty : ℕ
  maxSlots : ℕ
  slotsEnrolled : ℕ
  slotsApproved : ℕ
  slotsRefunded : ℕ
  status : ℕ
  taskDeadlineTs : ℤ
  claimDeadlineSecs : ℕ
  deriving DecidableEq, Repr

def EscrowTask.taskStatus (t : EscrowTask) : TaskStatus :=
  match t.status with
  | 0 => .opened
  | _ => .closed

def EscrowTask.setStatus (t : EscrowTask) (s : TaskStatus) : EscrowTask :=
  { t with status := s.toU8 }

inductive ClaimStatus
  | enrolled
  | submitted
  | approved
  | rejected
  | cancelled
  | disputed
  | resolvedDeliverer
  | resolvedPoster
  deriving DecidableEq, Repr

namespace ClaimStatus

def toU8 : ClaimStatus → ℕ
  | .enrolled => 0
  | .submitted => 1
  | .approved => 2
  | .rejected => 3
  | .cancelled => 4
  | .disputed => 5
  | .resolvedDeliverer => 6
  | .resolvedPoster => 7

def fromU8 : ℕ → Option ClaimStatus
  | 0 => some .enrolled
  | 1 => some .submitted
  | 2 => some .approved
  | 3 => some .rejected
  | 4 => some .cancelled
  | 5 => some .disputed
  | 6 => some .resolvedDeliverer
  | 7 => some .resolvedPoster
  | _ => none

def isTerminal : ClaimStatus → Bool
  | .approved | .cancelled | .resolvedDeliverer | .resolvedPoster => true
  | _ => false

@[simp] theorem fromU8_toU8 (s : ClaimStatus) : fromU8 s.toU8 = some s := by
  cases s <;> rfl

theorem fromU8_eq_some {n : ℕ} {s : ClaimStatus} : fromU8 n = some s ↔ n = s.toU8 := by
  constructor
  · intro h
    unfold fromU8 at h
    split at h <;> cases h <;> rfl
  · rintro rfl
    exact fromU8_toU8 s

end ClaimStatus

structure EscrowClaim where
  claimId : BitVec 128
  task : Pubkey
  claimer : Pubkey
  status : ℕ
  enrolledAt : ℤ
  submittedAt : ℤ
  disputedAt : ℤ
  rejections : ℕ
  deliverableHash : BitVec 256
  deriving DecidableEq, Repr

def EscrowClaim.claimStatus (c : EscrowClaim) : Result ClaimStatus :=
  okOr (ClaimStatus.fromU8 c.status) (.escrow .invalidStateTransition)

def EscrowClaim.setStatus (c : EscrowClaim) (s : ClaimStatus) : EscrowClaim :=
  { c with status := s.toU8 }

/-- The status byte is one of the four final ones. -/
def EscrowClaim.terminal (c : EscrowClaim) : Bool :=
  (ClaimStatus.fromU8 c.status).any ClaimStatus.isTerminal

/-- The accounts of the chain that the program reads or writes. The program
creates its records only at the addresses of its own seeds. -/
structure State where
  config : Option EscrowConfig
  tasks : Store Pubkey EscrowTask
  claims : Store Pubkey EscrowClaim
  tokens : Bank Pubkey

@[ext] theorem State.ext {s t : State} (hc : s.config = t.config) (ht : s.tasks = t.tasks)
    (hcl : s.claims = t.claims) (hk : s.tokens = t.tokens) : s = t := by
  cases s
  cases t
  simp_all

/-- The chain before the program and its tokens are set up. -/
def State.genesis : State := ⟨none, .empty, .empty, .empty⟩

/-! ## The fee split -/

/-- The net amount and the fee of one bounty. -/
def computeFeeSplit (bounty feeBps : ℕ) : Result (ℕ × ℕ) := do
  let product ← okOr (checkedMul 128 bounty feeBps) (.escrow .mathOverflow)
  let quotient ← okOr (checkedDiv product bpsDenominator) (.escrow .mathOverflow)
  let fee := asU64 quotient
  let net ← okOr (checkedSub bounty fee) (.escrow .mathOverflow)
  return (net, fee)

def feeOf (bounty feeBps : ℕ) : ℕ := bounty * feeBps / bpsDenominator

theorem feeOf_le_cap (bounty : ℕ) {feeBps : ℕ} (hf : feeBps ≤ feeBpsCap) :
    feeOf bounty feeBps ≤ feeOf bounty feeBpsCap :=
  Nat.div_le_div_right (Nat.mul_le_mul_left bounty hf)

theorem feeOf_le (bounty : ℕ) {feeBps : ℕ} (hf : feeBps ≤ feeBpsCap) :
    20 * feeOf bounty feeBps ≤ bounty := by
  have h := feeOf_le_cap bounty hf
  have hd := Nat.div_mul_le_self (bounty * feeBpsCap) bpsDenominator
  unfold feeOf feeBpsCap bpsDenominator at *
  omega

theorem feeOf_lt {bounty feeBps : ℕ} (hb : 0 < bounty) (hf : feeBps ≤ feeBpsCap) :
    feeOf bounty feeBps < bounty := by
  have h := feeOf_le bounty hf
  omega

/-- With a capped fee the split of a 64-bit bounty never fails and never truncates. -/
theorem computeFeeSplit_eq_ok {bounty feeBps : ℕ} (hb : bounty < 2 ^ 64)
    (hf : feeBps ≤ feeBpsCap) :
    computeFeeSplit bounty feeBps = .ok (bounty - feeOf bounty feeBps, feeOf bounty feeBps) := by
  have hle := feeOf_le bounty hf
  have hmul : bounty * feeBps < 2 ^ 128 := by
    have h := Nat.mul_le_mul hb.le hf
    unfold feeBpsCap at h
    omega
  have hcast : asU64 (bounty * feeBps / bpsDenominator) = feeOf bounty feeBps := by
    apply Nat.mod_eq_of_lt
    apply Nat.lt_of_le_of_lt _ hb
    change feeOf bounty feeBps ≤ bounty
    omega
  have hnet : asU64 (bounty * feeBps / bpsDenominator) ≤ bounty := by
    rw [hcast]
    omega
  simp only [computeFeeSplit, seq_eq_ok, okOr_eq_ok, checkedMul_eq_some, checkedDiv_eq_some,
    checkedSub_eq_some, return_eq_ok]
  refine ⟨_, ⟨hmul, rfl⟩, _, ⟨by decide, rfl⟩, _, ⟨hnet, rfl⟩, ?_⟩
  rw [hcast]

-- The fee rounds down, in favor of the deliverer.
example : computeFeeSplit 99 400 = .ok (96, 3) := rfl

end ClustlyEscrow
