import ClustlyEscrow.Program.Accounts

/-! # Claim instructions -/
namespace ClustlyEscrow
open Foundations

structure Enroll where
  claimer : Pubkey
  config : Pubkey
  usdcMint : Pubkey
  task : Pubkey
  claim : Pubkey
  claimerAta : Pubkey
  deriving DecidableEq, Repr

def enroll (s : State) (now : I64) (a : Enroll) (claimId : BitVec 128) :
    Result (State × List Transfer) := do
  signer a.claimer
  let _ ← loadConfig s a.config
  -- Any initialized mint: the configured one is not asked for here.
  loadMint s a.usdcMint
  let task ← loadTask s a.task
  require (a.claim = .claimPda claimId) (.constraint .seeds)
  require (s.claims.get a.claim = none) (.constraint .accountAlreadyInUse)
  let cpi ← s.cpi.initAtaIfNeeded a.claimerAta a.usdcMint a.claimer
  require (task.taskStatus = .opened) (.escrow .invalidStateTransition)
  require (task.slotsEnrolled < task.maxSlots) (.escrow .slotsFull)
  require (a.claimer ≠ task.poster) (.escrow .selfEnrollment)
  let claim : EscrowClaim := {
    claimId
    task := a.task
    claimer := a.claimer
    status := ClaimStatus.enrolled.toU8
    enrolledAt := now
    submittedAt := 0
    disputedAt := 0
    rejections := 0
    deliverableHash := 0 }
  let slotsEnrolled ← okOr (checkedAdd 16 task.slotsEnrolled 1) (.escrow .mathOverflow)
  return ({ s with
    tasks := s.tasks.set a.task { task with slotsEnrolled }
    claims := s.claims.set a.claim claim
    tokens := cpi.tokens }, cpi.transfers)

/-- The accounts of the two instructions that a claimer signs on a claim. -/
structure ClaimerAccounts where
  claimer : Pubkey
  task : Pubkey
  claim : Pubkey
  deriving DecidableEq, Repr

def ClaimerAccounts.load (s : State) (a : ClaimerAccounts) : Result EscrowClaim := do
  signer a.claimer
  let _ ← loadTask s a.task
  let claim ← loadClaim s a.claim
  require (claim.claimer = a.claimer) (.escrow .unauthorized)
  require (claim.task = a.task) (.escrow .taskClaimMismatch)
  return claim

abbrev Submit := ClaimerAccounts

def submit (s : State) (now : I64) (a : Submit) (deliverableHash : BitVec 256) :
    Result (State × List Transfer) := do
  let claim ← a.load s
  let current ← claim.claimStatus
  require (current = .enrolled ∨ current = .rejected) (.escrow .invalidStateTransition)
  let claim' := { claim.setStatus .submitted with submittedAt := now, deliverableHash }
  return ({ s with claims := s.claims.set a.claim claim' }, [])

/-! ## Settling a slot -/

/-- The accounts shared by the four instructions that can pay a deliverer. -/
structure PayoutAccounts where
  config : Pubkey
  usdcMint : Pubkey
  task : Pubkey
  claim : Pubkey
  taskVault : Pubkey
  claimerAta : Pubkey
  claimer : Pubkey
  feeVault : Pubkey
  deriving DecidableEq, Repr

def PayoutAccounts.load (s : State) (a : PayoutAccounts) :
    Result (EscrowConfig × EscrowTask × EscrowClaim) := do
  let config ← loadConfig s a.config
  loadMint s a.usdcMint
  let task ← loadTask s a.task
  let claim ← loadClaim s a.claim
  require (claim.task = a.task) (.escrow .taskClaimMismatch)
  loadAta s a.taskVault a.usdcMint a.task
  loadAta s a.claimerAta a.usdcMint a.claimer
  require (a.claimer = claim.claimer) (.escrow .unauthorized)
  loadAta s a.feeVault a.usdcMint a.config
  return (config, task, claim)

def payNetAndFee (s : State) (a : PayoutAccounts) (net fee : ℕ) : Result Cpi := do
  let cpi ← s.cpi.transferPos a.task a.taskVault a.claimerAta net
  cpi.transferPos a.task a.taskVault a.feeVault fee

/-- Pay the bounty out of the vault, split with the fee vault, and count the slot. -/
def payDeliverer (s : State) (a : PayoutAccounts) (config : EscrowConfig) (task : EscrowTask)
    (claim : EscrowClaim) (outcome : ClaimStatus) : Result (State × List Transfer) := do
  let (net, fee) ← computeFeeSplit task.bounty config.feeBps
  let cpi ← payNetAndFee s a net fee
  let slotsApproved ← okOr (checkedAdd 16 task.slotsApproved 1) (.escrow .mathOverflow)
  return ({ s with
    tasks := s.tasks.set a.task { task with slotsApproved }
    claims := s.claims.set a.claim (claim.setStatus outcome)
    tokens := cpi.tokens }, cpi.transfers)

/-- Return the whole bounty to the poster and count the slot. -/
def refundPoster (s : State) (taskKey claimKey taskVault posterAta : Pubkey)
    (task : EscrowTask) (claim' : EscrowClaim) : Result (State × List Transfer) := do
  let cpi ← s.cpi.transfer taskKey taskVault posterAta task.bounty
  let slotsRefunded ← okOr (checkedAdd 16 task.slotsRefunded 1) (.escrow .mathOverflow)
  return ({ s with
    tasks := s.tasks.set taskKey { task with slotsRefunded }
    claims := s.claims.set claimKey claim'
    tokens := cpi.tokens }, cpi.transfers)

structure ApproveClaim extends PayoutAccounts where
  poster : Pubkey
  deriving DecidableEq, Repr

def approveClaim (s : State) (a : ApproveClaim) : Result (State × List Transfer) := do
  signer a.poster
  let (config, task, claim) ← a.load s
  require (task.poster = a.poster) (.escrow .unauthorized)
  require (a.usdcMint = config.usdcMint) (.escrow .invalidMint)
  require (task.taskStatus = .opened) (.escrow .invalidStateTransition)
  let status ← claim.claimStatus
  require (status = .submitted) (.escrow .invalidStateTransition)
  payDeliverer s a.toPayoutAccounts config task claim .approved

structure RejectClaim where
  poster : Pubkey
  config : Pubkey
  task : Pubkey
  claim : Pubkey
  taskVault : Pubkey
  posterAta : Pubkey
  deriving DecidableEq, Repr

def rejectClaim (s : State) (a : RejectClaim) : Result (State × List Transfer) := do
  signer a.poster
  let config ← loadConfig s a.config
  let task ← loadTask s a.task
  require (task.poster = a.poster) (.escrow .unauthorized)
  let claim ← loadClaim s a.claim
  require (claim.task = a.task) (.escrow .taskClaimMismatch)
  loadAta s a.taskVault config.usdcMint a.task
  loadToken s a.posterAta config.usdcMint task.poster
  require (task.taskStatus = .opened) (.escrow .invalidStateTransition)
  let status ← claim.claimStatus
  require (status = .submitted) (.escrow .invalidStateTransition)
  let newRejections ← okOr (checkedAdd 8 claim.rejections 1) (.escrow .mathOverflow)
  if maxRejections ≤ newRejections then
    refundPoster s a.task a.claim a.taskVault a.posterAta task
      ({ claim with rejections := newRejections }.setStatus .cancelled)
  else
    let claim' := { claim with rejections := newRejections }.setStatus .rejected
    return ({ s with claims := s.claims.set a.claim claim' }, [])

structure AutoApprove extends PayoutAccounts where
  caller : Pubkey
  deriving DecidableEq, Repr

def autoApprove (s : State) (now : I64) (a : AutoApprove) :
    Result (State × List Transfer) := do
  signer a.caller
  let (config, task, claim) ← a.load s
  require (a.usdcMint = config.usdcMint) (.escrow .invalidMint)
  require (task.taskStatus = .opened) (.escrow .invalidStateTransition)
  let status ← claim.claimStatus
  require (status = .submitted) (.escrow .invalidStateTransition)
  require (0 < claim.submittedAt ∧
    autoApproveWindowSecs ≤ saturatingSubI64 now claim.submittedAt) (.escrow .autoActionTooEarly)
  let result ← payDeliverer s a.toPayoutAccounts config task claim .approved
  -- The log line subtracts without saturation.
  let _ ← okOr (subI64 now claim.submittedAt) .arithmeticPanic
  return result

end ClustlyEscrow
