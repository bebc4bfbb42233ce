import ClustlyEscrow.Program.Accounts

/-! # Task instructions -/
namespace ClustlyEscrow
open Foundations

structure InitializeTask where
  poster : Pubkey
  config : Pubkey
  usdcMint : Pubkey
  task : Pubkey
  taskVault : Pubkey
  posterAta : Pubkey
  deriving DecidableEq, Repr

def initializeTask (s : State) (a : InitializeTask) (taskId : BitVec 128) (bounty : U64)
    (maxSlots : U16) (claimDeadlineSecs : U32) (taskDeadlineTs : I64) :
    Result (State × List Transfer) := do
  signer a.poster
  let config ← loadConfig s a.config
  loadMint s a.usdcMint
  require (a.usdcMint = config.usdcMint) (.escrow .invalidMint)
  require (a.task = .taskPda taskId) (.constraint .seeds)
  require (s.tasks.get a.task = none) (.constraint .accountAlreadyInUse)
  let cpi ← s.cpi.initAta a.taskVault a.usdcMint a.task
  loadToken s a.posterAta a.usdcMint a.poster
  require (0 < bounty.val) (.escrow .zeroBounty)
  require (1 ≤ maxSlots.val ∧ maxSlots.val ≤ maxSlotsLimit) (.escrow .invalidSlots)
  let product ← okOr (checkedMul 128 bounty maxSlots) (.escrow .mathOverflow)
  let total ← okOr (tryIntoU64 product) (.escrow .mathOverflow)
  let task : EscrowTask := {
    taskId
    poster := a.poster
    bounty
    maxSlots
    slotsEnrolled := 0
    slotsApproved := 0
    slotsRefunded := 0
    status := TaskStatus.opened.toU8
    taskDeadlineTs
    claimDeadlineSecs }
  let cpi ← cpi.transfer a.poster a.posterAta a.taskVault total
  return ({ s with tasks := s.tasks.set a.task task, tokens := cpi.tokens }, cpi.transfers)

/-- The refund that empties a vault and closes its token account; the three
instructions that end a task share this tail. -/
def sweepVault (s : State) (task taskVault posterAta : Pubkey) : Result Cpi := do
  let refund := s.tokens.balance taskVault
  let cpi ← s.cpi.transferPos task taskVault posterAta refund
  cpi.closeAccount task taskVault

structure CancelBeforeEnroll where
  poster : Pubkey
  config : Pubkey
  task : Pubkey
  taskVault : Pubkey
  posterAta : Pubkey
  deriving DecidableEq, Repr

def cancelBeforeEnroll (s : State) (a : CancelBeforeEnroll) :
    Result (State × List Transfer) := do
  signer a.poster
  let config ← loadConfig s a.config
  let task ← loadTask s a.task
  require (task.poster = a.poster) (.escrow .unauthorized)
  loadAta s a.taskVault config.usdcMint a.task
  loadToken s a.posterAta config.usdcMint a.poster
  require (task.slotsEnrolled = 0) (.escrow .taskHasEnrollments)
  require (task.taskStatus = .opened) (.escrow .invalidStateTransition)
  let cpi ← sweepVault s a.task a.taskVault a.posterAta
  -- `close = poster` removes the task account when the instruction exits.
  return ({ s with tasks := s.tasks.erase a.task, tokens := cpi.tokens }, cpi.transfers)

structure CloseTask where
  caller : Pubkey
  config : Pubkey
  task : Pubkey
  taskVault : Pubkey
  posterAta : Pubkey
  poster : Pubkey
  deriving DecidableEq, Repr

def CloseTask.load (s : State) (a : CloseTask) : Result EscrowTask := do
  signer a.caller
  let config ← loadConfig s a.config
  let task ← loadTask s a.task
  loadAta s a.taskVault config.usdcMint a.task
  loadToken s a.posterAta config.usdcMint task.poster
  require (a.poster = task.poster) (.escrow .unauthorized)
  return task

/-- The deadline check of the permissionless paths. -/
def requireDeadline (now : I64) (task : EscrowTask) : Result Unit :=
  require (0 < task.taskDeadlineTs ∧ task.taskDeadlineTs ≤ now) (.escrow .deadlineNotReached)

/-- Only a caller other than the poster has to wait. -/
def requireClosable (now : I64) (caller : Pubkey) (task : EscrowTask) : Result Unit :=
  if caller = task.poster then .ok () else requireDeadline now task

/-- Saturating subtractions, in the order of the source. -/
def EscrowTask.activeSlots (t : EscrowTask) : ℕ :=
  t.slotsEnrolled - t.slotsApproved - t.slotsRefunded

def closeTask (s : State) (now : I64) (a : CloseTask) : Result (State × List Transfer) := do
  let task ← a.load s
  requireClosable now a.caller task
  require (task.taskStatus = .opened) (.escrow .invalidStateTransition)
  require (task.activeSlots = 0) (.escrow .claimsNotResolved)
  let cpi ← sweepVault s a.task a.taskVault a.posterAta
  return ({ s with tasks := s.tasks.set a.task (task.setStatus .closed), tokens := cpi.tokens },
    cpi.transfers)

abbrev AutoCancelTask := CloseTask

def autoCancelTask (s : State) (now : I64) (a : AutoCancelTask) :
    Result (State × List Transfer) := do
  let task ← a.load s
  require (task.slotsEnrolled = 0) (.escrow .taskHasEnrollments)
  require (task.taskStatus = .opened) (.escrow .invalidStateTransition)
  requireDeadline now task
  let cpi ← sweepVault s a.task a.taskVault a.posterAta
  return ({ s with tasks := s.tasks.set a.task (task.setStatus .closed), tokens := cpi.tokens },
    cpi.transfers)

end ClustlyEscrow
