import ClustlyEscrow.Program.Claim

/-! # Dispute instructions -/
namespace ClustlyEscrow
open Foundations

abbrev OpenDispute := ClaimerAccounts

def openDispute (s : State) (now : I64) (a : OpenDispute) : Result (State × List Transfer) := do
  let claim ← a.load s
  let status ← claim.claimStatus
  require (status = .rejected) (.escrow .invalidStateTransition)
  let claim' := { claim.setStatus .disputed with disputedAt := now }
  return ({ s with claims := s.claims.set a.claim claim' }, [])

inductive DisputeFavor
  | deliverer
  | poster
  deriving DecidableEq, Repr

structure ResolveDispute extends PayoutAccounts where
  admin : Pubkey
  posterAta : Pubkey
  deriving DecidableEq, Repr

def resolveDispute (s : State) (a : ResolveDispute) (favor : DisputeFavor) :
    Result (State × List Transfer) := do
  signer a.admin
  let (config, task, claim) ← a.load s
  require (config.admin = a.admin) (.escrow .unauthorized)
  loadToken s a.posterAta a.usdcMint task.poster
  require (a.usdcMint = config.usdcMint) (.escrow .invalidMint)
  -- The task status is not read.
  let status ← claim.claimStatus
  require (status = .disputed) (.escrow .invalidStateTransition)
  match favor with
  | .deliverer => payDeliverer s a.toPayoutAccounts config task claim .resolvedDeliverer
  | .poster =>
    refundPoster s a.task a.claim a.taskVault a.posterAta task (claim.setStatus .resolvedPoster)

structure AutoResolveDispute extends PayoutAccounts where
  caller : Pubkey
  deriving DecidableEq, Repr

def autoResolveDispute (s : State) (now : I64) (a : AutoResolveDispute) :
    Result (State × List Transfer) := do
  signer a.caller
  let (config, task, claim) ← a.load s
  require (a.usdcMint = config.usdcMint) (.escrow .invalidMint)
  let status ← claim.claimStatus
  require (status = .disputed) (.escrow .invalidStateTransition)
  require (0 < claim.disputedAt ∧
    autoDisputeWindowSecs ≤ saturatingSubI64 now claim.disputedAt) (.escrow .autoActionTooEarly)
  let result ← payDeliverer s a.toPayoutAccounts config task claim .resolvedDeliverer
  let _ ← okOr (subI64 now claim.disputedAt) .arithmeticPanic
  return result

end ClustlyEscrow
