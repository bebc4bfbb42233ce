import ClustlyEscrow.Foundations.Store
import ClustlyEscrow.Foundations.Bank
import ClustlyEscrow.Foundations.Checked
import ClustlyEscrow.Foundations.Run
import ClustlyEscrow.Program.State
import ClustlyEscrow.Program.Accounts
import ClustlyEscrow.Program.Config
import ClustlyEscrow.Program.Task
import ClustlyEscrow.Program.Claim
import ClustlyEscrow.Program.Dispute
import ClustlyEscrow.Program.Entrypoint
import ClustlyEscrow.Abstract.SlotBook
import ClustlyEscrow.Abstract.Pot
import ClustlyEscrow.Abstract.Review
import ClustlyEscrow.Invariants.Sound
import ClustlyEscrow.Effects.Settle
import ClustlyEscrow.Effects.Claims
import ClustlyEscrow.Effects.Tasks
import ClustlyEscrow.Effects.Config
import ClustlyEscrow.Effects.Move
import ClustlyEscrow.Effects.Frame
import ClustlyEscrow.Effects.Vault
import ClustlyEscrow.Effects.Holders
import ClustlyEscrow.Effects.Supply
import ClustlyEscrow.Effects.Failures
import ClustlyEscrow.Invariants.Reachable
import ClustlyEscrow.Invariants.Book
import ClustlyEscrow.Invariants.Ledger
import ClustlyEscrow.Guarantees.Census
import ClustlyEscrow.Guarantees.Isolation
import ClustlyEscrow.Guarantees.Authority
import ClustlyEscrow.Guarantees.Windows
import ClustlyEscrow.Guarantees.Solvency
import ClustlyEscrow.Guarantees.Distribution
import ClustlyEscrow.Guarantees.Mint
import ClustlyEscrow.Guarantees.Payoff
import ClustlyEscrow.Guarantees.Escape
import ClustlyEscrow.Guarantees.Cranks
import ClustlyEscrow.Guarantees.Deal
import ClustlyEscrow.Guarantees.Lifecycle
import ClustlyEscrow.Guarantees.Terms
import ClustlyEscrow.Guarantees.Verdict
import ClustlyEscrow.Guarantees.Maturity
import ClustlyEscrow.Guarantees.Payable
import ClustlyEscrow.Guarantees.Veto
import ClustlyEscrow.Guarantees.FeeVault
import ClustlyEscrow.Foundations.Lockstep
import ClustlyEscrow.Simulation.Change
import ClustlyEscrow.Simulation.Twin
import ClustlyEscrow.Guarantees.Commute
import ClustlyEscrow.Foundations.Surplus
import ClustlyEscrow.Simulation.Donated
import ClustlyEscrow.Guarantees.Donation
import ClustlyEscrow.Guarantees.Submission
import ClustlyEscrow.Guarantees.Deposit
import ClustlyEscrow.Guarantees.Permissionless
import ClustlyEscrow.Guarantees.Arithmetic
import ClustlyEscrow.Guarantees.PayoutMath
import ClustlyEscrow.Foundations.Footprint
import ClustlyEscrow.Foundations.BankFootprint
import ClustlyEscrow.Foundations.Codec
import ClustlyEscrow.Foundations.Coins
import ClustlyEscrow.Program.Layout
import ClustlyEscrow.Program.Rent
import ClustlyEscrow.Program.Transaction
import ClustlyEscrow.Program.Wire
import ClustlyEscrow.Program.Runtime
import ClustlyEscrow.Effects.Spaces
import ClustlyEscrow.Simulation.Footprint
import ClustlyEscrow.Guarantees.Parallel
import ClustlyEscrow.Guarantees.Rent
import ClustlyEscrow.Simulation.Storage
import ClustlyEscrow.Guarantees.Wire
import ClustlyEscrow.Guarantees.Collateral
import ClustlyEscrow.Guarantees.Lifespan
import ClustlyEscrow.Guarantees.Worker
import ClustlyEscrow.Guarantees.Renounced
import ClustlyEscrow.Guarantees.Race
import ClustlyEscrow.Guarantees.Journal
import ClustlyEscrow.Guarantees.CallOff
import ClustlyEscrow.Guarantees.Retry
