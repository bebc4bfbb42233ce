import ClustlyEscrow.Foundations.Coins
import ClustlyEscrow.Program.Entrypoint
import ClustlyEscrow.Program.Layout

/-!
# Rent

An account exists on chain as long as it holds lamports, and the runtime asks
for a reserve that grows with the size of its data. `init` and `init_if_needed`
let the payer top an account up to that reserve; `close` and the closing of a
token account hand everything the account holds to a receiver. The runtime also
refuses to leave a wallet between zero and the reserve of an empty account; that
check is left out, so more goes through here than on chain.
-/
namespace ClustlyEscrow
open Foundations

def tokenAccountSize : ℕ := 165
def mintSize : ℕ := 82

/-- The reserve by the size of the data, `Rent::minimum_balance`. -/
structure Rent where
  minimumBalance : ℕ → ℕ
  pos (space : ℕ) : 0 < minimumBalance space

structure Chain where
  state : State
  lamports : Coins Pubkey

inductive ChainError
  | program (e : Error)
  | notSigner
  | carriesData
  | insufficientLamports
  | ownReceiver
  deriving DecidableEq, Repr

def Chain.lift {α : Type} : Result α → Except ChainError α
  | .ok a => .ok a
  | .error e => .error (.program e)

@[simp] theorem Chain.lift_eq_ok {α : Type} {x : Result α} {a : α} :
    Chain.lift x = .ok a ↔ x = .ok a := by
  cases x <;> simp [Chain.lift]

/-- An account without data: neither a token account nor a mint. -/
def State.Plain (s : State) (k : Pubkey) : Prop := s.tokens.holder k = none ∧ k ∉ s.tokens.mints

instance (s : State) (k : Pubkey) : Decidable (s.Plain k) :=
  inferInstanceAs (Decidable (_ ∧ _))

/-- The checks on the account that lamports are taken from. -/
def payable (s : State) (lamports : Coins Pubkey) (source : Pubkey) (amount : ℕ) :
    Except ChainError Unit := do
  require (source.canSign = true) .notSigner
  require (s.Plain source) .carriesData
  require (amount ≤ lamports source) .insufficientLamports

/-- `system_program::transfer`. -/
def systemTransfer (s : State) (lamports : Coins Pubkey) (source dest : Pubkey) (amount : ℕ) :
    Except ChainError (Coins Pubkey) := do
  payable s lamports source amount
  return lamports.move source dest amount

inductive RentOp
  | create (payer account : Pubkey) (space : ℕ)
  | close (account receiver : Pubkey)
  deriving DecidableEq, Repr

def RentOp.process (rent : Rent) (s : State) (lamports : Coins Pubkey) :
    RentOp → Except ChainError (Coins Pubkey)
  | .create payer account space => do
    let missing := rent.minimumBalance space - lamports account
    -- Lamports that somebody sent to the address before count.
    if missing = 0 then
      return lamports
    else
      require (payer ≠ account) .ownReceiver
      systemTransfer s lamports payer account missing
  | .close account receiver => do
    require (account ≠ receiver) .ownReceiver
    return lamports.move account receiver (lamports account)

/-- The accounts that an instruction creates and closes, in order. -/
def Instruction.rentOps (s : State) : Instruction → List RentOp
  | .initializeConfig a _ _ =>
    [.create a.payer a.config (discriminatorSize + EscrowConfig.size),
      .create a.payer a.feeVault tokenAccountSize]
  | .initializeTask a _ _ _ _ _ =>
    [.create a.poster a.task (discriminatorSize + EscrowTask.size),
      .create a.poster a.taskVault tokenAccountSize]
  | .cancelBeforeEnroll a => [.close a.taskVault a.poster, .close a.task a.poster]
  | .closeTask a => [.close a.taskVault a.poster]
  | .autoCancelTask a => [.close a.taskVault a.poster]
  | .enroll a _ =>
    .create a.claimer a.claim (discriminatorSize + EscrowClaim.size) ::
      if s.tokens.holder a.claimerAta = none then
        [.create a.claimer a.claimerAta tokenAccountSize]
      else []
  | _ => []

/-- The same for the token programs; the party pays for what is created and
receives what is closed. -/
def TokenOp.rentOps (party : Pubkey) : TokenOp → List RentOp
  | .createMint mint => [.create party mint mintSize]
  | .createAccount account _ _ => [.create party account tokenAccountSize]
  | .createAta owner mint => [.create party (.ata owner mint) tokenAccountSize]
  | .closeAccount _ account => [.close account party]
  | _ => []

def runRentOps (rent : Rent) (s : State) (lamports : Coins Pubkey) (ops : List RentOp) :
    Except ChainError (Coins Pubkey) :=
  ops.foldlM (RentOp.process rent s) lamports

def Instruction.processChain (rent : Rent) (now : I64) (ix : Instruction) (c : Chain) :
    Except ChainError (Chain × List Transfer) := do
  let (state, transfers) ← Chain.lift (ix.process c.state now)
  let lamports ← runRentOps rent c.state c.lamports (ix.rentOps c.state)
  return (⟨state, lamports⟩, transfers)

/-- What happens on a chain: instructions, token operations of others, lamports
sent around, and fees of the network. -/
inductive ChainLabel
  | instr (now : I64) (ix : Instruction)
  | token (op : TokenOp) (party : Pubkey)
  | send (source dest : Pubkey) (amount : ℕ)
  | fee (payer : Pubkey) (amount : ℕ)

def Chain.exec (rent : Rent) (c : Chain) :
    ChainLabel → Except ChainError (Chain × List Transfer)
  | .instr now ix => ix.processChain rent now c
  | .token op party => do
    let tokens ← Chain.lift (op.process c.state.tokens)
    let lamports ← runRentOps rent c.state c.lamports (op.rentOps party)
    return (⟨{ c.state with tokens }, lamports⟩, [])
  | .send source dest amount => do
    let lamports ← systemTransfer c.state c.lamports source dest amount
    return (⟨c.state, lamports⟩, [])
  | .fee payer amount => do
    payable c.state c.lamports payer amount
    return (⟨c.state, c.lamports.burn payer amount⟩, [])

abbrev ChainEvent := Event Chain ChainLabel (List Transfer)
abbrev ChainHistory := List ChainEvent

/-- A run of the program and its environment with the lamports of all addresses. -/
abbrev ChainRuns (rent : Rent) (c₀ : Chain) (h : ChainHistory) (c : Chain) : Prop :=
  Run (Accepts (Chain.exec rent)) c₀ h c

/-- Any distribution of lamports may be there before the program is set up. -/
def ChainReaches (rent : Rent) (h : ChainHistory) (c : Chain) : Prop :=
  ∃ lamports, ChainRuns rent ⟨.genesis, lamports⟩ h c

section Rules
variable {rent : Rent} {s : State} {lamports lamports' : Coins Pubkey} {c c' : Chain}
  {source dest payer account receiver : Pubkey} {amount space : ℕ} {u : Unit} {now : I64}
  {ix : Instruction} {op : TokenOp} {out : List Transfer}

@[simp] theorem payable_eq_ok : payable s lamports source amount = .ok u ↔
    source.canSign = true ∧ s.Plain source ∧ amount ≤ lamports source := by
  simp [payable]

@[simp] theorem systemTransfer_eq_ok :
    systemTransfer s lamports source dest amount = .ok lamports' ↔
      (source.canSign = true ∧ s.Plain source ∧ amount ≤ lamports source) ∧
        lamports.move source dest amount = lamports' := by
  simp only [systemTransfer, seq_eq_ok, payable_eq_ok, return_eq_ok, exists_const]

/-- Creating an account leaves it with the reserve, at the cost of the payer. -/
theorem create_eq_ok :
    (RentOp.create payer account space).process rent s lamports = .ok lamports' ↔
      rent.minimumBalance space ≤ lamports account ∧ lamports' = lamports ∨
        lamports account < rent.minimumBalance space ∧ payer ≠ account ∧
          systemTransfer s lamports payer account
            (rent.minimumBalance space - lamports account) = .ok lamports' := by
  simp only [RentOp.process]
  split_ifs with hmissing
  · have hle : rent.minimumBalance space ≤ lamports account := by omega
    rw [return_eq_ok]
    simp only [hle, hle.not_gt, true_and, false_and, or_false, eq_comm]
  · have hlt : lamports account < rent.minimumBalance space := by omega
    simp only [seq_eq_ok, require_eq_ok, exists_const, hlt, hlt.not_ge, true_and, false_and,
      false_or]

theorem close_eq_ok : (RentOp.close account receiver).process rent s lamports = .ok lamports' ↔
    account ≠ receiver ∧ lamports.move account receiver (lamports account) = lamports' := by
  simp only [RentOp.process, seq_eq_ok, require_eq_ok, return_eq_ok, exists_const]

@[simp] theorem runRentOps_nil :
    runRentOps rent s lamports [] = .ok lamports' ↔ lamports = lamports' :=
  return_eq_ok _ _

@[simp] theorem runRentOps_cons {o : RentOp} {ops : List RentOp} :
    runRentOps rent s lamports (o :: ops) = .ok lamports' ↔
      ∃ mid, o.process rent s lamports = .ok mid ∧ runRentOps rent s mid ops = .ok lamports' := by
  simp only [runRentOps, List.foldlM_cons, seq_eq_ok]

theorem processChain_eq_ok : ix.processChain rent now c = .ok (c', out) ↔
    ix.process c.state now = .ok (c'.state, out) ∧
      runRentOps rent c.state c.lamports (ix.rentOps c.state) = .ok c'.lamports := by
  simp only [Instruction.processChain, seq_eq_ok, Chain.lift_eq_ok, return_eq_ok, Prod.mk.injEq]
  constructor
  · rintro ⟨_, hix, _, hrent, rfl, rfl⟩
    exact ⟨hix, hrent⟩
  · rintro ⟨hix, hrent⟩
    exact ⟨_, hix, _, hrent, rfl, rfl⟩

end Rules
end ClustlyEscrow
