import ClustlyEscrow.Foundations.Run
import ClustlyEscrow.Program.Config
import ClustlyEscrow.Program.Dispute
import ClustlyEscrow.Program.Task

/-!
# The program and its environment

A label is one instruction with the clock it reads, or one operation of the
token programs that somebody outside performs. The authority of an outside
operation must be able to sign, which no derived address can.
-/
namespace ClustlyEscrow
open Foundations

inductive Instruction
  | initializeConfig (a : InitializeConfig) (admin : Pubkey) (feeBps : U16)
  | updateAdmin (a : UpdateAdmin) (newAdmin : Pubkey)
  | updateFee (a : UpdateFee) (newFeeBps : U16)
  | updateMint (a : UpdateMint)
  | initializeTask (a : InitializeTask) (taskId : BitVec 128) (bounty : U64) (maxSlots : U16)
      (claimDeadlineSecs : U32) (taskDeadlineTs : I64)
  | cancelBeforeEnroll (a : CancelBeforeEnroll)
  | closeTask (a : CloseTask)
  | autoCancelTask (a : AutoCancelTask)
  | enroll (a : Enroll) (claimId : BitVec 128)
  | submit (a : Submit) (deliverableHash : BitVec 256)
  | approveClaim (a : ApproveClaim)
  | rejectClaim (a : RejectClaim)
  | autoApprove (a : AutoApprove)
  | openDispute (a : OpenDispute)
  | resolveDispute (a : ResolveDispute) (favor : DisputeFavor)
  | autoResolveDispute (a : AutoResolveDispute)
  | withdrawFees (a : WithdrawFees) (amount : U64)

namespace Instruction

def process (s : State) (now : I64) : Instruction → Result (State × List Transfer)
  | .initializeConfig a admin feeBps => ClustlyEscrow.initializeConfig s a admin feeBps
  | .updateAdmin a newAdmin => ClustlyEscrow.updateAdmin s a newAdmin
  | .updateFee a newFeeBps => ClustlyEscrow.updateFee s a newFeeBps
  | .updateMint a => ClustlyEscrow.updateMint s a
  | .initializeTask a taskId bounty maxSlots claimDeadlineSecs taskDeadlineTs =>
    ClustlyEscrow.initializeTask s a taskId bounty maxSlots claimDeadlineSecs taskDeadlineTs
  | .cancelBeforeEnroll a => ClustlyEscrow.cancelBeforeEnroll s a
  | .closeTask a => ClustlyEscrow.closeTask s now a
  | .autoCancelTask a => ClustlyEscrow.autoCancelTask s now a
  | .enroll a claimId => ClustlyEscrow.enroll s now a claimId
  | .submit a deliverableHash => ClustlyEscrow.submit s now a deliverableHash
  | .approveClaim a => ClustlyEscrow.approveClaim s a
  | .rejectClaim a => ClustlyEscrow.rejectClaim s a
  | .autoApprove a => ClustlyEscrow.autoApprove s now a
  | .openDispute a => ClustlyEscrow.openDispute s now a
  | .resolveDispute a favor => ClustlyEscrow.resolveDispute s a favor
  | .autoResolveDispute a => ClustlyEscrow.autoResolveDispute s now a
  | .withdrawFees a amount => ClustlyEscrow.withdrawFees s a amount

/-- The signer that the account struct asks for. -/
def signedBy : Instruction → Pubkey
  | .initializeConfig a _ _ => a.payer
  | .updateAdmin a _ => a.admin
  | .updateFee a _ => a.admin
  | .updateMint a => a.admin
  | .initializeTask a _ _ _ _ _ => a.poster
  | .cancelBeforeEnroll a => a.poster
  | .closeTask a => a.caller
  | .autoCancelTask a => a.caller
  | .enroll a _ => a.claimer
  | .submit a _ => a.claimer
  | .approveClaim a => a.poster
  | .rejectClaim a => a.poster
  | .autoApprove a => a.caller
  | .openDispute a => a.claimer
  | .resolveDispute a _ => a.admin
  | .autoResolveDispute a => a.caller
  | .withdrawFees a _ => a.admin

/-- The task account an instruction names. -/
def task? : Instruction → Option Pubkey
  | .initializeTask a _ _ _ _ _ => some a.task
  | .cancelBeforeEnroll a => some a.task
  | .closeTask a => some a.task
  | .autoCancelTask a => some a.task
  | .enroll a _ => some a.task
  | .submit a _ => some a.task
  | .approveClaim a => some a.task
  | .rejectClaim a => some a.task
  | .autoApprove a => some a.task
  | .openDispute a => some a.task
  | .resolveDispute a _ => some a.task
  | .autoResolveDispute a => some a.task
  | _ => none

/-- The claim account an instruction names. -/
def claim? : Instruction → Option Pubkey
  | .enroll a _ => some a.claim
  | .submit a _ => some a.claim
  | .approveClaim a => some a.claim
  | .rejectClaim a => some a.claim
  | .autoApprove a => some a.claim
  | .openDispute a => some a.claim
  | .resolveDispute a _ => some a.claim
  | .autoResolveDispute a => some a.claim
  | _ => none

/-- The instructions that can move the bounty of one claim. -/
def settles : Instruction → Bool
  | .approveClaim _ | .rejectClaim _ | .autoApprove _ => true
  | .resolveDispute _ _ | .autoResolveDispute _ => true
  | _ => false

/-- The task that an instruction winds up. -/
def ends? : Instruction → Option Pubkey
  | .cancelBeforeEnroll a => some a.task
  | .closeTask a => some a.task
  | .autoCancelTask a => some a.task
  | _ => none

end Instruction

/-- What anybody can do with the token programs. -/
inductive TokenOp
  | createMint (mint : Pubkey)
  | createAccount (account owner mint : Pubkey)
  | createAta (owner mint : Pubkey)
  | transfer (authority source dest : Pubkey) (amount : U64)
  | mintTo (dest : Pubkey) (amount : U64)
  | closeAccount (authority account : Pubkey)
  | setOwner (authority account newOwner : Pubkey)

def TokenOp.process (b : Bank Pubkey) : TokenOp → Result (Bank Pubkey)
  | .createMint mint => do
    signer mint
    Cpi.lift (b.createMint mint)
  | .createAccount account owner mint => do
    signer account
    Cpi.lift (b.openAccount account owner mint)
  | .createAta owner mint => Cpi.lift (b.openAccount (.ata owner mint) owner mint)
  | .transfer authority source dest amount => do
    signer authority
    Cpi.lift (b.transfer authority source dest amount)
  | .mintTo dest amount => Cpi.lift (b.mintTo dest amount)
  | .closeAccount authority account => do
    signer authority
    Cpi.lift (b.closeAccount authority account)
  | .setOwner authority account newOwner => do
    signer authority
    Cpi.lift (b.setOwner authority account newOwner)

inductive Label
  | instr (now : I64) (ix : Instruction)
  | token (op : TokenOp)

/-- One step; the output lists the transfers an instruction made. -/
def exec (s : State) : Label → Result (State × List Transfer)
  | .instr now ix => ix.process s now
  | .token op => do
    let tokens ← op.process s.tokens
    return ({ s with tokens }, [])

def Label.task? : Label → Option Pubkey
  | .instr _ ix => ix.task?
  | .token _ => none

def Label.claim? : Label → Option Pubkey
  | .instr _ ix => ix.claim?
  | .token _ => none

def Label.signedBy? : Label → Option Pubkey
  | .instr _ ix => some ix.signedBy
  | .token _ => none

/-- The clock that an instruction reads. -/
def Label.clock? : Label → Option I64
  | .instr now _ => some now
  | .token _ => none

def Label.ends? : Label → Option Pubkey
  | .instr _ ix => ix.ends?
  | .token _ => none

def Label.updatesMint : Label → Bool
  | .instr _ (.updateMint _) => true
  | _ => false

abbrev EscrowEvent := Event State Label (List Transfer)
abbrev History := List EscrowEvent

/-- A run of the program and its environment, newest step first. Refused
instructions leave no trace, as they leave the state unchanged. -/
abbrev Runs (s₀ : State) (h : History) (s : State) : Prop := Run (Accepts exec) s₀ h s

end ClustlyEscrow
