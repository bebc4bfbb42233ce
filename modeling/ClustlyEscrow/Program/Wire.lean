import ClustlyEscrow.Program.Layout
import ClustlyEscrow.Program.Transaction

/-!
# The entry point

A call of the program is a string of bytes and a list of accounts. The first
eight bytes, of the SHA-256 hash of `global:` and the name of an instruction,
choose the handler; its arguments follow. The accounts are taken in the order of
the account struct, with the flags that it asks for; the programs and the sysvar
that the handler calls or reads come last and have fixed addresses. What follows
the arguments or the accounts is ignored.
-/
namespace ClustlyEscrow
open Foundations

inductive InstructionName
  | initializeConfig
  | updateAdmin
  | updateFee
  | updateMint
  | initializeTask
  | cancelBeforeEnroll
  | closeTask
  | autoCancelTask
  | enroll
  | submit
  | approveClaim
  | rejectClaim
  | autoApprove
  | openDispute
  | resolveDispute
  | autoResolveDispute
  | withdrawFees
  deriving DecidableEq, Repr

namespace InstructionName

def all : List InstructionName :=
  [.initializeConfig, .updateAdmin, .updateFee, .updateMint, .initializeTask,
    .cancelBeforeEnroll, .closeTask, .autoCancelTask, .enroll, .submit, .approveClaim,
    .rejectClaim, .autoApprove, .openDispute, .resolveDispute, .autoResolveDispute,
    .withdrawFees]

def discriminator : InstructionName → Bytes
  | .initializeConfig => [208, 127, 21, 1, 194, 190, 196, 70]
  | .updateAdmin => [161, 176, 40, 213, 60, 184, 179, 228]
  | .updateFee => [232, 253, 195, 247, 148, 212, 73, 222]
  | .updateMint => [212, 203, 57, 78, 75, 245, 222, 5]
  | .initializeTask => [96, 206, 3, 20, 245, 167, 60, 125]
  | .cancelBeforeEnroll => [102, 56, 227, 141, 117, 80, 44, 48]
  | .closeTask => [55, 234, 77, 69, 245, 208, 54, 167]
  | .autoCancelTask => [101, 44, 222, 54, 149, 110, 159, 107]
  | .enroll => [58, 12, 36, 3, 142, 28, 1, 43]
  | .submit => [88, 166, 102, 181, 162, 127, 170, 48]
  | .approveClaim => [74, 228, 211, 63, 140, 255, 69, 210]
  | .rejectClaim => [238, 185, 227, 8, 51, 188, 35, 182]
  | .autoApprove => [36, 58, 85, 199, 138, 197, 222, 178]
  | .openDispute => [137, 25, 99, 119, 23, 223, 161, 42]
  | .resolveDispute => [231, 6, 202, 6, 96, 103, 12, 230]
  | .autoResolveDispute => [145, 254, 222, 128, 182, 85, 88, 124]
  | .withdrawFees => [198, 212, 171, 109, 144, 215, 174, 89]

def ofDiscriminator (tag : Bytes) : Option InstructionName :=
  all.find? fun n => n.discriminator = tag

theorem length_discriminator (n : InstructionName) :
    n.discriminator.length = discriminatorSize := by
  cases n <;> rfl

theorem ofDiscriminator_eq_some {tag : Bytes} {n : InstructionName} :
    ofDiscriminator tag = some n ↔ tag = n.discriminator := by
  constructor
  · intro h
    have htag : n.discriminator = tag := by
      simpa using List.find?_some h
    exact htag.symm
  · rintro rfl
    cases n <;> decide

/-- The accounts of an instruction, as its struct lists them. -/
def Accounts : InstructionName → Type
  | .initializeConfig => InitializeConfig
  | .updateAdmin => UpdateAdmin
  | .updateFee => UpdateFee
  | .updateMint => UpdateMint
  | .initializeTask => InitializeTask
  | .cancelBeforeEnroll => CancelBeforeEnroll
  | .closeTask => CloseTask
  | .autoCancelTask => AutoCancelTask
  | .enroll => Enroll
  | .submit => Submit
  | .approveClaim => ApproveClaim
  | .rejectClaim => RejectClaim
  | .autoApprove => AutoApprove
  | .openDispute => OpenDispute
  | .resolveDispute => ResolveDispute
  | .autoResolveDispute => AutoResolveDispute
  | .withdrawFees => WithdrawFees

def Arguments : InstructionName → Type
  | .initializeConfig => Pubkey × U16
  | .updateAdmin => Pubkey
  | .updateFee => U16
  | .initializeTask => BitVec 128 × U64 × U16 × U32 × I64
  | .enroll => BitVec 128
  | .submit => BitVec 256
  | .resolveDispute => DisputeFavor
  | .withdrawFees => U64
  | _ => Unit

/-- The accounts at the front of the struct; `statics` has the programs and the
sysvar that come after them. -/
def accounts? : (n : InstructionName) → List Pubkey → Option n.Accounts
  | .initializeConfig, payer :: config :: usdcMint :: feeVault :: _ =>
    some (⟨payer, config, usdcMint, feeVault⟩ : InitializeConfig)
  | .updateAdmin, config :: admin :: _ => some (⟨config, admin⟩ : UpdateConfig)
  | .updateFee, config :: admin :: _ => some (⟨config, admin⟩ : UpdateConfig)
  | .updateMint, config :: newMint :: admin :: _ =>
    some (⟨⟨config, admin⟩, newMint⟩ : UpdateMint)
  | .initializeTask, poster :: config :: usdcMint :: task :: taskVault :: posterAta :: _ =>
    some (⟨poster, config, usdcMint, task, taskVault, posterAta⟩ : InitializeTask)
  | .cancelBeforeEnroll, poster :: config :: task :: taskVault :: posterAta :: _ =>
    some (⟨poster, config, task, taskVault, posterAta⟩ : CancelBeforeEnroll)
  | .closeTask, caller :: config :: task :: taskVault :: posterAta :: poster :: _ =>
    some (⟨caller, config, task, taskVault, posterAta, poster⟩ : CloseTask)
  | .autoCancelTask, caller :: config :: task :: taskVault :: posterAta :: poster :: _ =>
    some (⟨caller, config, task, taskVault, posterAta, poster⟩ : CloseTask)
  | .enroll, claimer :: config :: usdcMint :: task :: claim :: claimerAta :: _ =>
    some (⟨claimer, config, usdcMint, task, claim, claimerAta⟩ : Enroll)
  | .submit, claimer :: task :: claim :: _ => some (⟨claimer, task, claim⟩ : ClaimerAccounts)
  | .approveClaim, poster :: config :: usdcMint :: task :: claim :: taskVault :: claimerAta ::
      claimer :: feeVault :: _ =>
    some (⟨⟨config, usdcMint, task, claim, taskVault, claimerAta, claimer, feeVault⟩, poster⟩ :
      ApproveClaim)
  | .rejectClaim, poster :: config :: task :: claim :: taskVault :: posterAta :: _ =>
    some (⟨poster, config, task, claim, taskVault, posterAta⟩ : RejectClaim)
  | .autoApprove, caller :: config :: usdcMint :: task :: claim :: taskVault :: claimerAta ::
      claimer :: feeVault :: _ =>
    some (⟨⟨config, usdcMint, task, claim, taskVault, claimerAta, claimer, feeVault⟩, caller⟩ :
      AutoApprove)
  | .openDispute, claimer :: task :: claim :: _ =>
    some (⟨claimer, task, claim⟩ : ClaimerAccounts)
  | .resolveDispute, admin :: config :: usdcMint :: task :: claim :: taskVault :: claimer ::
      claimerAta :: posterAta :: feeVault :: _ =>
    some (⟨⟨config, usdcMint, task, claim, taskVault, claimerAta, claimer, feeVault⟩, admin,
      posterAta⟩ : ResolveDispute)
  | .autoResolveDispute, caller :: config :: usdcMint :: task :: claim :: taskVault :: claimer ::
      claimerAta :: feeVault :: _ =>
    some (⟨⟨config, usdcMint, task, claim, taskVault, claimerAta, claimer, feeVault⟩, caller⟩ :
      AutoResolveDispute)
  | .withdrawFees, admin :: config :: feeVault :: destination :: usdcMint :: _ =>
    some (⟨admin, config, feeVault, destination, usdcMint⟩ : WithdrawFees)
  | _, _ => none

/-- The instruction with these accounts and arguments. -/
def make : (n : InstructionName) → n.Accounts → n.Arguments → Instruction
  | .initializeConfig, a, (admin, feeBps) => .initializeConfig a admin feeBps
  | .updateAdmin, a, newAdmin => .updateAdmin a newAdmin
  | .updateFee, a, newFeeBps => .updateFee a newFeeBps
  | .updateMint, a, _ => .updateMint a
  | .initializeTask, a, (taskId, bounty, maxSlots, claimDeadlineSecs, taskDeadlineTs) =>
    .initializeTask a taskId bounty maxSlots claimDeadlineSecs taskDeadlineTs
  | .cancelBeforeEnroll, a, _ => .cancelBeforeEnroll a
  | .closeTask, a, _ => .closeTask a
  | .autoCancelTask, a, _ => .autoCancelTask a
  | .enroll, a, claimId => .enroll a claimId
  | .submit, a, deliverableHash => .submit a deliverableHash
  | .approveClaim, a, _ => .approveClaim a
  | .rejectClaim, a, _ => .rejectClaim a
  | .autoApprove, a, _ => .autoApprove a
  | .openDispute, a, _ => .openDispute a
  | .resolveDispute, a, favor => .resolveDispute a favor
  | .autoResolveDispute, a, _ => .autoResolveDispute a
  | .withdrawFees, a, amount => .withdrawFees a amount

end InstructionName

namespace Instruction

def name : Instruction → InstructionName
  | .initializeConfig _ _ _ => .initializeConfig
  | .updateAdmin _ _ => .updateAdmin
  | .updateFee _ _ => .updateFee
  | .updateMint _ => .updateMint
  | .initializeTask _ _ _ _ _ _ => .initializeTask
  | .cancelBeforeEnroll _ => .cancelBeforeEnroll
  | .closeTask _ => .closeTask
  | .autoCancelTask _ => .autoCancelTask
  | .enroll _ _ => .enroll
  | .submit _ _ => .submit
  | .approveClaim _ => .approveClaim
  | .rejectClaim _ => .rejectClaim
  | .autoApprove _ => .autoApprove
  | .openDispute _ => .openDispute
  | .resolveDispute _ _ => .resolveDispute
  | .autoResolveDispute _ => .autoResolveDispute
  | .withdrawFees _ _ => .withdrawFees

def arguments : (ix : Instruction) → ix.name.Arguments
  | .initializeConfig _ admin feeBps => (admin, feeBps)
  | .updateAdmin _ newAdmin => newAdmin
  | .updateFee _ newFeeBps => newFeeBps
  | .updateMint _ => ()
  | .initializeTask _ taskId bounty maxSlots claimDeadlineSecs taskDeadlineTs =>
    (taskId, bounty, maxSlots, claimDeadlineSecs, taskDeadlineTs)
  | .cancelBeforeEnroll _ => ()
  | .closeTask _ => ()
  | .autoCancelTask _ => ()
  | .enroll _ claimId => claimId
  | .submit _ deliverableHash => deliverableHash
  | .approveClaim _ => ()
  | .rejectClaim _ => ()
  | .autoApprove _ => ()
  | .openDispute _ => ()
  | .resolveDispute _ favor => favor
  | .autoResolveDispute _ => ()
  | .withdrawFees _ amount => amount

def keys (ix : Instruction) : List Pubkey := ix.accounts.map AccountMeta.pubkey

/-- The addresses among the arguments. -/
def argumentKeys : Instruction → List Pubkey
  | .initializeConfig _ admin _ => [admin]
  | .updateAdmin _ newAdmin => [newAdmin]
  | _ => []

/-- Every address that a call mentions. -/
def addresses (ix : Instruction) : List Pubkey := ix.keys ++ ix.argumentKeys

end Instruction

/-! ## Arguments as bytes -/

namespace Codec
open Foundations.Codec

def instant : Foundations.Codec I64 :=
  i64.refine (fun t => if ht : InI64 t then some ⟨t, ht⟩ else none) Subtype.val (fun _ => True)
    (fun t _ => ⟨t.property, dif_pos t.property⟩)
    (fun t t' _ hread => by
      split_ifs at hread
      cases hread
      exact ⟨trivial, rfl⟩)

def favor : Foundations.Codec DisputeFavor :=
  (uint 1).refine (fun | 0 => some .deliverer | 1 => some .poster | _ => none)
    (fun | .deliverer => 0 | .poster => 1) (fun _ => True)
    (fun f _ => by
      change _ < 256 ^ 1 ∧ _
      cases f <;> simp)
    (fun n f _ hread => by
      refine ⟨trivial, ?_⟩
      split at hread
      all_goals cases hread
      all_goals rfl)

end Codec

namespace AddressBook
variable (book : AddressBook)
open Foundations.Codec

def arguments : (n : InstructionName) → Foundations.Codec n.Arguments
  | .initializeConfig => book.pubkey.prod (word 2)
  | .updateAdmin => book.pubkey
  | .updateFee => word 2
  | .initializeTask =>
    (blob 16).prod <| (word 8).prod <| (word 2).prod <| (word 4).prod Codec.instant
  | .enroll => blob 16
  | .submit => blob 32
  | .resolveDispute => Codec.favor
  | .withdrawFees => word 8
  | .updateMint => unit
  | .cancelBeforeEnroll => unit
  | .closeTask => unit
  | .autoCancelTask => unit
  | .approveClaim => unit
  | .rejectClaim => unit
  | .autoApprove => unit
  | .openDispute => unit
  | .autoResolveDispute => unit

/-- The data of a call. -/
def encode (ix : Instruction) : Bytes :=
  ix.name.discriminator ++ (book.arguments ix.name).encode ix.arguments

end AddressBook

/-! ## Accounts as they are passed -/

/-- An account in the list of a call, as far as the entry point looks at it. -/
structure AccountInfo where
  key : BitVec 256
  isSigner : Bool
  isWritable : Bool
  deriving DecidableEq, Repr

inductive EntryError
  | instructionFallbackNotFound
  /-- Not an error: the call is for Anchor's own instructions. -/
  | idlInstruction
  | instructionDidNotDeserialize
  | accountNotEnoughKeys
  | accountNotSigner
  | constraintMut
  | invalidProgramId
  | accountSysvarMismatch
  deriving DecidableEq, Repr

/-- The programs and the sysvar, under their names in the account structs. -/
inductive StaticAccount
  | systemProgram
  | tokenProgram
  | associatedTokenProgram
  | rent
  deriving DecidableEq, Repr

namespace StaticAccount

def id : StaticAccount → Bytes
  | .systemProgram =>
    [0, 0, 0, 0, 0, 0, 0, 0, 0, 0, 0, 0, 0, 0, 0, 0, 0, 0, 0, 0, 0, 0, 0, 0, 0, 0, 0, 0, 0, 0, 0, 0]
  | .tokenProgram =>
    [6, 221, 246, 225, 215, 101, 161, 147, 217, 203, 225, 70, 206, 235, 121, 172, 28, 180, 133,
      237, 95, 91, 55, 145, 58, 140, 245, 133, 126, 255, 0, 169]
  | .associatedTokenProgram =>
    [140, 151, 37, 143, 78, 36, 137, 241, 187, 61, 16, 41, 20, 142, 13, 131, 11, 90, 19, 153, 218,
      255, 16, 132, 4, 142, 123, 216, 219, 233, 248, 89]
  | .rent =>
    [6, 167, 213, 23, 25, 44, 92, 81, 33, 140, 201, 76, 61, 74, 241, 127, 88, 218, 238, 8, 155,
      161, 253, 68, 227, 219, 217, 138, 0, 0, 0, 0]

def mismatch : StaticAccount → EntryError
  | .rent => .accountSysvarMismatch
  | _ => .invalidProgramId

/-- The account is the program or the sysvar. -/
def Is (p : StaticAccount) (info : AccountInfo) : Prop :=
  (Foundations.Codec.blob 32).encode info.key = p.id

instance (p : StaticAccount) (info : AccountInfo) : Decidable (p.Is info) :=
  inferInstanceAs (Decidable (_ = _))

def check (p : StaticAccount) (info : AccountInfo) : Except EntryError Unit :=
  require (p.Is info) p.mismatch

end StaticAccount

/-- What comes last in the account struct of an instruction. -/
def InstructionName.statics : InstructionName → List StaticAccount
  | .initializeConfig => [.systemProgram, .tokenProgram, .associatedTokenProgram, .rent]
  | .initializeTask => [.systemProgram, .tokenProgram, .associatedTokenProgram, .rent]
  | .enroll => [.systemProgram, .tokenProgram, .associatedTokenProgram, .rent]
  | .updateAdmin => []
  | .updateFee => []
  | .updateMint => []
  | .submit => []
  | .openDispute => []
  | .cancelBeforeEnroll => [.tokenProgram]
  | .closeTask => [.tokenProgram]
  | .autoCancelTask => [.tokenProgram]
  | .approveClaim => [.tokenProgram]
  | .rejectClaim => [.tokenProgram]
  | .autoApprove => [.tokenProgram]
  | .resolveDispute => [.tokenProgram]
  | .autoResolveDispute => [.tokenProgram]
  | .withdrawFees => [.tokenProgram]

/-- `Signer` and `#[account(mut)]`. -/
def AccountMeta.check (m : AccountMeta) (info : AccountInfo) : Except EntryError Unit := do
  require (m.isSigner = true → info.isSigner = true) .accountNotSigner
  require (m.isWritable = true → info.isWritable = true) .constraintMut

/-- The tag of the instructions with which Anchor keeps the interface description
of a program on chain. -/
def idlTag : Bytes := [64, 244, 188, 120, 167, 233, 105, 10]

/-- What the entry point makes of the data and the accounts of a call. -/
def AddressBook.dispatch (book : AddressBook) (data : Bytes) (infos : List AccountInfo) :
    Except EntryError Instruction := do
  let tag := data.take discriminatorSize
  let name ← okOr (InstructionName.ofDiscriminator tag)
    (if tag = idlTag then .idlInstruction else .instructionFallbackNotFound)
  let (arguments, _) ← okOr ((book.arguments name).decode (data.drop discriminatorSize))
    .instructionDidNotDeserialize
  let accounts ← okOr (name.accounts? (infos.map fun info => book.name info.key))
    .accountNotEnoughKeys
  let ix := name.make accounts arguments
  let rest ← checkFront AccountMeta.check .accountNotEnoughKeys ix.accounts infos
  let _ ← checkFront StaticAccount.check .accountNotEnoughKeys name.statics rest
  return ix

end ClustlyEscrow
