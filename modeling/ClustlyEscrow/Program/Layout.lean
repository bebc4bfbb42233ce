import ClustlyEscrow.Foundations.Codec
import ClustlyEscrow.Program.State

/-!
# The bytes of the accounts

An account of the program is a discriminator, the first eight bytes of the
SHA-256 hash of `account:` and the name of its type, and then the fields in the
order of the source. Here stand the fields that the records leave out: bumps,
and reserved bytes for later versions. The program also owns accounts that no
handler has written; they stand at addresses that are not derived.
-/
namespace ClustlyEscrow
open Foundations

def discriminatorSize : ℕ := 8

def EscrowConfig.size : ℕ := 32 + 32 + 2 + 1 + 1 + 64
def EscrowTask.size : ℕ := 16 + 32 + 8 + 2 + 2 + 2 + 2 + 1 + 8 + 4 + 1 + 1 + 32
def EscrowClaim.size : ℕ := 16 + 32 + 32 + 1 + 8 + 8 + 8 + 1 + 32 + 1 + 16

/-- The bytes and the bumps of the symbolic addresses. Every 32 bytes are some
address; the bytes of the derived ones are hashes, of which nothing is known. -/
structure AddressBook where
  bytes : Pubkey → BitVec 256
  name : BitVec 256 → Pubkey
  bytes_name (b : BitVec 256) : bytes (name b) = b
  bump : Pubkey → Fin (2 ^ 8)

namespace AddressBook
variable (book : AddressBook)

/-- The address is the one that its bytes stand for. -/
def Known (k : Pubkey) : Prop := book.name (book.bytes k) = k

def pubkey : Codec Pubkey :=
  (Codec.blob 32).map book.name book.bytes book.Known (fun _ hk => ⟨trivial, hk⟩)
    (fun b _ => ⟨congrArg book.name (book.bytes_name b), book.bytes_name b⟩)

end AddressBook

/-! ## Accounts with all their fields -/

structure ConfigAccount where
  record : EscrowConfig
  bump : Fin (2 ^ 8)
  feeVaultBump : Fin (2 ^ 8)
  reserved : BitVec (8 * 64)

structure TaskAccount where
  record : EscrowTask
  bump : Fin (2 ^ 8)
  vaultBump : Fin (2 ^ 8)
  reserved : BitVec (8 * 32)

structure ClaimAccount where
  record : EscrowClaim
  bump : Fin (2 ^ 8)
  reserved : BitVec (8 * 16)

namespace AddressBook
variable (book : AddressBook)
open Codec

def configFields : Codec ConfigAccount :=
  (book.pubkey.prod <| book.pubkey.prod <| (uint 2).prod <| (word 1).prod <| (word 1).prod <|
    blob 64).record
    (fun (admin, usdcMint, feeBps, bump, feeVaultBump, reserved) =>
      ⟨⟨admin, usdcMint, feeBps⟩, bump, feeVaultBump, reserved⟩)
    (fun a => (a.record.admin, a.record.usdcMint, a.record.feeBps, a.bump, a.feeVaultBump,
      a.reserved))
    (fun _ => rfl) (fun _ => rfl)

def taskFields : Codec TaskAccount :=
  ((blob 16).prod <| book.pubkey.prod <| (uint 8).prod <| (uint 2).prod <| (uint 2).prod <|
    (uint 2).prod <| (uint 2).prod <| (uint 1).prod <| i64.prod <| (uint 4).prod <|
    (word 1).prod <| (word 1).prod <| blob 32).record
    (fun (taskId, poster, bounty, maxSlots, slotsEnrolled, slotsApproved, slotsRefunded, status,
        taskDeadlineTs, claimDeadlineSecs, bump, vaultBump, reserved) =>
      ⟨⟨taskId, poster, bounty, maxSlots, slotsEnrolled, slotsApproved, slotsRefunded, status,
        taskDeadlineTs, claimDeadlineSecs⟩, bump, vaultBump, reserved⟩)
    (fun a => (a.record.taskId, a.record.poster, a.record.bounty, a.record.maxSlots,
      a.record.slotsEnrolled, a.record.slotsApproved, a.record.slotsRefunded, a.record.status,
      a.record.taskDeadlineTs, a.record.claimDeadlineSecs, a.bump, a.vaultBump, a.reserved))
    (fun _ => rfl) (fun _ => rfl)

def claimFields : Codec ClaimAccount :=
  ((blob 16).prod <| book.pubkey.prod <| book.pubkey.prod <| (uint 1).prod <| i64.prod <|
    i64.prod <| i64.prod <| (uint 1).prod <| (blob 32).prod <| (word 1).prod <| blob 16).record
    (fun (claimId, task, claimer, status, enrolledAt, submittedAt, disputedAt, rejections,
        deliverableHash, bump, reserved) =>
      ⟨⟨claimId, task, claimer, status, enrolledAt, submittedAt, disputedAt, rejections,
        deliverableHash⟩, bump, reserved⟩)
    (fun a => (a.record.claimId, a.record.task, a.record.claimer, a.record.status,
      a.record.enrolledAt, a.record.submittedAt, a.record.disputedAt, a.record.rejections,
      a.record.deliverableHash, a.bump, a.reserved))
    (fun _ => rfl) (fun _ => rfl)

end AddressBook

/-! ## Types of accounts -/

inductive AccountName
  | escrowConfig
  | escrowTask
  | escrowClaim
  deriving DecidableEq, Repr

namespace AccountName

def discriminator : AccountName → Bytes
  | .escrowConfig => [138, 174, 227, 187, 239, 148, 1, 44]
  | .escrowTask => [252, 29, 20, 173, 150, 89, 26, 3]
  | .escrowClaim => [110, 90, 48, 123, 222, 17, 71, 1]

def size : AccountName → ℕ
  | .escrowConfig => EscrowConfig.size
  | .escrowTask => EscrowTask.size
  | .escrowClaim => EscrowClaim.size

def Account : AccountName → Type
  | .escrowConfig => ConfigAccount
  | .escrowTask => TaskAccount
  | .escrowClaim => ClaimAccount

/-- The address that the seeds give, from the fields of the account. -/
def address : (n : AccountName) → n.Account → Pubkey
  | .escrowConfig, _ => .configPda
  | .escrowTask, a => .taskPda (TaskAccount.record a).taskId
  | .escrowClaim, a => .claimPda (ClaimAccount.record a).claimId

def bump : (n : AccountName) → n.Account → Fin (2 ^ 8)
  | .escrowConfig, a => ConfigAccount.bump a
  | .escrowTask, a => TaskAccount.bump a
  | .escrowClaim, a => ClaimAccount.bump a

/-- The type whose seeds lead to an address. -/
def ofAddress : Pubkey → Option AccountName
  | .configPda => some .escrowConfig
  | .taskPda _ => some .escrowTask
  | .claimPda _ => some .escrowClaim
  | .key _ | .ata _ _ => none

end AccountName

namespace AddressBook
variable (book : AddressBook)

def configAccount : Codec ConfigAccount :=
  book.configFields.tagged AccountName.escrowConfig.discriminator

def taskAccount : Codec TaskAccount :=
  book.taskFields.tagged AccountName.escrowTask.discriminator

def claimAccount : Codec ClaimAccount :=
  book.claimFields.tagged AccountName.escrowClaim.discriminator

def format : (n : AccountName) → Codec n.Account
  | .escrowConfig => book.configAccount
  | .escrowTask => book.taskAccount
  | .escrowClaim => book.claimAccount

/-! ## The image of a state -/

/-- What `initialize_config` stores beside the record; the fee vault has no bump. -/
def storeConfig (config : EscrowConfig) : ConfigAccount := ⟨config, book.bump .configPda, 0, 0⟩

def storeTask (k : Pubkey) (task : EscrowTask) : TaskAccount := ⟨task, book.bump k, 0, 0⟩

def storeClaim (k : Pubkey) (claim : EscrowClaim) : ClaimAccount := ⟨claim, book.bump k, 0⟩

/-- The account that a state stands for at an address. -/
def stored : (n : AccountName) → State → Pubkey → Option n.Account
  | .escrowConfig, s, _ => s.config.map book.storeConfig
  | .escrowTask, s, k => (s.tasks.get k).map (book.storeTask k)
  | .escrowClaim, s, k => (s.claims.get k).map (book.storeClaim k)

/-- The data of the accounts that the program owns: the records of a state, and
`others` at the addresses that are not derived. -/
def image (s : State) (others : BitVec 256 → Option Bytes) (k : Pubkey) : Option Bytes :=
  match AccountName.ofAddress k, k with
  | some n, _ => (book.stored n s k).map (book.format n).encode
  | none, .key b => others b
  | none, _ => none

end AddressBook
end ClustlyEscrow
