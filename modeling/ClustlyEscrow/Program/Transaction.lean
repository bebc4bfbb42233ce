import ClustlyEscrow.Program.Rent

/-!
# Account lists and transactions

An instruction comes with the list of the accounts it may touch, each with two
flags: whether it signed, and whether it may be written. The lists follow the
account structs of the source up to the programs and the sysvar, which never
change. A transaction runs its instructions in turn, all of
them or none.
-/
namespace ClustlyEscrow
open Foundations

structure AccountMeta where
  pubkey : Pubkey
  isSigner : Bool
  isWritable : Bool
  deriving DecidableEq, Repr

namespace AccountMeta

/-- `#[account(mut)]`. -/
def new (pubkey : Pubkey) (isSigner : Bool) : AccountMeta := ⟨pubkey, isSigner, true⟩

def newReadonly (pubkey : Pubkey) (isSigner : Bool) : AccountMeta := ⟨pubkey, isSigner, false⟩

variable (k : Pubkey) (b : Bool)

@[simp] theorem pubkey_new : (new k b).pubkey = k := rfl
@[simp] theorem pubkey_newReadonly : (newReadonly k b).pubkey = k := rfl
@[simp] theorem isWritable_new : (new k b).isWritable = true := rfl
@[simp] theorem isWritable_newReadonly : (newReadonly k b).isWritable = false := rfl

end AccountMeta

open AccountMeta in
def Instruction.accounts : Instruction → List AccountMeta
  | .initializeConfig a _ _ =>
    [new a.payer true, new a.config false, newReadonly a.usdcMint false, new a.feeVault false]
  | .updateAdmin a _ => [new a.config false, newReadonly a.admin true]
  | .updateFee a _ => [new a.config false, newReadonly a.admin true]
  | .updateMint a =>
    [new a.config false, newReadonly a.newMint false, newReadonly a.admin true]
  | .initializeTask a _ _ _ _ _ =>
    [new a.poster true, newReadonly a.config false, newReadonly a.usdcMint false,
      new a.task false, new a.taskVault false, new a.posterAta false]
  | .cancelBeforeEnroll a =>
    [new a.poster true, newReadonly a.config false, new a.task false, new a.taskVault false,
      new a.posterAta false]
  | .closeTask a =>
    [new a.caller true, newReadonly a.config false, new a.task false, new a.taskVault false,
      new a.posterAta false, new a.poster false]
  | .autoCancelTask a =>
    [new a.caller true, newReadonly a.config false, new a.task false, new a.taskVault false,
      new a.posterAta false, new a.poster false]
  | .enroll a _ =>
    [new a.claimer true, newReadonly a.config false, newReadonly a.usdcMint false,
      new a.task false, new a.claim false, new a.claimerAta false]
  | .submit a _ => [newReadonly a.claimer true, newReadonly a.task false, new a.claim false]
  | .approveClaim a =>
    [new a.poster true, newReadonly a.config false, newReadonly a.usdcMint false,
      new a.task false, new a.claim false, new a.taskVault false, new a.claimerAta false,
      newReadonly a.claimer false, new a.feeVault false]
  | .rejectClaim a =>
    [new a.poster true, newReadonly a.config false, new a.task false, new a.claim false,
      new a.taskVault false, new a.posterAta false]
  | .autoApprove a =>
    [new a.caller true, newReadonly a.config false, newReadonly a.usdcMint false,
      new a.task false, new a.claim false, new a.taskVault false, new a.claimerAta false,
      newReadonly a.claimer false, new a.feeVault false]
  | .openDispute a =>
    [newReadonly a.claimer true, newReadonly a.task false, new a.claim false]
  | .resolveDispute a _ =>
    [new a.admin true, newReadonly a.config false, newReadonly a.usdcMint false,
      new a.task false, new a.claim false, new a.taskVault false, newReadonly a.claimer false,
      new a.claimerAta false, new a.posterAta false, new a.feeVault false]
  | .autoResolveDispute a =>
    [new a.caller true, newReadonly a.config false, newReadonly a.usdcMint false,
      new a.task false, new a.claim false, new a.taskVault false, newReadonly a.claimer false,
      new a.claimerAta false, new a.feeVault false]
  | .withdrawFees a _ =>
    [newReadonly a.admin true, newReadonly a.config false, new a.feeVault false,
      new a.destination false, newReadonly a.usdcMint false]

namespace Instruction

/-- The addresses of the listed accounts. -/
def listed (ix : Instruction) : Set Pubkey := { k | ∃ m ∈ ix.accounts, m.pubkey = k }

/-- The addresses of the accounts listed as writable. -/
def writable (ix : Instruction) : Set Pubkey :=
  { k | ∃ m ∈ ix.accounts, m.isWritable = true ∧ m.pubkey = k }

@[simp] theorem mem_listed {ix : Instruction} {k : Pubkey} :
    k ∈ ix.listed ↔ ∃ m ∈ ix.accounts, m.pubkey = k :=
  Iff.rfl

@[simp] theorem mem_writable {ix : Instruction} {k : Pubkey} :
    k ∈ ix.writable ↔ ∃ m ∈ ix.accounts, m.isWritable = true ∧ m.pubkey = k :=
  Iff.rfl

instance (ix : Instruction) (k : Pubkey) : Decidable (k ∈ ix.writable) :=
  inferInstanceAs (Decidable (∃ m ∈ ix.accounts, m.isWritable = true ∧ m.pubkey = k))

theorem writable_subset (ix : Instruction) : ix.writable ⊆ ix.listed :=
  fun _ ⟨m, hm, _, hk⟩ => ⟨m, hm, hk⟩

end Instruction

/-- Instructions that are carried out together, at one clock. -/
structure Transaction where
  now : I64
  instructions : List Instruction

namespace Transaction

/-- The transfers of each instruction, or an error and no effect. -/
def process (rent : Rent) (tx : Transaction) :
    Chain → Except ChainError (Chain × List (List Transfer)) :=
  inTurn (tx.instructions.map (Instruction.processChain rent tx.now))

def accounts (tx : Transaction) : List AccountMeta := tx.instructions.flatMap Instruction.accounts

def listed (tx : Transaction) : Set Pubkey := { k | ∃ m ∈ tx.accounts, m.pubkey = k }

def writable (tx : Transaction) : Set Pubkey :=
  { k | ∃ m ∈ tx.accounts, m.isWritable = true ∧ m.pubkey = k }

theorem writable_subset (tx : Transaction) : tx.writable ⊆ tx.listed :=
  fun _ ⟨m, hm, _, hk⟩ => ⟨m, hm, hk⟩

theorem listed_of_mem {tx : Transaction} {ix : Instruction} (hix : ix ∈ tx.instructions) :
    ix.listed ⊆ tx.listed :=
  fun _ ⟨m, hm, hk⟩ => ⟨m, List.mem_flatMap.mpr ⟨ix, hix, hm⟩, hk⟩

theorem writable_of_mem {tx : Transaction} {ix : Instruction} (hix : ix ∈ tx.instructions) :
    ix.writable ⊆ tx.writable :=
  fun _ ⟨m, hm, hk⟩ => ⟨m, List.mem_flatMap.mpr ⟨ix, hix, hm⟩, hk⟩

/-- The lock rule of the runtime: an account that both list is written by neither. -/
def ConflictFree (x y : Transaction) : Prop :=
  ∀ a ∈ x.accounts, ∀ b ∈ y.accounts, a.pubkey = b.pubkey →
    a.isWritable = false ∧ b.isWritable = false

instance (x y : Transaction) : Decidable (ConflictFree x y) :=
  inferInstanceAs (Decidable (∀ a ∈ x.accounts, ∀ b ∈ y.accounts, _ → _))

theorem ConflictFree.symm {x y : Transaction} (h : ConflictFree x y) : ConflictFree y x :=
  fun b hb a ha heq => (h a ha b hb heq.symm).symm

instance : Std.Symm ConflictFree := ⟨fun _ _ h => h.symm⟩

theorem ConflictFree.apart {x y : Transaction} (h : ConflictFree x y) :
    Apart listed writable x y := by
  constructor
  · rintro k ⟨a, ha, hw, rfl⟩ ⟨b, hb, heq⟩
    have hfree := (h a ha b hb heq.symm).1
    rw [hw] at hfree
    cases hfree
  · rintro k ⟨b, hb, hw, rfl⟩ ⟨a, ha, heq⟩
    have hfree := (h a ha b hb heq).2
    rw [hw] at hfree
    cases hfree

end Transaction
end ClustlyEscrow
