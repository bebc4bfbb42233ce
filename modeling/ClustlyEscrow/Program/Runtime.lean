import ClustlyEscrow.Program.Wire

/-!
# The program over bytes

On chain the records are bytes. A call loads the accounts it lists, runs the
handler on the records found there, and stores the writable ones again; what an
account holds beside its record stays as it was loaded. Others may give the
program accounts too, and Anchor adds instructions that keep accounts of their
own; neither can choose an address that is derived from seeds of the program.
-/
namespace ClustlyEscrow
open Foundations

/-- The data of the accounts that the program owns, and the accounts of the token program. -/
structure AccountsDb where
  data : Pubkey → Option Bytes
  tokens : Bank Pubkey

def AccountsDb.genesis : AccountsDb := ⟨fun _ => none, .empty⟩

/-- `Account::try_from`: the discriminator is checked and the fields are read. -/
def loadAccount {α : Type} (format : Codec α) (data : Pubkey → Option Bytes) (k : Pubkey) :
    Option α := do
  let bytes ← data k
  let (account, _) ← format.decode bytes
  some account

namespace AddressBook
variable (book : AddressBook)

/-- The records at the listed accounts. -/
def view (db : AccountsDb) (keys : List Pubkey) : State where
  config :=
    if .configPda ∈ keys then
      (loadAccount book.configAccount db.data .configPda).map ConfigAccount.record
    else none
  tasks := .ofKeys keys fun k => (loadAccount book.taskAccount db.data k).map TaskAccount.record
  claims := .ofKeys keys fun k => (loadAccount book.claimAccount db.data k).map ClaimAccount.record
  tokens := db.tokens

end AddressBook

/-- There is a record at the address. -/
def State.hasRecord (s : State) (k : Pubkey) : Bool :=
  (k = .configPda && s.config.isSome) || (s.tasks.get k).isSome || (s.claims.get k).isSome

/-- The data of an account with a record on exit: what was loaded with the new
record, or a fresh account. -/
def exitAccount {α : Type} (format : Codec α) (data : Pubkey → Option Bytes) (k : Pubkey)
    (renew : α → α) (fresh : α) : Bytes :=
  format.encode ((loadAccount format data k).elim fresh renew)

namespace AddressBook
variable (book : AddressBook)

def exitConfig (data : Pubkey → Option Bytes) (k : Pubkey) (record : EscrowConfig) : Bytes :=
  exitAccount book.configAccount data k (fun account => { account with record })
    (book.storeConfig record)

def exitTask (data : Pubkey → Option Bytes) (k : Pubkey) (record : EscrowTask) : Bytes :=
  exitAccount book.taskAccount data k (fun account => { account with record })
    (book.storeTask k record)

def exitClaim (data : Pubkey → Option Bytes) (k : Pubkey) (record : EscrowClaim) : Bytes :=
  exitAccount book.claimAccount data k (fun account => { account with record })
    (book.storeClaim k record)

/-- The data of an account on exit, from the records before and after the handler.
One that the handler has just created gets its bump and zeros, a closed one has
none, and an account that is no record keeps what it has. -/
def exit (data : Pubkey → Option Bytes) (loaded s : State) (k : Pubkey) : Option Bytes :=
  match if k = .configPda then s.config else none, s.tasks.get k, s.claims.get k with
  | some record, _, _ => some (book.exitConfig data k record)
  | none, some record, _ => some (book.exitTask data k record)
  | none, none, some record => some (book.exitClaim data k record)
  | none, none, none => if loaded.hasRecord k then none else data k

end AddressBook

/-! ## Accounts of others -/

def idlAccountTag : Bytes := [24, 70, 98, 191, 58, 144, 123, 158]

/-- What happens to accounts of the program outside its handlers. Anyone can hand
it an account, which changes its owner only while its data is zeros; the
instructions that Anchor adds write their tag and whatever they like into such
accounts, and close those with the tag. That the runtime keeps them apart from
the accounts of the token program is left out. -/
inductive ForeignOp
  | assign (key : BitVec 256) (space : ℕ)
  | writeIdl (key : BitVec 256) (content : Bytes)
  | closeIdl (key : BitVec 256)
  deriving DecidableEq, Repr

namespace ForeignOp

def key : ForeignOp → BitVec 256
  | .assign key _ => key
  | .writeIdl key _ => key
  | .closeIdl key => key

/-- The data of the account before and after. -/
def process : ForeignOp → Option Bytes → Option (Option Bytes)
  | .assign _ space, none => some (some (List.replicate space 0))
  | .writeIdl _ content, some bytes =>
    if List.replicate discriminatorSize 0 <+: bytes ∨ idlAccountTag <+: bytes then
      some (some (idlAccountTag ++ content))
    else none
  | .closeIdl _, some bytes => if idlAccountTag <+: bytes then some none else none
  | _, _ => none

end ForeignOp

/-! ## Calls -/

inductive Call
  | instr (now : I64) (data : Bytes) (infos : List AccountInfo)
  | token (op : TokenOp)
  | foreign (op : ForeignOp)

inductive CallError
  | entry (e : EntryError)
  | program (e : Error)
  | foreign
  deriving DecidableEq, Repr

def AddressBook.execute (book : AddressBook) (db : AccountsDb) :
    Call → Except CallError (AccountsDb × List Transfer)
  | .instr now data infos => do
    let ix ← (book.dispatch data infos).mapError .entry
    let loaded := book.view db ix.keys
    let (s, transfers) ← (ix.process loaded now).mapError .program
    let stored (k : Pubkey) :=
      if k ∈ ix.writable then book.exit db.data loaded s k else db.data k
    return (⟨stored, s.tokens⟩, transfers)
  | .token op => do
    let tokens ← (op.process db.tokens).mapError .program
    return ({ db with tokens }, [])
  | .foreign op => do
    let bytes ← okOr (op.process (db.data (.key op.key))) .foreign
    return ({ db with data := Function.update db.data (.key op.key) bytes }, [])

abbrev CallHistory := List (Event AccountsDb Call (List Transfer))

/-- A run of the program and its environment, as far as the bytes go. -/
abbrev CallReaches (book : AddressBook) (h : CallHistory) (db : AccountsDb) : Prop :=
  Run (Accepts book.execute) .genesis h db

/-! ## The records beside the accounts of others -/

structure World where
  state : State
  others : BitVec 256 → Option Bytes

def World.genesis : World := ⟨.genesis, fun _ => none⟩

inductive WorldLabel
  | record (l : Label)
  | foreign (op : ForeignOp)

/-- The two sides take their steps independently of each other. -/
def World.exec (w : World) : WorldLabel → Except CallError (World × List Transfer)
  | .record l => do
    let (s, transfers) ← (ClustlyEscrow.exec w.state l).mapError .program
    return ({ w with state := s }, transfers)
  | .foreign op => do
    let bytes ← okOr (op.process (w.others op.key)) .foreign
    return ({ w with others := Function.update w.others op.key bytes }, [])

abbrev WorldHistory := List (Event World WorldLabel (List Transfer))

abbrev WorldReaches (g : WorldHistory) (w : World) : Prop := Run (Accepts World.exec) .genesis g w

/-- The steps of a history that are steps of the records. -/
def WorldHistory.records (g : WorldHistory) : History :=
  g.filterMap fun e => match e.label with
    | .record l => some ⟨l, e.pre.state, e.post.state, e.output⟩
    | .foreign _ => none

/-- What a world looks like on chain. -/
def AddressBook.db (book : AddressBook) (w : World) : AccountsDb :=
  ⟨book.image w.state w.others, w.state.tokens⟩

/-- The step that a call is read as. -/
inductive Call.Carried (book : AddressBook) : Call → WorldLabel → Prop
  | instr {now : I64} {data : Bytes} {infos : List AccountInfo} {ix : Instruction}
      (read : book.dispatch data infos = .ok ix) :
      Carried book (.instr now data infos) (.record (.instr now ix))
  | token (op : TokenOp) : Carried book (.token op) (.record (.token op))
  | foreign (op : ForeignOp) : Carried book (.foreign op) (.foreign op)

end ClustlyEscrow
