import ClustlyEscrow.Guarantees.Lifecycle
import ClustlyEscrow.Program.Runtime
import ClustlyEscrow.Simulation.Footprint

/-!
# The bytes stand for the records

The image of a reachable state loses nothing: a typed load finds the record
that was stored, and none of another type. A handler sees the state only
through the accounts it lists, so what a call does to the bytes is the image of
what the instruction does to the records.
-/
namespace ClustlyEscrow
open Foundations

/-! ## Loading what was stored -/

section Loading
variable {α β : Type} {data : Pubkey → Option Bytes} {k : Pubkey}

theorem loadAccount_stored {format : Codec α} {o : Option α} (hdata : data k = o.map format.encode)
    (hfits : ∀ a, o = some a → format.dom a) : loadAccount format data k = o := by
  unfold loadAccount
  rw [hdata]
  cases o with
  | none => rfl
  | some a =>
    have hread := format.decode_encode (hfits a rfl) []
    rw [List.append_nil] at hread
    simp [hread]

theorem loadAccount_none {format : Codec α} (hdata : data k = none) :
    loadAccount format data k = none := by
  unfold loadAccount
  rw [hdata]
  rfl

theorem loadAccount_refused {format : Codec α} {bytes : Bytes} (hdata : data k = some bytes)
    (hread : format.decode bytes = none) : loadAccount format data k = none := by
  unfold loadAccount
  simp [hdata, hread]

/-- An account that was stored as `store b` keeps all but its record. -/
theorem exitAccount_eq {format : Codec α} {o : Option β} {store : β → α} {renew : α → α}
    {fresh : α} (hload : loadAccount format data k = o.map store)
    (hrenew : ∀ b, renew (store b) = fresh) :
    exitAccount format data k renew fresh = format.encode fresh := by
  rw [exitAccount, hload]
  cases o with
  | none => rfl
  | some b => rw [Option.map_some, Option.elim_some, hrenew]

end Loading

/-! ## Types and tags -/

section Formats
variable {book : AddressBook} {n m : AccountName} {bytes : Bytes}

theorem AccountName.length_discriminator (n : AccountName) :
    n.discriminator.length = discriminatorSize := by
  cases n <;> rfl

theorem AccountName.discriminator_injective (h : n.discriminator = m.discriminator) : n = m := by
  cases n <;> cases m <;> first | rfl | exact absurd h (by decide)

/-- The format of an account is a tag in front of its fields. -/
theorem format_eq (book : AddressBook) (n : AccountName) :
    ∃ fields : Codec n.Account, book.format n = fields.tagged n.discriminator := by
  cases n with
  | escrowConfig => exact ⟨book.configFields, rfl⟩
  | escrowTask => exact ⟨book.taskFields, rfl⟩
  | escrowClaim => exact ⟨book.claimFields, rfl⟩

theorem length_format (a : n.Account) :
    ((book.format n).encode a).length = discriminatorSize + n.size := by
  rw [Codec.length_encode]
  cases n <;> rfl

/-- No account is read as one of another type. -/
theorem decode_of_ne (hne : m ≠ n) (a : n.Account) :
    (book.format m).decode ((book.format n).encode a) = none := by
  obtain ⟨c, hc⟩ := format_eq book m
  obtain ⟨d, hd⟩ := format_eq book n
  rw [hc, hd, Codec.encode_tagged]
  apply c.decode_tagged_of_ne
  · exact fun h => hne (AccountName.discriminator_injective h)
  · rw [m.length_discriminator, n.length_discriminator]

/-- Data that no handler wrote: zeros, or an account of Anchor's own instructions. -/
def Untyped (bytes : Bytes) : Prop := (∀ x ∈ bytes, x = 0) ∨ idlAccountTag <+: bytes

theorem decode_untyped (h : Untyped bytes) (n : AccountName) :
    (book.format n).decode bytes = none := by
  obtain ⟨c, hc⟩ := format_eq book n
  rw [hc]
  apply if_neg
  intro htag
  rcases h with hzero | hidl
  · have hmem : ∀ x ∈ n.discriminator, x = 0 := fun x hx => hzero x (htag.subset hx)
    cases n <;> exact absurd hmem (by decide)
  · have hpre := List.prefix_of_prefix_length_le htag hidl (by cases n <;> decide)
    cases n <;> exact absurd hpre (by decide)

/-- What others do to an account of the program leaves it untyped. -/
theorem ForeignOp.process_untyped {op : ForeignOp} {o o' : Option Bytes}
    (h : op.process o = some o') (hb : o' = some bytes) : Untyped bytes := by
  subst hb
  unfold ForeignOp.process at h
  split at h
  · cases h
    exact .inl fun x hx => List.eq_of_mem_replicate hx
  · split_ifs at h
    cases h
    exact .inr (List.prefix_append _ _)
  · split_ifs at h
    cases h
  · cases h

end Formats

/-- Every record fits the format of its account. -/
structure Storable (book : AddressBook) (s : State) : Prop where
  config : ∀ cfg, s.config = some cfg → book.configAccount.dom (book.storeConfig cfg)
  task : ∀ T t, s.tasks.get T = some t → book.taskAccount.dom (book.storeTask T t)
  claim : ∀ c r, s.claims.get c = some r → book.claimAccount.dom (book.storeClaim c r)

/-- No handler has written at an address that is not derived. -/
def AllUntyped (others : BitVec 256 → Option Bytes) : Prop :=
  ∀ b bytes, others b = some bytes → Untyped bytes

section Image
variable {book : AddressBook} {s t v : State} {others : BitVec 256 → Option Bytes} {k : Pubkey}
  {n : AccountName}

theorem Storable.dom (hfit : Storable book s) {a : n.Account} (ha : book.stored n s k = some a) :
    (book.format n).dom a := by
  cases n with
  | escrowConfig =>
    obtain ⟨cfg, hcfg, rfl⟩ := Option.map_eq_some_iff.mp ha
    exact hfit.config cfg hcfg
  | escrowTask =>
    obtain ⟨t, ht, rfl⟩ := Option.map_eq_some_iff.mp ha
    exact hfit.task k t ht
  | escrowClaim =>
    obtain ⟨r, hr, rfl⟩ := Option.map_eq_some_iff.mp ha
    exact hfit.claim k r hr

theorem image_derived (hk : AccountName.ofAddress k = some n) :
    book.image s others k = (book.stored n s k).map (book.format n).encode := by
  simp only [AddressBook.image, hk]

theorem image_other (book : AddressBook) (s : State) (others : BitVec 256 → Option Bytes)
    (hk : AccountName.ofAddress k = none) :
    book.image s others k = none ∨ ∃ b, k = .key b ∧ book.image s others k = others b := by
  cases k with
  | key b => exact .inr ⟨b, rfl, rfl⟩
  | ata => exact .inl rfl
  | configPda | taskPda | claimPda => cases hk

/-- A typed load finds an account of its type where the seeds lead to that type,
and nothing anywhere else. -/
theorem load_image (hfit : Storable book s) (hothers : AllUntyped others) (n : AccountName)
    (k : Pubkey) : loadAccount (book.format n) (book.image s others) k =
      if AccountName.ofAddress k = some n then book.stored n s k else none := by
  cases hk : AccountName.ofAddress k with
  | none =>
    rw [if_neg (by simp)]
    rcases image_other book s others hk with hnone | ⟨b, _, himage⟩
    · exact loadAccount_none hnone
    · cases hb : others b with
      | none => exact loadAccount_none (himage.trans hb)
      | some bytes =>
        exact loadAccount_refused (himage.trans hb) (decode_untyped (hothers b bytes hb) n)
  | some m =>
    by_cases hmn : m = n
    · subst hmn
      rw [if_pos rfl]
      exact loadAccount_stored (image_derived hk) fun a ha => hfit.dom ha
    · rw [if_neg fun h => hmn (Option.some.inj h)]
      cases ha : book.stored m s k with
      | none => exact loadAccount_none (by rw [image_derived hk, ha]; rfl)
      | some a =>
        have hdata : book.image s others k = some ((book.format m).encode a) := by
          rw [image_derived hk, ha]
          rfl
        exact loadAccount_refused hdata (decode_of_ne (Ne.symm hmn) a)

theorem address_of_task (hs : Sound s) {t : EscrowTask} (ht : s.tasks.get k = some t) :
    AccountName.ofAddress k = some .escrowTask := by
  rw [(hs.task k t ht).key]
  rfl

theorem address_of_claim (hs : Sound s) {r : EscrowClaim} (hr : s.claims.get k = some r) :
    AccountName.ofAddress k = some .escrowClaim := by
  rw [(hs.claim k r hr).key]
  rfl

theorem get_task_of_ne (hs : Sound s) (hk : AccountName.ofAddress k ≠ some .escrowTask) :
    s.tasks.get k = none :=
  Option.eq_none_iff_forall_ne_some.mpr fun _ ht => hk (address_of_task hs ht)

theorem get_claim_of_ne (hs : Sound s) (hk : AccountName.ofAddress k ≠ some .escrowClaim) :
    s.claims.get k = none :=
  Option.eq_none_iff_forall_ne_some.mpr fun _ hr => hk (address_of_claim hs hr)

theorem load_config (hfit : Storable book s) (hothers : AllUntyped others) :
    loadAccount book.configAccount (book.image s others) .configPda =
      s.config.map book.storeConfig :=
  load_image hfit hothers .escrowConfig .configPda

theorem load_task (hs : Sound s) (hfit : Storable book s) (hothers : AllUntyped others) :
    loadAccount book.taskAccount (book.image s others) k =
      (s.tasks.get k).map (book.storeTask k) := by
  refine (load_image hfit hothers .escrowTask k).trans ?_
  split_ifs with hk
  · rfl
  · rw [get_task_of_ne hs hk]
    rfl

theorem load_claim (hs : Sound s) (hfit : Storable book s) (hothers : AllUntyped others) :
    loadAccount book.claimAccount (book.image s others) k =
      (s.claims.get k).map (book.storeClaim k) := by
  refine (load_image hfit hothers .escrowClaim k).trans ?_
  split_ifs with hk
  · rfl
  · rw [get_claim_of_ne hs hk]
    rfl

theorem image_congr (hconfig : k = .configPda → s.config = t.config)
    (htask : s.tasks.get k = t.tasks.get k) (hclaim : s.claims.get k = t.claims.get k) :
    book.image s others k = book.image t others k := by
  cases k with
  | configPda =>
    simp only [AddressBook.image, AccountName.ofAddress, AddressBook.stored, hconfig rfl]
  | taskPda => simp only [AddressBook.image, AccountName.ofAddress, AddressBook.stored, htask]
  | claimPda => simp only [AddressBook.image, AccountName.ofAddress, AddressBook.stored, hclaim]
  | key | ata => rfl

/-- The bytes at an address show the records at that address only. -/
theorem image_of_cell (h : s.cell k = t.cell k) :
    book.image s others k = book.image t others k := by
  simp only [State.cell, Cell.mk.injEq] at h
  refine image_congr (fun hk => ?_) h.2.1 h.2.2.1
  simpa only [hk, if_true] using h.1

/-- A handler finds at its accounts the records that the bytes stand for. -/
theorem view_agree {w : World} (hs : Sound w.state) (hfit : Storable book w.state)
    (hothers : AllUntyped w.others) (keys : List Pubkey) :
    AgreeOn State.cell { k | k ∈ keys } w.state (book.view (book.db w) keys) := by
  intro k hk
  simp only [State.cell, Cell.mk.injEq, AddressBook.view, AddressBook.db, Store.get_ofKeys _ hk,
    load_task hs hfit hothers, load_claim hs hfit hothers, load_config hfit hothers,
    Option.map_map]
  refine ⟨?_, ?_, ?_, trivial⟩
  · split_ifs with hconfig hmem
    · exact Option.map_id.symm ▸ rfl
    · exact absurd (hconfig ▸ hk) hmem
    · rfl
  · exact (congrFun Option.map_id _).symm
  · exact (congrFun Option.map_id _).symm

theorem hasRecord_of_cell (h : s.cell k = t.cell k) : s.hasRecord k = t.hasRecord k := by
  simp only [State.cell, Cell.mk.injEq] at h
  obtain ⟨hconfig, htask, hclaim, _⟩ := h
  unfold State.hasRecord
  rw [htask, hclaim]
  by_cases hk : k = .configPda
  · simp only [hk, if_true] at hconfig
    rw [hconfig]
  · simp [hk]

theorem hasRecord_eq_false : s.hasRecord k = false ↔
    (k = .configPda → s.config = none) ∧ s.tasks.get k = none ∧ s.claims.get k = none := by
  simp [State.hasRecord, and_assoc, Option.isSome_eq_false_iff, Option.isNone_iff_eq_none]

/-- Where there is no record the bytes are those of the others. -/
theorem image_of_no_record (h : s.hasRecord k = false) :
    book.image s others k = book.image .genesis others k := by
  obtain ⟨hconfig, htask, hclaim⟩ := hasRecord_eq_false.mp h
  exact image_congr hconfig htask hclaim

theorem image_genesis (hs : Sound s) (h : s.hasRecord k = true) :
    book.image .genesis others k = none := by
  have hderived : AccountName.ofAddress k ≠ none := by
    intro hk
    have hnone : s.hasRecord k = false := by
      refine hasRecord_eq_false.mpr ⟨?_, get_task_of_ne hs ?_, get_claim_of_ne hs ?_⟩
      · rintro rfl
        cases hk
      · simp [hk]
      · simp [hk]
    rw [hnone] at h
    cases h
  cases k with
  | configPda | taskPda | claimPda => rfl
  | key | ata => exact absurd rfl hderived

/-- What is left at an address depends on the records at that address only. -/
theorem exit_of_cell {data : Pubkey → Option Bytes} {t' : State} (ht : t.cell k = t'.cell k)
    (hv : s.cell k = v.cell k) : book.exit data s t k = book.exit data v t' k := by
  simp only [State.cell, Cell.mk.injEq] at ht
  simp only [AddressBook.exit, hasRecord_of_cell hv, ht]

/-- Storing over an image gives an image: bumps and reserved bytes survive. -/
theorem exit_image (hs : Sound s) (ht : Sound t) (hfit : Storable book s)
    (hothers : AllUntyped others) (k : Pubkey) :
    book.exit (book.image s others) s t k = book.image t others k := by
  unfold AddressBook.exit
  split
  · rename_i record hconfig
    obtain ⟨rfl, hcfg⟩ : k = .configPda ∧ t.config = some record := by
      split_ifs at hconfig with hk
      exact ⟨hk, hconfig⟩
    rw [AddressBook.exitConfig, exitAccount_eq (load_config hfit hothers) fun _ => rfl]
    simp only [AddressBook.image, AccountName.ofAddress, AddressBook.stored, hcfg]
    rfl
  · rename_i record _ htask
    rw [AddressBook.exitTask, exitAccount_eq (load_task hs hfit hothers) fun _ => rfl,
      image_derived (address_of_task ht htask)]
    simp only [AddressBook.stored, htask]
    rfl
  · rename_i record _ _ hclaim
    rw [AddressBook.exitClaim, exitAccount_eq (load_claim hs hfit hothers) fun _ => rfl,
      image_derived (address_of_claim ht hclaim)]
    simp only [AddressBook.stored, hclaim]
    rfl
  · rename_i hconfig htask hclaim
    have hnone : t.hasRecord k = false := by
      refine hasRecord_eq_false.mpr ⟨fun hk => ?_, htask, hclaim⟩
      rwa [if_pos hk] at hconfig
    rw [image_of_no_record hnone]
    split_ifs with hrecord
    · exact (image_genesis hs hrecord).symm
    · exact image_of_no_record (Bool.not_eq_true _ ▸ hrecord)

end Image

/-! ## The records of a run fit -/

structure EscrowConfig.Held (book : AddressBook) (cfg : EscrowConfig) : Prop where
  admin : book.Known cfg.admin
  usdcMint : book.Known cfg.usdcMint

structure EscrowTask.Held (book : AddressBook) (t : EscrowTask) : Prop where
  poster : book.Known t.poster
  status : ∃ st : TaskStatus, t.status = st.toU8
  taskDeadlineTs : InI64 t.taskDeadlineTs
  claimDeadlineSecs : t.claimDeadlineSecs < 2 ^ 32

structure EscrowClaim.Held (book : AddressBook) (r : EscrowClaim) : Prop where
  task : book.Known r.task
  claimer : book.Known r.claimer
  enrolledAt : InI64 r.enrolledAt
  submittedAt : InI64 r.submittedAt
  disputedAt : InI64 r.disputedAt

/-- What the arguments of the instructions bring into the records fits. -/
structure Recorded (book : AddressBook) (s : State) : Prop where
  config : ∀ cfg, s.config = some cfg → cfg.Held book
  task : ∀ T t, s.tasks.get T = some t → t.Held book
  claim : ∀ c r, s.claims.get c = some r → r.Held book

def Label.addresses : Label → List Pubkey
  | .instr _ ix => ix.addresses
  | .token _ => []

section Recording
variable {book : AddressBook} {s s' : State} {out : List Transfer} {l : Label} {t : EscrowTask}
  {r r' : EscrowClaim} {cfg cfg' : EscrowConfig} {T : Pubkey}

theorem recorded_genesis : Recorded book State.genesis := by
  constructor <;> simp [State.genesis]

/-- A task is funded, counted on and closed; its terms stay. -/
theorem EscrowTask.Held.of_terms {t' : EscrowTask} (h : t.Held book) (hp : t'.poster = t.poster)
    (hst : ∃ st : TaskStatus, t'.status = st.toU8) (hd : t'.taskDeadlineTs = t.taskDeadlineTs)
    (hc : t'.claimDeadlineSecs = t.claimDeadlineSecs) : t'.Held book :=
  ⟨hp ▸ h.poster, hst, hd ▸ h.taskDeadlineTs, hc ▸ h.claimDeadlineSecs⟩

theorem EscrowClaim.Held.setStatus (h : r.Held book) (st : ClaimStatus) :
    (r.setStatus st).Held book :=
  ⟨h.task, h.claimer, h.enrolledAt, h.submittedAt, h.disputedAt⟩

theorem AdvanceGround.held (hg : AdvanceGround t r l r') (h : r.Held book) : r'.Held book := by
  cases hg with
  | @submit now => exact ⟨h.task, h.claimer, h.enrolledAt, now.property, h.disputedAt⟩
  | @dispute now => exact ⟨h.task, h.claimer, h.enrolledAt, h.submittedAt, now.property⟩
  | reject => exact ⟨h.task, h.claimer, h.enrolledAt, h.submittedAt, h.disputedAt⟩

theorem RefundGround.held (hg : RefundGround cfg t r l r') (h : r.Held book) :
    r'.Held book := by
  cases hg with
  | reject => exact ⟨h.task, h.claimer, h.enrolledAt, h.submittedAt, h.disputedAt⟩
  | resolve => exact h.setStatus .resolvedPoster

theorem EndGround.held {tasks' : Store Pubkey EscrowTask} (hg : EndGround s t T l tasks')
    (hb : ∀ T t, s.tasks.get T = some t → t.Held book) (ht : s.tasks.get T = some t) :
    ∀ U u, tasks'.get U = some u → u.Held book := by
  have hclosed : (t.setStatus .closed).Held book := (hb T t ht).of_terms rfl ⟨.closed, rfl⟩ rfl rfl
  cases hg with
  | cancel => exact Store.forall_erase hb
  | close => exact Store.forall_set hb hclosed
  | autoCancel => exact Store.forall_set hb hclosed

theorem ConfigGround.held (hg : ConfigGround s cfg l cfg') (h : cfg.Held book)
    (hknown : ∀ k ∈ l.addresses, book.Known k) : cfg'.Held book := by
  cases hg with
  | admin => exact ⟨hknown _ (by simp [Label.addresses, Instruction.addresses,
      Instruction.argumentKeys]), h.usdcMint⟩
  | fee => exact ⟨h.admin, h.usdcMint⟩
  | mint => exact ⟨h.admin, hknown _ (by simp [Label.addresses, Instruction.addresses,
      Instruction.keys, Instruction.accounts])⟩

theorem Recorded.config_step (hb : Recorded book s) (h : Move s s' out l)
    (hknown : ∀ k ∈ l.addresses, book.Known k) (cfg' : EscrowConfig)
    (hcfg : s'.config = some cfg') : cfg'.Held book := by
  have kept (hsame : s'.config = s.config) : cfg'.Held book := hb.config cfg' (hsame ▸ hcfg)
  cases h with
  | configCreated he =>
    rw [he.config', Option.some.injEq] at hcfg
    subst hcfg
    constructor
    · exact hknown _ (by simp [Label.addresses, Instruction.addresses, Instruction.argumentKeys])
    · exact hknown _ (by simp [Label.addresses, Instruction.addresses, Instruction.keys,
        Instruction.accounts])
  | reconfigured _ _ _ hg he =>
    rw [he.post, Option.some.injEq] at hcfg
    exact hcfg ▸ hg.held (hb.config _ he.config) hknown
  | withdrawn he => exact kept he.config'
  | funded he => exact kept he.config'
  | ended _ _ _ he => exact kept he.config'
  | enrolled he => exact kept he.config'
  | advanced _ _ _ _ he => exact kept (by rw [he.post])
  | paid _ _ _ he => exact kept he.config'
  | refunded _ _ _ he => exact kept he.config'
  | outside _ hpost _ => exact kept (by rw [hpost])

theorem Recorded.tasks_step (hb : Recorded book s) (h : Move s s' out l)
    (hknown : ∀ k ∈ l.addresses, book.Known k) : ∀ T t, s'.tasks.get T = some t → t.Held book := by
  have wrote {T : Pubkey} {t t' : EscrowTask} (ht : s.tasks.get T = some t)
      (htasks : s'.tasks = s.tasks.set T t') (hkeep : t.Held book → t'.Held book) :
      ∀ U u, s'.tasks.get U = some u → u.Held book := by
    rw [htasks]
    exact Store.forall_set hb.task (hkeep (hb.task T t ht))
  cases h with
  | configCreated he => exact he.tasks' ▸ hb.task
  | reconfigured _ _ _ _ he => exact he.post ▸ hb.task
  | withdrawn he => exact he.tasks' ▸ hb.task
  | @funded _ a _ _ _ secs deadline _ he =>
    rw [he.tasks']
    refine Store.forall_set hb.task ⟨?_, ⟨.opened, rfl⟩, deadline.property, secs.isLt⟩
    exact hknown _ (by simp [Label.addresses, Instruction.addresses, Instruction.keys,
      Instruction.accounts, InitializeTask.record])
  | ended _ _ hg he =>
    rw [he.tasks']
    exact hg.held hb.task he.task
  | enrolled he =>
    exact wrote he.task he.tasks' fun hold => hold.of_terms rfl hold.status rfl rfl
  | advanced _ _ _ _ he => exact he.post ▸ hb.task
  | paid _ _ _ he =>
    exact wrote he.task he.tasks' fun hold => hold.of_terms rfl hold.status rfl rfl
  | refunded _ _ _ he =>
    exact wrote he.task he.tasks' fun hold => hold.of_terms rfl hold.status rfl rfl
  | outside _ hpost _ => exact hpost ▸ hb.task

theorem Recorded.claims_step (hb : Recorded book s) (h : Move s s' out l)
    (hknown : ∀ k ∈ l.addresses, book.Known k) :
    ∀ c r, s'.claims.get c = some r → r.Held book := by
  cases h with
  | configCreated he => exact he.claims' ▸ hb.claim
  | reconfigured _ _ _ _ he => exact he.post ▸ hb.claim
  | withdrawn he => exact he.claims' ▸ hb.claim
  | funded he => exact he.claims' ▸ hb.claim
  | ended _ _ _ he => exact he.claims' ▸ hb.claim
  | @enrolled now a _ _ he =>
    have hzero : InI64 0 := by decide
    rw [he.claims']
    refine Store.forall_set hb.claim ⟨?_, ?_, now.property, hzero, hzero⟩
    all_goals
      exact hknown _ (by simp [Label.addresses, Instruction.addresses, Instruction.keys,
        Instruction.accounts, Enroll.record])
  | advanced _ _ _ hg he =>
    rw [he.post]
    exact Store.forall_set hb.claim (hg.held (hb.claim _ _ he.claim))
  | paid _ _ _ he =>
    rw [he.claims']
    exact Store.forall_set hb.claim ((hb.claim _ _ he.claim).setStatus _)
  | refunded _ _ hg he =>
    rw [he.claims']
    exact Store.forall_set hb.claim (hg.held (hb.claim _ _ he.claim))
  | outside _ hpost _ => exact hpost ▸ hb.claim

theorem Recorded.step (hb : Recorded book s) (h : Move s s' out l)
    (hknown : ∀ k ∈ l.addresses, book.Known k) : Recorded book s' :=
  ⟨hb.config_step h hknown, hb.tasks_step h hknown, hb.claims_step h hknown⟩

variable {h : History}

theorem ClaimStatus.toU8_lt (st : ClaimStatus) : st.toU8 < 8 := by
  cases st <;> decide

/-- Counters and rejections are small in every run, so the whole record fits. -/
theorem Reaches.storable (hr : Reaches h s) (hb : Recorded book s) : Storable book s := by
  constructor
  · intro cfg hcfg
    have hfee := hr.sound.fee_le cfg hcfg
    have hheld := hb.config cfg hcfg
    refine ⟨hheld.admin, hheld.usdcMint, ?_, trivial, trivial, trivial⟩
    simp only [AddressBook.storeConfig, feeBpsCap, Codec.dom_uint] at hfee ⊢
    omega
  · intro T t ht
    have hok := hr.sound.task T t ht
    have hheld := hb.task T t ht
    obtain ⟨_, hsettled, hwithin⟩ := hr.activeSlots_eq ht
    obtain ⟨st, hst⟩ := hheld.status
    have hslots := hok.slots_le
    have hbounty := hok.bounty_lt
    have hsecs := hheld.claimDeadlineSecs
    have hstatus : st.toU8 < 2 := by cases st <;> decide
    refine ⟨trivial, hheld.poster, ?_, ?_, ?_, ?_, ?_, ?_, hheld.taskDeadlineTs, ?_, trivial,
      trivial, trivial⟩
    all_goals
      simp only [AddressBook.storeTask, maxSlotsLimit, Codec.dom_uint, hst] at *
      omega
  · intro c r hc
    have hheld := hb.claim c r hc
    obtain ⟨st, hrev⟩ := hr.reviewed c r hc
    have hstatus := st.toU8_lt
    have hrounds := hrev.regular.rounds
    have hrejections : r.rejections ≤ maxRejections := by
      simp only [reviewOf] at hrounds
      cases hstage : st.stage <;> rw [hstage] at hrounds <;>
        simp only [Stage.Rounds, maxRejections] at hrounds ⊢ <;> omega
    refine ⟨trivial, hheld.task, hheld.claimer, ?_, hheld.enrolledAt, hheld.submittedAt,
      hheld.disputedAt, ?_, trivial, trivial, trivial⟩
    all_goals
      simp only [AddressBook.storeClaim, maxRejections, Codec.dom_uint, hrev.status] at *
      omega

end Recording
end ClustlyEscrow
