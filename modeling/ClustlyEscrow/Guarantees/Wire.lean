import ClustlyEscrow.Simulation.Storage

/-!
# The program over bytes runs as the program over records

A handler is reached by the encoding of an instruction, with the accounts that
its struct asks for, and by nothing else. Call by call it does to the bytes what
the instruction does to the records, so everything that holds of the runs of the
records holds of the runs on chain, whatever others do to accounts of their own.
-/
namespace ClustlyEscrow
open Foundations

/-! ## The entry point -/

/-- The account passes for the one at its place in the account struct. -/
structure AddressBook.Fits (book : AddressBook) (m : AccountMeta) (info : AccountInfo) : Prop where
  key : book.name info.key = m.pubkey
  signer : m.isSigner = true → info.isSigner = true
  writable : m.isWritable = true → info.isWritable = true

section Entry
variable {book : AddressBook} {ix : Instruction} {data : Bytes} {infos : List AccountInfo}

theorem accounts?_eq_some {n : InstructionName} {ks : List Pubkey} {a : n.Accounts}
    (h : n.accounts? ks = some a) (arguments : n.Arguments) :
    ∃ more, ks = (n.make a arguments).keys ++ more := by
  unfold InstructionName.accounts? at h
  split at h
  all_goals cases h
  all_goals exact ⟨_, rfl⟩

theorem accounts?_keys (ix : Instruction) (more : List Pubkey) :
    ∃ a, ix.name.accounts? (ix.keys ++ more) = some a ∧ ix.name.make a ix.arguments = ix := by
  cases ix with
  | _ => exact ⟨_, rfl, rfl⟩

theorem encode_make {n : InstructionName} (a : n.Accounts) (arguments : n.Arguments) :
    book.encode (n.make a arguments) =
      n.discriminator ++ (book.arguments n).encode arguments := by
  cases n with
  | _ => rfl

theorem dom_arguments : (book.arguments ix.name).dom ix.arguments ↔
    ∀ k ∈ ix.argumentKeys, book.Known k := by
  cases ix with
  | initializeConfig _ admin feeBps =>
    rw [Instruction.argumentKeys, List.forall_mem_singleton]
    exact and_iff_left trivial
  | updateAdmin _ newAdmin =>
    rw [Instruction.argumentKeys, List.forall_mem_singleton]
    exact Iff.rfl
  | initializeTask =>
    exact iff_of_true ⟨trivial, trivial, trivial, trivial, trivial⟩ (List.forall_mem_nil _)
  | _ => exact iff_of_true trivial (List.forall_mem_nil _)

theorem known_name (b : BitVec 256) : book.Known (book.name b) :=
  congrArg book.name (book.bytes_name b)

theorem check_eq_ok {m : AccountMeta} {info : AccountInfo} : m.check info = .ok () ↔
    (m.isSigner = true → info.isSigner = true) ∧ (m.isWritable = true → info.isWritable = true) := by
  simp only [AccountMeta.check, seq_eq_ok, require_eq_ok, exists_const]

/-- Accounts at the right addresses fit when their flags pass the checks. -/
theorem fits_of_check {metas : List AccountMeta} {front : List AccountInfo}
    (h : List.Forall₂ (fun m info => AccountMeta.check m info = .ok ()) metas front)
    (hkeys : front.map (fun info => book.name info.key) = metas.map AccountMeta.pubkey) :
    List.Forall₂ book.Fits metas front := by
  induction h with
  | nil => exact .nil
  | cons hcheck _ ih =>
    obtain ⟨hkey, hrest⟩ := List.cons_eq_cons.mp hkeys
    obtain ⟨hsigner, hwritable⟩ := check_eq_ok.mp hcheck
    exact .cons ⟨hkey, hsigner, hwritable⟩ (ih hrest)

theorem keys_of_fits {metas : List AccountMeta} {front : List AccountInfo}
    (h : List.Forall₂ book.Fits metas front) :
    front.map (fun info => book.name info.key) = metas.map AccountMeta.pubkey := by
  induction h with
  | nil => rfl
  | cons hfits _ ih => rw [List.map_cons, List.map_cons, hfits.key, ih]

theorem dispatch_ok (h : book.dispatch data infos = .ok ix) :
    (∀ k ∈ ix.argumentKeys, book.Known k) ∧ (∃ rest, data = book.encode ix ++ rest) ∧
      ∃ front statics more, infos = front ++ statics ++ more ∧
        List.Forall₂ book.Fits ix.accounts front ∧
        List.Forall₂ StaticAccount.Is ix.name.statics statics := by
  simp only [AddressBook.dispatch, seq_eq_ok, okOr_eq_ok, return_eq_ok, checkFront_eq_ok,
    InstructionName.ofDiscriminator_eq_some] at h
  obtain ⟨n, htag, ⟨arguments, rest⟩, hread, accounts, haccounts, _, ⟨front, rfl, hfront⟩, more,
    ⟨statics, rfl, hstatics⟩, rfl⟩ := h
  obtain ⟨hdom, henc⟩ := (book.arguments n).encode_of_decode hread
  obtain ⟨tail, hkeys⟩ := accounts?_eq_some haccounts arguments
  rw [List.map_append] at hkeys
  have hlength : (front.map fun info => book.name info.key).length =
      (n.make accounts arguments).keys.length := by
    rw [Instruction.keys, List.length_map, List.length_map, hfront.length_eq]
  have hname : (n.make accounts arguments).name = n := by
    cases n with
    | _ => rfl
  refine ⟨dom_arguments.mp ?_, ⟨rest, ?_⟩, front, statics, more, ?_, ?_, ?_⟩
  · cases n with
    | _ => exact hdom
  · rw [encode_make, List.append_assoc, henc, ← htag, List.take_append_drop]
  · exact (List.append_assoc _ _ _).symm
  · exact fits_of_check hfront (List.append_inj_left hkeys hlength)
  · rw [hname]
    exact hstatics.imp fun p info hcheck => (require_eq_ok _ _ _).mp hcheck

theorem dispatch_encode (hknown : ∀ k ∈ ix.argumentKeys, book.Known k) (rest : Bytes)
    {front statics : List AccountInfo} (more : List AccountInfo)
    (hfront : List.Forall₂ book.Fits ix.accounts front)
    (hstatics : List.Forall₂ StaticAccount.Is ix.name.statics statics) :
    book.dispatch (book.encode ix ++ rest) (front ++ statics ++ more) = .ok ix := by
  have hlength := ix.name.length_discriminator
  obtain ⟨accounts, haccounts, hmake⟩ :=
    accounts?_keys ix ((statics ++ more).map fun info => book.name info.key)
  simp only [AddressBook.dispatch, seq_eq_ok, okOr_eq_ok, return_eq_ok, checkFront_eq_ok,
    InstructionName.ofDiscriminator_eq_some, AddressBook.encode, List.append_assoc]
  refine ⟨ix.name, List.take_left' hlength, (ix.arguments, rest), ?_, accounts, ?_,
    statics ++ more, ⟨front, rfl, ?_⟩, more, ⟨statics, rfl, ?_⟩, hmake⟩
  · rw [List.drop_left' hlength]
    exact (book.arguments ix.name).decode_encode (dom_arguments.mpr hknown) rest
  · rw [List.map_append, keys_of_fits hfront]
    exact haccounts
  · rw [hmake]
    exact hfront.imp fun m info hfits => check_eq_ok.mpr ⟨hfits.signer, hfits.writable⟩
  · exact hstatics.imp fun p info his => (require_eq_ok _ _ _).mpr his

/-- The entry point hands a call to a handler just if its data starts with the
encoding of the instruction and its accounts with those of the account struct,
programs and sysvar included. -/
theorem entry_point_exact : book.dispatch data infos = .ok ix ↔
    (∀ k ∈ ix.argumentKeys, book.Known k) ∧ (∃ rest, data = book.encode ix ++ rest) ∧
      ∃ front statics more, infos = front ++ statics ++ more ∧
        List.Forall₂ book.Fits ix.accounts front ∧
        List.Forall₂ StaticAccount.Is ix.name.statics statics := by
  constructor
  · exact dispatch_ok
  · rintro ⟨hknown, ⟨rest, rfl⟩, front, statics, more, rfl, hfront, hstatics⟩
    exact dispatch_encode hknown rest more hfront hstatics

end Entry

/-! ## Calls -/

section Calls
variable {book : AddressBook} {w w' : World} {s' v v' : State} {out : List Transfer}
  {l : WorldLabel} {c : Call} {ix : Instruction} {now : I64} {data : Bytes}
  {infos : List AccountInfo} {db' : AccountsDb} {g : History}

/-- What a handler did to its view of a state, stored over the image of that state. -/
theorem stored_eq (hs : Sound w.state) (hs' : Sound s') (hfit : Storable book w.state)
    (hothers : AllUntyped w.others) (hv : v.tokens = w.state.tokens)
    (hagree : AgreeOn State.cell ix.listed w.state v)
    (hwrote : Wrote State.cell ix.writable w.state v s' v') :
    (⟨fun k => if k ∈ ix.writable then book.exit (book.db w).data v v' k else (book.db w).data k,
      v'.tokens⟩ : AccountsDb) = book.db { w with state := s' } := by
  rw [AddressBook.db, AddressBook.db, AccountsDb.mk.injEq]
  constructor
  · ext k : 1
    split_ifs with hk
    · rw [← exit_image hs hs' hfit hothers]
      apply exit_of_cell
      · exact (hwrote.same k hk).symm
      · exact (hagree k (ix.writable_subset hk)).symm
    · exact (image_of_cell (hwrote.left k hk)).symm
  · apply Bank.ext_cell
    intro k
    by_cases hk : k ∈ ix.writable
    · exact (congrArg Cell.token (hwrote.same k hk)).symm
    · have hleft : s'.tokens.cell k = w.state.tokens.cell k :=
        congrArg Cell.token (hwrote.left k hk)
      have hright : v'.tokens.cell k = v.tokens.cell k := congrArg Cell.token (hwrote.right k hk)
      rw [hleft, hright, hv]

/-- What a run of the records keeps when all its addresses have bytes. -/
structure Faithful (book : AddressBook) (w : World) : Prop where
  reached : ∃ g, Reaches g w.state
  recorded : Recorded book w.state
  untyped : AllUntyped w.others

theorem Faithful.storable (hw : Faithful book w) : Storable book w.state := by
  obtain ⟨_, hr⟩ := hw.reached
  exact hr.storable hw.recorded

theorem Faithful.sound (hw : Faithful book w) : Sound w.state := by
  obtain ⟨_, hr⟩ := hw.reached
  exact hr.sound

theorem faithful_genesis : Faithful book .genesis where
  reached := ⟨[], .start⟩
  recorded := recorded_genesis
  untyped _ _ h := by cases h

theorem Faithful.sound_of_process (hw : Faithful book w)
    (hprocess : ix.process w.state now = .ok (s', out)) : Sound s' := by
  obtain ⟨_, hr⟩ := hw.reached
  have hstep : Accepts exec w.state (.instr now ix) out s' := hprocess
  exact Reaches.sound (hr.next hstep)

theorem db_tokens (tokens : Bank Pubkey) :
    book.db { w with state := { w.state with tokens } } = { book.db w with tokens } := by
  rw [AddressBook.db, AccountsDb.mk.injEq]
  refine ⟨?_, rfl⟩
  ext k : 1
  exact image_congr (fun _ => rfl) rfl rfl

theorem db_others (b : BitVec 256) (bytes : Option Bytes) :
    book.db { w with others := Function.update w.others b bytes } =
      { book.db w with data := Function.update (book.db w).data (.key b) bytes } := by
  rw [AddressBook.db, AccountsDb.mk.injEq]
  refine ⟨?_, rfl⟩
  ext k : 1
  by_cases hk : k = .key b
  · subst hk
    rw [Function.update_self]
    exact Function.update_self ..
  · rw [Function.update_of_ne hk]
    cases k with
    | key b' =>
      have hne : b' ≠ b := fun h => hk (congrArg Pubkey.key h)
      exact Function.update_of_ne hne ..
    | configPda | taskPda | claimPda | ata => rfl

theorem exec_record {k : Label} : World.exec w (.record k) = .ok (w', out) ↔
    ∃ s', Accepts exec w.state k out s' ∧ w' = { w with state := s' } := by
  simp only [World.exec, seq_eq_ok, mapError_eq_ok, return_eq_ok, Prod.mk.injEq]
  constructor
  · rintro ⟨⟨s', _⟩, hstep, rfl, rfl⟩
    exact ⟨s', hstep, rfl⟩
  · rintro ⟨s', hstep, rfl⟩
    exact ⟨(s', out), hstep, rfl, rfl⟩

theorem exec_foreign {op : ForeignOp} : World.exec w (.foreign op) = .ok (w', out) ↔
    ∃ bytes, op.process (w.others op.key) = some bytes ∧
      w' = { w with others := Function.update w.others op.key bytes } ∧ out = [] := by
  simp only [World.exec, seq_eq_ok, okOr_eq_ok, return_eq_ok, Prod.mk.injEq]
  constructor
  · rintro ⟨bytes, hop, rfl, rfl⟩
    exact ⟨bytes, hop, rfl, rfl⟩
  · rintro ⟨bytes, hop, rfl, rfl⟩
    exact ⟨bytes, hop, rfl, rfl⟩

theorem Faithful.execute_instr (hw : Faithful book w) (hread : book.dispatch data infos = .ok ix) :
    book.execute (book.db w) (.instr now data infos) = .ok (db', out) ↔
      ∃ w', World.exec w (.record (.instr now ix)) = .ok (w', out) ∧ db' = book.db w' := by
  have hs := hw.sound
  have hagree : AgreeOn State.cell ix.listed w.state (book.view (book.db w) ix.keys) :=
    (view_agree hs hw.storable hw.untyped ix.keys).mono fun k hk => List.mem_map.mpr hk
  have hstep := process_local ix now _ _ hagree
  have htokens : (book.view (book.db w) ix.keys).tokens = w.state.tokens := rfl
  simp only [AddressBook.execute, seq_eq_ok, mapError_eq_ok, hread, Except.ok.injEq, return_eq_ok,
    Prod.mk.injEq, exists_eq_left']
  constructor
  · rintro ⟨⟨v', out'⟩, hview, rfl, rfl⟩
    obtain ⟨⟨s', out₁⟩, hprocess, htraced⟩ := hstep.follow_back hview
    obtain rfl : out₁ = out' := htraced.output
    have hs' := hw.sound_of_process hprocess
    exact ⟨_, exec_record.mpr ⟨s', hprocess, rfl⟩,
      stored_eq hs hs' hw.storable hw.untyped htokens hagree htraced.toWrote⟩
  · rintro ⟨w', hrecord, rfl⟩
    obtain ⟨s', hprocess, rfl⟩ := exec_record.mp hrecord
    obtain ⟨⟨v', out'⟩, hview, htraced⟩ := hstep.follow hprocess
    have hs' := hw.sound_of_process hprocess
    exact ⟨(v', out'), hview,
      stored_eq hs hs' hw.storable hw.untyped htokens hagree htraced.toWrote,
      htraced.output.symm⟩

theorem execute_token {op : TokenOp} :
    book.execute (book.db w) (.token op) = .ok (db', out) ↔
      ∃ w', World.exec w (.record (.token op)) = .ok (w', out) ∧ db' = book.db w' := by
  simp only [AddressBook.execute, seq_eq_ok, mapError_eq_ok, return_eq_ok, Prod.mk.injEq,
    exec_record, Accepts, exec]
  constructor
  · rintro ⟨tokens, hop, rfl, rfl⟩
    exact ⟨_, ⟨_, ⟨tokens, hop, rfl, rfl⟩, rfl⟩, (db_tokens tokens).symm⟩
  · rintro ⟨_, ⟨_, ⟨tokens, hop, rfl, rfl⟩, rfl⟩, rfl⟩
    exact ⟨tokens, hop, (db_tokens tokens).symm, rfl⟩

theorem execute_foreign {op : ForeignOp} :
    book.execute (book.db w) (.foreign op) = .ok (db', out) ↔
      ∃ w', World.exec w (.foreign op) = .ok (w', out) ∧ db' = book.db w' := by
  simp only [AddressBook.execute, seq_eq_ok, okOr_eq_ok, return_eq_ok, Prod.mk.injEq, exec_foreign]
  constructor
  · rintro ⟨bytes, hop, rfl, rfl⟩
    exact ⟨_, ⟨bytes, hop, rfl, rfl⟩, (db_others op.key bytes).symm⟩
  · rintro ⟨_, ⟨bytes, hop, rfl, rfl⟩, rfl⟩
    exact ⟨bytes, hop, (db_others op.key bytes).symm, rfl⟩

/-- A call that goes through is read as some step. -/
theorem carried_of_execute {db : AccountsDb} (h : book.execute db c = .ok (db', out)) :
    ∃ l, c.Carried book l := by
  cases c with
  | instr now data infos =>
    simp only [AddressBook.execute, seq_eq_ok, mapError_eq_ok] at h
    obtain ⟨ix, hread, _⟩ := h
    exact ⟨_, .instr hread⟩
  | token op => exact ⟨_, .token op⟩
  | foreign op => exact ⟨_, .foreign op⟩

/-- One call on the bytes is one step of the world. -/
theorem Faithful.execute_eq_ok (hw : Faithful book w) :
    Accepts book.execute (book.db w) c out db' ↔
      ∃ l w', c.Carried book l ∧ Accepts World.exec w l out w' ∧ db' = book.db w' := by
  have hcall {l : WorldLabel} (hc : c.Carried book l) :
      book.execute (book.db w) c = .ok (db', out) ↔
        ∃ w', World.exec w l = .ok (w', out) ∧ db' = book.db w' := by
    cases hc with
    | instr hread => exact hw.execute_instr hread
    | token op => exact execute_token
    | foreign op => exact execute_foreign
  constructor
  · intro h
    obtain ⟨l, hc⟩ := carried_of_execute h
    obtain ⟨w', hstep, hdb⟩ := (hcall hc).mp h
    exact ⟨l, w', hc, hstep, hdb⟩
  · rintro ⟨l, w', hc, hstep, rfl⟩
    exact (hcall hc).mpr ⟨w', hstep, rfl⟩

/-- A call only mentions addresses that have bytes. -/
theorem known_of_dispatch (hread : book.dispatch data infos = .ok ix) :
    ∀ k ∈ ix.addresses, book.Known k := by
  obtain ⟨harguments, _, front, _, _, _, hfits, _⟩ := dispatch_ok hread
  refine List.forall_mem_append.mpr ⟨?_, harguments⟩
  intro k hk
  rw [Instruction.keys, ← keys_of_fits hfits] at hk
  obtain ⟨info, _, rfl⟩ := List.mem_map.mp hk
  exact known_name info.key

theorem Faithful.record_step {k : Label} (hw : Faithful book w)
    (hknown : ∀ a ∈ k.addresses, book.Known a)
    (hstep : Accepts World.exec w (.record k) out w') : Faithful book w' := by
  obtain ⟨s', hexec, rfl⟩ := exec_record.mp hstep
  obtain ⟨g, hr⟩ := hw.reached
  exact ⟨⟨_, hr.next hexec⟩, hw.recorded.step (hr.move hexec) hknown, hw.untyped⟩

theorem AllUntyped.update {others : BitVec 256 → Option Bytes} {b : BitVec 256}
    {bytes : Option Bytes} (h : AllUntyped others) (hb : ∀ data, bytes = some data → Untyped data) :
    AllUntyped (Function.update others b bytes) := by
  intro b' data hdata
  by_cases hk : b' = b
  · subst hk
    rw [Function.update_self] at hdata
    exact hb data hdata
  · rw [Function.update_of_ne hk] at hdata
    exact h b' data hdata

theorem Faithful.step (hw : Faithful book w) (hc : c.Carried book l)
    (hstep : Accepts World.exec w l out w') : Faithful book w' := by
  cases hc with
  | @instr now _ _ ix hread =>
    have hknown : ∀ k ∈ (Label.instr now ix).addresses, book.Known k := known_of_dispatch hread
    exact hw.record_step hknown hstep
  | token op => exact hw.record_step (List.forall_mem_nil _) hstep
  | foreign op =>
    obtain ⟨bytes, hop, rfl, _⟩ := exec_foreign.mp hstep
    exact ⟨hw.reached, hw.recorded, hw.untyped.update fun _ hb => op.process_untyped hop hb⟩

theorem db_genesis : book.db .genesis = .genesis := by
  rw [AddressBook.db, AccountsDb.genesis, AccountsDb.mk.injEq]
  refine ⟨?_, rfl⟩
  ext k : 1
  cases k <;> rfl

/-- Leaving out what others do, a run of the world is a run of the records. -/
theorem WorldReaches.records {g : WorldHistory} (hr : WorldReaches g w) :
    Reaches g.records w.state := by
  induction hr with
  | start => exact .start
  | @next g w w' l out _ fired ih =>
    cases l with
    | record k =>
      obtain ⟨s', hstep, rfl⟩ := exec_record.mp fired
      exact ih.next hstep
    | foreign op =>
      obtain ⟨_, _, rfl, _⟩ := exec_foreign.mp fired
      exact ih

variable {h : CallHistory} {db : AccountsDb}

/-- The bytes of a run stand for the records of a run. -/
theorem CallReaches.lift (hr : CallReaches book h db) :
    ∃ g w, WorldReaches g w ∧ Faithful book w ∧ db = book.db w ∧
      List.Forall₂ (Event.Carries book.db (Call.Carried book)) h g := by
  rw [CallReaches, ← db_genesis] at hr
  exact hr.lift faithful_genesis (fun _ _ _ _ _ hw hc hstep => hw.step hc hstep)
    (fun _ _ _ _ hw hstep => hw.execute_eq_ok.mp hstep)

/-- Byte for byte the runs on chain are the images of the runs of the records,
with what others do to their own accounts in between: the same calls in the same
order, with the same transfers. -/
theorem bytes_refine_records : CallReaches book h db ↔
    ∃ g w, WorldReaches g w ∧ Reaches g.records w.state ∧ db = book.db w ∧
      List.Forall₂ (Event.Carries book.db (Call.Carried book)) h g := by
  constructor
  · intro hr
    obtain ⟨g, w, hrun, _, hdb, hall⟩ := hr.lift
    exact ⟨g, w, hrun, hrun.records, hdb, hall⟩
  · rintro ⟨g, w, hr, _, rfl, hall⟩
    have hkeep (w : World) (c : Call) (l : WorldLabel) (out : List Transfer) (w' : World)
        (hw : Faithful book w) (hc : c.Carried book l) (hstep : Accepts World.exec w l out w') :
        Faithful book w' := hw.step hc hstep
    rw [CallReaches, ← db_genesis]
    refine (hr.lower faithful_genesis hkeep (fun w c l out w' hw hc hstep => ?_) hall).1
    exact hw.execute_eq_ok.mpr ⟨l, w', hc, hstep, rfl⟩

end Calls

/-! ## Types of accounts -/

/-- The bytes are one account of the type, to the last byte, in the space that
`init` asked for, and none of another type. -/
structure AddressBook.Only (book : AddressBook) (n : AccountName) (bytes : Bytes) : Prop where
  whole : ∃ a, (book.format n).read bytes = some a
  length : bytes.length = discriminatorSize + n.size
  others : ∀ m, m ≠ n → (book.format m).decode bytes = none

section Types
variable {book : AddressBook} {h : CallHistory} {db : AccountsDb} {s : State} {k : Pubkey}
  {n : AccountName} {bytes : Bytes}

theorem only_of_stored {a : n.Account} (hfit : Storable book s)
    (ha : book.stored n s k = some a) : book.Only n ((book.format n).encode a) where
  whole := ⟨a, (Codec.read_eq_some _).mpr ⟨hfit.dom ha, rfl⟩⟩
  length := length_format a
  others _ hm := decode_of_ne hm a

theorem stored_address (hs : Sound s) {a : n.Account} (hk : AccountName.ofAddress k = some n)
    (ha : book.stored n s k = some a) : k = n.address a ∧ n.bump a = book.bump k := by
  cases n with
  | escrowConfig =>
    obtain ⟨cfg, _, rfl⟩ := Option.map_eq_some_iff.mp ha
    cases k with
    | configPda => exact ⟨rfl, rfl⟩
    | taskPda | claimPda | key | ata => cases hk
  | escrowTask =>
    obtain ⟨t, ht, rfl⟩ := Option.map_eq_some_iff.mp ha
    exact ⟨(hs.task k t ht).key, rfl⟩
  | escrowClaim =>
    obtain ⟨r, hr, rfl⟩ := Option.map_eq_some_iff.mp ha
    exact ⟨(hs.claim k r hr).key, rfl⟩

/-- Whatever passes a typed load stands at the address of its own seeds with the
bump of that address. All data at a derived address has the type of that address
alone; elsewhere there are only zeros and accounts of Anchor's own instructions,
and these pass no typed load. -/
theorem accounts_typed (hr : CallReaches book h db) (k : Pubkey) :
    (∀ n a, loadAccount (book.format n) db.data k = some a →
      k = n.address a ∧ n.bump a = book.bump k) ∧
    ∀ bytes, db.data k = some bytes →
      (∃ n, AccountName.ofAddress k = some n ∧ book.Only n bytes) ∨
      (∃ b, k = .key b) ∧ Untyped bytes ∧ ∀ n, (book.format n).decode bytes = none := by
  obtain ⟨_, w, _, hw, rfl, _⟩ := hr.lift
  have hfit := hw.storable
  constructor
  · intro n a ha
    rw [AddressBook.db, load_image hfit hw.untyped] at ha
    split_ifs at ha with hk
    exact stored_address hw.sound hk ha
  · intro bytes hbytes
    change book.image w.state w.others k = some bytes at hbytes
    cases hk : AccountName.ofAddress k with
    | some n =>
      rw [image_derived hk] at hbytes
      obtain ⟨a, ha, rfl⟩ := Option.map_eq_some_iff.mp hbytes
      exact .inl ⟨n, rfl, only_of_stored hfit ha⟩
    | none =>
      rcases image_other book w.state w.others hk with hnone | ⟨b, rfl, himage⟩
      · rw [hnone] at hbytes
        cases hbytes
      · have huntyped : Untyped bytes := hw.untyped b bytes (himage.symm.trans hbytes)
        exact .inr ⟨⟨b, rfl⟩, huntyped, decode_untyped huntyped⟩

end Types

namespace Scenario

/-- The derived addresses that the scenarios use. -/
def derived : List Pubkey :=
  [.configPda, job, .claimPda 0, .claimPda 1, .ata .configPda usdc, .ata job usdc,
    .ata poster usdc, .ata worker usdc, .ata helper usdc]

def place : Pubkey → BitVec 256
  | .key b => b
  | k => BitVec.ofNat 256 (1000 + derived.idxOf k)

def placed (b : BitVec 256) : Pubkey := (derived.find? fun k => place k = b).getD (.key b)

theorem place_placed (b : BitVec 256) : place (placed b) = b := by
  unfold placed
  cases hfind : derived.find? fun k => place k = b with
  | none => rfl
  | some k => simpa using List.find?_some hfind

def directory : AddressBook := ⟨place, placed, place_placed, fun _ => ⟨255, by decide⟩⟩

def passed (m : AccountMeta) : AccountInfo := ⟨place m.pubkey, m.isSigner, m.isWritable⟩

def static (p : StaticAccount) : AccountInfo :=
  ⟨((Foundations.Codec.blob 32).read p.id).getD 0, false, false⟩

def wired : Label → Call
  | .instr now ix =>
    .instr now (directory.encode ix) (ix.accounts.map passed ++ ix.name.statics.map static)
  | .token op => .token op

def called (calls : List Call) : CallHistory × AccountsDb :=
  playFrom directory.execute .genesis calls

theorem called_reaches (calls : List Call) :
    CallReaches directory (called calls).1 (called calls).2 :=
  playFrom_run directory.execute .genesis calls

/-- A stranger hands the program an account, which becomes one of Anchor's, and
another one stays blank. -/
def besides : List Call :=
  [.foreign (.assign 4096 200), .foreign (.assign 4097 119)] ++ twoClaims.map wired ++
    [.foreign (.writeIdl 4096 [1, 2, 3])]

end Scenario

open Scenario in
theorem accounts_typed_job :
    ((called besides).2.data job).map List.length = some 119 ∧
      ((called besides).2.data (.key 4097)).map List.length = some 119 ∧
      (∀ a, loadAccount directory.taskAccount (called besides).2.data job = some a →
        job = .taskPda a.record.taskId ∧ a.bump = 255) ∧
      ∀ bytes, (called besides).2.data (.key 4097) = some bytes →
        directory.taskAccount.decode bytes = none := by
  have hr := called_reaches besides
  refine ⟨by decide +kernel, by decide +kernel, (accounts_typed hr job).1 .escrowTask, ?_⟩
  intro bytes hbytes
  rcases (accounts_typed hr (.key 4097)).2 bytes hbytes with ⟨n, hn, _⟩ | ⟨_, _, hnone⟩
  · cases hn
  · exact hnone .escrowTask

end ClustlyEscrow
