import ClustlyEscrow.Abstract.SlotBook
import ClustlyEscrow.Effects.Frame
import ClustlyEscrow.Invariants.Reachable

/-!
# The program refines the slot book

The records of a state, without money and signers, form a slot book, and every
move is one step of the book or none. So the counters of a task are a census of
its claims in every reachable state, whatever the mint and whoever signs.
-/
namespace ClustlyEscrow
open Foundations SlotBook

def phaseOf (status : ℕ) : Phase :=
  match ClaimStatus.fromU8 status with
  | some .approved | some .resolvedDeliverer => .approved
  | some .cancelled | some .resolvedPoster => .refunded
  | _ => .live

def EscrowTask.slots (t : EscrowTask) : SlotBook.Task :=
  ⟨t.maxSlots, t.slotsEnrolled, t.slotsApproved, t.slotsRefunded, decide (t.taskStatus = .opened)⟩

def EscrowClaim.slot (r : EscrowClaim) : SlotBook.Claim Pubkey := ⟨r.task, phaseOf r.status⟩

/-- The abstraction function. -/
def bookOf (s : State) : SlotBook Pubkey Pubkey :=
  ⟨s.tasks.map EscrowTask.slots, s.claims.map EscrowClaim.slot⟩

section Lookups
variable {s : State} {T c : Pubkey}

theorem bookOf_task {t : EscrowTask} (h : s.tasks.get T = some t) :
    (bookOf s).tasks.get T = some t.slots := by
  simp [bookOf, h]

theorem bookOf_claim {r : EscrowClaim} (h : s.claims.get c = some r) :
    (bookOf s).claims.get c = some r.slot := by
  simp [bookOf, h]

theorem bookOf_live {r : EscrowClaim} (h : s.claims.get c = some r)
    (hl : phaseOf r.status = .live) : (bookOf s).claims.get c = some ⟨r.task, .live⟩ := by
  rw [bookOf_claim h, EscrowClaim.slot, hl]

theorem slots_isOpen {t : EscrowTask} (h : t.taskStatus = .opened) : t.slots.isOpen = true := by
  simp [EscrowTask.slots, h]

theorem slots_closed (t : EscrowTask) :
    (t.setStatus .closed).slots = { t.slots with isOpen := false } := rfl

end Lookups

/-! ## Grounds and phases -/

section Phases
variable {cfg : EscrowConfig} {t : EscrowTask} {r r' : EscrowClaim} {l : Label}
  {outcome : ClaimStatus}

theorem live_of_eq {st : ClaimStatus} (hst : r.status = st.toU8)
    (hlive : phaseOf st.toU8 = .live) : phaseOf r.status = .live := by
  rw [hst, hlive]

theorem PayGround.live (h : PayGround cfg t r l outcome) : phaseOf r.status = .live := by
  cases h with
  | approve _ _ hst => exact live_of_eq hst rfl
  | autoApprove _ hst _ => exact live_of_eq hst rfl
  | resolve _ hst => exact live_of_eq hst rfl
  | autoResolve hst _ => exact live_of_eq hst rfl

theorem PayGround.outcome_phase (h : PayGround cfg t r l outcome) :
    (r.setStatus outcome).slot = ⟨r.task, .approved⟩ := by
  cases h <;> rfl

theorem RefundGround.live (h : RefundGround cfg t r l r') : phaseOf r.status = .live := by
  cases h with
  | reject _ _ hst _ => exact live_of_eq hst rfl
  | resolve _ hst => exact live_of_eq hst rfl

theorem RefundGround.outcome_phase (h : RefundGround cfg t r l r') :
    r'.slot = ⟨r.task, .refunded⟩ := by
  cases h <;> rfl

theorem AdvanceGround.live (h : AdvanceGround t r l r') : phaseOf r.status = .live := by
  cases h with
  | submit _ hst => rcases hst with hst | hst <;> exact live_of_eq hst rfl
  | dispute _ hst => exact live_of_eq hst rfl
  | reject _ _ hst _ => exact live_of_eq hst rfl

/-- Between enrolment and settlement a claim stays live. -/
theorem AdvanceGround.slot_eq (h : AdvanceGround t r l r') : r'.slot = r.slot := by
  have hl := h.live
  cases h <;> (rw [EscrowClaim.slot, EscrowClaim.slot, hl]; rfl)

theorem PayGround.phase_post (h : PayGround cfg t r l outcome) :
    phaseOf (r.setStatus outcome).status = .approved :=
  congrArg SlotBook.Claim.phase h.outcome_phase

theorem RefundGround.phase_post (h : RefundGround cfg t r l r') :
    phaseOf r'.status = .refunded :=
  congrArg SlotBook.Claim.phase h.outcome_phase

theorem AdvanceGround.phase_post (h : AdvanceGround t r l r') : phaseOf r'.status = .live :=
  (congrArg SlotBook.Claim.phase h.slot_eq).trans h.live

variable {s s' : State} {out : List Transfer} {c : Pubkey}

/-- A step leaves a live claim only by enrolling or by advancing it. -/
theorem Touch.left_live (h : Touch s s' out c l) (hc : s'.claims.get c = some r)
    (hl : phaseOf r.status = .live) :
    (∃ now a claimId, l = .instr now (.enroll a claimId) ∧ r = a.record now claimId) ∨
      ∃ t r₀, AdvanceGround t r₀ l r := by
  cases h with
  | enrolled _ hpost =>
    cases hpost.symm.trans hc
    exact .inl ⟨_, _, _, rfl, rfl⟩
  | advanced _ _ hpost hg =>
    cases hpost.symm.trans hc
    exact .inr ⟨_, _, hg⟩
  | paid _ _ hpost hg =>
    cases hpost.symm.trans hc
    rw [hg.phase_post] at hl
    cases hl
  | refunded _ _ hpost hg =>
    cases hpost.symm.trans hc
    rw [hg.phase_post] at hl
    cases hl

/-- A step leaves a settled claim only by paying or by refunding it. -/
theorem Touch.left_settled (h : Touch s s' out c l) (hc : s'.claims.get c = some r')
    (hl : phaseOf r'.status ≠ .live) :
    (∃ cfg t r outcome, PayGround cfg t r l outcome ∧ Paid s s' out c cfg t r outcome ∧
      r' = r.setStatus outcome) ∨
      ∃ P cfg t r, RefundGround cfg t r l r' ∧ Refunded s s' out c P cfg t r r' := by
  cases h with
  | enrolled _ hpost =>
    cases hpost.symm.trans hc
    exact absurd rfl hl
  | advanced _ _ hpost hg =>
    cases hpost.symm.trans hc
    exact absurd hg.phase_post hl
  | paid _ _ hpost hg he =>
    cases hpost.symm.trans hc
    exact .inl ⟨_, _, _, _, hg, he, rfl⟩
  | refunded _ _ hpost hg he =>
    cases hpost.symm.trans hc
    exact .inr ⟨_, _, _, _, hg, he⟩

/-- A step only names a claim that is new or live. -/
theorem Touch.found_live (h : Touch s s' out c l) (hc : s.claims.get c = some r) :
    phaseOf r.status = .live := by
  cases h with
  | enrolled hpre =>
    rw [hpre] at hc
    cases hc
  | advanced _ hpre _ hg =>
    cases hpre.symm.trans hc
    exact hg.live
  | paid _ hpre _ hg =>
    cases hpre.symm.trans hc
    exact hg.live
  | refunded _ hpre _ hg =>
    cases hpre.symm.trans hc
    exact hg.live

end Phases

/-! ## Refinement -/

section Refinement
variable {s s' : State} {out : List Transfer} {l : Label}

theorem bookOf_eq {tasks : Store Pubkey EscrowTask} {claims : Store Pubkey EscrowClaim}
    (ht : s'.tasks = tasks) (hc : s'.claims = claims) :
    bookOf s' = ⟨tasks.map EscrowTask.slots, claims.map EscrowClaim.slot⟩ := by
  rw [bookOf, ht, hc]

theorem EndGround.book {t : EscrowTask} {T : Pubkey} {tasks' : Store Pubkey EscrowTask}
    (hg : EndGround s t T l tasks') (ht : s.tasks.get T = some t) (hopen : t.taskStatus = .opened)
    (htasks : s'.tasks = tasks') (hclaims : s'.claims = s.claims) :
    Step (bookOf s) (bookOf s') := by
  have hclose (hsettled : t.activeSlots = 0)
      (h : s'.tasks = s.tasks.set T (t.setStatus .closed)) : Step (bookOf s) (bookOf s') := by
    rw [bookOf_eq h hclaims, Store.map_set, slots_closed]
    exact .close T t.slots (bookOf_task ht) (slots_isOpen hopen) hsettled
  cases hg with
  | cancel _ hunused =>
    rw [bookOf_eq htasks hclaims, Store.map_erase]
    exact .cancel T t.slots (bookOf_task ht) (slots_isOpen hopen) hunused
  | close _ hsettled => exact hclose hsettled htasks
  | autoCancel _ hunused => exact hclose (by simp [EscrowTask.activeSlots, hunused]) htasks

/-- One move is one step of the book, or the book does not change. -/
theorem Move.book (h : Move s s' out l) :
    Relation.ReflGen Step (bookOf s) (bookOf s') := by
  have stay (ht : s'.tasks = s.tasks) (hc : s'.claims = s.claims) :
      Relation.ReflGen Step (bookOf s) (bookOf s') := by
    rw [bookOf_eq ht hc]
    exact .refl
  cases h with
  | configCreated he => exact stay he.tasks' he.claims'
  | reconfigured _ _ _ _ he => exact stay (by rw [he.post]) (by rw [he.post])
  | withdrawn he => exact stay he.tasks' he.claims'
  | funded he =>
    apply Relation.ReflGen.single
    rw [bookOf_eq he.tasks' he.claims', Store.map_set]
    exact .create _ _ (by simp [bookOf, he.fresh])
  | ended _ _ hg he => exact .single (hg.book he.task he.opened he.tasks' he.claims')
  | enrolled he =>
    apply Relation.ReflGen.single
    rw [bookOf_eq he.tasks' he.claims', Store.map_set, Store.map_set]
    exact .enroll _ _ _ (bookOf_task he.task) (slots_isOpen he.opened) he.room
      (by simp [bookOf, he.fresh])
  | advanced _ _ _ hg he =>
    have hsame : bookOf s' = bookOf s := by
      rw [he.post, bookOf, bookOf, Store.map_set_same _ _ he.claim hg.slot_eq]
    rw [hsame]
  | paid _ _ hg he =>
    apply Relation.ReflGen.single
    rw [bookOf_eq he.tasks' he.claims', Store.map_set, Store.map_set, hg.outcome_phase]
    exact .approve _ _ _ (bookOf_task he.task) (bookOf_live he.claim hg.live)
  | refunded _ _ hg he =>
    apply Relation.ReflGen.single
    rw [bookOf_eq he.tasks' he.claims', Store.map_set, Store.map_set, hg.outcome_phase]
    exact .refund _ _ _ (bookOf_task he.task) (bookOf_live he.claim hg.live)
  | outside _ hpost _ => exact stay (by rw [hpost]) (by rw [hpost])

variable {h : History}

/-- Every run of the program shadows a run of the slot book. -/
theorem Reaches.book_steps (hr : Reaches h s) :
    Relation.ReflTransGen Step (bookOf State.genesis) (bookOf s) :=
  hr.refines bookOf sound_genesis (fun _ _ _ _ hs fired => hs.step (move_of_exec hs fired))
    (fun _ _ _ _ hs fired => (move_of_exec hs fired).book)

theorem bookOf_genesis : bookOf State.genesis = SlotBook.empty := by
  simp only [bookOf, State.genesis, SlotBook.empty, SlotBook.mk.injEq]
  exact ⟨Store.ext fun _ => rfl, Store.ext fun _ => rfl⟩

theorem Reaches.balanced (hr : Reaches h s) : (bookOf s).Balanced := by
  have hsteps := hr.book_steps
  rw [bookOf_genesis] at hsteps
  exact balanced_of_steps hsteps

end Refinement

/-! ## The census in the words of the program -/

section Census
variable {s : State} {h : History} {T c : Pubkey} {t : EscrowTask} {r : EscrowClaim}

theorem tally_bookOf (s : State) (T : Pubkey) (p : Phase) :
    (bookOf s).tally T p = s.claims.count fun r => r.task = T ∧ phaseOf r.status = p := by
  rw [tally, bookOf, Store.count_map]
  rfl

theorem terminal_iff : r.terminal = true ↔ phaseOf r.status ≠ .live := by
  unfold EscrowClaim.terminal phaseOf
  cases ClaimStatus.fromU8 r.status with
  | none => simp
  | some st => cases st <;> simp [ClaimStatus.isTerminal]

theorem terminal_eq_false : r.terminal = false ↔ phaseOf r.status = .live := by
  rw [← Bool.not_eq_true, terminal_iff, not_not]

theorem phaseOf_approved : phaseOf r.status = .approved ↔
    r.status = ClaimStatus.approved.toU8 ∨ r.status = ClaimStatus.resolvedDeliverer.toU8 := by
  rw [← ClaimStatus.fromU8_eq_some, ← ClaimStatus.fromU8_eq_some]
  unfold phaseOf
  cases ClaimStatus.fromU8 r.status with
  | none => simp
  | some st => cases st <;> simp

theorem phaseOf_refunded : phaseOf r.status = .refunded ↔
    r.status = ClaimStatus.cancelled.toU8 ∨ r.status = ClaimStatus.resolvedPoster.toU8 := by
  rw [← ClaimStatus.fromU8_eq_some, ← ClaimStatus.fromU8_eq_some]
  unfold phaseOf
  cases ClaimStatus.fromU8 r.status with
  | none => simp
  | some st => cases st <;> simp

/-- The subtraction in `close_task` is the number of live claims. -/
theorem Reaches.activeSlots_eq (hr : Reaches h s) (ht : s.tasks.get T = some t) :
    t.activeSlots = s.claims.count (fun r => r.task = T ∧ phaseOf r.status = .live) ∧
      t.slotsApproved + t.slotsRefunded ≤ t.slotsEnrolled ∧ t.slotsEnrolled ≤ t.maxSlots := by
  have hc := hr.balanced.census T t.slots (bookOf_task ht)
  have hl := hc.live
  rw [tally_bookOf] at hl
  exact ⟨hl.1, hl.2, hc.within⟩

theorem Reaches.parent (hr : Reaches h s) (hc : s.claims.get c = some r) :
    ∃ t, s.tasks.get r.task = some t := by
  obtain ⟨t, ht⟩ := hr.balanced.parent c r.slot (bookOf_claim hc)
  simp only [bookOf, Store.get_map, Option.map_eq_some_iff] at ht
  obtain ⟨t', ht', _⟩ := ht
  exact ⟨t', ht'⟩

/-- Claims that are not settled only exist on open tasks. -/
theorem Reaches.opened_of_live (hr : Reaches h s) (hc : s.claims.get c = some r)
    (hl : phaseOf r.status = .live) (ht : s.tasks.get r.task = some t) :
    t.taskStatus = .opened := by
  have hopen := hr.balanced.liveOpen c r.task t.slots (bookOf_live hc hl) (bookOf_task ht)
  simpa [EscrowTask.slots] using hopen

/-- A task can only be wound up when none of its claims is live. -/
theorem Reaches.settled_of_end (hr : Reaches h s) (ht : s.tasks.get T = some t)
    (hact : t.activeSlots = 0) (hc : s.claims.get c = some r) (hT : r.task = T) :
    phaseOf r.status ≠ .live := by
  rw [(hr.activeSlots_eq ht).1] at hact
  intro hl
  exact (s.claims.count_eq_zero_iff _).mp hact c r hc ⟨hT, hl⟩

theorem EndGround.activeSlots {l : Label} {tasks' : Store Pubkey EscrowTask}
    (hg : EndGround s t T l tasks') : t.activeSlots = 0 := by
  cases hg with
  | cancel _ hunused => simp [EscrowTask.activeSlots, hunused]
  | close _ hsettled => exact hsettled
  | autoCancel _ hunused => simp [EscrowTask.activeSlots, hunused]

/-- Whoever runs what, a closed task and its claims can no longer be named. -/
theorem Reaches.closed_unnamed (hr : Reaches h s) {s' : State} {l : Label} {out : List Transfer}
    (ht : s.tasks.get T = some t)
    (hclosed : t.taskStatus = .closed) (hstep : Accepts exec s l out s') : l.task? ≠ some T := by
  intro hl
  have clash (hopen : t.taskStatus = .opened) : False := by
    rw [hclosed] at hopen
    cases hopen
  cases (hr.move hstep).on_task hl ht with
  | ended _ he => exact clash he.opened
  | enrolled _ he => exact clash he.opened
  | advanced htask _ hg he => exact clash (hr.opened_of_live he.claim hg.live (htask ▸ ht))
  | paid _ _ hg he => exact clash (hr.opened_of_live he.claim hg.live he.task)
  | refunded _ _ hg he => exact clash (hr.opened_of_live he.claim hg.live he.task)

end Census
end ClustlyEscrow
