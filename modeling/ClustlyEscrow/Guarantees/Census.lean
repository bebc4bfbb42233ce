import ClustlyEscrow.Effects.Holders
import ClustlyEscrow.Effects.Vault
import ClustlyEscrow.Invariants.Book

/-!
# The counters are a census, and closing is final

Both follow from the refinement of the slot book: the counters of a task count
its claims by phase, and a claim that is not settled keeps its task open.
-/
namespace ClustlyEscrow
open Foundations

variable {s s' : State} {h h' : History} {l : Label} {out : List Transfer} {T : Pubkey}

/-- The counters of task `T` against the claim accounts that refer to it. -/
structure SlotCensus (s : State) (T : Pubkey) (t : EscrowTask) : Prop where
  enrolled : t.slotsEnrolled = s.claims.count fun r => r.task = T
  approved : t.slotsApproved = s.claims.count fun r => r.task = T ∧
    (r.status = ClaimStatus.approved.toU8 ∨ r.status = ClaimStatus.resolvedDeliverer.toU8)
  refunded : t.slotsRefunded = s.claims.count fun r => r.task = T ∧
    (r.status = ClaimStatus.cancelled.toU8 ∨ r.status = ClaimStatus.resolvedPoster.toU8)
  settled_le : t.slotsApproved + t.slotsRefunded ≤ t.slotsEnrolled
  enrolled_le : t.slotsEnrolled ≤ t.maxSlots
  slots_le : t.maxSlots ≤ maxSlotsLimit
  active : t.activeSlots = s.claims.count fun r => r.task = T ∧ r.terminal = false

theorem Reaches.census (hr : Reaches h s) {t : EscrowTask} (ht : s.tasks.get T = some t) :
    SlotCensus s T t := by
  have hc := hr.balanced.census T t.slots (bookOf_task ht)
  obtain ⟨hactive, hsettled, hwithin⟩ := hr.activeSlots_eq ht
  constructor
  · have he := hc.enrolled
    rw [bookOf, Store.count_map] at he
    exact he
  · simp only [← phaseOf_approved]
    exact hc.approved.trans (tally_bookOf s T .approved)
  · simp only [← phaseOf_refunded]
    exact hc.refunded.trans (tally_bookOf s T .refunded)
  · exact hsettled
  · exact hwithin
  · exact (hr.sound.task T t ht).slots_le
  · simp only [terminal_eq_false]
    exact hactive

/-- In every reachable state, whatever happened to the mint, the counters count
the claims, and a task is wound up only over settled claims. -/
theorem slot_counters_census (hr : Reaches h s) :
    (∀ T t, s.tasks.get T = some t → SlotCensus s T t) ∧
    (∀ T, s.tasks.get T = none → ∀ c r, s.claims.get c = some r → r.task ≠ T) ∧
    ∀ T l out s', l.ends? = some T → Accepts exec s l out s' →
      ∀ c r, s.claims.get c = some r → r.task = T → r.terminal = true := by
  refine ⟨fun T t ht => hr.census ht, ?_, ?_⟩
  · intro T hnone c r hc hT
    obtain ⟨t, ht⟩ := hr.parent hc
    rw [hT, hnone] at ht
    cases ht
  · intro T l out s' hl hstep c r hc hT
    obtain ⟨_, _, t, _, hg, he⟩ := (hr.move hstep).ended_of_ends hl
    exact terminal_iff.mpr (hr.settled_of_end he.task hg.activeSlots hc hT)

/-! ## A small world for concrete runs -/

namespace Scenario

def usdc : Pubkey := .key 1
def otherMint : Pubkey := .key 2
def admin : Pubkey := .key 3
def poster : Pubkey := .key 4
def worker : Pubkey := .key 5
def helper : Pubkey := .key 6
def stranger : Pubkey := .key 7
def job : Pubkey := .taskPda 0

def clock (n : Fin (2 ^ 63)) : I64 := ⟨n.val, by constructor <;> omega⟩

/-- The mint, the config with a fee of 4%, and a poster with tokens. -/
def setup : List Label :=
  [.token (.createMint usdc),
    .instr (clock 1000) (.initializeConfig
      ⟨admin, .configPda, usdc, .ata .configPda usdc⟩ admin 400),
    .token (.createAta poster usdc),
    .token (.mintTo (.ata poster usdc) 1000000)]

def fund (bounty : U64) (slots : U16) (deadline : I64) : Label :=
  .instr (clock 1000) (.initializeTask
    ⟨poster, .configPda, usdc, job, .ata job usdc, .ata poster usdc⟩ 0 bounty slots 3600 deadline)

def enrolls (w : Pubkey) (n : BitVec 128) : Label :=
  .instr (clock 1100) (.enroll ⟨w, .configPda, usdc, job, .claimPda n, .ata w usdc⟩ n)

def submits (now : I64) (w : Pubkey) (n : BitVec 128) : Label :=
  .instr now (.submit ⟨w, job, .claimPda n⟩ 99)

def disputes (now : I64) (w : Pubkey) (n : BitVec 128) : Label :=
  .instr now (.openDispute ⟨w, job, .claimPda n⟩)

def payout (mint w : Pubkey) (n : BitVec 128) : PayoutAccounts :=
  ⟨.configPda, mint, job, .claimPda n, .ata job mint, .ata w mint, w, .ata .configPda mint⟩

def approves (mint w : Pubkey) (n : BitVec 128) : Label :=
  .instr (clock 1300) (.approveClaim ⟨payout mint w n, poster⟩)

def rejects (n : BitVec 128) : Label :=
  .instr (clock 1300) (.rejectClaim
    ⟨poster, .configPda, job, .claimPda n, .ata job usdc, .ata poster usdc⟩)

def closes (now : I64) (caller mint : Pubkey) : Label :=
  .instr now (.closeTask
    ⟨caller, .configPda, job, .ata job mint, .ata poster mint, poster⟩)

def played (ls : List Label) : History × State := playFrom exec State.genesis ls

theorem played_reaches (ls : List Label) : Reaches (played ls).1 (played ls).2 :=
  playFrom_run exec State.genesis ls

/-- Two of three slots are taken; one claim is approved, the other one rejected. -/
def twoClaims : List Label := setup ++
  [fund 10000 3 (clock 5000), enrolls worker 0, enrolls helper 1, submits (clock 1200) worker 0,
    submits (clock 1200) helper 1, approves usdc worker 0, rejects 1]

/-- The same task once it is closed: the helper submits again and is approved. -/
def closedTask : List Label := twoClaims ++
  [submits (clock 1400) helper 1, approves usdc helper 1, closes (clock 6000) stranger usdc]

end Scenario

open Scenario in
theorem slot_counters_census_two :
    SlotCensus (played twoClaims).2 job
      ⟨0, poster, 10000, 3, 2, 1, 0, 0, 5000, 3600⟩ :=
  (slot_counters_census (played_reaches twoClaims)).1 job _ (by decide +kernel)

/-! ## Closing is final -/

/-- What a closed task guarantees about the rest of the run. -/
structure Final (s : State) (T : Pubkey) (h' : History) (s' : State) : Prop where
  /-- No later step names the task or one of its claims. -/
  unnamed : ∀ e ∈ h', e.label.task? ≠ some T ∧
    ∀ c r, s.claims.get c = some r → r.task = T → e.label.claim? ≠ some c
  task : s'.tasks.get T = s.tasks.get T
  claims : ∀ c r, r.task = T → (s'.claims.get c = some r ↔ s.claims.get c = some r)
  /-- No account with authority `T` is debited or closed. -/
  vaults : ∀ e ∈ h', ∀ k m, e.pre.tokens.holder k = some (T, m) →
    e.post.tokens.holder k = some (T, m) ∧ e.pre.tokens.balance k ≤ e.post.tokens.balance k

/-- One more step keeps every guarantee of a closed task. -/
theorem Final.step {s₀ : State} (hfin : Final s₀ T h s) (hr : Reaches h' s) {t : EscrowTask}
    (ht : s₀.tasks.get T = some t) (hclosed : t.taskStatus = .closed)
    (hstep : Accepts exec s l out s') : Final s₀ T (⟨l, s, s', out⟩ :: h) s' := by
  have hts : s.tasks.get T = some t := hfin.task.trans ht
  have hne := hr.closed_unnamed hts hclosed hstep
  have hmove := hr.move hstep
  have hT := hr.sound.task T t hts
  constructor
  · refine List.forall_mem_cons.mpr ⟨⟨hne, fun c r hc hrT hl => ?_⟩, hfin.unnamed⟩
    exact hne (hrT ▸ (hmove.touch hl).claim_task ((hfin.claims c r hrT).mpr hc))
  · rw [hmove.task_frame hne, hfin.task]
  · intro c r hrT
    rw [hmove.claims_of_task_frame hne hrT, hfin.claims c r hrT]
  · refine List.forall_mem_cons.mpr ⟨fun k m hk => ?_, hfin.vaults⟩
    have hforeign := hmove.foreign hr.sound hT.canSign hT.ne_config hk hne
    exact ⟨hforeign.holder, hforeign.balance ▸ Nat.le_add_right _ _⟩

theorem Reaches.final (hr : Reaches h s) {t : EscrowTask} (ht : s.tasks.get T = some t)
    (hclosed : t.taskStatus = .closed) (hrun : Runs s h' s') : Final s T h' s' := by
  refine (hrun.history_invariant (I := fun h' s' => Reaches (h' ++ h) s' ∧ Final s T h' s')
    ⟨hr, ⟨by simp, rfl, fun _ _ _ => Iff.rfl, by simp⟩⟩ ?_).2
  intro h₁ s₁ l out s₂ _ hI hstep
  exact ⟨hI.1.next hstep, hI.2.step hI.1 ht hclosed hstep⟩

/-- Claims that are not settled belong to an open task. Once a task is closed,
every instruction that names it or one of its claims is refused, for good. -/
theorem closed_is_final (hr : Reaches h s) :
    (∀ c r, s.claims.get c = some r → r.terminal = false →
      ∃ t, s.tasks.get r.task = some t ∧ t.taskStatus = .opened) ∧
    ∀ T t, s.tasks.get T = some t → t.taskStatus = .closed → ∀ h' s', Runs s h' s' →
      Final s T h' s' ∧ ∀ l, (l.task? = some T ∨ ∃ c r, s.claims.get c = some r ∧ r.task = T ∧
        l.claim? = some c) → ∃ e, exec s' l = .error e := by
  constructor
  · intro c r hc hlive
    obtain ⟨t, ht⟩ := hr.parent hc
    exact ⟨t, ht, hr.opened_of_live hc (terminal_eq_false.mp hlive) ht⟩
  · intro T t ht hclosed h' s' hrun
    refine ⟨hr.final ht hclosed hrun, fun l hl => ?_⟩
    cases hexec : exec s' l with
    | error e => exact ⟨e, rfl⟩
    | ok res =>
      have hnext : Runs s (⟨l, s', res.1, res.2⟩ :: h') res.1 := hrun.next hexec
      have hunnamed := (hr.final ht hclosed hnext).unnamed _ List.mem_cons_self
      rcases hl with hT | ⟨c, r, hc, hT, hcl⟩
      · exact absurd hT hunnamed.1
      · exact absurd hcl (hunnamed.2 c r hc hT)

open Scenario in
theorem closed_is_final_submit :
    ∃ e, exec (played closedTask).2 (submits (clock 7000) worker 0) = .error e :=
  ((closed_is_final (played_reaches closedTask)).2 job
    ⟨0, poster, 10000, 3, 2, 2, 0, 1, 5000, 3600⟩ (by decide +kernel) rfl [] _ .start).2 _
    (.inl rfl)

end ClustlyEscrow
