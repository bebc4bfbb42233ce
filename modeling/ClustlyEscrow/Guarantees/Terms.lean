import ClustlyEscrow.Guarantees.Deal

/-!
# The terms an enrolment is bound to

An `enroll` names a task and nothing of its terms. While the task account
stays its terms stay, but `cancel_before_enroll` removes the account and
`initialize_task` may write other terms at the same address. So an enrolment
takes the terms of the latest `initialize_task`, whatever its signer has read.
-/
namespace ClustlyEscrow
open Foundations

/-- What a worker reads before enrolling. -/
structure Terms where
  poster : Pubkey
  bounty : ℕ
  maxSlots : ℕ
  claimDeadlineSecs : ℕ
  taskDeadlineTs : ℤ
  deriving DecidableEq, Repr

def EscrowTask.terms (t : EscrowTask) : Terms :=
  ⟨t.poster, t.bounty, t.maxSlots, t.claimDeadlineSecs, t.taskDeadlineTs⟩

/-- The terms under which a step offers task `T`, if it does. -/
def Label.offers? (T : Pubkey) : Label → Option Terms
  | .instr _ (.initializeTask a _ bounty maxSlots claimDeadlineSecs taskDeadlineTs) =>
    if a.task = T then some ⟨a.poster, bounty, maxSlots, claimDeadlineSecs, taskDeadlineTs⟩
    else none
  | _ => none

/-- All terms under which a run offers task `T`, the newest first. -/
def offers (T : Pubkey) (h : History) : List Terms := h.filterMap fun e => e.label.offers? T

def Label.cancels (T : Pubkey) : Label → Bool
  | .instr _ (.cancelBeforeEnroll a) => decide (a.task = T)
  | _ => false

section Steps
variable {s s' : State} {h h' : History} {l : Label} {out : List Transfer} {T : Pubkey}
  {t t' : EscrowTask} {x : Terms}

theorem EscrowTask.SameTerms.terms_eq (h : t.SameTerms t') : t'.terms = t.terms := by
  simp only [EscrowTask.terms, h.poster, h.bounty, h.maxSlots, h.claimDeadlineSecs,
    h.taskDeadlineTs]

theorem offers_cons_of_none (hl : l.offers? T = none) :
    offers T (⟨l, s, s', out⟩ :: h) = offers T h := by
  simp [offers, hl]

theorem offers_cons_of_some (hl : l.offers? T = some x) :
    offers T (⟨l, s, s', out⟩ :: h) = x :: offers T h := by
  simp [offers, hl]

theorem fundsIn?_of_no_offer (hl : l.offers? T = none) : l.fundsIn? T = none := by
  cases l with
  | token => rfl
  | instr now ix =>
    cases ix
    case initializeTask a _ _ _ _ _ =>
      simp only [Label.offers?, Label.fundsIn?] at hl ⊢
      split_ifs at hl ⊢
      rfl
    all_goals rfl

/-- An offer takes a fresh address and is what the record then says. -/
theorem record_of_offer (hstep : Accepts exec s l out s') (hl : l.offers? T = some x) :
    s.tasks.get T = none ∧ ∃ t, s'.tasks.get T = some t ∧ t.terms = x := by
  cases l with
  | token => cases hl
  | instr now ix =>
    cases ix
    case initializeTask a taskId bounty maxSlots claimDeadlineSecs taskDeadlineTs =>
      obtain ⟨cfg, he⟩ := initializeTask_eq_ok.mp hstep
      simp only [Label.offers?] at hl
      split_ifs at hl with hT
      subst hT
      refine ⟨he.fresh, _, by rw [he.tasks', Store.get_set_self], ?_⟩
      exact Option.some.inj hl
    all_goals cases hl

/-- Nothing but a cancellation removes a task. -/
theorem Move.task_stays (hmove : Move s s' out l) (ht : s.tasks.get T = some t)
    (hl : l.cancels T = false) : ∃ t', s'.tasks.get T = some t' := by
  rcases hmove.wound_or_kept ht with ⟨_, _, _, hname, hg, he⟩ | ⟨t', ht', _⟩
  · cases hg with
    | cancel => exact absurd (Option.some.inj hname) (of_decide_eq_false hl)
    | close | autoCancel => exact ⟨_, Store.get_of_eq_set he.tasks'⟩
  · exact ⟨t', ht'⟩

/-! ## Whole runs -/

/-- The terms of a task are those of its latest offer since a state, or else
those it had in that state. -/
theorem Reaches.terms_of_latest (hr : Reaches h s) (hrun : Runs s h' s') : ∀ t',
    s'.tasks.get T = some t' → (offers T h').head? = some t'.terms ∨
      offers T h' = [] ∧ ∃ t, s.tasks.get T = some t ∧ t'.terms = t.terms := by
  refine (hrun.history_invariant (I := fun h' s' => Reaches (h' ++ h) s' ∧ ∀ t',
    s'.tasks.get T = some t' → (offers T h').head? = some t'.terms ∨
      offers T h' = [] ∧ ∃ t, s.tasks.get T = some t ∧ t'.terms = t.terms)
    ⟨hr, fun t' ht' => .inr ⟨rfl, t', ht', rfl⟩⟩ ?_).2
  rintro h₁ s₁ l out s₂ _ ⟨hr₁, ih⟩ hstep
  refine ⟨hr₁.next hstep, fun t₂ ht₂ => ?_⟩
  have hmove := hr₁.move hstep
  cases hl : l.offers? T with
  | some x =>
    obtain ⟨_, t, ht, hx⟩ := record_of_offer hstep hl
    cases ht.symm.trans ht₂
    rw [offers_cons_of_some hl, hx]
    exact .inl rfl
  | none =>
    obtain ⟨t₁, ht₁⟩ := hmove.task_existed (fundsIn?_of_no_offer hl) ht₂
    rw [offers_cons_of_none hl, (hmove.terms ht₁ ht₂).terms_eq]
    exact ih t₁ ht₁

/-- A run without a cancellation of task `T` offers it once, and only if it was not there. -/
theorem Reaches.offers_of_no_cancel (hr : Reaches h s) (hrun : Runs s h' s')
    (hno : ∀ e ∈ h', e.label.cancels T = false) :
    (offers T h').length ≤ 1 ∧ (s.tasks.get T ≠ none → offers T h' = []) := by
  have hrule := hrun.history_invariant_of (P := fun e => e.label.cancels T = false)
    (I := fun h' s' => Reaches (h' ++ h) s' ∧ (offers T h').length ≤ 1 ∧
      (s.tasks.get T ≠ none → offers T h' = [] ∧ s'.tasks.get T ≠ none) ∧
      (s'.tasks.get T = none → offers T h' = []))
    ⟨hr, Nat.zero_le _, fun hs => ⟨rfl, hs⟩, fun _ => rfl⟩ ?_ hno
  · exact ⟨hrule.2.1, fun hs => (hrule.2.2.1 hs).1⟩
  rintro h₁ s₁ l out s₂ _ _ hcancel ⟨hr₁, hlen, hkept, hnone⟩ hstep
  refine ⟨hr₁.next hstep, ?_⟩
  have hmove := hr₁.move hstep
  have stays (hex : s₁.tasks.get T ≠ none) : s₂.tasks.get T ≠ none := by
    obtain ⟨t, ht⟩ := Option.ne_none_iff_exists'.mp hex
    obtain ⟨t', ht'⟩ := hmove.task_stays ht hcancel
    rw [ht']
    exact Option.some_ne_none _
  cases hl : l.offers? T with
  | some x =>
    obtain ⟨hfresh, t, ht, _⟩ := record_of_offer hstep hl
    rw [offers_cons_of_some hl, hnone hfresh, ht]
    refine ⟨le_rfl, fun hs => absurd hfresh (hkept hs).2, fun hz => by cases hz⟩
  | none =>
    rw [offers_cons_of_none hl]
    refine ⟨hlen, fun hs => ⟨(hkept hs).1, stays (hkept hs).2⟩, fun hz => ?_⟩
    exact hnone (by_contra fun hex => stays hex hz)

/-- An accepted enrolment opens a claim on the terms that were read before it
just if the latest offer of the task since then, if there is one, was made on
these terms. As long as nobody cancels the task it is offered at most once. -/
theorem enrolment_terms {s'' : State} {now : I64} {a : Enroll} {claimId : BitVec 128}
    (hr : Reaches h s) (ht : s.tasks.get a.task = some t) (hrun : Runs s h' s')
    (henroll : Accepts exec s' (.instr now (.enroll a claimId)) out s'') :
    (∃ t'', s''.tasks.get a.task = some t'' ∧
      s''.claims.get a.claim = some (a.record now claimId) ∧
      (t''.terms = t.terms ↔ ∀ x, (offers a.task h').head? = some x → x = t.terms) ∧
      ((∀ e ∈ h', e.label.cancels a.task = false) → t''.terms = t.terms)) ∧
    ∀ T, (∀ e ∈ h' ++ h, e.label.cancels T = false) → (offers T (h' ++ h)).length ≤ 1 := by
  have hr' : Reaches (h' ++ h) s' := hr.trans hrun
  obtain ⟨t', he⟩ := enroll_eq_ok.mp henroll
  have ht'' : s''.tasks.get a.task = some { t' with slotsEnrolled := t'.slotsEnrolled + 1 } := by
    rw [he.tasks', Store.get_set_self]
  have hiff : t'.terms = t.terms ↔
      ∀ x, (offers a.task h').head? = some x → x = t.terms := by
    rcases hr.terms_of_latest hrun t' he.task with hlast | ⟨hnone, t₀, ht₀, hsame⟩
    · simp only [hlast, Option.some.injEq, forall_eq']
    · cases ht₀.symm.trans ht
      simp only [hnone, hsame, List.head?_nil, reduceCtorEq, false_imp_iff, implies_true]
  constructor
  · refine ⟨_, ht'', by rw [he.claims', Store.get_set_self], hiff, fun hno => ?_⟩
    apply hiff.mpr
    rw [(hr.offers_of_no_cancel hrun hno).2 (by rw [ht]; exact Option.some_ne_none _)]
    intro x hx
    cases hx
  · intro T hno
    exact (Reaches.offers_of_no_cancel (h := []) .start hr' hno).1

end Steps

namespace Scenario

/-- The poster takes the offer of `offered` back and makes another one under the same id. -/
def cancelsOffer : Label :=
  .instr (clock 1050) (.cancelBeforeEnroll
    ⟨poster, .configPda, job, .ata job usdc, .ata poster usdc⟩)

/-- Another worker is faster, and hands his work in. -/
def precedes : List Label := [enrolls helper 1, submits (clock 1200) helper 1]

def swaps : List Label := [cancelsOffer, fund 1 3 (clock 5000)]

end Scenario

open Scenario in
theorem enrolment_terms_steady : ∃ h' s' out s'' t'', Runs (played offered).2 h' s' ∧
    h'.length = 2 ∧ Accepts exec s' (enrolls worker 0) out s'' ∧
      s''.tasks.get job = some t'' ∧ t''.terms = ⟨poster, 10000, 3, 3600, clock 5000⟩ := by
  have hread : (played offered).2.tasks.get job =
      some ⟨0, poster, 10000, 3, 0, 0, 0, 0, 5000, 3600⟩ := by decide +kernel
  have hrun := playFrom_run exec (played offered).2 precedes
  have hquiet : ∀ e ∈ (playFrom exec (played offered).2 precedes).1,
      e.label.cancels job = false := by decide +kernel
  obtain ⟨out, s'', hstep, _⟩ := Accepts.of_check exec
    (playFrom exec (played offered).2 precedes).2 (enrolls worker 0) (fun _ _ => true)
    (by decide +kernel)
  obtain ⟨t'', ht'', _, _, hkeep⟩ :=
    (enrolment_terms (played_reaches offered) hread hrun hstep).1
  exact ⟨_, _, out, s'', t'', hrun, by decide +kernel, hstep, ht'', hkeep hquiet⟩

open Scenario in
/-- Between the worker's reading and his enrolment the bounty drops to one unit. -/
theorem enrolment_terms_swapped : ∃ h s h' s' t out s'' t'',
    Reaches h s ∧ s.tasks.get job = some t ∧ Runs s h' s' ∧
      Accepts exec s' (enrolls worker 0) out s'' ∧ s''.tasks.get job = some t'' ∧
      t.terms = ⟨poster, 10000, 3, 3600, clock 5000⟩ ∧
      t''.terms = ⟨poster, 1, 3, 3600, clock 5000⟩ := by
  obtain ⟨out, s'', hstep, hafter⟩ := Accepts.of_check exec
    (playFrom exec (played offered).2 swaps).2 (enrolls worker 0)
    (fun s'' _ => s''.tasks.get job == some ⟨0, poster, 1, 3, 1, 0, 0, 0, 5000, 3600⟩)
    (by decide +kernel)
  have hread : (played offered).2.tasks.get job =
      some ⟨0, poster, 10000, 3, 0, 0, 0, 0, 5000, 3600⟩ := by decide +kernel
  exact ⟨_, _, _, _, _, out, s'', _, played_reaches offered, hread, playFrom_run exec _ swaps,
    hstep, eq_of_beq hafter, rfl, rfl⟩

end ClustlyEscrow
