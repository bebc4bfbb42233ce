import ClustlyEscrow.Effects.Holders
import ClustlyEscrow.Guarantees.Deal

/-!
# A refund that is due

After the deadline anybody may return the rest of an idle task to its poster.
Nothing takes that away but the update of the mint, the end of the task itself,
and an enrolment: `enroll` does not read the deadline, so it can still put a
live claim in front of the refund.
-/
namespace ClustlyEscrow
open Foundations

/-- The two calls that anybody can make after the deadline. -/
inductive RefundCall (a : CloseTask) : Instruction → Prop
  | close : RefundCall a (.closeTask a)
  | autoCancel : RefundCall a (.autoCancelTask a)

/-- What a refund call asks of the counters of its task. -/
def Instruction.Clear (t : EscrowTask) : Instruction → Prop
  | .autoCancelTask _ => t.slotsEnrolled = 0
  | _ => t.activeSlots = 0

/-- The instruction succeeds in state `s`. -/
def Callable (s : State) (now : I64) (ix : Instruction) : Prop :=
  ∃ out s', Accepts exec s (.instr now ix) out s'

def Label.enrollsIn (T : Pubkey) : Label → Bool
  | .instr _ (.enroll a _) => decide (a.task = T)
  | _ => false

/-- The refund of the task is due and nothing stands in its way. -/
def Matured (s : State) (now : I64) (a : CloseTask) (ix : Instruction) : Prop :=
  ∃ cfg t, a.Loaded s cfg t ∧ t.Due now ∧ t.taskStatus = .opened ∧ ix.Clear t

section Calls
variable {s s' : State} {h h' : History} {l : Label} {out : List Transfer} {now : I64}
  {a : CloseTask} {ix : Instruction} {cfg cfg' : EscrowConfig} {t : EscrowTask}

theorem RefundCall.found (hcall : RefundCall a ix) (hs : Sound s) (hok : Callable s now ix) :
    ∃ cfg t, a.Loaded s cfg t ∧ t.taskStatus = .opened ∧ ix.Clear t := by
  obtain ⟨out, s', hstep⟩ := hok
  cases hcall with
  | close =>
    obtain ⟨cfg, t, hl, _, hactive, he⟩ := (closeTask_eq_ok hs).mp hstep
    exact ⟨cfg, t, hl, he.opened, hactive⟩
  | autoCancel =>
    obtain ⟨cfg, t, hl, _, hunused, he⟩ := (autoCancelTask_eq_ok hs).mp hstep
    exact ⟨cfg, t, hl, he.opened, hunused⟩

/-- A refund that is due now is due at every later time. -/
theorem Matured.callable (hm : Matured s now a ix) (hcall : RefundCall a ix) (hs : Sound s)
    {later : I64} (hlater : now ≤ later) : Callable s later ix := by
  obtain ⟨cfg, t, hl, ⟨hdated, hdue⟩, hopen, hclear⟩ := hm
  obtain ⟨m, hvault⟩ := hl.vault
  have hdue' : t.Due later := ⟨hdated, hdue.trans hlater⟩
  obtain ⟨s', out, he⟩ := Ended.exists hs hl.config hl.task hopen
    (loaded_vault hs hl.vault_key hvault) hl.posterAta (s.tasks.set a.task (t.setStatus .closed))
  refine ⟨out, s', ?_⟩
  cases hcall with
  | close => exact (closeTask_eq_ok hs).mpr ⟨cfg, t, hl, .inr hdue', hclear, he⟩
  | autoCancel => exact (autoCancelTask_eq_ok hs).mpr ⟨cfg, t, hl, hdue', hclear, he⟩

theorem RefundCall.idle (hcall : RefundCall a ix) (hclear : ix.Clear t) : t.activeSlots = 0 := by
  cases hcall with
  | close => exact hclear
  | autoCancel =>
    have hunused : t.slotsEnrolled = 0 := hclear
    rw [EscrowTask.activeSlots, hunused, Nat.zero_sub, Nat.zero_sub]

/-! ## One step -/

theorem CloseTask.Loaded.kept (hl : a.Loaded s cfg t) (hs : Sound s)
    (hstep : Accepts exec s l out s') (hcfg : s'.config = some cfg')
    (hmint : cfg'.usdcMint = cfg.usdcMint) (ht : s'.tasks.get a.task = some t)
    (hends : l.ends? ≠ some a.task) (hkeep : l.disposes? ≠ some a.posterAta) :
    a.Loaded s' cfg' t := by
  have hT := hs.task a.task t hl.task
  obtain ⟨m, hvault⟩ := hl.vault
  have hvault' : s'.tokens.holder a.taskVault = some (a.task, m) := by
    apply holder_kept hs hstep hvault hends
    intro hsign
    rw [hT.canSign] at hsign
    cases hsign
  have hP : s'.tokens.holder a.posterAta = some (t.poster, cfg.usdcMint) :=
    holder_kept hs hstep hl.posterAta
      ((move_of_exec hs hstep).ends_ne_of_canSign hs hT.poster) fun _ => hkeep
  exact ⟨hl.caller_signs, hl.config_key, hcfg, ht, hl.task_key, by rw [hmint, hl.vault_key],
    ⟨m, hvault'⟩, by rw [hmint, hP], hl.poster⟩

/-- While the task is idle a step on it is its end or an enrolment. -/
theorem Reaches.idle_step (hr : Reaches h s) (hstep : Accepts exec s l out s')
    (ht : s.tasks.get a.task = some t) (hidle : t.activeSlots = 0)
    (hends : l.ends? ≠ some a.task) :
    l.enrollsIn a.task = false ∧ s'.tasks.get a.task = some t ∨
      l.enrollsIn a.task = true ∧
        s'.tasks.get a.task = some { t with slotsEnrolled := t.slotsEnrolled + 1 } := by
  have hmove := hr.move hstep
  by_cases hl : l.task? = some a.task
  swap
  · refine .inl ⟨?_, (hmove.task_frame hl).trans ht⟩
    by_contra henroll
    cases l with
    | token => exact henroll rfl
    | instr now' ix' =>
      cases ix'
      case enroll b claimId =>
        exact henroll (decide_eq_false fun heq => hl (congrArg some heq))
      all_goals exact henroll rfl
  have settled {c : Pubkey} {r : EscrowClaim} (hc : s.claims.get c = some r)
      (hT : r.task = a.task) (hlc : l.claim? = some c) : False :=
    hr.settled_of_end ht hidle hc hT ((hmove.touch hlc).found_live hc)
  cases hmove.on_task hl ht with
  | ended hg _ => exact absurd (hg.ends_eq.trans hl) hends
  | enrolled htask he =>
    exact .inr ⟨decide_eq_true htask, by rw [he.tasks', htask, Store.get_set_self]⟩
  | advanced hT hlc _ he => exact (settled he.claim hT hlc).elim
  | paid hT hlc _ he => exact (settled he.claim hT hlc).elim
  | refunded hT hlc _ he => exact (settled he.claim hT hlc).elim

/-- What a step has to leave alone for a refund into account `a.posterAta`. -/
structure Spares (a : CloseTask) (l : Label) : Prop where
  mint : l.updatesMint = false
  task : l.ends? ≠ some a.task
  account : l.disposes? ≠ some a.posterAta

/-- An enrolment defers a refund that is due, and no other step does. -/
theorem Matured.step (hm : Matured s now a ix) (hr : Reaches h s) (hcall : RefundCall a ix)
    (hstep : Accepts exec s l out s') (hspares : Spares a l) :
    (l.enrollsIn a.task = false → Matured s' now a ix) ∧
      (Callable s' now ix → l.enrollsIn a.task = false) := by
  obtain ⟨cfg, t, hl, hdue, hopen, hclear⟩ := hm
  have hidle := hcall.idle hclear
  have hr' : Reaches (⟨l, s, s', out⟩ :: h) s' := hr.next hstep
  obtain ⟨cfg', hcfg', hmint⟩ := (hr.move hstep).config_mint_kept hspares.mint hl.config
  rcases hr.idle_step hstep hl.task hidle hspares.task with ⟨hno, ht'⟩ | ⟨henroll, ht'⟩
  · refine ⟨fun _ => ⟨cfg', t, ?_, hdue, hopen, hclear⟩, fun _ => hno⟩
    exact hl.kept hr.sound hstep hcfg' hmint ht' hspares.task hspares.account
  · refine ⟨fun hno => ?_, fun hok => ?_⟩
    · rw [henroll] at hno
      cases hno
    · obtain ⟨_, t', hl', _, hclear'⟩ := hcall.found hr'.sound hok
      cases ht'.symm.trans hl'.task
      -- the new claim is active, so the counters no longer agree
      obtain ⟨_, hsettled, _⟩ := hr.activeSlots_eq hl.task
      have hactive := hcall.idle hclear'
      simp only [EscrowTask.activeSlots] at hactive
      omega

/-! ## Whole runs -/

theorem Matured.run (hm : Matured s now a ix) (hr : Reaches h s) (hcall : RefundCall a ix)
    (hrun : Runs s h' s') (hspares : ∀ e ∈ h', Spares a e.label) :
    (∀ e ∈ h', ∀ later, now ≤ later → Callable e.post later ix) ↔
      ∀ e ∈ h', e.label.enrollsIn a.task = false := by
  have hrule := hrun.history_invariant_of (P := fun e => Spares a e.label)
    (I := fun h' s' => Reaches (h' ++ h) s' ∧
      ((∀ e ∈ h', e.label.enrollsIn a.task = false) → Matured s' now a ix) ∧
      ((∀ e ∈ h', ∀ later, now ≤ later → Callable e.post later ix) ↔
        ∀ e ∈ h', e.label.enrollsIn a.task = false))
    ⟨hr, fun _ => hm, by simp⟩ ?_ hspares
  · exact hrule.2.2
  rintro h₁ s₁ l out s₂ _ _ hspared ⟨hr₁, hmatured, hiff⟩ hstep
  have hr₂ : Reaches (⟨l, s₁, s₂, out⟩ :: (h₁ ++ h)) s₂ := hr₁.next hstep
  have hnext (hold : ∀ e ∈ h₁, e.label.enrollsIn a.task = false) :=
    (hmatured hold).step hr₁ hcall hstep hspared
  refine ⟨hr₂, fun hall => ?_, ?_⟩
  · rw [List.forall_mem_cons] at hall
    exact (hnext hall.2).1 hall.1
  · rw [List.forall_mem_cons, List.forall_mem_cons, hiff]
    constructor
    · rintro ⟨hok, hold⟩
      exact ⟨(hnext hold).2 (hok now le_rfl), hold⟩
    · rintro ⟨hno, hold⟩
      exact ⟨fun later hlater => ((hnext hold).1 hno).callable hcall hr₂.sound hlater, hold⟩

/-- Once the deadline has passed and a refund call would succeed, it goes on to
succeed after every further step, at every later time, just if no step enrols
a claim on the task. -/
theorem matured_refund (hr : Reaches h s) (hcall : RefundCall a ix)
    (ht : s.tasks.get a.task = some t) (hdue : t.Due now) (hok : Callable s now ix)
    (hrun : Runs s h' s') (hspares : ∀ e ∈ h', Spares a e.label) :
    (∀ e ∈ h', ∀ later, now ≤ later → Callable e.post later ix) ↔
      ∀ e ∈ h', e.label.enrollsIn a.task = false := by
  obtain ⟨cfg, t', hl, hopen, hclear⟩ := hcall.found hr.sound hok
  cases ht.symm.trans hl.task
  have hm : Matured s now a ix := ⟨cfg, t, hl, hdue, hopen, hclear⟩
  exact hm.run hr hcall hrun hspares

end Calls

namespace Scenario

/-- A stranger's call to return the bounty of `offered` after its deadline. -/
def refundCall : CloseTask :=
  ⟨stranger, .configPda, job, .ata job usdc, .ata poster usdc, poster⟩

def enrollsLate : Label :=
  .instr (clock 6000) (.enroll ⟨worker, .configPda, usdc, job, .claimPda 0, .ata worker usdc⟩ 0)

def changesFee : Label := .instr (clock 6500) (.updateFee ⟨.configPda, admin⟩ 100)

end Scenario

open Scenario in
theorem matured_refund_offered : ∃ out s', Accepts exec (played offered).2 changesFee out s' ∧
    Callable s' (clock 7000) (.closeTask refundCall) := by
  obtain ⟨outc, sc, hclose, _⟩ := Accepts.of_check exec (played offered).2
    (.instr (clock 6000) (.closeTask refundCall)) (fun _ _ => true) (by decide +kernel)
  obtain ⟨out, s', hstep, _⟩ := Accepts.of_check exec (played offered).2 changesFee
    (fun _ _ => true) (by decide +kernel)
  have hread : (played offered).2.tasks.get job =
      some ⟨0, poster, 10000, 3, 0, 0, 0, 0, 5000, 3600⟩ := by decide +kernel
  have hdue : EscrowTask.Due ⟨0, poster, 10000, 3, 0, 0, 0, 0, 5000, 3600⟩ (clock 6000) :=
    ⟨by decide, by decide⟩
  have hspares : Spares refundCall changesFee :=
    ⟨rfl, (Option.some_ne_none _).symm, (Option.some_ne_none _).symm⟩
  have hiff := matured_refund (played_reaches offered) .close hread hdue ⟨outc, sc, hclose⟩
    (.single hstep) (List.forall_mem_singleton.mpr hspares)
  refine ⟨out, s', hstep, hiff.mpr ?_ _ List.mem_cons_self (clock 7000) (by decide)⟩
  exact List.forall_mem_singleton.mpr rfl

open Scenario in
/-- After the deadline a newcomer enrols and the refund is refused. -/
theorem matured_refund_deferred : ∃ h s t out s', Reaches h s ∧ s.tasks.get job = some t ∧
    t.Due (clock 6000) ∧ Callable s (clock 6000) (.closeTask refundCall) ∧
      Accepts exec s enrollsLate out s' ∧
      ¬ Callable s' (clock 6000) (.closeTask refundCall) := by
  obtain ⟨out, s', hstep, hrefused⟩ := Accepts.of_check exec (played offered).2 enrollsLate
    (fun s' _ => (exec s' (.instr (clock 6000) (.closeTask refundCall))).toOption.isNone)
    (by decide +kernel)
  obtain ⟨outc, sc, hclose, _⟩ := Accepts.of_check exec (played offered).2
    (.instr (clock 6000) (.closeTask refundCall)) (fun _ _ => true) (by decide +kernel)
  refine ⟨_, (played offered).2, ⟨0, poster, 10000, 3, 0, 0, 0, 0, 5000, 3600⟩, out, s',
    played_reaches offered, by decide +kernel, ⟨by decide, by decide⟩, ⟨outc, sc, hclose⟩,
    hstep, ?_⟩
  rintro ⟨out', s'', hok⟩
  unfold Accepts at hok
  rw [hok] at hrefused
  cases hrefused

end ClustlyEscrow
