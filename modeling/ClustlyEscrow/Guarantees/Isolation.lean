import ClustlyEscrow.Guarantees.Census

/-!
# Tasks do not reach into each other

A step that names one task leaves the records, the claims and the token
accounts of every other task exactly as they were, for every choice of the
accounts that the caller is free to choose.
-/
namespace ClustlyEscrow
open Foundations

variable {s s' : State} {h : History} {l : Label} {out : List Transfer}

/-- Everything that belongs to task `B` is the same in both states. -/
structure SameTask (s s' : State) (B : Pubkey) : Prop where
  task : s'.tasks.get B = s.tasks.get B
  claims : ∀ c r, r.task = B → (s'.claims.get c = some r ↔ s.claims.get c = some r)
  accounts : ∀ k m, s.tokens.holder k = some (B, m) →
    s'.tokens.holder k = some (B, m) ∧ s'.tokens.balance k = s.tokens.balance k

theorem Move.same_task (h : Move s s' out l) (hs : Sound s) {A B : Pubkey} {b : EscrowTask}
    (hA : l.task? = some A) (hB : s.tasks.get B = some b) (hne : B ≠ A) : SameTask s s' B := by
  have hl : l.task? ≠ some B := by
    rw [hA, ne_eq, Option.some.injEq]
    exact hne.symm
  have hok := hs.task B b hB
  refine ⟨h.task_frame hl, fun c r hT => h.claims_of_task_frame hl hT, fun k m hk => ?_⟩
  have hforeign := h.foreign hs hok.canSign hok.ne_config hk hl
  have hb := hforeign.balance
  rw [hforeign.silent (by simp [hA]), Nat.add_zero] at hb
  exact ⟨hforeign.holder, hb⟩

/-- The instructions on the config and on the fees touch no record. -/
theorem Move.records_of_unnamed (h : Move s s' out l) (hl : l.task? = none) :
    s'.tasks = s.tasks ∧ s'.claims = s.claims := by
  cases h with
  | configCreated he => exact ⟨he.tasks', he.claims'⟩
  | reconfigured _ _ _ _ he => exact ⟨by rw [he.post], by rw [he.post]⟩
  | withdrawn he => exact ⟨he.tasks', he.claims'⟩
  | funded | enrolled => cases hl
  | ended htask | advanced htask | paid htask | refunded htask =>
    rw [hl] at htask
    cases htask
  | outside _ hpost _ => exact ⟨by rw [hpost], by rw [hpost]⟩

theorem tasks_isolated (hr : Reaches h s) :
    (∀ l out s' A B b, Accepts exec s l out s' → l.task? = some A → s.tasks.get B = some b →
      B ≠ A → SameTask s s' B) ∧
    (∀ now ix out s', ix.task? = none → Accepts exec s (.instr now ix) out s' →
      s'.tasks = s.tasks ∧ s'.claims = s.claims ∧
        ∀ T t k m, s.tasks.get T = some t → s.tokens.holder k = some (T, m) →
          s'.tokens.holder k = some (T, m) ∧ s.tokens.balance k ≤ s'.tokens.balance k) ∧
    ∀ l out s' c d, Accepts exec s l out s' → l.claim? = some c → d ≠ c →
      s'.claims.get d = s.claims.get d := by
  refine ⟨fun l out s' A B b hstep hA hB hne => (hr.move hstep).same_task hr.sound hA hB hne,
    fun now ix out s' hl hstep => ?_, fun l out s' c d hstep hc hd => ?_⟩
  · have hmove := hr.move hstep
    obtain ⟨htasks, hclaims⟩ := hmove.records_of_unnamed hl
    refine ⟨htasks, hclaims, fun T t k m ht hk => ?_⟩
    have hok := hr.sound.task T t ht
    have hne : (Label.instr now ix).task? ≠ some T := by
      change ix.task? ≠ some T
      simp [hl]
    have hforeign := hmove.foreign hr.sound hok.canSign hok.ne_config hk hne
    exact ⟨hforeign.holder, hforeign.balance ▸ Nat.le_add_right _ _⟩
  · apply (hr.move hstep).claim_frame
    rw [hc, ne_eq, Option.some.injEq]
    exact hd.symm

namespace Scenario

def otherJob : Pubkey := .taskPda 1

/-- A second task whose poster is the worker of the first one. -/
def twoTasks : List Label := twoClaims ++
  [.instr (clock 1400) (.initializeTask ⟨worker, .configPda, usdc, otherJob, .ata otherJob usdc,
    .ata worker usdc⟩ 1 100 2 3600 (clock 5000)), submits (clock 1400) helper 1]

end Scenario

open Scenario in
theorem tasks_isolated_approval : ∃ out s',
    Accepts exec (played twoTasks).2 (approves usdc helper 1) out s' ∧
      SameTask (played twoTasks).2 s' otherJob := by
  obtain ⟨out, s', hstep, _⟩ := Accepts.of_check exec (played twoTasks).2
    (approves usdc helper 1) (fun _ _ => true) (by decide +kernel)
  exact ⟨out, s', hstep, (tasks_isolated (played_reaches twoTasks)).1 _ out s' job otherJob
    ⟨1, worker, 100, 2, 0, 0, 0, 0, 5000, 3600⟩ hstep rfl (by decide +kernel) (by decide)⟩

end ClustlyEscrow
