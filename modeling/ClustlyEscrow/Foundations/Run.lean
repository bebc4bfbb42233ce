import Mathlib.Algebra.GroupWithZero.Nat
import Mathlib.Data.List.Basic
import Mathlib.Data.List.Induction
import Mathlib.Logic.Relation

/-!
# Runs of a labelled transition system

A history lists the steps of a run, the newest first, each with its label, the
states around it and its output. The rules below are the only inductions over
runs: an invariant of states, an invariant that also reads the history, a
simulation by an abstract system that may stutter, and two systems in step.
-/
namespace Foundations

structure Event (σ ι ω : Type*) where
  label : ι
  pre : σ
  post : σ
  output : ω

section Runs
variable {σ ι ω : Type*}

inductive Run (step : σ → ι → ω → σ → Prop) (s₀ : σ) : List (Event σ ι ω) → σ → Prop
  | start : Run step s₀ [] s₀
  | next {h : List (Event σ ι ω)} {s s' : σ} {l : ι} {o : ω}
      (run : Run step s₀ h s) (fired : step s l o s') : Run step s₀ (⟨l, s, s', o⟩ :: h) s'

variable {step : σ → ι → ω → σ → Prop} {s₀ s s' : σ} {h h' : List (Event σ ι ω)}

/-- The general rule: the history is available, the prefix is a run, and every
step may be assumed to satisfy a side condition that the whole run satisfies. -/
theorem Run.history_invariant_of {P : Event σ ι ω → Prop}
    {I : List (Event σ ι ω) → σ → Prop} (h0 : I [] s₀)
    (hs : ∀ h s l o s', Run step s₀ h s → (∀ e ∈ h, P e) → P ⟨l, s, s', o⟩ → I h s →
      step s l o s' → I (⟨l, s, s', o⟩ :: h) s')
    (hr : Run step s₀ h s) (hP : ∀ e ∈ h, P e) : I h s := by
  induction hr with
  | start => exact h0
  | next run fired ih =>
    have hold := fun e he => hP e (List.mem_cons_of_mem _ he)
    exact hs _ _ _ _ _ run hold (hP _ List.mem_cons_self) (ih hold) fired

theorem Run.history_invariant {I : List (Event σ ι ω) → σ → Prop} (h0 : I [] s₀)
    (hs : ∀ h s l o s', Run step s₀ h s → I h s → step s l o s' → I (⟨l, s, s', o⟩ :: h) s')
    (hr : Run step s₀ h s) : I h s :=
  Run.history_invariant_of (P := fun _ => True) h0
    (fun h s l o s' run _ _ hI fired => hs h s l o s' run hI fired) hr (fun _ _ => trivial)

theorem Run.invariant {I : σ → Prop} (h0 : I s₀)
    (hs : ∀ s l o s', I s → step s l o s' → I s') (hr : Run step s₀ h s) : I s :=
  Run.history_invariant (I := fun _ s => I s) h0 (fun _ s l o s' _ hI => hs s l o s' hI) hr

/-- When in a run that satisfies a side condition each step from a good state
leaves a good state just if it satisfies `C`, all states are good just if all
steps satisfy `C`. -/
theorem Run.posts_iff {P C : Event σ ι ω → Prop} {Q : σ → Prop} (h0 : Q s₀)
    (hs : ∀ h s l o s', Run step s₀ h s → P ⟨l, s, s', o⟩ → Q s → step s l o s' →
      (Q s' ↔ C ⟨l, s, s', o⟩))
    (hr : Run step s₀ h s) (hP : ∀ e ∈ h, P e) : (∀ e ∈ h, Q e.post) ↔ ∀ e ∈ h, C e := by
  refine (Run.history_invariant_of (P := P) (I := fun h s => ((∀ e ∈ h, C e) → Q s) ∧
    ((∀ e ∈ h, Q e.post) ↔ ∀ e ∈ h, C e)) ⟨fun _ => h0, by simp⟩ ?_ hr hP).2
  rintro h s l o s' run _ hside ⟨hgood, hiff⟩ fired
  have hnext (hold : ∀ e ∈ h, C e) := hs h s l o s' run hside (hgood hold) fired
  simp only [List.forall_mem_cons, hiff]
  constructor
  · rintro ⟨hC, hold⟩
    exact (hnext hold).mpr hC
  · constructor
    · rintro ⟨hQ, hold⟩
      exact ⟨(hnext hold).mp hQ, hold⟩
    · rintro ⟨hC, hold⟩
      exact ⟨(hnext hold).mpr hC, hold⟩

/-- The books of a run: when every step changes a measure by what it is credited
and debited, a run changes it by its totals. -/
theorem Run.balance_of {P : Event σ ι ω → Prop} (m : σ → ℕ) (credit debit : Event σ ι ω → ℕ)
    (hs : ∀ h s l o s', Run step s₀ h s → P ⟨l, s, s', o⟩ → step s l o s' →
      m s' + debit ⟨l, s, s', o⟩ = m s + credit ⟨l, s, s', o⟩)
    (hr : Run step s₀ h s) (hP : ∀ e ∈ h, P e) :
    m s + (h.map debit).sum = m s₀ + (h.map credit).sum := by
  apply Run.history_invariant_of (P := P)
    (I := fun h s => m s + (h.map debit).sum = m s₀ + (h.map credit).sum) rfl ?_ hr hP
  intro h s l o s' run _ hside ih fired
  have hstep := hs h s l o s' run hside fired
  simp only [List.map_cons, List.sum_cons]
  omega

theorem Run.balance (m : σ → ℕ) (credit debit : Event σ ι ω → ℕ) (hr : Run step s₀ h s)
    (hs : ∀ h s l o s', Run step s₀ h s → step s l o s' →
      m s' + debit ⟨l, s, s', o⟩ = m s + credit ⟨l, s, s', o⟩) :
    m s + (h.map debit).sum = m s₀ + (h.map credit).sum :=
  Run.balance_of (P := fun _ => True) m credit debit
    (fun h s l o s' run _ fired => hs h s l o s' run fired) hr (fun _ _ => trivial)

/-- Adding up `n` for every element of one kind counts these elements. -/
theorem sum_ite_eq_countP {α : Type*} (p : α → Bool) (n : ℕ) (as : List α) :
    (as.map fun a => if p a then n else 0).sum = n * as.countP p := by
  induction as with
  | nil => rfl
  | cons a as ih =>
    rw [List.map_cons, List.sum_cons, ih, List.countP_cons]
    split_ifs
    · rw [Nat.mul_succ, Nat.add_comm]
    · rw [Nat.zero_add, Nat.add_zero]

theorem Run.trans (hr : Run step s₀ h s) (hr' : Run step s h' s') :
    Run step s₀ (h' ++ h) s' := by
  induction hr' with
  | start => exact hr
  | next _ fired ih => exact .next ih fired

theorem Run.single {l : ι} {o : ω} (fired : step s l o s') :
    Run step s [⟨l, s, s', o⟩] s' :=
  .next .start fired

/-- A run can be cut at any point of its history. -/
theorem Run.cut (hr : Run step s₀ (h' ++ h) s') :
    ∃ s, Run step s₀ h s ∧ Run step s h' s' := by
  induction h' generalizing s' with
  | nil => exact ⟨s', hr, .start⟩
  | cons e h' ih =>
    cases hr with
    | next run fired =>
      obtain ⟨s, hold, hnew⟩ := ih run
      exact ⟨s, hold, .next hnew fired⟩

/-- Every recorded event fired, from a state that the older events lead to. -/
theorem Run.at_event {e : Event σ ι ω} (hr : Run step s₀ (h' ++ e :: h) s') :
    Run step s₀ h e.pre ∧ step e.pre e.label e.output e.post ∧ Run step e.post h' s' := by
  obtain ⟨s, hold, hnew⟩ := hr.cut
  cases hold with
  | next run fired => exact ⟨run, fired, hnew⟩

/-- Refinement along an abstraction function: from states that satisfy an
invariant each step is an abstract step or a stutter, so the run of the system
shadows a run of the abstract one. -/
theorem Run.refines {τ : Type*} {next : τ → τ → Prop} {I : σ → Prop} (α : σ → τ) (h0 : I s₀)
    (hI : ∀ s l o s', I s → step s l o s' → I s')
    (hs : ∀ s l o s', I s → step s l o s' → Relation.ReflGen next (α s) (α s'))
    (hr : Run step s₀ h s) : Relation.ReflTransGen next (α s₀) (α s) := by
  refine (hr.invariant (I := fun s => I s ∧ Relation.ReflTransGen next (α s₀) (α s)) ⟨h0, .refl⟩
    (fun s l o s' hold fired => ?_)).2
  exact ⟨hI s l o s' hold.1 fired, hold.2.trans (hs s l o s' hold.1 fired).to_reflTransGen⟩

/-- An event and the one it stands for: related labels, one output, and the
states of the second seen through `α`. -/
structure Event.Carries {τ κ : Type*} (α : τ → σ) (carried : ι → κ → Prop)
    (e : Event σ ι ω) (f : Event τ κ ω) : Prop where
  label : carried e.label f.label
  pre : e.pre = α f.pre
  post : e.post = α f.post
  output : e.output = f.output

section InStep
variable {τ κ : Type*} {next : τ → κ → ω → τ → Prop} {t₀ t : τ} {α : τ → σ}
  {carried : ι → κ → Prop} {I : τ → Prop} {g : List (Event τ κ ω)}

/-- When each step from the image of a good state is the image of a step, so is
each run. -/
theorem Run.lift (h0 : I t₀) (hI : ∀ t l k o t', I t → carried l k → next t k o t' → I t')
    (hs : ∀ t l o s', I t → step (α t) l o s' → ∃ k t', carried l k ∧ next t k o t' ∧ s' = α t')
    (hr : Run step (α t₀) h s) :
    ∃ g t, Run next t₀ g t ∧ I t ∧ s = α t ∧ List.Forall₂ (Event.Carries α carried) h g := by
  induction hr with
  | start => exact ⟨[], t₀, .start, h0, rfl, .nil⟩
  | next _ fired ih =>
    obtain ⟨g, t, hrun, ht, rfl, hall⟩ := ih
    obtain ⟨k, t', hk, hstep, rfl⟩ := hs t _ _ _ ht fired
    exact ⟨_, t', hrun.next hstep, hI t _ k _ t' ht hk hstep, rfl, .cons ⟨hk, rfl, rfl, rfl⟩ hall⟩

theorem Run.lower (h0 : I t₀) (hI : ∀ t l k o t', I t → carried l k → next t k o t' → I t')
    (hs : ∀ t l k o t', I t → carried l k → next t k o t' → step (α t) l o (α t'))
    (hr : Run next t₀ g t) (hall : List.Forall₂ (Event.Carries α carried) h g) :
    Run step (α t₀) h (α t) ∧ I t := by
  induction hr generalizing h with
  | start =>
    cases hall
    exact ⟨.start, h0⟩
  | next _ fired ih =>
    cases hall with
    | @cons e _ h₁ _ he hrest =>
      obtain ⟨hold, ht⟩ := ih hrest
      obtain ⟨l, pre, post, out⟩ := e
      obtain ⟨hk, hpre, hpost, hout⟩ := he
      dsimp only at hk hpre hpost hout
      subst hpre hpost hout
      exact ⟨hold.next (hs _ _ _ _ _ ht hk fired), hI _ _ _ _ _ ht hk fired⟩

end InStep

end Runs

/-! ## Executing a list of labels -/

section Play
variable {σ ι ω ε : Type*}

/-- The step relation of a deterministic system that may refuse a label. -/
def Accepts (exec : σ → ι → Except ε (σ × ω)) (s : σ) (l : ι) (o : ω) (s' : σ) : Prop :=
  exec s l = .ok (s', o)

/-- A step on a concrete state, with a check of its result by evaluation. -/
theorem Accepts.of_check (exec : σ → ι → Except ε (σ × ω)) (s : σ) (l : ι) (p : σ → ω → Bool)
    (h : (exec s l).toOption.any (fun r => p r.1 r.2) = true) :
    ∃ o s', Accepts exec s l o s' ∧ p s' o = true := by
  unfold Accepts
  cases hx : exec s l with
  | error e =>
    rw [hx] at h
    cases h
  | ok r =>
    rw [hx] at h
    exact ⟨r.2, r.1, rfl, h⟩

def play (exec : σ → ι → Except ε (σ × ω)) (h : List (Event σ ι ω)) (s : σ) :
    List ι → Except ε (List (Event σ ι ω) × σ)
  | [] => .ok (h, s)
  | l :: ls =>
    match exec s l with
    | .error e => .error e
    | .ok (s', o) => play exec (⟨l, s, s', o⟩ :: h) s' ls

/-- What `play` computes is a run. -/
theorem play_run {exec : σ → ι → Except ε (σ × ω)} {s₀ s s' : σ}
    {h h' : List (Event σ ι ω)} {ls : List ι} (hr : Run (Accepts exec) s₀ h s)
    (hp : play exec h s ls = .ok (h', s')) : Run (Accepts exec) s₀ h' s' := by
  induction ls generalizing h s with
  | nil =>
    simp only [play, Except.ok.injEq, Prod.mk.injEq] at hp
    obtain ⟨rfl, rfl⟩ := hp
    exact hr
  | cons l ls ih =>
    simp only [play] at hp
    split at hp
    · cases hp
    · rename_i s₁ o fired
      exact ih (hr.next fired) hp

/-- The run of a script from the start; a script that is refused counts as empty. -/
def playFrom (exec : σ → ι → Except ε (σ × ω)) (s₀ : σ) (ls : List ι) :
    List (Event σ ι ω) × σ :=
  match play exec [] s₀ ls with
  | .ok hs => hs
  | .error _ => ([], s₀)

theorem playFrom_run (exec : σ → ι → Except ε (σ × ω)) (s₀ : σ) (ls : List ι) :
    Run (Accepts exec) s₀ (playFrom exec s₀ ls).1 (playFrom exec s₀ ls).2 := by
  unfold playFrom
  split
  · rename_i hs hp
    exact play_run .start hp
  · exact .start

/-- Try a label on a run; one that is refused changes nothing. -/
def attempt (exec : σ → ι → Except ε (σ × ω)) (hs : List (Event σ ι ω) × σ) (l : ι) :
    List (Event σ ι ω) × σ :=
  match exec hs.2 l with
  | .error _ => hs
  | .ok (s', o) => (⟨l, hs.2, s', o⟩ :: hs.1, s')

/-- Try a list of labels in turn: the events of the ones that succeeded, and the last state. -/
def attempts (exec : σ → ι → Except ε (σ × ω)) (s : σ) (ls : List ι) :
    List (Event σ ι ω) × σ :=
  ls.foldl (attempt exec) ([], s)

section Attempts
variable {exec : σ → ι → Except ε (σ × ω)} {s s' : σ} {l : ι} {o : ω}
  {hs : List (Event σ ι ω) × σ}

theorem attempt_of_error {e : ε} (h : exec hs.2 l = .error e) : attempt exec hs l = hs := by
  simp only [attempt, h]

theorem attempt_of_ok (h : exec hs.2 l = .ok (s', o)) :
    attempt exec hs l = (⟨l, hs.2, s', o⟩ :: hs.1, s') := by
  simp only [attempt, h]

theorem attempts_snoc (ls : List ι) :
    attempts exec s (ls ++ [l]) = attempt exec (attempts exec s ls) l := by
  simp only [attempts, List.foldl_append, List.foldl_cons, List.foldl_nil]

theorem attempts_run (exec : σ → ι → Except ε (σ × ω)) (s : σ) (ls : List ι) :
    Run (Accepts exec) s (attempts exec s ls).1 (attempts exec s ls).2 := by
  induction ls using List.reverseRecOn with
  | nil => exact .start
  | append_singleton ls l ih =>
    rw [attempts_snoc]
    cases hx : exec (attempts exec s ls).2 l with
    | error e =>
      rw [attempt_of_error hx]
      exact ih
    | ok r =>
      rw [attempt_of_ok hx]
      exact ih.next hx

end Attempts

end Play
end Foundations
