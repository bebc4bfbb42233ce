import ClustlyEscrow.Foundations.Lockstep
import Mathlib.Data.Set.Basic

/-!
# Footprints of fallible actions

A state is seen as cells at addresses. An action is local when what it does
depends on the cells at its addresses only and it rewrites none but the
writable ones among them. Local actions compose, and two of them commute when
neither writes at an address of the other; so a batch of actions that pairwise
do not conflict has one outcome in every order.
-/
namespace Foundations

universe u
variable {σ ω : Type u} {κ γ ε : Type*} {cell : σ → κ → γ}

/-- The two states have the same cells at the addresses in `A`. -/
def AgreeOn (cell : σ → κ → γ) (A : Set κ) (s t : σ) : Prop := ∀ k ∈ A, cell s k = cell t k

namespace AgreeOn
variable {A B : Set κ} {s t u : σ}

theorem refl (A : Set κ) (s : σ) : AgreeOn cell A s s := fun _ _ => rfl

theorem symm (h : AgreeOn cell A s t) : AgreeOn cell A t s := fun k hk => (h k hk).symm

theorem trans (h : AgreeOn cell A s t) (h' : AgreeOn cell A t u) : AgreeOn cell A s u :=
  fun k hk => (h k hk).trans (h' k hk)

theorem mono (h : AgreeOn cell B s t) (hAB : A ⊆ B) : AgreeOn cell A s t :=
  fun k hk => h k (hAB hk)

end AgreeOn

/-- `s'` and `t'` come from `s` and `t` by writing the same cells, all of them in `W`. -/
structure Wrote (cell : σ → κ → γ) (W : Set κ) (s t s' t' : σ) : Prop where
  same : AgreeOn cell W s' t'
  left : AgreeOn cell Wᶜ s' s
  right : AgreeOn cell Wᶜ t' t

namespace Wrote
variable {A W V : Set κ} {s t s' t' s'' t'' : σ}

theorem refl (h : AgreeOn cell W s t) : Wrote cell W s t s t := ⟨h, .refl _ s, .refl _ t⟩

theorem trans (h : Wrote cell W s t s' t') (h' : Wrote cell W s' t' s'' t'') :
    Wrote cell W s t s'' t'' :=
  ⟨h'.same, h'.left.trans h.left, h'.right.trans h.right⟩

/-- States that agreed still agree. -/
theorem agreeOn (h : Wrote cell W s t s' t') (hA : AgreeOn cell A s t) :
    AgreeOn cell A s' t' := by
  intro k hk
  by_cases hW : k ∈ W
  · exact h.same k hW
  · rw [h.left k hW, h.right k hW]
    exact hA k hk

theorem mono (h : Wrote cell W s t s' t') (hV : AgreeOn cell V s t) (hW : W ⊆ V) :
    Wrote cell V s t s' t' where
  same := h.agreeOn hV
  left := h.left.mono (Set.compl_subset_compl.mpr hW)
  right := h.right.mono (Set.compl_subset_compl.mpr hW)

end Wrote

/-- What one action did to two states: the same output, and the same cells in `W`. -/
structure Traced (cell : σ → κ → γ) (W : Set κ) (s t : σ) (p q : σ × ω) : Prop
    extends Wrote cell W s t p.1 q.1 where
  output : p.2 = q.2

/-- An action that reads at `A` and writes at `W` only. -/
def Local (cell : σ → κ → γ) (A W : Set κ) (f : σ → Except ε (σ × ω)) : Prop :=
  ∀ s t, AgreeOn cell A s t → Lockstep (Traced cell W s t) (f s) (f t)

/-! ## Actions that run to the end or not at all -/

/-- Run the actions in turn, all of them or none; the outputs are listed. -/
def inTurn : List (σ → Except ε (σ × ω)) → σ → Except ε (σ × List ω)
  | [], s => .ok (s, [])
  | f :: fs, s => do
    let (s₁, o) ← f s
    let (s₂, os) ← inTurn fs s₁
    return (s₂, o :: os)

namespace Local
variable {A B W V : Set κ} {f g : σ → Except ε (σ × ω)} {s t s' : σ} {o : ω}

/-- More may be named than is used, as long as what is written is also read. -/
theorem mono (hf : Local cell A W f) (hA : A ⊆ B) (hW : W ⊆ V) (hV : V ⊆ B) :
    Local cell B V f :=
  fun s t h => (hf s t (h.mono hA)).mono fun _ _ htr => ⟨htr.mono (h.mono hV) hW, htr.output⟩

theorem inTurn {fs : List (σ → Except ε (σ × ω))} (hfs : ∀ f ∈ fs, Local cell A W f)
    (hW : W ⊆ A) : Local cell A W (Foundations.inTurn fs) := by
  induction fs with
  | nil => exact fun s t h => .ok ⟨.refl (h.mono hW), rfl⟩
  | cons f fs ih =>
    intro s t h
    refine .seq (hfs f List.mem_cons_self s t h) fun p q _ _ htr => ?_
    have hrest := ih (fun g hg => hfs g (List.mem_cons_of_mem _ hg)) p.1 q.1 (htr.agreeOn h)
    refine .seq hrest fun p' q' _ _ htr' => .ret ⟨htr.toWrote.trans htr'.toWrote, ?_⟩
    rw [htr.output, htr'.output]

end Local

/-! ## A batch of actions -/

/-- The state after an action; one that fails leaves no trace. -/
def after (f : σ → Except ε (σ × ω)) (s : σ) : σ :=
  match f s with
  | .ok (s', _) => s'
  | .error _ => s

/-- What an action outputs, if it succeeds. -/
def outcome (f : σ → Except ε (σ × ω)) (s : σ) : Option ω :=
  match f s with
  | .ok (_, o) => some o
  | .error _ => none

namespace Local
variable {A B W V : Set κ} {f g : σ → Except ε (σ × ω)} {s t : σ}

theorem after_frame (hf : Local cell A W f) (s : σ) : AgreeOn cell Wᶜ (after f s) s := by
  unfold after
  have hself := hf s s (.refl A s)
  cases hfs : f s with
  | error e => exact .refl _ s
  | ok p =>
    rw [hfs] at hself
    cases hself with
    | ok htr => exact htr.left

/-- What an action does depends on its addresses only. -/
theorem determined (hf : Local cell A W f) (h : AgreeOn cell A s t) :
    outcome f s = outcome f t ∧ AgreeOn cell A (after f s) (after f t) ∨
      outcome f s = none ∧ outcome f t = none ∧ after f s = s ∧ after f t = t := by
  unfold outcome after
  have hstep := hf s t h
  cases hfs : f s with
  | error e =>
    rw [hfs] at hstep
    cases hft : f t with
    | error e' => exact .inr ⟨rfl, rfl, rfl, rfl⟩
    | ok q =>
      rw [hft] at hstep
      cases hstep
  | ok p =>
    rw [hfs] at hstep
    cases hft : f t with
    | error e' =>
      rw [hft] at hstep
      cases hstep
    | ok q =>
      rw [hft] at hstep
      cases hstep with
      | ok htr => exact .inl ⟨congrArg some htr.output, htr.agreeOn h⟩

theorem outcome_eq (hf : Local cell A W f) (h : AgreeOn cell A s t) :
    outcome f s = outcome f t := by
  rcases hf.determined h with ⟨ho, _⟩ | ⟨hs, ht, _⟩
  · exact ho
  · rw [hs, ht]

theorem after_agree (hf : Local cell A W f) (h : AgreeOn cell A s t) :
    AgreeOn cell A (after f s) (after f t) := by
  rcases hf.determined h with ⟨_, hagree⟩ | ⟨_, _, hs, ht⟩
  · exact hagree
  · rwa [hs, ht]

/-- An action that writes at none of its addresses can not be noticed by another. -/
theorem unnoticed (hg : Local cell B V g) (hVA : ∀ k ∈ V, k ∉ A) (s : σ) :
    AgreeOn cell A (after g s) s :=
  (hg.after_frame s).mono fun k hk hV => hVA k hV hk

/-- Two actions commute when neither writes at an address of the other. -/
theorem commute (hext : ∀ s t : σ, (∀ k, cell s k = cell t k) → s = t)
    (hf : Local cell A W f) (hg : Local cell B V g) (hW : W ⊆ A) (hV : V ⊆ B)
    (hWB : ∀ k ∈ W, k ∉ B) (hVA : ∀ k ∈ V, k ∉ A) (s : σ) :
    after g (after f s) = after f (after g s) := by
  apply hext
  intro k
  by_cases hkA : k ∈ A
  · have hunseen := hf.after_agree (hg.unnoticed hVA s) k hkA
    rw [hunseen, hg.after_frame _ k fun hkV => hVA k hkV hkA]
  · rw [hf.after_frame (after g s) k fun hkW => hkA (hW hkW)]
    by_cases hkB : k ∈ B
    · exact hg.after_agree (hf.unnoticed hWB s) k hkB
    · rw [hg.after_frame _ k fun hkV => hkB (hV hkV),
        hg.after_frame s k fun hkV => hkB (hV hkV), hf.after_frame s k fun hkW => hkA (hW hkW)]

end Local

section Batch
variable {τ : Type*} {act : τ → σ → Except ε (σ × ω)} {A W : τ → Set κ}

/-- Neither of the two writes at an address of the other. -/
structure Apart (A W : τ → Set κ) (x y : τ) : Prop where
  left : ∀ k ∈ W x, k ∉ A y
  right : ∀ k ∈ W y, k ∉ A x

/-- Run a batch in the given order; an action that fails leaves no trace. -/
def runBatch (act : τ → σ → Except ε (σ × ω)) (s : σ) (xs : List τ) : σ :=
  xs.foldl (fun s x => after (act x) s) s

variable {xs ys : List τ}

/-- The order of a batch without conflicts does not matter. -/
theorem runBatch_perm (hext : ∀ s t : σ, (∀ k, cell s k = cell t k) → s = t)
    (hlocal : ∀ x, Local cell (A x) (W x) (act x)) (hW : ∀ x, W x ⊆ A x)
    (hapart : ∀ x ∈ xs, ∀ y ∈ xs, x ≠ y → Apart A W x y) (hperm : xs.Perm ys) (s : σ) :
    runBatch act s xs = runBatch act s ys := by
  apply hperm.foldl_eq'
  intro x hx y hy s
  by_cases hxy : x = y
  · rw [hxy]
  · have h := hapart x hx y hy hxy
    exact (hlocal x).commute hext (hlocal y) (hW x) (hW y) h.left h.right s

/-- An action can not tell that a batch it does not conflict with has run before it. -/
theorem runBatch_unnoticed (hlocal : ∀ x, Local cell (A x) (W x) (act x)) {x : τ}
    (hapart : ∀ y ∈ ys, ∀ k ∈ W y, k ∉ A x) (s : σ) :
    AgreeOn cell (A x) (runBatch act s ys) s := by
  induction ys generalizing s with
  | nil => exact .refl _ s
  | cons y ys ih =>
    have hhead := (hlocal y).unnoticed (hapart y List.mem_cons_self) s
    exact (ih (fun z hz => hapart z (List.mem_cons_of_mem _ hz)) _).trans hhead

end Batch
end Foundations
