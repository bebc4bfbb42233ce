import ClustlyEscrow.Foundations.Run
import ClustlyEscrow.Foundations.Store

/-!
# The slot book

What the records of the program are for, without money and without signers. A
task offers slots; a claim occupies one slot and is live until it is approved
or refunded, once; a task is closed only when none of its claims is live. The
counters of a task are a census of its claims in every reachable book.
-/
namespace ClustlyEscrow
open Foundations

namespace SlotBook

inductive Phase
  | live
  | approved
  | refunded
  deriving DecidableEq, Repr

structure Task where
  slots : ℕ
  enrolled : ℕ
  approved : ℕ
  refunded : ℕ
  isOpen : Bool
  deriving DecidableEq, Repr

structure Claim (τ : Type*) where
  task : τ
  phase : Phase
  deriving DecidableEq, Repr

end SlotBook

structure SlotBook (τ κ : Type*) where
  tasks : Store τ SlotBook.Task
  claims : Store κ (SlotBook.Claim τ)

namespace SlotBook
variable {τ κ : Type*} [DecidableEq τ] [DecidableEq κ]

def empty : SlotBook τ κ := ⟨.empty, .empty⟩

/-- The live claims of a task, and those of one settled phase, by number. -/
def tally (b : SlotBook τ κ) (T : τ) (p : Phase) : ℕ :=
  b.claims.count fun r => r.task = T ∧ r.phase = p

inductive Step (b : SlotBook τ κ) : SlotBook τ κ → Prop
  | create (T : τ) (slots : ℕ) (fresh : b.tasks.get T = none) :
      Step b ⟨b.tasks.set T ⟨slots, 0, 0, 0, true⟩, b.claims⟩
  | cancel (T : τ) (t : Task) (found : b.tasks.get T = some t) (isOpen : t.isOpen = true)
      (unused : t.enrolled = 0) : Step b ⟨b.tasks.erase T, b.claims⟩
  | close (T : τ) (t : Task) (found : b.tasks.get T = some t) (isOpen : t.isOpen = true)
      (settled : t.enrolled - t.approved - t.refunded = 0) :
      Step b ⟨b.tasks.set T { t with isOpen := false }, b.claims⟩
  | enroll (T : τ) (t : Task) (c : κ) (found : b.tasks.get T = some t) (isOpen : t.isOpen = true)
      (room : t.enrolled < t.slots) (fresh : b.claims.get c = none) :
      Step b ⟨b.tasks.set T { t with enrolled := t.enrolled + 1 }, b.claims.set c ⟨T, .live⟩⟩
  | approve (T : τ) (t : Task) (c : κ) (found : b.tasks.get T = some t)
      (live : b.claims.get c = some ⟨T, .live⟩) :
      Step b ⟨b.tasks.set T { t with approved := t.approved + 1 },
        b.claims.set c ⟨T, .approved⟩⟩
  | refund (T : τ) (t : Task) (c : κ) (found : b.tasks.get T = some t)
      (live : b.claims.get c = some ⟨T, .live⟩) :
      Step b ⟨b.tasks.set T { t with refunded := t.refunded + 1 },
        b.claims.set c ⟨T, .refunded⟩⟩

/-- The counters of one task agree with its claims. -/
structure Census (b : SlotBook τ κ) (T : τ) (t : Task) : Prop where
  enrolled : t.enrolled = b.claims.count fun r => r.task = T
  approved : t.approved = b.tally T .approved
  refunded : t.refunded = b.tally T .refunded
  within : t.enrolled ≤ t.slots

structure Balanced (b : SlotBook τ κ) : Prop where
  census : ∀ T t, b.tasks.get T = some t → b.Census T t
  parent : ∀ c r, b.claims.get c = some r → ∃ t, b.tasks.get r.task = some t
  liveOpen : ∀ c T t, b.claims.get c = some ⟨T, .live⟩ → b.tasks.get T = some t →
    t.isOpen = true

omit [DecidableEq κ] in
/-- Every claim of a task is in exactly one phase. -/
theorem count_eq_tally (b : SlotBook τ κ) (T : τ) :
    (b.claims.count fun r => r.task = T) =
      b.tally T .live + (b.tally T .approved + b.tally T .refunded) := by
  have hsettled : (b.claims.count fun r => r.task = T ∧ r.phase ≠ .live) =
      b.tally T .approved + b.tally T .refunded := by
    apply b.claims.count_add
    · intro r
      cases r.phase <;> simp
    · intro r h
      simp [h.2]
  rw [← hsettled]
  apply b.claims.count_add
  · intro r
    cases r.phase <;> simp
  · intro r h
    simp [h.2]

omit [DecidableEq κ] in
/-- The subtraction of the counters is the number of live claims. -/
theorem Census.live {b : SlotBook τ κ} {T : τ} {t : Task} (h : b.Census T t) :
    t.enrolled - t.approved - t.refunded = b.tally T .live ∧
      t.approved + t.refunded ≤ t.enrolled := by
  have hc := b.count_eq_tally T
  rw [← h.enrolled, ← h.approved, ← h.refunded] at hc
  omega

/-! ## Preservation -/

omit [DecidableEq κ] in
theorem Balanced.unused {b : SlotBook τ κ} (h : b.Balanced) {T : τ} {t : Task}
    (found : b.tasks.get T = some t) (unused : t.enrolled = 0) (c : κ) (r : Claim τ)
    (hc : b.claims.get c = some r) : r.task ≠ T := by
  have hz := (h.census T t found).enrolled
  rw [unused] at hz
  exact (b.claims.count_eq_zero_iff _).mp hz.symm c r hc

omit [DecidableEq κ] in
theorem Balanced.settled {b : SlotBook τ κ} (h : b.Balanced) {T : τ} {t : Task}
    (found : b.tasks.get T = some t) (settled : t.enrolled - t.approved - t.refunded = 0) (c : κ)
    (r : Claim τ) (hc : b.claims.get c = some r) (hT : r.task = T) : r.phase ≠ .live := by
  rw [(h.census T t found).live.1] at settled
  intro hp
  exact (b.claims.count_eq_zero_iff _).mp settled c r hc ⟨hT, hp⟩

omit [DecidableEq κ] in
/-- The census only reads the claims, so it survives a change of the tasks. -/
theorem Census.of_claims_eq {b b' : SlotBook τ κ} {T : τ} {t t' : Task} (h : b.Census T t)
    (hc : b'.claims = b.claims) (he : t'.enrolled = t.enrolled) (ha : t'.approved = t.approved)
    (hr : t'.refunded = t.refunded) (hs : t'.slots = t.slots) : b'.Census T t' where
  enrolled := by rw [he, hc, h.enrolled]
  approved := by rw [ha, tally, hc, h.approved, tally]
  refunded := by rw [hr, tally, hc, h.refunded, tally]
  within := by rw [he, hs]; exact h.within

omit [DecidableEq κ] in
theorem Balanced.create {b : SlotBook τ κ} (h : b.Balanced) {T : τ} {slots : ℕ}
    (fresh : b.tasks.get T = none) :
    Balanced ⟨b.tasks.set T ⟨slots, 0, 0, 0, true⟩, b.claims⟩ := by
  have hnone (c : κ) (r : Claim τ) (hc : b.claims.get c = some r) : r.task ≠ T := by
    obtain ⟨t, ht⟩ := h.parent c r hc
    rintro rfl
    rw [fresh] at ht
    cases ht
  have hzero (p : Claim τ → Prop) [DecidablePred p] (hp : ∀ r, p r → r.task = T) :
      b.claims.count p = 0 :=
    (b.claims.count_eq_zero_iff p).mpr (fun c r hc hpr => hnone c r hc (hp r hpr))
  constructor
  · apply Store.forall_set
    · intro U u hu
      exact (h.census U u hu).of_claims_eq rfl rfl rfl rfl rfl
    · exact ⟨(hzero _ (fun _ hp => hp)).symm, (hzero _ (fun _ hp => hp.1)).symm,
        (hzero _ (fun _ hp => hp.1)).symm, Nat.zero_le _⟩
  · intro c r hc
    exact Store.exists_set T _ (h.parent c r hc)
  · intro c U u hc hu
    rw [Store.get_set_of_ne _ (hnone c _ hc)] at hu
    exact h.liveOpen c U u hc hu

omit [DecidableEq κ] in
theorem Balanced.cancel {b : SlotBook τ κ} (h : b.Balanced) {T : τ} {t : Task}
    (found : b.tasks.get T = some t) (unused : t.enrolled = 0) :
    Balanced ⟨b.tasks.erase T, b.claims⟩ := by
  have hnone := h.unused found unused
  constructor
  · apply Store.forall_erase
    intro U u hu
    exact (h.census U u hu).of_claims_eq rfl rfl rfl rfl rfl
  · intro c r hc
    obtain ⟨t, ht⟩ := h.parent c r hc
    exact ⟨t, by rw [Store.get_erase_of_ne _ (hnone c r hc), ht]⟩
  · intro c U u hc hu
    rw [Store.get_erase_of_ne _ (hnone c _ hc)] at hu
    exact h.liveOpen c U u hc hu

omit [DecidableEq κ] in
theorem Balanced.close {b : SlotBook τ κ} (h : b.Balanced) {T : τ} {t : Task}
    (found : b.tasks.get T = some t) (settled : t.enrolled - t.approved - t.refunded = 0) :
    Balanced ⟨b.tasks.set T { t with isOpen := false }, b.claims⟩ := by
  constructor
  · apply Store.forall_set
    · intro U u hu
      exact (h.census U u hu).of_claims_eq rfl rfl rfl rfl rfl
    · exact (h.census T t found).of_claims_eq rfl rfl rfl rfl rfl
  · intro c r hc
    exact Store.exists_set T _ (h.parent c r hc)
  · intro c U u hc hu
    by_cases hU : U = T
    · exact absurd rfl (h.settled found settled c _ hc hU)
    · rw [Store.get_set_of_ne _ hU] at hu
      exact h.liveOpen c U u hc hu

theorem Balanced.enroll {b : SlotBook τ κ} (h : b.Balanced) {T : τ} {t : Task} {c : κ}
    (found : b.tasks.get T = some t) (isOpen : t.isOpen = true) (room : t.enrolled < t.slots)
    (fresh : b.claims.get c = none) :
    Balanced ⟨b.tasks.set T { t with enrolled := t.enrolled + 1 },
      b.claims.set c ⟨T, .live⟩⟩ := by
  constructor
  · apply Store.forall_set_of_ne
    · intro U u hU hu
      have hu' := h.census U u hu
      constructor
      · simp [Store.count_set_new _ fresh, hu'.enrolled, Ne.symm hU]
      · simp [tally, Store.count_set_new _ fresh, hu'.approved]
      · simp [tally, Store.count_set_new _ fresh, hu'.refunded]
      · exact hu'.within
    · have ht := h.census T t found
      constructor
      · simp [Store.count_set_new _ fresh, ht.enrolled]
      · simp [tally, Store.count_set_new _ fresh, ht.approved]
      · simp [tally, Store.count_set_new _ fresh, ht.refunded]
      · exact room
  · apply Store.forall_set
    · intro d r hd
      exact Store.exists_set T _ (h.parent d r hd)
    · exact ⟨_, Store.get_set_self _ _ _⟩
  · intro d U u hd hu
    by_cases hU : U = T
    · subst U
      simp only [Store.get_set_self, Option.some.injEq] at hu
      subst u
      exact isOpen
    · rw [Store.get_set_of_ne _ hU] at hu
      by_cases hdc : d = c
      · subst d
        simp only [Store.get_set_self, Option.some.injEq, Claim.mk.injEq] at hd
        exact absurd hd.1.symm hU
      · rw [Store.get_set_of_ne _ hdc] at hd
        exact h.liveOpen d U u hd hu

/-- A live claim leaves for a settled phase and one counter follows it. -/
theorem Balanced.settle {b : SlotBook τ κ} (h : b.Balanced) {T : τ} {t t' : Task} {c : κ}
    {p : Phase} (found : b.tasks.get T = some t) (live : b.claims.get c = some ⟨T, .live⟩)
    (settled : p ≠ .live) (he : t'.enrolled = t.enrolled) (hs : t'.slots = t.slots)
    (ho : t'.isOpen = t.isOpen)
    (ha : t'.approved = t.approved + if p = .approved then 1 else 0)
    (hr : t'.refunded = t.refunded + if p = .refunded then 1 else 0) :
    Balanced ⟨b.tasks.set T t', b.claims.set c ⟨T, p⟩⟩ := by
  have hall (U : τ) : ((b.claims.set c ⟨T, p⟩).count fun r => r.task = U) =
      b.claims.count fun r => r.task = U := by
    have hcount := b.claims.count_set_old live ⟨T, p⟩ (fun r => r.task = U)
    dsimp only at hcount
    omega
  have hphase (U : τ) (q : Phase) (hq : q ≠ .live) :
      ((b.claims.set c ⟨T, p⟩).count fun r => r.task = U ∧ r.phase = q) =
        b.tally U q + if T = U ∧ p = q then 1 else 0 := by
    have hcount := b.claims.count_set_old live ⟨T, p⟩ (fun r => r.task = U ∧ r.phase = q)
    simpa [tally, Ne.symm hq] using hcount
  constructor
  · apply Store.forall_set_of_ne
    · intro U u hU hu
      have hu' := h.census U u hu
      constructor
      · rw [hu'.enrolled, hall]
      · rw [tally, hphase U .approved (by simp), hu'.approved]
        simp [Ne.symm hU]
      · rw [tally, hphase U .refunded (by simp), hu'.refunded]
        simp [Ne.symm hU]
      · exact hu'.within
    · have ht := h.census T t found
      constructor
      · rw [he, ht.enrolled, hall]
      · rw [ha, tally, hphase T .approved (by simp), ht.approved]
        simp
      · rw [hr, tally, hphase T .refunded (by simp), ht.refunded]
        simp
      · rw [he, hs]
        exact ht.within
  · apply Store.forall_set
    · intro d r hd
      exact Store.exists_set T _ (h.parent d r hd)
    · exact ⟨_, Store.get_set_self _ _ _⟩
  · intro d U u hd hu
    have hdc : d ≠ c := by
      rintro rfl
      simp only [Store.get_set_self, Option.some.injEq, Claim.mk.injEq] at hd
      exact settled hd.2
    rw [Store.get_set_of_ne _ hdc] at hd
    by_cases hU : U = T
    · subst U
      simp only [Store.get_set_self, Option.some.injEq] at hu
      subst u
      rw [ho]
      exact h.liveOpen c T t live found
    · rw [Store.get_set_of_ne _ hU] at hu
      exact h.liveOpen d U u hd hu

theorem Balanced.step {b b' : SlotBook τ κ} (h : b.Balanced) (hs : Step b b') : b'.Balanced := by
  cases hs with
  | create T slots fresh => exact h.create fresh
  | cancel T t found isOpen unused => exact h.cancel found unused
  | close T t found isOpen settled => exact h.close found settled
  | enroll T t c found isOpen room fresh => exact h.enroll found isOpen room fresh
  | approve T t c found live => exact h.settle found live (by simp) rfl rfl rfl rfl rfl
  | refund T t c found live => exact h.settle found live (by simp) rfl rfl rfl rfl rfl

omit [DecidableEq κ] in
theorem balanced_empty : (empty : SlotBook τ κ).Balanced :=
  ⟨by simp [empty], by simp [empty], by simp [empty]⟩

theorem balanced_of_steps {b : SlotBook τ κ} (hs : Relation.ReflTransGen Step empty b) :
    b.Balanced := by
  induction hs with
  | refl => exact balanced_empty
  | tail _ step ih => exact ih.step step

end SlotBook
end ClustlyEscrow
