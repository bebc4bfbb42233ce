import Mathlib.Algebra.BigOperators.Group.Finset.Basic
import Mathlib.Algebra.BigOperators.Ring.Finset
import Mathlib.Algebra.Order.BigOperators.Group.Finset
import Mathlib.Data.Finset.Basic
import Mathlib.Data.Option.Basic

/-!
# Finite stores with counting

A store is a partial map together with the finite set of its keys, so that it
is extensional, can be summed over, and can be evaluated on literal keys. The
sum and count lemmas say what one write or one removal does to a total.
-/
namespace Foundations

structure Store (κ ν : Type*) where
  get : κ → Option ν
  keys : Finset κ
  mem_keys : ∀ k, k ∈ keys ↔ (get k).isSome

namespace Store
variable {κ ν : Type*}

theorem mem_keys_iff (m : Store κ ν) (k : κ) : k ∈ m.keys ↔ ∃ v, m.get k = some v := by
  rw [m.mem_keys, Option.isSome_iff_exists]

/-- Two stores that answer every lookup alike are the same store. -/
@[ext] theorem ext {m n : Store κ ν} (h : ∀ k, m.get k = n.get k) : m = n := by
  have hg : m.get = n.get := funext h
  have hk : m.keys = n.keys := by
    ext k
    rw [m.mem_keys, n.mem_keys, h]
  cases m
  cases n
  simp_all

def empty : Store κ ν := ⟨fun _ => none, ∅, by simp⟩

@[simp] theorem get_empty (k : κ) : (empty : Store κ ν).get k = none := rfl

variable [DecidableEq κ]

def set (m : Store κ ν) (k : κ) (v : ν) : Store κ ν where
  get j := if j = k then some v else m.get j
  keys := insert k m.keys
  mem_keys j := by
    by_cases h : j = k
    · simp [h]
    · simp [h, m.mem_keys]

def erase (m : Store κ ν) (k : κ) : Store κ ν where
  get j := if j = k then none else m.get j
  keys := m.keys.erase k
  mem_keys j := by
    by_cases h : j = k
    · simp [h]
    · simp [h, m.mem_keys]

/-- The part of a lookup function that answers on a list of keys. -/
def ofKeys (ks : List κ) (f : κ → Option ν) : Store κ ν where
  get j := if j ∈ ks then f j else none
  keys := ks.toFinset.filter fun j => (f j).isSome
  mem_keys j := by
    by_cases h : j ∈ ks
    · simp [h]
    · simp [h]

theorem get_ofKeys {ks : List κ} {j : κ} (f : κ → Option ν) (h : j ∈ ks) :
    (ofKeys ks f).get j = f j := if_pos h

theorem get_set (m : Store κ ν) (k j : κ) (v : ν) :
    (m.set k v).get j = if j = k then some v else m.get j := rfl

@[simp] theorem get_set_self (m : Store κ ν) (k : κ) (v : ν) : (m.set k v).get k = some v := by
  simp [get_set]

theorem get_of_eq_set {m n : Store κ ν} {k : κ} {v : ν} (h : m = n.set k v) :
    m.get k = some v := by
  rw [h, get_set_self]

theorem get_set_of_ne (m : Store κ ν) {k j : κ} (h : j ≠ k) (v : ν) :
    (m.set k v).get j = m.get j := by
  simp [get_set, h]

theorem get_erase (m : Store κ ν) (k j : κ) :
    (m.erase k).get j = if j = k then none else m.get j := rfl

@[simp] theorem get_erase_self (m : Store κ ν) (k : κ) : (m.erase k).get k = none := by
  simp [get_erase]

theorem get_erase_of_ne (m : Store κ ν) {k j : κ} (h : j ≠ k) :
    (m.erase k).get j = m.get j := by
  simp [get_erase, h]

/-- The second of two writes to a key replaces the first. -/
theorem set_set (m : Store κ ν) (k : κ) (v w : ν) : (m.set k v).set k w = m.set k w := by
  ext j : 1
  by_cases h : j = k <;> simp [get_set, h]

/-- Writing back what is stored changes nothing. -/
theorem set_same {m : Store κ ν} {k : κ} {v : ν} (hk : m.get k = some v) : m.set k v = m := by
  ext j : 1
  by_cases h : j = k
  · subst j
    rw [get_set_self, hk]
  · rw [get_set_of_ne m h]

/-- The entries after a write are the other ones and the one that was written. -/
theorem forall_set_of_ne {P : κ → ν → Prop} {m : Store κ ν} {k : κ} {v : ν}
    (h : ∀ j w, j ≠ k → m.get j = some w → P j w) (hv : P k v) :
    ∀ j w, (m.set k v).get j = some w → P j w := by
  intro j w hj
  by_cases hjk : j = k
  · subst j
    rw [get_set_self, Option.some.injEq] at hj
    exact hj ▸ hv
  · rw [get_set_of_ne m hjk] at hj
    exact h j w hjk hj

/-- A property of all entries survives writing an entry that has it. -/
theorem forall_set {P : κ → ν → Prop} {m : Store κ ν} {k : κ} {v : ν}
    (h : ∀ j w, m.get j = some w → P j w) (hv : P k v) :
    ∀ j w, (m.set k v).get j = some w → P j w :=
  forall_set_of_ne (fun j w _ => h j w) hv

theorem forall_erase {P : κ → ν → Prop} {m : Store κ ν} {k : κ}
    (h : ∀ j w, m.get j = some w → P j w) : ∀ j w, (m.erase k).get j = some w → P j w := by
  intro j w hj
  by_cases hjk : j = k
  · subst j
    simp at hj
  · rw [get_erase_of_ne m hjk] at hj
    exact h j w hj

/-- A write removes no key. -/
theorem exists_set {m : Store κ ν} {j : κ} (k : κ) (v : ν) (h : ∃ w, m.get j = some w) :
    ∃ w, (m.set k v).get j = some w := by
  obtain ⟨w, hw⟩ := h
  by_cases hjk : j = k
  · subst j
    exact ⟨v, get_set_self m k v⟩
  · exact ⟨w, by rw [get_set_of_ne m hjk, hw]⟩

/-! ## Totals -/

/-- The sum of a measure over all stored values. -/
def sum (m : Store κ ν) (f : ν → ℕ) : ℕ := ∑ k ∈ m.keys, (m.get k).elim 0 f

/-- A total splits into the contribution of one key and the rest. -/
theorem sum_eq_add_erase (m : Store κ ν) (k : κ) (f : ν → ℕ) :
    m.sum f = (m.get k).elim 0 f + (m.erase k).sum f := by
  have hrest : (m.erase k).sum f = ∑ j ∈ m.keys.erase k, (m.get j).elim 0 f := by
    apply Finset.sum_congr rfl
    intro j hj
    rw [get_erase_of_ne m (Finset.ne_of_mem_erase hj)]
  rw [hrest]
  by_cases hk : k ∈ m.keys
  · exact (Finset.add_sum_erase m.keys (fun j => (m.get j).elim 0 f) hk).symm
  · have hn : m.get k = none := by
      rw [m.mem_keys] at hk
      simpa using hk
    rw [Finset.erase_eq_of_notMem hk, hn]
    simp [sum]

theorem erase_set (m : Store κ ν) (k : κ) (v : ν) : (m.set k v).erase k = m.erase k := by
  ext j : 1
  by_cases h : j = k <;> simp [get_erase, get_set, h]

/-- A write replaces the contribution of its key. -/
theorem sum_set (m : Store κ ν) (k : κ) (v : ν) (f : ν → ℕ) :
    (m.set k v).sum f + (m.get k).elim 0 f = m.sum f + f v := by
  rw [sum_eq_add_erase (m.set k v) k, erase_set, sum_eq_add_erase m k, get_set_self]
  simp only [Option.elim_some]
  omega

theorem sum_set_new (m : Store κ ν) {k : κ} (hk : m.get k = none) (v : ν) (f : ν → ℕ) :
    (m.set k v).sum f = m.sum f + f v := by
  simpa [hk] using sum_set m k v f

theorem sum_set_old (m : Store κ ν) {k : κ} {w : ν} (hk : m.get k = some w) (v : ν)
    (f : ν → ℕ) : (m.set k v).sum f + f w = m.sum f + f v := by
  simpa [hk] using sum_set m k v f

theorem sum_erase (m : Store κ ν) {k : κ} {w : ν} (hk : m.get k = some w) (f : ν → ℕ) :
    (m.erase k).sum f + f w = m.sum f := by
  rw [sum_eq_add_erase m k, hk]
  simp only [Option.elim_some]
  omega

theorem le_sum (m : Store κ ν) {k : κ} {v : ν} (hk : m.get k = some v) (f : ν → ℕ) :
    f v ≤ m.sum f := by
  have h := sum_erase m hk f
  omega

/-- Two different keys together contribute at most the total. -/
theorem add_le_sum (m : Store κ ν) {k j : κ} {v w : ν} (hne : k ≠ j) (hk : m.get k = some v)
    (hj : m.get j = some w) (f : ν → ℕ) : f v + f w ≤ m.sum f := by
  have hrest : (m.erase k).get j = some w := by rw [get_erase_of_ne m (Ne.symm hne), hj]
  have h := sum_erase m hk f
  have hle := le_sum (m.erase k) hrest f
  omega

omit [DecidableEq κ] in
theorem sum_add (m : Store κ ν) (f g : ν → ℕ) :
    m.sum (fun v => f v + g v) = m.sum f + m.sum g := by
  rw [sum, sum, sum, ← Finset.sum_add_distrib]
  apply Finset.sum_congr rfl
  intro k _
  cases m.get k <;> rfl

omit [DecidableEq κ] in
theorem sum_congr (m : Store κ ν) {f g : ν → ℕ} (h : ∀ k v, m.get k = some v → f v = g v) :
    m.sum f = m.sum g := by
  apply Finset.sum_congr rfl
  intro k _
  cases hk : m.get k with
  | none => rfl
  | some v => exact h k v hk

/-! ## Counting -/

/-- The number of keys whose value satisfies the predicate. -/
def count (m : Store κ ν) (p : ν → Prop) [DecidablePred p] : ℕ :=
  (m.keys.filter fun k => ∃ v ∈ m.get k, p v).card

omit [DecidableEq κ] in
theorem count_eq_sum (m : Store κ ν) (p : ν → Prop) [DecidablePred p] :
    m.count p = m.sum (fun v => if p v then 1 else 0) := by
  rw [count, Finset.card_filter, sum]
  apply Finset.sum_congr rfl
  intro k _
  cases m.get k <;> simp

omit [DecidableEq κ] in
theorem count_eq_zero_iff (m : Store κ ν) (p : ν → Prop) [DecidablePred p] :
    m.count p = 0 ↔ ∀ k v, m.get k = some v → ¬ p v := by
  rw [count, Finset.card_eq_zero, Finset.filter_eq_empty_iff]
  constructor
  · intro h k v hk hp
    exact h ((m.mem_keys_iff k).mpr ⟨v, hk⟩) ⟨v, hk, hp⟩
  · rintro h k _ ⟨v, hk, hp⟩
    exact h k v hk hp

theorem count_set_new (m : Store κ ν) {k : κ} (hk : m.get k = none) (v : ν)
    (p : ν → Prop) [DecidablePred p] :
    (m.set k v).count p = m.count p + if p v then 1 else 0 := by
  simp only [count_eq_sum, sum_set_new m hk]

theorem count_set_old (m : Store κ ν) {k : κ} {w : ν} (hk : m.get k = some w) (v : ν)
    (p : ν → Prop) [DecidablePred p] :
    (m.set k v).count p + (if p w then 1 else 0) = m.count p + if p v then 1 else 0 := by
  simp only [count_eq_sum]
  exact sum_set_old m hk v _

theorem count_pos (m : Store κ ν) {k : κ} {v : ν} (hk : m.get k = some v) (p : ν → Prop)
    [DecidablePred p] (hp : p v) : 0 < m.count p := by
  have h := le_sum m hk (fun v => if p v then 1 else 0)
  rw [if_pos hp] at h
  rw [count_eq_sum]
  omega

omit [DecidableEq κ] in
/-- A measure that is at most `n`, and zero outside a class, adds up to at most
`n` for each member of the class. -/
theorem sum_le_mul_count (m : Store κ ν) {f : ν → ℕ} {n : ℕ} (p : ν → Prop) [DecidablePred p]
    (h : ∀ k v, m.get k = some v → f v ≤ if p v then n else 0) : m.sum f ≤ n * m.count p := by
  rw [count_eq_sum, sum, sum, Finset.mul_sum]
  apply Finset.sum_le_sum
  intro k _
  cases hk : m.get k with
  | none => exact Nat.zero_le _
  | some v =>
    simp only [Option.elim_some, mul_ite, mul_one, mul_zero]
    exact h k v hk

omit [DecidableEq κ] in
/-- A class that splits into two exclusive classes is counted by their sum. -/
theorem count_add (m : Store κ ν) {p q r : ν → Prop} [DecidablePred p] [DecidablePred q]
    [DecidablePred r] (hor : ∀ v, r v ↔ p v ∨ q v) (hex : ∀ v, p v → ¬ q v) :
    m.count r = m.count p + m.count q := by
  simp only [count_eq_sum]
  rw [← sum_add]
  apply sum_congr m
  intro k v _
  by_cases hp : p v
  · simp [hp, hex v hp, hor v]
  · simp [hp, hor v]

/-! ## Listing the entries -/

omit [DecidableEq κ] in
/-- The entries with a property can be listed, each key once. -/
theorem exists_list (m : Store κ ν) (p : ν → Prop) : ∃ xs : List (κ × ν),
    (xs.map Prod.fst).Nodup ∧ ∀ k v, (k, v) ∈ xs ↔ m.get k = some v ∧ p v := by
  classical
  refine ⟨m.keys.toList.filterMap fun k => ((m.get k).filter p).map (Prod.mk k), ?_, fun k v => ?_⟩
  · apply List.Nodup.sublist _ m.keys.nodup_toList
    induction m.keys.toList with
    | nil => exact .slnil
    | cons k ks ih =>
      rw [List.filterMap_cons]
      cases (m.get k).filter p with
      | none => exact ih.cons k
      | some v => exact ih.cons_cons k
  · simp only [List.mem_filterMap, Finset.mem_toList, Option.map_eq_some_iff, Prod.mk.injEq,
      Option.filter_eq_some_iff, decide_eq_true_eq]
    constructor
    · rintro ⟨_, _, _, hv, rfl, rfl⟩
      exact hv
    · intro hv
      exact ⟨k, (m.mem_keys_iff k).mpr ⟨v, hv.1⟩, v, hv, rfl, rfl⟩

omit [DecidableEq κ] in
/-- A property of all entries can be checked key by key. -/
theorem forall_of_keys {m : Store κ ν} {p : κ → ν → Bool}
    (h : ∀ k ∈ m.keys, (m.get k).all (p k) = true) (k : κ) (v : ν) (hk : m.get k = some v) :
    p k v = true := by
  have hall := h k ((m.mem_keys_iff k).mpr ⟨v, hk⟩)
  rwa [hk] at hall

/-! ## Mapping the values -/

variable {μ : Type*}

/-- The same keys with every value mapped: the shape of an abstraction function. -/
def map (f : ν → μ) (m : Store κ ν) : Store κ μ where
  get k := (m.get k).map f
  keys := m.keys
  mem_keys k := by simp [m.mem_keys]

omit [DecidableEq κ] in
@[simp] theorem get_map (f : ν → μ) (m : Store κ ν) (k : κ) :
    (m.map f).get k = (m.get k).map f := rfl

theorem map_set (f : ν → μ) (m : Store κ ν) (k : κ) (v : ν) :
    (m.set k v).map f = (m.map f).set k (f v) := by
  ext j : 1
  by_cases h : j = k <;> simp [get_set, h]

theorem map_erase (f : ν → μ) (m : Store κ ν) (k : κ) :
    (m.erase k).map f = (m.map f).erase k := by
  ext j : 1
  by_cases h : j = k <;> simp [get_erase, h]

/-- Writing back a value with the same image leaves the image alone. -/
theorem map_set_same (f : ν → μ) (m : Store κ ν) {k : κ} {v w : ν} (hk : m.get k = some w)
    (hf : f v = f w) : (m.set k v).map f = m.map f := by
  ext j : 1
  by_cases h : j = k
  · subst j
    simp [hk, hf]
  · simp [get_set, h]

omit [DecidableEq κ] in
theorem count_map (f : ν → μ) (m : Store κ ν) (p : μ → Prop) [DecidablePred p] :
    (m.map f).count p = m.count (fun v => p (f v)) := by
  simp only [count_eq_sum, sum, get_map]
  apply Finset.sum_congr rfl
  intro k _
  cases m.get k <;> rfl

end Store
end Foundations
