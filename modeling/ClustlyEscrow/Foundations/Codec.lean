import ClustlyEscrow.Foundations.Checked

/-!
# Fixed-size binary formats

A codec writes a value in a fixed number of bytes and reads one value off the
front of its input. Its laws go both ways: what is written reads back in front
of any rest, and what is read is what writing gives. Numbers are little endian.
-/
namespace Foundations

universe u

abbrev Bytes := List UInt8

/-- `dom` holds of the values that fit the format. -/
structure Codec (α : Type u) where
  size : ℕ
  dom : α → Prop
  encode : α → Bytes
  decode : Bytes → Option (α × Bytes)
  length_encode (a : α) : (encode a).length = size
  decode_encode {a : α} (fits : dom a) (rest : Bytes) :
    decode (encode a ++ rest) = some (a, rest)
  encode_of_decode {a : α} {bs rest : Bytes} (read : decode bs = some (a, rest)) :
    dom a ∧ encode a ++ rest = bs

namespace Codec
variable {α β γ : Type u} {a b : α} {bs rest : Bytes}

theorem decode_eq_some (c : Codec α) :
    c.decode bs = some (a, rest) ↔ c.dom a ∧ c.encode a ++ rest = bs := by
  constructor
  · exact c.encode_of_decode
  · rintro ⟨hdom, rfl⟩
    exact c.decode_encode hdom rest

/-- The whole input is one value. -/
def read (c : Codec α) (bs : Bytes) : Option α :=
  match c.decode bs with
  | some (a, []) => some a
  | _ => none

theorem read_eq_some (c : Codec α) : c.read bs = some a ↔ c.dom a ∧ c.encode a = bs := by
  have hiff : c.decode bs = some (a, []) ↔ c.dom a ∧ c.encode a ++ [] = bs := c.decode_eq_some
  rw [List.append_nil] at hiff
  rw [← hiff]
  unfold read
  split
  · rename_i b hb
    rw [hb]
    simp
  · rename_i hb
    constructor
    · intro h
      cases h
    · exact fun h => absurd h (hb a)

/-! ## Composition -/

/-- One value after the other. -/
def prod (c : Codec α) (d : Codec β) : Codec (α × β) where
  size := c.size + d.size
  dom p := c.dom p.1 ∧ d.dom p.2
  encode p := c.encode p.1 ++ d.encode p.2
  decode bs := do
    let (a, bs₁) ← c.decode bs
    let (b, rest) ← d.decode bs₁
    some ((a, b), rest)
  length_encode p := by
    rw [List.length_append, c.length_encode, d.length_encode]
  decode_encode {p} fits rest := by
    rw [List.append_assoc, c.decode_encode fits.1]
    simp only [Option.bind_eq_bind, Option.bind_some]
    rw [d.decode_encode fits.2]
    rfl
  encode_of_decode {p bs rest} read := by
    simp only [Option.bind_eq_bind, Option.bind_eq_some_iff, Option.some.injEq,
      Prod.mk.injEq] at read
    obtain ⟨⟨a, bs₁⟩, ha, ⟨b, rest'⟩, hb, hp, hrest⟩ := read
    subst hp hrest
    obtain ⟨hadom, rfl⟩ := c.encode_of_decode ha
    obtain ⟨hbdom, rfl⟩ := d.encode_of_decode hb
    exact ⟨⟨hadom, hbdom⟩, List.append_assoc _ _ _⟩

/-- The same bytes under another type. Some of the values read may be refused;
on the others the two functions are inverse to each other. -/
def refine (c : Codec α) (f : α → Option β) (g : β → α) (dom : β → Prop)
    (back : ∀ b, dom b → c.dom (g b) ∧ f (g b) = some b)
    (forth : ∀ a b, c.dom a → f a = some b → dom b ∧ g b = a) : Codec β where
  size := c.size
  dom := dom
  encode b := c.encode (g b)
  decode bs := do
    let (a, rest) ← c.decode bs
    let b ← f a
    some (b, rest)
  length_encode b := c.length_encode (g b)
  decode_encode {b} fits rest := by
    rw [c.decode_encode (back b fits).1]
    simp only [Option.bind_eq_bind, Option.bind_some, (back b fits).2]
  encode_of_decode {b bs rest} read := by
    simp only [Option.bind_eq_bind, Option.bind_eq_some_iff, Option.some.injEq,
      Prod.mk.injEq] at read
    obtain ⟨⟨a, rest'⟩, ha, b', hb, rfl, rfl⟩ := read
    obtain ⟨hdom, henc⟩ := c.encode_of_decode ha
    obtain ⟨hfits, rfl⟩ := forth a b' hdom hb
    exact ⟨hfits, henc⟩

/-- A change of type that refuses nothing. -/
def map (c : Codec α) (f : α → β) (g : β → α) (dom : β → Prop)
    (back : ∀ b, dom b → c.dom (g b) ∧ f (g b) = b)
    (forth : ∀ a, c.dom a → dom (f a) ∧ g (f a) = a) : Codec β :=
  c.refine (fun a => some (f a)) g dom
    (fun b hb => ⟨(back b hb).1, congrArg some (back b hb).2⟩)
    (fun a b ha hf => by
      cases hf
      exact forth a ha)

/-- The fields of a record in order. -/
def record (c : Codec α) (f : α → β) (g : β → α) (hfg : ∀ b, f (g b) = b)
    (hgf : ∀ a, g (f a) = a) : Codec β :=
  c.map f g (fun b => c.dom (g b)) (fun b hb => ⟨hb, hfg b⟩)
    (fun a ha => by
      rw [hgf a]
      exact ⟨ha, rfl⟩)

/-- A fixed tag in front. -/
def tagged (tag : Bytes) (c : Codec α) : Codec α where
  size := tag.length + c.size
  dom := c.dom
  encode a := tag ++ c.encode a
  decode bs := if tag <+: bs then c.decode (bs.drop tag.length) else none
  length_encode a := by
    rw [List.length_append, c.length_encode]
  decode_encode {a} fits rest := by
    rw [List.append_assoc, if_pos (List.prefix_append _ _), List.drop_left]
    exact c.decode_encode fits rest
  encode_of_decode {a bs rest} read := by
    split_ifs at read with htag
    obtain ⟨tail, rfl⟩ := htag
    rw [List.drop_left] at read
    obtain ⟨hdom, rfl⟩ := c.encode_of_decode read
    exact ⟨hdom, List.append_assoc _ _ _⟩

theorem encode_tagged {tag : Bytes} (c : Codec α) : (c.tagged tag).encode a = tag ++ c.encode a :=
  rfl

/-- Bytes that start with another tag of the same length are refused. -/
theorem decode_tagged_of_ne {tag tag' : Bytes} (c : Codec α) (hne : tag ≠ tag')
    (hlen : tag.length = tag'.length) (bs : Bytes) : (c.tagged tag).decode (tag' ++ bs) = none := by
  apply if_neg
  intro htag
  have hpre := List.prefix_of_prefix_length_le htag (List.prefix_append tag' bs) hlen.le
  exact hne (hpre.eq_of_length hlen)

/-- Nothing at all. -/
def unit : Codec PUnit.{u + 1} where
  size := 0
  dom _ := True
  encode _ := []
  decode bs := some (.unit, bs)
  length_encode _ := rfl
  decode_encode _ _ := rfl
  encode_of_decode {_ _ _} read := by
    simp only [Option.some.injEq, Prod.mk.injEq] at read
    exact ⟨trivial, read.2.symm⟩

/-! ## Numbers -/

/-- The `k` lowest digits to base 256, the lowest first. -/
def digits : ℕ → ℕ → Bytes
  | 0, _ => []
  | k + 1, n => UInt8.ofNat n :: digits k (n / 256)

def undigits : ℕ → Bytes → Option (ℕ × Bytes)
  | 0, bs => some (0, bs)
  | _ + 1, [] => none
  | k + 1, b :: bs => (undigits k bs).map fun p => (b.toNat + 256 * p.1, p.2)

theorem length_digits (k n : ℕ) : (digits k n).length = k := by
  induction k generalizing n with
  | zero => rfl
  | succ k ih => rw [digits, List.length_cons, ih]

theorem undigits_digits {k n : ℕ} (hn : n < 256 ^ k) (rest : Bytes) :
    undigits k (digits k n ++ rest) = some (n, rest) := by
  induction k generalizing n with
  | zero =>
    have hz : n = 0 := by omega
    rw [hz]
    rfl
  | succ k ih =>
    have hdiv : n / 256 < 256 ^ k := by
      rw [Nat.div_lt_iff_lt_mul (by omega), ← Nat.pow_succ]
      exact hn
    have hlow : (UInt8.ofNat n).toNat = n % 256 := by simp
    rw [digits, List.cons_append, undigits, ih hdiv, Option.map_some, hlow, Nat.mod_add_div]

theorem digits_of_undigits {k n : ℕ} {bs rest : Bytes} (h : undigits k bs = some (n, rest)) :
    n < 256 ^ k ∧ digits k n ++ rest = bs := by
  induction k generalizing n bs with
  | zero =>
    simp only [undigits, Option.some.injEq, Prod.mk.injEq] at h
    obtain ⟨rfl, rfl⟩ := h
    exact ⟨Nat.one_pos, rfl⟩
  | succ k ih =>
    cases bs with
    | nil => cases h
    | cons b bs =>
      simp only [undigits, Option.map_eq_some_iff, Prod.mk.injEq] at h
      obtain ⟨⟨m, rest'⟩, hm, rfl, rfl⟩ := h
      obtain ⟨hlt, rfl⟩ := ih hm
      have hb := b.toNat_lt
      refine ⟨by rw [Nat.pow_succ]; omega, ?_⟩
      have hlow : UInt8.ofNat (b.toNat + 256 * m) = b := by
        apply UInt8.toNat_inj.mp
        rw [UInt8.toNat_ofNat']
        omega
      have hhigh : (b.toNat + 256 * m) / 256 = m := by omega
      rw [digits, hlow, hhigh, List.cons_append]

/-- An unsigned number of `k` bytes. -/
def uint (k : ℕ) : Codec ℕ where
  size := k
  dom n := n < 256 ^ k
  encode := digits k
  decode := undigits k
  length_encode := length_digits k
  decode_encode := undigits_digits
  encode_of_decode := digits_of_undigits

/-- Two's complement in eight bytes. -/
def i64 : Codec ℤ :=
  (uint 8).map (fun n => if n < 2 ^ 63 then (n : ℤ) else n - 2 ^ 64)
    (fun t => (t % 2 ^ 64).toNat) InI64
    (fun t ht => by
      change (t % 2 ^ 64).toNat < 256 ^ 8 ∧ _
      split_ifs <;> omega)
    (fun n hn => by
      change n < 256 ^ 8 at hn
      split_ifs <;> omega)

/-- Raw bytes. -/
def blob (k : ℕ) : Codec (BitVec (8 * k)) :=
  (uint k).map (BitVec.ofNat (8 * k)) BitVec.toNat (fun _ => True)
    (fun b _ => by
      have hb := b.isLt
      rw [Nat.pow_mul] at hb
      exact ⟨hb, by simp⟩)
    (fun n hn => by
      refine ⟨trivial, ?_⟩
      rw [BitVec.toNat_ofNat, Nat.pow_mul]
      exact Nat.mod_eq_of_lt hn)

/-- A machine word of `k` bytes. -/
def word (k : ℕ) : Codec (Fin (2 ^ (8 * k))) :=
  (uint k).map (fun n => Fin.ofNat (2 ^ (8 * k)) n) Fin.val (fun _ => True)
    (fun n _ => by
      have hn : n.val < (2 ^ 8) ^ k := n.isLt.trans_eq (Nat.pow_mul 2 8 k)
      exact ⟨hn, by simp⟩)
    (fun n hn => by
      refine ⟨trivial, ?_⟩
      rw [Fin.val_ofNat, Nat.pow_mul]
      exact Nat.mod_eq_of_lt hn)

example : (uint 2).encode 400 = [144, 1] := by decide

/-! ## What fits -/

@[simp] theorem dom_uint {k n : ℕ} : (uint k).dom n ↔ n < 256 ^ k := Iff.rfl

end Codec
end Foundations
