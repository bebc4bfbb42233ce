import ClustlyEscrow.Foundations.Store

/-!
# A token bank with bounded supply

Token accounts of several mints over an arbitrary type of addresses. The
supply of every mint is below `2 ^ 64` by construction, so a credit can not
overflow. Each operation has one specification in terms of the two observers
`holder` (who owns an address, in which mint) and `balance`.
-/
namespace Foundations

structure TokenAccount (κ : Type*) where
  mint : κ
  owner : κ
  amount : ℕ
  deriving DecidableEq, Repr

inductive TokenError
  | uninitialized
  | alreadyInUse
  | insufficientFunds
  | mintMismatch
  | ownerMismatch
  | overflow
  | nonZeroBalance
  | invalidMint
  deriving DecidableEq, Repr

variable {κ : Type*} [DecidableEq κ]

/-- What an account contributes to the supply of a mint. -/
def TokenAccount.share (m : κ) (a : TokenAccount κ) : ℕ := if a.mint = m then a.amount else 0

structure Bank (κ : Type*) [DecidableEq κ] where
  mints : Finset κ
  accounts : Store κ (TokenAccount κ)
  supply_lt : ∀ m, accounts.sum (TokenAccount.share m) < 2 ^ 64

namespace Bank

def empty : Bank κ := ⟨∅, .empty, fun _ => Nat.two_pow_pos 64⟩

def supply (b : Bank κ) (m : κ) : ℕ := b.accounts.sum (TokenAccount.share m)

/-- The owner and the mint of the token account at an address. -/
def holder (b : Bank κ) (k : κ) : Option (κ × κ) :=
  (b.accounts.get k).map fun a => (a.owner, a.mint)

def balance (b : Bank κ) (k : κ) : ℕ := (b.accounts.get k).elim 0 TokenAccount.amount

@[simp] theorem holder_empty (k : κ) : (empty : Bank κ).holder k = none := rfl
@[simp] theorem mints_empty : (empty : Bank κ).mints = ∅ := rfl

theorem holder_eq_none (b : Bank κ) (k : κ) : b.holder k = none ↔ b.accounts.get k = none := by
  simp [holder]

theorem holder_eq_some (b : Bank κ) (k o m : κ) :
    b.holder k = some (o, m) ↔ b.accounts.get k = some ⟨m, o, b.balance k⟩ := by
  cases h : b.accounts.get k with
  | none => simp [holder, h]
  | some a =>
    obtain ⟨am, ao, aa⟩ := a
    simp [holder, balance, h]
    exact and_comm

theorem holder_of_get {b : Bank κ} {k : κ} {a : TokenAccount κ} (h : b.accounts.get k = some a) :
    b.holder k = some (a.owner, a.mint) := by
  simp [holder, h]

theorem balance_of_get {b : Bank κ} {k : κ} {a : TokenAccount κ} (h : b.accounts.get k = some a) :
    b.balance k = a.amount := by
  simp [balance, h]

theorem balance_of_no_holder (b : Bank κ) {k : κ} (h : b.holder k = none) : b.balance k = 0 := by
  rw [holder_eq_none] at h
  simp [balance, h]

/-- A bank is determined by its mints and its two observers. -/
theorem ext_observers {b c : Bank κ} (hm : b.mints = c.mints) (hh : ∀ k, b.holder k = c.holder k)
    (hb : ∀ k, b.balance k = c.balance k) : b = c := by
  have ha : b.accounts = c.accounts := by
    ext k : 1
    cases hk : b.holder k with
    | none =>
      have hc := hh k ▸ hk
      rw [(b.holder_eq_none k).mp hk, (c.holder_eq_none k).mp hc]
    | some om =>
      have hc := hh k ▸ hk
      rw [(b.holder_eq_some k om.1 om.2).mp hk, (c.holder_eq_some k om.1 om.2).mp hc, hb]
  cases b
  cases c
  simp_all

/-- Two accounts of one mint can not overflow a sum. -/
theorem balance_add_lt (b : Bank κ) {k j o o' m : κ} (hne : k ≠ j)
    (hk : b.holder k = some (o, m)) (hj : b.holder j = some (o', m)) :
    b.balance k + b.balance j < 2 ^ 64 := by
  have h := b.accounts.add_le_sum hne ((b.holder_eq_some k o m).mp hk)
    ((b.holder_eq_some j o' m).mp hj) (TokenAccount.share m)
  have hs := b.supply_lt m
  simp only [TokenAccount.share, if_true] at h hs
  omega

/-- A bank with the given observers; there is at most one. -/
structure Observes (b : Bank κ) (mints : Finset κ) (holder : κ → Option (κ × κ))
    (balance : κ → ℕ) : Prop where
  mints : b.mints = mints
  holder : ∀ k, b.holder k = holder k
  balance : ∀ k, b.balance k = balance k

theorem Observes.unique {b c : Bank κ} {mints : Finset κ} {holder : κ → Option (κ × κ)}
    {balance : κ → ℕ} (hb : b.Observes mints holder balance)
    (hc : c.Observes mints holder balance) : b = c :=
  ext_observers (hb.mints.trans hc.mints.symm) (fun k => (hb.holder k).trans (hc.holder k).symm)
    (fun k => (hb.balance k).trans (hc.balance k).symm)

/-- Writing one account changes what is observed there and nowhere else. -/
theorem observes_set (b : Bank κ) (k : κ) (a : TokenAccount κ)
    (hlt : ∀ m, (b.accounts.set k a).sum (TokenAccount.share m) < 2 ^ 64) :
    (⟨b.mints, b.accounts.set k a, hlt⟩ : Bank κ).Observes b.mints
      (Function.update b.holder k (some (a.owner, a.mint)))
      (Function.update b.balance k a.amount) := by
  constructor
  · rfl
  all_goals
    intro j
    by_cases h : j = k
    · subst j
      simp [Bank.holder, Bank.balance]
    · simp [Bank.holder, Bank.balance, Store.get_set, h]

theorem observes_erase (b : Bank κ) (k : κ)
    (hlt : ∀ m, (b.accounts.erase k).sum (TokenAccount.share m) < 2 ^ 64) :
    (⟨b.mints, b.accounts.erase k, hlt⟩ : Bank κ).Observes b.mints
      (Function.update b.holder k none) (Function.update b.balance k 0) := by
  constructor
  · rfl
  all_goals
    intro j
    by_cases h : j = k
    · subst j
      simp [Bank.holder, Bank.balance]
    · simp [Bank.holder, Bank.balance, Store.get_erase, h]

/-! ## Transfers -/

/-- The accounts after moving an amount between two different addresses. -/
def moveAmount (accounts : Store κ (TokenAccount κ)) (source dest : κ)
    (src dst : TokenAccount κ) (amount : ℕ) : Store κ (TokenAccount κ) :=
  (accounts.set source { src with amount := src.amount - amount }).set dest
    { dst with amount := dst.amount + amount }

theorem moveAmount_sum {accounts : Store κ (TokenAccount κ)} {source dest : κ}
    {src dst : TokenAccount κ} {amount : ℕ} (hs : accounts.get source = some src)
    (hd : accounts.get dest = some dst) (hne : source ≠ dest) (hm : src.mint = dst.mint)
    (ha : amount ≤ src.amount) (m : κ) :
    (moveAmount accounts source dest src dst amount).sum (TokenAccount.share m) =
      accounts.sum (TokenAccount.share m) := by
  have h1 := accounts.sum_set_old hs { src with amount := src.amount - amount }
    (TokenAccount.share m)
  have hd' : (accounts.set source { src with amount := src.amount - amount }).get dest =
      some dst := by
    rw [accounts.get_set_of_ne (Ne.symm hne), hd]
  have h2 := Store.sum_set_old _ hd' { dst with amount := dst.amount + amount }
    (TokenAccount.share m)
  have hsrc : TokenAccount.share m src =
      TokenAccount.share m { src with amount := src.amount - amount } +
        (if src.mint = m then amount else 0) := by
    simp only [TokenAccount.share]
    split_ifs <;> omega
  have hdst : TokenAccount.share m { dst with amount := dst.amount + amount } =
      TokenAccount.share m dst + (if src.mint = m then amount else 0) := by
    simp only [TokenAccount.share, hm]
    split_ifs <;> omega
  unfold moveAmount
  omega

/-- A transfer signed by `authority`. Moving an account onto itself passes the
same checks and changes nothing. -/
def transfer (b : Bank κ) (authority source dest : κ) (amount : ℕ) :
    Except TokenError (Bank κ) :=
  match hs : b.accounts.get source, hd : b.accounts.get dest with
  | some src, some dst =>
    if ha : src.amount < amount then .error .insufficientFunds
    else if hm : src.mint ≠ dst.mint then .error .mintMismatch
    else if src.owner ≠ authority then .error .ownerMismatch
    else if hne : source = dest then .ok b
    else if 2 ^ 64 ≤ dst.amount + amount then .error .overflow
    else .ok ⟨b.mints, moveAmount b.accounts source dest src dst amount, fun m => by
      rw [moveAmount_sum hs hd hne (not_not.mp hm) (not_lt.mp ha)]
      exact b.supply_lt m⟩
  | _, _ => .error .uninitialized

/-- The balances after a transfer. -/
def movedBalance (b : Bank κ) (source dest : κ) (amount : ℕ) (k : κ) : ℕ :=
  if source = dest then b.balance k
  else if k = source then b.balance k - amount
  else if k = dest then b.balance k + amount
  else b.balance k

abbrev Moved (b b' : Bank κ) (source dest : κ) (amount : ℕ) : Prop :=
  b'.Observes b.mints b.holder (b.movedBalance source dest amount)

theorem Moved.balance_source {b b' : Bank κ} {source dest : κ} {amount : ℕ}
    (h : Moved b b' source dest amount) (hne : source ≠ dest) :
    b'.balance source = b.balance source - amount := by
  simp [h.balance, movedBalance, hne]

theorem Moved.balance_of_ne {b b' : Bank κ} {source dest k : κ} {amount : ℕ}
    (h : Moved b b' source dest amount) (hs : k ≠ source) (hd : k ≠ dest) :
    b'.balance k = b.balance k := by
  simp [h.balance, movedBalance, hs, hd]

/-- A covered transfer, seen from any account: what leaves is what arrives. -/
theorem movedBalance_books (b : Bank κ) {source dest : κ} {amount : ℕ}
    (ha : amount ≤ b.balance source) (k : κ) :
    b.movedBalance source dest amount k + (if source = k ∧ dest ≠ k then amount else 0) =
      b.balance k + if dest = k ∧ source ≠ k then amount else 0 := by
  unfold movedBalance
  by_cases hself : source = dest
  · simp [hself]
  by_cases hks : k = source
  · subst k
    simp [hself, Ne.symm hself, Nat.sub_add_cancel ha]
  · by_cases hkd : k = dest
    · subst k
      simp [hself, Ne.symm hself]
    · simp [hself, hks, hkd, Ne.symm hks, Ne.symm hkd]

theorem moved_self (b : Bank κ) (k : κ) (amount : ℕ) : Moved b b k k amount :=
  ⟨rfl, fun _ => rfl, fun _ => by simp [movedBalance]⟩

theorem moveAmount_moved {b : Bank κ} {source dest : κ} {src dst : TokenAccount κ} {amount : ℕ}
    (hs : b.accounts.get source = some src) (hd : b.accounts.get dest = some dst)
    (hne : source ≠ dest) (hlt : ∀ n, (moveAmount b.accounts source dest src dst amount).sum
      (TokenAccount.share n) < 2 ^ 64) :
    Moved b ⟨b.mints, moveAmount b.accounts source dest src dst amount, hlt⟩
      source dest amount := by
  refine ⟨rfl, fun k => ?_, fun k => ?_⟩
  · by_cases hkd : k = dest
    · subst k
      simp [holder, moveAmount, hd]
    · by_cases hks : k = source
      · subst k
        simp [holder, moveAmount, Store.get_set, hkd, hs]
      · simp [holder, moveAmount, Store.get_set, hkd, hks]
  · by_cases hkd : k = dest
    · subst k
      simp [movedBalance, Bank.balance, moveAmount, hne, Ne.symm hne, hd]
    · by_cases hks : k = source
      · subst k
        simp [movedBalance, Bank.balance, moveAmount, Store.get_set, hkd, hs]
      · simp [movedBalance, Bank.balance, moveAmount, Store.get_set, hkd, hks]

/-- What a successful transfer does, whoever calls it. -/
theorem transfer_moved {b b' : Bank κ} {authority source dest : κ} {amount : ℕ}
    (h : b.transfer authority source dest amount = .ok b') :
    ∃ m o, b.holder source = some (authority, m) ∧ b.holder dest = some (o, m) ∧
      amount ≤ b.balance source ∧ Moved b b' source dest amount := by
  unfold transfer at h
  split at h
  · rename_i src dst hs hd
    split_ifs at h with ha hm ho hne hover
    all_goals
      cases h
      rw [not_not] at hm ho
      have hsrc : b.holder source = some (authority, src.mint) := ho ▸ holder_of_get hs
      have hdst : b.holder dest = some (dst.owner, src.mint) := hm ▸ holder_of_get hd
      have hsb := balance_of_get hs
      refine ⟨src.mint, dst.owner, hsrc, hdst, by omega, ?_⟩
    · exact hne ▸ moved_self b source amount
    · exact moveAmount_moved hs hd hne _
  · cases h

theorem transfer_succeeds {b : Bank κ} {authority source dest o m : κ} {amount : ℕ}
    (hs : b.holder source = some (authority, m)) (hd : b.holder dest = some (o, m))
    (ha : amount ≤ b.balance source) : ∃ b', b.transfer authority source dest amount = .ok b' := by
  have hs' := (b.holder_eq_some _ _ _).mp hs
  have hd' := (b.holder_eq_some _ _ _).mp hd
  unfold transfer
  split
  · rename_i src dst hsrc hdst
    rw [hs'] at hsrc
    rw [hd'] at hdst
    cases hsrc
    cases hdst
    rw [dif_neg (not_lt.mpr ha), dif_neg (not_not.mpr rfl), if_neg (not_not.mpr rfl)]
    by_cases hne : source = dest
    · rw [dif_pos hne]
      exact ⟨b, rfl⟩
    · have hlt := b.balance_add_lt hne hs hd
      rw [dif_neg hne, if_neg (by dsimp only; omega)]
      exact ⟨_, rfl⟩
  · rename_i h
    exact (h _ _ hs' hd').elim

/-- A transfer succeeds exactly when both accounts hold the same mint, the
authority owns the source, and the source covers the amount. -/
theorem transfer_eq_ok {b b' : Bank κ} {authority source dest : κ} {amount : ℕ} :
    b.transfer authority source dest amount = .ok b' ↔
      ∃ m o, b.holder source = some (authority, m) ∧ b.holder dest = some (o, m) ∧
        amount ≤ b.balance source ∧ Moved b b' source dest amount := by
  refine ⟨transfer_moved, ?_⟩
  rintro ⟨m, o, hs, hd, ha, hmoved⟩
  obtain ⟨c, hc⟩ := transfer_succeeds hs hd ha
  obtain ⟨_, _, _, _, _, hmoved'⟩ := transfer_moved hc
  rw [hc, hmoved'.unique hmoved]

/-! ## The other operations on accounts -/

/-- Open an empty account at an unused address. -/
def openAccount (b : Bank κ) (k owner mint : κ) : Except TokenError (Bank κ) :=
  if mint ∉ b.mints then .error .invalidMint
  else if k ∈ b.mints then .error .alreadyInUse
  else
    match hk : b.accounts.get k with
    | some _ => .error .alreadyInUse
    | none => .ok ⟨b.mints, b.accounts.set k ⟨mint, owner, 0⟩, fun m => by
        rw [b.accounts.sum_set_new hk]
        simpa [TokenAccount.share] using b.supply_lt m⟩

theorem openAccount_eq_ok {b b' : Bank κ} {k owner mint : κ} :
    b.openAccount k owner mint = .ok b' ↔
      mint ∈ b.mints ∧ k ∉ b.mints ∧ b.holder k = none ∧
        b'.Observes b.mints (Function.update b.holder k (some (owner, mint))) b.balance := by
  have hopened (hk : b.accounts.get k = none) hlt :
      (⟨b.mints, b.accounts.set k ⟨mint, owner, 0⟩, hlt⟩ : Bank κ).Observes b.mints
        (Function.update b.holder k (some (owner, mint))) b.balance := by
    have hz := b.balance_of_no_holder ((b.holder_eq_none k).mpr hk)
    have hb : Function.update b.balance k 0 = b.balance := by
      rw [← hz, Function.update_eq_self]
    exact hb ▸ b.observes_set k ⟨mint, owner, 0⟩ hlt
  rw [holder_eq_none]
  unfold openAccount
  constructor
  · intro h
    split_ifs at h with hm hkm
    split at h
    · cases h
    · rename_i hk
      cases h
      exact ⟨hm, hkm, hk, hopened hk _⟩
  · rintro ⟨hm, hkm, hk, hobs⟩
    rw [if_neg (not_not.mpr hm), if_neg hkm]
    split
    · rename_i hk'
      rw [hk] at hk'
      cases hk'
    · exact congrArg Except.ok ((hopened hk _).unique hobs)

theorem openAccount_succeeds {b : Bank κ} {k mint : κ} (owner : κ) (hm : mint ∈ b.mints)
    (hk : k ∉ b.mints) (hn : b.holder k = none) :
    ∃ b', b.openAccount k owner mint = .ok b' := by
  rw [holder_eq_none] at hn
  unfold openAccount
  rw [if_neg (not_not.mpr hm), if_neg hk]
  split
  · rename_i hs
    rw [hn] at hs
    cases hs
  · exact ⟨_, rfl⟩

/-- Close an emptied account. -/
def closeAccount (b : Bank κ) (authority k : κ) : Except TokenError (Bank κ) :=
  match hk : b.accounts.get k with
  | none => .error .uninitialized
  | some a =>
    if a.amount ≠ 0 then .error .nonZeroBalance
    else if a.owner ≠ authority then .error .ownerMismatch
    else .ok ⟨b.mints, b.accounts.erase k, fun m => by
      have h := b.accounts.sum_erase hk (TokenAccount.share m)
      have hs := b.supply_lt m
      omega⟩

theorem closeAccount_eq_ok {b b' : Bank κ} {authority k : κ} :
    b.closeAccount authority k = .ok b' ↔
      (∃ m, b.holder k = some (authority, m)) ∧ b.balance k = 0 ∧
        b'.Observes b.mints (Function.update b.holder k none) b.balance := by
  have hclosed (hz : b.balance k = 0) hlt :
      (⟨b.mints, b.accounts.erase k, hlt⟩ : Bank κ).Observes b.mints
        (Function.update b.holder k none) b.balance := by
    have hb : Function.update b.balance k 0 = b.balance := by
      rw [← hz, Function.update_eq_self]
    exact hb ▸ b.observes_erase k hlt
  unfold closeAccount
  constructor
  · intro h
    split at h
    · cases h
    · rename_i a hk
      split_ifs at h with hz ho
      cases h
      rw [not_not] at hz ho
      have hb : b.balance k = 0 := (balance_of_get hk).trans hz
      exact ⟨⟨a.mint, ho ▸ holder_of_get hk⟩, hb, hclosed hb _⟩
  · rintro ⟨⟨m, hh⟩, hz, hobs⟩
    have hk := (b.holder_eq_some _ _ _).mp hh
    split
    · rename_i hn
      rw [hk] at hn
      cases hn
    · rename_i a ha
      rw [hk] at ha
      cases ha
      rw [if_neg (not_not.mpr hz), if_neg (not_not.mpr rfl)]
      exact congrArg Except.ok ((hclosed hz _).unique hobs)

theorem closeAccount_succeeds {b : Bank κ} {authority k m : κ}
    (hh : b.holder k = some (authority, m)) (hz : b.balance k = 0) :
    ∃ b', b.closeAccount authority k = .ok b' := by
  have hk := (b.holder_eq_some _ _ _).mp hh
  unfold closeAccount
  split
  · rename_i hn
    rw [hk] at hn
    cases hn
  · rename_i a ha
    rw [hk] at ha
    cases ha
    rw [if_neg (not_not.mpr hz), if_neg (not_not.mpr rfl)]
    exact ⟨_, rfl⟩

/-! ### Emptying an account and closing it -/

section Sweep
variable {b b₁ b₂ : Bank κ} {v P authority o m : κ}

/-- Closing an account from which everything was moved away. -/
theorem Moved.closeAccount_eq_ok (h : b.Moved b₁ v P (b.balance v)) (hne : v ≠ P)
    (hv : b.holder v = some (authority, m)) :
    b₁.closeAccount authority v = .ok b₂ ↔
      b₂.Observes b.mints (Function.update b.holder v none)
        (b.movedBalance v P (b.balance v)) := by
  have hz : b₁.balance v = 0 := by
    rw [h.balance_source hne, Nat.sub_self]
  rw [Bank.closeAccount_eq_ok, hz, h.mints, funext h.holder, funext h.balance]
  exact ⟨fun hc => hc.2.2, fun hobs => ⟨⟨m, hv⟩, rfl, hobs⟩⟩

/-- Between existing accounts of one mint an account can always be swept. -/
theorem sweep_succeeds (hne : v ≠ P) (hv : b.holder v = some (authority, m))
    (hP : b.holder P = some (o, m)) :
    ∃ b₁ b₂ : Bank κ, b.transfer authority v P (b.balance v) = .ok b₁ ∧
      b₁.closeAccount authority v = .ok b₂ := by
  obtain ⟨b₁, h₁⟩ := transfer_succeeds hv hP le_rfl
  obtain ⟨_, _, _, _, _, hm₁⟩ := transfer_moved h₁
  have hz : b₁.balance v = 0 := by
    rw [hm₁.balance_source hne, Nat.sub_self]
  obtain ⟨b₂, h₂⟩ := closeAccount_succeeds ((hm₁.holder v).trans hv) hz
  exact ⟨b₁, b₂, h₁, h₂⟩

theorem sweep_observes (hne : v ≠ P) (hv : b.holder v = some (authority, m))
    (h₁ : b.transfer authority v P (b.balance v) = .ok b₁)
    (h₂ : b₁.closeAccount authority v = .ok b₂) :
    b₂.Observes b.mints (Function.update b.holder v none)
      (b.movedBalance v P (b.balance v)) := by
  obtain ⟨_, _, _, _, _, hm₁⟩ := transfer_moved h₁
  exact (hm₁.closeAccount_eq_ok hne hv).mp h₂

end Sweep

/-- Issue new tokens into an account, within the supply bound. -/
def mintTo (b : Bank κ) (k : κ) (amount : ℕ) : Except TokenError (Bank κ) :=
  match hk : b.accounts.get k with
  | none => .error .uninitialized
  | some a =>
    if hs : 2 ^ 64 ≤ b.supply a.mint + amount then .error .overflow
    else .ok ⟨b.mints, b.accounts.set k { a with amount := a.amount + amount }, fun m => by
      have h := b.accounts.sum_set_old hk { a with amount := a.amount + amount }
        (TokenAccount.share m)
      have hm := b.supply_lt m
      by_cases he : a.mint = m
      · subst he
        simp only [TokenAccount.share, if_true, supply] at h hs hm ⊢
        omega
      · have hz : TokenAccount.share m { a with amount := a.amount + amount } = 0 := if_neg he
        omega⟩

/-- Nothing is issued into an account that does not exist. -/
theorem mintTo_ne {b b' : Bank κ} {k j : κ} {amount : ℕ} (h : b.mintTo k amount = .ok b')
    (hj : b.holder j = none) : k ≠ j := by
  rintro rfl
  unfold mintTo at h
  rw [holder_eq_none] at hj
  split at h
  · cases h
  · rename_i hk
    rw [hj] at hk
    cases hk

theorem mintTo_ok {b b' : Bank κ} {k : κ} {amount : ℕ} (h : b.mintTo k amount = .ok b') :
    b'.Observes b.mints b.holder (Function.update b.balance k (b.balance k + amount)) := by
  unfold mintTo at h
  split at h
  · cases h
  · rename_i a hk
    split_ifs at h
    cases h
    have hh : Function.update b.holder k (some (a.owner, a.mint)) = b.holder := by
      rw [← holder_of_get hk, Function.update_eq_self]
    rw [balance_of_get hk]
    exact hh ▸ b.observes_set k { a with amount := a.amount + amount } _

/-- Hand an account to a new owner. -/
def setOwner (b : Bank κ) (authority k newOwner : κ) : Except TokenError (Bank κ) :=
  match hk : b.accounts.get k with
  | none => .error .uninitialized
  | some a =>
    if a.owner ≠ authority then .error .ownerMismatch
    else .ok ⟨b.mints, b.accounts.set k { a with owner := newOwner }, fun m => by
      have h := b.accounts.sum_set_old hk { a with owner := newOwner } (TokenAccount.share m)
      have he : TokenAccount.share m { a with owner := newOwner } = TokenAccount.share m a := rfl
      have hs := b.supply_lt m
      omega⟩

theorem setOwner_ok {b b' : Bank κ} {authority k newOwner : κ}
    (h : b.setOwner authority k newOwner = .ok b') :
    ∃ m, b.holder k = some (authority, m) ∧
      b'.Observes b.mints (Function.update b.holder k (some (newOwner, m))) b.balance := by
  unfold setOwner at h
  split at h
  · cases h
  · rename_i a hk
    split_ifs at h with ho
    cases h
    rw [not_not] at ho
    have hb : Function.update b.balance k a.amount = b.balance := by
      rw [← balance_of_get hk, Function.update_eq_self]
    exact ⟨a.mint, ho ▸ holder_of_get hk, hb ▸ b.observes_set k { a with owner := newOwner } _⟩

theorem setOwner_succeeds {b : Bank κ} {authority k m : κ} (newOwner : κ)
    (hh : b.holder k = some (authority, m)) :
    ∃ b', b.setOwner authority k newOwner = .ok b' := by
  have hk := (b.holder_eq_some _ _ _).mp hh
  unfold setOwner
  split
  · rename_i hn
    rw [hk] at hn
    cases hn
  · rename_i a ha
    rw [hk] at ha
    cases ha
    rw [if_neg (not_not.mpr rfl)]
    exact ⟨_, rfl⟩

/-- Register a new mint at an unused address. -/
def createMint (b : Bank κ) (k : κ) : Except TokenError (Bank κ) :=
  if k ∈ b.mints then .error .alreadyInUse
  else
    match b.accounts.get k with
    | some _ => .error .alreadyInUse
    | none => .ok ⟨insert k b.mints, b.accounts, b.supply_lt⟩

theorem createMint_ok {b b' : Bank κ} {k : κ} (h : b.createMint k = .ok b') :
    b'.Observes (insert k b.mints) b.holder b.balance := by
  unfold createMint at h
  split_ifs at h
  split at h
  · cases h
  · cases h
    exact ⟨rfl, fun _ => rfl, fun _ => rfl⟩

theorem createMint_fresh {b b' : Bank κ} {k : κ} (h : b.createMint k = .ok b') :
    b.holder k = none := by
  unfold createMint at h
  split_ifs at h
  split at h
  · cases h
  · rename_i hnone
    exact (holder_eq_none b k).mpr hnone

/-! ## The supply -/

/-- A transfer keeps the supply of every mint. -/
theorem transfer_supply {b b' : Bank κ} {authority source dest : κ} {amount : ℕ}
    (h : b.transfer authority source dest amount = .ok b') (m : κ) : b'.supply m = b.supply m := by
  unfold transfer at h
  split at h
  · rename_i src dst hs hd
    split_ifs at h with ha hm ho hne hover
    · cases h
      rfl
    · cases h
      exact moveAmount_sum hs hd hne (not_not.mp hm) (not_lt.mp ha) m
  · cases h

theorem Moved.supply {b b' : Bank κ} {source dest a o n : κ} {amount : ℕ}
    (h : Moved b b' source dest amount) (hs : b.holder source = some (a, n))
    (hd : b.holder dest = some (o, n)) (ha : amount ≤ b.balance source) (m : κ) :
    b'.supply m = b.supply m :=
  transfer_supply (transfer_eq_ok.mpr ⟨n, o, hs, hd, ha, h⟩) m

theorem openAccount_supply {b b' : Bank κ} {k owner mint : κ}
    (h : b.openAccount k owner mint = .ok b') (m : κ) : b'.supply m = b.supply m := by
  unfold openAccount at h
  split_ifs at h
  split at h
  · cases h
  · rename_i hk
    cases h
    change (b.accounts.set k ⟨mint, owner, 0⟩).sum (TokenAccount.share m) = _
    rw [b.accounts.sum_set_new hk]
    simp [TokenAccount.share, supply]

theorem closeAccount_supply {b b' : Bank κ} {authority k : κ}
    (h : b.closeAccount authority k = .ok b') (m : κ) : b'.supply m = b.supply m := by
  unfold closeAccount at h
  split at h
  · cases h
  · rename_i a hk
    split_ifs at h with hz
    cases h
    have hsum := b.accounts.sum_erase hk (TokenAccount.share m)
    have hzero : a.share m = 0 := by simp [TokenAccount.share, not_not.mp hz]
    change (b.accounts.erase k).sum (TokenAccount.share m) = _
    rw [hzero] at hsum
    exact hsum

end Bank
end Foundations
