import ClustlyEscrow.Guarantees.Census

/-!
# The race for the slots

Workers who want to enrol in the same task compete for its free slots. Nobody
can reserve a slot and nobody is refused while one is free: the first attempts
to arrive win, as many as there are slots.
-/
namespace ClustlyEscrow
open Foundations

/-- One transaction in the race. -/
structure Attempt where
  now : I64
  accounts : Enroll
  claimId : BitVec 128

namespace Attempt
variable (x : Attempt)

def label : Label := .instr x.now (.enroll x.accounts x.claimId)

abbrev claim : Pubkey := x.accounts.claim

def record : EscrowClaim := x.accounts.record x.now x.claimId

end Attempt

/-- An attempt to enrol in task `T` that only the slots can fail. -/
structure Candidate (s : State) (T poster : Pubkey) (x : Attempt) : Prop where
  signs : x.accounts.claimer.canSign = true
  config_key : x.accounts.config = .configPda
  task : x.accounts.task = T
  mint : x.accounts.usdcMint ∈ s.tokens.mints
  claim_key : x.accounts.claim = .claimPda x.claimId
  fresh : s.claims.get x.accounts.claim = none
  ata_key : x.accounts.claimerAta = .ata x.accounts.claimer x.accounts.usdcMint
  ata : s.tokens.holder (.ata x.accounts.claimer x.accounts.usdcMint) = none ∨
    s.tokens.holder (.ata x.accounts.claimer x.accounts.usdcMint) =
      some (x.accounts.claimer, x.accounts.usdcMint)
  stranger : x.accounts.claimer ≠ poster

/-- The attempts that come while a slot is free. -/
def winners (t : EscrowTask) (xs : List Attempt) : List Attempt :=
  xs.take (t.maxSlots - t.slotsEnrolled)

/-- What trying `xs` one after the other makes of `s`. -/
structure Raced (s : State) (T : Pubkey) (t : EscrowTask) (xs : List Attempt) (h' : History)
    (s' : State) : Prop where
  config : s'.config = s.config
  task : s'.tasks.get T = some { t with slotsEnrolled := t.slotsEnrolled + (winners t xs).length }
  otherTasks : ∀ U, U ≠ T → s'.tasks.get U = s.tasks.get U
  labels : h'.map Event.label = ((winners t xs).map Attempt.label).reverse
  enrolled : ∀ x ∈ winners t xs, s'.claims.get x.claim = some x.record
  otherClaims : ∀ c, (∀ x ∈ winners t xs, x.claim ≠ c) → s'.claims.get c = s.claims.get c
  /-- Whoever has not won could still try. -/
  waiting : ∀ x, Candidate s T t.poster x → (∀ y ∈ winners t xs, y.claim ≠ x.claim) →
    Candidate s' T t.poster x

section Race
variable {s s' : State} {h : History} {out : List Transfer} {T owner mint : Pubkey}
  {cfg : EscrowConfig} {t : EscrowTask} {x y : Attempt} {xs : List Attempt} {b : Bank Pubkey}

/-! ## One attempt -/

theorem AtaReady.exists (hm : mint ∈ b.mints) (hk : .ata owner mint ∉ b.mints)
    (hata : b.holder (.ata owner mint) = none ∨
      b.holder (.ata owner mint) = some (owner, mint)) : ∃ b', AtaReady b b' owner mint := by
  rcases hata with hnone | hheld
  · obtain ⟨b', hopen⟩ := Bank.openAccount_succeeds owner hm hk hnone
    exact ⟨b', .inr hopen⟩
  · exact ⟨b, .inl ⟨hheld, rfl⟩⟩

theorem AtaReady.mints {b' : Bank Pubkey} (hata : AtaReady b b' owner mint) :
    b'.mints = b.mints := by
  rcases hata with ⟨_, rfl⟩ | hopen
  · rfl
  · exact (Bank.openAccount_eq_ok.mp hopen).2.2.2.mints

/-- Opening one associated account leaves another one missing, or in good order. -/
theorem AtaReady.ata {b' : Bank Pubkey} {o m : Pubkey} (hready : AtaReady b b' owner mint)
    (hata : b.holder (.ata o m) = none ∨ b.holder (.ata o m) = some (o, m)) :
    b'.holder (.ata o m) = none ∨ b'.holder (.ata o m) = some (o, m) := by
  rcases hata with hnone | hheld
  · rcases hready with ⟨_, rfl⟩ | hopen
    · exact .inl hnone
    · rw [(Bank.openAccount_eq_ok.mp hopen).2.2.2.holder]
      by_cases hsame : Pubkey.ata o m = .ata owner mint
      · obtain ⟨rfl, rfl⟩ := Pubkey.ata.inj hsame
        exact .inr (Function.update_self _ _ _)
      · rw [Function.update_of_ne hsame]
        exact .inl hnone
  · exact .inr (hready.kept hheld).1

/-- A candidate who finds a slot gets it. -/
theorem Candidate.enrolls (hs : Sound s) (hx : Candidate s T t.poster x)
    (hcfg : s.config = some cfg) (ht : s.tasks.get T = some t) (hopen : t.taskStatus = .opened)
    (hroom : t.slotsEnrolled < t.maxSlots) :
    ∃ s', Enrolled s s' [] x.now x.accounts x.claimId t := by
  have hok := hs.task T t ht
  have hslots := hok.slots_le
  have hmint : Pubkey.ata x.accounts.claimer x.accounts.usdcMint ∉ s.tokens.mints := by
    intro hmem
    cases hs.mint_signs _ hmem
  obtain ⟨b, hb⟩ := AtaReady.exists hx.mint hmint hx.ata
  refine ⟨{ s with
    tasks := s.tasks.set x.accounts.task { t with slotsEnrolled := t.slotsEnrolled + 1 }
    claims := s.claims.set x.accounts.claim (x.accounts.record x.now x.claimId)
    tokens := b }, ?_⟩
  have hfits : t.slotsEnrolled + 1 < 2 ^ 16 := by
    unfold maxSlotsLimit at hslots
    omega
  exact ⟨hx.signs, hx.config_key, ⟨cfg, hcfg⟩, hx.mint, by rw [hx.task, ht],
    by rw [hx.task, hok.key], hx.claim_key, hx.fresh, hx.ata_key, hopen, hroom, hfits, hx.stranger,
    rfl, rfl, rfl, hb, rfl⟩

/-- Another enrolment leaves a candidate a candidate. -/
theorem Candidate.after {poster : Pubkey} (hx : Candidate s T poster x)
    (he : Enrolled s s' out y.now y.accounts y.claimId t) (hne : y.claim ≠ x.claim) :
    Candidate s' T poster x := by
  constructor
  · exact hx.signs
  · exact hx.config_key
  · exact hx.task
  · rw [he.tokens'.mints]
    exact hx.mint
  · exact hx.claim_key
  · rw [he.claims', Store.get_set_of_ne _ (Ne.symm hne)]
    exact hx.fresh
  · exact hx.ata_key
  · exact he.tokens'.ata hx.ata
  · exact hx.stranger

/-! ## All attempts -/

theorem winners_snoc_of_room (hroom : xs.length < t.maxSlots - t.slotsEnrolled) :
    winners t xs = xs ∧ winners t (xs ++ [x]) = xs ++ [x] := by
  constructor
  · exact List.take_of_length_le (Nat.le_of_lt hroom)
  · apply List.take_of_length_le
    rw [List.length_append, List.length_singleton]
    exact hroom

theorem winners_snoc_of_full (hfull : ¬ xs.length < t.maxSlots - t.slotsEnrolled) :
    winners t (xs ++ [x]) = winners t xs :=
  List.take_append_of_le_length (not_lt.mp hfull)

theorem raced_nil (ht : s.tasks.get T = some t) : Raced s T t [] [] s := by
  have hnone : winners t [] = [] := List.take_nil
  constructor
  · rfl
  · rw [hnone, ht]
    rfl
  · exact fun _ _ => rfl
  · rw [hnone]
    rfl
  · simp [hnone]
  · exact fun _ _ => rfl
  · exact fun _ hx _ => hx

/-- The next attempt wins a free slot. -/
theorem Raced.won {h' : History} {s'' : State} (hrace : Raced s T t xs h' s')
    (hroom : xs.length < t.maxSlots - t.slotsEnrolled) (hT : x.accounts.task = T)
    (hfresh : ∀ y ∈ xs, y.claim ≠ x.claim)
    (he : Enrolled s' s'' out x.now x.accounts x.claimId
      { t with slotsEnrolled := t.slotsEnrolled + xs.length }) :
    Raced s T t (xs ++ [x]) (⟨x.label, s', s'', out⟩ :: h') s'' := by
  obtain ⟨hall, hall'⟩ := winners_snoc_of_room (x := x) hroom
  have hlabels := hrace.labels
  have henrolled := hrace.enrolled
  have hothers := hrace.otherClaims
  have hwaiting := hrace.waiting
  rw [hall] at hlabels henrolled hothers hwaiting
  constructor
  all_goals rw [hall'] at *
  · exact he.config'.trans hrace.config
  · rw [he.tasks', hT, Store.get_set_self, List.length_append, List.length_singleton,
      Nat.add_assoc]
  · intro U hU
    rw [he.tasks', hT, Store.get_set_of_ne _ hU, hrace.otherTasks U hU]
  · rw [List.map_cons, hlabels, List.map_append, List.reverse_append]
    rfl
  · intro y hy
    rw [he.claims']
    rcases List.mem_append.mp hy with hy | hy
    · rw [Store.get_set_of_ne _ (hfresh y hy), henrolled y hy]
    · rw [List.mem_singleton.mp hy, Store.get_set_self]
      rfl
  · intro c hc
    rw [List.forall_mem_append, List.forall_mem_singleton] at hc
    rw [he.claims', Store.get_set_of_ne _ (Ne.symm hc.2), hothers c hc.1]
  · intro y hy hne
    rw [List.forall_mem_append, List.forall_mem_singleton] at hne
    exact (hwaiting y hy hne.1).after he hne.2

/-- An attempt that comes too late changes nothing. -/
theorem Raced.lost {h' : History} (hrace : Raced s T t xs h' s')
    (hfull : ¬ xs.length < t.maxSlots - t.slotsEnrolled) : Raced s T t (xs ++ [x]) h' s' := by
  have hsame := winners_snoc_of_full (x := x) hfull
  constructor
  · exact hrace.config
  · rw [hsame]
    exact hrace.task
  · exact hrace.otherTasks
  · rw [hsame]
    exact hrace.labels
  · rw [hsame]
    exact hrace.enrolled
  · rw [hsame]
    exact hrace.otherClaims
  · rw [hsame]
    exact hrace.waiting

/-- Of all who try to enrol in an open task the first ones win, one for every
free slot and nobody else, whoever they are and in whatever order they come. -/
theorem first_come_first_served (hr : Reaches h s) (hcfg : s.config = some cfg)
    (ht : s.tasks.get T = some t) (hopen : t.taskStatus = .opened)
    (hxs : ∀ x ∈ xs, Candidate s T t.poster x) (hnodup : (xs.map Attempt.claim).Nodup) :
    Raced s T t xs (attempts exec s (xs.map Attempt.label)).1
      (attempts exec s (xs.map Attempt.label)).2 := by
  induction xs using List.reverseRecOn with
  | nil => exact raced_nil ht
  | append_singleton xs x ih =>
    rw [List.forall_mem_append, List.forall_mem_singleton] at hxs
    rw [List.map_append, List.map_singleton, List.nodup_append] at hnodup
    have hne : ∀ y ∈ xs, y.claim ≠ x.claim := fun y hy =>
      hnodup.2.2 _ (List.mem_map_of_mem hy) _ (List.mem_singleton_self _)
    have hrace := ih hxs.1 hnodup.1
    rw [List.map_append, List.map_singleton, attempts_snoc]
    have hrun := hr.trans (attempts_run exec s (xs.map Attempt.label))
    by_cases hroom : xs.length < t.maxSlots - t.slotsEnrolled
    · -- Nobody has been refused so far.
      have hall := (winners_snoc_of_room (x := x) hroom).1
      have hx := hrace.waiting x hxs.2 (by rw [hall]; exact hne)
      have htask := hrace.task
      rw [hall] at htask
      obtain ⟨s'', he⟩ := Candidate.enrolls (t := { t with
          slotsEnrolled := t.slotsEnrolled + xs.length }) (Reaches.sound hrun) hx
        (hrace.config.trans hcfg) htask hopen (by dsimp only; omega)
      rw [attempt_of_ok (l := x.label) (enroll_eq_ok.mpr ⟨_, he⟩)]
      exact hrace.won hroom hxs.2.task hne he
    · -- All slots are taken, and the attempt fails.
      cases hexec : exec (attempts exec s (xs.map Attempt.label)).2 x.label with
      | error e =>
        rw [attempt_of_error hexec]
        exact hrace.lost hroom
      | ok res =>
        obtain ⟨t', he⟩ := enroll_eq_ok.mp (hexec : enroll _ _ _ _ = .ok (res.1, res.2))
        have htask := he.task
        rw [hxs.2.task, hrace.task, Option.some.injEq] at htask
        have hfull := he.room
        rw [← htask, winners, List.length_take] at hfull
        dsimp only at hfull
        omega

end Race

namespace Scenario

def rush (w : Pubkey) (n : BitVec 128) : Attempt :=
  ⟨clock 1100, ⟨w, .configPda, usdc, job, .claimPda n, .ata w usdc⟩, n⟩

/-- A task with a single slot. -/
def single : List Label := setup ++ [fund 10000 1 (clock 5000)]

end Scenario

open Scenario in
theorem first_come_first_served_single : Raced (played single).2 job
    ⟨0, poster, 10000, 1, 0, 0, 0, 0, 5000, 3600⟩ [rush helper 1, rush worker 0]
    (attempts exec (played single).2 [(rush helper 1).label, (rush worker 0).label]).1
    (attempts exec (played single).2 [(rush helper 1).label, (rush worker 0).label]).2 := by
  have hcfg : (played single).2.config = some ⟨admin, usdc, 400⟩ := by decide +kernel
  have hhelper : Candidate (played single).2 job poster (rush helper 1) :=
    ⟨rfl, rfl, rfl, by decide +kernel, rfl, by decide +kernel, rfl, by decide +kernel, by decide⟩
  have hworker : Candidate (played single).2 job poster (rush worker 0) :=
    ⟨rfl, rfl, rfl, by decide +kernel, rfl, by decide +kernel, rfl, by decide +kernel, by decide⟩
  exact first_come_first_served (played_reaches single) hcfg (by decide +kernel) rfl
    (List.forall_mem_cons.mpr ⟨hhelper, List.forall_mem_singleton.mpr hworker⟩) (by decide)

end ClustlyEscrow
