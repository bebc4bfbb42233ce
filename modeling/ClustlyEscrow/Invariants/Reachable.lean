import ClustlyEscrow.Effects.Move

/-!
# Reachable states are sound

Every move keeps the facts of `Sound`. Token accounts only evolve in three ways
that matter here: an account of the program keeps its owner, every account
keeps its mint, and a new associated account is the derived one.
-/
namespace ClustlyEscrow
open Foundations

structure Custody (b b' : Bank Pubkey) : Prop where
  mints_sub : b.mints ⊆ b'.mints
  mint_new : ∀ m ∈ b'.mints, m ∈ b.mints ∨ m.canSign = true
  held : ∀ k o m, b'.holder k = some (o, m) →
    (∃ p, b.holder k = some (p, m) ∧ (p.canSign = false → o = p)) ∨
      b.holder k = none ∧ (k.canSign = true ∨ k = .ata o m)

section Custody
variable {b b' : Bank Pubkey}

theorem Custody.of_same (hm : b'.mints = b.mints) (hh : ∀ k, b'.holder k = b.holder k) :
    Custody b b' :=
  ⟨hm.ge, fun _ h => .inl (hm ▸ h), fun k o _ h => .inl ⟨o, hh k ▸ h, fun _ => rfl⟩⟩

theorem Custody.of_opened {owner mint : Pubkey} (hm : b'.mints = b.mints)
    (hfresh : b.holder (.ata owner mint) = none)
    (hh : ∀ k, b'.holder k =
      Function.update b.holder (.ata owner mint) (some (owner, mint)) k) : Custody b b' := by
  refine ⟨hm.ge, fun _ h => .inl (hm ▸ h), fun k o m h => ?_⟩
  rw [hh k] at h
  by_cases hk : k = .ata owner mint
  · subst k
    rw [Function.update_self] at h
    cases h
    exact .inr ⟨hfresh, .inr rfl⟩
  · rw [Function.update_of_ne hk] at h
    exact .inl ⟨o, h, fun _ => rfl⟩

theorem Custody.of_open {owner mint : Pubkey}
    (h : b.openAccount (.ata owner mint) owner mint = .ok b') : Custody b b' := by
  obtain ⟨_, _, hfresh, hobs⟩ := Bank.openAccount_eq_ok.mp h
  exact .of_opened hobs.mints hfresh hobs.holder

theorem Custody.of_closed {k₀ : Pubkey} (hm : b'.mints = b.mints)
    (hh : ∀ k, b'.holder k = Function.update b.holder k₀ none k) : Custody b b' := by
  refine ⟨hm.ge, fun _ h => .inl (hm ▸ h), fun k o m h => ?_⟩
  rw [hh k] at h
  by_cases hk : k = k₀
  · subst k
    simp at h
  · rw [Function.update_of_ne hk] at h
    exact .inl ⟨o, h, fun _ => rfl⟩

theorem Custody.of_outside {op : TokenOp} (h : Outside b b' op) : Custody b b' := by
  refine ⟨h.mints_sub, h.mint_new, fun k o m hk => ?_⟩
  rcases h.held k o m hk with ⟨p, hp⟩ | hnew
  · refine .inl ⟨p, hp, fun hsign => ?_⟩
    have hkeep := (h.kept k p m hsign hp).1
    rw [hk, Option.some.injEq, Prod.mk.injEq] at hkeep
    exact hkeep.1
  · exact .inr hnew

end Custody

variable {s s' : State} {out : List Transfer} {l : Label}

theorem Move.custody (h : Move s s' out l) : Custody s.tokens s'.tokens := by
  cases h with
  | configCreated he => exact .of_open he.tokens'
  | reconfigured _ _ _ _ he => exact he.post ▸ .of_same rfl (fun _ => rfl)
  | withdrawn he => exact .of_same he.tokens'.mints he.tokens'.holder
  | funded he =>
    exact .of_opened he.tokens'.mints (he.vault_key ▸ he.vault_fresh)
      (he.vault_key ▸ he.tokens'.holder)
  | ended _ _ _ he => exact .of_closed he.tokens'.mints he.tokens'.holder
  | enrolled he =>
    rcases he.tokens' with ⟨_, hb⟩ | hb
    · rw [hb]
      exact .of_same rfl (fun _ => rfl)
    · exact .of_open hb
  | advanced _ _ _ _ he => exact he.post ▸ .of_same rfl (fun _ => rfl)
  | paid _ _ _ he => exact .of_same he.tokens'.mints he.tokens'.holder
  | refunded _ _ _ he => exact .of_same he.tokens'.mints he.tokens'.holder
  | outside he hpost _ => exact hpost ▸ .of_outside he

/-! ## Records -/

/-- The terms of a task are all that its well-formedness reads. -/
theorem EscrowTask.Ok.of_terms {t t' : EscrowTask} {T : Pubkey} (h : t.Ok T)
    (hid : t'.taskId = t.taskId) (hp : t'.poster = t.poster) (hb : t'.bounty = t.bounty)
    (hm : t'.maxSlots = t.maxSlots) : t'.Ok T := by
  constructor
  · rw [hid]; exact h.key
  · rw [hp]; exact h.poster
  · rw [hb]; exact h.bounty_pos
  · rw [hm]; exact h.slots_pos
  · rw [hm]; exact h.slots_le
  · rw [hb, hm]; exact h.total_lt

theorem Funded.record_ok {a : InitializeTask} {cfg : EscrowConfig} {t : EscrowTask}
    (h : Funded s s' out a cfg t) (hp : t.poster = a.poster) : t.Ok a.task :=
  ⟨h.task_key, hp ▸ h.poster_signs, h.bounty_pos, h.slots.1, h.slots.2, h.total_lt⟩

theorem EscrowClaim.Ok.of_status {r r' : EscrowClaim} {c : Pubkey} (h : r.Ok c)
    (hid : r'.claimId = r.claimId) (hw : r'.claimer = r.claimer)
    (hst : ∃ st : ClaimStatus, r'.status = st.toU8) : r'.Ok c :=
  ⟨by rw [hid]; exact h.key, by rw [hw]; exact h.claimer, hst⟩

theorem AdvanceGround.record_ok {t : EscrowTask} {r r' : EscrowClaim} {c : Pubkey}
    (hg : AdvanceGround t r l r') (h : r.Ok c) : r'.Ok c := by
  cases hg with
  | submit => exact h.of_status rfl rfl ⟨.submitted, rfl⟩
  | dispute => exact h.of_status rfl rfl ⟨.disputed, rfl⟩
  | reject => exact h.of_status rfl rfl ⟨.rejected, rfl⟩

theorem RefundGround.record_ok {cfg : EscrowConfig} {t : EscrowTask} {r r' : EscrowClaim}
    {c : Pubkey} (hg : RefundGround cfg t r l r') (h : r.Ok c) : r'.Ok c := by
  cases hg with
  | reject => exact h.of_status rfl rfl ⟨.cancelled, rfl⟩
  | resolve => exact h.of_status rfl rfl ⟨.resolvedPoster, rfl⟩

theorem EndGround.tasks_ok {t : EscrowTask} {T : Pubkey} {tasks' : Store Pubkey EscrowTask}
    (hs : ∀ T t, s.tasks.get T = some t → t.Ok T) (ht : s.tasks.get T = some t)
    (hg : EndGround s t T l tasks') : ∀ U u, tasks'.get U = some u → u.Ok U := by
  have hclosed : (t.setStatus .closed).Ok T := (hs T t ht).of_terms rfl rfl rfl rfl
  cases hg with
  | cancel => exact Store.forall_erase hs
  | close => exact Store.forall_set hs hclosed
  | autoCancel => exact Store.forall_set hs hclosed

theorem Sound.tasks_step (hs : Sound s) (h : Move s s' out l) :
    ∀ T t, s'.tasks.get T = some t → t.Ok T := by
  have wrote {T : Pubkey} {t t' : EscrowTask} (ht : s.tasks.get T = some t)
      (htasks : s'.tasks = s.tasks.set T t') (hok : t.Ok T → t'.Ok T) :
      ∀ U u, s'.tasks.get U = some u → u.Ok U := by
    rw [htasks]
    exact Store.forall_set hs.task (hok (hs.task T t ht))
  cases h with
  | configCreated he => exact he.tasks' ▸ hs.task
  | reconfigured _ _ _ _ he => exact he.post ▸ hs.task
  | withdrawn he => exact he.tasks' ▸ hs.task
  | funded he =>
    rw [he.tasks']
    exact Store.forall_set hs.task (he.record_ok rfl)
  | ended _ _ hg he =>
    rw [he.tasks']
    exact hg.tasks_ok hs.task he.task
  | enrolled he => exact wrote he.task he.tasks' (fun hok => hok.of_terms rfl rfl rfl rfl)
  | advanced _ _ _ _ he => exact he.post ▸ hs.task
  | paid _ _ _ he => exact wrote he.task he.tasks' (fun hok => hok.of_terms rfl rfl rfl rfl)
  | refunded _ _ _ he => exact wrote he.task he.tasks' (fun hok => hok.of_terms rfl rfl rfl rfl)
  | outside _ hpost _ => exact hpost ▸ hs.task

theorem Sound.claims_step (hs : Sound s) (h : Move s s' out l) :
    ∀ c r, s'.claims.get c = some r → r.Ok c := by
  cases h with
  | configCreated he => exact he.claims' ▸ hs.claim
  | reconfigured _ _ _ _ he => exact he.post ▸ hs.claim
  | withdrawn he => exact he.claims' ▸ hs.claim
  | funded he => exact he.claims' ▸ hs.claim
  | ended _ _ _ he => exact he.claims' ▸ hs.claim
  | enrolled he =>
    rw [he.claims']
    exact Store.forall_set hs.claim ⟨he.claim_key, he.claimer_signs, .enrolled, rfl⟩
  | advanced _ _ _ hg he =>
    rw [he.post]
    exact Store.forall_set hs.claim (hg.record_ok (hs.claim _ _ he.claim))
  | @paid _ _ _ _ _ outcome _ _ _ he =>
    rw [he.claims']
    exact Store.forall_set hs.claim ((hs.claim _ _ he.claim).of_status rfl rfl ⟨outcome, rfl⟩)
  | refunded _ _ hg he =>
    rw [he.claims']
    exact Store.forall_set hs.claim (hg.record_ok (hs.claim _ _ he.claim))
  | outside _ hpost _ => exact hpost ▸ hs.claim

/-! ## The config -/

/-- What every move does to the config: nothing, its creation, or a change by its admin. -/
theorem Move.config_cases (h : Move s s' out l) :
    s'.config = s.config ∨
      (∃ cfg, s.config = none ∧ s'.config = some cfg ∧ cfg.feeBps ≤ feeBpsCap ∧
        cfg.usdcMint ∈ s.tokens.mints) ∨
      ∃ p cfg cfg', l.signedBy? = some p ∧ cfg.admin = p ∧ s.config = some cfg ∧
        s'.config = some cfg' ∧ ConfigGround s cfg l cfg' := by
  cases h with
  | configCreated he => exact .inr (.inl ⟨_, he.fresh, he.config', he.fee_le, he.mint_mem⟩)
  | reconfigured hsign _ _ hg he =>
    exact .inr (.inr ⟨_, _, _, hsign, he.admin, he.config, by rw [he.post], hg⟩)
  | withdrawn he => exact .inl he.config'
  | funded he => exact .inl he.config'
  | ended _ _ _ he => exact .inl he.config'
  | enrolled he => exact .inl he.config'
  | advanced _ _ _ _ he => exact .inl (by rw [he.post])
  | paid _ _ _ he => exact .inl he.config'
  | refunded _ _ _ he => exact .inl he.config'
  | outside _ hpost _ => exact .inl (by rw [hpost])

theorem ConfigGround.sound {cfg cfg' : EscrowConfig} (hs : Sound s) (hc : s.config = some cfg)
    (hg : ConfigGround s cfg l cfg') :
    cfg'.feeBps ≤ feeBpsCap ∧ cfg'.usdcMint ∈ s.tokens.mints := by
  cases hg with
  | admin => exact ⟨hs.fee_le cfg hc, hs.mint_mem cfg hc⟩
  | fee hcap => exact ⟨hcap, hs.mint_mem cfg hc⟩
  | mint hknown => exact ⟨hs.fee_le cfg hc, hknown⟩

theorem Sound.config_step (hs : Sound s) (h : Move s s' out l) (cfg' : EscrowConfig)
    (hc' : s'.config = some cfg') :
    cfg'.feeBps ≤ feeBpsCap ∧ cfg'.usdcMint ∈ s.tokens.mints := by
  rcases h.config_cases with hsame | ⟨cfg, _, hnew, hfee, hmint⟩ | ⟨_, cfg, _, _, _, hc, hnew, hg⟩
  · rw [hsame] at hc'
    exact ⟨hs.fee_le cfg' hc', hs.mint_mem cfg' hc'⟩
  · rw [hnew] at hc'
    cases hc'
    exact ⟨hfee, hmint⟩
  · rw [hnew] at hc'
    cases hc'
    exact hg.sound hs hc

/-! ## Soundness of reachable states -/

theorem Sound.step (hs : Sound s) (h : Move s s' out l) : Sound s' := by
  have hb := h.custody
  refine ⟨fun cfg hc => (hs.config_step h cfg hc).1,
    fun cfg hc => hb.mints_sub (hs.config_step h cfg hc).2, fun m hm => ?_, hs.tasks_step h,
    hs.claims_step h, fun o m o' m' hh => ?_, fun o m o' m' ho hh => ?_⟩
  · rcases hb.mint_new m hm with hold | hnew
    · exact hs.mint_signs m hold
    · exact hnew
  · rcases hb.held _ _ _ hh with ⟨p, hp, _⟩ | ⟨_, hk | hk⟩
    · exact hs.ata_mint o m p m' hp
    · cases hk
    · cases hk
      rfl
  · rcases hb.held _ _ _ hh with ⟨p, hp, hkeep⟩ | ⟨_, hk | hk⟩
    · have hpo := hs.ata_owner o m p m' ho hp
      rw [← hpo]
      exact hkeep (hpo ▸ ho)
    · cases hk
    · cases hk
      rfl

/-- A state that some run of the program and its environment leads to. -/
abbrev Reaches (h : History) (s : State) : Prop := Runs State.genesis h s

variable {h : History}

theorem Reaches.sound (hr : Reaches h s) : Sound s :=
  hr.invariant sound_genesis (fun _ _ _ _ hs fired => hs.step (move_of_exec hs fired))

/-- Every recorded event of a run is a move between sound states. -/
theorem Reaches.move (hr : Reaches h s) (hstep : Accepts exec s l out s') : Move s s' out l :=
  move_of_exec hr.sound hstep

end ClustlyEscrow
