import ClustlyEscrow.Effects.Move

/-!
# What a step leaves alone

A step touches the record of the task and of the claim it names, and takes
tokens only from the vault of that task, from the fee vault, or from an account
of a signer. Everything else is framed, for every choice of accounts.
-/
namespace ClustlyEscrow
open Foundations

/-- What a transfer adds to an account. -/
def Transfer.credit (k : Pubkey) (x : Transfer) : ℕ :=
  if x.dest = k ∧ x.source ≠ k then x.amount else 0

/-- What a step puts into an account, read off its label and its output. -/
def creditOf (k : Pubkey) (out : List Transfer) : Label → ℕ
  | .instr _ _ => (out.map (Transfer.credit k)).sum
  | .token op => op.credit k

section Credit
variable {k : Pubkey} {out : List Transfer} {l : Label}

theorem creditOf_of_signed {p : Pubkey} (h : l.signedBy? = some p) :
    creditOf k out l = (out.map (Transfer.credit k)).sum := by
  cases l with
  | instr => rfl
  | token => cases h

theorem creditOf_of_task {T : Pubkey} (h : l.task? = some T) :
    creditOf k out l = (out.map (Transfer.credit k)).sum := by
  cases l with
  | instr => rfl
  | token => cases h

theorem credit_of_ne {x : Transfer} (h : k ≠ x.dest) : x.credit k = 0 := by
  rw [Transfer.credit, if_neg (fun hx => h hx.1.symm)]

theorem credit_transferList {source dest : Pubkey} {n : ℕ} (h : k ≠ dest) :
    ((transferList source dest n).map (Transfer.credit k)).sum = 0 := by
  unfold transferList
  split_ifs
  · simp [credit_of_ne (x := ⟨source, dest, n⟩) h]
  · rfl

end Credit

section Accounts
variable {s s' : State} {out : List Transfer} {l : Label} {k : Pubkey}

/-! ## One effect at a time -/

theorem Paid.balance_of_ne {c : Pubkey} {cfg : EscrowConfig} {t : EscrowTask} {r : EscrowClaim}
    {outcome : ClaimStatus} (h : Paid s s' out c cfg t r outcome)
    (hv : k ≠ .ata r.task cfg.usdcMint) (hw : k ≠ .ata r.claimer cfg.usdcMint)
    (hf : k ≠ .ata .configPda cfg.usdcMint) :
    s'.tokens.balance k = s.tokens.balance k ∧ (out.map (Transfer.credit k)).sum = 0 := by
  constructor
  · rw [h.tokens'.balance, paidBalance, if_neg hv, if_neg hw, if_neg hf]
  · rw [h.transfers, List.map_append, List.sum_append, credit_transferList hw,
      credit_transferList hf]

theorem Refunded.balance_of_ne {c P : Pubkey} {cfg : EscrowConfig} {t : EscrowTask}
    {r r' : EscrowClaim} (h : Refunded s s' out c P cfg t r r')
    (hv : k ≠ .ata r.task cfg.usdcMint) (hP : k ≠ P) :
    s'.tokens.balance k = s.tokens.balance k ∧ (out.map (Transfer.credit k)).sum = 0 := by
  refine ⟨h.tokens'.balance_of_ne hv hP, ?_⟩
  rw [h.transfers, List.map_singleton, List.sum_singleton, credit_of_ne hP]

theorem Ended.balance_of_ne {T P : Pubkey} {cfg : EscrowConfig} {t : EscrowTask}
    {tasks' : Store Pubkey EscrowTask} (h : Ended s s' out T P cfg t tasks')
    (hv : k ≠ .ata T cfg.usdcMint) (hP : k ≠ P) :
    s'.tokens.holder k = s.tokens.holder k ∧ s'.tokens.balance k = s.tokens.balance k ∧
      (out.map (Transfer.credit k)).sum = 0 := by
  refine ⟨?_, ?_, ?_⟩
  · rw [h.tokens'.holder, Function.update_of_ne hv]
  · rw [h.tokens'.balance]
    simp [Bank.movedBalance, hv, hP]
  · rw [h.transfers, credit_transferList hP]

theorem Funded.balance_of_ne {a : InitializeTask} {cfg : EscrowConfig} {t : EscrowTask}
    (h : Funded s s' out a cfg t) (hv : k ≠ a.taskVault) (hP : k ≠ a.posterAta) :
    s'.tokens.holder k = s.tokens.holder k ∧ s'.tokens.balance k = s.tokens.balance k ∧
      (out.map (Transfer.credit k)).sum = 0 := by
  refine ⟨?_, ?_, ?_⟩
  · rw [h.tokens'.holder, Function.update_of_ne hv]
  · rw [h.tokens'.balance]
    simp [Bank.movedBalance, hv, hP]
  · rw [h.transfers, List.map_singleton, List.sum_singleton, credit_of_ne hv]

theorem Withdrawn.balance_of_ne {a : WithdrawFees} {cfg : EscrowConfig} {amount : ℕ}
    (h : Withdrawn s s' out a cfg amount) (hf : k ≠ .ata .configPda cfg.usdcMint) :
    s'.tokens.balance k = s.tokens.balance k + (out.map (Transfer.credit k)).sum := by
  rw [h.tokens'.balance, h.transfers, List.map_singleton, List.sum_singleton, Transfer.credit]
  by_cases hd : a.destination = k
  · simp [Bank.movedBalance, hd, hf, Ne.symm hf]
  · simp [Bank.movedBalance, hd, hf, Ne.symm hd]

/-- Creating an account changes no other one. -/
theorem opened_of_ne {b b' : Bank Pubkey} {j owner mint o m : Pubkey}
    (h : b.openAccount j owner mint = .ok b') (hk : b.holder k = some (o, m)) :
    b'.holder k = some (o, m) ∧ b'.balance k = b.balance k := by
  obtain ⟨_, _, hfresh, hobs⟩ := Bank.openAccount_eq_ok.mp h
  rw [hobs.holder, Function.update_of_ne (ne_of_fresh hk hfresh)]
  exact ⟨hk, hobs.balance k⟩

theorem AtaReady.kept {b b' : Bank Pubkey} {owner mint o m : Pubkey}
    (h : AtaReady b b' owner mint) (hk : b.holder k = some (o, m)) :
    b'.holder k = some (o, m) ∧ b'.balance k = b.balance k := by
  rcases h with ⟨_, rfl⟩ | hb
  · exact ⟨hk, rfl⟩
  · exact opened_of_ne hb hk

/-! ## Accounts of a task that the step does not name -/

/-- An account of `o` is only credited, and by a step on another task not even that. -/
structure Foreign (s s' : State) (out : List Transfer) (l : Label) (k o m : Pubkey) : Prop where
  holder : s'.tokens.holder k = some (o, m)
  balance : s'.tokens.balance k = s.tokens.balance k + creditOf k out l
  silent : l.task? ≠ none → creditOf k out l = 0
  source : ∀ x ∈ out, x.source ≠ k

theorem Foreign.of_named {o m T : Pubkey} (hk : s.tokens.holder k = some (o, m))
    (hl : l.task? = some T) (hh : s'.tokens.holder k = s.tokens.holder k)
    (hb : s'.tokens.balance k = s.tokens.balance k ∧ (out.map (Transfer.credit k)).sum = 0)
    (hsrc : ∀ x ∈ out, x.source ≠ k) : Foreign s s' out l k o m := by
  have hz : creditOf k out l = 0 := by rw [creditOf_of_task hl, hb.2]
  exact ⟨hh.trans hk, by rw [hb.1, hz, Nat.add_zero], fun _ => hz, hsrc⟩

theorem Foreign.of_unnamed {o m : Pubkey} (hl : l.task? = none)
    (hh : s'.tokens.holder k = some (o, m))
    (hb : s'.tokens.balance k = s.tokens.balance k + creditOf k out l)
    (hsrc : ∀ x ∈ out, x.source ≠ k) : Foreign s s' out l k o m :=
  ⟨hh, hb, fun hne => absurd hl hne, hsrc⟩

theorem mem_transferList {source dest : Pubkey} {n : ℕ} {x : Transfer}
    (h : x ∈ transferList source dest n) : x.source = source ∧ x.dest = dest := by
  unfold transferList at h
  split_ifs at h
  · rw [List.mem_singleton] at h
    subst x
    exact ⟨rfl, rfl⟩
  · cases h

theorem Paid.source {c : Pubkey} {cfg : EscrowConfig} {t : EscrowTask} {r : EscrowClaim}
    {outcome : ClaimStatus} (h : Paid s s' out c cfg t r outcome) :
    ∀ x ∈ out, x.source = .ata r.task cfg.usdcMint := by
  intro x hx
  rw [h.transfers, List.mem_append] at hx
  rcases hx with hx | hx <;> exact (mem_transferList hx).1

theorem Move.foreign (hs : Sound s) (h : Move s s' out l) {o m : Pubkey}
    (ho : o.canSign = false) (hcfg : o ≠ .configPda) (hk : s.tokens.holder k = some (o, m))
    (hne : l.task? ≠ some o) : Foreign s s' out l k o m := by
  have hposter {T : Pubkey} {t : EscrowTask} (ht : s.tasks.get T = some t) : o ≠ t.poster :=
    (ne_of_canSign (hs.task T t ht).poster ho).symm
  cases h with
  | configCreated he =>
    obtain ⟨hh, hb⟩ := opened_of_ne he.tokens' hk
    rw [he.transfers]
    exact .of_unnamed rfl hh hb (by simp)
  | reconfigured hsign htask _ _ he =>
    refine .of_unnamed htask (by rw [he.post]; exact hk) ?_ (by simp [he.transfers])
    rw [creditOf_of_signed hsign, he.transfers, he.post]
    rfl
  | withdrawn he =>
    have hf := ne_of_owner hk he.feeVault hcfg
    refine .of_unnamed rfl ((he.tokens'.holder k).trans hk) (he.balance_of_ne hf) ?_
    simp [he.transfers, Ne.symm hf]
  | funded he =>
    have hP := ne_of_owner hk he.posterAta (ne_of_canSign he.poster_signs ho).symm
    obtain ⟨hh, hb⟩ := he.balance_of_ne (ne_of_fresh hk he.vault_fresh) hP
    exact .of_named hk rfl hh hb (by simp [he.transfers, Ne.symm hP])
  | ended htask _ _ he =>
    have hv := ne_of_owner hk he.vault (fun heq => hne (heq ▸ htask))
    obtain ⟨hh, hb⟩ := he.balance_of_ne hv (ne_of_owner hk he.posterAta (hposter he.task))
    refine .of_named hk htask hh hb (fun x hx => ?_)
    rw [he.transfers] at hx
    rw [(mem_transferList hx).1]
    exact hv.symm
  | enrolled he =>
    obtain ⟨hh, hb⟩ := he.tokens'.kept hk
    exact .of_named hk rfl (hh.trans hk.symm) ⟨hb, by simp [he.transfers]⟩ (by simp [he.transfers])
  | advanced htask _ _ _ he =>
    exact .of_named hk htask (by rw [he.post]) ⟨by rw [he.post], by simp [he.transfers]⟩
      (by simp [he.transfers])
  | paid htask _ _ he =>
    have hv := ne_of_owner hk he.ready.vault (fun heq => hne (heq ▸ htask))
    have hw := ne_of_owner hk he.ready.claimerAta
      (ne_of_canSign (hs.claim _ _ he.claim).claimer ho).symm
    refine .of_named hk htask (he.tokens'.holder k)
      (he.balance_of_ne hv hw (ne_of_owner hk he.ready.feeVault hcfg)) (fun x hx => ?_)
    rw [he.source x hx]
    exact hv.symm
  | refunded htask _ _ he =>
    have hv := ne_of_owner hk he.vault (fun heq => hne (heq ▸ htask))
    refine .of_named hk htask (he.tokens'.holder k)
      (he.balance_of_ne hv (ne_of_owner hk he.posterAta (hposter he.task))) ?_
    simp [he.transfers, Ne.symm hv]
  | outside he hpost hsilent =>
    obtain ⟨hh, hb⟩ := he.kept k o m ho hk
    exact .of_unnamed rfl (by rw [hpost]; exact hh) (by rw [hpost]; exact hb) (by simp [hsilent])

/-! ## Records that the step does not name -/

theorem EndGround.tasks_of_ne {t : EscrowTask} {T U : Pubkey} {tasks' : Store Pubkey EscrowTask}
    (hg : EndGround s t T l tasks') (h : U ≠ T) : tasks'.get U = s.tasks.get U := by
  cases hg with
  | cancel => exact Store.get_erase_of_ne _ h
  | close => exact Store.get_set_of_ne _ h _
  | autoCancel => exact Store.get_set_of_ne _ h _

theorem Move.task_frame (h : Move s s' out l) {T : Pubkey} (hne : l.task? ≠ some T) :
    s'.tasks.get T = s.tasks.get T := by
  have wrote {U : Pubkey} {u : EscrowTask} (hl : l.task? = some U)
      (htasks : s'.tasks = s.tasks.set U u) : s'.tasks.get T = s.tasks.get T := by
    rw [htasks, Store.get_set_of_ne]
    exact fun heq => hne (heq ▸ hl)
  cases h with
  | configCreated he => rw [he.tasks']
  | reconfigured _ _ _ _ he => rw [he.post]
  | withdrawn he => rw [he.tasks']
  | funded he => exact wrote rfl he.tasks'
  | ended htask _ hg he =>
    rw [he.tasks', hg.tasks_of_ne]
    exact fun heq => hne (heq ▸ htask)
  | enrolled he => exact wrote rfl he.tasks'
  | advanced _ _ _ _ he => rw [he.post]
  | paid htask _ _ he => exact wrote htask he.tasks'
  | refunded htask _ _ he => exact wrote htask he.tasks'
  | outside _ hpost _ => rw [hpost]

theorem Move.claim_frame (h : Move s s' out l) {c : Pubkey} (hne : l.claim? ≠ some c) :
    s'.claims.get c = s.claims.get c := by
  have wrote {d : Pubkey} {r : EscrowClaim} (hl : l.claim? = some d)
      (hclaims : s'.claims = s.claims.set d r) : s'.claims.get c = s.claims.get c := by
    rw [hclaims, Store.get_set_of_ne]
    exact fun heq => hne (heq ▸ hl)
  cases h with
  | configCreated he => rw [he.claims']
  | reconfigured _ _ _ _ he => rw [he.post]
  | withdrawn he => rw [he.claims']
  | funded he => rw [he.claims']
  | ended _ _ _ he => rw [he.claims']
  | enrolled he => exact wrote rfl he.claims'
  | advanced _ hclaim _ _ he => exact wrote hclaim (by rw [he.post])
  | paid _ hclaim _ he => exact wrote hclaim he.claims'
  | refunded _ hclaim _ he => exact wrote hclaim he.claims'
  | outside _ hpost _ => rw [hpost]

theorem AdvanceGround.task_eq {t : EscrowTask} {r r' : EscrowClaim}
    (h : AdvanceGround t r l r') : r'.task = r.task := by
  cases h <;> rfl

theorem RefundGround.task_eq {cfg : EscrowConfig} {t : EscrowTask} {r r' : EscrowClaim}
    (h : RefundGround cfg t r l r') : r'.task = r.task := by
  cases h <;> rfl

/-! ## The record of the claim that the step names -/

/-- What a step found at the claim it names, and what it left there. -/
inductive Touch (s s' : State) (out : List Transfer) (c : Pubkey) : Label → Prop
  | enrolled {now : I64} {a : Enroll} {claimId : BitVec 128} {t : EscrowTask}
      (pre : s.claims.get c = none) (post : s'.claims.get c = some (a.record now claimId))
      (effect : Enrolled s s' out now a claimId t) :
      Touch s s' out c (.instr now (.enroll a claimId))
  | advanced {l : Label} {t : EscrowTask} {r r' : EscrowClaim} (task : l.task? = some r.task)
      (pre : s.claims.get c = some r) (post : s'.claims.get c = some r')
      (ground : AdvanceGround t r l r') (effect : Advanced s s' out c r r') : Touch s s' out c l
  | paid {l : Label} {cfg : EscrowConfig} {t : EscrowTask} {r : EscrowClaim}
      {outcome : ClaimStatus} (task : l.task? = some r.task) (pre : s.claims.get c = some r)
      (post : s'.claims.get c = some (r.setStatus outcome)) (ground : PayGround cfg t r l outcome)
      (effect : Paid s s' out c cfg t r outcome) : Touch s s' out c l
  | refunded {l : Label} {P : Pubkey} {cfg : EscrowConfig} {t : EscrowTask} {r r' : EscrowClaim}
      (task : l.task? = some r.task) (pre : s.claims.get c = some r)
      (post : s'.claims.get c = some r') (ground : RefundGround cfg t r l r')
      (effect : Refunded s s' out c P cfg t r r') : Touch s s' out c l

theorem Move.touch (h : Move s s' out l) {c : Pubkey} (hl : l.claim? = some c) :
    Touch s s' out c l := by
  cases h with
  | configCreated | withdrawn | funded | outside => cases hl
  | reconfigured _ _ hclaim | ended _ hclaim =>
    rw [hclaim] at hl
    cases hl
  | enrolled he =>
    cases hl
    exact .enrolled he.fresh (by rw [he.claims', Store.get_set_self]) he
  | advanced htask hclaim _ hg he =>
    rw [hclaim, Option.some.injEq] at hl
    subst hl
    exact .advanced htask he.claim (by rw [he.post, Store.get_set_self]) hg he
  | paid htask hclaim hg he =>
    rw [hclaim, Option.some.injEq] at hl
    subst hl
    exact .paid htask he.claim (by rw [he.claims', Store.get_set_self]) hg he
  | refunded htask hclaim hg he =>
    rw [hclaim, Option.some.injEq] at hl
    subst hl
    exact .refunded htask he.claim (by rw [he.claims', Store.get_set_self]) hg he

theorem Touch.post_exists {c : Pubkey} (h : Touch s s' out c l) :
    ∃ r, s'.claims.get c = some r := by
  cases h with
  | enrolled _ hpost => exact ⟨_, hpost⟩
  | advanced _ _ hpost => exact ⟨_, hpost⟩
  | paid _ _ hpost => exact ⟨_, hpost⟩
  | refunded _ _ hpost => exact ⟨_, hpost⟩

/-- An existing claim can only be named together with its own task. -/
theorem Touch.claim_task {c : Pubkey} {r : EscrowClaim} (h : Touch s s' out c l)
    (hc : s.claims.get c = some r) : l.task? = some r.task := by
  cases h with
  | enrolled hpre =>
    rw [hpre] at hc
    cases hc
  | advanced htask hpre | paid htask hpre | refunded htask hpre =>
    rw [hpre, Option.some.injEq] at hc
    rw [← hc, htask]

/-- The record that a step leaves at a claim belongs to the named task. -/
theorem Touch.claim_task_post {c : Pubkey} {r : EscrowClaim} (h : Touch s s' out c l)
    (hc : s'.claims.get c = some r) : l.task? = some r.task := by
  cases h with
  | enrolled _ hpost =>
    rw [hpost, Option.some.injEq] at hc
    rw [← hc]
    rfl
  | advanced htask _ hpost hg =>
    rw [hpost, Option.some.injEq] at hc
    rw [← hc, htask, hg.task_eq]
  | paid htask _ hpost =>
    rw [hpost, Option.some.injEq] at hc
    rw [← hc, htask]
    rfl
  | refunded htask _ hpost hg =>
    rw [hpost, Option.some.injEq] at hc
    rw [← hc, htask, hg.task_eq]

/-! ## The existing task that the step names -/

/-- What a step can do to an existing task that it names. -/
inductive OnTask (s s' : State) (out : List Transfer) (T : Pubkey) (t : EscrowTask) : Label → Prop
  | ended {l : Label} {P : Pubkey} {cfg : EscrowConfig} {tasks' : Store Pubkey EscrowTask}
      (ground : EndGround s t T l tasks') (effect : Ended s s' out T P cfg t tasks') :
      OnTask s s' out T t l
  | enrolled {now : I64} {a : Enroll} {claimId : BitVec 128} (task : a.task = T)
      (effect : Enrolled s s' out now a claimId t) :
      OnTask s s' out T t (.instr now (.enroll a claimId))
  | advanced {l : Label} {c : Pubkey} {r r' : EscrowClaim} (task : r.task = T)
      (claim : l.claim? = some c) (ground : AdvanceGround t r l r')
      (effect : Advanced s s' out c r r') : OnTask s s' out T t l
  | paid {l : Label} {c : Pubkey} {cfg : EscrowConfig} {r : EscrowClaim} {outcome : ClaimStatus}
      (task : r.task = T) (claim : l.claim? = some c) (ground : PayGround cfg t r l outcome)
      (effect : Paid s s' out c cfg t r outcome) : OnTask s s' out T t l
  | refunded {l : Label} {c P : Pubkey} {cfg : EscrowConfig} {r r' : EscrowClaim}
      (task : r.task = T) (claim : l.claim? = some c) (ground : RefundGround cfg t r l r')
      (effect : Refunded s s' out c P cfg t r r') : OnTask s s' out T t l

theorem Move.on_task (h : Move s s' out l) {T : Pubkey} {t : EscrowTask}
    (hl : l.task? = some T) (ht : s.tasks.get T = some t) : OnTask s s' out T t l := by
  cases h with
  | configCreated | withdrawn | outside => cases hl
  | reconfigured _ htask =>
    rw [htask] at hl
    cases hl
  | funded he =>
    cases hl
    rw [he.fresh] at ht
    cases ht
  | ended htask _ hg he =>
    cases htask.symm.trans hl
    cases he.task.symm.trans ht
    exact .ended hg he
  | enrolled he =>
    cases hl
    cases he.task.symm.trans ht
    exact .enrolled rfl he
  | advanced htask hclaim hfound hg he =>
    cases htask.symm.trans hl
    cases hfound.symm.trans ht
    exact .advanced rfl hclaim hg he
  | paid htask hclaim hg he =>
    cases htask.symm.trans hl
    cases he.task.symm.trans ht
    exact .paid rfl hclaim hg he
  | refunded htask hclaim hg he =>
    cases htask.symm.trans hl
    cases he.task.symm.trans ht
    exact .refunded rfl hclaim hg he

/-- Only its funding names a task that is not there. -/
theorem Move.funded_of_none (h : Move s s' out l) {T : Pubkey} (hl : l.task? = some T)
    (ht : s.tasks.get T = none) :
    ∃ now a taskId bounty maxSlots claimDeadlineSecs taskDeadlineTs cfg,
      l = .instr now (.initializeTask a taskId bounty maxSlots claimDeadlineSecs taskDeadlineTs) ∧
        a.task = T ∧ Funded s s' out a cfg
          (a.record taskId bounty maxSlots claimDeadlineSecs taskDeadlineTs) := by
  have found {U : Pubkey} {u : EscrowTask} (hU : l.task? = some U)
      (hu : s.tasks.get U = some u) : False := by
    cases hU.symm.trans hl
    rw [ht] at hu
    cases hu
  cases h with
  | configCreated | withdrawn | outside => cases hl
  | reconfigured _ htask =>
    rw [htask] at hl
    cases hl
  | funded he => exact ⟨_, _, _, _, _, _, _, _, rfl, Option.some.inj hl, he⟩
  | ended htask _ _ he => exact (found htask he.task).elim
  | enrolled he => exact (found rfl he.task).elim
  | advanced htask _ hfound _ _ => exact (found htask hfound).elim
  | paid htask _ _ he => exact (found htask he.task).elim
  | refunded htask _ _ he => exact (found htask he.task).elim

/-- The terms of a task are never rewritten. -/
structure EscrowTask.SameTerms (t t' : EscrowTask) : Prop where
  taskId : t'.taskId = t.taskId
  poster : t'.poster = t.poster
  bounty : t'.bounty = t.bounty
  maxSlots : t'.maxSlots = t.maxSlots
  taskDeadlineTs : t'.taskDeadlineTs = t.taskDeadlineTs
  claimDeadlineSecs : t'.claimDeadlineSecs = t.claimDeadlineSecs

theorem Move.terms (h : Move s s' out l) {T : Pubkey} {t t' : EscrowTask}
    (ht : s.tasks.get T = some t) (ht' : s'.tasks.get T = some t') : t.SameTerms t' := by
  have kept (hsame : s'.tasks.get T = some t) : t.SameTerms t' := by
    cases hsame.symm.trans ht'
    exact ⟨rfl, rfl, rfl, rfl, rfl, rfl⟩
  have wrote {u : EscrowTask} (hu : s'.tasks = s.tasks.set T u) (hterms : t.SameTerms u) :
      t.SameTerms t' := by
    rw [hu, Store.get_set_self, Option.some.injEq] at ht'
    exact ht' ▸ hterms
  by_cases hl : l.task? = some T
  swap
  · exact kept ((h.task_frame hl).trans ht)
  cases h.on_task hl ht with
  | ended hg he =>
    cases hg with
    | cancel =>
      rw [he.tasks'] at ht'
      simp at ht'
    | close | autoCancel => exact wrote he.tasks' ⟨rfl, rfl, rfl, rfl, rfl, rfl⟩
  | enrolled htask he =>
    subst htask
    exact wrote he.tasks' ⟨rfl, rfl, rfl, rfl, rfl, rfl⟩
  | advanced _ _ _ he => exact kept (by rw [he.post, ht])
  | paid htask _ _ he =>
    subst htask
    exact wrote he.tasks' ⟨rfl, rfl, rfl, rfl, rfl, rfl⟩
  | refunded htask _ _ he =>
    subst htask
    exact wrote he.tasks' ⟨rfl, rfl, rfl, rfl, rfl, rfl⟩

/-- A later record of the same task: the same terms, no counter has gone down. -/
structure EscrowTask.Continues (t t' : EscrowTask) : Prop extends t.SameTerms t' where
  enrolled : t.slotsEnrolled ≤ t'.slotsEnrolled
  approved : t.slotsApproved ≤ t'.slotsApproved
  refunded : t.slotsRefunded ≤ t'.slotsRefunded

theorem EscrowTask.Continues.refl (t : EscrowTask) : t.Continues t :=
  ⟨⟨rfl, rfl, rfl, rfl, rfl, rfl⟩, le_rfl, le_rfl, le_rfl⟩

theorem EndGround.ends_eq {t : EscrowTask} {T : Pubkey} {tasks' : Store Pubkey EscrowTask}
    (hg : EndGround s t T l tasks') : l.ends? = l.task? := by
  cases hg <;> rfl

/-- A step winds a task up, or it keeps its status and lowers none of its counters. -/
theorem Move.wound_or_kept (h : Move s s' out l) {T : Pubkey} {t : EscrowTask}
    (ht : s.tasks.get T = some t) :
    (∃ P cfg tasks', l.task? = some T ∧ EndGround s t T l tasks' ∧
      Ended s s' out T P cfg t tasks') ∨
    ∃ t', s'.tasks.get T = some t' ∧ t'.taskStatus = t.taskStatus ∧ t.Continues t' := by
  by_cases hl : l.task? = some T
  swap
  · exact .inr ⟨t, (h.task_frame hl).trans ht, rfl, .refl t⟩
  cases h.on_task hl ht with
  | ended hg he => exact .inl ⟨_, _, _, hl, hg, he⟩
  | enrolled htask he =>
    subst htask
    have ht' := Store.get_of_eq_set he.tasks'
    exact .inr ⟨_, ht', rfl, h.terms ht ht', Nat.le_succ _, le_rfl, le_rfl⟩
  | advanced _ _ _ he => exact .inr ⟨t, by rw [he.post, ht], rfl, .refl t⟩
  | paid htask _ _ he =>
    subst htask
    have ht' := Store.get_of_eq_set he.tasks'
    exact .inr ⟨_, ht', rfl, h.terms ht ht', le_rfl, Nat.le_succ _, le_rfl⟩
  | refunded htask _ _ he =>
    subst htask
    have ht' := Store.get_of_eq_set he.tasks'
    exact .inr ⟨_, ht', rfl, h.terms ht ht', le_rfl, le_rfl, Nat.le_succ _⟩

/-- A step that does not name a task keeps the set of its claims. -/
theorem Move.claims_of_task_frame (h : Move s s' out l) {T c : Pubkey} {r : EscrowClaim}
    (hne : l.task? ≠ some T) (hT : r.task = T) :
    s'.claims.get c = some r ↔ s.claims.get c = some r := by
  by_cases hl : l.claim? = some c
  · constructor
    · intro hc
      exact absurd (hT ▸ (h.touch hl).claim_task_post hc) hne
    · intro hc
      exact absurd (hT ▸ (h.touch hl).claim_task hc) hne
  · rw [h.claim_frame hl]

end Accounts
end ClustlyEscrow
