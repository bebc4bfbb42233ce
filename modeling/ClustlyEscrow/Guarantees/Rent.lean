import ClustlyEscrow.Effects.Spaces
import ClustlyEscrow.Guarantees.Parallel

/-!
# Where the rent goes

Lamports leave an account only when it pays as a signer or when it is closed.
From this follow three facts about every run: each account keeps the reserve of
its size, the rent of a record that is never closed is out of everybody's reach,
and nobody pays more than the reserves of the accounts it has created.
-/
namespace ClustlyEscrow
open Foundations

/-! ## One rent operation -/

/-- Lamports are taken from `k`: it pays as a signer for another account, or it
is closed. -/
inductive RentOp.Drains (s : State) (k : Pubkey) : RentOp → Prop
  | pays {account : Pubkey} {n : ℕ} (other : k ≠ account) (signs : k.canSign = true)
      (plain : s.Plain k) : Drains s k (.create k account n)
  | closed {receiver : Pubkey} : Drains s k (.close k receiver)

/-- Every account holds the reserve of its size. -/
def RentExempt (rent : Rent) (space : Pubkey → Option ℕ) (lamports : Coins Pubkey) : Prop :=
  ∀ k n, space k = some n → rent.minimumBalance n ≤ lamports k

section Operations
variable {rent : Rent} {s : State} {l l' : Coins Pubkey} {op : RentOp} {ops : List RentOp}
  {space : Pubkey → Option ℕ} {k : Pubkey}

theorem RentOp.drains_of_lt (h : op.process rent s l = .ok l') (hlt : l' k < l k) :
    op.Drains s k := by
  cases op with
  | create payer account n =>
    rcases create_eq_ok.mp h with ⟨_, rfl⟩ | ⟨_, hne, hpay⟩
    · exact absurd hlt (lt_irrefl _)
    · obtain ⟨⟨hsign, hplain, _⟩, rfl⟩ := systemTransfer_eq_ok.mp hpay
      by_cases hk : k = payer
      · subst hk
        exact .pays hne hsign hplain
      · exact absurd hlt (not_lt.mpr (Coins.le_move hk))
  | close account receiver =>
    obtain ⟨_, rfl⟩ := close_eq_ok.mp h
    by_cases hk : k = account
    · exact hk ▸ .closed
    · exact absurd hlt (not_lt.mpr (Coins.le_move hk))

theorem runRentOps_drains (h : runRentOps rent s l ops = .ok l') (hlt : l' k < l k) :
    ∃ op ∈ ops, op.Drains s k := by
  induction ops generalizing l with
  | nil =>
    rw [runRentOps_nil] at h
    exact absurd hlt (h ▸ lt_irrefl _)
  | cons op ops ih =>
    obtain ⟨mid, hop, hrest⟩ := runRentOps_cons.mp h
    by_cases hmid : mid k < l k
    · exact ⟨op, List.mem_cons_self, op.drains_of_lt hop hmid⟩
    · obtain ⟨o, ho, hdrains⟩ := ih hrest (hlt.trans_le (not_lt.mp hmid))
      exact ⟨o, List.mem_cons_of_mem _ ho, hdrains⟩

/-- A payer that has no data loses no reserve, and what is created gets its own. -/
theorem RentExempt.process (hres : RentExempt rent space l)
    (hfree : ∀ k, k.canSign = true → s.Plain k → space k = none)
    (h : op.process rent s l = .ok l') : RentExempt rent (op.resize space) l' := by
  intro k n hk
  cases op with
  | create payer account size =>
    simp only [RentOp.resize, Function.update_apply] at hk
    rcases create_eq_ok.mp h with ⟨hle, rfl⟩ | ⟨hlt, hne, hpay⟩
    · split_ifs at hk with hka
      · cases hk
        exact hka ▸ hle
      · exact hres k n hk
    · obtain ⟨⟨hsign, hplain, _⟩, rfl⟩ := systemTransfer_eq_ok.mp hpay
      split_ifs at hk with hka
      · cases hk
        rw [hka, Coins.move_dest hne]
        omega
      · have hkp : k ≠ payer := by
          rintro rfl
          rw [hfree k hsign hplain] at hk
          cases hk
        exact (hres k n hk).trans (Coins.le_move hkp)
  | close account receiver =>
    obtain ⟨_, rfl⟩ := close_eq_ok.mp h
    simp only [RentOp.resize, Function.update_apply] at hk
    split_ifs at hk with hka
    exact (hres k n hk).trans (Coins.le_move hka)

/-- The account that is created or closed. -/
def RentOp.account : RentOp → Pubkey
  | .create _ account _ => account
  | .close account _ => account

theorem RentExempt.run (hres : RentExempt rent space l)
    (hfree : ∀ k, k.canSign = true → s.Plain k → space k = none)
    (hops : ∀ op ∈ ops, op.account.canSign = false) (h : runRentOps rent s l ops = .ok l') :
    RentExempt rent (ops.foldl RentOp.resize space) l' := by
  induction ops generalizing space l with
  | nil =>
    rw [runRentOps_nil] at h
    exact h ▸ hres
  | cons op ops ih =>
    obtain ⟨mid, hop, hrest⟩ := runRentOps_cons.mp h
    have hderived := hops op List.mem_cons_self
    refine ih (hres.process hfree hop) (fun k hsign hplain => ?_)
      (fun o ho => hops o (List.mem_cons_of_mem _ ho)) hrest
    have hne := ne_of_canSign hsign hderived
    cases op with
    | create | close => exact (Function.update_of_ne hne _ _).trans (hfree k hsign hplain)

end Operations

/-! ## Steps of the chain -/

def ChainLabel.label? : ChainLabel → Option Label
  | .instr now ix => some (.instr now ix)
  | .token op _ => some (.token op)
  | .send _ _ _ | .fee _ _ => none

def ChainLabel.rentOps (s : State) : ChainLabel → List RentOp
  | .instr _ ix => ix.rentOps s
  | .token op party => op.rentOps party
  | .send _ _ _ | .fee _ _ => []

/-- Who gives lamports away outside of any creation, and how many. -/
def ChainLabel.spends? : ChainLabel → Option (Pubkey × ℕ)
  | .send source _ amount => some (source, amount)
  | .fee payer amount => some (payer, amount)
  | _ => none

section Chains
variable {rent : Rent} {c c' c₀ : Chain} {l : ChainLabel} {out : List Transfer}
  {h h' : ChainHistory} {k : Pubkey}

/-- A step is one of the program or of the token programs, with its rent, or
lamports of a signer without data go elsewhere. -/
inductive ChainStep (rent : Rent) (c c' : Chain) (out : List Transfer) (l : ChainLabel) : Prop
  | program {l₀ : Label} (label : l.label? = some l₀)
      (step : Accepts exec c.state l₀ out c'.state)
      (paid : runRentOps rent c.state c.lamports (l.rentOps c.state) = .ok c'.lamports)
  | spent {source : Pubkey} {amount : ℕ} (label : l.label? = none)
      (spends : l.spends? = some (source, amount)) (signs : source.canSign = true)
      (plain : c.state.Plain source) (state : c'.state = c.state)
      (kept : ∀ k ≠ source, c.lamports k ≤ c'.lamports k)
      (cost : c.lamports source ≤ c'.lamports source + amount)

theorem chainStep (hstep : Accepts (Chain.exec rent) c l out c') :
    ChainStep rent c c' out l := by
  cases l with
  | instr now ix =>
    obtain ⟨hix, hrent⟩ := processChain_eq_ok.mp hstep
    exact .program rfl hix hrent
  | token op party =>
    simp only [Accepts, Chain.exec, seq_eq_ok, Chain.lift_eq_ok, return_eq_ok,
      Prod.mk.injEq] at hstep
    obtain ⟨tokens, hop, lamports, hrent, rfl, rfl⟩ := hstep
    refine .program rfl ?_ hrent
    simp only [Accepts, exec, seq_eq_ok, return_eq_ok]
    exact ⟨tokens, hop, rfl⟩
  | send source dest amount =>
    simp only [Accepts, Chain.exec, seq_eq_ok, systemTransfer_eq_ok, return_eq_ok,
      Prod.mk.injEq] at hstep
    obtain ⟨lamports, ⟨⟨hsign, hplain, _⟩, rfl⟩, rfl, rfl⟩ := hstep
    exact .spent rfl rfl hsign hplain rfl (fun _ hk => Coins.le_move hk) (Coins.le_move_add _)
  | fee payer amount =>
    simp only [Accepts, Chain.exec, seq_eq_ok, payable_eq_ok, return_eq_ok,
      Prod.mk.injEq] at hstep
    obtain ⟨_, ⟨hsign, hplain, _⟩, rfl, rfl⟩ := hstep
    exact .spent rfl rfl hsign hplain rfl (fun _ hk => (Coins.burn_of_ne hk).ge)
      (Coins.le_burn_add _)

/-- The steps of the program and its tokens, without those that only pay. -/
def ChainEvent.event? (e : ChainEvent) : Option EscrowEvent :=
  e.label.label?.map fun l => ⟨l, e.pre.state, e.post.state, e.output⟩

/-- The states of a chain are those of a run of the program. -/
theorem ChainRuns.states (hr : ChainRuns rent c₀ h c) :
    Runs c₀.state (h.filterMap ChainEvent.event?) c.state := by
  refine Run.history_invariant
    (I := fun h c => Runs c₀.state (h.filterMap ChainEvent.event?) c.state) .start ?_ hr
  intro h c l out c' _ hold hstep
  cases chainStep hstep with
  | program label step _ =>
    simp only [List.filterMap_cons, ChainEvent.event?, label, Option.map_some]
    exact hold.next step
  | spent label _ _ _ state _ _ =>
    simp only [List.filterMap_cons, ChainEvent.event?, label, Option.map_none]
    rw [state]
    exact hold

theorem ChainReaches.reaches (hr : ChainReaches rent h c) :
    Reaches (h.filterMap ChainEvent.event?) c.state := by
  obtain ⟨lamports, hrun⟩ := hr
  exact ChainRuns.states hrun

/-- An account of a key without data has no size. -/
theorem space_of_plain {s : State} (hsign : k.canSign = true) (hplain : s.Plain k) :
    s.space k = none := by
  cases k with
  | key n => simp [State.space, tokenSpace, hplain.1, hplain.2]
  | _ => cases hsign

/-- An instruction creates and closes at derived addresses only. -/
theorem rentOps_derived {s s' : State} (hs : Sound s) {now : I64} {ix : Instruction}
    (hix : ix.process s now = .ok (s', out)) :
    ∀ op ∈ ix.rentOps s, op.account.canSign = false := by
  cases ix with
  | initializeConfig a admin feeBps =>
    obtain ⟨_, hkey, hvault, _⟩ := initializeConfig_eq_ok.mp hix
    simp [Instruction.rentOps, RentOp.account, hkey, hvault, Pubkey.canSign]
  | initializeTask a taskId bounty maxSlots claimDeadlineSecs taskDeadlineTs =>
    obtain ⟨cfg, he⟩ := initializeTask_eq_ok.mp hix
    simp [Instruction.rentOps, RentOp.account, he.task_key, he.vault_key, Pubkey.canSign]
  | cancelBeforeEnroll a =>
    obtain ⟨cfg, t, hl, _, _⟩ := (cancelBeforeEnroll_eq_ok hs).mp hix
    simp [Instruction.rentOps, RentOp.account, hl.task_key, hl.vault_key, Pubkey.canSign]
  | closeTask a =>
    obtain ⟨cfg, t, hl, _, _, _⟩ := (closeTask_eq_ok hs).mp hix
    simp [Instruction.rentOps, RentOp.account, hl.vault_key, Pubkey.canSign]
  | autoCancelTask a =>
    obtain ⟨cfg, t, hl, _, _, _⟩ := (autoCancelTask_eq_ok hs).mp hix
    simp [Instruction.rentOps, RentOp.account, hl.vault_key, Pubkey.canSign]
  | enroll a claimId =>
    obtain ⟨t, he⟩ := enroll_eq_ok.mp hix
    simp only [Instruction.rentOps]
    split_ifs
    all_goals simp [RentOp.account, he.claim_key, he.ata_key, Pubkey.canSign]
  | _ => simp [Instruction.rentOps]

theorem ChainStep.exempt (hr : ChainReaches rent h c) (hstep : ChainStep rent c c' out l)
    (hres : RentExempt rent c.state.space c.lamports) :
    RentExempt rent c'.state.space c'.lamports := by
  have hfree (k : Pubkey) : k.canSign = true → c.state.Plain k → c.state.space k = none :=
    space_of_plain
  cases hstep with
  | program label step paid =>
    cases l with
    | instr now ix =>
      cases label
      rw [space_of_process hr.reaches.sound step]
      exact hres.run hfree (rentOps_derived hr.reaches.sound step) paid
    | token op party =>
      cases label
      rw [space_of_token hr.reaches.placed party step]
      simp only [ChainLabel.rentOps] at paid
      cases op with
      | createMint | createAccount | createAta | closeAccount =>
        obtain ⟨mid, hop, hnil⟩ := runRentOps_cons.mp paid
        rw [runRentOps_nil] at hnil
        exact hnil ▸ hres.process hfree hop
      | transfer | mintTo | setOwner =>
        simp only [TokenOp.rentOps, runRentOps_nil] at paid
        exact paid ▸ hres
    | send | fee => cases label
  | @spent source _ label _ signs plain state kept _ =>
    rw [state]
    intro k n hk
    have hne : k ≠ source := by
      rintro rfl
      rw [hfree k signs plain] at hk
      cases hk
    exact (hres k n hk).trans (kept k hne)

theorem ChainReaches.invariant {I : Chain → Prop}
    (h0 : ∀ lamports, I ⟨.genesis, lamports⟩)
    (hs : ∀ h c l out c', ChainReaches rent h c → I c → ChainStep rent c c' out l → I c')
    (hr : ChainReaches rent h c) : I c := by
  obtain ⟨lamports, hrun⟩ := hr
  refine Run.history_invariant (I := fun _ c => I c) (h0 lamports) ?_ hrun
  exact fun h c l out c' hrun hI hstep => hs h c l out c' ⟨lamports, hrun⟩ hI (chainStep hstep)

theorem ChainReaches.exempt (hr : ChainReaches rent h c) :
    RentExempt rent c.state.space c.lamports := by
  refine ChainReaches.invariant (I := fun c => RentExempt rent c.state.space c.lamports) ?_
    (fun _ _ _ _ _ hr hres hstep => hstep.exempt hr hres) hr
  intro lamports k n hk
  cases k with
  | _ => simp [State.space, State.genesis, tokenSpace] at hk

/-- In every reachable chain each account holds at least the reserve of its size. -/
theorem rent_exempt (hr : ChainReaches rent h c) :
    ∀ k n, c.state.space k = some n → rent.minimumBalance n ≤ c.lamports k :=
  hr.exempt

/-! ## Rent that nobody gets back -/

/-- The records that no instruction removes any more. -/
inductive Lasting (s : State) : Pubkey → Prop
  | config : Lasting s .configPda
  | claim (n : BitVec 128) : Lasting s (.claimPda n)
  | used {T : Pubkey} {t : EscrowTask} (task : s.tasks.get T = some t)
      (used : 0 < t.slotsEnrolled ∨ t.taskStatus = .closed) : Lasting s T

theorem Lasting.isRecord {s : State} (hs : Sound s) (hk : Lasting s k) :
    k.canSign = false ∧ ¬ k.OfTokens := by
  cases hk with
  | config | claim => exact ⟨rfl, id⟩
  | used task _ =>
    rw [(hs.task _ _ task).key]
    exact ⟨rfl, id⟩

theorem Lasting.step {s s' : State} {l : Label} (hmove : Move s s' out l)
    (hk : Lasting s k) : Lasting s' k := by
  cases hk with
  | config => exact .config
  | claim n => exact .claim n
  | used task hused =>
    rcases hmove.wound_or_kept task with ⟨_, _, _, _, hg, he⟩ | ⟨t', ht', hst, hcont⟩
    · cases hg with
      | cancel _ unused =>
        rcases hused with hpos | hclosed
        · omega
        · rw [he.opened] at hclosed
          cases hclosed
      | close | autoCancel => exact .used (Store.get_of_eq_set he.tasks') (.inr rfl)
    · refine .used ht' ?_
      rcases hused with hpos | hclosed
      · exact .inl (hpos.trans_le hcont.enrolled)
      · exact .inr (hst.trans hclosed)

/-- What an instruction closes is a vault, or the record of a task nobody enrolled in. -/
theorem closed_of_process {s s' : State} (hs : Sound s) {now : I64} {ix : Instruction}
    (hix : ix.process s now = .ok (s', out)) {receiver : Pubkey}
    (hclose : .close k receiver ∈ ix.rentOps s) :
    k.OfTokens ∨ ∃ t, s.tasks.get k = some t ∧ t.slotsEnrolled = 0 ∧ t.taskStatus = .opened := by
  cases ix with
  | cancelBeforeEnroll a =>
    obtain ⟨cfg, t, hl, hnone, he⟩ := (cancelBeforeEnroll_eq_ok hs).mp hix
    simp only [Instruction.rentOps, List.mem_cons, RentOp.close.injEq, List.not_mem_nil,
      or_false] at hclose
    rcases hclose with ⟨rfl, _⟩ | ⟨rfl, _⟩
    · rw [hl.vault_key]
      exact .inl (Pubkey.ofTokens_ata _ _)
    · exact .inr ⟨t, he.task, hnone, he.opened⟩
  | closeTask a =>
    obtain ⟨cfg, t, hl, _⟩ := (closeTask_eq_ok hs).mp hix
    simp only [Instruction.rentOps, List.mem_singleton, RentOp.close.injEq] at hclose
    rw [hclose.1, hl.vault_key]
    exact .inl (Pubkey.ofTokens_ata _ _)
  | autoCancelTask a =>
    obtain ⟨cfg, t, hl, _⟩ := (autoCancelTask_eq_ok hs).mp hix
    simp only [Instruction.rentOps, List.mem_singleton, RentOp.close.injEq] at hclose
    rw [hclose.1, hl.vault_key]
    exact .inl (Pubkey.ofTokens_ata _ _)
  | enroll a claimId =>
    simp only [Instruction.rentOps] at hclose
    split_ifs at hclose
    all_goals simp at hclose
  | _ => simp [Instruction.rentOps] at hclose

theorem closed_of_token {s s' : State} (hb : Placed s.tokens) {op : TokenOp} {party : Pubkey}
    (hop : Accepts exec s (.token op) out s') {receiver : Pubkey}
    (hclose : .close k receiver ∈ op.rentOps party) : k.OfTokens := by
  obtain ⟨hcall, _⟩ := calls_of_exec hop
  cases hcall with
  | closeAccount _ call =>
    obtain ⟨⟨m, hheld⟩, _⟩ := Bank.closeAccount_eq_ok.mp call
    simp only [TokenOp.rentOps, List.mem_singleton, RentOp.close.injEq] at hclose
    exact hclose.1 ▸ hb.address _ _ hheld
  | _ => simp [TokenOp.rentOps] at hclose

theorem Lasting.lamports_step (hr : ChainReaches rent h c) (hstep : ChainStep rent c c' out l)
    (hk : Lasting c.state k) : Lasting c'.state k ∧ c.lamports k ≤ c'.lamports k := by
  have hs := hr.reaches.sound
  obtain ⟨hsign, hrecord⟩ := hk.isRecord hs
  cases hstep with
  | program label step paid =>
    refine ⟨hk.step (hr.reaches.move step), not_lt.mp fun hlt => ?_⟩
    obtain ⟨op, hop, hdrains⟩ := runRentOps_drains paid hlt
    cases hdrains with
    | pays _ signs _ =>
      rw [hsign] at signs
      cases signs
    | closed =>
      cases l with
      | instr now ix =>
        cases label
        rcases closed_of_process hs step hop with htoken | ⟨t, ht, hnone, hopen⟩
        · exact hrecord htoken
        · cases hk with
          | config => exact absurd rfl (hs.task _ _ ht).ne_config
          | claim n => cases (hs.task _ _ ht).key
          | used task hused =>
            cases task.symm.trans ht
            rcases hused with hpos | hclosed
            · omega
            · rw [hopen] at hclosed
              cases hclosed
      | token op party =>
        cases label
        exact hrecord (closed_of_token hr.reaches.placed step hop)
      | send | fee => cases label
  | spent _ _ signs _ state kept _ =>
    rw [state]
    exact ⟨hk, kept k (ne_of_canSign signs hsign).symm⟩

theorem Lasting.lamports_run (hr : ChainReaches rent h c) (hrun : ChainRuns rent c h' c')
    (hk : Lasting c.state k) : Lasting c'.state k ∧ c.lamports k ≤ c'.lamports k := by
  refine (hrun.history_invariant (I := fun h' c' => ChainReaches rent (h' ++ h) c' ∧
    Lasting c'.state k ∧ c.lamports k ≤ c'.lamports k) ⟨hr, hk, le_rfl⟩ ?_).2
  intro h₁ c₁ l out c₂ _ ⟨hr₁, hk₁, hle⟩ hstep
  obtain ⟨hk₂, hle₂⟩ := hk₁.lamports_step hr₁ (chainStep hstep)
  exact ⟨hr₁.trans (.single hstep), hk₂, hle.trans hle₂⟩

/-- The lamports of the config, of every claim, and of every task that has had an
enrolment or is closed never go down again, so at least the reserve of each such
task stays in its account whatever the rest of the run is. -/
theorem rent_locked (hr : ChainReaches rent h c) (hrun : ChainRuns rent c h' c') :
    c.lamports .configPda ≤ c'.lamports .configPda ∧
      (∀ n, c.lamports (.claimPda n) ≤ c'.lamports (.claimPda n)) ∧
      ∀ T t, c.state.tasks.get T = some t → (0 < t.slotsEnrolled ∨ t.taskStatus = .closed) →
        rent.minimumBalance (discriminatorSize + EscrowTask.size) ≤ c.lamports T ∧
          c.lamports T ≤ c'.lamports T := by
  refine ⟨(Lasting.config.lamports_run hr hrun).2, fun n => (Lasting.lamports_run hr hrun
    (.claim n)).2, fun T t ht hused => ⟨?_, (Lasting.lamports_run hr hrun (.used ht hused)).2⟩⟩
  apply hr.exempt
  have hkey := (hr.reaches.sound.task T t ht).key
  subst hkey
  simp [State.space, ht]

/-! ## Who pays -/

/-- The most that an operation takes from a payer. -/
def RentOp.bill (rent : Rent) (p : Pubkey) : RentOp → ℕ
  | .create payer _ n => if payer = p then rent.minimumBalance n else 0
  | .close _ _ => 0

/-- The reserves of the accounts that an instruction creates for its signer; an
enrolment creates the token account only where it is missing. -/
def Instruction.deposit (rent : Rent) (s : State) : Instruction → ℕ
  | .initializeConfig _ _ _ =>
    rent.minimumBalance (discriminatorSize + EscrowConfig.size) +
      rent.minimumBalance tokenAccountSize
  | .initializeTask _ _ _ _ _ _ =>
    rent.minimumBalance (discriminatorSize + EscrowTask.size) +
      rent.minimumBalance tokenAccountSize
  | .enroll a _ =>
    rent.minimumBalance (discriminatorSize + EscrowClaim.size) +
      if s.tokens.holder a.claimerAta = none then rent.minimumBalance tokenAccountSize else 0
  | _ => 0

/-- The same for what others do with the token programs. -/
def TokenOp.deposit (rent : Rent) : TokenOp → ℕ
  | .createMint _ => rent.minimumBalance mintSize
  | .createAccount _ _ _ | .createAta _ _ => rent.minimumBalance tokenAccountSize
  | _ => 0

/-- The bill of an address for one step, from the state before it. -/
def ChainLabel.bill (rent : Rent) (p : Pubkey) (s : State) : ChainLabel → ℕ
  | .instr _ ix => if ix.signedBy = p then ix.deposit rent s else 0
  | .token op party => if party = p then op.deposit rent else 0
  | .send source _ amount => if source = p then amount else 0
  | .fee payer amount => if payer = p then amount else 0

theorem RentOp.bill_covers {s : State} {m m' : Coins Pubkey} {op : RentOp}
    (hop : op.process rent s m = .ok m') (hk : ∀ receiver, op ≠ .close k receiver) :
    m k ≤ m' k + op.bill rent k := by
  cases op with
  | create payer account n =>
    rcases create_eq_ok.mp hop with ⟨_, rfl⟩ | ⟨hlt, hne, hpay⟩
    · exact Nat.le_add_right _ _
    · obtain ⟨_, rfl⟩ := systemTransfer_eq_ok.mp hpay
      by_cases hp : payer = k
      · subst hp
        rw [Coins.move_source hne, RentOp.bill, if_pos rfl]
        omega
      · exact (Coins.le_move (Ne.symm hp)).trans (Nat.le_add_right _ _)
  | close account receiver =>
    obtain ⟨_, rfl⟩ := close_eq_ok.mp hop
    apply Coins.le_move
    rintro rfl
    exact hk receiver rfl

theorem runRentOps_bill {s : State} {m m' : Coins Pubkey} {ops : List RentOp}
    (hops : runRentOps rent s m ops = .ok m') (hk : ∀ op ∈ ops, ∀ receiver,
    op ≠ .close k receiver) : m k ≤ m' k + (ops.map (RentOp.bill rent k)).sum := by
  induction ops generalizing m with
  | nil =>
    rw [runRentOps_nil] at hops
    exact hops ▸ Nat.le_add_right _ _
  | cons op ops ih =>
    obtain ⟨mid, hop, hrest⟩ := runRentOps_cons.mp hops
    have hfirst := op.bill_covers hop (hk op List.mem_cons_self)
    have hlater := ih hrest fun o ho => hk o (List.mem_cons_of_mem _ ho)
    rw [List.map_cons, List.sum_cons]
    omega

/-- The bill is for the creations of the instruction and for nothing else. -/
theorem rentOps_bill (ix : Instruction) (s : State) (p : Pubkey) :
    ((ix.rentOps s).map (RentOp.bill rent p)).sum =
      if ix.signedBy = p then ix.deposit rent s else 0 := by
  cases ix with
  | enroll a claimId =>
    simp only [Instruction.rentOps, Instruction.signedBy, Instruction.deposit]
    split_ifs with hata hp
    all_goals simp_all [RentOp.bill]
  | _ =>
    simp only [Instruction.rentOps, Instruction.signedBy, Instruction.deposit]
    split_ifs
    all_goals simp_all [RentOp.bill]

theorem tokenOps_bill (op : TokenOp) (party p : Pubkey) :
    ((op.rentOps party).map (RentOp.bill rent p)).sum =
      if party = p then op.deposit rent else 0 := by
  cases op with
  | _ => simp [TokenOp.rentOps, TokenOp.deposit, RentOp.bill]

/-- Only a token account can be closed. -/
theorem not_close_of_plain {s s' : State} (hplain : s.Plain k) {op : TokenOp} {party : Pubkey}
    (hop : Accepts exec s (.token op) out s') (receiver : Pubkey) :
    .close k receiver ∉ op.rentOps party := by
  intro hclose
  cases (calls_of_exec hop).1 with
  | closeAccount _ call =>
    obtain ⟨⟨m, hheld⟩, _⟩ := Bank.closeAccount_eq_ok.mp call
    simp only [TokenOp.rentOps, List.mem_singleton, RentOp.close.injEq] at hclose
    rw [← hclose.1, hplain.1] at hheld
    cases hheld
  | _ => simp [TokenOp.rentOps] at hclose

theorem ChainStep.bill (hr : ChainReaches rent h c) (hstep : ChainStep rent c c' out l)
    (hsign : k.canSign = true) (hplain : c.state.Plain k) :
    c.lamports k ≤ c'.lamports k + l.bill rent k c.state := by
  cases hstep with
  | program label step paid =>
    cases l with
    | instr now ix =>
      cases label
      have hopen : ∀ op ∈ ix.rentOps c.state, ∀ receiver, op ≠ .close k receiver := by
        rintro op hop receiver rfl
        have hderived := rentOps_derived hr.reaches.sound step _ hop
        exact ne_of_canSign hsign hderived rfl
      have hpaid := runRentOps_bill paid hopen
      rw [ChainLabel.rentOps, rentOps_bill] at hpaid
      exact hpaid
    | token op party =>
      cases label
      have hopen : ∀ o ∈ op.rentOps party, ∀ receiver, o ≠ .close k receiver := by
        rintro o ho receiver rfl
        exact not_close_of_plain hplain step receiver ho
      have hpaid := runRentOps_bill paid hopen
      rw [ChainLabel.rentOps, tokenOps_bill] at hpaid
      exact hpaid
    | send | fee => cases label
  | @spent source amount label spends signs _ state kept cost =>
    by_cases hk : k = source
    · subst hk
      refine cost.trans (Nat.add_le_add_left ?_ _)
      cases l with
      | instr | token => cases spends
      | send | fee =>
        cases spends
        simp [ChainLabel.bill]
    · exact (kept k hk).trans (Nat.le_add_right _ _)

/-- A wallet pays the reserves of the accounts that its own instructions create,
a missing token account among them, and whatever it sends itself; nothing else
that anybody does takes lamports from it. In particular approving, rejecting,
ruling, the cranks and closing are free. -/
theorem rent_bill (hr : ChainReaches rent h c) (hrun : ChainRuns rent c h' c')
    (hsign : k.canSign = true) (hplain : ∀ e ∈ h', e.pre.state.Plain k) :
    c.lamports k ≤ c'.lamports k + (h'.map fun e => e.label.bill rent k e.pre.state).sum := by
  refine (hrun.history_invariant_of (P := fun e => e.pre.state.Plain k)
    (I := fun h' c' => ChainReaches rent (h' ++ h) c' ∧
      c.lamports k ≤ c'.lamports k + (h'.map fun e => e.label.bill rent k e.pre.state).sum)
    ⟨hr, le_rfl⟩ ?_ hplain).2
  intro h₁ c₁ l out c₂ _ _ hpre ⟨hr₁, hle⟩ hstep
  have hbill := (chainStep hstep).bill hr₁ hsign hpre
  refine ⟨hr₁.trans (.single hstep), ?_⟩
  change c.lamports k ≤ c₂.lamports k +
    (l.bill rent k c₁.state + (h₁.map fun e => e.label.bill rent k e.pre.state).sum)
  omega

/-! ## What the poster gets back -/

def Instruction.cancels : Instruction → Bool
  | .cancelBeforeEnroll _ => true
  | _ => false

/-- The lamports after a task has been wound up: those of the vault, and of the
record if it is removed, are with the poster. -/
structure RentReturned (m m' : Coins Pubkey) (T V p : Pubkey) (removed : Bool) : Prop where
  poster : m' p = m p + m V + if removed then m T else 0
  vault : m' V = 0
  task : m' T = if removed then 0 else m T
  others : ∀ k, k ≠ p → k ≠ V → k ≠ T → m' k = m k

theorem returned_of_close {s : State} {m m' : Coins Pubkey} {T vault p : Pubkey}
    (hvT : vault ≠ T) (hpT : p ≠ T) (hops : runRentOps rent s m [.close vault p] = .ok m') :
    RentReturned m m' T vault p false := by
  obtain ⟨mid, hop, hnil⟩ := runRentOps_cons.mp hops
  rw [runRentOps_nil] at hnil
  obtain ⟨hvp, rfl⟩ := close_eq_ok.mp hop
  subst hnil
  constructor
  · rw [Coins.move_dest hvp]
    simp
  · rw [Coins.move_source hvp]
    omega
  · exact Coins.move_of_ne hvT.symm hpT.symm
  · exact fun k hkp hkv _ => Coins.move_of_ne hkv hkp

theorem returned_of_cancel {s : State} {m m' : Coins Pubkey} {T vault p : Pubkey}
    (hvT : vault ≠ T) (hops : runRentOps rent s m [.close vault p, .close T p] = .ok m') :
    RentReturned m m' T vault p true := by
  obtain ⟨mid, hfirst, hrest⟩ := runRentOps_cons.mp hops
  obtain ⟨last, hsecond, hnil⟩ := runRentOps_cons.mp hrest
  rw [runRentOps_nil] at hnil
  obtain ⟨hvp, rfl⟩ := close_eq_ok.mp hfirst
  obtain ⟨hTp, rfl⟩ := close_eq_ok.mp hsecond
  subst hnil
  have hheld : m.move vault p (m vault) T = m T := Coins.move_of_ne hvT.symm hTp
  constructor
  · rw [Coins.move_dest hTp, Coins.move_dest hvp, hheld]
    rfl
  · rw [Coins.move_of_ne hvT hvp, Coins.move_source hvp]
    omega
  · rw [Coins.move_source hTp]
    exact Nat.sub_self _
  · intro k hkp hkv hkT
    rw [Coins.move_of_ne hkT hkp, Coins.move_of_ne hkv hkp]

/-- Whoever winds a task up, the lamports of its vault go to the poster; those of
the record go there too when the task is cancelled, and stay when it is closed. -/
theorem rent_returned (hr : ChainReaches rent h c) {now : I64} {ix : Instruction} {T : Pubkey}
    (hends : ix.ends? = some T) (hstep : Accepts (Chain.exec rent) c (.instr now ix) out c') :
    ∃ cfg t, c.state.config = some cfg ∧ c.state.tasks.get T = some t ∧
      RentReturned c.lamports c'.lamports T (.ata T cfg.usdcMint) t.poster ix.cancels := by
  have hs := hr.reaches.sound
  obtain ⟨hix, hrent⟩ := processChain_eq_ok.mp hstep
  have apart {T : Pubkey} {t : EscrowTask} (mint : Pubkey)
      (ht : c.state.tasks.get T = some t) : Pubkey.ata T mint ≠ T ∧ t.poster ≠ T := by
    have hok := hs.task T t ht
    refine ⟨?_, ne_of_canSign hok.poster hok.canSign⟩
    rw [hok.key]
    exact Pubkey.noConfusion
  cases ix with
  | cancelBeforeEnroll a =>
    cases hends
    obtain ⟨cfg, t, hl, _, he⟩ := (cancelBeforeEnroll_eq_ok hs).mp hix
    simp only [Instruction.rentOps, hl.vault_key, ← hl.poster] at hrent
    exact ⟨cfg, t, he.config, he.task, returned_of_cancel (apart _ he.task).1 hrent⟩
  | closeTask a =>
    cases hends
    obtain ⟨cfg, t, hl, _⟩ := (closeTask_eq_ok hs).mp hix
    simp only [Instruction.rentOps, hl.vault_key, hl.poster] at hrent
    have hapart := apart cfg.usdcMint hl.task
    exact ⟨cfg, t, hl.config, hl.task, returned_of_close hapart.1 hapart.2 hrent⟩
  | autoCancelTask a =>
    cases hends
    obtain ⟨cfg, t, hl, _⟩ := (autoCancelTask_eq_ok hs).mp hix
    simp only [Instruction.rentOps, hl.vault_key, hl.poster] at hrent
    have hapart := apart cfg.usdcMint hl.task
    exact ⟨cfg, t, hl.config, hl.task, returned_of_close hapart.1 hapart.2 hrent⟩
  | _ => cases hends

end Chains

namespace Scenario

/-- The chain after a script, and what further labels lead to. -/
def chainAfter (ls : List Label) : Chain := (chainPlayed (ls.map onChain)).2

def chainFrom (c : Chain) (ls : List Label) : ChainHistory × Chain :=
  attempts (Chain.exec yearlyRent) c (ls.map onChain)

theorem chainAfter_reaches (ls : List Label) :
    ChainReaches yearlyRent (chainPlayed (ls.map onChain)).1 (chainAfter ls) :=
  chainPlayed_reaches _

theorem chainFrom_runs (c : Chain) (ls : List Label) :
    ChainRuns yearlyRent c (chainFrom c ls).1 (chainFrom c ls).2 :=
  attempts_run _ _ _

/-- What is left to do after the two claims: the second one is paid, and the task closed. -/
def finish : List Label :=
  [submits (clock 1400) helper 1, approves usdc helper 1, closes (clock 6000) stranger usdc]

end Scenario

open Scenario in
theorem rent_exempt_closed : yearlyRent.minimumBalance 119 ≤ (chainAfter closedTask).lamports job :=
  rent_exempt (chainAfter_reaches closedTask) job 119 (by decide +kernel)

open Scenario in
theorem rent_locked_closed :
    (chainAfter twoClaims).lamports job ≤ (chainFrom (chainAfter twoClaims) finish).2.lamports job :=
  ((rent_locked (chainAfter_reaches twoClaims) (chainFrom_runs _ finish)).2.2 job
    ⟨0, poster, 10000, 3, 2, 1, 0, 0, 5000, 3600⟩ (by decide +kernel) (by decide)).2

open Scenario in
theorem rent_bill_poster :
    (chainAfter twoClaims).lamports poster ≤
      (chainFrom (chainAfter twoClaims) finish).2.lamports poster +
        ((chainFrom (chainAfter twoClaims) finish).1.map fun e =>
          e.label.bill yearlyRent poster e.pre.state).sum :=
  rent_bill (chainAfter_reaches twoClaims) (chainFrom_runs _ finish) rfl (by decide +kernel)

open Scenario in
theorem rent_returned_closed : ∃ out c',
    Accepts (Chain.exec yearlyRent) (chainAfter (setup ++ [fund 10000 3 (clock 5000)]))
      (onChain (closes (clock 6000) stranger usdc)) out c' ∧
    ∃ cfg t, (chainAfter (setup ++ [fund 10000 3 (clock 5000)])).state.config = some cfg ∧
      (chainAfter (setup ++ [fund 10000 3 (clock 5000)])).state.tasks.get job = some t ∧
      RentReturned (chainAfter (setup ++ [fund 10000 3 (clock 5000)])).lamports c'.lamports job
        (.ata job cfg.usdcMint) t.poster false := by
  obtain ⟨out, c', hstep, _⟩ := Accepts.of_check (Chain.exec yearlyRent)
    (chainAfter (setup ++ [fund 10000 3 (clock 5000)]))
    (onChain (closes (clock 6000) stranger usdc)) (fun _ _ => true) (by decide +kernel)
  exact ⟨out, c', hstep, rent_returned (chainAfter_reaches _) rfl hstep⟩

end ClustlyEscrow
