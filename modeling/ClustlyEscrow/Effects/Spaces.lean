import ClustlyEscrow.Invariants.Reachable
import ClustlyEscrow.Program.Rent

/-!
# The sizes of the accounts

Every step that succeeds changes the sizes of the accounts exactly as its list
of creations and closings says: what is created appears with the size that the
rent is paid for, what is closed is gone, and no other account changes its size.
-/
namespace ClustlyEscrow
open Foundations

def tokenSpace (b : Bank Pubkey) (k : Pubkey) : Option ℕ :=
  if (b.holder k).isSome then some tokenAccountSize
  else if k ∈ b.mints then some mintSize
  else none

/-- The size of the data at an address. -/
def State.space (s : State) (k : Pubkey) : Option ℕ :=
  match k with
  | .configPda => s.config.map fun _ => discriminatorSize + EscrowConfig.size
  | .taskPda _ => (s.tasks.get k).map fun _ => discriminatorSize + EscrowTask.size
  | .claimPda _ => (s.claims.get k).map fun _ => discriminatorSize + EscrowClaim.size
  | .key _ | .ata _ _ => tokenSpace s.tokens k

/-- What a creation or a closing makes of the sizes. -/
def RentOp.resize (space : Pubkey → Option ℕ) : RentOp → Pubkey → Option ℕ
  | .create _ account n => Function.update space account (some n)
  | .close account _ => Function.update space account none

/-- The addresses that are not those of records. -/
def Pubkey.OfTokens : Pubkey → Prop
  | .key _ | .ata _ _ => True
  | _ => False

theorem Pubkey.ofTokens_of_canSign {k : Pubkey} (hk : k.canSign = true) : k.OfTokens := by
  cases k with
  | key => trivial
  | _ => cases hk

theorem Pubkey.ofTokens_ata (owner mint : Pubkey) : (Pubkey.ata owner mint).OfTokens := trivial

/-! ## Where token accounts are -/

/-- Token accounts stand at keys and at associated addresses, never at a mint. -/
structure Placed (b : Bank Pubkey) : Prop where
  address : ∀ k h, b.holder k = some h → k.OfTokens
  no_mint : ∀ k h, b.holder k = some h → k ∉ b.mints

section Placement
variable {b b' : Bank Pubkey} {k owner mint : Pubkey}

theorem Placed.of_same (hb : Placed b) (hm : b'.mints = b.mints)
    (hh : ∀ k, b'.holder k = b.holder k) : Placed b' :=
  ⟨fun k h hk => hb.address k h (hh k ▸ hk), fun k h hk => hm ▸ hb.no_mint k h (hh k ▸ hk)⟩

/-- Accounts that come anew stand at a free address. -/
theorem Placed.of_updated (hb : Placed b) {holding : Option (Pubkey × Pubkey)}
    {balance : Pubkey → ℕ} (hk : ∀ h, holding = some h → k.OfTokens ∧ k ∉ b.mints)
    (hobs : b'.Observes b.mints (Function.update b.holder k holding) balance) : Placed b' := by
  have hcase : ∀ j h, b'.holder j = some h → b.holder j = some h ∨ j = k ∧ holding = some h := by
    intro j h hj
    rw [hobs.holder, Function.update_apply] at hj
    split_ifs at hj with hjk
    · exact .inr ⟨hjk, hj⟩
    · exact .inl hj
  constructor
  · intro j h hj
    rcases hcase j h hj with hold | ⟨rfl, hnew⟩
    · exact hb.address j h hold
    · exact (hk h hnew).1
  · intro j h hj
    rw [hobs.mints]
    rcases hcase j h hj with hold | ⟨rfl, hnew⟩
    · exact hb.no_mint j h hold
    · exact (hk h hnew).2

theorem Placed.of_open (hb : Placed b) (hk : k.OfTokens)
    (h : b.openAccount k owner mint = .ok b') : Placed b' := by
  obtain ⟨_, hnm, _, hobs⟩ := Bank.openAccount_eq_ok.mp h
  exact hb.of_updated (fun _ _ => ⟨hk, hnm⟩) hobs

theorem Placed.of_calls (hb : Placed b) {op : TokenOp} (h : TokenOp.Calls b b' op) :
    Placed b' := by
  cases h with
  | @createMint mint signs call =>
    have hobs := Bank.createMint_ok call
    refine ⟨fun k h hk => hb.address k h (hobs.holder k ▸ hk), fun k h hk => ?_⟩
    have hold : b.holder k = some h := hobs.holder k ▸ hk
    rw [hobs.mints, Finset.mem_insert, not_or]
    refine ⟨?_, hb.no_mint k h hold⟩
    rintro rfl
    rw [Bank.createMint_fresh call] at hold
    cases hold
  | createAccount signs call => exact hb.of_open (Pubkey.ofTokens_of_canSign signs) call
  | createAta call => exact hb.of_open (Pubkey.ofTokens_ata _ _) call
  | transfer _ call =>
    obtain ⟨_, _, _, _, _, hmoved⟩ := Bank.transfer_moved call
    exact hb.of_same hmoved.mints hmoved.holder
  | mintTo call =>
    have hobs := Bank.mintTo_ok call
    exact hb.of_same hobs.mints hobs.holder
  | closeAccount _ call =>
    obtain ⟨_, _, hobs⟩ := Bank.closeAccount_eq_ok.mp call
    exact hb.of_updated (fun _ he => by cases he) hobs
  | setOwner _ call =>
    obtain ⟨m, hm, hobs⟩ := Bank.setOwner_ok call
    exact hb.of_updated (fun _ _ => ⟨hb.address _ _ hm, hb.no_mint _ _ hm⟩) hobs

variable {s s' : State} {out : List Transfer} {l : Label} {h : History}

theorem Move.placed (hmove : Move s s' out l) (hb : Placed s.tokens)
    (hop : ∀ op, l = .token op → TokenOp.Calls s.tokens s'.tokens op) : Placed s'.tokens := by
  cases hmove with
  | configCreated he => exact hb.of_open (Pubkey.ofTokens_ata _ _) he.tokens'
  | reconfigured _ _ _ _ he => exact he.post ▸ hb
  | withdrawn he => exact hb.of_same he.tokens'.mints he.tokens'.holder
  | funded he =>
    refine hb.of_updated (fun _ _ => ⟨?_, he.vault_not_mint⟩) he.tokens'
    rw [he.vault_key]
    exact Pubkey.ofTokens_ata _ _
  | ended _ _ _ he => exact hb.of_updated (fun _ hn => by cases hn) he.tokens'
  | enrolled he =>
    rcases he.tokens' with ⟨_, hsame⟩ | hopen
    · exact hsame ▸ hb
    · exact hb.of_open (Pubkey.ofTokens_ata _ _) hopen
  | advanced _ _ _ _ he => exact he.post ▸ hb
  | paid _ _ _ he => exact hb.of_same he.tokens'.mints he.tokens'.holder
  | refunded _ _ _ he => exact hb.of_same he.tokens'.mints he.tokens'.holder
  | outside _ _ _ => exact hb.of_calls (hop _ rfl)

theorem calls_of_exec {op : TokenOp} (hstep : Accepts exec s (.token op) out s') :
    TokenOp.Calls s.tokens s'.tokens op ∧ s' = { s with tokens := s'.tokens } ∧ out = [] := by
  simp only [Accepts, exec, seq_eq_ok, return_eq_ok, Prod.mk.injEq] at hstep
  obtain ⟨tokens, hop, rfl, rfl⟩ := hstep
  exact ⟨TokenOp.process_eq_ok.mp hop, rfl, rfl⟩

theorem Reaches.placed (hr : Reaches h s) : Placed s.tokens := by
  refine Run.history_invariant (I := fun _ s => Placed s.tokens) ?_ ?_ hr
  · constructor <;> simp [State.genesis]
  · intro h s l out s' hrun hb hstep
    refine Move.placed (Reaches.move hrun hstep) hb ?_
    rintro op rfl
    exact (calls_of_exec hstep).1

end Placement

/-! ## The sizes after a step -/

section Sizes
variable {b b' : Bank Pubkey} {k owner mint : Pubkey}

theorem tokenSpace_same (hm : b'.mints = b.mints) (hh : ∀ k, b'.holder k = b.holder k) :
    tokenSpace b' = tokenSpace b := by
  funext k
  simp only [tokenSpace, hm, hh]

theorem tokenSpace_opened {h : Pubkey × Pubkey} {balance : Pubkey → ℕ}
    (hobs : b'.Observes b.mints (Function.update b.holder k (some h)) balance) :
    tokenSpace b' = Function.update (tokenSpace b) k (some tokenAccountSize) := by
  funext j
  simp only [tokenSpace, hobs.mints, hobs.holder, Function.update_apply]
  split_ifs with hjk
  all_goals simp_all

theorem tokenSpace_closed (hk : k ∉ b.mints) {balance : Pubkey → ℕ}
    (hobs : b'.Observes b.mints (Function.update b.holder k none) balance) :
    tokenSpace b' = Function.update (tokenSpace b) k none := by
  funext j
  simp only [tokenSpace, hobs.mints, hobs.holder, Function.update_apply]
  split_ifs with hjk
  all_goals simp_all

theorem tokenSpace_minted {balance : Pubkey → ℕ} (hk : b.holder k = none)
    (hobs : b'.Observes (insert k b.mints) b.holder balance) :
    tokenSpace b' = Function.update (tokenSpace b) k (some mintSize) := by
  funext j
  simp only [tokenSpace, hobs.mints, hobs.holder, Function.update_apply, Finset.mem_insert]
  split_ifs with hjk
  all_goals simp_all

variable {s s' : State}

/-- Records and token accounts never share an address, so a state whose tokens
alone change changes its sizes as they do. -/
theorem space_of_tokens {n : Option ℕ} (hc : s'.config = s.config) (ht : s'.tasks = s.tasks)
    (hcl : s'.claims = s.claims) (hk : k.OfTokens)
    (htok : tokenSpace s'.tokens = Function.update (tokenSpace s.tokens) k n) :
    s'.space = Function.update s.space k n := by
  funext j
  cases j with
  | key | ata =>
    simp only [State.space, htok, Function.update_apply]
  | configPda | taskPda | claimPda =>
    rw [Function.update_of_ne (by rintro rfl; exact hk)]
    simp only [State.space, hc, ht, hcl]

/-- Rewriting records that exist changes no size. -/
theorem space_congr (hc : s'.config.isSome = s.config.isSome)
    (ht : ∀ T, (s'.tasks.get T).isSome = (s.tasks.get T).isSome)
    (hcl : ∀ c, (s'.claims.get c).isSome = (s.claims.get c).isSome)
    (htok : tokenSpace s'.tokens = tokenSpace s.tokens) : s'.space = s.space := by
  have hmap {α : Type} {o o' : Option α} (n : ℕ) (h : o'.isSome = o.isSome) :
      (o'.map fun _ => n) = o.map fun _ => n := by
    cases o
    all_goals
      cases o'
      all_goals simp_all
  funext j
  cases j with
  | key | ata => simp only [State.space, htok]
  | configPda => exact hmap _ hc
  | taskPda => exact hmap _ (ht _)
  | claimPda => exact hmap _ (hcl _)

theorem isSome_set {α : Type} {m m' : Store Pubkey α} {k : Pubkey} {v v' : α}
    (hk : m.get k = some v) (hset : m' = m.set k v') (j : Pubkey) :
    (m'.get j).isSome = (m.get j).isSome := by
  rw [hset, Store.get_set]
  split_ifs with hj
  · rw [hj, hk]
    rfl
  · rfl

theorem space_setConfig (config : EscrowConfig) :
    { s with config := some config }.space =
      Function.update s.space .configPda (some (discriminatorSize + EscrowConfig.size)) := by
  funext j
  cases j with
  | configPda => simp [State.space]
  | _ => rw [Function.update_of_ne Pubkey.noConfusion]; rfl

theorem space_setTask (n : BitVec 128) (task : EscrowTask) :
    { s with tasks := s.tasks.set (.taskPda n) task }.space =
      Function.update s.space (.taskPda n) (some (discriminatorSize + EscrowTask.size)) := by
  funext j
  cases j with
  | taskPda m =>
    simp only [State.space, Store.get_set, Function.update_apply]
    split_ifs
    · rfl
    · rfl
  | _ => rw [Function.update_of_ne Pubkey.noConfusion]; rfl

theorem space_eraseTask (n : BitVec 128) :
    { s with tasks := s.tasks.erase (.taskPda n) }.space =
      Function.update s.space (.taskPda n) none := by
  funext j
  cases j with
  | taskPda m =>
    simp only [State.space, Store.get_erase, Function.update_apply]
    split_ifs
    · rfl
    · rfl
  | _ => rw [Function.update_of_ne Pubkey.noConfusion]; rfl

theorem space_setClaim (n : BitVec 128) (claim : EscrowClaim) :
    { s with claims := s.claims.set (.claimPda n) claim }.space =
      Function.update s.space (.claimPda n) (some (discriminatorSize + EscrowClaim.size)) := by
  funext j
  cases j with
  | claimPda m =>
    simp only [State.space, Store.get_set, Function.update_apply]
    split_ifs
    · rfl
    · rfl
  | _ => rw [Function.update_of_ne Pubkey.noConfusion]; rfl

end Sizes

section Steps
variable {s s' : State} {out : List Transfer} {now : I64} {ix : Instruction}

/-- The instructions that create and close nothing. -/
theorem space_quiet (h : Move s s' out (.instr now ix)) (hquiet : ix.rentOps s = []) :
    s'.space = s.space := by
  have tokens_same {b : Bank Pubkey} {balance : Pubkey → ℕ}
      (hobs : b.Observes s.tokens.mints s.tokens.holder balance) :
      tokenSpace b = tokenSpace s.tokens := tokenSpace_same hobs.mints hobs.holder
  cases h with
  | configCreated he => cases hquiet
  | reconfigured _ _ _ _ he =>
    rw [he.post]
    exact space_congr (by rw [he.config]; rfl) (fun _ => rfl) (fun _ => rfl) rfl
  | withdrawn he =>
    exact space_congr (by rw [he.config']) (fun _ => by rw [he.tasks']) (fun _ => by rw [he.claims'])
      (tokens_same he.tokens')
  | funded he => cases hquiet
  | ended _ _ hg he =>
    cases hg with
    | cancel | close | autoCancel => cases hquiet
  | enrolled he => cases hquiet
  | advanced _ _ _ _ he =>
    rw [he.post]
    exact space_congr rfl (fun _ => rfl) (isSome_set he.claim rfl) rfl
  | paid _ _ _ he =>
    exact space_congr (by rw [he.config']) (isSome_set he.task he.tasks')
      (isSome_set he.claim he.claims') (tokens_same he.tokens')
  | refunded _ _ _ he =>
    exact space_congr (by rw [he.config']) (isSome_set he.task he.tasks')
      (isSome_set he.claim he.claims') (tokens_same he.tokens')

theorem space_configCreated {cfg : EscrowConfig} (h : ConfigCreated s s' out cfg) :
    s'.space = Function.update (Function.update s.space .configPda
      (some (discriminatorSize + EscrowConfig.size)))
      (.ata .configPda cfg.usdcMint) (some tokenAccountSize) := by
  obtain ⟨_, _, _, hobs⟩ := Bank.openAccount_eq_ok.mp h.tokens'
  rw [← space_setConfig cfg]
  exact space_of_tokens h.config' h.tasks' h.claims' (Pubkey.ofTokens_ata _ _)
    (tokenSpace_opened hobs)

theorem space_funded {a : InitializeTask} {cfg : EscrowConfig} {t : EscrowTask}
    (h : Funded s s' out a cfg t) :
    s'.space = Function.update (Function.update s.space a.task
      (some (discriminatorSize + EscrowTask.size))) a.taskVault (some tokenAccountSize) := by
  have htasks := h.tasks'
  rw [h.task_key] at htasks ⊢
  rw [← space_setTask t.taskId t]
  refine space_of_tokens h.config' htasks h.claims' ?_ (tokenSpace_opened h.tokens')
  rw [h.vault_key]
  exact Pubkey.ofTokens_ata _ _

theorem space_enrolled {a : Enroll} {claimId : BitVec 128} {t : EscrowTask}
    (h : Enrolled s s' out now a claimId t) :
    s'.space = ((Instruction.enroll a claimId).rentOps s).foldl RentOp.resize s.space := by
  have hrecords : ({ s with tasks := s'.tasks, claims := s'.claims } : State).space =
      Function.update s.space a.claim (some (discriminatorSize + EscrowClaim.size)) := by
    rw [h.claim_key, ← space_setClaim claimId (a.record now claimId)]
    refine space_congr rfl (isSome_set h.task h.tasks') (fun c => ?_) rfl
    rw [h.claims', h.claim_key]
  simp only [Instruction.rentOps, List.foldl_cons, RentOp.resize, ← hrecords]
  rcases h.tokens' with ⟨hheld, hsame⟩ | hopen
  · rw [h.ata_key, hheld, if_neg (by simp), List.foldl_nil]
    exact space_congr (by rw [h.config']) (fun _ => rfl) (fun _ => rfl) (by rw [hsame])
  · obtain ⟨_, _, hfree, hobs⟩ := Bank.openAccount_eq_ok.mp hopen
    rw [h.ata_key, if_pos hfree, List.foldl_cons, List.foldl_nil, RentOp.resize]
    exact space_of_tokens h.config' rfl rfl (Pubkey.ofTokens_ata _ _) (tokenSpace_opened hobs)

theorem vault_not_mint (hs : Sound s) (T mint : Pubkey) : .ata T mint ∉ s.tokens.mints :=
  fun hm => by cases hs.mint_signs _ hm

/-- A task that is wound up loses its vault, and its record where the tasks say so. -/
theorem space_ended (hs : Sound s) {T P : Pubkey} {cfg : EscrowConfig} {t : EscrowTask}
    {tasks' : Store Pubkey EscrowTask} (h : Ended s s' out T P cfg t tasks') :
    s'.space = Function.update ({ s with tasks := tasks' } : State).space
      (.ata T cfg.usdcMint) none :=
  space_of_tokens h.config' h.tasks' h.claims' (Pubkey.ofTokens_ata _ _)
    (tokenSpace_closed (vault_not_mint hs _ _) h.tokens')

theorem space_closed (hs : Sound s) {T P : Pubkey} {cfg : EscrowConfig} {t t' : EscrowTask}
    (h : Ended s s' out T P cfg t (s.tasks.set T t')) :
    s'.space = Function.update s.space (.ata T cfg.usdcMint) none := by
  rw [space_ended hs h]
  congr 1
  exact space_congr rfl (isSome_set h.task rfl) (fun _ => rfl) rfl

/-- The sizes after an instruction are the ones that its rent is paid for. -/
theorem space_of_process (hs : Sound s) (h : ix.process s now = .ok (s', out)) :
    s'.space = (ix.rentOps s).foldl RentOp.resize s.space := by
  cases ix with
  | initializeConfig a admin feeBps =>
    obtain ⟨_, hkey, hvault, he⟩ := initializeConfig_eq_ok.mp h
    simp only [Instruction.rentOps, List.foldl_cons, List.foldl_nil, RentOp.resize, hkey, hvault]
    exact space_configCreated he
  | initializeTask a taskId bounty maxSlots claimDeadlineSecs taskDeadlineTs =>
    obtain ⟨cfg, he⟩ := initializeTask_eq_ok.mp h
    exact space_funded he
  | cancelBeforeEnroll a =>
    obtain ⟨cfg, t, hl, _, he⟩ := (cancelBeforeEnroll_eq_ok hs).mp h
    have hne : a.task ≠ a.taskVault := by
      rw [hl.task_key, hl.vault_key]
      exact Pubkey.noConfusion
    simp only [Instruction.rentOps, List.foldl_cons, List.foldl_nil, RentOp.resize]
    rw [space_ended hs he, hl.vault_key, Function.update_comm (hl.vault_key ▸ hne.symm)]
    congr 1
    rw [hl.task_key]
    exact space_eraseTask _
  | closeTask a =>
    obtain ⟨cfg, t, hl, _, _, he⟩ := (closeTask_eq_ok hs).mp h
    simp only [Instruction.rentOps, List.foldl_cons, List.foldl_nil, RentOp.resize, hl.vault_key]
    exact space_closed hs he
  | autoCancelTask a =>
    obtain ⟨cfg, t, hl, _, _, he⟩ := (autoCancelTask_eq_ok hs).mp h
    simp only [Instruction.rentOps, List.foldl_cons, List.foldl_nil, RentOp.resize, hl.vault_key]
    exact space_closed hs he
  | enroll a claimId =>
    obtain ⟨t, he⟩ := enroll_eq_ok.mp h
    exact space_enrolled he
  | _ => exact space_quiet (move_of_process hs h) rfl

/-- The same for an operation of the token programs, whoever pays. -/
theorem space_of_token (hb : Placed s.tokens) {op : TokenOp} (party : Pubkey)
    (h : Accepts exec s (.token op) out s') :
    s'.space = (op.rentOps party).foldl RentOp.resize s.space := by
  obtain ⟨hcall, hpost, _⟩ := calls_of_exec h
  have hc : s'.config = s.config := by rw [hpost]
  have ht : s'.tasks = s.tasks := by rw [hpost]
  have hcl : s'.claims = s.claims := by rw [hpost]
  have quiet (htok : tokenSpace s'.tokens = tokenSpace s.tokens) : s'.space = s.space :=
    space_congr (by rw [hc]) (fun _ => by rw [ht]) (fun _ => by rw [hcl]) htok
  cases hcall with
  | createMint signs call =>
    exact space_of_tokens hc ht hcl (Pubkey.ofTokens_of_canSign signs)
      (tokenSpace_minted (Bank.createMint_fresh call) (Bank.createMint_ok call))
  | createAccount signs call =>
    obtain ⟨_, _, _, hobs⟩ := Bank.openAccount_eq_ok.mp call
    exact space_of_tokens hc ht hcl (Pubkey.ofTokens_of_canSign signs) (tokenSpace_opened hobs)
  | createAta call =>
    obtain ⟨_, _, _, hobs⟩ := Bank.openAccount_eq_ok.mp call
    exact space_of_tokens hc ht hcl (Pubkey.ofTokens_ata _ _) (tokenSpace_opened hobs)
  | transfer _ call =>
    obtain ⟨_, _, _, _, _, hmoved⟩ := Bank.transfer_moved call
    exact quiet (tokenSpace_same hmoved.mints hmoved.holder)
  | mintTo call =>
    have hobs := Bank.mintTo_ok call
    exact quiet (tokenSpace_same hobs.mints hobs.holder)
  | closeAccount _ call =>
    obtain ⟨⟨m, hheld⟩, _, hobs⟩ := Bank.closeAccount_eq_ok.mp call
    exact space_of_tokens hc ht hcl (hb.address _ _ hheld)
      (tokenSpace_closed (hb.no_mint _ _ hheld) hobs)
  | setOwner _ call =>
    obtain ⟨m, hheld, hobs⟩ := Bank.setOwner_ok call
    refine quiet ?_
    rw [tokenSpace_opened hobs]
    apply Function.update_eq_self_iff.mpr
    simp [tokenSpace, hheld]

end Steps
end ClustlyEscrow
