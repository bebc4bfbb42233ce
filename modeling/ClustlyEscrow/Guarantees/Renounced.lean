import ClustlyEscrow.Guarantees.Authority
import ClustlyEscrow.Guarantees.Worker

/-!
# Giving the admin role away

`update_admin` takes any address, also one that nobody has a key for. After
that the config is final: no later run changes fee, mint or admin, takes a
token out of a fee vault, or decides a dispute against its worker.
-/
namespace ClustlyEscrow
open Foundations

/-- What a run from `s` to `s'` can not do without an admin. -/
structure Renounced (s : State) (cfg : EscrowConfig) (h' : History) (s' : State) : Prop where
  config : s'.config = some cfg
  feeVaults : ∀ M, s.tokens.balance (.ata .configPda M) ≤ s'.tokens.balance (.ata .configPda M)
  unsigned : ∀ e ∈ h', e.label.signedBy? ≠ some cfg.admin
  rulings : ∀ e ∈ h', ∀ c, e.label.rulesAgainst c = false
  /-- A claim that the poster won in a dispute was won before. -/
  lost : ∀ c r, s'.claims.get c = some r → r.status = ClaimStatus.resolvedPoster.toU8 →
    s.claims.get c = some r

section Renounced
variable {s₀ s s' : State} {h h' : History} {l : Label} {out : List Transfer} {c p : Pubkey}
  {cfg : EscrowConfig} {r : EscrowClaim}

/-- No step is signed by an address without a key. -/
theorem signedBy_ne_of_canSign (hstep : Accepts exec s l out s') (hp : p.canSign = false) :
    l.signedBy? ≠ some p := by
  cases l with
  | token => exact Option.some_ne_none p ∘ Eq.symm
  | instr now ix =>
    rintro heq
    cases Option.some.inj heq
    have hsign := signs_of_process hstep
    rw [hp] at hsign
    cases hsign

theorem Move.ruled_by_admin (hmove : Move s s' out l) (hrules : l.rulesAgainst c = true) :
    ∃ cfg, s.config = some cfg ∧ l.signedBy? = some cfg.admin := by
  cases hmove with
  | configCreated | withdrawn | funded | enrolled | outside => cases hrules
  | reconfigured _ _ _ hg => cases hg <;> cases hrules
  | ended _ _ hg => cases hg <;> cases hrules
  | advanced _ _ _ hg => cases hg <;> cases hrules
  | paid _ _ hg => cases hg <;> cases hrules
  | refunded _ _ hg he =>
    cases hg with
    | reject => cases hrules
    | resolve hadmin => exact ⟨_, he.config, congrArg some hadmin.symm⟩

theorem Renounced.step (hren : Renounced s₀ cfg h' s) (hs : Sound s)
    (hadmin : cfg.admin.canSign = false) (hmove : Move s s' out l)
    (hstep : Accepts exec s l out s') : Renounced s₀ cfg (⟨l, s, s', out⟩ :: h') s' := by
  have hunsigned := signedBy_ne_of_canSign hstep hadmin
  have hrules (c : Pubkey) : l.rulesAgainst c = false := by
    by_contra hyes
    obtain ⟨cfg', hcfg', hsign⟩ := hmove.ruled_by_admin (Bool.eq_true_of_not_eq_false hyes)
    cases hren.config.symm.trans hcfg'
    exact hunsigned hsign
  constructor
  · rcases hmove.config_cases with
      hsame | ⟨_, hnone, _⟩ | ⟨_, cfg', _, hsign, rfl, hcfg', _⟩
    · exact hsame.trans hren.config
    · rw [hren.config] at hnone
      cases hnone
    · cases hren.config.symm.trans hcfg'
      exact absurd hsign hunsigned
  · intro M
    refine (hren.feeVaults M).trans (not_lt.mp fun hdec => ?_)
    obtain ⟨_, _, _, cfg', _, hcfg', hsign⟩ := hmove.fee_vault hs hdec
    cases hren.config.symm.trans hcfg'
    exact hunsigned hsign
  · exact List.forall_mem_cons.mpr ⟨hunsigned, hren.unsigned⟩
  · exact List.forall_mem_cons.mpr ⟨hrules, hren.rulings⟩
  · intro c r hc' hst
    by_cases hl : l.claim? = some c
    · rcases (hmove.touch hl).left_settled hc' (by rw [hst]; decide) with
        ⟨_, _, _, _, hg, _, rfl⟩ | ⟨_, _, _, _, hg, _⟩
      · cases hg <;> cases hst
      · cases hg with
        | reject => cases hst
        | resolve => exact absurd (Option.some.inj hl) (of_decide_eq_false (hrules c))
    · exact hren.lost c r ((hmove.claim_frame hl).symm.trans hc') hst

/-- From a state on whose admin has no key every run leaves the config as it is,
only adds to the fee vaults, and has no dispute decided for a poster. -/
theorem renounced_admin (hr : Reaches h s) (hcfg : s.config = some cfg)
    (hadmin : cfg.admin.canSign = false) (hrun : Runs s h' s') : Renounced s cfg h' s' := by
  refine (hrun.history_invariant (I := fun h' s' => Reaches (h' ++ h) s' ∧
    Renounced s cfg h' s') ⟨hr, ?_⟩ ?_).2
  · exact ⟨hcfg, fun _ => le_rfl, by simp, by simp, fun _ _ hc _ => hc⟩
  · rintro h₁ s₁ l out s₂ _ ⟨hr₁, hren⟩ hstep
    exact ⟨hr₁.next hstep, hren.step hr₁.sound hadmin (hr₁.move hstep) hstep⟩

end Renounced

namespace Scenario

/-- The admin hands the role to an address of the program. -/
def renounced : List Label := twoClaims ++
  [.instr (clock 1350) (.updateAdmin ⟨.configPda, admin⟩ job)]

end Scenario

open Scenario in
theorem renounced_admin_closed : Renounced (played renounced).2 ⟨job, usdc, 400⟩
    (playFrom exec (played renounced).2 [submits (clock 1400) helper 1, approves usdc helper 1]).1
    (playFrom exec (played renounced).2
      [submits (clock 1400) helper 1, approves usdc helper 1]).2 :=
  renounced_admin (played_reaches renounced) (by decide +kernel) rfl (playFrom_run exec _ _)

end ClustlyEscrow
