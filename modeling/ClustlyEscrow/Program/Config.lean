import ClustlyEscrow.Program.Accounts

/-! # Config instructions and the fee withdrawal -/
namespace ClustlyEscrow
open Foundations

structure InitializeConfig where
  payer : Pubkey
  config : Pubkey
  usdcMint : Pubkey
  feeVault : Pubkey
  deriving DecidableEq, Repr

def initializeConfig (s : State) (a : InitializeConfig) (admin : Pubkey) (feeBps : U16) :
    Result (State × List Transfer) := do
  signer a.payer
  loadMint s a.usdcMint
  require (a.config = .configPda) (.constraint .seeds)
  require (s.config = none) (.constraint .accountAlreadyInUse)
  let cpi ← s.cpi.initAta a.feeVault a.usdcMint a.config
  require (feeBps.val ≤ feeBpsCap) (.escrow .feeTooHigh)
  return ({ s with config := some ⟨admin, a.usdcMint, feeBps⟩, tokens := cpi.tokens },
    cpi.transfers)

structure UpdateConfig where
  config : Pubkey
  admin : Pubkey
  deriving DecidableEq, Repr

/-- The config under `has_one = admin`, with the admin's signature. -/
def UpdateConfig.load (s : State) (a : UpdateConfig) : Result EscrowConfig := do
  let config ← loadConfig s a.config
  require (config.admin = a.admin) (.escrow .unauthorized)
  signer a.admin
  return config

abbrev UpdateAdmin := UpdateConfig

def updateAdmin (s : State) (a : UpdateAdmin) (newAdmin : Pubkey) :
    Result (State × List Transfer) := do
  let config ← a.load s
  return ({ s with config := some { config with admin := newAdmin } }, [])

abbrev UpdateFee := UpdateConfig

def updateFee (s : State) (a : UpdateFee) (newFeeBps : U16) :
    Result (State × List Transfer) := do
  let config ← a.load s
  require (newFeeBps.val ≤ feeBpsCap) (.escrow .feeTooHigh)
  return ({ s with config := some { config with feeBps := newFeeBps } }, [])

structure UpdateMint extends UpdateConfig where
  newMint : Pubkey
  deriving DecidableEq, Repr

def updateMint (s : State) (a : UpdateMint) : Result (State × List Transfer) := do
  let config ← a.load s
  loadMint s a.newMint
  return ({ s with config := some { config with usdcMint := a.newMint } }, [])

structure WithdrawFees where
  admin : Pubkey
  config : Pubkey
  feeVault : Pubkey
  destination : Pubkey
  usdcMint : Pubkey
  deriving DecidableEq, Repr

def withdrawFees (s : State) (a : WithdrawFees) (amount : U64) :
    Result (State × List Transfer) := do
  signer a.admin
  let config ← loadConfig s a.config
  require (config.admin = a.admin) (.escrow .unauthorized)
  loadAta s a.feeVault config.usdcMint a.config
  loadTokenOfMint s a.destination config.usdcMint
  loadMint s a.usdcMint
  require (amount.val ≤ s.tokens.balance a.feeVault) (.escrow .insufficientFeeVault)
  let cpi ← s.cpi.transfer a.config a.feeVault a.destination amount
  return ({ s with tokens := cpi.tokens }, cpi.transfers)

end ClustlyEscrow
