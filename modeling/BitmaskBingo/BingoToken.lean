/-
  BitmaskBingo.BingoToken

  The currency of the game: OpenZeppelin's `ERC20` and `Ownable`, and
  `BingoToken` over them, which mints up to a cap and keeps a second supply
  counter.  Every function of the token that returns a `bool` returns `true`
  whenever it returns, so only the new state is kept.
-/

import BitmaskBingo.Evm
import BitmaskBingo.Lib.Ledger

namespace BitmaskBingo

/-- The storage of the token: the mappings and the counter of `ERC20`, the
    owner of `Ownable`, and `supply`. -/
structure BingoToken where
  balances : Address → Uint256
  allowances : Address → Address → Uint256
  totalSupply : Uint256
  owner : Address
  supply : Uint256

namespace BingoToken

/-- `type(uint256).max`: an allowance of this size is never spent. -/
def maxUint256 : Uint256 := BitVec.allOnes 256

/-- `type(uint64).max`. -/
def maxSupply : Uint256 := 18446744073709551615

/-- The token as `deployer` deploys it. -/
def deployed (deployer : Address) : BingoToken where
  balances _ := 0
  allowances _ _ := 0
  totalSupply := 0
  owner := deployer
  supply := 0

def setBalance (t : BingoToken) (account : Address) (amount : Uint256) : BingoToken :=
  { t with balances := Function.update t.balances account amount }

def setAllowance (t : BingoToken) (owner spender : Address) (amount : Uint256) : BingoToken :=
  let ofOwner := Function.update (t.allowances owner) spender amount
  { t with allowances := Function.update t.allowances owner ofOwner }

-- ============================================================================
-- ERC20
-- ============================================================================

def balanceOf (t : BingoToken) (account : Address) : Uint256 := t.balances account

def allowance (t : BingoToken) (owner spender : Address) : Uint256 := t.allowances owner spender

def _transfer (t : BingoToken) (from_ to_ : Address) (amount : Uint256) :
    Except Revert BingoToken := do
  require (from_ ≠ 0) "ERC20: transfer from the zero address"
  require (to_ ≠ 0) "ERC20: transfer to the zero address"
  let fromBalance := t.balances from_
  require (fromBalance ≥ amount) "ERC20: transfer amount exceeds balance"
  -- unchecked: the second line reads the balance the first one wrote
  let t := t.setBalance from_ (fromBalance - amount)
  return t.setBalance to_ (t.balances to_ + amount)

def _mint (t : BingoToken) (account : Address) (amount : Uint256) :
    Except Revert BingoToken := do
  require (account ≠ 0) "ERC20: mint to the zero address"
  let totalSupply ← checkedAdd t.totalSupply amount
  let t := { t with totalSupply }
  -- unchecked
  return t.setBalance account (t.balances account + amount)

def _approve (t : BingoToken) (owner spender : Address) (amount : Uint256) :
    Except Revert BingoToken := do
  require (owner ≠ 0) "ERC20: approve from the zero address"
  require (spender ≠ 0) "ERC20: approve to the zero address"
  return t.setAllowance owner spender amount

def _spendAllowance (t : BingoToken) (owner spender : Address) (amount : Uint256) :
    Except Revert BingoToken := do
  let currentAllowance := t.allowance owner spender
  if currentAllowance ≠ maxUint256 then
    require (currentAllowance ≥ amount) "ERC20: insufficient allowance"
    t._approve owner spender (currentAllowance - amount)
  else
    return t

def transfer (t : BingoToken) (sender to_ : Address) (amount : Uint256) :
    Except Revert BingoToken :=
  t._transfer sender to_ amount

def approve (t : BingoToken) (sender spender : Address) (amount : Uint256) :
    Except Revert BingoToken :=
  t._approve sender spender amount

def transferFrom (t : BingoToken) (sender from_ to_ : Address) (amount : Uint256) :
    Except Revert BingoToken := do
  let t ← t._spendAllowance from_ sender amount
  t._transfer from_ to_ amount

def increaseAllowance (t : BingoToken) (sender spender : Address) (addedValue : Uint256) :
    Except Revert BingoToken := do
  let newAllowance ← checkedAdd (t.allowance sender spender) addedValue
  t._approve sender spender newAllowance

def decreaseAllowance (t : BingoToken) (sender spender : Address) (subtractedValue : Uint256) :
    Except Revert BingoToken := do
  let currentAllowance := t.allowance sender spender
  require (currentAllowance ≥ subtractedValue) "ERC20: decreased allowance below zero"
  t._approve sender spender (currentAllowance - subtractedValue)

-- ============================================================================
-- Ownable and BingoToken
-- ============================================================================

def onlyOwner (t : BingoToken) (sender : Address) : Except Revert Unit :=
  require (t.owner = sender) "Ownable: caller is not the owner"

def transferOwnership (t : BingoToken) (sender newOwner : Address) :
    Except Revert BingoToken := do
  t.onlyOwner sender
  require (newOwner ≠ 0) "Ownable: new owner is the zero address"
  return { t with owner := newOwner }

def renounceOwnership (t : BingoToken) (sender : Address) : Except Revert BingoToken := do
  t.onlyOwner sender
  return { t with owner := 0 }

def mint (t : BingoToken) (sender to_ : Address) (amount : Uint256) :
    Except Revert BingoToken := do
  t.onlyOwner sender
  let newSupply ← checkedAdd t.supply amount
  require (newSupply ≤ maxSupply) "Token supply is exhausted"
  let supply ← checkedAdd t.supply amount
  { t with supply }._mint to_ amount

/-- The external functions of the token that change its state. -/
inductive Call where
  | mint (to_ : Address) (amount : Uint256)
  | transfer (to_ : Address) (amount : Uint256)
  | approve (spender : Address) (amount : Uint256)
  | increaseAllowance (spender : Address) (addedValue : Uint256)
  | decreaseAllowance (spender : Address) (subtractedValue : Uint256)
  | transferFrom (from_ to_ : Address) (amount : Uint256)
  | transferOwnership (newOwner : Address)
  | renounceOwnership
deriving Repr, DecidableEq

def call (t : BingoToken) (sender : Address) : Call → Except Revert BingoToken
  | .mint to_ amount => t.mint sender to_ amount
  | .transfer to_ amount => t.transfer sender to_ amount
  | .approve spender amount => t.approve sender spender amount
  | .increaseAllowance spender addedValue => t.increaseAllowance sender spender addedValue
  | .decreaseAllowance spender subtractedValue =>
      t.decreaseAllowance sender spender subtractedValue
  | .transferFrom from_ to_ amount => t.transferFrom sender from_ to_ amount
  | .transferOwnership newOwner => t.transferOwnership sender newOwner
  | .renounceOwnership => t.renounceOwnership sender

end BingoToken
end BitmaskBingo
