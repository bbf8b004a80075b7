import Iotago.Semantic.Unlock

namespace Iotago

def addAmount (m : AmountPerIdent) (ident : Bytes) (amount : UInt64) : AmountPerIdent :=
  m.insert ident ((m.lookup ident).getD 0 + amount)

/-- The dust deposit return an input owes; its sender is only asserted. -/
def dustDepositReturn (o : Output) : Outcome (Option (Bytes × UInt64)) :=
  match o.featureBlocks with
  | none => .ok none
  | some blocks => do
    let set ← liftErr (featureBlocksSet blocks)
    match dustDepositReturnOf set with
    | none => return none
    | some amount => do
      let sender ← requireSender set
      return some (sender.key, amount)

/-- The input loop of `TxSemanticDeposit`. -/
def depositInputs : List (Σ _ : OutputID, Output) → UInt64 → AmountPerIdent →
    Outcome (UInt64 × AmountPerIdent)
  | [], inSum, returns => .ok (inSum, returns)
  | ⟨_, o⟩ :: rest, inSum, returns => do
    match ← dustDepositReturn o with
    | none => depositInputs rest (inSum + o.deposit) returns
    | some (ident, amount) => depositInputs rest (inSum + o.deposit) (addAmount returns ident amount)

/-- A plain value transfer: a simple output, or an extended one without feature blocks. -/
def simpleTransferAddress : Output → Option Address
  | .simple s => some s.address
  | .extended e => if 0 < e.blocks.length then none else some e.address
  | _ => none

/-- The output loop of `TxSemanticDeposit`. -/
def depositOutputs : List Output → UInt64 → AmountPerIdent → UInt64 × AmountPerIdent
  | [], outSum, transfers => (outSum, transfers)
  | o :: rest, outSum, transfers =>
    match simpleTransferAddress o with
    | none => depositOutputs rest (outSum + o.deposit) transfers
    | some a => depositOutputs rest (outSum + o.deposit) (addAmount transfers a.key o.deposit)

/-- The return-amount loop of `TxSemanticDeposit`. -/
def checkReturnAmounts (transfers : AmountPerIdent) : List (Σ _ : Bytes, UInt64) → Outcome Unit
  | [] => .ok ()
  | ⟨ident, returnSum⟩ :: rest =>
    match transfers.lookup ident with
    | none => fail (.returnAmountNotFulFilled returnSum none)
    | some outSum =>
      if outSum < returnSum then fail (.returnAmountNotFulFilled returnSum (some outSum))
      else checkReturnAmounts transfers rest

/-- `TxSemanticDeposit`. -/
def txSemanticDeposit (σ : MapOrder) (ws : WorkingSet) : Outcome Unit := do
  let (inSum, returns) ← depositInputs (σ.deposit.arrange ws.inputSet.entries) 0 ∅
  let (outSum, transfers) := depositOutputs ws.tx.essence.outputs 0 ∅
  if inSum ≠ outSum then fail (.inputOutputSumMismatch inSum outSum)
  else checkReturnAmounts transfers (σ.returnAmounts.arrange returns.entries)

/-- `abi.MaxUint256`. -/
def maxUint256 : Nat := 2 ^ 256 - 1

/-- Modelled from the spec: `NativeTokenOutputs().Sum()`, failing when a `uint256` sum
overflows. -/
def sumNativeTokens : List NativeToken → NativeTokenSum → Except Err NativeTokenSum
  | [], sum => .ok sum
  | nt :: rest, sum =>
    let total := (sum.lookup nt.id).getD 0 + nt.amount
    if maxUint256 < total then .error .nativeTokenSumExceedsUint256
    else sumNativeTokens rest (sum.insert nt.id total)

def nativeTokensOf (outputs : List Output) : List NativeToken :=
  outputs.flatMap (·.nativeTokens.getD [])

/-- Modelled from the spec: `Balanced`, the two sums are the same map. -/
def balanced (a b : NativeTokenSum) : Except Err Unit :=
  if a.entries.all (fun e => b.lookup e.1 == some e.2) &&
      b.entries.all (fun e => a.lookup e.1 == some e.2) then .ok ()
  else .error .nativeTokenSumUnbalanced

def hasFoundry (outputs : List Output) : Bool := outputs.any (·.outputType == 6)

/-- One of the two per-token loops of `TxSemanticNativeTokens`. -/
def checkTokenSums (outChains : ChainConstrainedOutputsSet) (other : NativeTokenSum) :
    List (Σ _ : NativeTokenID, Nat) → Outcome Unit
  | [] => .ok ()
  | ⟨id, s⟩ :: rest =>
    if other.lookup id ≠ some s && (outChains.lookup (.foundry id.foundryID)).isNone then
      fail .nativeTokenSumUnbalanced
    else checkTokenSums outChains other rest

/-- The balance rule of `TxSemanticNativeTokens`. -/
def nativeTokensBalanced (σ : MapOrder) (ws : WorkingSet) (inSum outSum : NativeTokenSum) :
    Outcome Unit :=
  if !hasFoundry ws.outputsByType && !hasFoundry ws.inputsByType then liftErr (balanced inSum outSum)
  else do
    checkTokenSums ws.outChains outSum (σ.inNativeTokens.arrange inSum.entries)
    checkTokenSums ws.outChains inSum (σ.outNativeTokens.arrange outSum.entries)

/-- `TxSemanticNativeTokens`. Both sums range over `InputsByType`, as the source has it. -/
def txSemanticNativeTokens (σ : MapOrder) (ws : WorkingSet) : Outcome WorkingSet := do
  let inSum ← liftErr (sumNativeTokens
    (nativeTokensOf (σ.inTokenOutputs.arrange (ws.inputsByType.filter (·.nativeTokens.isSome)))) ∅)
  let outSum ← liftErr (sumNativeTokens
    (nativeTokensOf (σ.outTokenOutputs.arrange (ws.inputsByType.filter (·.nativeTokens.isSome)))) ∅)
  nativeTokensBalanced σ ws inSum outSum
  return { ws with inNativeTokens := inSum, outNativeTokens := outSum }

def timelockBlocks (ctx : SemanticValidationContext) (inputIndex : OutputID) :
    List FeatureBlock → Outcome Unit
  | [] => .ok ()
  | .timelockMilestoneIndex i :: rest =>
    if ctx.confirmingMilestoneIndex < i then
      fail (.invalidInputTimelock inputIndex .milestoneIndexTimelock)
    else timelockBlocks ctx inputIndex rest
  | .timelockUnix u :: rest =>
    if ctx.confirmingMilestoneUnix < u then fail (.invalidInputTimelock inputIndex .unixTimelock)
    else timelockBlocks ctx inputIndex rest
  | _ :: rest => timelockBlocks ctx inputIndex rest

def timelockInputs (ctx : SemanticValidationContext) : List (Σ _ : OutputID, Output) → Outcome Unit
  | [] => .ok ()
  | ⟨id, o⟩ :: rest => do
    timelockBlocks ctx id (o.featureBlocks.getD [])
    timelockInputs ctx rest

/-- `TxSemanticTimelock`. -/
def txSemanticTimelock (σ : MapOrder) (ctx : SemanticValidationContext) (ws : WorkingSet) :
    Outcome Unit :=
  timelockInputs ctx (σ.timelock.arrange ws.inputSet.entries)

section Chains

variable (env : Env) (view : WorkingSetView)

/-- The input-side loop of `TxSemanticSTVFOnChains`. -/
def stvfInChains (outChains : ChainConstrainedOutputsSet) :
    List (Σ _ : ChainID, Output) → Outcome Unit
  | [] => .ok ()
  | ⟨id, c⟩ :: rest =>
    match outChains.lookup id with
    | none =>
      if env.stvf .destroy c none view then stvfInChains outChains rest
      else fail (.chainTransitionFailed .destroy id)
    | some next =>
      if env.stvf .stateChange c (some next) view then stvfInChains outChains rest
      else fail (.chainTransitionFailed .stateChange id)

/-- The output-side loop of `TxSemanticSTVFOnChains`: new chains. -/
def stvfOutChains (inChains : ChainConstrainedOutputsSet) :
    List (Σ _ : ChainID, Output) → Outcome Unit
  | [] => .ok ()
  | ⟨id, c⟩ :: rest =>
    if (inChains.lookup id).isNone && !env.stvf .genesis c none view then
      fail (.chainTransitionFailed .genesis id)
    else stvfOutChains inChains rest

end Chains

/-- `TxSemanticSTVFOnChains`. -/
def txSemanticSTVFOnChains (env : Env) (σ : MapOrder) (ws : WorkingSet) : Outcome Unit := do
  stvfInChains env ws.view ws.outChains (σ.inChainsLoop.arrange ws.inChains.entries)
  stvfOutChains env ws.view ws.inChains (σ.outChainsLoop.arrange ws.outChains.entries)

/-- `SemanticallyValidate`. -/
def semanticallyValidate (env : Env) (σ : MapOrder) (ctx : SemanticValidationContext)
    (t : Transaction) (inputs : OutputSet) : Outcome Unit := do
  let ws ← newSemValiContextWorkingSet env σ t inputs
  let ws ← txSemanticInputUnlocks env ctx ws
  txSemanticDeposit σ ws
  let ws ← txSemanticNativeTokens σ ws
  txSemanticTimelock σ ctx ws
  txSemanticOutputsSender ws
  txSemanticSTVFOnChains env σ ws

end Iotago
