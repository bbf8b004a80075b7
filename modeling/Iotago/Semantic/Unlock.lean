import Iotago.Semantic.WorkingSet

namespace Iotago

/-- `FeatureBlocks().Set()`: at most one block of each type. -/
def featureBlocksSet (blocks : List FeatureBlock) : Except Err (List FeatureBlock) :=
  if (blocks.map FeatureBlock.type).Nodup then .ok blocks else .error .nonUniqueFeatureBlocks

theorem featureBlocksSet_eq_ok {blocks set : List FeatureBlock} :
    featureBlocksSet blocks = .ok set ↔ (blocks.map FeatureBlock.type).Nodup ∧ set = blocks := by
  unfold featureBlocksSet
  split_ifs with h <;> simp [h, eq_comm]

def senderOf : List FeatureBlock → Option Address
  | [] => none
  | .sender a :: _ => some a
  | _ :: rest => senderOf rest

theorem senderOf_eq_of_mem {blocks : List FeatureBlock} {a : Address}
    (nodup : (blocks.map FeatureBlock.type).Nodup) (mem : FeatureBlock.sender a ∈ blocks) :
    senderOf blocks = some a := by
  induction blocks with
  | nil => cases mem
  | cons b rest ih =>
    rw [List.map_cons, List.nodup_cons] at nodup
    rcases List.mem_cons.mp mem with rfl | later
    · rfl
    · cases b with
      | sender _ => exact absurd (List.mem_map_of_mem FeatureBlock.type later) nodup.1
      | _ => exact ih nodup.2 later

def expirationMilestoneIndexOf : List FeatureBlock → Option UInt32
  | [] => none
  | .expirationMilestoneIndex i :: _ => some i
  | _ :: rest => expirationMilestoneIndexOf rest

def expirationUnixOf : List FeatureBlock → Option UInt64
  | [] => none
  | .expirationUnix u :: _ => some u
  | _ :: rest => expirationUnixOf rest

def dustDepositReturnOf : List FeatureBlock → Option UInt64
  | [] => none
  | .dustDepositReturn a :: _ => some a
  | _ :: rest => dustDepositReturnOf rest

theorem requiresSender_of_mem {blocks : List FeatureBlock} {b : FeatureBlock} (mem : b ∈ blocks)
    (needs : (b.type == .expirationMilestoneIndex || b.type == .expirationUnix ||
      b.type == .dustDepositReturn) = true) : requiresSender blocks = true :=
  List.any_eq_true.mpr ⟨b, mem, needs⟩

theorem mem_of_expirationMilestoneIndexOf {blocks : List FeatureBlock} {i : UInt32}
    (h : expirationMilestoneIndexOf blocks = some i) : .expirationMilestoneIndex i ∈ blocks := by
  induction blocks with
  | nil => cases h
  | cons b rest ih =>
    cases b
    case expirationMilestoneIndex => cases h; exact .head _
    all_goals exact .tail _ (ih h)

theorem mem_of_expirationUnixOf {blocks : List FeatureBlock} {u : UInt64}
    (h : expirationUnixOf blocks = some u) : .expirationUnix u ∈ blocks := by
  induction blocks with
  | nil => cases h
  | cons b rest ih =>
    cases b
    case expirationUnix => cases h; exact .head _
    all_goals exact .tail _ (ih h)

theorem mem_of_dustDepositReturnOf {blocks : List FeatureBlock} {a : UInt64}
    (h : dustDepositReturnOf blocks = some a) : .dustDepositReturn a ∈ blocks := by
  induction blocks with
  | nil => cases h
  | cons b rest ih =>
    cases b
    case dustDepositReturn => cases h; exact .head _
    all_goals exact .tail _ (ih h)

theorem requiresSender_of_expirationMilestoneIndexOf {blocks : List FeatureBlock} {i : UInt32}
    (h : expirationMilestoneIndexOf blocks = some i) : requiresSender blocks = true :=
  requiresSender_of_mem (mem_of_expirationMilestoneIndexOf h) rfl

theorem requiresSender_of_expirationUnixOf {blocks : List FeatureBlock} {u : UInt64}
    (h : expirationUnixOf blocks = some u) : requiresSender blocks = true :=
  requiresSender_of_mem (mem_of_expirationUnixOf h) rfl

theorem requiresSender_of_dustDepositReturnOf {blocks : List FeatureBlock} {a : UInt64}
    (h : dustDepositReturnOf blocks = some a) : requiresSender blocks = true :=
  requiresSender_of_mem (mem_of_dustDepositReturnOf h) rfl

theorem senderOf_isSome_of_hasSender {blocks : List FeatureBlock} (h : hasSender blocks = true) :
    (senderOf blocks).isSome := by
  induction blocks with
  | nil => cases h
  | cons b rest ih =>
    cases b
    case sender => rfl
    all_goals exact ih h

/-- The `*SenderFeatureBlock` assertion: a panic when the set has no sender. -/
def requireSender (set : List FeatureBlock) : Outcome Address :=
  match senderOf set with
  | some a => .ok a
  | none => .error (.panic "interface conversion: interface is nil, not *SenderFeatureBlock")

section Unlock

variable (env : Env) (ctx : SemanticValidationContext)

/-- The alias id of an input-side alias output, derived while zeroed. -/
def aliasIdToUnlock (ws : WorkingSet) (a : AliasOutput) (inputIndex : Nat) : Outcome AliasID :=
  if a.aliasId.empty then
    match ws.tx.essence.inputs[inputIndex]? with
    | some input => .ok ⟨env.hash160 input.ref.bytes⟩
    | none => .error (.panic "index out of range")
  else .ok a.aliasId

/-- `identToUnlockFromMultiIdentOutput`: the state controller, or the governance
controller when the alias is destroyed or keeps its state index. -/
def identToUnlockFromMultiIdentOutput (ws : WorkingSet) (a : AliasOutput) (inputIndex : Nat) :
    Outcome Address := do
  let aliasId ← aliasIdToUnlock env ws a inputIndex
  match ws.outChains.lookup (.alias aliasId) with
  | none => return a.governanceController
  | some (.alias next) =>
    return if a.stateIndex = next.stateIndex then a.governanceController else a.stateController
  | some _ => throw (.panic "interface conversion: ChainConstrainedOutput is not *AliasOutput")

/-- `identToUnlock`: the owner of a single-ident output, or the alias's controller. -/
def identToUnlock (ws : WorkingSet) (o : Output) (inputIndex : Nat) : Outcome Address :=
  match o with
  | .simple s => .ok s.address
  | .extended e => .ok e.address
  | .foundry f => .ok f.address
  | .nft n => .ok n.address
  | .alias a => identToUnlockFromMultiIdentOutput env ws a inputIndex

/-- Whether the expirations present have passed; `false` when there is none. -/
def expirationPassed (expMs : Option UInt32) (expUnix : Option UInt64) : Bool :=
  match expMs, expUnix with
  | some i, some u => i ≤ ctx.confirmingMilestoneIndex && u ≤ ctx.confirmingMilestoneUnix
  | some i, none => i ≤ ctx.confirmingMilestoneIndex
  | none, some u => u ≤ ctx.confirmingMilestoneUnix
  | none, none => false

/-- `checkSenderFeatureBlockIdentUnlock`. -/
def checkSenderFeatureBlockIdentUnlock (o : Output) : Outcome (Option Address) :=
  match o.featureBlocks with
  | none => .ok none
  | some blocks => do
    let set ← liftErr (featureBlocksSet blocks)
    let expMs := expirationMilestoneIndexOf set
    let expUnix := expirationUnixOf set
    if expMs.isNone && expUnix.isNone then return none
    let sender ← requireSender set
    return if expirationPassed ctx expMs expUnix then some sender else none

/-- The identity input `inputIndex` must be unlocked by. -/
def targetIdent (ws : WorkingSet) (o : Output) (inputIndex : Nat) : Outcome Address := do
  let ident ← identToUnlock env ws o inputIndex
  let actual ← checkSenderFeatureBlockIdentUnlock ctx o
  return actual.getD ident

/-- `UnlockedIdents[a.Key()] = uint16(inputIndex)`. -/
def unlockIdent (idents : UnlockedIdentities) (a : Address) (inputIndex : Nat) :
    UnlockedIdentities :=
  idents.insert a.key (UInt16.ofNat inputIndex)

/-- `Tx.UnlockBlocks[inputIndex]`, which panics past the end of the slice. -/
def WorkingSet.unlockBlockAt (ws : WorkingSet) (inputIndex : Nat) : Outcome UnlockBlock :=
  match ws.tx.unlockBlocks[inputIndex]? with
  | some b => .ok b
  | none => .error (.panic "index out of range")

/-- The `ChainConstrainedAddress` case of `unlockOutput`. -/
def unlockChainConstrained (idents : UnlockedIdentities) (o : Output) (target : Address)
    (block : UnlockBlock) (inputIndex : Nat) : Outcome UnlockedIdentities :=
  match block.referential with
  | none => fail (.invalidInputUnlock inputIndex .chainUnlockBlockMismatch)
  | some ref =>
    if !block.chainable || !block.sourceAllowed target then
      fail (.invalidInputUnlock inputIndex .chainUnlockBlockMismatch)
    else if idents.lookup target.key ≠ some ref then
      fail (.invalidInputUnlock inputIndex (.chainAddressNotUnlocked ref))
    else
      match o.chain >>= ChainID.toAddress with
      | some chainAddress => .ok (unlockIdent idents chainAddress inputIndex)
      | none => .ok idents

/-- The `DirectUnlockableAddress` case of `unlockOutput`. -/
def unlockDirect (msg : Bytes) (idents : UnlockedIdentities) (hash : Bytes) (block : UnlockBlock)
    (inputIndex : Nat) : Outcome UnlockedIdentities :=
  let target := Address.ed25519 hash
  match block with
  | .signature sig =>
    match idents.lookup target.key with
    | some index => fail (.invalidInputUnlock inputIndex (.alreadyUnlocked index))
    | none =>
      if env.verify hash msg sig then .ok (unlockIdent idents target inputIndex)
      else fail (.signatureInvalid inputIndex)
  | .reference ref | .alias ref | .nft ref =>
    if block.chainable || !block.sourceAllowed target then
      fail (.invalidInputUnlock inputIndex .directUnlockBlockMismatch)
    else if idents.lookup target.key ≠ some ref then
      fail (.invalidInputUnlock inputIndex (.addressNotUnlocked ref))
    else .ok idents

/-- `unlockOutput`. The working set is read; `UnlockedIdents` is the state it updates. -/
def unlockOutput (ws : WorkingSet) (idents : UnlockedIdentities) (o : Output) (inputIndex : Nat) :
    Outcome UnlockedIdentities := do
  let target ← targetIdent env ctx ws o inputIndex
  let block ← ws.unlockBlockAt inputIndex
  match target with
  | .ed25519 hash => unlockDirect env ws.essenceMsgToSign idents hash block inputIndex
  | .alias _ | .nft _ => unlockChainConstrained idents o target block inputIndex

def WorkingSet.consumedOutput (ws : WorkingSet) (input : UTXOInput) (inputIndex : Nat) :
    Outcome Output :=
  match ws.inputSet.lookup input.ref with
  | some o => .ok o
  | none => fail (.missingUTXO inputIndex)

/-- The loop of `TxSemanticInputUnlocks`, from input `inputIndex` on. -/
def unlockInputs (ws : WorkingSet) :
    UnlockedIdentities → Nat → List UTXOInput → Outcome UnlockedIdentities
  | idents, _, [] => .ok idents
  | idents, inputIndex, input :: rest => do
    let o ← ws.consumedOutput input inputIndex
    let idents ← unlockOutput env ctx ws idents o inputIndex
    unlockInputs ws idents (inputIndex + 1) rest

/-- `TxSemanticInputUnlocks`. -/
def txSemanticInputUnlocks (ws : WorkingSet) : Outcome WorkingSet := do
  let idents ← unlockInputs env ctx ws ws.unlockedIdents 0 ws.tx.essence.inputs
  return { ws with unlockedIdents := idents }

end Unlock

/-- The loop of `TxSemanticOutputsSender`, from output `outputIndex` on. -/
def outputsSender (ws : WorkingSet) : Nat → List Output → Outcome Unit
  | _, [] => .ok ()
  | outputIndex, o :: rest =>
    match o.featureBlocks with
    | none => outputsSender ws (outputIndex + 1) rest
    | some blocks => do
      let set ← liftErr (featureBlocksSet blocks)
      match senderOf set with
      | none => outputsSender ws (outputIndex + 1) rest
      | some sender =>
        if (ws.unlockedIdents.lookup sender.key).isSome then outputsSender ws (outputIndex + 1) rest
        else fail (.senderFeatureBlockNotUnlocked outputIndex)

/-- `TxSemanticOutputsSender`. -/
def txSemanticOutputsSender (ws : WorkingSet) : Outcome Unit :=
  outputsSender ws 0 ws.tx.essence.outputs

end Iotago
