import Iotago.Serializer

namespace Iotago

def maxInputsCount : Nat := 127
def minInputsCount : Nat := 1
def maxOutputsCount : Nat := 127
def minOutputsCount : Nat := 1

/-- `TransactionEssenceMinByteSize`: `TypeDenotationByteSize` (four bytes, though the
essence's type is one byte), two `uint16` counts and the `uint32` payload length. -/
def transactionEssenceMinByteSize : Nat := 4 + 2 + 2 + 4

/-- Modelled from the spec: `TokenSupply`. -/
def tokenSupply : Nat := 2779530283277761

/-- Modelled from the spec: `MaxNativeTokensCount`, an implementation-defined bound. -/
def maxNativeTokensCount : Nat := 256

def inputsArrayBound : ArrayRules := ⟨minInputsCount, maxInputsCount, true⟩
def outputsArrayBound : ArrayRules := ⟨minOutputsCount, maxOutputsCount, false⟩

/-- Modelled from the spec: `InputsPredicateUnique` and
`InputsPredicateIndicesWithinBounds`, run per input as `ValidateInputs` does. -/
def validateInputs : List OutputID → Nat → List UTXOInput → Except Err Unit
  | _, _, [] => .ok ()
  | seen, i, input :: rest => do
    if seen.contains input.ref then throw (.inputUTXORefsNotUnique i)
    if maxOutputsCount ≤ input.transactionOutputIndex.toNat then throw (.refUTXOIndexInvalid i)
    validateInputs (seen ++ [input.ref]) (i + 1) rest

/-- Modelled from the spec: a feature block that needs a sender (an expiration or
a dust deposit return) must come with a `SenderFeatureBlock`. -/
def requiresSender (blocks : List FeatureBlock) : Bool :=
  blocks.any (fun b => b.type == .expirationMilestoneIndex || b.type == .expirationUnix ||
    b.type == .dustDepositReturn)

def hasSender (blocks : List FeatureBlock) : Bool := blocks.any (·.type == .sender)

/-- Modelled from the spec: `OutputsPredicateDepositAmount`,
`OutputsPredicateNativeTokensCount`, `OutputsPredicateSenderFeatureBlockRequirement`
and `OutputsPredicateFoundry`, run per output as `ValidateOutputs` does. -/
def validateOutputs : Nat → Nat → Nat → List Output → Except Err Unit
  | _, _, _, [] => .ok ()
  | depositSum, tokenCount, i, output :: rest => do
    let deposit := output.deposit.toNat
    if deposit = 0 then throw (.depositAmountMustBeGreaterThanZero i)
    if tokenSupply < deposit then throw (.outputDepositsMoreThanTotalSupply i)
    if tokenSupply < depositSum + deposit then throw (.outputsSumExceedsTotalSupply i)
    let tokens := (output.nativeTokens.getD []).length
    if maxNativeTokensCount < tokenCount + tokens then
      throw (.outputsExceedMaxNativeTokensCount i)
    if let some blocks := output.featureBlocks then
      if requiresSender blocks && !hasSender blocks then
        throw (.outputRequiresSenderFeatureBlock i)
    if let .foundry f := output then
      if f.maximumSupply = 0 then throw (.foundryOutputInvalidMaximumSupply i)
      if f.maximumSupply < f.circulatingSupply then
        throw (.foundryOutputInvalidCirculatingSupply i)
    validateOutputs (depositSum + deposit) (tokenCount + tokens) (i + 1) rest

/-- `SyntacticallyValidate`. -/
def TransactionEssence.syntacticallyValidate (e : TransactionEssence) : Except Err Unit := do
  if e.inputs.length = 0 then throw .minInputsNotReached
  if e.outputs.length = 0 then throw .minOutputsNotReached
  validateInputs [] 0 e.inputs
  validateOutputs 0 0 0 e.outputs

structure RentStructure where
  vByteCost : UInt32
  vByteFactorData : UInt8
  vByteFactorKey : UInt8

/-- `DeSerializationParameters`, the decoding context of a transaction. -/
structure DeSerializationParameters where
  minDustDeposit : UInt64
  rentStructure : RentStructure

/-- What the codec calls but the transaction code does not define. -/
structure CodecEnv where
  input : ElementCodec UTXOInput (fun _ => [0])
  output : ElementCodec Output (fun o => [o.outputType])
  payload : ElementCodec Indexation (fun _ => leBytes 4 indexationPayloadTypeID)
  unlockBlock : ElementCodec UnlockBlock (fun u => [u.unlockBlockType])
  /-- `blake2b.Sum256`. -/
  hash : Bytes → Bytes
  outputsPredicateAddrUnique : List Output → Except Err Unit
  essenceRules : TransactionEssence → DeSerializationParameters → Except Err Unit
  outputsRules : TransactionID → List Output → Except Err Unit
  unlockBlocksRules : List UnlockBlock → Except Err Unit

section Codec

variable (env : CodecEnv)

/-- The essence's input selector: only UTXO inputs. -/
def selectInput (ty : UInt8) : Bool := ty == 0

/-- `outputTypeSupportedByTxEssence`. -/
def outputTypeSupportedByTxEssence (ty : UInt8) : Bool := 3 ≤ ty && ty ≤ 7

/-- `UnlockBlockSelector`: signature, reference, alias and NFT unlock blocks. -/
def selectUnlockBlock (ty : UInt8) : Bool := ty ≤ 3

/-- `TransactionEssence.Serialize`. -/
def TransactionEssence.serialize (m : DeSerializationMode) (e : TransactionEssence) :
    Except Err Bytes := do
  if m.performValidation then e.syntacticallyValidate
  let inputs ← writeSlice env.input m m.performValidation e.inputs
  let outputs ← writeSlice env.output m false e.outputs
  let payload ← writePayload env.payload m e.payload
  return [0] ++ inputs ++ outputs ++ payload

/-- `TransactionEssence.Deserialize`, returning the essence and the bytes consumed. -/
def TransactionEssence.deserialize (m : DeSerializationMode) (data : Bytes) :
    Except Err (TransactionEssence × Nat) := do
  if m.performValidation then
    if data.length < transactionEssenceMinByteSize then throw .deserializationNotEnoughData
    if data.head? ≠ some 0 then throw .deserializationTypeMismatch
  let afterType ← match data with
    | [] => throw .deserializationNotEnoughData
    | _ :: rest => pure rest
  let (inputs, afterInputs) ← readSlice env.input m selectInput inputsArrayBound afterType
  let (outputs, afterOutputs) ←
    readSlice env.output m outputTypeSupportedByTxEssence outputsArrayBound afterInputs
  if m.performValidation then env.outputsPredicateAddrUnique outputs
  let (payload, rest) ← readPayload env.payload m afterOutputs
  return (⟨inputs, outputs, payload⟩, data.length - rest.length)

/-- `SigningMessage`: the hash of the validated, lexically ordered encoding. -/
def TransactionEssence.signingMessage (e : TransactionEssence) : Except Err Bytes :=
  env.hash <$> e.serialize env deSeriModeSigning

theorem TransactionEssence.signingMessage_inputs_length_le {e : TransactionEssence} {msg : Bytes}
    (h : e.signingMessage env = .ok msg) : e.inputs.length ≤ 65535 := by
  obtain ⟨b, hb, -⟩ := Except.map_eq_ok.mp h
  simp only [TransactionEssence.serialize, deSeriModeSigning, if_true, Except.bind_eq_ok] at hb
  obtain ⟨_, -, _, hin, -⟩ := hb
  exact writeSlice_length_le _ hin

theorem TransactionEssence.serialize_outputs_length_le {m : DeSerializationMode}
    {e : TransactionEssence} {b : Bytes} (h : e.serialize env m = .ok b) :
    e.outputs.length ≤ 65535 := by
  unfold TransactionEssence.serialize at h
  split at h <;> simp only [pure_bind, Except.bind_eq_ok] at h
  · obtain ⟨_, -, _, -, _, hout, -⟩ := h
    exact writeSlice_length_le _ hout
  · obtain ⟨_, -, _, hout, -⟩ := h
    exact writeSlice_length_le _ hout

end Codec

end Iotago
