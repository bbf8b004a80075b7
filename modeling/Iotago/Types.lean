import Iotago.Basic

/-! Each closed Go interface family is an inductive type; the capability interfaces
(`FeatureBlockOutput`, `ChainConstrainedOutput`, ...) are query functions over it. -/
namespace Iotago

abbrev TransactionID := Bytes

structure AliasID where
  bytes : Bytes
deriving DecidableEq, Repr

structure NFTID where
  bytes : Bytes
deriving DecidableEq, Repr

structure FoundryID where
  bytes : Bytes
deriving DecidableEq, Repr

/-- `Empty()`: the zeroed id an output carries before its chain is created. -/
def AliasID.empty (id : AliasID) : Bool := id.bytes.all (· == 0)

def NFTID.empty (id : NFTID) : Bool := id.bytes.all (· == 0)

/-- Ed25519 is direct-unlockable, Alias and NFT are chain-constrained. -/
inductive Address where
  | ed25519 (hash : Bytes)
  | alias (id : AliasID)
  | nft (id : NFTID)
deriving DecidableEq, Repr

def Address.addressType : Address → UInt8
  | .ed25519 _ => 0
  | .alias _ => 8
  | .nft _ => 16

/-- `Key()`: the serialized address, the key of `UnlockedIdentities`. -/
def Address.key : Address → Bytes
  | .ed25519 h => 0 :: h
  | .alias id => 8 :: id.bytes
  | .nft id => 16 :: id.bytes

def Address.isChainConstrained : Address → Bool
  | .ed25519 _ => false
  | .alias _ | .nft _ => true

theorem Address.key_injective : Function.Injective Address.key := by
  intro a b h
  rcases a with _ | ⟨⟨_⟩⟩ | ⟨⟨_⟩⟩ <;> rcases b with _ | ⟨⟨_⟩⟩ | ⟨⟨_⟩⟩ <;> simp_all [Address.key]

@[simp] theorem Address.key_inj {a b : Address} : a.key = b.key ↔ a = b :=
  Address.key_injective.eq_iff

structure OutputID where
  transactionId : TransactionID
  index : UInt16
deriving DecidableEq, Repr

/-- The 34 bytes of an `OutputID`: transaction id, then the little-endian index. -/
def OutputID.bytes (id : OutputID) : Bytes := id.transactionId ++ leBytes 2 id.index.toNat

structure NativeTokenID where
  foundryId : FoundryID
  tokenTag : Bytes
deriving DecidableEq, Repr

/-- `FoundryID()`: the foundry prefix of a native token id. -/
def NativeTokenID.foundryID (id : NativeTokenID) : FoundryID := id.foundryId

structure NativeToken where
  id : NativeTokenID
  amount : Nat
deriving DecidableEq, Repr

inductive FeatureBlockType where
  | sender | issuer | dustDepositReturn | timelockMilestoneIndex | timelockUnix
  | expirationMilestoneIndex | expirationUnix | metadata | indexation
deriving DecidableEq, Repr

inductive FeatureBlock where
  | sender (address : Address)
  | issuer
  | dustDepositReturn (amount : UInt64)
  | timelockMilestoneIndex (milestoneIndex : UInt32)
  | timelockUnix (unixTime : UInt64)
  | expirationMilestoneIndex (milestoneIndex : UInt32)
  | expirationUnix (unixTime : UInt64)
  | metadata
  | indexation
deriving DecidableEq, Repr

def FeatureBlock.type : FeatureBlock → FeatureBlockType
  | .sender _ => .sender
  | .issuer => .issuer
  | .dustDepositReturn _ => .dustDepositReturn
  | .timelockMilestoneIndex _ => .timelockMilestoneIndex
  | .timelockUnix _ => .timelockUnix
  | .expirationMilestoneIndex _ => .expirationMilestoneIndex
  | .expirationUnix _ => .expirationUnix
  | .metadata => .metadata
  | .indexation => .indexation

structure SimpleOutput where
  address : Address
  amount : UInt64
deriving DecidableEq, Repr

structure ExtendedOutput where
  address : Address
  amount : UInt64
  nativeTokens : List NativeToken
  blocks : List FeatureBlock
deriving DecidableEq, Repr

structure AliasOutput where
  amount : UInt64
  nativeTokens : List NativeToken
  aliasId : AliasID
  stateController : Address
  governanceController : Address
  stateIndex : UInt32
  blocks : List FeatureBlock
deriving DecidableEq, Repr

structure FoundryOutput where
  address : Address
  amount : UInt64
  nativeTokens : List NativeToken
  serialNumber : UInt32
  tokenScheme : UInt8
  circulatingSupply : Nat
  maximumSupply : Nat
  blocks : List FeatureBlock
deriving DecidableEq, Repr

structure NFTOutput where
  address : Address
  amount : UInt64
  nativeTokens : List NativeToken
  nftId : NFTID
  blocks : List FeatureBlock
deriving DecidableEq, Repr

inductive Output where
  | simple (o : SimpleOutput)
  | extended (o : ExtendedOutput)
  | alias (o : AliasOutput)
  | foundry (o : FoundryOutput)
  | nft (o : NFTOutput)
deriving DecidableEq, Repr

/-- The output type byte (`OutputSimple` .. `OutputNFT`). -/
def Output.outputType : Output → UInt8
  | .simple _ => 3
  | .extended _ => 4
  | .alias _ => 5
  | .foundry _ => 6
  | .nft _ => 7

def Output.deposit : Output → UInt64
  | .simple o => o.amount
  | .extended o => o.amount
  | .alias o => o.amount
  | .foundry o => o.amount
  | .nft o => o.amount

/-- `FeatureBlocks()` of a `FeatureBlockOutput`; `none` for the simple output. -/
def Output.featureBlocks : Output → Option (List FeatureBlock)
  | .simple _ => none
  | .extended o => some o.blocks
  | .alias o => some o.blocks
  | .foundry o => some o.blocks
  | .nft o => some o.blocks

/-- `NativeTokenSet()` of a `NativeTokenOutput`; `none` for the simple output. -/
def Output.nativeTokens : Output → Option (List NativeToken)
  | .simple _ => none
  | .extended o => some o.nativeTokens
  | .alias o => some o.nativeTokens
  | .foundry o => some o.nativeTokens
  | .nft o => some o.nativeTokens

/-- The foundry's id: its alias address, serial number and token scheme. -/
def FoundryOutput.id (o : FoundryOutput) : FoundryID :=
  ⟨o.address.key ++ leBytes 4 o.serialNumber.toNat ++ [o.tokenScheme]⟩

inductive ChainID where
  | alias (id : AliasID)
  | nft (id : NFTID)
  | foundry (id : FoundryID)
deriving DecidableEq, Repr

def ChainID.empty : ChainID → Bool
  | .alias id => id.empty
  | .nft id => id.empty
  | .foundry _ => false

/-- `Addressable()` and `ToAddress()`: alias and NFT chains have an address. -/
def ChainID.toAddress : ChainID → Option Address
  | .alias id => some (.alias id)
  | .nft id => some (.nft id)
  | .foundry _ => none

/-- `Chain()` of a `ChainConstrainedOutput`; `none` for the other outputs. -/
def Output.chain : Output → Option ChainID
  | .simple _ | .extended _ => none
  | .alias o => some (.alias o.aliasId)
  | .foundry o => some (.foundry o.id)
  | .nft o => some (.nft o.nftId)

structure UTXOInput where
  transactionId : TransactionID
  transactionOutputIndex : UInt16
deriving DecidableEq, Repr

/-- `Ref()`: the output id the input consumes. -/
def UTXOInput.ref (i : UTXOInput) : OutputID := ⟨i.transactionId, i.transactionOutputIndex⟩

structure Signature where
  publicKey : Bytes
  signature : Bytes
deriving DecidableEq, Repr

inductive UnlockBlock where
  | signature (sig : Signature)
  | reference (ref : UInt16)
  | alias (ref : UInt16)
  | nft (ref : UInt16)
deriving DecidableEq, Repr

def UnlockBlock.unlockBlockType : UnlockBlock → UInt8
  | .signature _ => 0
  | .reference _ => 1
  | .alias _ => 2
  | .nft _ => 3

/-- `Ref()` of a `ReferentialUnlockBlock`; `none` for a signature block. -/
def UnlockBlock.referential : UnlockBlock → Option UInt16
  | .signature _ => none
  | .reference r | .alias r | .nft r => some r

def UnlockBlock.chainable : UnlockBlock → Bool
  | .alias _ | .nft _ => true
  | _ => false

/-- `SourceAllowed(addr)`: a reference block unlocks non-chain addresses, an alias
block alias addresses and an NFT block NFT addresses. -/
def UnlockBlock.sourceAllowed : UnlockBlock → Address → Bool
  | .reference _, a => !a.isChainConstrained
  | .alias _, .alias _ => true
  | .nft _, .nft _ => true
  | _, _ => false

structure Indexation where
  index : Bytes
  data : Bytes
deriving DecidableEq, Repr

structure TransactionEssence where
  inputs : List UTXOInput
  outputs : List Output
  payload : Option Indexation
deriving DecidableEq, Repr

structure Transaction where
  essence : TransactionEssence
  unlockBlocks : List UnlockBlock
deriving DecidableEq, Repr

inductive ChainTransitionType where
  | genesis | stateChange | destroy
deriving DecidableEq, Repr

/-- Why an input unlock was refused; each case is one `ErrInvalidInputUnlock` site. -/
inductive UnlockFailure where
  | chainUnlockBlockMismatch
  | chainAddressNotUnlocked (ref : UInt16)
  | directUnlockBlockMismatch
  | addressNotUnlocked (ref : UInt16)
  | alreadyUnlocked (index : UInt16)
  | milestoneIndexTimelock
  | unixTimelock
deriving DecidableEq, Repr

/-- The errors the modelled functions return, one case per Go error value they wrap. -/
inductive Err where
  | deserializationNotEnoughData
  | deserializationTypeMismatch
  | arrayValidationMinElementsNotReached (count min : Nat)
  | arrayValidationMaxElementsExceeded (count max : Nat)
  | arrayValidationViolatesUniqueness (index : Nat)
  | sliceLengthTooLong (length : Nat)
  | unsupportedObjectType (ty : Nat)
  | unsupportedPayloadType (ty : Nat)
  | unknownTransactionEssenceType (ty : Nat)
  | invalidBytes
  | missingDeSerializationParas
  | element (reason : String)
  | minInputsNotReached
  | minOutputsNotReached
  | inputUTXORefsNotUnique (index : Nat)
  | refUTXOIndexInvalid (index : Nat)
  | depositAmountMustBeGreaterThanZero (index : Nat)
  | outputDepositsMoreThanTotalSupply (index : Nat)
  | outputsSumExceedsTotalSupply (index : Nat)
  | outputsExceedMaxNativeTokensCount (index : Nat)
  | outputRequiresSenderFeatureBlock (index : Nat)
  | foundryOutputInvalidMaximumSupply (index : Nat)
  | foundryOutputInvalidCirculatingSupply (index : Nat)
  | nonUniqueFeatureBlocks
  | missingUTXO (inputIndex : Nat)
  | invalidInputUnlock (inputIndex : Nat) (reason : UnlockFailure)
  | invalidInputTimelock (input : OutputID) (reason : UnlockFailure)
  | signatureInvalid (inputIndex : Nat)
  | senderFeatureBlockNotUnlocked (outputIndex : Nat)
  | inputOutputSumMismatch (inSum outSum : UInt64)
  | returnAmountNotFulFilled (returnSum : UInt64) (outSum : Option UInt64)
  | nativeTokenSumExceedsUint256
  | nativeTokenSumUnbalanced
  | chainTransitionFailed (kind : ChainTransitionType) (chain : ChainID)
deriving DecidableEq, Repr

inductive Failure where
  | error (e : Err)
  | panic (site : String)
deriving DecidableEq, Repr

abbrev Outcome := Except Failure

def fail {α : Type} (e : Err) : Outcome α := .error (.error e)

def liftErr {α : Type} : Except Err α → Outcome α
  | .ok a => .ok a
  | .error e => fail e

end Iotago
