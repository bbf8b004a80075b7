import Iotago.Transaction

/-! The working set of a semantic validation. Go maps are association lists; every
`range` over one visits its entries in the order of that loop's `Arrangement`. -/
namespace Iotago

abbrev OutputSet := AList (fun _ : OutputID => Output)
abbrev UnlockedIdentities := AList (fun _ : Bytes => UInt16)
abbrev ChainConstrainedOutputsSet := AList (fun _ : ChainID => Output)
abbrev NativeTokenSum := AList (fun _ : NativeTokenID => Nat)
abbrev AmountPerIdent := AList (fun _ : Bytes => UInt64)

/-- The order of every `range` over a map that semantic validation makes. -/
structure MapOrder where
  inputsByType : Arrangement (Σ _ : OutputID, Output)
  inChains : Arrangement (Σ _ : OutputID, Output)
  inTokenOutputs : Arrangement Output
  outTokenOutputs : Arrangement Output
  deposit : Arrangement (Σ _ : OutputID, Output)
  returnAmounts : Arrangement (Σ _ : Bytes, UInt64)
  inNativeTokens : Arrangement (Σ _ : NativeTokenID, Nat)
  outNativeTokens : Arrangement (Σ _ : NativeTokenID, Nat)
  timelock : Arrangement (Σ _ : OutputID, Output)
  inChainsLoop : Arrangement (Σ _ : ChainID, Output)
  outChainsLoop : Arrangement (Σ _ : ChainID, Output)

def MapOrder.identity : MapOrder :=
  ⟨.identity _, .identity _, .identity _, .identity _, .identity _, .identity _, .identity _,
    .identity _, .identity _, .identity _, .identity _⟩

def MapOrder.reversed : MapOrder :=
  ⟨.reversed _, .reversed _, .reversed _, .reversed _, .reversed _, .reversed _, .reversed _,
    .reversed _, .reversed _, .reversed _, .reversed _⟩

structure SemanticValidationContext where
  confirmingMilestoneIndex : UInt32
  confirmingMilestoneUnix : UInt64

/-- `SemValiContextWorkingSet`. `inputsByType` and `outputsByType` are the slices
that `ToOutputsByType` groups; grouping is read only through `hasFoundry`. -/
structure WorkingSet where
  unlockedIdents : UnlockedIdentities
  inputSet : OutputSet
  tx : Transaction
  essenceMsgToSign : Bytes
  inputsByType : List Output
  inChains : ChainConstrainedOutputsSet
  inNativeTokens : NativeTokenSum
  outputsByType : List Output
  outChains : ChainConstrainedOutputsSet
  outNativeTokens : NativeTokenSum

/-- The working set as a state transition function sees it: maps by lookup. -/
structure WorkingSetView where
  unlockedIdents : Bytes → Option UInt16
  inputSet : OutputID → Option Output
  tx : Transaction
  essenceMsgToSign : Bytes
  inChains : ChainID → Option Output
  outChains : ChainID → Option Output
  inNativeTokens : NativeTokenID → Option Nat
  outNativeTokens : NativeTokenID → Option Nat

def WorkingSet.view (ws : WorkingSet) : WorkingSetView :=
  ⟨(ws.unlockedIdents.lookup ·), (ws.inputSet.lookup ·), ws.tx, ws.essenceMsgToSign,
    (ws.inChains.lookup ·), (ws.outChains.lookup ·), (ws.inNativeTokens.lookup ·),
    (ws.outNativeTokens.lookup ·)⟩

/-- The capabilities semantic validation consumes: the codec environment,
`blake2b-160` for chain ids, Ed25519 verification and each chain's
`ValidateStateTransition`, dispatched on the input-side (or genesis) output.
Go hands `ValidateStateTransition` the whole `svCtx`; the `WorkingSetView` it sees
here leaves out the confirming milestone and `InputsByType`. -/
structure Env extends CodecEnv where
  hash160 : Bytes → Bytes
  verify : Bytes → Bytes → Signature → Bool
  stvf : ChainTransitionType → Output → Option Output → WorkingSetView → Bool

/-- An environment to run the model in: indexing codecs, identity hashes, and a
verifier and state transitions that accept everything. -/
def Env.indexed (inputs : List UTXOInput) (outputs : List Output) (blocks : List UnlockBlock)
    (hi : inputs.length ≤ 256) (ho : outputs.length ≤ 256) (hb : blocks.length ≤ 256) : Env where
  input := .indexed 1 (fun _ => rfl) inputs hi
  output := .indexed 1 (fun _ => rfl) outputs ho
  payload := .indexed 4 (fun _ => leBytes_length 4 _) [] (Nat.zero_le _)
  unlockBlock := .indexed 1 (fun _ => rfl) blocks hb
  hash := id
  outputsPredicateAddrUnique _ := .ok ()
  essenceRules _ _ := .ok ()
  outputsRules _ _ := .ok ()
  unlockBlocksRules _ := .ok ()
  hash160 := id
  verify _ _ _ := true
  stvf _ _ _ _ := true

theorem lookup_foldl_insert_mem {α : Type} [DecidableEq α] {β : α → Type} {E : List (Sigma β)}
    {acc : AList β} {k : α} {v : β k}
    (h : (E.foldl (fun set e => set.insert e.1 e.2) acc).lookup k = some v) :
    ⟨k, v⟩ ∈ E ∨ acc.lookup k = some v := by
  induction E generalizing acc with
  | nil => exact .inr h
  | cons x rest ih =>
    rcases ih h with mem | old
    · exact .inl (.tail _ mem)
    · by_cases hk : k = x.1
      · subst hk
        rw [AList.lookup_insert, Option.some.injEq] at old
        subst old
        exact .inl (.head _)
      · exact .inr (by rwa [AList.lookup_insert_ne hk] at old)

theorem lookup_foldl_insert_of_nodupKeys {α : Type} [DecidableEq α] {β : α → Type}
    {E : List (Sigma β)} (acc : AList β) (k : α) (nodup : E.NodupKeys) :
    (E.foldl (fun set e => set.insert e.1 e.2) acc).lookup k = (E.dlookup k).or (acc.lookup k) := by
  induction E generalizing acc with
  | nil => simp
  | cons x rest ih =>
    obtain ⟨k', v⟩ := x
    obtain ⟨fresh, nodup⟩ := List.nodupKeys_cons.mp nodup
    rw [List.foldl_cons, ih _ nodup]
    by_cases hk : k = k'
    · subst hk
      simp [List.dlookup_eq_none.mpr fresh, AList.lookup_insert, List.dlookup_cons_eq]
    · simp [AList.lookup_insert_ne hk, List.dlookup_cons_ne rest ⟨k', v⟩ hk]

section Chains

variable (env : Env)

/-- `UTXOIDChainID.FromOutputID`: alias and NFT ids hash the output id; a foundry
id is not derived. -/
def ChainID.fromOutputID : ChainID → OutputID → ChainID
  | .alias _, id => .alias ⟨env.hash160 id.bytes⟩
  | .nft _, id => .nft ⟨env.hash160 id.bytes⟩
  | c@(.foundry _), _ => c

/-- A chain id, derived from the output id while zeroed. -/
def chainKey (id : OutputID) (c : ChainID) : ChainID :=
  if c.empty then c.fromOutputID env id else c

def chainEntries (entries : List (Σ _ : OutputID, Output)) : List (Σ _ : ChainID, Output) :=
  entries.filterMap fun e => e.2.chain.map fun c => ⟨chainKey env e.1 c, e.2⟩

/-- Modelled from the spec: a `ChainConstrainedOutputsSet` filled in loop order by map
assignment. -/
def chainSet (entries : List (Σ _ : OutputID, Output)) : ChainConstrainedOutputsSet :=
  (chainEntries env entries).foldl (fun set e => set.insert e.1 e.2) ∅

/-- Modelled from the spec: `ChainConstrainedOutputSet` of an `OutputSet`. -/
def inputChainSet (entries : List (Σ _ : OutputID, Output)) : ChainConstrainedOutputsSet :=
  chainSet env entries

/-- Modelled from the spec: `Outputs.ChainConstrainedOutputSet(txID)`; slot `i` has
output id `(txID, uint16(i))`. -/
def outputChainSet (txId : TransactionID) (outputs : List Output) : ChainConstrainedOutputsSet :=
  chainSet env (outputs.enum.map fun p => ⟨⟨txId, UInt16.ofNat p.1⟩, p.2⟩)

theorem chainSet_lookup_mem {entries : List (Σ _ : OutputID, Output)} {k : ChainID} {o : Output}
    (h : (chainSet env entries).lookup k = some o) : ⟨k, o⟩ ∈ chainEntries env entries :=
  (lookup_foldl_insert_mem h).resolve_right (by simp)

theorem chainSet_lookup {entries : List (Σ _ : OutputID, Output)}
    (nodup : (chainEntries env entries).NodupKeys) (k : ChainID) :
    (chainSet env entries).lookup k = (chainEntries env entries).dlookup k := by
  simp [chainSet, lookup_foldl_insert_of_nodupKeys ∅ k nodup]

end Chains

/-- `NewSemValiContextWorkingSet`. -/
def newSemValiContextWorkingSet (env : Env) (σ : MapOrder) (t : Transaction) (inputs : OutputSet) :
    Outcome WorkingSet := do
  let msg ← liftErr (t.essence.signingMessage env.toCodecEnv)
  let inputsByType := (σ.inputsByType.arrange inputs.entries).map (·.2)
  let txId ← liftErr (t.id env.toCodecEnv)
  return { unlockedIdents := ∅, inputSet := inputs, tx := t, essenceMsgToSign := msg,
           inputsByType := inputsByType,
           inChains := inputChainSet env (σ.inChains.arrange inputs.entries),
           inNativeTokens := ∅, outputsByType := t.essence.outputs,
           outChains := outputChainSet env txId t.essence.outputs, outNativeTokens := ∅ }

end Iotago
