import Iotago.Semantic.OrderFree
import Iotago.Semantic.Authorization

namespace Iotago

/-- A feature block's timelock, if it carries one, is reached at the confirming milestone. -/
def FeatureBlock.timelockReached (ctx : SemanticValidationContext) : FeatureBlock → Bool
  | .timelockMilestoneIndex i => i ≤ ctx.confirmingMilestoneIndex
  | .timelockUnix u => u ≤ ctx.confirmingMilestoneUnix
  | _ => true

theorem timelockBlocks_eq_ok_iff (ctx : SemanticValidationContext) (id : OutputID)
    (blocks : List FeatureBlock) :
    timelockBlocks ctx id blocks = .ok () ↔ ∀ b ∈ blocks, b.timelockReached ctx = true := by
  induction blocks with
  | nil => simp [timelockBlocks]
  | cons b rest ih =>
    cases b <;> simp only [timelockBlocks, fail, Except.ite_error_eq_ok, UInt32.not_lt, UInt64.not_lt,
      ih, FeatureBlock.timelockReached, List.mem_cons, forall_eq_or_imp, decide_eq_true_eq, true_and]

theorem txSemanticTimelock_eq_ok_iff_reached (σ : MapOrder) (ctx : SemanticValidationContext)
    (ws : WorkingSet) : txSemanticTimelock σ ctx ws = .ok () ↔
      ∀ id o, ws.inputSet.lookup id = some o →
        ∀ b ∈ o.featureBlocks.getD [], b.timelockReached ctx = true := by
  rw [txSemanticTimelock_eq_ok_iff, AList.forall_mem_entries_iff]
  refine forall₂_congr fun id o => imp_congr_right fun _ => ?_
  rw [← timelockBlocks_eq_ok_iff ctx id]
  simp only [timelockInputs]
  cases timelockBlocks ctx id (o.featureBlocks.getD []) <;> rfl

section Chains

variable (env : Env)

/-- What `TxSemanticSTVFOnChains` asks of the chains, stated without its loops. -/
structure ChainTransitionsValid (ws : WorkingSet) : Prop where
  inChains : ∀ id c, ws.inChains.lookup id = some c →
    match ws.outChains.lookup id with
    | none => env.stvf .destroy c none ws.view = true
    | some next => env.stvf .stateChange c (some next) ws.view = true
  genesis : ∀ id c, ws.outChains.lookup id = some c → ws.inChains.lookup id = none →
    env.stvf .genesis c none ws.view = true

theorem stvfInChains_singleton (view : WorkingSetView) (outChains : ChainConstrainedOutputsSet)
    (id : ChainID) (c : Output) : stvfInChains env view outChains [⟨id, c⟩] = .ok () ↔
      match outChains.lookup id with
      | none => env.stvf .destroy c none view = true
      | some next => env.stvf .stateChange c (some next) view = true := by
  simp only [stvfInChains]
  split <;> split_ifs <;> simp [stvfInChains, fail, *]

theorem stvfOutChains_singleton (view : WorkingSetView) (inChains : ChainConstrainedOutputsSet)
    (id : ChainID) (c : Output) : stvfOutChains env view inChains [⟨id, c⟩] = .ok () ↔
      (inChains.lookup id = none → env.stvf .genesis c none view = true) := by
  simp only [stvfOutChains]
  split_ifs with failed <;> simp_all [stvfOutChains, fail]

theorem txSemanticSTVFOnChains_eq_ok_iff (σ : MapOrder) (ws : WorkingSet) :
    txSemanticSTVFOnChains env σ ws = .ok () ↔ ChainTransitionsValid env ws := by
  have ins := (stvfInChains_perElement env ws.view ws.outChains).eq_ok_iff
    (σ.inChainsLoop.arrange ws.inChains.entries)
  have outs := (stvfOutChains_perElement env ws.view ws.inChains).eq_ok_iff
    (σ.outChainsLoop.arrange ws.outChains.entries)
  simp only [Arrangement.mem_arrange, AList.forall_mem_entries_iff, stvfInChains_singleton,
    stvfOutChains_singleton] at ins outs
  rw [txSemanticSTVFOnChains, Except.bind_eq_ok]
  exact ⟨fun ⟨(), hin, hout⟩ => ⟨ins.mp hin, outs.mp hout⟩,
    fun valid => ⟨(), ins.mpr valid.inChains, outs.mpr valid.genesis⟩⟩

end Chains

/-- `ctx'` confirms no earlier than `ctx`, by milestone index and by Unix time. -/
structure SemanticValidationContext.Precedes (ctx ctx' : SemanticValidationContext) : Prop where
  index : ctx.confirmingMilestoneIndex ≤ ctx'.confirmingMilestoneIndex
  unix : ctx.confirmingMilestoneUnix ≤ ctx'.confirmingMilestoneUnix

/-- No output of `S` passes its expirations between `ctx` and `ctx'`. -/
def NoExpiryBetween (ctx ctx' : SemanticValidationContext) (S : OutputSet) : Prop :=
  ∀ id o, S.lookup id = some o → ∀ blocks, o.featureBlocks = some blocks →
    expirationPassed ctx' (expirationMilestoneIndexOf blocks) (expirationUnixOf blocks) =
      expirationPassed ctx (expirationMilestoneIndexOf blocks) (expirationUnixOf blocks)

section Later

variable {ctx ctx' : SemanticValidationContext}

theorem FeatureBlock.timelockReached_later (later : ctx.Precedes ctx') {b : FeatureBlock}
    (reached : b.timelockReached ctx = true) : b.timelockReached ctx' = true := by
  cases b <;> simp only [FeatureBlock.timelockReached, decide_eq_true_eq] at reached ⊢
  · exact UInt32.le_trans reached later.index
  · exact UInt64.le_trans reached later.unix

theorem timelockInputs_later (later : ctx.Precedes ctx') :
    ∀ {l : List (Σ _ : OutputID, Output)}, timelockInputs ctx l = .ok () →
      timelockInputs ctx' l = .ok ()
  | [], _ => rfl
  | ⟨id, o⟩ :: rest, h => by
    simp only [timelockInputs, Except.bind_eq_ok] at h ⊢
    obtain ⟨⟨⟩, blocks, h⟩ := h
    refine ⟨(), (timelockBlocks_eq_ok_iff ctx' id _).mpr fun b mem => ?_, timelockInputs_later later h⟩
    exact b.timelockReached_later later ((timelockBlocks_eq_ok_iff ctx id _).mp blocks b mem)

theorem checkSenderFeatureBlockIdentUnlock_congr {o : Output}
    (same : ∀ blocks, o.featureBlocks = some blocks →
      expirationPassed ctx' (expirationMilestoneIndexOf blocks) (expirationUnixOf blocks) =
        expirationPassed ctx (expirationMilestoneIndexOf blocks) (expirationUnixOf blocks)) :
    checkSenderFeatureBlockIdentUnlock ctx' o = checkSenderFeatureBlockIdentUnlock ctx o := by
  unfold checkSenderFeatureBlockIdentUnlock
  split
  · rfl
  · rename_i blocks hblocks
    cases hset : featureBlocksSet blocks with
    | error e => rfl
    | ok set =>
      obtain ⟨-, rfl⟩ := featureBlocksSet_eq_ok.mp hset
      simp only [liftErr, Except.ok_bind', same set hblocks]

theorem unlockInputs_later (env : Env) {ws : WorkingSet} (same : NoExpiryBetween ctx ctx' ws.inputSet)
    (u : UnlockedIdentities) (i : Nat) (inputs : List UTXOInput) :
    unlockInputs env ctx' ws u i inputs = unlockInputs env ctx ws u i inputs := by
  induction inputs generalizing u i with
  | nil => rfl
  | cons input rest ih =>
    simp only [unlockInputs, WorkingSet.consumedOutput]
    split
    · rename_i o consumed
      simp only [Except.ok_bind', unlockOutput, targetIdent,
        checkSenderFeatureBlockIdentUnlock_congr (same _ _ consumed), ih]
    · simp only [fail, Except.error_bind']

/-- A later milestone only reaches more timelocks, and no other check reads it. -/
theorem semanticallyValidate_later (env : Env) {σ : MapOrder} {t : Transaction} {S : OutputSet}
    (later : ctx.Precedes ctx') (same : NoExpiryBetween ctx ctx' S)
    (accepted : semanticallyValidate env σ ctx t S = .ok ()) :
    semanticallyValidate env σ ctx' t S = .ok () := by
  obtain ⟨ws, ws₁, ws₂, h₀, h₁, h₂, h₃, h₄, h₅, h₆⟩ := semanticallyValidate_eq_ok accepted
  have inputs : ws.inputSet = S := by
    obtain ⟨_, _, -, -, rfl⟩ := newSemValiContextWorkingSet_eq_ok h₀
    rfl
  have unlocks : txSemanticInputUnlocks env ctx' ws = .ok ws₁ := by
    rw [← h₁]
    simp only [txSemanticInputUnlocks, unlockInputs_later env (inputs ▸ same)]
  have timelocks : txSemanticTimelock σ ctx' ws₂ = .ok () := timelockInputs_later later h₄
  simp only [semanticallyValidate, h₀, unlocks, h₂, h₃, timelocks, h₅, h₆, Except.ok_bind']

end Later

/-- The inputs of `sampleTx` with the second one timelocked until milestone 3 and
expiring at milestone 9. -/
def sampleTimelockedInputSet : OutputSet :=
  sampleInputSet.insert ⟨[7], 1⟩ (.extended ⟨sampleOwner, 1, [],
    [.sender (.ed25519 [2]), .timelockMilestoneIndex 3, .expirationMilestoneIndex 9]⟩)

theorem sample_accepted_later :
    semanticallyValidate sampleEnv .identity ⟨5, 5⟩ sampleTx sampleTimelockedInputSet = .ok () :=
  semanticallyValidate_later sampleEnv ⟨by decide, by decide⟩ (fun _ o h blocks hblocks => by
      have unexpired : ∀ e ∈ sampleTimelockedInputSet.entries, (e.2.featureBlocks.map fun blocks =>
          expirationPassed ⟨5, 5⟩ (expirationMilestoneIndexOf blocks) (expirationUnixOf blocks) ==
            expirationPassed ⟨3, 0⟩ (expirationMilestoneIndexOf blocks)
              (expirationUnixOf blocks)).getD true = true := by decide
      simpa [hblocks] using unexpired _ (AList.mem_lookup_iff.mp h))
    (rfl : semanticallyValidate sampleEnv .identity ⟨3, 0⟩ sampleTx sampleTimelockedInputSet =
      .ok ())

end Iotago
