import Iotago.Semantic.OrderFree

/-! Which entries of the input set the verdict reads. The deposit, native token,
timelock and chain steps range over the whole `InputSet`, so an entry that no input
references still counts. -/
namespace Iotago

/-- An output that the loops over the whole input set do not see. -/
structure Output.Inert (o : Output) : Prop where
  deposit : o.deposit = 0
  featureBlocks : o.featureBlocks.getD [] = []
  nativeTokens : o.nativeTokens.getD [] = []
  chain : o.chain = none

/-- `ws` with one more consumed output `o` under `k`. -/
def WorkingSet.pad (ws : WorkingSet) (k : OutputID) (o : Output) : WorkingSet :=
  { ws with inputSet := ws.inputSet.insert k o, inputsByType := o :: ws.inputsByType }

def WorkingSetView.withInput (v : WorkingSetView) (k : OutputID) (o : Output) : WorkingSetView :=
  { v with inputSet := Function.update v.inputSet k (some o) }

section Inert

variable {o : Output} (inert : o.Inert)
include inert

theorem Output.Inert.dustDepositReturn : dustDepositReturn o = .ok none := by
  have blocks := inert.featureBlocks
  unfold Iotago.dustDepositReturn
  cases h : o.featureBlocks with
  | none => rfl
  | some blocks' =>
    obtain rfl : blocks' = [] := by simpa [h] using blocks
    rfl

theorem Output.Inert.outputType : o.outputType ≠ 6 := by
  have chain := inert.chain
  cases o <;> simp_all [Output.chain, Output.outputType]

theorem Output.Inert.chainEntries (env : Env) (k : OutputID) (entries : List (Σ _ : OutputID, Output)) :
    chainEntries env (⟨k, o⟩ :: entries) = chainEntries env entries := by
  simp [Iotago.chainEntries, inert.chain]

theorem Output.Inert.nativeTokensOf_filter (l : List Output) :
    nativeTokensOf ((o :: l).filter (·.nativeTokens.isSome)) =
      nativeTokensOf (l.filter (·.nativeTokens.isSome)) := by
  rw [List.filter_cons]
  split <;> simp [nativeTokensOf, inert.nativeTokens]

theorem Output.Inert.depositInputs (k : OutputID) (rest : List (Σ _ : OutputID, Output))
    (inSum : UInt64) (returns : AmountPerIdent) :
    depositInputs (⟨k, o⟩ :: rest) inSum returns = depositInputs rest inSum returns := by
  simp [Iotago.depositInputs, inert.dustDepositReturn, inert.deposit]

theorem Output.Inert.timelockInputs (ctx : SemanticValidationContext) (k : OutputID)
    (rest : List (Σ _ : OutputID, Output)) :
    timelockInputs ctx (⟨k, o⟩ :: rest) = timelockInputs ctx rest := by
  simp [Iotago.timelockInputs, inert.featureBlocks, timelockBlocks]

end Inert

section Steps

variable {env : Env} {ctx : SemanticValidationContext} {k : OutputID} {o : Output}

theorem WorkingSet.pad_entries {ws : WorkingSet} (fresh : k ∉ ws.inputSet) :
    (ws.pad k o).inputSet.entries = ⟨k, o⟩ :: ws.inputSet.entries :=
  AList.insert_entries_of_neg fresh

theorem WorkingSet.view_pad (ws : WorkingSet) : (ws.pad k o).view = ws.view.withInput k o := by
  simp only [WorkingSet.view, WorkingSet.pad, WorkingSetView.withInput, WorkingSetView.mk.injEq,
    true_and, and_true]
  funext id
  by_cases h : id = k
  · subst h; simp
  · simp [AList.lookup_insert_ne h, h]

theorem newSemValiContextWorkingSet_insert {t : Transaction} {S : OutputSet} (fresh : k ∉ S)
    (inert : o.Inert) :
    newSemValiContextWorkingSet env .identity t (S.insert k o) =
      (·.pad k o) <$> newSemValiContextWorkingSet env .identity t S := by
  have chains : inputChainSet env (MapOrder.identity.inChains.arrange (⟨k, o⟩ :: S.entries)) =
      inputChainSet env (MapOrder.identity.inChains.arrange S.entries) := by
    simp only [MapOrder.identity, Arrangement.identity, id, inputChainSet, chainSet, inert.chainEntries]
  simp only [newSemValiContextWorkingSet, AList.insert_entries_of_neg fresh]
  cases liftErr (t.essence.signingMessage env.toCodecEnv) with
  | error => rfl
  | ok msg =>
    cases liftErr (t.id env.toCodecEnv) with
    | error => rfl
    | ok txId => rw [Except.ok_bind', Except.ok_bind', chains]; rfl

theorem txSemanticInputUnlocks_pad {ws : WorkingSet}
    (unreferenced : ∀ input ∈ ws.tx.essence.inputs, input.ref ≠ k) :
    txSemanticInputUnlocks env ctx (ws.pad k o) = (·.pad k o) <$> txSemanticInputUnlocks env ctx ws := by
  have consumed : ∀ input ∈ ws.tx.essence.inputs,
      (ws.pad k o).inputSet.lookup input.ref = ws.inputSet.lookup input.ref :=
    fun input mem => AList.lookup_insert_ne (unreferenced input mem)
  simp only [txSemanticInputUnlocks]
  rw [@unlockInputs_congr env ctx (ws.pad k o) ws rfl rfl rfl (ws.pad k o).tx.essence.inputs consumed]
  dsimp only [WorkingSet.pad]
  cases unlockInputs env ctx ws ws.unlockedIdents 0 ws.tx.essence.inputs <;> rfl

theorem txSemanticDeposit_pad {ws : WorkingSet} (fresh : k ∉ ws.inputSet) (inert : o.Inert) :
    txSemanticDeposit .identity (ws.pad k o) = txSemanticDeposit .identity ws := by
  simp only [txSemanticDeposit, WorkingSet.pad_entries fresh]
  rw [show MapOrder.identity.deposit.arrange (⟨k, o⟩ :: ws.inputSet.entries) =
    ⟨k, o⟩ :: ws.inputSet.entries from rfl, inert.depositInputs]
  rfl

theorem txSemanticNativeTokens_pad {ws : WorkingSet} (inert : o.Inert) :
    txSemanticNativeTokens .identity (ws.pad k o) =
      (·.pad k o) <$> txSemanticNativeTokens .identity ws := by
  have balanced (inSum outSum : NativeTokenSum) :
      nativeTokensBalanced .identity (ws.pad k o) inSum outSum =
        nativeTokensBalanced .identity ws inSum outSum := by
    simp [nativeTokensBalanced, WorkingSet.pad, hasFoundry, inert.outputType]
  simp only [txSemanticNativeTokens, balanced]
  rw [show (ws.pad k o).inputsByType = o :: ws.inputsByType from rfl]
  simp only [MapOrder.identity, Arrangement.identity, id, inert.nativeTokensOf_filter]
  cases liftErr (sumNativeTokens (nativeTokensOf (ws.inputsByType.filter (·.nativeTokens.isSome))) ∅) with
  | error => rfl
  | ok sum =>
    simp only [Except.ok_bind']
    generalize nativeTokensBalanced _ ws sum sum = balanced
    cases balanced <;> rfl

theorem txSemanticTimelock_pad {ws : WorkingSet} (fresh : k ∉ ws.inputSet) (inert : o.Inert) :
    txSemanticTimelock .identity ctx (ws.pad k o) = txSemanticTimelock .identity ctx ws := by
  simp only [txSemanticTimelock, WorkingSet.pad_entries fresh]
  exact inert.timelockInputs ctx k _

theorem txSemanticOutputsSender_pad (ws : WorkingSet) :
    txSemanticOutputsSender (ws.pad k o) = txSemanticOutputsSender ws := by
  rw [txSemanticOutputsSender, txSemanticOutputsSender,
    outputsSender_congr (show (ws.pad k o).unlockedIdents = ws.unlockedIdents from rfl)]
  rfl

theorem stvfInChains_view_congr {v v' : WorkingSetView}
    (same : ∀ ty c next, env.stvf ty c next v = env.stvf ty c next v')
    (outChains : ChainConstrainedOutputsSet) (l : List (Σ _ : ChainID, Output)) :
    stvfInChains env v outChains l = stvfInChains env v' outChains l := by
  induction l with
  | nil => rfl
  | cons e rest ih =>
    obtain ⟨id, c⟩ := e
    simp only [stvfInChains, same, ih]

theorem stvfOutChains_view_congr {v v' : WorkingSetView}
    (same : ∀ ty c next, env.stvf ty c next v = env.stvf ty c next v')
    (inChains : ChainConstrainedOutputsSet) (l : List (Σ _ : ChainID, Output)) :
    stvfOutChains env v inChains l = stvfOutChains env v' inChains l := by
  induction l with
  | nil => rfl
  | cons e rest ih =>
    obtain ⟨id, c⟩ := e
    simp only [stvfOutChains, same, ih]

theorem txSemanticSTVFOnChains_pad (ws : WorkingSet)
    (ignores : ∀ ty c next v, env.stvf ty c next (v.withInput k o) = env.stvf ty c next v) :
    txSemanticSTVFOnChains env .identity (ws.pad k o) = txSemanticSTVFOnChains env .identity ws := by
  simp only [txSemanticSTVFOnChains, WorkingSet.view_pad,
    stvfInChains_view_congr (ignores · · · ws.view), stvfOutChains_view_congr (ignores · · · ws.view)]
  rfl

theorem semanticallyValidate_insert_inert {t : Transaction} {S : OutputSet} (fresh : k ∉ S)
    (unreferenced : ∀ input ∈ t.essence.inputs, input.ref ≠ k) (inert : o.Inert)
    (ignores : ∀ ty c next v, env.stvf ty c next (v.withInput k o) = env.stvf ty c next v) :
    semanticallyValidate env .identity ctx t (S.insert k o) =
      semanticallyValidate env .identity ctx t S := by
  rw [semanticallyValidate, semanticallyValidate, newSemValiContextWorkingSet_insert fresh inert]
  cases built : newSemValiContextWorkingSet env .identity t S with
  | error => rfl
  | ok ws =>
    obtain ⟨_, _, -, -, hws⟩ := newSemValiContextWorkingSet_eq_ok built
    have fresh : k ∉ ws.inputSet := by rw [hws]; exact fresh
    have unreferenced : ∀ input ∈ ws.tx.essence.inputs, input.ref ≠ k := by rw [hws]; exact unreferenced
    show (txSemanticInputUnlocks env ctx (ws.pad k o) >>= _) = txSemanticInputUnlocks env ctx ws >>= _
    rw [txSemanticInputUnlocks_pad unreferenced]
    cases unlocked : txSemanticInputUnlocks env ctx ws with
    | error => rfl
    | ok ws₁ =>
      obtain ⟨u, -, rfl⟩ := txSemanticInputUnlocks_eq_ok unlocked
      show (txSemanticDeposit .identity ((ws.withIdents u).pad k o) >>= _) =
        txSemanticDeposit .identity (ws.withIdents u) >>= _
      rw [txSemanticDeposit_pad (show k ∉ (ws.withIdents u).inputSet from fresh) inert]
      cases txSemanticDeposit .identity (ws.withIdents u) with
      | error => rfl
      | ok =>
        show (txSemanticNativeTokens .identity ((ws.withIdents u).pad k o) >>= _) =
          txSemanticNativeTokens .identity (ws.withIdents u) >>= _
        rw [txSemanticNativeTokens_pad inert]
        cases tokens : txSemanticNativeTokens .identity (ws.withIdents u) with
        | error => rfl
        | ok ws₂ =>
          obtain ⟨_, _, -, hws₂⟩ := txSemanticNativeTokens_eq_ok tokens
          have fresh : k ∉ ws₂.inputSet := by rw [hws₂]; exact fresh
          show (txSemanticTimelock .identity ctx (ws₂.pad k o) >>= _) =
            txSemanticTimelock .identity ctx ws₂ >>= _
          rw [txSemanticTimelock_pad fresh inert, txSemanticOutputsSender_pad,
            txSemanticSTVFOnChains_pad _ ignores]

end Steps

/-- A sample: one input spends a simple output; `sampleExtra` is an unreferenced id. -/
def sampleSpendInputs : List UTXOInput := [⟨[6], 0⟩]

def sampleSpendOutputs : List Output := [.simple ⟨.ed25519 [1], 1⟩]

def sampleSpendBlocks : List UnlockBlock := [.signature ⟨[], []⟩]

def sampleSpendTx : Transaction := ⟨⟨sampleSpendInputs, sampleSpendOutputs, none⟩, sampleSpendBlocks⟩

def sampleSpendInputSet : OutputSet := (∅ : OutputSet).insert ⟨[6], 0⟩ (.simple ⟨.ed25519 [1], 1⟩)

def sampleSpendEnv : Env :=
  .indexed sampleSpendInputs sampleSpendOutputs sampleSpendBlocks (by decide) (by decide) (by decide)

def sampleExtra : OutputID := ⟨[6], 1⟩

end Iotago
