import Iotago.Semantic.Validate

/-! What each step of semantic validation can do, said once; later proofs cite these
lemmas and never unfold the steps again. -/
namespace Iotago

variable {env : Env} {ctx : SemanticValidationContext} {σ : MapOrder}

theorem liftErr_eq_ok {α : Type} {x : Except Err α} {a : α} : liftErr x = .ok a ↔ x = .ok a := by
  cases x <;> simp [liftErr, fail]

theorem newSemValiContextWorkingSet_eq_ok {t : Transaction} {S : OutputSet} {ws : WorkingSet}
    (h : newSemValiContextWorkingSet env σ t S = .ok ws) :
    ∃ msg txId, t.essence.signingMessage env.toCodecEnv = .ok msg ∧
      t.id env.toCodecEnv = .ok txId ∧
      ws = { unlockedIdents := ∅, inputSet := S, tx := t, essenceMsgToSign := msg,
             inputsByType := (σ.inputsByType.arrange S.entries).map (·.2),
             inChains := inputChainSet env (σ.inChains.arrange S.entries),
             inNativeTokens := ∅, outputsByType := t.essence.outputs,
             outChains := outputChainSet env txId t.essence.outputs, outNativeTokens := ∅ } := by
  simp only [newSemValiContextWorkingSet, Except.bind_eq_ok, liftErr_eq_ok] at h
  obtain ⟨msg, hmsg, txId, hid, h⟩ := h
  exact ⟨msg, txId, hmsg, hid, (Except.ok.inj h).symm⟩

theorem semanticallyValidate_eq_ok {t : Transaction} {S : OutputSet}
    (h : semanticallyValidate env σ ctx t S = .ok ()) :
    ∃ ws ws₁ ws₂, newSemValiContextWorkingSet env σ t S = .ok ws ∧
      txSemanticInputUnlocks env ctx ws = .ok ws₁ ∧ txSemanticDeposit σ ws₁ = .ok () ∧
      txSemanticNativeTokens σ ws₁ = .ok ws₂ ∧ txSemanticTimelock σ ctx ws₂ = .ok () ∧
      txSemanticOutputsSender ws₂ = .ok () ∧ txSemanticSTVFOnChains env σ ws₂ = .ok () := by
  simp only [semanticallyValidate, Except.bind_eq_ok] at h
  obtain ⟨ws, h₀, ws₁, h₁, ⟨⟩, h₂, ws₂, h₃, ⟨⟩, h₄, ⟨⟩, h₅, h₆⟩ := h
  exact ⟨ws, ws₁, ws₂, h₀, h₁, h₂, h₃, h₄, h₅, h₆⟩

def WorkingSet.withIdents (ws : WorkingSet) (u : UnlockedIdentities) : WorkingSet :=
  { ws with unlockedIdents := u }

@[simp] theorem WorkingSet.withIdents_unlockedIdents (ws : WorkingSet) (u : UnlockedIdentities) :
    (ws.withIdents u).unlockedIdents = u := rfl

@[simp] theorem WorkingSet.withIdents_tx (ws : WorkingSet) (u : UnlockedIdentities) :
    (ws.withIdents u).tx = ws.tx := rfl

theorem txSemanticInputUnlocks_eq_ok {ws ws' : WorkingSet}
    (h : txSemanticInputUnlocks env ctx ws = .ok ws') :
    ∃ u, unlockInputs env ctx ws ws.unlockedIdents 0 ws.tx.essence.inputs = .ok u ∧
      ws' = ws.withIdents u := by
  simp only [txSemanticInputUnlocks, Except.bind_eq_ok] at h
  obtain ⟨u, hu, h⟩ := h
  exact ⟨u, hu, (Except.ok.inj h).symm⟩

theorem unlockBlockAt_eq_ok {ws : WorkingSet} {i : Nat} {b : UnlockBlock} :
    ws.unlockBlockAt i = .ok b ↔ ws.tx.unlockBlocks[i]? = some b := by
  cases hb : ws.tx.unlockBlocks[i]? <;> simp [WorkingSet.unlockBlockAt, hb]

theorem consumedOutput_eq_ok {ws : WorkingSet} {input : UTXOInput} {i : Nat} {o : Output} :
    ws.consumedOutput input i = .ok o ↔ ws.inputSet.lookup input.ref = some o := by
  cases ho : ws.inputSet.lookup input.ref <;> simp [WorkingSet.consumedOutput, ho, fail]

theorem unlockDirect_eq_ok {msg : Bytes} {u u' : UnlockedIdentities} {hash : Bytes}
    {b : UnlockBlock} {i : Nat} (h : unlockDirect env msg u hash b i = .ok u') :
    (∃ sig, b = .signature sig ∧ u.lookup (Address.ed25519 hash).key = none ∧
        env.verify hash msg sig = true ∧ u' = unlockIdent u (.ed25519 hash) i) ∨
      (∃ ref, b = .reference ref ∧ u.lookup (Address.ed25519 hash).key = some ref ∧ u' = u) := by
  cases b with
  | signature sig =>
    simp only [unlockDirect] at h
    split at h
    · simp [fail] at h
    · split at h <;> simp_all [fail]
  | reference ref =>
    simp only [unlockDirect, UnlockBlock.chainable, UnlockBlock.sourceAllowed,
      Address.isChainConstrained] at h
    split_ifs at h <;> simp_all [fail]
  | _ => simp [unlockDirect, UnlockBlock.chainable, fail] at h

theorem unlockChainConstrained_eq_ok {u u' : UnlockedIdentities} {o : Output} {a : Address}
    {b : UnlockBlock} {i : Nat} (h : unlockChainConstrained u o a b i = .ok u') :
    ∃ ref, b.referential = some ref ∧ b.chainable ∧ b.sourceAllowed a ∧
      u.lookup a.key = some ref ∧ (u' = u ∨ ∃ c, u' = unlockIdent u c i) := by
  unfold unlockChainConstrained at h
  split at h
  · simp [fail] at h
  · rename_i ref href
    split at h
    · simp [fail] at h
    · split at h
      · simp [fail] at h
      · refine ⟨ref, href, by simp_all, by simp_all, by simp_all, ?_⟩
        split at h <;> simp only [Except.ok.injEq] at h <;> [exact .inr ⟨_, h.symm⟩; exact .inl h.symm]

theorem unlockOutput_eq_ok {ws : WorkingSet} {u u' : UnlockedIdentities} {o : Output} {i : Nat}
    (h : unlockOutput env ctx ws u o i = .ok u') :
    ∃ target block, targetIdent env ctx ws o i = .ok target ∧
      ws.tx.unlockBlocks[i]? = some block ∧
      ((∃ hash, target = .ed25519 hash ∧ unlockDirect env ws.essenceMsgToSign u hash block i = .ok u') ∨
        (target.isChainConstrained ∧ unlockChainConstrained u o target block i = .ok u')) := by
  simp only [unlockOutput, Except.bind_eq_ok, unlockBlockAt_eq_ok] at h
  obtain ⟨target, ht, block, hb, h⟩ := h
  refine ⟨target, block, ht, hb, ?_⟩
  cases target <;> simp_all [Address.isChainConstrained]

theorem txSemanticNativeTokens_eq_ok {ws ws' : WorkingSet} (h : txSemanticNativeTokens σ ws = .ok ws') :
    ∃ inSum outSum, nativeTokensBalanced σ ws inSum outSum = .ok () ∧
      ws' = { ws with inNativeTokens := inSum, outNativeTokens := outSum } := by
  simp only [txSemanticNativeTokens, Except.bind_eq_ok] at h
  obtain ⟨inSum, -, outSum, -, ⟨⟩, hb, h⟩ := h
  exact ⟨inSum, outSum, hb, (Except.ok.inj h).symm⟩

theorem outputsSender_cons_eq_ok {ws : WorkingSet} {n : Nat} {o : Output} {rest : List Output}
    (h : outputsSender ws n (o :: rest) = .ok ()) :
    outputsSender ws (n + 1) rest = .ok () ∧ ∀ blocks, o.featureBlocks = some blocks →
      featureBlocksSet blocks = .ok blocks ∧
      ∀ a, senderOf blocks = some a → (ws.unlockedIdents.lookup a.key).isSome := by
  unfold outputsSender at h
  split at h
  · simp_all
  · rename_i blocks hblocks
    simp only [Except.bind_eq_ok, liftErr_eq_ok] at h
    obtain ⟨set, hset, h⟩ := h
    obtain ⟨-, rfl⟩ := featureBlocksSet_eq_ok.mp hset
    refine ⟨?_, fun _ hb => ?_⟩
    · split at h
      · exact h
      · split_ifs at h <;> simp_all [fail]
    · cases hblocks.symm.trans hb
      refine ⟨hset, fun a ha => ?_⟩
      simp only [ha] at h
      split_ifs at h with found <;> simp_all [fail]

theorem outputsSender_unlocked {ws : WorkingSet} {n : Nat} {outs : List Output}
    (accepted : outputsSender ws n outs = .ok ()) {o : Output} (mem : o ∈ outs)
    {blocks : List FeatureBlock} {a : Address} (hblocks : o.featureBlocks = some blocks)
    (named : FeatureBlock.sender a ∈ blocks) : (ws.unlockedIdents.lookup a.key).isSome := by
  induction outs generalizing n with
  | nil => cases mem
  | cons o' rest ih =>
    obtain ⟨tail, head⟩ := outputsSender_cons_eq_ok accepted
    rcases List.mem_cons.mp mem with rfl | mem
    · obtain ⟨hset, found⟩ := head blocks hblocks
      exact found a (senderOf_eq_of_mem (featureBlocksSet_eq_ok.mp hset).1 named)
    · exact ih tail mem

end Iotago
