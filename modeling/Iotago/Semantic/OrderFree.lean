import Iotago.Semantic.Deposit
import Iotago.Semantic.NativeTokens

/-! The verdict of `SemanticallyValidate` and the order of its map loops. The one map
whose lookups can depend on the order is `InChains`: of two consumed outputs under
one chain id the later one is kept. -/
namespace Iotago

section Loops

variable {α ε : Type}

/-- A loop that checks each element on its own: it passes on `x :: rest` exactly when
it passes on `x` alone and on `rest`. -/
structure PerElement (f : List α → Except ε Unit) : Prop where
  nil : f [] = .ok ()
  cons : ∀ x rest, f (x :: rest) = .ok () ↔ f [x] = .ok () ∧ f rest = .ok ()

theorem PerElement.eq_ok_iff {f : List α → Except ε Unit} (hf : PerElement f) (l : List α) :
    f l = .ok () ↔ ∀ x ∈ l, f [x] = .ok () := by
  induction l with
  | nil => simpa using hf.nil
  | cons x rest ih => rw [hf.cons, ih, List.forall_mem_cons]

theorem PerElement.congr {f g : List α → Except ε Unit} (hf : PerElement f) (hg : PerElement g)
    (single : ∀ x, f [x] = g [x]) {l l' : List α} (p : l.Perm l') :
    f l = .ok () ↔ g l' = .ok () := by
  rw [hf.eq_ok_iff, hg.eq_ok_iff]
  exact forall_congr' fun x => imp_congr p.mem_iff (by rw [single])

end Loops

theorem AList.forall_mem_entries_iff {α : Type} [DecidableEq α] {β : α → Type} {s : AList β}
    {P : Sigma β → Prop} : (∀ e ∈ s.entries, P e) ↔ ∀ k v, s.lookup k = some v → P ⟨k, v⟩ :=
  ⟨fun h _ _ look => h _ (AList.mem_lookup_iff.mp look),
    fun h e mem => h e.1 e.2 (AList.mem_lookup_iff.mpr mem)⟩

theorem AList.entries_perm_of_lookup {α : Type} [DecidableEq α] {β : α → Type} {s s' : AList β}
    (same : ∀ k, s.lookup k = s'.lookup k) : s.entries.Perm s'.entries :=
  List.lookup_ext s.nodupKeys s'.nodupKeys fun k _ => by
    rw [← AList.lookup, same, AList.lookup]

theorem timelockInputs_perElement (ctx : SemanticValidationContext) :
    PerElement (timelockInputs ctx) :=
  ⟨rfl, fun _ _ => by simp [timelockInputs, Except.bind_eq_ok]⟩

theorem checkTokenSums_perElement (outChains : ChainConstrainedOutputsSet) (other : NativeTokenSum) :
    PerElement (checkTokenSums outChains other) := by
  refine ⟨rfl, fun ⟨id, s⟩ rest => ?_⟩
  simp only [checkTokenSums]
  split_ifs <;> simp [checkTokenSums, fail, *]

theorem stvfInChains_perElement (env : Env) (view : WorkingSetView)
    (outChains : ChainConstrainedOutputsSet) : PerElement (stvfInChains env view outChains) := by
  refine ⟨rfl, fun ⟨id, c⟩ rest => ?_⟩
  simp only [stvfInChains]
  split <;> split_ifs <;> simp [stvfInChains, fail]

theorem stvfOutChains_perElement (env : Env) (view : WorkingSetView)
    (inChains : ChainConstrainedOutputsSet) : PerElement (stvfOutChains env view inChains) := by
  refine ⟨rfl, fun ⟨id, c⟩ rest => ?_⟩
  simp only [stvfOutChains]
  split_ifs <;> simp [stvfOutChains, fail]

theorem txSemanticTimelock_eq_ok_iff (σ : MapOrder) (ctx : SemanticValidationContext)
    (ws : WorkingSet) : txSemanticTimelock σ ctx ws = .ok () ↔
      ∀ e ∈ ws.inputSet.entries, timelockInputs ctx [e] = .ok () := by
  rw [txSemanticTimelock, (timelockInputs_perElement ctx).eq_ok_iff]
  exact forall_congr' fun e => imp_congr_left σ.timelock.mem_arrange

theorem balanced_eq_ok_iff {a b : NativeTokenSum} :
    balanced a b = .ok () ↔ ∀ id, a.lookup id = b.lookup id := by
  refine ⟨fun h id => Option.ext fun v => ?_, balanced_of_lookup_eq⟩
  unfold balanced at h
  split_ifs at h with accepted
  simp only [Bool.and_eq_true, List.all_eq_true, beq_iff_eq] at accepted
  exact ⟨fun ha => accepted.1 ⟨id, v⟩ (AList.mem_lookup_iff.mp ha),
    fun hb => accepted.2 ⟨id, v⟩ (AList.mem_lookup_iff.mp hb)⟩

/-- Two working sets that semantic validation cannot tell apart. -/
structure WorkingSet.Agree (a b : WorkingSet) : Prop where
  unlockedIdents : a.unlockedIdents = b.unlockedIdents
  inputSet : a.inputSet = b.inputSet
  tx : a.tx = b.tx
  essenceMsgToSign : a.essenceMsgToSign = b.essenceMsgToSign
  inputsByType : a.inputsByType.Perm b.inputsByType
  inChains : ∀ id, a.inChains.lookup id = b.inChains.lookup id
  inNativeTokens : ∀ id, a.inNativeTokens.lookup id = b.inNativeTokens.lookup id
  outputsByType : a.outputsByType = b.outputsByType
  outChains : a.outChains = b.outChains
  outNativeTokens : ∀ id, a.outNativeTokens.lookup id = b.outNativeTokens.lookup id

theorem WorkingSet.Agree.view_eq {a b : WorkingSet} (h : a.Agree b) : a.view = b.view := by
  simp only [WorkingSet.view, h.unlockedIdents, h.inputSet, h.tx, h.essenceMsgToSign, h.outChains,
    WorkingSetView.mk.injEq, true_and]
  exact ⟨funext h.inChains, funext h.inNativeTokens, funext h.outNativeTokens⟩

section Steps

variable (env : Env) (ctx : SemanticValidationContext)

theorem unlockOutput_congr {a b : WorkingSet} (tx : a.tx = b.tx)
    (outChains : a.outChains = b.outChains) (msg : a.essenceMsgToSign = b.essenceMsgToSign) :
    unlockOutput env ctx a = unlockOutput env ctx b := by
  funext u o i
  simp only [unlockOutput, targetIdent, identToUnlock, identToUnlockFromMultiIdentOutput,
    aliasIdToUnlock, WorkingSet.unlockBlockAt, tx, outChains, msg]

theorem unlockInputs_congr {a b : WorkingSet} (tx : a.tx = b.tx)
    (outChains : a.outChains = b.outChains) (msg : a.essenceMsgToSign = b.essenceMsgToSign)
    {inputs : List UTXOInput}
    (consumed : ∀ input ∈ inputs, a.inputSet.lookup input.ref = b.inputSet.lookup input.ref)
    (u : UnlockedIdentities) (i : Nat) :
    unlockInputs env ctx a u i inputs = unlockInputs env ctx b u i inputs := by
  induction inputs generalizing u i with
  | nil => rfl
  | cons input rest ih =>
    simp only [unlockInputs, WorkingSet.consumedOutput, consumed input (.head _),
      unlockOutput_congr env ctx tx outChains msg, ih fun x mem => consumed x (.tail _ mem)]

theorem outputsSender_congr {a b : WorkingSet} (idents : a.unlockedIdents = b.unlockedIdents) :
    outputsSender a = outputsSender b := by
  funext n outs
  induction outs generalizing n with
  | nil => rfl
  | cons o rest ih => simp only [outputsSender, idents, ih]

end Steps

section Agreement

variable {env : Env} {ctx : SemanticValidationContext} {σ σ' : MapOrder}

theorem hasFoundry_perm {l l' : List Output} (p : l.Perm l') : hasFoundry l = hasFoundry l' := by
  rw [Bool.eq_iff_iff]
  simp only [hasFoundry, List.any_eq_true]
  exact exists_congr fun _ => and_congr_left' p.mem_iff

theorem txSemanticDeposit_congr {a b : WorkingSet} (agree : a.Agree b)
    (h : txSemanticDeposit σ a = .ok ()) : txSemanticDeposit σ' b = .ok () := by
  unfold txSemanticDeposit at h ⊢
  rw [← agree.inputSet, ← agree.tx]
  have p : (σ.deposit.arrange a.inputSet.entries).Perm (σ'.deposit.arrange a.inputSet.entries) :=
    (σ.deposit.perm _).trans (σ'.deposit.perm _).symm
  simp only [Except.bind_eq_ok] at h
  obtain ⟨⟨inSum, returns⟩, hin, h⟩ := h
  obtain ⟨⟨inSum', returns'⟩, hin'⟩ := depositInputs_isOk.mpr fun e mem =>
    depositInputs_isOk.mp ⟨_, hin⟩ e (p.mem_iff.mpr mem)
  obtain ⟨sum, rfl⟩ := depositInputs_eq_ok hin
  obtain ⟨sum', rfl⟩ := depositInputs_eq_ok hin'
  obtain rfl : inSum' = inSum :=
    UInt64.toNat.inj (by rw [sum, sum', depositTotal_perm (p.map _)])
  have owed (ident : Bytes) : (addAmounts ∅ (returnsOwed (σ'.deposit.arrange a.inputSet.entries))).lookup
      ident = (addAmounts ∅ (returnsOwed (σ.deposit.arrange a.inputSet.entries))).lookup ident := by
    simp only [addAmounts_empty_lookup, amountTotal_perm ident (returnsOwed_perm p),
      ((returnsOwed_perm p).map Prod.fst).mem_iff]
  rw [hin', Except.ok_bind']
  generalize depositOutputs a.tx.essence.outputs 0 ∅ = out at h ⊢
  dsimp only at h ⊢
  split_ifs at h ⊢
  · cases h
  · rw [checkReturnAmounts_eq_ok] at h ⊢
    exact fun r mem => h r (σ.returnAmounts.mem_arrange.mpr
      ((AList.entries_perm_of_lookup owed).mem_iff.mp (σ'.returnAmounts.mem_arrange.mp mem)))

theorem checkTokenSums_congr (x y : Arrangement (Σ _ : NativeTokenID, Nat))
    (outChains : ChainConstrainedOutputsSet) {other other' sum sum' : NativeTokenSum}
    (sameOther : ∀ id, other.lookup id = other'.lookup id)
    (sameSum : ∀ id, sum.lookup id = sum'.lookup id) :
    checkTokenSums outChains other (x.arrange sum.entries) = .ok () ↔
      checkTokenSums outChains other' (y.arrange sum'.entries) = .ok () :=
  (checkTokenSums_perElement outChains other).congr (checkTokenSums_perElement outChains other')
    (fun ⟨id, s⟩ => by simp only [checkTokenSums, sameOther])
    ((x.perm _).trans ((AList.entries_perm_of_lookup sameSum).trans (y.perm _).symm))

theorem nativeTokensBalanced_congr {a b : WorkingSet} (agree : a.Agree b)
    {inSum outSum inSum' outSum' : NativeTokenSum} (sameIn : ∀ id, inSum.lookup id = inSum'.lookup id)
    (sameOut : ∀ id, outSum.lookup id = outSum'.lookup id)
    (h : nativeTokensBalanced σ a inSum outSum = .ok ()) :
    nativeTokensBalanced σ' b inSum' outSum' = .ok () := by
  unfold nativeTokensBalanced at h ⊢
  rw [← agree.outputsByType, ← hasFoundry_perm agree.inputsByType, ← agree.outChains]
  split_ifs at h ⊢
  · rw [liftErr_eq_ok, balanced_eq_ok_iff] at h ⊢
    exact fun id => by rw [← sameIn, ← sameOut, h]
  · simp only [Except.bind_eq_ok] at h ⊢
    obtain ⟨⟨⟩, hIn, hOut⟩ := h
    exact ⟨(), (checkTokenSums_congr _ _ _ sameOut sameIn).mp hIn,
      (checkTokenSums_congr _ _ _ sameIn sameOut).mp hOut⟩

theorem txSemanticNativeTokens_congr {a b a' : WorkingSet} (agree : a.Agree b)
    (h : txSemanticNativeTokens σ a = .ok a') :
    ∃ b', txSemanticNativeTokens σ' b = .ok b' ∧ a'.Agree b' := by
  simp only [txSemanticNativeTokens, Except.bind_eq_ok, liftErr_eq_ok] at h
  obtain ⟨inSum, hIn, outSum, hOut, ⟨⟩, balanced, h⟩ := h
  obtain rfl := Except.ok.inj h
  have tokens (x y : Arrangement Output) :
      (nativeTokensOf (x.arrange (a.inputsByType.filter (·.nativeTokens.isSome)))).Perm
        (nativeTokensOf (y.arrange (b.inputsByType.filter (·.nativeTokens.isSome)))) :=
    ((x.perm _).trans ((agree.inputsByType.filter _).trans (y.perm _).symm)).flatMap_right _
  obtain ⟨inSum', hIn', sameIn⟩ := sumNativeTokens_perm (tokens _ σ'.inTokenOutputs) hIn
  obtain ⟨outSum', hOut', sameOut⟩ := sumNativeTokens_perm (tokens _ σ'.outTokenOutputs) hOut
  have balanced' : nativeTokensBalanced σ' b inSum' outSum' = .ok () :=
    nativeTokensBalanced_congr agree (fun id => (sameIn id).symm)
    (fun id => (sameOut id).symm) balanced
  refine ⟨_, by
    simp only [txSemanticNativeTokens, liftErr, hIn', hOut', Except.ok_bind', balanced']; rfl, ?_⟩
  exact { agree with inNativeTokens := fun id => (sameIn id).symm,
                     outNativeTokens := fun id => (sameOut id).symm }

theorem txSemanticSTVFOnChains_congr {a b : WorkingSet} (agree : a.Agree b)
    (h : txSemanticSTVFOnChains env σ a = .ok ()) : txSemanticSTVFOnChains env σ' b = .ok () := by
  simp only [txSemanticSTVFOnChains, Except.bind_eq_ok] at h ⊢
  obtain ⟨⟨⟩, hIn, hOut⟩ := h
  rw [← agree.view_eq, ← agree.outChains]
  refine ⟨(), (stvfInChains_perElement env _ _).congr (stvfInChains_perElement env _ _)
      (fun _ => rfl) ?_ |>.mp hIn,
    (stvfOutChains_perElement env _ _).congr (stvfOutChains_perElement env _ _)
      (fun ⟨id, c⟩ => by simp only [stvfOutChains, agree.inChains]) ?_ |>.mp hOut⟩
  · exact (σ.inChainsLoop.perm _).trans
      ((AList.entries_perm_of_lookup agree.inChains).trans (σ'.inChainsLoop.perm _).symm)
  · exact (σ.outChainsLoop.perm _).trans (σ'.outChainsLoop.perm _).symm

theorem inputChainSet_lookup_arrange {S : OutputSet} (distinct : (chainEntries env S.entries).NodupKeys)
    (x : Arrangement (Σ _ : OutputID, Output)) (k : ChainID) :
    (inputChainSet env (x.arrange S.entries)).lookup k = (chainEntries env S.entries).dlookup k := by
  have p : (chainEntries env (x.arrange S.entries)).Perm (chainEntries env S.entries) :=
    (x.perm _).filterMap _
  rw [inputChainSet, chainSet_lookup env ((List.perm_nodupKeys p).mpr distinct),
    List.perm_dlookup k ((List.perm_nodupKeys p).mpr distinct) distinct p]

theorem newSemValiContextWorkingSet_agree {t : Transaction} {S : OutputSet} {a : WorkingSet}
    (distinct : (chainEntries env S.entries).NodupKeys)
    (h : newSemValiContextWorkingSet env σ t S = .ok a) :
    ∃ b, newSemValiContextWorkingSet env σ' t S = .ok b ∧ a.Agree b := by
  obtain ⟨msg, txId, hmsg, hid, rfl⟩ := newSemValiContextWorkingSet_eq_ok h
  refine ⟨_, by simp only [newSemValiContextWorkingSet, liftErr, hmsg, hid]; rfl, ?_⟩
  exact ⟨rfl, rfl, rfl, rfl, ((σ.inputsByType.perm _).trans (σ'.inputsByType.perm _).symm).map _,
    fun k => by rw [inputChainSet_lookup_arrange distinct, inputChainSet_lookup_arrange distinct],
    fun _ => rfl, rfl, rfl, fun _ => rfl⟩

theorem semanticallyValidate_of_reordered {t : Transaction} {S : OutputSet}
    (distinct : (chainEntries env S.entries).NodupKeys)
    (h : semanticallyValidate env σ ctx t S = .ok ()) : semanticallyValidate env σ' ctx t S = .ok () := by
  obtain ⟨ws, ws₁, ws₂, h₀, h₁, h₂, h₃, h₄, h₅, h₆⟩ := semanticallyValidate_eq_ok h
  obtain ⟨vs, h₀', agree⟩ : ∃ vs, newSemValiContextWorkingSet env σ' t S = .ok vs ∧ ws.Agree vs :=
    newSemValiContextWorkingSet_agree distinct h₀
  obtain ⟨u, hu, rfl⟩ := txSemanticInputUnlocks_eq_ok h₁
  have unlocks : txSemanticInputUnlocks env ctx vs = .ok (vs.withIdents u) := by
    rw [unlockInputs_congr env ctx agree.tx agree.outChains agree.essenceMsgToSign
      (fun _ _ => by rw [agree.inputSet]), agree.unlockedIdents, agree.tx] at hu
    simp [txSemanticInputUnlocks, hu, WorkingSet.withIdents]
  have agree₁ : (ws.withIdents u).Agree (vs.withIdents u) := { agree with unlockedIdents := rfl }
  have deposit : txSemanticDeposit σ' (vs.withIdents u) = .ok () := txSemanticDeposit_congr agree₁ h₂
  obtain ⟨vs₂, h₃', agree₂⟩ : ∃ vs₂, txSemanticNativeTokens σ' (vs.withIdents u) = .ok vs₂ ∧ ws₂.Agree vs₂ :=
    txSemanticNativeTokens_congr agree₁ h₃
  have timelock : txSemanticTimelock σ' ctx vs₂ = .ok () := by
    rw [txSemanticTimelock_eq_ok_iff] at h₄ ⊢
    rwa [← agree₂.inputSet]
  have sender : txSemanticOutputsSender vs₂ = .ok () := by
    rwa [txSemanticOutputsSender, ← outputsSender_congr agree₂.unlockedIdents, ← agree₂.tx]
  simp [semanticallyValidate, h₀', unlocks, deposit, h₃', timelock, sender,
    txSemanticSTVFOnChains_congr agree₂ h₆]

end Agreement

theorem semanticallyValidate_order_free {env : Env} {ctx : SemanticValidationContext}
    {t : Transaction} {S : OutputSet} (distinct : (chainEntries env S.entries).NodupKeys)
    (σ σ' : MapOrder) :
    semanticallyValidate env σ ctx t S = .ok () ↔ semanticallyValidate env σ' ctx t S = .ok () :=
  ⟨semanticallyValidate_of_reordered distinct, semanticallyValidate_of_reordered distinct⟩

/-- A sample: two consumed alias outputs, holding 1 and 2, both destroyed; only the
transition of an alias holding 1 passes. -/
def sampleTwinAlias (amount : UInt64) (id : AliasID) : Output :=
  .alias ⟨amount, [], id, .ed25519 [1], .ed25519 [1], 0, []⟩

def sampleTwinInputs : List UTXOInput := [⟨[9], 0⟩, ⟨[9], 1⟩]

def sampleTwinOutputs : List Output := [.simple ⟨.ed25519 [1], 3⟩]

def sampleTwinBlocks : List UnlockBlock := [.signature ⟨[], []⟩, .reference 0]

def sampleTwinTx : Transaction := ⟨⟨sampleTwinInputs, sampleTwinOutputs, none⟩, sampleTwinBlocks⟩

def sampleTwinInputSet (second : AliasID) : OutputSet :=
  ((∅ : OutputSet).insert ⟨[9], 0⟩ (sampleTwinAlias 1 ⟨[9]⟩)).insert ⟨[9], 1⟩
    (sampleTwinAlias 2 second)

def sampleTwinEnv : Env :=
  { Env.indexed sampleTwinInputs sampleTwinOutputs sampleTwinBlocks (by decide) (by decide)
      (by decide) with
    stvf := fun _ c _ _ => c.deposit == 1 }

theorem sample_twin_split_order_free :
    (chainEntries sampleTwinEnv (sampleTwinInputSet ⟨[10]⟩).entries).NodupKeys ∧
      (semanticallyValidate sampleTwinEnv .identity ⟨0, 0⟩ sampleTwinTx (sampleTwinInputSet ⟨[10]⟩) =
          .ok () ↔
        semanticallyValidate sampleTwinEnv .reversed ⟨0, 0⟩ sampleTwinTx
          (sampleTwinInputSet ⟨[10]⟩) = .ok ()) := by
  have distinct : (chainEntries sampleTwinEnv (sampleTwinInputSet ⟨[10]⟩).entries).NodupKeys := by
    unfold List.NodupKeys; decide
  exact ⟨distinct, semanticallyValidate_order_free distinct _ _⟩

/-- Under one alias id the input-side chain set keeps whichever output its loop visits last. -/
theorem sample_twin_order_dependent :
    semanticallyValidate sampleTwinEnv .identity ⟨0, 0⟩ sampleTwinTx (sampleTwinInputSet ⟨[9]⟩) =
        .ok () ∧
      semanticallyValidate sampleTwinEnv .reversed ⟨0, 0⟩ sampleTwinTx (sampleTwinInputSet ⟨[9]⟩) =
        fail (.chainTransitionFailed .destroy (.alias ⟨[9]⟩)) :=
  ⟨rfl, rfl⟩

end Iotago
