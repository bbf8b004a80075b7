import Iotago.Semantic.Authorization

/-! Semantic validation reaches no Go panic on a transaction that decoding accepted.
Each panic site is guarded by a fact established elsewhere: the unlock block count
by `Deserialize`, the input index by the loop, the `*AliasOutput` assertion by how
`OutChains` is keyed, and the `*SenderFeatureBlock` assertions by the outputs'
syntactic rules. -/
namespace Iotago

/-- An outcome that is not a Go panic: `nil` or a returned error. -/
def NoPanic {α : Type} (r : Outcome α) : Prop := ∀ site, r ≠ .error (.panic site)

/-- The output rule the sender assertions rely on: an output whose feature blocks
need a sender has one. -/
def SenderRule (o : Output) : Prop :=
  ∀ blocks, o.featureBlocks = some blocks → requiresSender blocks = true → hasSender blocks = true

def AliasKeyed (chains : ChainConstrainedOutputsSet) : Prop :=
  ∀ id o, chains.lookup (.alias id) = some o → ∃ a, o = .alias a

section Lemmas

variable {α β : Type}

theorem noPanic_ok (a : α) : NoPanic (.ok a : Outcome α) := fun _ h => by cases h

theorem noPanic_pure (a : α) : NoPanic (pure a : Outcome α) := fun _ h => by cases h

theorem noPanic_fail (e : Err) : NoPanic (fail e : Outcome α) := fun _ h => by cases h

theorem noPanic_liftErr (x : Except Err α) : NoPanic (liftErr x) := by
  cases x
  · exact noPanic_fail _
  · exact noPanic_ok _

theorem NoPanic.bind {x : Outcome α} {f : α → Outcome β} (hx : NoPanic x)
    (hf : ∀ a, x = .ok a → NoPanic (f a)) : NoPanic (x >>= f) := by
  intro site h
  cases x with
  | error e => exact hx site (by cases h; rfl)
  | ok a => exact hf a rfl site h

theorem NoPanic.ite {c : Prop} [Decidable c] {e : Err} {x : Outcome α} (hx : NoPanic x) :
    NoPanic (if c then fail e else x) := by
  split_ifs
  · exact noPanic_fail e
  · exact hx

end Lemmas

theorem chainKey_alias {env : Env} {id : OutputID} {c : ChainID} {x : AliasID}
    (h : chainKey env id c = .alias x) : ∃ y, c = .alias y := by
  unfold chainKey at h
  split at h
  · cases c <;> simp_all [ChainID.fromOutputID]
  · exact ⟨x, h⟩

theorem chainSet_aliasKeyed (env : Env) (entries : List (Σ _ : OutputID, Output)) :
    AliasKeyed (chainSet env entries) := by
  intro id o h
  obtain ⟨⟨outputId, o'⟩, -, he⟩ := List.mem_filterMap.mp (chainSet_lookup_mem env h)
  obtain ⟨c, hc, heq⟩ := Option.map_eq_some'.mp he
  simp only [Sigma.mk.inj_iff, heq_eq_eq] at heq
  obtain ⟨hkey, rfl⟩ := heq
  obtain ⟨y, rfl⟩ := chainKey_alias hkey
  cases o' <;> simp_all [Output.chain]

section Unlock

variable {env : Env} {ctx : SemanticValidationContext}

theorem checkSenderFeatureBlockIdentUnlock_noPanic {o : Output} (rule : SenderRule o) :
    NoPanic (checkSenderFeatureBlockIdentUnlock ctx o) := by
  unfold checkSenderFeatureBlockIdentUnlock
  split
  · exact noPanic_ok _
  · rename_i blocks hblocks
    refine NoPanic.bind (noPanic_liftErr _) fun set hset => ?_
    obtain ⟨-, rfl⟩ := featureBlocksSet_eq_ok.mp (liftErr_eq_ok.mp hset)
    dsimp only
    by_cases none : ((expirationMilestoneIndexOf set).isNone && (expirationUnixOf set).isNone) = true
    · rw [if_pos none]
      exact noPanic_pure _
    · rw [if_neg none]
      have needs : requiresSender set = true := by
        cases hms : expirationMilestoneIndexOf set with
        | some i => exact requiresSender_of_expirationMilestoneIndexOf hms
        | none =>
          cases hu : expirationUnixOf set with
          | some u => exact requiresSender_of_expirationUnixOf hu
          | none => simp [hms, hu] at none
      obtain ⟨sender, hsender⟩ := Option.isSome_iff_exists.mp
        (senderOf_isSome_of_hasSender (rule set hblocks needs))
      refine NoPanic.bind (noPanic_pure _) fun _ _ => ?_
      simp only [requireSender, hsender]
      exact NoPanic.bind (noPanic_ok _) fun _ _ => noPanic_pure _

theorem targetIdent_noPanic {ws : WorkingSet} {o : Output} {i : Nat}
    (hi : i < ws.tx.essence.inputs.length) (keyed : AliasKeyed ws.outChains) (rule : SenderRule o) :
    NoPanic (targetIdent env ctx ws o i) := by
  refine NoPanic.bind ?_ fun _ _ => NoPanic.bind (checkSenderFeatureBlockIdentUnlock_noPanic rule)
    fun _ _ => noPanic_pure _
  cases o with
  | «alias» a =>
    refine NoPanic.bind ?_ fun id _ => ?_
    · unfold aliasIdToUnlock
      split_ifs
      · simp only [List.getElem?_eq_getElem hi]
        exact noPanic_ok _
      · exact noPanic_ok _
    · cases h : ws.outChains.lookup (.alias id) with
      | none => exact noPanic_pure _
      | some next =>
        obtain ⟨n, rfl⟩ := keyed id next h
        exact noPanic_pure _
  | _ => exact noPanic_ok _

theorem unlockDirect_noPanic (msg : Bytes) (u : UnlockedIdentities) (hash : Bytes)
    (b : UnlockBlock) (i : Nat) : NoPanic (unlockDirect env msg u hash b i) := by
  unfold unlockDirect
  dsimp only
  split
  · split
    · exact noPanic_fail _
    · split
      · exact noPanic_ok _
      · exact noPanic_fail _
  all_goals exact NoPanic.ite (NoPanic.ite (noPanic_ok _))

theorem unlockChainConstrained_noPanic (u : UnlockedIdentities) (o : Output) (a : Address)
    (b : UnlockBlock) (i : Nat) : NoPanic (unlockChainConstrained u o a b i) := by
  unfold unlockChainConstrained
  split
  · exact noPanic_fail _
  · refine NoPanic.ite (NoPanic.ite ?_)
    split <;> exact noPanic_ok _

theorem unlockOutput_noPanic {ws : WorkingSet} {u : UnlockedIdentities} {o : Output} {i : Nat}
    (hi : i < ws.tx.essence.inputs.length) (blocks : ws.tx.unlockBlocks.length = ws.tx.essence.inputs.length)
    (keyed : AliasKeyed ws.outChains) (rule : SenderRule o) :
    NoPanic (unlockOutput env ctx ws u o i) := by
  refine NoPanic.bind (targetIdent_noPanic hi keyed rule) fun target _ => NoPanic.bind ?_ fun b _ => ?_
  · simp only [WorkingSet.unlockBlockAt, List.getElem?_eq_getElem (blocks ▸ hi)]
    exact noPanic_ok _
  · cases target
    · exact unlockDirect_noPanic _ _ _ _ _
    · exact unlockChainConstrained_noPanic _ _ _ _ _
    · exact unlockChainConstrained_noPanic _ _ _ _ _

theorem unlockInputs_noPanic {ws : WorkingSet} {u : UnlockedIdentities} {n : Nat}
    {rest : List UTXOInput} (remaining : ws.tx.essence.inputs.drop n = rest)
    (blocks : ws.tx.unlockBlocks.length = ws.tx.essence.inputs.length)
    (keyed : AliasKeyed ws.outChains) (rules : ∀ id o, ws.inputSet.lookup id = some o → SenderRule o) :
    NoPanic (unlockInputs env ctx ws u n rest) := by
  induction rest generalizing u n with
  | nil => exact noPanic_ok _
  | cons input rest ih =>
    have hi : n < ws.tx.essence.inputs.length := by
      have := congrArg List.length remaining
      simp only [List.length_drop, List.length_cons] at this
      omega
    refine NoPanic.bind ?_ fun o ho => NoPanic.bind ?_ fun u' _ => ?_
    · unfold WorkingSet.consumedOutput
      split
      · exact noPanic_ok _
      · exact noPanic_fail _
    · exact unlockOutput_noPanic hi blocks keyed (rules _ o (consumedOutput_eq_ok.mp ho))
    · exact ih (by rw [← List.tail_drop, remaining]; rfl)

end Unlock

theorem dustDepositReturn_noPanic {o : Output} (rule : SenderRule o) :
    NoPanic (dustDepositReturn o) := by
  unfold dustDepositReturn
  split
  · exact noPanic_ok _
  · rename_i blocks hblocks
    refine NoPanic.bind (noPanic_liftErr _) fun set hset => ?_
    obtain ⟨-, rfl⟩ := featureBlocksSet_eq_ok.mp (liftErr_eq_ok.mp hset)
    split
    · exact noPanic_pure _
    · rename_i amount hamount
      obtain ⟨sender, hsender⟩ := Option.isSome_iff_exists.mp (senderOf_isSome_of_hasSender
        (rule set hblocks (requiresSender_of_dustDepositReturnOf hamount)))
      simp only [requireSender, hsender]
      exact NoPanic.bind (noPanic_ok _) fun _ _ => noPanic_pure _

theorem depositInputs_noPanic {l : List (Σ _ : OutputID, Output)} (rules : ∀ e ∈ l, SenderRule e.2)
    (inSum : UInt64) (returns : AmountPerIdent) : NoPanic (depositInputs l inSum returns) := by
  induction l generalizing inSum returns with
  | nil => exact noPanic_ok _
  | cons e rest ih =>
    refine NoPanic.bind (dustDepositReturn_noPanic (rules e (List.mem_cons_self _ _))) fun r _ => ?_
    have tail := fun s r => ih (fun e' he' => rules e' (List.mem_cons_of_mem _ he')) s r
    split <;> exact tail _ _

theorem checkReturnAmounts_noPanic (transfers : AmountPerIdent) (l : List (Σ _ : Bytes, UInt64)) :
    NoPanic (checkReturnAmounts transfers l) := by
  induction l with
  | nil => exact noPanic_ok _
  | cons e rest ih =>
    unfold checkReturnAmounts
    split
    · exact noPanic_fail _
    · exact NoPanic.ite ih

theorem txSemanticDeposit_noPanic {σ : MapOrder} {ws : WorkingSet}
    (rules : ∀ id o, ws.inputSet.lookup id = some o → SenderRule o) :
    NoPanic (txSemanticDeposit σ ws) := by
  refine NoPanic.bind (depositInputs_noPanic (fun e he => ?_) _ _) fun _ _ => ?_
  · exact rules e.1 e.2 (AList.mem_lookup_iff.mpr ((σ.deposit.perm _).subset he))
  · exact NoPanic.ite (checkReturnAmounts_noPanic _ _)

theorem checkTokenSums_noPanic (outChains : ChainConstrainedOutputsSet) (other : NativeTokenSum)
    (l : List (Σ _ : NativeTokenID, Nat)) : NoPanic (checkTokenSums outChains other l) := by
  induction l with
  | nil => exact noPanic_ok _
  | cons e rest ih => exact NoPanic.ite ih

theorem txSemanticNativeTokens_noPanic (σ : MapOrder) (ws : WorkingSet) :
    NoPanic (txSemanticNativeTokens σ ws) := by
  refine NoPanic.bind (noPanic_liftErr _) fun _ _ => NoPanic.bind (noPanic_liftErr _) fun _ _ =>
    NoPanic.bind ?_ fun _ _ => noPanic_pure _
  unfold nativeTokensBalanced
  split_ifs
  · exact noPanic_liftErr _
  · exact NoPanic.bind (checkTokenSums_noPanic _ _ _) fun _ _ => checkTokenSums_noPanic _ _ _

theorem timelockInputs_noPanic (ctx : SemanticValidationContext) (l : List (Σ _ : OutputID, Output)) :
    NoPanic (timelockInputs ctx l) := by
  have blocks : ∀ id bs, NoPanic (timelockBlocks ctx id bs) := by
    intro id bs
    induction bs with
    | nil => exact noPanic_ok _
    | cons b rest ih => cases b <;> first | exact NoPanic.ite ih | exact ih
  induction l with
  | nil => exact noPanic_ok _
  | cons e rest ih => exact NoPanic.bind (blocks _ _) fun _ _ => ih

theorem outputsSender_noPanic (ws : WorkingSet) (n : Nat) (outs : List Output) :
    NoPanic (outputsSender ws n outs) := by
  induction outs generalizing n with
  | nil => exact noPanic_ok _
  | cons o rest ih =>
    unfold outputsSender
    split
    · exact ih _
    · refine NoPanic.bind (noPanic_liftErr _) fun _ _ => ?_
      split
      · exact ih _
      · split_ifs
        · exact ih _
        · exact noPanic_fail _

theorem txSemanticSTVFOnChains_noPanic (env : Env) (σ : MapOrder) (ws : WorkingSet) :
    NoPanic (txSemanticSTVFOnChains env σ ws) := by
  have inLoop : ∀ l, NoPanic (stvfInChains env ws.view ws.outChains l) := by
    intro l
    induction l with
    | nil => exact noPanic_ok _
    | cons e rest ih =>
      unfold stvfInChains
      split <;> split_ifs <;> first | exact ih | exact noPanic_fail _
  have outLoop : ∀ l, NoPanic (stvfOutChains env ws.view ws.inChains l) := by
    intro l
    induction l with
    | nil => exact noPanic_ok _
    | cons e rest ih => exact NoPanic.ite ih
  exact NoPanic.bind (inLoop _) fun _ _ => outLoop _

theorem semanticallyValidate_never_panics {env : Env} {σ : MapOrder}
    {ctx : SemanticValidationContext} {t : Transaction} {S : OutputSet}
    {paras : Option DeSerializationParameters} {data : Bytes} {n : Nat}
    (decoded : Transaction.deserialize env.toCodecEnv deSeriModePerformValidation paras data = .ok (t, n))
    (rules : ∀ id o, S.lookup id = some o → SenderRule o) :
    NoPanic (semanticallyValidate env σ ctx t S) := by
  have blocks := Transaction.deserialize_unlockBlocks_length env.toCodecEnv decoded
  refine NoPanic.bind ?_ fun ws h₀ => ?_
  · exact NoPanic.bind (noPanic_liftErr _) fun _ _ => NoPanic.bind (noPanic_liftErr _)
      fun _ _ => noPanic_pure _
  obtain ⟨msg, txId, -, -, rfl⟩ := newSemValiContextWorkingSet_eq_ok h₀
  refine NoPanic.bind ?_ fun ws₁ h₁ => ?_
  · refine NoPanic.bind (unlockInputs_noPanic rfl blocks ?_ rules) fun _ _ => noPanic_pure _
    exact chainSet_aliasKeyed env _
  obtain ⟨u, -, rfl⟩ := txSemanticInputUnlocks_eq_ok h₁
  refine NoPanic.bind (txSemanticDeposit_noPanic rules) fun _ _ =>
    NoPanic.bind (txSemanticNativeTokens_noPanic _ _) fun _ _ =>
    NoPanic.bind (timelockInputs_noPanic _ _) fun _ _ =>
    NoPanic.bind (outputsSender_noPanic _ _ _) fun _ _ => txSemanticSTVFOnChains_noPanic _ _ _

/-- The encoding of `sampleTx`: type prefix, essence, then its two unlock blocks. -/
def sampleTxBytes : Bytes :=
  [0, 0, 0, 0, 0, 2, 0, 0, 0, 0, 1, 1, 0, 3, 0, 0, 0, 0, 0, 2, 0, 0, 0, 1, 1]

/-- The inputs of `sampleTx` with the second one expiring, so that it must name a sender. -/
def sampleExpiringInputSet : OutputSet :=
  sampleInputSet.insert ⟨[7], 1⟩
    (.extended ⟨sampleOwner, 1, [], [.sender (.ed25519 [2]), .expirationMilestoneIndex 5]⟩)

theorem sample_never_panics :
    NoPanic (semanticallyValidate sampleEnv .identity sampleCtx sampleTx sampleExpiringInputSet) :=
  semanticallyValidate_never_panics (rfl : Transaction.deserialize sampleEnv.toCodecEnv
      deSeriModePerformValidation (some ⟨0, ⟨0, 0, 0⟩⟩) sampleTxBytes = .ok (sampleTx, 25))
    fun _ o h blocks hblocks _ => by
      have named : ∀ e ∈ sampleExpiringInputSet.entries,
          (e.2.featureBlocks.map hasSender).getD true = true := by decide
      simpa [hblocks] using named _ (AList.mem_lookup_iff.mp h)

end Iotago
