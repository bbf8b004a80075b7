import Iotago.Semantic.Authorization

/-! The rule the unlock pass enforces, stated without its table. `TableInv` carries the
table through both directions of the characterisation. -/
namespace Iotago

section Rule

variable (env : Env) (ctx : SemanticValidationContext)

/-- Input `i` targets the Ed25519 identity `hash` and carries the unlock block `b`. -/
def DirectInput (ws : WorkingSet) (i : Nat) (hash : Bytes) (b : UnlockBlock) : Prop :=
  ∃ o, ws.inputOutput i = some o ∧ targetIdent env ctx ws o i = .ok (.ed25519 hash) ∧
    ws.tx.unlockBlocks[i]? = some b

/-- Input `j` is the first input whose target is the Ed25519 identity `hash`. -/
def FirstOf (ws : WorkingSet) (j : Nat) (hash : Bytes) : Prop :=
  (∃ b, DirectInput env ctx ws j hash b) ∧ ∀ k < j, ∀ b, ¬ DirectInput env ctx ws k hash b

/-- The unlock rule for input `i`, stated without the table. -/
def UnlockRule (ws : WorkingSet) (i : Nat) : Prop :=
  ∃ hash b, DirectInput env ctx ws i hash b ∧
    ((FirstOf env ctx ws i hash ∧
        ∃ sig, b = .signature sig ∧ env.verify hash ws.essenceMsgToSign sig = true) ∨
      ∃ j < i, FirstOf env ctx ws j hash ∧ b = .reference (UInt16.ofNat j))

end Rule

section Proofs

variable {env : Env} {ctx : SemanticValidationContext} {ws : WorkingSet}

theorem DirectInput.unique {i : Nat} {hash hash' : Bytes} {b b' : UnlockBlock}
    (d : DirectInput env ctx ws i hash b) (d' : DirectInput env ctx ws i hash' b') :
    hash = hash' ∧ b = b' := by
  obtain ⟨o, consumed, resolved, block⟩ := d
  obtain ⟨o', consumed', resolved', block'⟩ := d'
  cases consumed.symm.trans consumed'
  cases resolved.symm.trans resolved'
  exact ⟨rfl, Option.some.inj (block.symm.trans block')⟩

theorem SignatureUnlocked.directInput {j : Nat} {hash : Bytes}
    (signed : SignatureUnlocked env ctx ws j (.ed25519 hash)) :
    ∃ sig, DirectInput env ctx ws j hash (.signature sig) ∧
      env.verify hash ws.essenceMsgToSign sig = true := by
  obtain ⟨_, sig, o, ⟨⟩, block, consumed, resolved, verified⟩ := signed
  exact ⟨sig, ⟨o, consumed, resolved, block⟩, verified⟩

theorem Authorized.signer {i : Nat} {o : Output} {hash : Bytes} (auth : Authorized env ctx ws i)
    (consumed : ws.inputOutput i = some o)
    (resolved : targetIdent env ctx ws o i = .ok (.ed25519 hash)) :
    ∃ j ≤ i, SignatureUnlocked env ctx ws j (.ed25519 hash) ∧
      (∀ k ≤ i, SignatureUnlocked env ctx ws k (.ed25519 hash) → k = j) ∧
      (j < i → ∃ b ref, ws.tx.unlockBlocks[i]? = some b ∧ b.referential = some ref ∧
        b.chainable = false ∧ ref.toNat = j) := by
  cases auth with
  | direct o' hash' j consumed' resolved' hj signed uniq refd =>
    cases consumed.symm.trans consumed'
    cases resolved.symm.trans resolved'
    exact ⟨j, hj, signed, uniq, refd⟩
  | chain o' _ a _ _ consumed' resolved' chain =>
    cases consumed.symm.trans consumed'
    cases resolved.symm.trans resolved'
    cases chain

theorem unlockInputs_sound {u : UnlockedIdentities} (bound : ws.tx.essence.inputs.length ≤ 65536)
    (accepted : unlockInputs env ctx ws ∅ 0 ws.tx.essence.inputs = .ok u) :
    ∀ i < ws.tx.essence.inputs.length, UnlockRule env ctx ws i := by
  obtain ⟨-, run⟩ := unlockInputs_run (tableInv_empty ws) bound (List.drop_zero _) accepted
  have run' : ∀ i < ws.tx.essence.inputs.length, ∃ o hash, ws.inputOutput i = some o ∧
      targetIdent env ctx ws o i = .ok (.ed25519 hash) ∧ Authorized env ctx ws i :=
    fun i hi => run i (Nat.zero_le i) (by omega)
  intro i hi
  obtain ⟨o, hash, consumed, resolved, auth⟩ := run' i hi
  obtain ⟨j, hj, signed, uniq, refd⟩ := auth.signer consumed resolved
  -- the signer is the first input of the identity: an earlier one would have its own
  have first : FirstOf env ctx ws j hash := by
    obtain ⟨sig, direct, -⟩ := signed.directInput
    refine ⟨⟨_, direct⟩, fun k hk b d => ?_⟩
    obtain ⟨o', consumed', resolved', -⟩ := d
    obtain ⟨ok, hashk, consumedk, resolvedk, authk⟩ := run' k (by omega)
    cases consumedk.symm.trans consumed'
    cases resolvedk.symm.trans resolved'
    obtain ⟨j', hj', signed', -⟩ := authk.signer consumedk resolvedk
    have := uniq j' (by omega) signed'
    omega
  rcases Nat.lt_or_eq_of_le hj with later | rfl
  · obtain ⟨b, ref, block, referential, unchainable, rfl⟩ := refd later
    cases b
    case reference =>
      cases referential
      refine ⟨hash, _, ⟨o, consumed, resolved, block⟩, .inr ⟨_, later, first, ?_⟩⟩
      exact congrArg UnlockBlock.reference (UInt16.toNat.inj
        ((UInt16.toNat_ofNat' _).trans (Nat.mod_eq_of_lt (UInt16.toNat_lt _))).symm)
    all_goals simp [UnlockBlock.referential, UnlockBlock.chainable] at referential unchainable
  · obtain ⟨sig, direct, verified⟩ := signed.directInput
    exact ⟨hash, _, direct, .inl ⟨first, sig, rfl, verified⟩⟩

theorem unlockOutput_of_direct {u : UnlockedIdentities} {o : Output} {n : Nat} {hash : Bytes}
    {b : UnlockBlock} (resolved : targetIdent env ctx ws o n = .ok (.ed25519 hash))
    (block : ws.tx.unlockBlocks[n]? = some b) :
    unlockOutput env ctx ws u o n = unlockDirect env ws.essenceMsgToSign u hash b n := by
  simp [unlockOutput, resolved, WorkingSet.unlockBlockAt, block]

theorem unlockOutput_complete {u : UnlockedIdentities} {n : Nat} {o : Output} {hash : Bytes}
    {b : UnlockBlock} (rules : ∀ i < ws.tx.essence.inputs.length, UnlockRule env ctx ws i)
    (inv : TableInv env ctx ws u n) (consumed : ws.inputOutput n = some o)
    (resolved : targetIdent env ctx ws o n = .ok (.ed25519 hash))
    (block : ws.tx.unlockBlocks[n]? = some b)
    (rule : (FirstOf env ctx ws n hash ∧
        ∃ sig, b = .signature sig ∧ env.verify hash ws.essenceMsgToSign sig = true) ∨
      ∃ j < n, FirstOf env ctx ws j hash ∧ b = .reference (UInt16.ofNat j)) :
    ∃ u', unlockOutput env ctx ws u o n = .ok u' ∧ TableInv env ctx ws u' (n + 1) := by
  have hn := WorkingSet.inputOutput_lt consumed
  rw [unlockOutput_of_direct resolved block]
  rcases rule with ⟨first, sig, rfl, verified⟩ | ⟨j, hj, first, rfl⟩
  · -- the first input of the identity: the table has no entry for it yet
    have fresh : u.lookup (Address.ed25519 hash).key = none := by
      cases found : u.lookup (Address.ed25519 hash).key with
      | none => rfl
      | some v =>
        obtain ⟨k, hk, a, hkey, -, signed⟩ := inv.sound _ _ found
        cases Address.key_inj.mp hkey
        obtain ⟨sig', direct, -⟩ := signed.directInput
        exact absurd direct (first.2 k hk _)
    have signed : SignatureUnlocked env ctx ws n (.ed25519 hash) :=
      ⟨hash, sig, o, rfl, block, consumed, resolved, verified⟩
    exact ⟨_, by simp [unlockDirect, fresh, verified, unlockIdent], inv.insert_signature fresh signed⟩
  · -- a later input: its first input signed, so the table holds that index
    obtain ⟨hashj, bj, directj, rulej⟩ := rules j (by omega)
    obtain ⟨b', direct'⟩ := first.1
    obtain ⟨rfl, rfl⟩ := direct'.unique directj
    have signed : SignatureUnlocked env ctx ws j (.ed25519 hash) := by
      rcases rulej with ⟨-, sig, rfl, verified⟩ | ⟨k, hk, firstk, -⟩
      · obtain ⟨o', consumed', resolved', block'⟩ := direct'
        exact ⟨hash, sig, o', rfl, block', consumed', resolved', verified⟩
      · obtain ⟨_, directk⟩ := firstk.1
        exact absurd directk (first.2 k hk _)
    have found := inv.complete j hj _ signed
    have unsigned : ∀ a, ¬ SignatureUnlocked env ctx ws n a := by
      rintro _ ⟨_, _, _, -, hsig, -⟩
      simp [block] at hsig
    exact ⟨u, by simp [unlockDirect, UnlockBlock.chainable, UnlockBlock.sourceAllowed,
      Address.isChainConstrained, found], inv.succ unsigned⟩

theorem unlockInputs_complete {u : UnlockedIdentities} {n : Nat} {rest : List UTXOInput}
    (rules : ∀ i < ws.tx.essence.inputs.length, UnlockRule env ctx ws i)
    (inv : TableInv env ctx ws u n) (remaining : ws.tx.essence.inputs.drop n = rest) :
    ∃ u', unlockInputs env ctx ws u n rest = .ok u' := by
  induction rest generalizing u n with
  | nil => exact ⟨u, rfl⟩
  | cons input rest ih =>
    have hn : ws.tx.essence.inputs[n]? = some input := by
      simpa [remaining] using (List.getElem?_drop ws.tx.essence.inputs n 0).symm
    obtain ⟨hash, b, ⟨o, consumed, resolved, block⟩, rule⟩ :=
      rules n (List.getElem?_eq_some_iff.mp hn).1
    have hlookup : ws.inputSet.lookup input.ref = some o := by
      simpa [WorkingSet.inputOutput, hn] using consumed
    obtain ⟨u₁, step, inv₁⟩ :=
      unlockOutput_complete rules inv consumed resolved block rule
    obtain ⟨u', run⟩ := ih inv₁ (by rw [← List.tail_drop, remaining]; rfl)
    exact ⟨u', by simp [unlockInputs, WorkingSet.consumedOutput, hlookup, step, run]⟩

theorem txSemanticInputUnlocks_accepts_iff (empty : ws.unlockedIdents = ∅)
    (bound : ws.tx.essence.inputs.length ≤ 65536) :
    (∃ ws', txSemanticInputUnlocks env ctx ws = .ok ws') ↔
      ∀ i < ws.tx.essence.inputs.length, UnlockRule env ctx ws i := by
  constructor
  · rintro ⟨ws', accepted⟩
    obtain ⟨u, hu, -⟩ := txSemanticInputUnlocks_eq_ok accepted
    rw [empty] at hu
    exact unlockInputs_sound bound hu
  · intro rules
    obtain ⟨u, hu⟩ := unlockInputs_complete rules (tableInv_empty ws) (List.drop_zero _)
    exact ⟨ws.withIdents u, by simp [txSemanticInputUnlocks, empty, hu, WorkingSet.withIdents]⟩

theorem senderOf_mem {blocks : List FeatureBlock} {a : Address} (h : senderOf blocks = some a) :
    FeatureBlock.sender a ∈ blocks := by
  induction blocks with
  | nil => cases h
  | cons b rest ih =>
    cases b
    case sender s =>
      cases h
      exact .head _
    all_goals exact .tail _ (ih h)

theorem outputsSender_eq_ok_iff {n : Nat} {outs : List Output} :
    outputsSender ws n outs = .ok () ↔ ∀ o ∈ outs, ∀ blocks, o.featureBlocks = some blocks →
      (blocks.map FeatureBlock.type).Nodup ∧
        ∀ a, senderOf blocks = some a → (ws.unlockedIdents.lookup a.key).isSome := by
  induction outs generalizing n with
  | nil => simp [outputsSender]
  | cons o rest ih =>
    rw [List.forall_mem_cons, ← @ih (n + 1)]
    simp only [outputsSender]
    split
    · rename_i none_blocks
      simp only [none_blocks, reduceCtorEq, IsEmpty.forall_iff, implies_true, true_and]
    · rename_i blocks hblocks
      by_cases nodup : (blocks.map FeatureBlock.type).Nodup
      · simp only [liftErr, featureBlocksSet, nodup, if_true, Except.ok_bind', hblocks,
          Option.some.injEq, forall_eq', true_and]
        split
        · rename_i none_sender
          simp only [none_sender, reduceCtorEq, IsEmpty.forall_iff, implies_true, true_and]
        · rename_i sender some_sender
          by_cases found : (ws.unlockedIdents.lookup sender.key).isSome <;>
            simp only [some_sender, Option.some.injEq, forall_eq', found, if_true, if_false, true_and,
              fail, reduceCtorEq, Bool.false_eq_true, false_and]
      · simp only [liftErr, featureBlocksSet, nodup, if_false, fail, Except.error_bind', reduceCtorEq,
          hblocks, Option.some.injEq, forall_eq', false_and]

theorem txSemanticOutputsSender_after_unlocks_iff {ws' : WorkingSet}
    (empty : ws.unlockedIdents = ∅) (bound : ws.tx.essence.inputs.length ≤ 65536)
    (unlocked : txSemanticInputUnlocks env ctx ws = .ok ws') :
    txSemanticOutputsSender ws' = .ok () ↔ ∀ o ∈ ws.tx.essence.outputs, ∀ blocks,
      o.featureBlocks = some blocks → (blocks.map FeatureBlock.type).Nodup ∧
        ∀ a, FeatureBlock.sender a ∈ blocks →
          ∃ j < ws.tx.essence.inputs.length, SignatureUnlocked env ctx ws j a := by
  obtain ⟨u, rfl, inv, -⟩ := txSemanticInputUnlocks_run empty bound unlocked
  -- the table holds exactly the identities that some input unlocked by its own signature
  have table : ∀ a, (u.lookup a.key).isSome ↔
      ∃ j < ws.tx.essence.inputs.length, SignatureUnlocked env ctx ws j a := by
    refine fun a => ⟨fun found => ?_, fun ⟨j, hj, signed⟩ => by simp [inv.complete j hj a signed]⟩
    obtain ⟨v, hv⟩ := Option.isSome_iff_exists.mp found
    obtain ⟨j, hj, a', hkey, -, signed⟩ := inv.sound _ _ hv
    cases Address.key_inj.mp hkey
    exact ⟨j, hj, signed⟩
  simp only [txSemanticOutputsSender, outputsSender_eq_ok_iff, WorkingSet.withIdents_tx,
    WorkingSet.withIdents_unlockedIdents, table]
  refine forall₂_congr fun o _ => forall_congr' fun blocks => imp_congr_right fun _ =>
    and_congr_right fun nodup => forall_congr' fun a => imp_congr_left ?_
  exact ⟨senderOf_mem, senderOf_eq_of_mem nodup⟩

end Proofs

theorem sample_unlock_rule : ∃ ws, newSemValiContextWorkingSet sampleEnv .identity sampleTx
    sampleInputSet = .ok ws ∧ ws.unlockedIdents = ∅ ∧ ws.tx.essence.inputs.length ≤ 65536 ∧
    ∀ i < ws.tx.essence.inputs.length, UnlockRule sampleEnv sampleCtx ws i := by
  obtain ⟨ws, built⟩ : ∃ ws, newSemValiContextWorkingSet sampleEnv .identity sampleTx
      sampleInputSet = .ok ws := ⟨_, rfl⟩
  obtain ⟨msg, txId, -, -, rfl⟩ := newSemValiContextWorkingSet_eq_ok built
  have bound : sampleTx.essence.inputs.length ≤ 65536 := by decide
  exact ⟨_, built, rfl, bound, (txSemanticInputUnlocks_accepts_iff rfl bound).mp ⟨_, rfl⟩⟩

/-- `sampleTx` paying to an output whose sender block names the signing owner. -/
def sampleSenderOutput : Output := .extended ⟨sampleOwner, 2, [], [.sender sampleOwner]⟩

def sampleSenderTx : Transaction := ⟨⟨sampleInputs, [sampleSenderOutput], none⟩, sampleBlocks⟩

def sampleSenderEnv : Env :=
  .indexed sampleInputs [sampleSenderOutput] sampleBlocks (by decide) (by decide) (by decide)

theorem sample_senders_signed : ∃ ws ws', newSemValiContextWorkingSet sampleSenderEnv .identity
    sampleSenderTx sampleInputSet = .ok ws ∧
    txSemanticInputUnlocks sampleSenderEnv sampleCtx ws = .ok ws' ∧
    txSemanticOutputsSender ws' = .ok () ∧
    ∃ j < 2, SignatureUnlocked sampleSenderEnv sampleCtx ws j sampleOwner := by
  obtain ⟨ws, built, ws', unlocked, sent⟩ : ∃ ws, newSemValiContextWorkingSet sampleSenderEnv
      .identity sampleSenderTx sampleInputSet = .ok ws ∧ ∃ ws', txSemanticInputUnlocks
        sampleSenderEnv sampleCtx ws = .ok ws' ∧ txSemanticOutputsSender ws' = .ok () :=
    ⟨_, rfl, _, rfl, rfl⟩
  obtain ⟨msg, txId, -, -, rfl⟩ := newSemValiContextWorkingSet_eq_ok built
  have bound : sampleSenderTx.essence.inputs.length ≤ 65536 := by decide
  exact ⟨_, ws', built, unlocked, sent,
    ((txSemanticOutputsSender_after_unlocks_iff rfl bound unlocked).mp sent sampleSenderOutput
      (.head _) _ rfl).2 sampleOwner (.head _)⟩

end Iotago
