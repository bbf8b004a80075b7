import Iotago.Semantic.Pipeline

/-! Input authorization. Along an accepted unlock pass the table `UnlockedIdents`
holds exactly the Ed25519 identities that an earlier input unlocked by its own
signature, each at that input's index (`TableInv`). -/
namespace Iotago

def WorkingSet.inputOutput (ws : WorkingSet) (i : Nat) : Option Output :=
  ws.tx.essence.inputs[i]? >>= fun input => ws.inputSet.lookup input.ref

theorem WorkingSet.inputOutput_lt {ws : WorkingSet} {i : Nat} {o : Output}
    (h : ws.inputOutput i = some o) : i < ws.tx.essence.inputs.length := by
  by_contra hi
  simp [WorkingSet.inputOutput, List.getElem?_eq_none (Nat.le_of_not_lt hi)] at h

section Authorization

variable (env : Env) (ctx : SemanticValidationContext)

/-- Input `j` is unlocked by its own signature, verified against the signing message. -/
def SignatureUnlocked (ws : WorkingSet) (j : Nat) (a : Address) : Prop :=
  ∃ hash sig o, a = .ed25519 hash ∧ ws.tx.unlockBlocks[j]? = some (.signature sig) ∧
    ws.inputOutput j = some o ∧ targetIdent env ctx ws o j = .ok a ∧
    env.verify hash ws.essenceMsgToSign sig = true

/-- What the unlock rules grant input `i`. A direct target is unlocked by exactly one
signature at some `j ≤ i`, referenced by a non-chainable block when `j < i`. A
chain-constrained target is unlocked by a chainable reference to an earlier
authorized input whose chain address it is. -/
inductive Authorized (ws : WorkingSet) : Nat → Prop
  | direct {i : Nat} (o : Output) (hash : Bytes) (j : Nat) :
      ws.inputOutput i = some o → targetIdent env ctx ws o i = .ok (.ed25519 hash) →
      j ≤ i → SignatureUnlocked env ctx ws j (.ed25519 hash) →
      (∀ k ≤ i, SignatureUnlocked env ctx ws k (.ed25519 hash) → k = j) →
      (j < i → ∃ b ref, ws.tx.unlockBlocks[i]? = some b ∧ b.referential = some ref ∧
        b.chainable = false ∧ ref.toNat = j) →
      Authorized ws i
  | chain {i j : Nat} (o o' : Output) (a : Address) (b : UnlockBlock) (ref : UInt16) :
      ws.inputOutput i = some o → targetIdent env ctx ws o i = .ok a → a.isChainConstrained →
      ws.tx.unlockBlocks[i]? = some b → b.referential = some ref → b.chainable = true →
      ref.toNat = j → j < i → ws.inputOutput j = some o' →
      (o'.chain >>= ChainID.toAddress) = some a → Authorized ws j → Authorized ws i

/-- An address a sender feature block may name. -/
def SenderAuthorized (ws : WorkingSet) (a : Address) : Prop :=
  (∃ j < ws.tx.essence.inputs.length, SignatureUnlocked env ctx ws j a) ∨
    ∃ i < ws.tx.essence.inputs.length, ∃ o, ws.inputOutput i = some o ∧
      (o.chain >>= ChainID.toAddress) = some a ∧ Authorized env ctx ws i

/-- The unlock table after the first `n` inputs. -/
structure TableInv (ws : WorkingSet) (u : UnlockedIdentities) (n : Nat) : Prop where
  sound : ∀ key v, u.lookup key = some v →
    ∃ j < n, ∃ a, key = a.key ∧ v = UInt16.ofNat j ∧ SignatureUnlocked env ctx ws j a
  complete : ∀ j < n, ∀ a, SignatureUnlocked env ctx ws j a →
    u.lookup a.key = some (UInt16.ofNat j)

end Authorization

section Invariant

variable {env : Env} {ctx : SemanticValidationContext} {ws : WorkingSet}
  {u : UnlockedIdentities} {n : Nat}

theorem SignatureUnlocked.target_eq {j : Nat} {a b : Address} {o : Output}
    (signed : SignatureUnlocked env ctx ws j a) (consumed : ws.inputOutput j = some o)
    (resolved : targetIdent env ctx ws o j = .ok b) : a = b := by
  obtain ⟨-, -, o', -, -, consumed', resolved', -⟩ := signed
  cases consumed.symm.trans consumed'
  exact Except.ok.inj (resolved'.symm.trans resolved)

theorem tableInv_empty (ws : WorkingSet) : TableInv env ctx ws ∅ 0 :=
  ⟨by simp, fun _ h => absurd h (Nat.not_lt_zero _)⟩

theorem TableInv.ed25519_of_lookup (inv : TableInv env ctx ws u n) {a : Address} {v : UInt16}
    (found : u.lookup a.key = some v) : ∃ hash, a = .ed25519 hash := by
  obtain ⟨-, -, a', hkey, -, hash, -, -, rfl, -⟩ := inv.sound _ _ found
  exact ⟨hash, Address.key_inj.mp hkey⟩

theorem TableInv.signer_unique (inv : TableInv env ctx ws u n) (bound : n ≤ 65536)
    {a : Address} {j k : Nat} (hj : j < n) (hk : k < n) (sj : SignatureUnlocked env ctx ws j a)
    (sk : SignatureUnlocked env ctx ws k a) : k = j := by
  have same := (inv.complete k hk a sk).symm.trans (inv.complete j hj a sj)
  have := congrArg UInt16.toNat (Option.some.inj same)
  simp only [UInt16.toNat_ofNat'] at this
  omega

theorem TableInv.insert_signature (inv : TableInv env ctx ws u n) {hash : Bytes}
    (fresh : u.lookup (Address.ed25519 hash).key = none)
    (signed : SignatureUnlocked env ctx ws n (.ed25519 hash)) :
    TableInv env ctx ws (u.insert (Address.ed25519 hash).key (UInt16.ofNat n)) (n + 1) where
  sound key v found := by
    by_cases hkey : key = (Address.ed25519 hash).key
    · subst hkey
      rw [AList.lookup_insert, Option.some.injEq] at found
      exact ⟨n, n.lt_succ_self, _, rfl, found.symm, signed⟩
    · rw [AList.lookup_insert_ne hkey] at found
      obtain ⟨j, hj, a, rfl, rfl, s⟩ := inv.sound _ _ found
      exact ⟨j, by omega, a, rfl, rfl, s⟩
  complete j hj a s := by
    rcases Nat.lt_succ_iff_lt_or_eq.mp hj with hj | rfl
    · have found := inv.complete j hj a s
      rwa [AList.lookup_insert_ne]
      rintro hkey
      rw [hkey, fresh] at found
      cases found
    · obtain ⟨-, -, o, -, -, consumed, resolved, -⟩ := signed
      rw [s.target_eq consumed resolved, AList.lookup_insert]

theorem TableInv.succ (inv : TableInv env ctx ws u n)
    (unsigned : ∀ a, ¬ SignatureUnlocked env ctx ws n a) : TableInv env ctx ws u (n + 1) where
  sound key v found :=
    let ⟨j, hj, rest⟩ := inv.sound key v found
    ⟨j, by omega, rest⟩
  complete j hj a s := by
    rcases Nat.lt_succ_iff_lt_or_eq.mp hj with hj | rfl
    · exact inv.complete j hj a s
    · exact absurd s (unsigned a)

theorem unlockOutput_step {u' : UnlockedIdentities} {o : Output} (inv : TableInv env ctx ws u n)
    (bound : n < 65536) (consumed : ws.inputOutput n = some o)
    (accepted : unlockOutput env ctx ws u o n = .ok u') :
    TableInv env ctx ws u' (n + 1) ∧
      ∃ hash, targetIdent env ctx ws o n = .ok (.ed25519 hash) ∧ Authorized env ctx ws n := by
  obtain ⟨target, block, resolved, hb, ⟨hash, rfl, h⟩ | ⟨chain, h⟩⟩ := unlockOutput_eq_ok accepted
  · rcases unlockDirect_eq_ok h with ⟨sig, rfl, fresh, verified, rfl⟩ | ⟨ref, rfl, found, rfl⟩
    · -- a signature for an identity not in the table yet
      have signed : SignatureUnlocked env ctx ws n (.ed25519 hash) :=
        ⟨hash, sig, o, rfl, hb, consumed, resolved, verified⟩
      refine ⟨inv.insert_signature fresh signed, hash, resolved,
        .direct o hash n consumed resolved le_rfl signed (fun k hk sk => ?_) (absurd · (lt_irrefl n))⟩
      rcases Nat.lt_or_eq_of_le hk with hk | rfl
      · simp [inv.complete k hk _ sk] at fresh
      · rfl
    · -- a reference to the input that unlocked the identity
      obtain ⟨j, hj, a, hkey, rfl, signed⟩ := inv.sound _ _ found
      cases Address.key_inj.mp hkey
      have unsigned : ∀ a, ¬ SignatureUnlocked env ctx ws n a := by
        rintro _ ⟨_, _, _, -, hsig, -⟩
        simp [hb] at hsig
      refine ⟨inv.succ unsigned, hash, resolved, .direct o hash j consumed resolved hj.le signed
        (fun k hk sk => ?_) fun _ => ⟨_, _, hb, rfl, rfl, ?_⟩⟩
      · rcases Nat.lt_or_eq_of_le hk with hk | rfl
        · exact inv.signer_unique (by omega) hj hk signed sk
        · exact absurd sk (unsigned _)
      · simp only [UInt16.toNat_ofNat']
        omega
  · -- a chain-constrained target would have to be in the table already
    obtain ⟨ref, -, -, -, found, -⟩ := unlockChainConstrained_eq_ok h
    obtain ⟨hash, rfl⟩ := inv.ed25519_of_lookup found
    simp [Address.isChainConstrained] at chain

theorem unlockInputs_run {u' : UnlockedIdentities} {rest : List UTXOInput}
    (inv : TableInv env ctx ws u n) (bound : ws.tx.essence.inputs.length ≤ 65536)
    (remaining : ws.tx.essence.inputs.drop n = rest)
    (accepted : unlockInputs env ctx ws u n rest = .ok u') :
    TableInv env ctx ws u' (n + rest.length) ∧
      ∀ i, n ≤ i → i < n + rest.length → ∃ o hash, ws.inputOutput i = some o ∧
        targetIdent env ctx ws o i = .ok (.ed25519 hash) ∧ Authorized env ctx ws i := by
  induction rest generalizing u n with
  | nil =>
    cases accepted
    refine ⟨inv, fun i h h' => absurd h' ?_⟩
    simp only [List.length_nil]
    omega
  | cons input rest ih =>
    simp only [unlockInputs, Except.bind_eq_ok, consumedOutput_eq_ok] at accepted
    obtain ⟨o, hlookup, u₁, h₁, h⟩ := accepted
    have hn : ws.tx.essence.inputs[n]? = some input := by
      simpa [remaining] using (List.getElem?_drop ws.tx.essence.inputs n 0).symm
    have consumed : ws.inputOutput n = some o := by
      simp [WorkingSet.inputOutput, hn, hlookup]
    have hlt := WorkingSet.inputOutput_lt consumed
    obtain ⟨inv₁, step⟩ := unlockOutput_step inv (by omega) consumed h₁
    obtain ⟨inv', run⟩ := ih inv₁ (by rw [← List.tail_drop, remaining]; rfl) h
    have len : n + 1 + rest.length = n + (input :: rest).length := by
      simp only [List.length_cons]
      omega
    refine ⟨len ▸ inv', fun i h h' => ?_⟩
    rcases Nat.lt_or_eq_of_le h with h | rfl
    · exact run i h (by omega)
    · exact ⟨o, step.imp fun _ => And.intro consumed⟩

theorem txSemanticInputUnlocks_run {ws' : WorkingSet} (empty : ws.unlockedIdents = ∅)
    (bound : ws.tx.essence.inputs.length ≤ 65536)
    (accepted : txSemanticInputUnlocks env ctx ws = .ok ws') :
    ∃ u, ws' = ws.withIdents u ∧ TableInv env ctx ws u ws.tx.essence.inputs.length ∧
      ∀ i < ws.tx.essence.inputs.length, ∃ o hash, ws.inputOutput i = some o ∧
        targetIdent env ctx ws o i = .ok (.ed25519 hash) ∧ Authorized env ctx ws i := by
  obtain ⟨u, hu, rfl⟩ := txSemanticInputUnlocks_eq_ok accepted
  rw [empty] at hu
  obtain ⟨inv, run⟩ := unlockInputs_run (tableInv_empty ws) bound rfl hu
  exact ⟨u, rfl, by simpa using inv, fun i hi => run i (Nat.zero_le i) (by simpa using hi)⟩

theorem semanticallyValidate_unlock_run {σ : MapOrder} {t : Transaction} {S : OutputSet}
    (accepted : semanticallyValidate env σ ctx t S = .ok ()) :
    ∃ ws msg u, t.essence.signingMessage env.toCodecEnv = .ok msg ∧
      newSemValiContextWorkingSet env σ t S = .ok ws ∧ ws.tx = t ∧ ws.essenceMsgToSign = msg ∧
      txSemanticInputUnlocks env ctx ws = .ok (ws.withIdents u) ∧
      TableInv env ctx ws u t.essence.inputs.length ∧
      (∀ i < t.essence.inputs.length, ∃ o hash, ws.inputOutput i = some o ∧
        targetIdent env ctx ws o i = .ok (.ed25519 hash) ∧ Authorized env ctx ws i) ∧
      ∀ o ∈ t.essence.outputs, ∀ blocks a, o.featureBlocks = some blocks →
        FeatureBlock.sender a ∈ blocks → (u.lookup a.key).isSome := by
  obtain ⟨ws, ws₁, ws₂, h₀, h₁, -, h₃, -, h₅, -⟩ := semanticallyValidate_eq_ok accepted
  obtain ⟨msg, txId, hmsg, -, rfl⟩ := newSemValiContextWorkingSet_eq_ok h₀
  have bound := t.essence.signingMessage_inputs_length_le env.toCodecEnv hmsg
  obtain ⟨u, rfl, inv, run⟩ := txSemanticInputUnlocks_run rfl (by simp only; omega) h₁
  obtain ⟨inSum, outSum, -, rfl⟩ := txSemanticNativeTokens_eq_ok h₃
  exact ⟨_, msg, u, hmsg, h₀, rfl, rfl, h₁, inv, run,
    fun _ ho _ _ hblocks named => outputsSender_unlocked h₅ ho hblocks named⟩

end Invariant

section Acceptance

variable {env : Env} {ctx : SemanticValidationContext}

theorem semanticallyValidate_authorizes_inputs {σ : MapOrder} {t : Transaction} {S : OutputSet}
    (accepted : semanticallyValidate env σ ctx t S = .ok ()) :
    ∃ ws msg, t.essence.signingMessage env.toCodecEnv = .ok msg ∧
      newSemValiContextWorkingSet env σ t S = .ok ws ∧ ws.tx = t ∧ ws.essenceMsgToSign = msg ∧
      (∀ i < t.essence.inputs.length, Authorized env ctx ws i) ∧
      ∀ o ∈ t.essence.outputs, ∀ blocks a, o.featureBlocks = some blocks →
        FeatureBlock.sender a ∈ blocks → SenderAuthorized env ctx ws a := by
  obtain ⟨ws, msg, u, hmsg, h₀, htx, hm, -, inv, run, senders⟩ :=
    semanticallyValidate_unlock_run accepted
  refine ⟨ws, msg, hmsg, h₀, htx, hm, fun i hi => ?_, fun o ho blocks a hblocks named => .inl ?_⟩
  · obtain ⟨-, -, -, -, auth⟩ := run i hi
    exact auth
  · obtain ⟨v, found⟩ := Option.isSome_iff_exists.mp (senders o ho blocks a hblocks named)
    obtain ⟨j, hj, a', hkey, -, signed⟩ := inv.sound _ _ found
    cases Address.key_inj.mp hkey
    exact ⟨j, htx ▸ hj, signed⟩

/-- A sample: two inputs of one owner, unlocked by a signature and a reference to it. -/
def sampleOwner : Address := .ed25519 [1]

def sampleInputs : List UTXOInput := [⟨[7], 0⟩, ⟨[7], 1⟩]

def sampleOutput : Output := .simple ⟨sampleOwner, 2⟩

def sampleBlocks : List UnlockBlock := [.signature ⟨[], []⟩, .reference 0]

def sampleTx : Transaction := ⟨⟨sampleInputs, [sampleOutput], none⟩, sampleBlocks⟩

def sampleInputSet : OutputSet :=
  ((∅ : OutputSet).insert ⟨[7], 0⟩ (.simple ⟨sampleOwner, 1⟩)).insert ⟨[7], 1⟩ (.simple ⟨sampleOwner, 1⟩)

def sampleEnv : Env :=
  .indexed sampleInputs [sampleOutput] sampleBlocks (by decide) (by decide) (by decide)

def sampleCtx : SemanticValidationContext := ⟨0, 0⟩

theorem sample_inputs_authorized : ∃ ws, newSemValiContextWorkingSet sampleEnv .identity sampleTx
    sampleInputSet = .ok ws ∧ ∀ i < 2, Authorized sampleEnv sampleCtx ws i :=
  let ⟨ws, _, _, h, _, _, auth, _⟩ := semanticallyValidate_authorizes_inputs
    (rfl : semanticallyValidate sampleEnv .identity sampleCtx sampleTx sampleInputSet = .ok ())
  ⟨ws, h, auth⟩

theorem semanticallyValidate_never_unlocks_chain_address {σ : MapOrder} {t : Transaction}
    {S : OutputSet} (accepted : semanticallyValidate env σ ctx t S = .ok ()) :
    ∃ ws u, newSemValiContextWorkingSet env σ t S = .ok ws ∧
      txSemanticInputUnlocks env ctx ws = .ok (ws.withIdents u) ∧
      (∀ a : Address, a.isChainConstrained → u.lookup a.key = none) ∧
      ∀ i < t.essence.inputs.length, ∀ o (a : Address), ws.inputOutput i = some o →
        targetIdent env ctx ws o i = .ok a → a.isChainConstrained = false := by
  obtain ⟨ws, -, u, -, h₀, -, -, hrun, inv, run, -⟩ := semanticallyValidate_unlock_run accepted
  refine ⟨ws, u, h₀, hrun, fun a chain => ?_, fun i hi o a consumed resolved => ?_⟩
  · cases found : u.lookup a.key with
    | none => rfl
    | some v =>
      obtain ⟨hash, rfl⟩ := inv.ed25519_of_lookup found
      cases chain
  · obtain ⟨o', hash, consumed', resolved', -⟩ := run i hi
    cases consumed.symm.trans consumed'
    cases resolved.symm.trans resolved'
    rfl

/-- A sample: an alias output destroyed by a transaction its governor signs. -/
def sampleAlias : AliasID := ⟨[9]⟩

def sampleAliasTx : Transaction :=
  ⟨⟨[⟨[7], 0⟩], [sampleOutput], none⟩, [.signature ⟨[], []⟩]⟩

def sampleAliasInputSet : OutputSet :=
  (∅ : OutputSet).insert ⟨[7], 0⟩ (.alias ⟨2, [], sampleAlias, sampleOwner, sampleOwner, 0, []⟩)

def sampleAliasEnv : Env :=
  .indexed [⟨[7], 0⟩] [sampleOutput] [.signature ⟨[], []⟩] (by decide) (by decide) (by decide)

theorem sample_alias_address_not_unlocked : ∃ ws u, newSemValiContextWorkingSet sampleAliasEnv
    .identity sampleAliasTx sampleAliasInputSet = .ok ws ∧
    txSemanticInputUnlocks sampleAliasEnv sampleCtx ws = .ok (ws.withIdents u) ∧
    u.lookup (Address.alias sampleAlias).key = none :=
  let ⟨ws, u, h, hrun, locked, _⟩ :=
    semanticallyValidate_never_unlocks_chain_address (rfl : semanticallyValidate sampleAliasEnv
      .identity sampleCtx sampleAliasTx sampleAliasInputSet = .ok ())
  ⟨ws, u, h, hrun, locked _ rfl⟩

end Acceptance

end Iotago
