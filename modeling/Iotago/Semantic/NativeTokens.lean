import Iotago.Semantic.Pipeline

/-! The native token sums. The balance step compares its two sums by lookup, and
both are taken from the input side, so the outputs' tokens are never compared. -/
namespace Iotago

/-- The total amount of token `id` among `tokens`. -/
def tokenTotal (id : NativeTokenID) (tokens : List NativeToken) : Nat :=
  ((tokens.filter (·.id == id)).map (·.amount)).sum

@[simp] theorem tokenTotal_nil (id : NativeTokenID) : tokenTotal id [] = 0 := rfl

theorem tokenTotal_cons (id : NativeTokenID) (nt : NativeToken) (tokens : List NativeToken) :
    tokenTotal id (nt :: tokens) = (if nt.id = id then nt.amount else 0) + tokenTotal id tokens := by
  by_cases h : nt.id = id <;> simp [tokenTotal, List.filter_cons, h]

theorem tokenTotal_eq_zero {id : NativeTokenID} {tokens : List NativeToken}
    (absent : ¬ ∃ nt ∈ tokens, nt.id = id) : tokenTotal id tokens = 0 := by
  rw [tokenTotal, List.filter_eq_nil_iff.mpr fun nt mem hid => absent ⟨nt, mem, by simpa using hid⟩]
  rfl

theorem tokenTotal_perm (id : NativeTokenID) {l l' : List NativeToken} (p : l.Perm l') :
    tokenTotal id l = tokenTotal id l' :=
  ((p.filter _).map _).sum_eq

/-- The sum a token ends with: present when it was in `acc` or occurs in `tokens`. -/
def tokenSum (acc : NativeTokenSum) (tokens : List NativeToken) (id : NativeTokenID) :
    Option Nat :=
  if id ∈ acc ∨ ∃ nt ∈ tokens, nt.id = id then some ((acc.lookup id).getD 0 + tokenTotal id tokens)
  else none

theorem tokenSum_perm (acc : NativeTokenSum) {l l' : List NativeToken} (p : l.Perm l')
    (id : NativeTokenID) : tokenSum acc l id = tokenSum acc l' id := by
  simp only [tokenSum, tokenTotal_perm id p, p.mem_iff]

theorem sumNativeTokens_isOk {tokens : List NativeToken} {acc : NativeTokenSum} :
    (∃ s, sumNativeTokens tokens acc = .ok s) ↔
      ∀ nt ∈ tokens, (acc.lookup nt.id).getD 0 + tokenTotal nt.id tokens ≤ maxUint256 := by
  induction tokens generalizing acc with
  | nil => simp [sumNativeTokens]
  | cons nt rest ih =>
    have later : ∀ x, ((acc.insert nt.id ((acc.lookup nt.id).getD 0 + nt.amount)).lookup x).getD 0 +
        tokenTotal x rest = (acc.lookup x).getD 0 + tokenTotal x (nt :: rest) := by
      intro x
      by_cases hx : x = nt.id
      · subst hx
        simp [tokenTotal_cons]
        omega
      · simp [AList.lookup_insert_ne hx, tokenTotal_cons, Ne.symm hx]
    have head : (acc.lookup nt.id).getD 0 + tokenTotal nt.id (nt :: rest) =
        (acc.lookup nt.id).getD 0 + nt.amount + tokenTotal nt.id rest := by
      simp [tokenTotal_cons]
      omega
    simp only [sumNativeTokens]
    split_ifs with over
    · simp only [List.mem_cons, forall_eq_or_imp, head]
      constructor
      · rintro ⟨_, ⟨⟩⟩
      · rintro ⟨h, -⟩
        omega
    · rw [ih]
      simp only [later, List.mem_cons, forall_eq_or_imp, head]
      refine ⟨fun h => ⟨?_, h⟩, fun h => h.2⟩
      by_cases mem : ∃ nt' ∈ rest, nt'.id = nt.id
      · obtain ⟨nt', hmem, hid⟩ := mem
        have := h nt' hmem
        rw [hid] at this
        omega
      · have := tokenTotal_eq_zero mem
        omega

theorem sumNativeTokens_lookup {tokens : List NativeToken} {acc s : NativeTokenSum}
    (h : sumNativeTokens tokens acc = .ok s) (id : NativeTokenID) :
    s.lookup id = tokenSum acc tokens id := by
  induction tokens generalizing acc with
  | nil =>
    cases h
    by_cases mem : id ∈ s
    · obtain ⟨v, hv⟩ := Option.isSome_iff_exists.mp (AList.lookup_isSome.mpr mem)
      simp [tokenSum, mem, hv]
    · simp [tokenSum, mem, AList.lookup_eq_none.mpr mem]
  | cons nt rest ih =>
    simp only [sumNativeTokens] at h
    split_ifs at h
    rw [ih h]
    by_cases hx : id = nt.id
    · subst hx
      simp [tokenSum, tokenTotal_cons]
      omega
    · simp [tokenSum, AList.lookup_insert_ne hx, AList.mem_insert, hx, tokenTotal_cons, Ne.symm hx]

theorem sumNativeTokens_perm {l l' : List NativeToken} (p : l.Perm l') {acc s : NativeTokenSum}
    (h : sumNativeTokens l acc = .ok s) :
    ∃ s', sumNativeTokens l' acc = .ok s' ∧ ∀ id, s'.lookup id = s.lookup id := by
  obtain ⟨s', h'⟩ := sumNativeTokens_isOk.mpr fun nt mem => by
    rw [← tokenTotal_perm nt.id p]
    exact sumNativeTokens_isOk.mp ⟨s, h⟩ nt (p.mem_iff.mpr mem)
  exact ⟨s', h', fun id => by rw [sumNativeTokens_lookup h', sumNativeTokens_lookup h,
    tokenSum_perm acc p]⟩

theorem balanced_of_lookup_eq {a b : NativeTokenSum} (same : ∀ id, a.lookup id = b.lookup id) :
    balanced a b = .ok () := by
  have ha : ∀ e ∈ a.entries, b.lookup e.1 = some e.2 := fun e he => by
    rw [← same, AList.mem_lookup_iff.mpr he]
  have hb : ∀ e ∈ b.entries, a.lookup e.1 = some e.2 := fun e he => by
    rw [same, AList.mem_lookup_iff.mpr he]
  have accepted : ((a.entries.all fun e => b.lookup e.1 == some e.2) &&
      b.entries.all fun e => a.lookup e.1 == some e.2) = true := by
    simp only [Bool.and_eq_true, List.all_eq_true, beq_iff_eq]
    exact ⟨ha, hb⟩
  simp [balanced, accepted]

theorem nativeTokensOf_arrange_perm (a b : Arrangement Output) (outputs : List Output) :
    (nativeTokensOf (a.arrange outputs)).Perm (nativeTokensOf (b.arrange outputs)) :=
  ((a.perm outputs).trans (b.perm outputs).symm).flatMap_right _

theorem txSemanticNativeTokens_ignores_output_tokens {σ : MapOrder} {ws : WorkingSet}
    {inSum : NativeTokenSum} (noFoundryOut : hasFoundry ws.outputsByType = false)
    (noFoundryIn : hasFoundry ws.inputsByType = false)
    (summed : sumNativeTokens (nativeTokensOf
      (σ.inTokenOutputs.arrange (ws.inputsByType.filter (·.nativeTokens.isSome)))) ∅ = .ok inSum) :
    ∃ outSum, (∀ id, outSum.lookup id = inSum.lookup id) ∧
      txSemanticNativeTokens σ ws = .ok { ws with inNativeTokens := inSum, outNativeTokens := outSum } := by
  obtain ⟨outSum, hout, same⟩ := sumNativeTokens_perm
    (nativeTokensOf_arrange_perm σ.inTokenOutputs σ.outTokenOutputs _) summed
  refine ⟨outSum, same, ?_⟩
  simp [txSemanticNativeTokens, nativeTokensBalanced, liftErr, summed, hout, noFoundryOut,
    noFoundryIn, balanced_of_lookup_eq fun id => (same id).symm]

/-- A sample: an output carries a native token no input carries, with no foundry. -/
def sampleToken : NativeTokenID := ⟨⟨[3]⟩, []⟩

def sampleMintOutput : Output := .extended ⟨.ed25519 [1], 1, [⟨sampleToken, 1⟩], []⟩

def sampleMintTx : Transaction :=
  ⟨⟨[⟨[7], 0⟩], [sampleMintOutput], none⟩, [.signature ⟨[], []⟩]⟩

def sampleMintInputSet : OutputSet := (∅ : OutputSet).insert ⟨[7], 0⟩ (.simple ⟨.ed25519 [1], 1⟩)

def sampleMintEnv : Env :=
  .indexed [⟨[7], 0⟩] [sampleMintOutput] [.signature ⟨[], []⟩] (by decide) (by decide) (by decide)

theorem sample_mint_accepted : ∃ ws ws', newSemValiContextWorkingSet sampleMintEnv .identity
    sampleMintTx sampleMintInputSet = .ok ws ∧ txSemanticNativeTokens .identity ws = .ok ws' ∧
    tokenTotal sampleToken (nativeTokensOf ws.outputsByType) = 1 ∧
    ws'.outNativeTokens.lookup sampleToken = none ∧
    semanticallyValidate sampleMintEnv .identity ⟨0, 0⟩ sampleMintTx sampleMintInputSet = .ok () := by
  obtain ⟨ws, built⟩ : ∃ ws, newSemValiContextWorkingSet sampleMintEnv .identity sampleMintTx
      sampleMintInputSet = .ok ws := ⟨_, rfl⟩
  obtain ⟨msg, txId, -, -, hws⟩ := newSemValiContextWorkingSet_eq_ok built
  obtain ⟨outSum, same, accepted⟩ := @txSemanticNativeTokens_ignores_output_tokens .identity ws _
    (by rw [hws]; rfl) (by rw [hws]; rfl) (by rw [hws]; rfl)
  exact ⟨ws, _, built, accepted, by rw [hws]; rfl, (same sampleToken).trans rfl, rfl⟩

end Iotago
