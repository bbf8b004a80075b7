import Iotago.Essence

namespace Iotago

/-- `PayloadTransaction`, the `uint32` type prefix of a transaction. -/
def payloadTransaction : Nat := 0

section Codec

variable (env : CodecEnv)

/-- `syntacticallyValidate`. -/
def Transaction.syntacticallyValidate (t : Transaction) (readBytes : Bytes)
    (paras : DeSerializationParameters) : Except Err Unit := do
  env.essenceRules t.essence paras
  env.outputsRules (env.hash readBytes) t.essence.outputs
  env.unlockBlocksRules t.unlockBlocks

/-- `txDeSeriValidation`: the context must carry `DeSerializationParameters`. -/
def txDeSeriValidation (t : Transaction) (deSeriCtx : Option DeSerializationParameters)
    (readBytes : Bytes) : Except Err Unit :=
  match deSeriCtx with
  | none => .error .missingDeSerializationParas
  | some paras => t.syntacticallyValidate env readBytes paras

/-- `unlockBlockArrayRulesCopy`, both bounds set to the input count. -/
def unlockBlockArrayRules (inputCount : Nat) : ArrayRules := ⟨inputCount, inputCount, false⟩

/-- `Transaction.Serialize`. -/
def Transaction.serialize (m : DeSerializationMode) (deSeriCtx : Option DeSerializationParameters)
    (t : Transaction) : Except Err Bytes := do
  let essence ← t.essence.serialize env m
  let unlocks ← writeSliceWithRules env.unlockBlock m
    (unlockBlockArrayRules t.essence.inputs.length) t.unlockBlocks
  let written := leBytes 4 payloadTransaction ++ essence ++ unlocks
  if m.performValidation then txDeSeriValidation env t deSeriCtx written
  return written

/-- `Transaction.Deserialize`, returning the transaction and the bytes consumed. -/
def Transaction.deserialize (m : DeSerializationMode)
    (deSeriCtx : Option DeSerializationParameters) (data : Bytes) :
    Except Err (Transaction × Nat) := do
  if data.length < 4 then throw .deserializationNotEnoughData
  if leValue (data.take 4) ≠ payloadTransaction then throw .deserializationTypeMismatch
  let afterPrefix := data.drop 4
  match afterPrefix with
  | [] => throw .deserializationNotEnoughData
  | ty :: _ => if ty ≠ 0 then throw (.unknownTransactionEssenceType ty.toNat)
  let (essence, n) ← TransactionEssence.deserialize env m afterPrefix
  let (unlockBlocks, rest) ← readSlice env.unlockBlock m selectUnlockBlock
    (unlockBlockArrayRules essence.inputs.length) (afterPrefix.drop n)
  let t : Transaction := ⟨essence, unlockBlocks⟩
  let consumed := data.length - rest.length
  if m.performValidation then txDeSeriValidation env t deSeriCtx (data.take consumed)
  return (t, consumed)

theorem Transaction.deserialize_eq_ok {m : DeSerializationMode}
    {paras : Option DeSerializationParameters} {data : Bytes} {t : Transaction} {n : Nat}
    (h : Transaction.deserialize env m paras data = .ok (t, n)) :
    ∃ k rest, 4 ≤ data.length ∧ leValue (data.take 4) = payloadTransaction ∧
      (data.drop 4).head? = some 0 ∧
      TransactionEssence.deserialize env m (data.drop 4) = .ok (t.essence, k) ∧
      readSlice env.unlockBlock m selectUnlockBlock
        (unlockBlockArrayRules t.essence.inputs.length) ((data.drop 4).drop k) =
        .ok (t.unlockBlocks, rest) ∧
      n = data.length - rest.length ∧
      (m.performValidation → txDeSeriValidation env t paras (data.take n) = .ok ()) := by
  unfold Transaction.deserialize at h
  simp only [Except.throw_eq_error, Except.error_bind', pure_bind, Except.ite_error_eq_ok,
    Except.bind_eq_ok] at h
  obtain ⟨long, typ, h⟩ := h
  split at h
  · simp at h
  · rename_i ty tail afterPrefix
    simp only [Except.throw_eq_error, Except.error_bind', pure_bind, Except.ite_error_eq_ok,
      Except.bind_eq_ok] at h
    obtain ⟨ty0, ⟨essence, k⟩, he, ⟨blocks, rest⟩, hblocks, h⟩ := h
    have head : (data.drop 4).head? = some 0 := by simp_all
    cases pv : m.performValidation <;>
      simp only [pv, if_true, Bool.false_eq_true, if_false, pure_bind, Except.bind_eq_ok] at h
    · cases h
      exact ⟨k, rest, by omega, by simpa using typ, head, he, hblocks, rfl, nofun⟩
    · obtain ⟨⟨⟩, valid, h⟩ := h
      cases h
      exact ⟨k, rest, by omega, by simpa using typ, head, he, hblocks, rfl, fun _ => valid⟩

theorem Transaction.deserialize_unlockBlocks_length {paras : Option DeSerializationParameters}
    {data : Bytes} {t : Transaction} {n : Nat}
    (h : Transaction.deserialize env deSeriModePerformValidation paras data = .ok (t, n)) :
    t.unlockBlocks.length = t.essence.inputs.length := by
  obtain ⟨_, _, -, -, -, -, hblocks, -⟩ := Transaction.deserialize_eq_ok env h
  have bounds := readSlice_length_bounds _ hblocks
  exact Nat.le_antisymm bounds.2 bounds.1

/-- `ID()`: the hash of the encoding made without validation. -/
def Transaction.id (t : Transaction) : Except Err TransactionID :=
  env.hash <$> t.serialize env deSeriModeNoValidation none

theorem Transaction.id_outputs_length_le {t : Transaction} {txId : TransactionID}
    (h : t.id env = .ok txId) : t.essence.outputs.length ≤ 65535 := by
  obtain ⟨b, hb, -⟩ := Except.map_eq_ok.mp h
  simp only [Transaction.serialize, Except.bind_eq_ok] at hb
  obtain ⟨_, he, -⟩ := hb
  exact TransactionEssence.serialize_outputs_length_le env he

end Codec

end Iotago
