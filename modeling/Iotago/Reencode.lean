import Iotago.Semantic.Pipeline

/-! Decoding then encoding without validation gives back the bytes read, level by
level from the codecs' contract up, so `ID()` hashes exactly the bytes decoded. -/
namespace Iotago

theorem take_eq_leBytes {k : Nat} {bs : Bytes} (long : k ≤ bs.length) :
    bs.take k = leBytes k (leValue (bs.take k)) := by
  conv_lhs => rw [← leBytes_leValue (bs.take k)]
  rw [List.length_take, Nat.min_eq_left long]

theorem take_length_sub {pre rest : Bytes} :
    (pre ++ rest).take ((pre ++ rest).length - rest.length) = pre := by
  simp

section Slices

variable {α : Type} {tag : α → Bytes} (c : ElementCodec α tag)

theorem readElements_reencodes {m : DeSerializationMode} {select : UInt8 → Bool} {unique : Bool}
    {count : Nat} {seen : List Bytes} {i : Nat} {bs rest : Bytes} {xs : List α}
    (h : readElements c m select unique count seen i bs = .ok (xs, rest)) :
    ∃ pre, bs = pre ++ rest ∧ ∀ seen' j,
      writeElements c deSeriModeNoValidation false seen' j xs = .ok pre := by
  induction count generalizing seen i bs xs with
  | zero =>
    cases h
    exact ⟨[], rfl, fun _ _ => rfl⟩
  | succ count ih =>
    cases bs with
    | nil => simp [readElements] at h
    | cons ty tail =>
      simp only [readElements, Except.throw_eq_error, Except.error_bind', pure_bind,
        Except.ite_error_eq_ok, Except.bind_eq_ok] at h
      obtain ⟨-, ⟨x, n⟩, hx, -, ⟨xs', rest'⟩, hrest, h⟩ := h
      cases h
      obtain ⟨-, hser⟩ := c.serialize_deserialize _ _ _ _ hx
      obtain ⟨pre, hsplit, hwrite⟩ := ih hrest
      refine ⟨(ty :: tail).take n ++ pre, ?_, fun seen' j => ?_⟩
      · rw [List.append_assoc, ← hsplit, List.take_append_drop]
      · simp [writeElements, hser, hwrite]

theorem writeSliceWithRules_noValidation {rules : ArrayRules} {xs : List α} {b : Bytes}
    (h : writeSlice c deSeriModeNoValidation false xs = .ok b) :
    writeSliceWithRules c deSeriModeNoValidation rules xs = .ok b := by
  simp only [writeSlice, Except.throw_eq_error, Except.error_bind', pure_bind,
    Except.ite_error_eq_ok, Except.map_eq_ok, Except.bind_eq_ok] at h
  obtain ⟨small, body, hbody, h⟩ := h
  cases h
  simp [writeSliceWithRules, hbody, small]

theorem readSlice_reencodes {m : DeSerializationMode} {select : UInt8 → Bool} {rules : ArrayRules}
    {bs rest : Bytes} {xs : List α} (h : readSlice c m select rules bs = .ok (xs, rest)) :
    ∃ pre, bs = pre ++ rest ∧ writeSlice c deSeriModeNoValidation false xs = .ok pre := by
  simp only [readSlice, Except.throw_eq_error, Except.error_bind', pure_bind,
    Except.ite_error_eq_ok] at h
  obtain ⟨long, h⟩ := h
  have h : readElements c m select (m.performValidation && rules.noDuplicates)
      (leValue (bs.take 2)) [] 0 (bs.drop 2) = .ok (xs, rest) := by
    split_ifs at h <;> simp_all
  obtain ⟨pre, hsplit, hwrite⟩ := readElements_reencodes c h
  have count := readElements_length c h
  have prefix2 : bs.take 2 = leBytes 2 xs.length := by
    rw [count, ← take_eq_leBytes (by omega)]
  have small : xs.length ≤ 65535 := by
    have := leValue_lt (bs.take 2)
    rw [List.length_take, Nat.min_eq_left (by omega)] at this
    omega
  refine ⟨bs.take 2 ++ pre, by rw [List.append_assoc, ← hsplit, List.take_append_drop], ?_⟩
  simp [writeSlice, Nat.not_lt.mpr small, hwrite, prefix2]

theorem ElementCodec.signing_eq_noValidation {x : α} {bs b : Bytes} {n : Nat}
    (decoded : c.deserialize deSeriModePerformValidation bs = .ok (x, n))
    (signed : c.serialize deSeriModeSigning x = .ok b) :
    c.serialize deSeriModeNoValidation x = .ok b := by
  rw [c.serialize_lexical _ _ _ decoded] at signed
  have back := c.deserialize_serialize x b [] signed
  rw [List.append_nil] at back
  simpa using (c.serialize_deserialize _ _ _ _ back).2

/-- `x` is the result of some validated decoding. -/
def ElementCodec.Decoded (x : α) : Prop :=
  ∃ bs n, c.deserialize deSeriModePerformValidation bs = .ok (x, n)

theorem readElements_decoded {select : UInt8 → Bool} {unique : Bool} {count : Nat}
    {seen : List Bytes} {i : Nat} {bs rest : Bytes} {xs : List α}
    (h : readElements c deSeriModePerformValidation select unique count seen i bs = .ok (xs, rest)) :
    ∀ x ∈ xs, c.Decoded x := by
  induction count generalizing seen i bs xs with
  | zero =>
    cases h
    nofun
  | succ count ih =>
    cases bs with
    | nil => simp [readElements] at h
    | cons ty tail =>
      simp only [readElements, Except.throw_eq_error, Except.error_bind', pure_bind,
        Except.ite_error_eq_ok, Except.bind_eq_ok] at h
      obtain ⟨-, ⟨x, n⟩, hx, -, ⟨xs', rest'⟩, hrest, h⟩ := h
      cases h
      rintro y (_ | ⟨_, mem⟩)
      · exact ⟨_, _, hx⟩
      · exact ih hrest y mem

theorem readSlice_decoded {select : UInt8 → Bool} {rules : ArrayRules} {bs rest : Bytes}
    {xs : List α} (h : readSlice c deSeriModePerformValidation select rules bs = .ok (xs, rest)) :
    ∀ x ∈ xs, c.Decoded x := by
  simp only [readSlice, deSeriModePerformValidation, if_true, Except.throw_eq_error,
    Except.error_bind', pure_bind, Except.ite_error_eq_ok] at h
  exact readElements_decoded c h.2.2.2

theorem writeElements_signing {unique : Bool} {seen seen' : List Bytes} {i j : Nat} {xs : List α}
    {b : Bytes} (decoded : ∀ x ∈ xs, c.Decoded x)
    (h : writeElements c deSeriModeSigning unique seen i xs = .ok b) :
    writeElements c deSeriModeNoValidation false seen' j xs = .ok b := by
  induction xs generalizing seen seen' i j b with
  | nil => exact h
  | cons x xs ih =>
    simp only [writeElements, Except.throw_eq_error, Except.error_bind', pure_bind,
      Except.ite_error_eq_ok, Except.bind_eq_ok] at h
    obtain ⟨bx, hx, -, rest, hrest, h⟩ := h
    cases h
    obtain ⟨_, _, dx⟩ := decoded x (.head _)
    have hx' := c.signing_eq_noValidation dx hx
    have hrest' := @ih _ (seen' ++ [bx]) _ (j + 1) _ (fun y mem => decoded y (.tail _ mem)) hrest
    simp [writeElements, hx', hrest']

theorem writeSlice_signing {unique : Bool} {xs : List α} {b : Bytes}
    (decoded : ∀ x ∈ xs, c.Decoded x) (h : writeSlice c deSeriModeSigning unique xs = .ok b) :
    writeSlice c deSeriModeNoValidation false xs = .ok b := by
  simp only [writeSlice, Except.throw_eq_error, Except.error_bind', pure_bind,
    Except.ite_error_eq_ok, Except.bind_eq_ok] at h
  obtain ⟨small, body, hbody, h⟩ := h
  cases h
  simp [writeSlice, small, writeElements_signing c decoded hbody]

end Slices

section Payload

variable (c : ElementCodec Indexation (fun _ => leBytes 4 indexationPayloadTypeID))

theorem readPayload_eq_ok {m : DeSerializationMode} {bs rest : Bytes} {p : Option Indexation}
    (h : readPayload c m bs = .ok (p, rest)) :
    4 ≤ bs.length ∧ (p = none ∧ leValue (bs.take 4) = 0 ∧ rest = bs.drop 4 ∨
      ∃ q, p = some q ∧ c.deserialize m (bs.drop 4) = .ok (q, leValue (bs.take 4)) ∧
        rest = (bs.drop 4).drop (leValue (bs.take 4))) := by
  simp only [readPayload, Except.throw_eq_error, Except.error_bind', pure_bind,
    Except.ite_error_eq_ok] at h
  obtain ⟨long, h⟩ := h
  refine ⟨Nat.le_of_not_lt long, ?_⟩
  by_cases empty : leValue (bs.take 4) = 0
  · simp only [empty, if_true, Except.ok.injEq, Prod.mk.injEq] at h
    obtain ⟨rfl, rfl⟩ := h
    exact .inl ⟨rfl, empty, rfl⟩
  · simp only [empty, if_false, Except.throw_eq_error, Except.error_bind', pure_bind,
      Except.ite_error_eq_ok, Except.bind_eq_ok, not_not] at h
    obtain ⟨-, -, -, ⟨q, n⟩, hq, rfl, h⟩ := h
    cases h
    exact .inr ⟨q, rfl, hq, rfl⟩

theorem readPayload_reencodes {m : DeSerializationMode} {bs rest : Bytes} {p : Option Indexation}
    (h : readPayload c m bs = .ok (p, rest)) :
    ∃ pre, bs = pre ++ rest ∧ writePayload c deSeriModeNoValidation p = .ok pre := by
  obtain ⟨long, ⟨rfl, empty, rfl⟩ | ⟨q, rfl, hq, rfl⟩⟩ := readPayload_eq_ok c h
  · exact ⟨bs.take 4, (List.take_append_drop 4 bs).symm, by rw [take_eq_leBytes long, empty]; rfl⟩
  · obtain ⟨le, hser⟩ := c.serialize_deserialize _ _ _ _ hq
    refine ⟨bs.take 4 ++ (bs.drop 4).take (leValue (bs.take 4)), ?_, ?_⟩
    · rw [List.append_assoc, List.take_append_drop, List.take_append_drop]
    · have len := List.length_take_of_le le
      simp only [writePayload, hser, Except.ok_bind', len, ← take_eq_leBytes long]
      rfl

theorem readPayload_decoded {bs rest : Bytes} {p : Option Indexation}
    (h : readPayload c deSeriModePerformValidation bs = .ok (p, rest)) : ∀ q ∈ p, c.Decoded q := by
  obtain ⟨-, ⟨rfl, -⟩ | ⟨q, rfl, hq, -⟩⟩ := readPayload_eq_ok c h
  · nofun
  · rintro _ ⟨⟩
    exact ⟨_, _, hq⟩

theorem writePayload_signing {p : Option Indexation} {b : Bytes} (decoded : ∀ q ∈ p, c.Decoded q)
    (h : writePayload c deSeriModeSigning p = .ok b) :
    writePayload c deSeriModeNoValidation p = .ok b := by
  cases p with
  | none => exact h
  | some q =>
    simp only [writePayload, Except.bind_eq_ok] at h
    obtain ⟨bq, hq, h⟩ := h
    cases h
    obtain ⟨_, _, dq⟩ := decoded q rfl
    simp [writePayload, c.signing_eq_noValidation dq hq]

end Payload

section Codec

variable (env : CodecEnv)

theorem TransactionEssence.deserialize_eq_ok {m : DeSerializationMode} {data : Bytes}
    {e : TransactionEssence} {n : Nat} (h : TransactionEssence.deserialize env m data = .ok (e, n)) :
    ∃ ty afterType afterInputs afterOutputs rest, data = ty :: afterType ∧
      readSlice env.input m selectInput inputsArrayBound afterType = .ok (e.inputs, afterInputs) ∧
      readSlice env.output m outputTypeSupportedByTxEssence outputsArrayBound afterInputs =
        .ok (e.outputs, afterOutputs) ∧
      readPayload env.payload m afterOutputs = .ok (e.payload, rest) ∧
      n = data.length - rest.length := by
  cases data with
  | nil => cases pv : m.performValidation <;> simp [TransactionEssence.deserialize, pv] at h
  | cons ty afterType =>
    cases pv : m.performValidation <;>
      simp only [TransactionEssence.deserialize, pv, Except.throw_eq_error, Except.error_bind',
        pure_bind, Except.ite_error_eq_ok, Except.bind_eq_ok, if_true, Bool.false_eq_true, if_false] at h
    · obtain ⟨⟨inputs, afterInputs⟩, hin, ⟨outputs, afterOutputs⟩, hout, ⟨payload, rest⟩, hp, h⟩ := h
      cases h
      exact ⟨_, _, _, _, _, rfl, hin, hout, hp, rfl⟩
    · obtain ⟨-, -, ⟨inputs, afterInputs⟩, hin, ⟨outputs, afterOutputs⟩, hout, -, -, ⟨payload, rest⟩,
        hp, h⟩ := h
      cases h
      exact ⟨_, _, _, _, _, rfl, hin, hout, hp, rfl⟩

theorem TransactionEssence.deserialize_reencodes {m : DeSerializationMode} {data : Bytes}
    {e : TransactionEssence} {n : Nat} (head : data.head? = some 0)
    (h : TransactionEssence.deserialize env m data = .ok (e, n)) :
    e.serialize env deSeriModeNoValidation = .ok (data.take n) := by
  obtain ⟨ty, afterType, afterInputs, afterOutputs, rest, rfl, hin, hout, hp, rfl⟩ :=
    TransactionEssence.deserialize_eq_ok env h
  obtain rfl : ty = 0 := by simpa using head
  obtain ⟨preI, rfl, win⟩ := readSlice_reencodes _ hin
  obtain ⟨preO, rfl, wout⟩ := readSlice_reencodes _ hout
  obtain ⟨preP, rfl, wp⟩ := readPayload_reencodes _ hp
  have consumed := @take_length_sub (0 :: (preI ++ (preO ++ preP))) rest
  simp only [List.cons_append, List.append_assoc] at consumed
  rw [consumed]
  simp [TransactionEssence.serialize, win, wout, wp]

theorem TransactionEssence.signing_eq_noValidation {data : Bytes} {e : TransactionEssence}
    {n : Nat} {b : Bytes}
    (decoded : TransactionEssence.deserialize env deSeriModePerformValidation data = .ok (e, n))
    (signed : e.serialize env deSeriModeSigning = .ok b) :
    e.serialize env deSeriModeNoValidation = .ok b := by
  obtain ⟨_, _, _, _, _, -, hin, hout, hp, -⟩ := TransactionEssence.deserialize_eq_ok env decoded
  simp only [TransactionEssence.serialize, deSeriModeSigning_performValidation, if_true,
    Except.bind_eq_ok] at signed
  obtain ⟨_, -, bi, hbi, bo, hbo, bp, hbp, h⟩ := signed
  cases h
  simp [TransactionEssence.serialize, writeSlice_signing _ (readSlice_decoded _ hin) hbi,
    writeSlice_signing _ (readSlice_decoded _ hout) hbo,
    writePayload_signing _ (readPayload_decoded _ hp) hbp]

theorem Transaction.deserialize_reencodes {m : DeSerializationMode}
    {paras : Option DeSerializationParameters} {data : Bytes} {t : Transaction} {n : Nat}
    (h : Transaction.deserialize env m paras data = .ok (t, n)) :
    t.serialize env deSeriModeNoValidation none = .ok (data.take n) := by
  obtain ⟨k, rest, long, typ, head, he, hblocks, rfl, -⟩ := Transaction.deserialize_eq_ok env h
  have hess := TransactionEssence.deserialize_reencodes env head he
  obtain ⟨preU, hsplit, wu⟩ := readSlice_reencodes _ hblocks
  have whole : data = leBytes 4 payloadTransaction ++ (data.drop 4).take k ++ preU ++ rest := by
    rw [← typ, ← take_eq_leBytes long, List.append_assoc, List.append_assoc, ← hsplit,
      List.take_append_drop, List.take_append_drop]
  have consumed : data.take (data.length - rest.length) =
      leBytes 4 payloadTransaction ++ (data.drop 4).take k ++ preU := by
    conv_lhs => rw [whole]
    exact take_length_sub
  rw [consumed]
  simp [Transaction.serialize, hess, writeSliceWithRules_noValidation _ wu]

theorem txDeSeriValidation_outputsRules {t : Transaction} {paras : Option DeSerializationParameters}
    {readBytes : Bytes} (h : txDeSeriValidation env t paras readBytes = .ok ()) :
    env.outputsRules (env.hash readBytes) t.essence.outputs = .ok () := by
  cases paras with
  | none => cases h
  | some paras =>
    simp only [txDeSeriValidation, Transaction.syntacticallyValidate, Except.bind_eq_ok] at h
    obtain ⟨_, -, ⟨⟩, hout, -⟩ := h
    exact hout

theorem Transaction.id_eq_of_signing_bytes_eq {p1 p2 : Option DeSerializationParameters}
    {d1 d2 : Bytes} {t1 t2 : Transaction} {n1 n2 : Nat} {b : Bytes}
    (decoded1 : Transaction.deserialize env deSeriModePerformValidation p1 d1 = .ok (t1, n1))
    (decoded2 : Transaction.deserialize env deSeriModePerformValidation p2 d2 = .ok (t2, n2))
    (sameBlocks : t1.unlockBlocks = t2.unlockBlocks)
    (signed1 : t1.essence.serialize env deSeriModeSigning = .ok b)
    (signed2 : t2.essence.serialize env deSeriModeSigning = .ok b) :
    t1.id env = t2.id env := by
  obtain ⟨_, _, -, -, -, he1, -⟩ := Transaction.deserialize_eq_ok env decoded1
  obtain ⟨_, _, -, -, -, he2, -⟩ := Transaction.deserialize_eq_ok env decoded2
  simp [Transaction.id, Transaction.serialize, writeSliceWithRules, sameBlocks,
    TransactionEssence.signing_eq_noValidation env he1 signed1,
    TransactionEssence.signing_eq_noValidation env he2 signed2]

end Codec

/-- The transaction ID agrees wherever it is computed. -/
theorem Transaction.deserialize_fixes_id {env : Env} {m : DeSerializationMode}
    {paras : Option DeSerializationParameters} {data : Bytes} {t : Transaction} {n : Nat}
    (h : Transaction.deserialize env.toCodecEnv m paras data = .ok (t, n)) :
    t.serialize env.toCodecEnv deSeriModeNoValidation none = .ok (data.take n) ∧
      t.id env.toCodecEnv = .ok (env.hash (data.take n)) ∧
      (m.performValidation → env.outputsRules (env.hash (data.take n)) t.essence.outputs = .ok ()) ∧
      ∀ σ S ws, newSemValiContextWorkingSet env σ t S = .ok ws →
        ws.outChains = outputChainSet env (env.hash (data.take n)) t.essence.outputs := by
  have bytes := Transaction.deserialize_reencodes env.toCodecEnv h
  have txId : t.id env.toCodecEnv = .ok (env.hash (data.take n)) := by
    simp [Transaction.id, bytes]
  obtain ⟨-, -, -, -, -, -, -, -, valid⟩ := Transaction.deserialize_eq_ok env.toCodecEnv h
  refine ⟨bytes, txId, fun pv => txDeSeriValidation_outputsRules _ (valid pv), ?_⟩
  intro σ S ws built
  obtain ⟨_, _, -, hid, rfl⟩ := newSemValiContextWorkingSet_eq_ok built
  cases hid.symm.trans txId
  rfl

/-- A sample: one input, one output and one signature, followed by a byte that is not
part of the transaction. -/
def sampleInput : UTXOInput := ⟨[5], 0⟩

def sampleSimple : Output := .simple ⟨.ed25519 [1], 1⟩

def sampleSigned : Transaction := ⟨⟨[sampleInput], [sampleSimple], none⟩, [.signature ⟨[], []⟩]⟩

def sampleSignedEnv : Env :=
  .indexed [sampleInput] [sampleSimple] [.signature ⟨[], []⟩] (by decide) (by decide) (by decide)

def sampleSignedBytes : Bytes :=
  [0, 0, 0, 0, 0, 1, 0, 0, 0, 1, 0, 3, 0, 0, 0, 0, 0, 1, 0, 0, 0, 9]

theorem sample_signed_id :
    sampleSigned.id sampleSignedEnv.toCodecEnv = .ok (sampleSignedBytes.take 21) :=
  (Transaction.deserialize_fixes_id (rfl : Transaction.deserialize sampleSignedEnv.toCodecEnv
    deSeriModePerformValidation (some ⟨0, ⟨0, 0, 0⟩⟩) sampleSignedBytes = .ok (sampleSigned, 21))).2.1

theorem sample_signing_binds_id :
    sampleSigned.id sampleSignedEnv.toCodecEnv = sampleSigned.id sampleSignedEnv.toCodecEnv :=
  Transaction.id_eq_of_signing_bytes_eq sampleSignedEnv.toCodecEnv
    (rfl : Transaction.deserialize sampleSignedEnv.toCodecEnv deSeriModePerformValidation
      (some ⟨0, ⟨0, 0, 0⟩⟩) sampleSignedBytes = .ok (sampleSigned, 21))
    (rfl : Transaction.deserialize sampleSignedEnv.toCodecEnv deSeriModePerformValidation
      (some ⟨0, ⟨0, 0, 0⟩⟩) (sampleSignedBytes.take 21) = .ok (sampleSigned, 21))
    rfl
    (rfl : sampleSigned.essence.serialize sampleSignedEnv.toCodecEnv deSeriModeSigning =
      .ok [0, 1, 0, 0, 0, 1, 0, 3, 0, 0, 0, 0, 0])
    rfl

end Iotago
