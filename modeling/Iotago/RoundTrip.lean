import Iotago.Reencode

/-! Encoding under validation and decoding the result under validation. The decoder
enforces rules that the encoder does not, so a transaction with 128 outputs encodes
but does not decode. -/
namespace Iotago

section Slices

variable {α : Type} {tag : α → Bytes} (c : ElementCodec α tag)

theorem readElements_writeElements {select : UInt8 → Bool} {unique : Bool} {seen : List Bytes}
    {i : Nat} {xs : List α} {b rest : Bytes}
    (selected : ∀ x ∈ xs, ∃ ty tl, tag x = ty :: tl ∧ select ty = true)
    (h : writeElements c deSeriModePerformValidation unique seen i xs = .ok b) :
    readElements c deSeriModePerformValidation select unique xs.length seen i (b ++ rest) =
      .ok (xs, rest) := by
  induction xs generalizing seen i b with
  | nil =>
    cases h
    rfl
  | cons x xs ih =>
    simp only [writeElements, Except.throw_eq_error, Except.error_bind', pure_bind,
      Except.ite_error_eq_ok, Except.bind_eq_ok] at h
    obtain ⟨bx, hx, fresh, body, hbody, h⟩ := h
    cases h
    obtain ⟨ty, tl, htag, hsel⟩ := selected x (.head _)
    obtain ⟨suffix, hsuffix⟩ := c.serialize_tag _ _ _ hx
    obtain ⟨tail, rfl⟩ : ∃ tail, bx = ty :: tail := ⟨tl ++ suffix, by rw [← hsuffix, htag]; rfl⟩
    have dx := c.deserialize_serialize x _ (body ++ rest) hx
    have later := ih (fun y mem => selected y (.tail _ mem)) hbody
    simp only [List.cons_append, List.append_assoc] at dx ⊢
    simp [readElements, hsel, dx, later]
    exact fun hu mem => fresh (by simp [hu, mem])

theorem writeElements_length_ge {m : DeSerializationMode} {unique : Bool} {seen : List Bytes}
    {i : Nat} {xs : List α} {b : Bytes} (tagged : ∀ x, tag x ≠ [])
    (h : writeElements c m unique seen i xs = .ok b) : xs.length ≤ b.length := by
  induction xs generalizing seen i b with
  | nil => exact Nat.zero_le _
  | cons x xs ih =>
    simp only [writeElements, Except.throw_eq_error, Except.error_bind', pure_bind,
      Except.ite_error_eq_ok, Except.bind_eq_ok] at h
    obtain ⟨bx, hx, -, body, hbody, h⟩ := h
    cases h
    have head : 0 < bx.length :=
      Nat.lt_of_lt_of_le (List.length_pos.mpr (tagged x)) (c.serialize_tag _ _ _ hx).length_le
    have rest := ih hbody
    simp only [List.length_cons, List.length_append]
    omega

theorem writeSlice_length_ge {m : DeSerializationMode} {unique : Bool} {xs : List α} {b : Bytes}
    (tagged : ∀ x, tag x ≠ []) (h : writeSlice c m unique xs = .ok b) :
    2 + xs.length ≤ b.length := by
  simp only [writeSlice, Except.throw_eq_error, Except.error_bind', pure_bind,
    Except.ite_error_eq_ok, Except.bind_eq_ok] at h
  obtain ⟨-, body, hbody, h⟩ := h
  cases h
  simpa using writeElements_length_ge c tagged hbody

theorem readSlice_writeSlice {select : UInt8 → Bool} {rules : ArrayRules} {xs : List α}
    {b rest : Bytes} (bounds : rules.min ≤ xs.length ∧ xs.length ≤ rules.max)
    (selected : ∀ x ∈ xs, ∃ ty tl, tag x = ty :: tl ∧ select ty = true)
    (h : writeSlice c deSeriModePerformValidation rules.noDuplicates xs = .ok b) :
    readSlice c deSeriModePerformValidation select rules (b ++ rest) = .ok (xs, rest) := by
  simp only [writeSlice, Except.throw_eq_error, Except.error_bind', pure_bind,
    Except.ite_error_eq_ok, Except.bind_eq_ok] at h
  obtain ⟨small, body, hbody, h⟩ := h
  cases h
  have count : leValue (leBytes 2 xs.length) = xs.length := by
    rw [leValue_leBytes]
    omega
  simp [readSlice, List.append_assoc, count, bounds.1, bounds.2, Nat.not_lt.mpr,
    readElements_writeElements c selected hbody]

theorem writeSliceWithRules_eq_ok {rules : ArrayRules} {xs : List α} {b : Bytes}
    (h : writeSliceWithRules c deSeriModePerformValidation rules xs = .ok b) :
    rules.min ≤ xs.length ∧ xs.length ≤ rules.max ∧
      writeSlice c deSeriModePerformValidation rules.noDuplicates xs = .ok b := by
  simp only [writeSliceWithRules, deSeriModePerformValidation_performValidation, Bool.true_and,
    if_true, Except.throw_eq_error, Except.error_bind', pure_bind, Except.ite_error_eq_ok,
    Except.bind_eq_ok] at h
  obtain ⟨body, hbody, low, high, small, h⟩ := h
  cases h
  exact ⟨Nat.le_of_not_lt low, Nat.le_of_not_lt high, by simp [writeSlice, small, hbody]⟩

end Slices

section Payload

variable (c : ElementCodec Indexation (fun _ => leBytes 4 indexationPayloadTypeID))

theorem readPayload_writePayload {p : Option Indexation} {b rest : Bytes}
    (short : b.length < 2 ^ 32) (h : writePayload c deSeriModePerformValidation p = .ok b) :
    readPayload c deSeriModePerformValidation (b ++ rest) = .ok (p, rest) := by
  cases p with
  | none =>
    cases h
    simp only [readPayload, List.length_append, leBytes_length, add_lt_iff_neg_left,
      not_lt_zero', ↓reduceIte, List.take_left', leValue_leBytes, Nat.reducePow, Nat.zero_mod,
      List.drop_left', bind_pure_comp, map_pure]
    rfl
  | some q =>
    simp only [writePayload, Except.bind_eq_ok] at h
    obtain ⟨pb, hq, h⟩ := h
    cases h
    obtain ⟨suffix, hsuffix⟩ := c.serialize_tag _ _ _ hq
    have dq := c.deserialize_serialize q _ rest hq
    have long : 4 ≤ pb.length := by simp [← hsuffix]
    have ty : leValue ((pb ++ rest).take 4) = indexationPayloadTypeID := by
      rw [← hsuffix, List.append_assoc, List.take_left' (leBytes_length 4 _), leValue_leBytes]
      rfl
    have len : leValue (leBytes 4 pb.length) = pb.length := by
      rw [leValue_leBytes]
      simp at short
      omega
    rw [List.append_assoc]
    have nonempty : pb ≠ [] := List.ne_nil_of_length_pos (by omega)
    simp only [readPayload, List.length_append, leBytes_length, add_lt_iff_neg_left,
      not_lt_zero', ↓reduceIte, List.take_left', len, List.length_eq_zero, nonempty,
      List.drop_left', Except.throw_eq_error, ty, ne_eq, not_true_eq_false, dq, bind_pure_comp,
      Except.map_error, map_pure, ite_not, Except.ok_bind', pure_bind, Except.ite_error_eq_ok, not_lt]
    exact ⟨by omega, rfl⟩

theorem writePayload_length_ge {m : DeSerializationMode} {p : Option Indexation} {b : Bytes}
    (h : writePayload c m p = .ok b) : 4 ≤ b.length := by
  cases p with
  | none =>
    cases h
    simp
  | some q =>
    simp only [writePayload, Except.bind_eq_ok] at h
    obtain ⟨pb, -, h⟩ := h
    cases h
    simp

end Payload

section Codec

variable (env : CodecEnv)

/-- The rules the validating decoder enforces and the validating encoder does not. -/
structure TransactionEssence.DecoderRules (e : TransactionEssence) : Prop where
  inputs_le : e.inputs.length ≤ maxInputsCount
  outputs_le : e.outputs.length ≤ maxOutputsCount
  addrUnique : env.outputsPredicateAddrUnique e.outputs = .ok ()

theorem TransactionEssence.syntacticallyValidate_counts {e : TransactionEssence} {u : Unit}
    (h : e.syntacticallyValidate = .ok u) : minInputsCount ≤ e.inputs.length ∧
      minOutputsCount ≤ e.outputs.length := by
  simp only [TransactionEssence.syntacticallyValidate, Except.throw_eq_error,
    Except.error_bind', pure_bind, Except.ite_error_eq_ok] at h
  simp only [minInputsCount, minOutputsCount]
  omega

/-- A validated essence encoding holds its type byte, two counts with at least one
element each, and the payload's length: eleven bytes, one short of
`TransactionEssenceMinByteSize`. -/
theorem TransactionEssence.serialize_length_ge {e : TransactionEssence} {b : Bytes}
    (h : e.serialize env deSeriModePerformValidation = .ok b) : 11 ≤ b.length := by
  simp only [TransactionEssence.serialize, deSeriModePerformValidation_performValidation,
    if_true, Except.bind_eq_ok] at h
  obtain ⟨_, valid, bi, hbi, bo, hbo, bp, hbp, h⟩ := h
  cases h
  have counts := TransactionEssence.syntacticallyValidate_counts valid
  have li := writeSlice_length_ge _ (fun _ => List.cons_ne_nil _ _) hbi
  have lo := writeSlice_length_ge _ (fun _ => List.cons_ne_nil _ _) hbo
  have lp := writePayload_length_ge _ hbp
  simp only [minInputsCount, minOutputsCount] at counts
  simp only [List.length_append, List.length_singleton]
  omega

theorem TransactionEssence.deserialize_serialize {e : TransactionEssence} {b rest : Bytes}
    (rules : e.DecoderRules env) (short : b.length < 2 ^ 32)
    (long : transactionEssenceMinByteSize ≤ b.length + rest.length)
    (h : e.serialize env deSeriModePerformValidation = .ok b) :
    TransactionEssence.deserialize env deSeriModePerformValidation (b ++ rest) =
      .ok (e, b.length) := by
  simp only [TransactionEssence.serialize, deSeriModePerformValidation_performValidation,
    if_true, Except.bind_eq_ok] at h
  obtain ⟨_, valid, bi, hbi, bo, hbo, bp, hbp, h⟩ := h
  cases h
  have counts := TransactionEssence.syntacticallyValidate_counts valid
  have ri := @readSlice_writeSlice _ _ env.input selectInput inputsArrayBound _ _ (bo ++ (bp ++ rest))
    ⟨counts.1, rules.inputs_le⟩ (fun _ _ => ⟨0, [], rfl, rfl⟩) hbi
  have ro := @readSlice_writeSlice _ _ env.output outputTypeSupportedByTxEssence outputsArrayBound
    _ _ (bp ++ rest) ⟨counts.2, rules.outputs_le⟩
    (fun o _ => ⟨o.outputType, [], rfl, by cases o <;> rfl⟩) hbo
  have rp := @readPayload_writePayload env.payload _ _ rest (by simp at short; omega) hbp
  simp only [transactionEssenceMinByteSize, List.length_append, List.length_singleton] at long
  simp only [List.append_assoc, List.singleton_append]
  simp only [TransactionEssence.deserialize, deSeriModePerformValidation_performValidation,
    ↓reduceIte, List.cons_append, List.length_cons, List.length_append, transactionEssenceMinByteSize,
    Nat.reduceAdd, Except.throw_eq_error, List.head?_cons, ne_eq, not_true_eq_false, bind_pure_comp,
    pure_bind, ri, Except.ok_bind', ro, rules.addrUnique, rp, Except.map_ok, Except.error_bind',
    Except.ite_error_eq_ok, not_lt, Nat.reduceLeDiff, Except.ok.injEq, Prod.mk.injEq, true_and]
  omega

theorem TransactionEssence.serialize_head {m : DeSerializationMode} {e : TransactionEssence}
    {b : Bytes} (h : e.serialize env m = .ok b) : ∃ tail, b = 0 :: tail := by
  cases pv : m.performValidation <;>
    simp only [TransactionEssence.serialize, pv, Bool.false_eq_true, if_false, if_true, pure_bind,
      Except.bind_eq_ok] at h
  · obtain ⟨bi, -, bo, -, bp, -, h⟩ := h
    cases h
    exact ⟨_, rfl⟩
  · obtain ⟨_, -, bi, -, bo, -, bp, -, h⟩ := h
    cases h
    exact ⟨_, rfl⟩

theorem Transaction.deserialize_serialize {paras : Option DeSerializationParameters}
    {t : Transaction} {b : Bytes} (rules : t.essence.DecoderRules env) (short : b.length < 2 ^ 32)
    (h : t.serialize env deSeriModePerformValidation paras = .ok b) :
    Transaction.deserialize env deSeriModePerformValidation paras b = .ok (t, b.length) := by
  simp only [Transaction.serialize, deSeriModePerformValidation_performValidation, if_true,
    Except.bind_eq_ok] at h
  obtain ⟨eb, heb, bu, hbu, _, valid, h⟩ := h
  cases h
  obtain ⟨low, high, hbu⟩ := writeSliceWithRules_eq_ok _ hbu
  obtain ⟨tail, rfl⟩ := TransactionEssence.serialize_head env heb
  have essence := TransactionEssence.serialize_length_ge env heb
  have blocks := writeSlice_length_ge _ (fun _ => List.cons_ne_nil _ _) hbu
  have re := @TransactionEssence.deserialize_serialize env _ _ bu rules
    (by simp at short ⊢; omega) (by simp only [transactionEssenceMinByteSize]; omega) heb
  have ru := @readSlice_writeSlice _ _ env.unlockBlock selectUnlockBlock _ _ _ [] ⟨low, high⟩
    (fun u _ => ⟨u.unlockBlockType, [], rfl, by cases u <;> rfl⟩) hbu
  simp only [List.append_nil] at ru
  simp only [List.cons_append] at re
  simp only [payloadTransaction, List.cons_append, List.append_assoc] at valid
  simp only [Transaction.deserialize, payloadTransaction, List.append_assoc, List.cons_append,
    List.length_append, leBytes_length, List.length_cons, add_lt_iff_neg_left, not_lt_zero',
    ↓reduceIte, List.take_left', leValue_leBytes, Nat.reducePow, Nat.zero_mod, ne_eq,
    not_true_eq_false, List.drop_left', re, deSeriModePerformValidation_performValidation,
    bind_pure_comp, Except.ok_bind', List.drop_succ_cons, ru, List.length_nil, tsub_zero, pure_bind]
  rw [List.take_of_length_le (by simp), valid]
  rfl

end Codec

theorem Transaction.deserialize_outputs_le {env : CodecEnv} {paras : Option DeSerializationParameters}
    {data : Bytes} {t : Transaction} {n : Nat}
    (h : Transaction.deserialize env deSeriModePerformValidation paras data = .ok (t, n)) :
    t.essence.outputs.length ≤ maxOutputsCount := by
  obtain ⟨_, _, -, -, -, he, -⟩ := Transaction.deserialize_eq_ok env h
  obtain ⟨_, _, _, _, _, -, -, hout, -⟩ := TransactionEssence.deserialize_eq_ok env he
  exact (readSlice_length_bounds _ hout).2

/-- A sample with 128 outputs: the validating encoder writes it, and the validating
decoder refuses the output count. -/
def sampleWide : Transaction :=
  ⟨⟨[sampleInput], List.replicate 128 sampleSimple, none⟩, [.signature ⟨[], []⟩]⟩

set_option maxRecDepth 4000 in
theorem sample_wide_not_decoded : ∃ b,
    sampleWide.serialize sampleSignedEnv.toCodecEnv deSeriModePerformValidation
      (some ⟨0, ⟨0, 0, 0⟩⟩) = .ok b ∧
    ∀ n, Transaction.deserialize sampleSignedEnv.toCodecEnv deSeriModePerformValidation
      (some ⟨0, ⟨0, 0, 0⟩⟩) b ≠ .ok (sampleWide, n) :=
  ⟨_, rfl, fun _ decoded => absurd (Transaction.deserialize_outputs_le decoded) (by decide)⟩

end Iotago
