import Iotago.RoundTrip
import Iotago.Semantic.NoPanic

/-! What `SyntacticallyValidate` asks of an essence, and what the validating decoder
returns, each stated without its loop. The decoder's uniqueness check compares bytes;
a decoded element re-encodes to exactly those bytes, so decoded inputs are distinct. -/
namespace Iotago

section Syntactic

/-- The rules `ValidateOutputs` checks of each output on its own. -/
def Output.SyntacticRules (o : Output) : Prop :=
  0 < o.deposit.toNat ∧ SenderRule o ∧
    ∀ f, o = .foundry f → 0 < f.maximumSupply ∧ f.circulatingSupply ≤ f.maximumSupply

theorem validateOutputs_cons_eq_ok {depositSum tokenCount i : Nat} {o : Output}
    {rest : List Output} :
    validateOutputs depositSum tokenCount i (o :: rest) = .ok () ↔ 0 < o.deposit.toNat ∧
      o.deposit.toNat ≤ tokenSupply ∧ depositSum + o.deposit.toNat ≤ tokenSupply ∧
      tokenCount + (o.nativeTokens.getD []).length ≤ maxNativeTokensCount ∧ SenderRule o ∧
      (∀ f, o = .foundry f → 0 < f.maximumSupply ∧ f.circulatingSupply ≤ f.maximumSupply) ∧
      validateOutputs (depositSum + o.deposit.toNat) (tokenCount + (o.nativeTokens.getD []).length)
        (i + 1) rest = .ok () := by
  cases o <;> simp only [validateOutputs, Except.throw_eq_error, Output.featureBlocks, Bool.and_eq_true,
    Bool.not_eq_eq_eq_not, Bool.not_true, pure_bind, Except.error_bind', Except.ite_error_eq_ok,
    not_lt, not_and, Bool.not_eq_false, Nat.pos_iff_ne_zero, ne_eq, SenderRule, Option.some.injEq,
    forall_eq', Output.foundry.injEq, reduceCtorEq, IsEmpty.forall_iff, implies_true, true_and,
    and_assoc]

theorem validateOutputs_eq_ok_iff {depositSum tokenCount i : Nat} {outs : List Output}
    (deposits : depositSum ≤ tokenSupply) (tokens : tokenCount ≤ maxNativeTokensCount) :
    validateOutputs depositSum tokenCount i outs = .ok () ↔ (∀ o ∈ outs, o.SyntacticRules) ∧
      depositSum + (outs.map (·.deposit.toNat)).sum ≤ tokenSupply ∧
      tokenCount + (outs.map fun o => (o.nativeTokens.getD []).length).sum ≤
        maxNativeTokensCount := by
  induction outs generalizing depositSum tokenCount i with
  | nil => simp [validateOutputs, deposits, tokens]
  | cons o rest ih =>
    simp only [validateOutputs_cons_eq_ok, List.forall_mem_cons, List.map_cons, List.sum_cons]
    constructor
    · rintro ⟨pos, -, sum, count, sender, foundry, later⟩
      obtain ⟨rules, sums, counts⟩ := (ih sum count).mp later
      exact ⟨⟨⟨pos, sender, foundry⟩, rules⟩, by omega, by omega⟩
    · rintro ⟨⟨⟨pos, sender, foundry⟩, rules⟩, sums, counts⟩
      have sum : depositSum + o.deposit.toNat ≤ tokenSupply := by omega
      have count : tokenCount + (o.nativeTokens.getD []).length ≤ maxNativeTokensCount := by
        omega
      exact ⟨pos, by omega, sum, count, sender, foundry,
        (ih sum count).mpr ⟨rules, by omega, by omega⟩⟩

theorem validateInputs_eq_ok_iff {seen : List OutputID} {i : Nat} {inputs : List UTXOInput} :
    validateInputs seen i inputs = .ok () ↔ (∀ input ∈ inputs, input.ref ∉ seen) ∧
      (∀ input ∈ inputs, input.transactionOutputIndex.toNat < maxOutputsCount) ∧
      (inputs.map UTXOInput.ref).Nodup := by
  induction inputs generalizing seen i with
  | nil => simp [validateInputs]
  | cons input rest ih =>
    simp only [validateInputs, List.elem_eq_mem, decide_eq_true_eq, Except.throw_eq_error,
      Except.error_bind', pure_bind, Except.ite_error_eq_ok, not_le, ih, List.mem_append,
      List.mem_singleton, not_or, List.forall_mem_cons, forall_and, List.map_cons, List.nodup_cons,
      List.mem_map, not_exists, not_and]
    tauto

structure TransactionEssence.SyntacticallyValid (e : TransactionEssence) : Prop where
  inputs_min : minInputsCount ≤ e.inputs.length
  outputs_min : minOutputsCount ≤ e.outputs.length
  refs_nodup : (e.inputs.map UTXOInput.ref).Nodup
  indices_lt : ∀ input ∈ e.inputs, input.transactionOutputIndex.toNat < maxOutputsCount
  outputs_rules : ∀ o ∈ e.outputs, o.SyntacticRules
  deposits_le : (e.outputs.map (·.deposit.toNat)).sum ≤ tokenSupply
  tokens_le : (e.outputs.map fun o => (o.nativeTokens.getD []).length).sum ≤ maxNativeTokensCount

theorem TransactionEssence.syntacticallyValidate_eq_ok_iff (e : TransactionEssence) :
    e.syntacticallyValidate = .ok () ↔ e.SyntacticallyValid := by
  have outputs := @validateOutputs_eq_ok_iff 0 0 0 e.outputs (Nat.zero_le _) (Nat.zero_le _)
  simp only [Nat.zero_add] at outputs
  simp only [TransactionEssence.syntacticallyValidate, Except.throw_eq_error, Except.error_bind',
    pure_bind, Except.ite_error_eq_ok, Except.bind_eq_ok, outputs]
  constructor
  · rintro ⟨inputs, outputs, ⟨⟩, checked, rules, deposits, tokens⟩
    obtain ⟨-, indices, refs⟩ := validateInputs_eq_ok_iff.mp checked
    exact ⟨Nat.pos_of_ne_zero inputs, Nat.pos_of_ne_zero outputs, refs, indices, rules, deposits,
      tokens⟩
  · intro valid
    exact ⟨Nat.pos_iff_ne_zero.mp valid.inputs_min, Nat.pos_iff_ne_zero.mp valid.outputs_min, (),
      validateInputs_eq_ok_iff.mpr ⟨by simp, valid.indices_lt, valid.refs_nodup⟩,
      valid.outputs_rules, valid.deposits_le, valid.tokens_le⟩

end Syntactic

section Unique

variable {α : Type} {tag : α → Bytes} (c : ElementCodec α tag)

theorem readElements_unique {m : DeSerializationMode} {select : UInt8 → Bool} {count : Nat}
    {seen : List Bytes} {i : Nat} {bs rest : Bytes} {xs : List α}
    (h : readElements c m select true count seen i bs = .ok (xs, rest)) :
    (xs.map (c.serialize deSeriModeNoValidation)).Nodup ∧
      ∀ x ∈ xs, ∀ b ∈ seen, c.serialize deSeriModeNoValidation x ≠ .ok b := by
  induction count generalizing seen i bs xs with
  | zero =>
    cases h
    simp
  | succ count ih =>
    cases bs with
    | nil => simp [readElements] at h
    | cons ty bs =>
      simp only [readElements, Except.throw_eq_error, Except.error_bind', pure_bind,
        Except.ite_error_eq_ok, Except.bind_eq_ok] at h
      obtain ⟨-, ⟨x, n⟩, hx, fresh, ⟨xs', rest'⟩, h', h⟩ := h
      cases h
      have enc := (c.serialize_deserialize _ _ _ _ hx).2
      obtain ⟨nodup, unseen⟩ := ih h'
      refine ⟨List.nodup_cons.mpr ⟨fun mem => ?_, nodup⟩, ?_⟩
      · obtain ⟨y, hy, same⟩ := List.mem_map.mp mem
        exact unseen y hy _ (List.mem_append_right _ (List.mem_singleton_self _)) (same.trans enc)
      · rintro y (_ | ⟨_, hy⟩) b hb
        · rw [enc]
          rintro ⟨⟩
          exact fresh (by simpa using hb)
        · exact unseen y hy b (List.mem_append_left _ hb)

theorem readSlice_nodup {select : UInt8 → Bool} {rules : ArrayRules} {bs rest : Bytes}
    {xs : List α} (unique : rules.noDuplicates = true)
    (h : readSlice c deSeriModePerformValidation select rules bs = .ok (xs, rest)) : xs.Nodup := by
  simp only [readSlice, deSeriModePerformValidation_performValidation, unique, if_true,
    Bool.and_self, Except.throw_eq_error, Except.error_bind', pure_bind,
    Except.ite_error_eq_ok] at h
  exact List.Nodup.of_map _ (readElements_unique c h.2.2.2).1

theorem writeElements_lexical {unique : Bool} {seen : List Bytes} {i : Nat} {xs : List α}
    (decoded : ∀ x ∈ xs, c.Decoded x) :
    writeElements c deSeriModeSigning unique seen i xs =
      writeElements c deSeriModePerformValidation unique seen i xs := by
  induction xs generalizing seen i with
  | nil => rfl
  | cons x xs ih =>
    obtain ⟨_, _, dx⟩ := decoded x (.head _)
    simp only [writeElements, c.serialize_lexical _ _ _ dx, ih fun y mem => decoded y (.tail _ mem)]

theorem writeSlice_lexical {unique : Bool} {xs : List α} (decoded : ∀ x ∈ xs, c.Decoded x) :
    writeSlice c deSeriModeSigning unique xs = writeSlice c deSeriModePerformValidation unique xs := by
  simp only [writeSlice, writeElements_lexical c decoded]

theorem ElementCodec.serialize_injective {x y : α} {b : Bytes}
    (hx : c.serialize deSeriModePerformValidation x = .ok b)
    (hy : c.serialize deSeriModePerformValidation y = .ok b) : x = y := by
  have back := c.deserialize_serialize x b [] hx
  rw [c.deserialize_serialize y b [] hy] at back
  exact (Prod.mk.inj (Except.ok.inj back)).1.symm

theorem writeElements_encodes {m : DeSerializationMode} {unique : Bool} {seen : List Bytes}
    {i : Nat} {xs : List α} {b : Bytes} (h : writeElements c m unique seen i xs = .ok b) :
    ∀ x ∈ xs, ∃ bx, c.serialize m x = .ok bx := by
  induction xs generalizing seen i b with
  | nil => nofun
  | cons x xs ih =>
    simp only [writeElements, Except.throw_eq_error, Except.error_bind', pure_bind,
      Except.ite_error_eq_ok, Except.bind_eq_ok] at h
    obtain ⟨bx, hx, -, rest, hrest, -⟩ := h
    rintro y (_ | ⟨_, mem⟩)
    exacts [⟨bx, hx⟩, ih hrest y mem]

theorem writeElements_of_encodes {unique : Bool} {seen : List Bytes} {i : Nat} {xs : List α}
    (distinct : unique = true →
      xs.Nodup ∧ ∀ x ∈ xs, ∀ b ∈ seen, c.serialize deSeriModePerformValidation x ≠ .ok b)
    (encodes : ∀ x ∈ xs, ∃ bx, c.serialize deSeriModePerformValidation x = .ok bx) :
    ∃ b, writeElements c deSeriModePerformValidation unique seen i xs = .ok b := by
  induction xs generalizing seen i with
  | nil => exact ⟨[], rfl⟩
  | cons x xs ih =>
    obtain ⟨bx, hx⟩ := encodes x (.head _)
    -- a later element with the same encoding would be `x` itself
    have distinct' : unique = true → xs.Nodup ∧
        ∀ y ∈ xs, ∀ b ∈ seen ++ [bx], c.serialize deSeriModePerformValidation y ≠ .ok b := by
      intro u
      obtain ⟨nodup, unseen⟩ := distinct u
      refine ⟨(List.nodup_cons.mp nodup).2, fun y mem b hb same => ?_⟩
      rcases List.mem_append.mp hb with hb | hb
      · exact unseen y (.tail _ mem) b hb same
      · cases List.mem_singleton.mp hb
        exact (List.nodup_cons.mp nodup).1 (c.serialize_injective hx same ▸ mem)
    have fresh : unique = true → bx ∉ seen := fun u mem => (distinct u).2 x (.head _) bx mem hx
    obtain ⟨rest, hrest⟩ := @ih (seen ++ [bx]) (i + 1) distinct' fun y mem => encodes y (.tail _ mem)
    exact ⟨bx ++ rest, by simpa [writeElements, hx, hrest] using fresh⟩

theorem writeSlice_isOk {m : DeSerializationMode} {unique : Bool} {xs : List α} :
    (∃ b, writeSlice c m unique xs = .ok b) ↔
      xs.length ≤ 65535 ∧ ∃ b, writeElements c m unique [] 0 xs = .ok b := by
  simp only [writeSlice, Except.throw_eq_error, Except.error_bind', pure_bind,
    Except.ite_error_eq_ok, Except.bind_eq_ok, not_lt]
  exact ⟨fun ⟨_, small, body, h, _⟩ => ⟨small, body, h⟩, fun ⟨small, body, h⟩ => ⟨_, small, body, h, rfl⟩⟩

end Unique

section Payload

variable (c : ElementCodec Indexation (fun _ => leBytes 4 indexationPayloadTypeID))

theorem writePayload_lexical {p : Option Indexation} (decoded : ∀ q ∈ p, c.Decoded q) :
    writePayload c deSeriModeSigning p = writePayload c deSeriModePerformValidation p := by
  cases p with
  | none => rfl
  | some q =>
    obtain ⟨_, _, dq⟩ := decoded q rfl
    simp only [writePayload, c.serialize_lexical _ _ _ dq]

theorem writePayload_isOk {m : DeSerializationMode} {p : Option Indexation} :
    (∃ b, writePayload c m p = .ok b) ↔ ∀ q ∈ p, ∃ b, c.serialize m q = .ok b := by
  cases p with
  | none => exact ⟨fun _ => nofun, fun _ => ⟨_, rfl⟩⟩
  | some q =>
    simp only [writePayload, Except.bind_eq_ok, Option.mem_def, Option.some.injEq, forall_eq']
    exact ⟨fun ⟨_, b, hb, _⟩ => ⟨b, hb⟩, fun ⟨b, hb⟩ => ⟨_, b, hb, rfl⟩⟩

end Payload

section Codec

variable (env : CodecEnv)

theorem UTXOInput.ref_injective : Function.Injective UTXOInput.ref := by
  rintro ⟨_, _⟩ ⟨_, _⟩ same
  cases same
  rfl

/-- What the validating decoder guarantees of an essence. -/
structure TransactionEssence.WellFormed (e : TransactionEssence) : Prop where
  inputs_bounds : minInputsCount ≤ e.inputs.length ∧ e.inputs.length ≤ maxInputsCount
  outputs_bounds : minOutputsCount ≤ e.outputs.length ∧ e.outputs.length ≤ maxOutputsCount
  refs_nodup : (e.inputs.map UTXOInput.ref).Nodup
  addrUnique : env.outputsPredicateAddrUnique e.outputs = .ok ()

theorem TransactionEssence.wellFormed_of_deserialize {data : Bytes} {e : TransactionEssence}
    {n : Nat} (h : TransactionEssence.deserialize env deSeriModePerformValidation data = .ok (e, n)) :
    e.WellFormed env := by
  obtain ⟨ty, afterType, _, _, _, rfl, hin, hout, -⟩ := TransactionEssence.deserialize_eq_ok env h
  have addr : env.outputsPredicateAddrUnique e.outputs = .ok () := by
    simp only [TransactionEssence.deserialize, deSeriModePerformValidation_performValidation,
      if_true, hin, hout, Except.throw_eq_error, Except.error_bind', pure_bind,
      Except.ite_error_eq_ok, Except.ok_bind', Except.bind_eq_ok] at h
    obtain ⟨-, -, ⟨⟩, addr, -⟩ := h
    exact addr
  exact ⟨readSlice_length_bounds _ hin, readSlice_length_bounds _ hout,
    (readSlice_nodup _ rfl hin).map UTXOInput.ref_injective, addr⟩

/-- Without parameters the validating decoder accepts nothing. -/
theorem Transaction.deserialize_wellFormed {paras : Option DeSerializationParameters}
    {data : Bytes} {t : Transaction} {n : Nat}
    (h : Transaction.deserialize env deSeriModePerformValidation paras data = .ok (t, n)) :
    t.essence.WellFormed env ∧ t.unlockBlocks.length = t.essence.inputs.length ∧
      ∃ p, paras = some p ∧ t.syntacticallyValidate env (data.take n) p = .ok () := by
  obtain ⟨_, _, -, -, -, he, -, -, valid⟩ := Transaction.deserialize_eq_ok env h
  refine ⟨TransactionEssence.wellFormed_of_deserialize env he,
    Transaction.deserialize_unlockBlocks_length env h, ?_⟩
  cases paras with
  | none => cases valid rfl
  | some p => exact ⟨p, rfl, valid rfl⟩

/-- The encoder's duplicate check on the inputs never fires: `SyntacticallyValidate`
already made them pairwise distinct. -/
theorem TransactionEssence.serialize_validation_isOk (e : TransactionEssence) :
    (∃ b, e.serialize env deSeriModePerformValidation = .ok b) ↔
      e.syntacticallyValidate = .ok () ∧ e.inputs.length ≤ 65535 ∧ e.outputs.length ≤ 65535 ∧
      (∀ x ∈ e.inputs, ∃ b, env.input.serialize deSeriModePerformValidation x = .ok b) ∧
      (∀ o ∈ e.outputs, ∃ b, env.output.serialize deSeriModePerformValidation o = .ok b) ∧
      ∀ p ∈ e.payload, ∃ b, env.payload.serialize deSeriModePerformValidation p = .ok b := by
  simp only [TransactionEssence.serialize, deSeriModePerformValidation_performValidation, if_true,
    Except.bind_eq_ok]
  constructor
  · rintro ⟨_, ⟨⟩, valid, bi, hbi, bo, hbo, bp, hbp, -⟩
    obtain ⟨small_i, _, hi⟩ := (writeSlice_isOk _).mp ⟨bi, hbi⟩
    obtain ⟨small_o, _, ho⟩ := (writeSlice_isOk _).mp ⟨bo, hbo⟩
    exact ⟨valid, small_i, small_o, writeElements_encodes _ hi, writeElements_encodes _ ho,
      (writePayload_isOk _).mp ⟨bp, hbp⟩⟩
  · rintro ⟨valid, small_i, small_o, enc_i, enc_o, enc_p⟩
    -- the inputs are pairwise distinct, as their references are
    have checked : validateInputs [] 0 e.inputs = .ok () := by
      simp only [TransactionEssence.syntacticallyValidate, Except.throw_eq_error,
        Except.error_bind', pure_bind, Except.ite_error_eq_ok, Except.bind_eq_ok] at valid
      obtain ⟨-, -, ⟨⟩, checked, -⟩ := valid
      exact checked
    have nodup := List.Nodup.of_map _ (validateInputs_eq_ok_iff.mp checked).2.2
    obtain ⟨bi, hbi⟩ := (writeSlice_isOk _).mpr
      ⟨small_i, writeElements_of_encodes _ (fun _ => ⟨nodup, fun _ _ _ => nofun⟩) enc_i⟩
    obtain ⟨bo, hbo⟩ : ∃ bo, writeSlice env.output deSeriModePerformValidation false e.outputs =
        .ok bo := (writeSlice_isOk _).mpr ⟨small_o, writeElements_of_encodes _ nofun enc_o⟩
    obtain ⟨bp, hbp⟩ := (writePayload_isOk _).mpr enc_p
    exact ⟨_, (), valid, bi, hbi, bo, hbo, bp, hbp, rfl⟩

theorem TransactionEssence.signing_eq_validation {data : Bytes} {e : TransactionEssence} {n : Nat}
    (decoded : TransactionEssence.deserialize env deSeriModePerformValidation data = .ok (e, n)) :
    e.serialize env deSeriModeSigning = e.serialize env deSeriModePerformValidation := by
  obtain ⟨_, _, _, _, _, -, hin, hout, hp, -⟩ := TransactionEssence.deserialize_eq_ok env decoded
  simp only [TransactionEssence.serialize, deSeriModeSigning_performValidation,
    deSeriModePerformValidation_performValidation, writeSlice_lexical _ (readSlice_decoded _ hin),
    writeSlice_lexical _ (readSlice_decoded _ hout), writePayload_lexical _ (readPayload_decoded _ hp)]

/-- The binary form of a decoded transaction is canonical. -/
theorem Transaction.serialize_of_deserialize {paras paras' : Option DeSerializationParameters}
    {data : Bytes} {t : Transaction} {n : Nat} {b : Bytes}
    (decoded : Transaction.deserialize env deSeriModePerformValidation paras data = .ok (t, n))
    (encoded : t.serialize env deSeriModePerformValidation paras' = .ok b) : b = data.take n := by
  obtain ⟨_, _, -, -, -, he, hblocks, -⟩ := Transaction.deserialize_eq_ok env decoded
  simp only [Transaction.serialize, deSeriModePerformValidation_performValidation, if_true,
    Except.bind_eq_ok] at encoded
  obtain ⟨eb, heb, ub, hub, _, -, h⟩ := encoded
  cases h
  -- each part is written as without validation, hence as it was read
  have essence := TransactionEssence.signing_eq_noValidation env he
    ((TransactionEssence.signing_eq_validation env he).trans heb)
  obtain ⟨-, -, hub⟩ := writeSliceWithRules_eq_ok _ hub
  have blocks := readSlice_decoded _ hblocks
  have unlocks := writeSlice_signing _ blocks ((writeSlice_lexical _ blocks).trans hub)
  have plain : t.serialize env deSeriModeNoValidation none =
      .ok (leBytes 4 payloadTransaction ++ eb ++ ub) := by
    simp [Transaction.serialize, essence, writeSliceWithRules_noValidation _ unlocks]
  exact Except.ok.inj (plain.symm.trans (Transaction.deserialize_reencodes env decoded))

end Codec

theorem sample_tx_refs_distinct : (sampleTx.essence.inputs.map UTXOInput.ref).Nodup :=
  (Transaction.deserialize_wellFormed sampleEnv.toCodecEnv (rfl : Transaction.deserialize
    sampleEnv.toCodecEnv deSeriModePerformValidation (some ⟨0, ⟨0, 0, 0⟩⟩) sampleTxBytes =
      .ok (sampleTx, 25))).1.refs_nodup

theorem sample_tx_canonical : ∃ b, sampleTx.serialize sampleEnv.toCodecEnv
    deSeriModePerformValidation (some ⟨0, ⟨0, 0, 0⟩⟩) = .ok b ∧ b = sampleTxBytes.take 25 := by
  obtain ⟨b, encoded⟩ : ∃ b, sampleTx.serialize sampleEnv.toCodecEnv deSeriModePerformValidation
      (some ⟨0, ⟨0, 0, 0⟩⟩) = .ok b := ⟨_, rfl⟩
  exact ⟨b, encoded, Transaction.serialize_of_deserialize sampleEnv.toCodecEnv
    (rfl : Transaction.deserialize sampleEnv.toCodecEnv deSeriModePerformValidation
      (some ⟨0, ⟨0, 0, 0⟩⟩) sampleTxBytes = .ok (sampleTx, 25)) encoded⟩

end Iotago
