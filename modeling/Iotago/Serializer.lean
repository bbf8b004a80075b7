import Iotago.Types

/-! The serializer the transaction code is written against. Elements are encoded by
codecs that live outside the transaction code, each with the contracts of its kind. -/
namespace Iotago

/-- One object kind's `Serialize`/`Deserialize`. Every encoding starts with the
kind's `tag`, the type denotation the selectors read. -/
structure ElementCodec (α : Type) (tag : α → Bytes) where
  serialize : DeSerializationMode → α → Except Err Bytes
  deserialize : DeSerializationMode → Bytes → Except Err (α × Nat)
  serialize_tag : ∀ m x b, serialize m x = .ok b → tag x <+: b
  deserialize_serialize : ∀ x b rest, serialize deSeriModePerformValidation x = .ok b →
    deserialize deSeriModePerformValidation (b ++ rest) = .ok (x, b.length)
  serialize_deserialize : ∀ m bs x n, deserialize m bs = .ok (x, n) →
    n ≤ bs.length ∧ serialize deSeriModeNoValidation x = .ok (bs.take n)
  serialize_lexical : ∀ bs x n, deserialize deSeriModePerformValidation bs = .ok (x, n) →
    serialize deSeriModeSigning x = serialize deSeriModePerformValidation x

section Indexed

variable {α : Type} [DecidableEq α] {tag : α → Bytes}

/-- A lawful codec for the values of a fixed `table`: a value is written as its tag
and its position. -/
def ElementCodec.indexed (tagLen : Nat) (tag_length : ∀ x, (tag x).length = tagLen)
    (table : List α) (small : table.length ≤ 256) : ElementCodec α tag where
  serialize _ x :=
    if x ∈ table then .ok (tag x ++ [UInt8.ofNat (table.indexOf x)]) else .error .invalidBytes
  deserialize _ bs :=
    match bs[tagLen]? with
    | none => .error .deserializationNotEnoughData
    | some k =>
      match table[k.toNat]? with
      | none => .error .invalidBytes
      | some x =>
        if bs.take tagLen = tag x ∧ table.indexOf x = k.toNat then .ok (x, tagLen + 1)
        else .error .invalidBytes
  serialize_tag _ x b h := by
    dsimp only at h
    split at h
    · cases h
      exact List.prefix_append _ _
    · cases h
  deserialize_serialize x b rest h := by
    dsimp only at h ⊢
    split at h
    · rename_i mem
      cases h
      have idx : table.indexOf x < 256 := (List.indexOf_lt_length.mpr mem).trans_le small
      have byte : (tag x ++ ([UInt8.ofNat (table.indexOf x)] ++ rest))[tagLen]? =
          some (UInt8.ofNat (table.indexOf x)) := by
        rw [List.getElem?_append_right (tag_length x).le]
        simp [tag_length]
      simp only [List.append_assoc, byte, UInt8.toNat_ofNat', Nat.mod_eq_of_lt idx, List.getElem?_indexOf mem,
        List.take_left' (tag_length x), and_self, if_true, List.length_append,
        tag_length, List.length_singleton]
    · cases h
  serialize_deserialize _ bs x n h := by
    dsimp only at h ⊢
    split at h
    · cases h
    · rename_i k hk
      split at h
      · cases h
      · rename_i y hy
        split_ifs at h with hc
        cases h
        obtain ⟨htake, hidx⟩ := hc
        have hlen : tagLen < bs.length := (List.getElem?_eq_some_iff.mp hk).1
        have byte : UInt8.ofNat k.toNat = k := UInt8.toNat.inj (UInt8.toNat_ofNat_of_lt k.toNat_lt_size)
        refine ⟨hlen, ?_⟩
        simp only [List.getElem?_mem hy, if_true, hidx, byte, ← htake, List.take_succ, hk,
          Option.toList_some]
  serialize_lexical _ _ _ _ := rfl

end Indexed

/-- `ArrayRules`: count bounds and whether elements must be pairwise distinct. -/
structure ArrayRules where
  min : Nat
  max : Nat
  noDuplicates : Bool

section Slices

variable {α : Type} {tag : α → Bytes} (c : ElementCodec α tag)

/-- The element loop of `WriteSliceOfObjects`, with the `ElementUniqueValidator` check. -/
def writeElements (m : DeSerializationMode) (unique : Bool) :
    List Bytes → Nat → List α → Except Err Bytes
  | _, _, [] => .ok []
  | seen, i, x :: xs => do
    let b ← c.serialize m x
    if unique && seen.contains b then throw (.arrayValidationViolatesUniqueness i)
    let rest ← writeElements m unique (seen ++ [b]) (i + 1) xs
    return b ++ rest

/-- `WriteSliceOfObjects` with a `uint16` length prefix. -/
def writeSlice (m : DeSerializationMode) (unique : Bool) (xs : List α) : Except Err Bytes := do
  if 65535 < xs.length then throw (.sliceLengthTooLong xs.length)
  let body ← writeElements c m unique [] 0 xs
  return leBytes 2 xs.length ++ body

theorem writeSlice_length_le {m : DeSerializationMode} {unique : Bool} {xs : List α} {b : Bytes}
    (h : writeSlice c m unique xs = .ok b) : xs.length ≤ 65535 := by
  by_contra hlen
  simp [writeSlice, Nat.lt_of_not_le hlen] at h

/-- `WriteSliceOfObjects` with array rules. -/
def writeSliceWithRules (m : DeSerializationMode) (rules : ArrayRules) (xs : List α) :
    Except Err Bytes := do
  let body ← writeElements c m (m.performValidation && rules.noDuplicates) [] 0 xs
  if m.performValidation then
    if xs.length < rules.min then throw (.arrayValidationMinElementsNotReached xs.length rules.min)
    if rules.max < xs.length then throw (.arrayValidationMaxElementsExceeded xs.length rules.max)
  if 65535 < xs.length then throw (.sliceLengthTooLong xs.length)
  return leBytes 2 xs.length ++ body

def readElements (m : DeSerializationMode) (select : UInt8 → Bool) (unique : Bool) :
    Nat → List Bytes → Nat → Bytes → Except Err (List α × Bytes)
  | 0, _, _, bs => .ok ([], bs)
  | count + 1, seen, i, bs => do
    let ty ← match bs with
      | [] => throw .deserializationNotEnoughData
      | ty :: _ => pure ty
    if !select ty then throw (.unsupportedObjectType ty.toNat)
    let (x, n) ← c.deserialize m bs
    if unique && seen.contains (bs.take n) then throw (.arrayValidationViolatesUniqueness i)
    let (xs, rest) ← readElements m select unique count (seen ++ [bs.take n]) (i + 1) (bs.drop n)
    return (x :: xs, rest)

/-- `ReadSliceOfObjects` with a `uint16` count. -/
def readSlice (m : DeSerializationMode) (select : UInt8 → Bool) (rules : ArrayRules)
    (bs : Bytes) : Except Err (List α × Bytes) := do
  if bs.length < 2 then throw .deserializationNotEnoughData
  let count := leValue (bs.take 2)
  if m.performValidation then
    if count < rules.min then throw (.arrayValidationMinElementsNotReached count rules.min)
    if rules.max < count then throw (.arrayValidationMaxElementsExceeded count rules.max)
  readElements c m select (m.performValidation && rules.noDuplicates) count [] 0 (bs.drop 2)

theorem readElements_length {m : DeSerializationMode} {select : UInt8 → Bool} {unique : Bool}
    {count : Nat} {seen : List Bytes} {i : Nat} {bs rest : Bytes} {xs : List α}
    (h : readElements c m select unique count seen i bs = .ok (xs, rest)) : xs.length = count := by
  induction count generalizing seen i bs xs with
  | zero =>
    cases h
    rfl
  | succ count ih =>
    cases bs with
    | nil => simp [readElements] at h
    | cons ty bs =>
      simp only [readElements, Except.throw_eq_error, Except.error_bind', pure_bind,
        Except.ite_error_eq_ok, Except.bind_eq_ok] at h
      obtain ⟨-, ⟨x, n⟩, -, -, ⟨xs', rest'⟩, h', h⟩ := h
      cases h
      simp [ih h']

theorem readSlice_length_bounds {select : UInt8 → Bool} {rules : ArrayRules} {bs rest : Bytes}
    {xs : List α} (h : readSlice c deSeriModePerformValidation select rules bs = .ok (xs, rest)) :
    rules.min ≤ xs.length ∧ xs.length ≤ rules.max := by
  simp only [readSlice, deSeriModePerformValidation, if_true, Except.throw_eq_error,
    Except.error_bind', pure_bind, Except.ite_error_eq_ok] at h
  obtain ⟨-, hmin, hmax, h⟩ := h
  rw [readElements_length c h]
  omega

end Slices

section Payload

variable {tag : Indexation → Bytes} (c : ElementCodec Indexation tag)

/-- `IndexationPayloadTypeID`. -/
def indexationPayloadTypeID : Nat := 2

/-- `WritePayload`: a `uint32` byte length (zero when absent), then the payload. -/
def writePayload (m : DeSerializationMode) : Option Indexation → Except Err Bytes
  | none => .ok (leBytes 4 0)
  | some p => do
    let b ← c.serialize m p
    return leBytes 4 b.length ++ b

/-- `ReadPayload` with the essence's selector, which admits only indexation payloads. -/
def readPayload (m : DeSerializationMode) (bs : Bytes) :
    Except Err (Option Indexation × Bytes) := do
  if bs.length < 4 then throw .deserializationNotEnoughData
  let len := leValue (bs.take 4)
  let rest := bs.drop 4
  if len = 0 then return (none, rest)
  if rest.length < len then throw .deserializationNotEnoughData
  if rest.length < 4 then throw .deserializationNotEnoughData
  let ty := leValue (rest.take 4)
  if ty ≠ indexationPayloadTypeID then throw (.unsupportedPayloadType ty)
  let (p, n) ← c.deserialize m rest
  if n ≠ len then throw .invalidBytes
  return (some p, rest.drop n)

end Payload

end Iotago
