import Iotago.Transaction

/-! The JSON mirror of `Transaction` and `TransactionEssence`. A document is the value it
denotes: printing and parsing are `encoding/json`'s and leave the value as it is. -/
namespace Iotago

/-- A JSON value. Numbers are integers: no field of the mirror holds another number. -/
inductive Json where
  | null
  | bool (b : Bool)
  | num (n : Int)
  | str (s : String)
  | arr (elems : List Json)
  | obj (members : List (String × Json))
deriving Repr

inductive JsonError where
  /-- `json.UnmarshalTypeError`: a value of the wrong kind for the Go value `target`. -/
  | unmarshalType (target : String)
  /-- The selector's `ErrUnknownTransactionEssenceType`, wrapped as "unable to decode
  transaction essence type from JSON: %w". -/
  | unknownTransactionEssenceType
  /-- `ErrInvalidJSON`: "transaction essences only allow embedded indexation payloads". -/
  | invalidJSON
  /-- Wrapped as "unable to decode `kind` type from JSON, pos %d: %w". -/
  | decodeType (kind : String) (pos : Nat) (inner : JsonError)
  /-- Wrapped as "pos %d: %w". -/
  | atPos (pos : Nat) (inner : JsonError)
  /-- Wrapped as "unable to decode transaction essence from JSON: %w". -/
  | decodeEssence (inner : JsonError)
  /-- Wrapped as "unable to decode inner transaction essence payload: %w". -/
  | decodePayload (inner : JsonError)
  /-- An error of an element's own JSON code. -/
  | element (reason : String)
deriving DecidableEq, Repr

inductive JsonFailure where
  | error (e : JsonError)
  | panic (site : String)
deriving DecidableEq, Repr

def liftJson {α : Type} : Except JsonError α → Except JsonFailure α :=
  Except.mapError .error

/-- `fmt.Errorf` with `%w`: wraps a returned error; a panic passes through. -/
def wrapError {α : Type} (wrap : JsonError → JsonError) : Except JsonFailure α → Except JsonFailure α
  | .error (.error e) => .error (.error (wrap e))
  | r => r

@[simp] theorem liftJson_ok {α : Type} (a : α) : liftJson (.ok a : Except JsonError α) = .ok a := rfl

@[simp] theorem wrapError_ok {α : Type} (wrap : JsonError → JsonError) (a : α) :
    wrapError wrap (.ok a) = .ok a := rfl

/-- A `*json.RawMessage` as `json.Marshal` writes it: a nil pointer as `null`. -/
def rawMessage : Option Json → Json
  | none => .null
  | some doc => doc

/-- A `*json.RawMessage` as `json.Unmarshal` fills it: `null` gives a nil pointer. -/
def rawOf : Json → Option Json
  | .null => none
  | doc => some doc

theorem rawOf_rawMessage {r : Option Json} (h : r ≠ some .null) : rawOf (rawMessage r) = r := by
  cases r with
  | none => rfl
  | some doc => cases doc <;> first | rfl | exact absurd rfl h

theorem rawOf_map_rawMessage {rs : List (Option Json)} (h : ∀ r ∈ rs, r ≠ some .null) :
    (rs.map rawMessage).map rawOf = rs := by
  rw [List.map_map]
  conv_rhs => rw [← List.map_id rs]
  exact List.map_congr_left fun r hr => rawOf_rawMessage (h r hr)

/-- `encoding/json`'s match of an object key to a field name: equal up to ASCII case. -/
def keyMatches (key name : String) : Bool :=
  key.data.map Char.toLower == name.data.map Char.toLower

abbrev StructField (S : Type) := String × (Json → S → Except JsonError S)

/-- `json.Unmarshal` into a struct: a later duplicate member overwrites an earlier one. -/
def unmarshalStruct {S : Type} (fields : List (StructField S)) (target : String) (s : S) :
    Json → Except JsonError S
  | .obj members => members.foldlM (fun s m =>
      match fields.find? (fun f => keyMatches m.1 f.1) with
      | some f => f.2 m.2 s
      | none => .ok s) s
  | .null => .ok s
  | _ => .error (.unmarshalType target)

def intField {S : Type} (target : String) (store : Int → S → S) : Json → S → Except JsonError S
  | .num n, s => if -2 ^ 63 ≤ n ∧ n < 2 ^ 63 then .ok (store n s) else .error (.unmarshalType target)
  | .null, s => .ok s
  | _, _ => .error (.unmarshalType target)

def rawField {S : Type} (store : Option Json → S → S) (doc : Json) (s : S) : Except JsonError S :=
  .ok (store (rawOf doc) s)

def rawSliceField {S : Type} (target : String) (store : List (Option Json) → S → S) :
    Json → S → Except JsonError S
  | .arr docs, s => .ok (store (docs.map rawOf) s)
  | .null, s => .ok (store [] s)
  | _, _ => .error (.unmarshalType target)

def memberValue (key : String) (members : List (String × Json)) : Option Json :=
  members.foldl (fun found m => if m.1 = key then some m.2 else found) none

/-- `json.Unmarshal` into a `map[string]interface{}`. -/
def unmarshalMap : Json → Except JsonError (List (String × Json))
  | .obj members => .ok members
  | .null => .ok []
  | _ => .error (.unmarshalType "map[string]interface \x7b\x7d")

/-- Modelled from the spec: `DeserializeObjectFromJSON`. -/
def deserializeObjectFromJSON {Obj : Type}
    (select : Int → Except JsonError (Json → Except JsonError Obj)) :
    Option Json → Except JsonFailure Obj
  | none => .error (.panic "raw.MarshalJSON on a nil *json.RawMessage")
  | some raw => do
    let members ← liftJson (unmarshalMap raw)
    match memberValue "type" members with
    | some (.num ty) => do
      let decode ← liftJson (select ty)
      liftJson (decode raw)
    | _ => .error (.panic "m[type].(float64)")

/-- One element kind's `MarshalJSON` and its selector, declared outside the transaction code. -/
structure JsonCodec (α Obj : Type) where
  marshal : α → Except JsonError Json
  select : Int → Except JsonError (Json → Except JsonError Obj)

inductive PayloadObject where
  | indexation (decoded : Except JsonError Indexation)
  | other

/-- Element objects are identified with what their `ToSerializable` returns. -/
structure JsonEnv where
  input : JsonCodec UTXOInput (Except JsonError UTXOInput)
  output : JsonCodec Output (Except JsonError Output)
  payload : JsonCodec Indexation PayloadObject
  unlockBlock : JsonCodec UnlockBlock (Except JsonError UnlockBlock)

def JsonCodec.RoundTrips {α Obj : Type} (c : JsonCodec α Obj) (obj : α → Obj) (x : α) : Prop :=
  ∃ doc, c.marshal x = .ok doc ∧ deserializeObjectFromJSON c.select (some doc) = .ok (obj x)

theorem deserializeObjectFromJSON_null {Obj : Type}
    (select : Int → Except JsonError (Json → Except JsonError Obj)) :
    deserializeObjectFromJSON select (some .null) = .error (.panic "m[type].(float64)") := rfl

theorem JsonCodec.RoundTrips.marshal_ne_null {α Obj : Type} {c : JsonCodec α Obj}
    {obj : α → Obj} {x : α} {doc : Json} (h : c.RoundTrips obj x) (marshalled : c.marshal x = .ok doc) :
    doc ≠ .null := by
  obtain ⟨doc', marshalled', decoded⟩ := h
  rintro rfl
  rw [marshalled, Except.ok.injEq] at marshalled'
  rw [← marshalled', deserializeObjectFromJSON_null] at decoded
  cases decoded

theorem deserializeObjectFromJSON_obj {Obj : Type}
    {select : Int → Except JsonError (Json → Except JsonError Obj)}
    {members : List (String × Json)} {ty : Int} {decode : Json → Except JsonError Obj} {obj : Obj}
    (type : memberValue "type" members = some (.num ty)) (selected : select ty = .ok decode)
    (decoded : decode (.obj members) = .ok obj) :
    deserializeObjectFromJSON select (some (.obj members)) = .ok obj := by
  simp only [deserializeObjectFromJSON, unmarshalMap, liftJson_ok, Except.ok_bind', type]
  rw [selected, liftJson_ok, Except.ok_bind', decoded, liftJson_ok]

/-- The element loop of `jsonTransactionEssence.ToSerializable`, from position `i` on. -/
def elementsFromJSON {α : Type} (c : JsonCodec α (Except JsonError α)) (kind : String) :
    Nat → List (Option Json) → Except JsonFailure (List α)
  | _, [] => .ok []
  | i, raw :: rest => do
    let obj ← wrapError (.decodeType kind i) (deserializeObjectFromJSON c.select raw)
    let x ← wrapError (.atPos i) (liftJson obj)
    let xs ← elementsFromJSON c kind (i + 1) rest
    return x :: xs

theorem elementsFromJSON_mapM_marshal {α : Type} {c : JsonCodec α (Except JsonError α)}
    (kind : String) :
    ∀ {xs : List α}, (∀ x ∈ xs, c.RoundTrips .ok x) →
      ∃ docs, xs.mapM c.marshal = .ok docs ∧ (∀ r ∈ docs.map some, r ≠ some .null) ∧
        ∀ i, elementsFromJSON c kind i (docs.map some) = .ok xs
  | [], _ => ⟨[], rfl, nofun, fun _ => rfl⟩
  | x :: xs, h => by
    obtain ⟨doc, marshalled, decoded⟩ := h x (.head _)
    obtain ⟨docs, rest, notNull, read⟩ :=
      elementsFromJSON_mapM_marshal kind fun y hy => h y (.tail _ hy)
    refine ⟨doc :: docs, by rw [List.mapM_cons, marshalled, rest]; rfl, ?_, fun i => ?_⟩
    · rintro r (_ | ⟨_, hr⟩) same
      exacts [(h x (.head _)).marshal_ne_null marshalled (Option.some.inj same), notNull r hr same]
    · simp only [List.map_cons, elementsFromJSON, decoded, wrapError_ok, liftJson_ok,
        Except.ok_bind', read]
      rfl

/-- `TransactionEssenceNormal`, the essence type. -/
def transactionEssenceNormal : Nat := 0

/-- `jsonTransactionEssence`, each `*json.RawMessage` as the document it points to. -/
structure JsonTransactionEssence where
  type : Int
  inputs : List (Option Json)
  outputs : List (Option Json)
  payload : Option Json
deriving Repr

def JsonTransactionEssence.toJson (j : JsonTransactionEssence) : Json :=
  .obj [("type", .num j.type), ("inputs", .arr (j.inputs.map rawMessage)),
    ("outputs", .arr (j.outputs.map rawMessage)), ("payload", rawMessage j.payload)]

def JsonTransactionEssence.fields : List (StructField JsonTransactionEssence) :=
  [("type", intField "jsonTransactionEssence.type" fun n j => { j with type := n }),
   ("inputs", rawSliceField "jsonTransactionEssence.inputs" fun rs j => { j with inputs := rs }),
   ("outputs", rawSliceField "jsonTransactionEssence.outputs" fun rs j => { j with outputs := rs }),
   ("payload", rawField fun r j => { j with payload := r })]

def JsonTransactionEssence.unmarshal : Json → Except JsonError JsonTransactionEssence :=
  unmarshalStruct JsonTransactionEssence.fields "iotago.jsonTransactionEssence" ⟨0, [], [], none⟩

theorem JsonTransactionEssence.unmarshal_toJson {j : JsonTransactionEssence}
    (type : -2 ^ 63 ≤ j.type ∧ j.type < 2 ^ 63) (raws : ∀ r ∈ j.inputs ++ j.outputs, r ≠ some .null)
    (payload : j.payload ≠ some .null) :
    JsonTransactionEssence.unmarshal j.toJson = .ok j := by
  simp only [List.mem_append] at raws
  have type' : -9223372036854775808 ≤ j.type ∧ j.type < 9223372036854775808 := type
  simp [unmarshal, unmarshalStruct, toJson, fields, keyMatches, intField, type', rawField,
    rawSliceField, rawOf_map_rawMessage fun r hr => raws r (.inl hr),
    rawOf_map_rawMessage fun r hr => raws r (.inr hr), rawOf_rawMessage payload]

/-- `jsonTransactionEssenceSelector`: the essence type is compared as `byte(ty)`. -/
def jsonTransactionEssenceSelector (ty : Int) :
    Except JsonError (Json → Except JsonError JsonTransactionEssence) :=
  if ty % 256 = transactionEssenceNormal then .ok JsonTransactionEssence.unmarshal
  else .error .unknownTransactionEssenceType

section Json

variable (env : JsonEnv)

/-- `jsonTransactionEssence.ToSerializable`. -/
def JsonTransactionEssence.toSerializable (j : JsonTransactionEssence) :
    Except JsonFailure TransactionEssence := do
  let inputs ← elementsFromJSON env.input "input" 0 j.inputs
  let outputs ← elementsFromJSON env.output "output" 0 j.outputs
  match j.payload with
  | none => return ⟨inputs, outputs, none⟩
  | some raw =>
    match ← deserializeObjectFromJSON env.payload.select (some raw) with
    | .other => .error (.error .invalidJSON)
    | .indexation decoded => do
      let payload ← wrapError .decodePayload (liftJson decoded)
      return ⟨inputs, outputs, some payload⟩

/-- `TransactionEssence.MarshalJSON`. -/
def TransactionEssence.marshalJSON (e : TransactionEssence) : Except JsonError Json := do
  let inputs ← e.inputs.mapM env.input.marshal
  let outputs ← e.outputs.mapM env.output.marshal
  let payload ← e.payload.mapM env.payload.marshal
  return JsonTransactionEssence.toJson
    ⟨transactionEssenceNormal, inputs.map some, outputs.map some, payload⟩

/-- `TransactionEssence.UnmarshalJSON`. -/
def TransactionEssence.unmarshalJSON (doc : Json) : Except JsonFailure TransactionEssence := do
  let j ← liftJson (JsonTransactionEssence.unmarshal doc)
  j.toSerializable env

structure TransactionEssence.JsonRoundTrips (e : TransactionEssence) : Prop where
  inputs : ∀ i ∈ e.inputs, env.input.RoundTrips .ok i
  outputs : ∀ o ∈ e.outputs, env.output.RoundTrips .ok o
  payload : ∀ p ∈ e.payload, env.payload.RoundTrips (.indexation ∘ .ok) p

theorem payload_marshal_roundTrips {payload : Option Indexation}
    (h : ∀ p ∈ payload, env.payload.RoundTrips (.indexation ∘ .ok) p) :
    ∃ raw, payload.mapM env.payload.marshal = .ok raw ∧ raw ≠ some .null ∧
      Option.Rel (fun doc p => deserializeObjectFromJSON env.payload.select (some doc) =
        .ok (.indexation (.ok p))) raw payload := by
  cases payload with
  | none => exact ⟨none, rfl, nofun, .none⟩
  | some p =>
    obtain ⟨doc, marshalled, decoded⟩ := h p rfl
    have notNull := (h p rfl).marshal_ne_null marshalled
    exact ⟨some doc, by simp [Option.mapM, marshalled], by simpa using notNull, .some decoded⟩

theorem TransactionEssence.marshalJSON_eq_ok {e : TransactionEssence} (h : e.JsonRoundTrips env) :
    ∃ j : JsonTransactionEssence, e.marshalJSON env = .ok j.toJson ∧
      j.type = transactionEssenceNormal ∧ (∀ r ∈ j.inputs ++ j.outputs, r ≠ some .null) ∧
      j.payload ≠ some .null ∧ j.toSerializable env = .ok e := by
  obtain ⟨ins, hins, insNotNull, readIns⟩ := elementsFromJSON_mapM_marshal "input" h.inputs
  obtain ⟨outs, houts, outsNotNull, readOuts⟩ := elementsFromJSON_mapM_marshal "output" h.outputs
  obtain ⟨raw, hraw, rawNotNull, readRaw⟩ := payload_marshal_roundTrips env h.payload
  refine ⟨⟨transactionEssenceNormal, ins.map some, outs.map some, raw⟩, ?_, rfl, ?_, rawNotNull, ?_⟩
  · simp only [marshalJSON, hins, houts, hraw, Except.ok_bind']
    rfl
  · exact fun r hr => (List.mem_append.mp hr).elim (insNotNull r) (outsNotNull r)
  · obtain ⟨ins', outs', payload⟩ := e
    simp only [JsonTransactionEssence.toSerializable, readIns, readOuts, Except.ok_bind']
    cases readRaw with
    | none => rfl
    | some decoded => simp only [decoded]; rfl

theorem typeNumber_fits {n : Nat} (h : n < 2 ^ 63) : -2 ^ 63 ≤ (n : Int) ∧ (n : Int) < 2 ^ 63 := by
  omega

theorem deserializeObjectFromJSON_essence {j : JsonTransactionEssence}
    (type : j.type = transactionEssenceNormal) (raws : ∀ r ∈ j.inputs ++ j.outputs, r ≠ some .null)
    (payload : j.payload ≠ some .null) :
    deserializeObjectFromJSON jsonTransactionEssenceSelector (some j.toJson) = .ok j := by
  have selected : jsonTransactionEssenceSelector j.type = .ok JsonTransactionEssence.unmarshal := by
    simp [jsonTransactionEssenceSelector, type, transactionEssenceNormal]
  exact deserializeObjectFromJSON_obj (by simp [memberValue]) selected
    (JsonTransactionEssence.unmarshal_toJson (type ▸ typeNumber_fits (by decide)) raws payload)

/-- `jsonTransaction`, each `*json.RawMessage` as the document it points to. -/
structure JsonTransaction where
  type : Int
  essence : Option Json
  unlockBlocks : List (Option Json)
deriving Repr

def JsonTransaction.toJson (j : JsonTransaction) : Json :=
  .obj [("type", .num j.type), ("essence", rawMessage j.essence),
    ("unlockBlocks", .arr (j.unlockBlocks.map rawMessage))]

def JsonTransaction.fields : List (StructField JsonTransaction) :=
  [("type", intField "jsonTransaction.type" fun n j => { j with type := n }),
   ("essence", rawField fun r j => { j with essence := r }),
   ("unlockBlocks", rawSliceField "jsonTransaction.unlockBlocks"
      fun rs j => { j with unlockBlocks := rs })]

def JsonTransaction.unmarshal : Json → Except JsonError JsonTransaction :=
  unmarshalStruct JsonTransaction.fields "iotago.jsonTransaction" ⟨0, none, []⟩

theorem JsonTransaction.unmarshal_toJson {j : JsonTransaction}
    (type : -2 ^ 63 ≤ j.type ∧ j.type < 2 ^ 63) (essence : j.essence ≠ some .null)
    (raws : ∀ r ∈ j.unlockBlocks, r ≠ some .null) :
    JsonTransaction.unmarshal j.toJson = .ok j := by
  have type' : -9223372036854775808 ≤ j.type ∧ j.type < 9223372036854775808 := type
  simp [unmarshal, unmarshalStruct, toJson, fields, keyMatches, intField, type', rawField,
    rawSliceField, rawOf_map_rawMessage raws, rawOf_rawMessage essence]

/-- Modelled from the spec: `unlockBlocksFromJSONRawMsg`. -/
def unlockBlocksFromJSONRawMsg (raws : List (Option Json)) :
    Except JsonFailure (List UnlockBlock) :=
  elementsFromJSON env.unlockBlock "unlock block" 0 raws

/-- `jsonTransaction.ToSerializable`. -/
def JsonTransaction.toSerializable (j : JsonTransaction) : Except JsonFailure Transaction := do
  let jsonTxEssence ← wrapError .decodeEssence
    (deserializeObjectFromJSON jsonTransactionEssenceSelector j.essence)
  let essence ← jsonTxEssence.toSerializable env
  let unlockBlocks ← unlockBlocksFromJSONRawMsg env j.unlockBlocks
  return ⟨essence, unlockBlocks⟩

/-- `Transaction.MarshalJSON`. -/
def Transaction.marshalJSON (t : Transaction) : Except JsonError Json := do
  let essence ← t.essence.marshalJSON env
  let unlockBlocks ← t.unlockBlocks.mapM env.unlockBlock.marshal
  return JsonTransaction.toJson ⟨payloadTransaction, some essence, unlockBlocks.map some⟩

/-- `Transaction.UnmarshalJSON`. -/
def Transaction.unmarshalJSON (doc : Json) : Except JsonFailure Transaction := do
  let j ← liftJson (JsonTransaction.unmarshal doc)
  j.toSerializable env

structure Transaction.JsonRoundTrips (t : Transaction) : Prop where
  essence : t.essence.JsonRoundTrips env
  unlockBlocks : ∀ u ∈ t.unlockBlocks, env.unlockBlock.RoundTrips .ok u

/-- The JSON round trip. An absent payload is written as `null`, which reads back as a
nil raw message and so as no payload. -/
theorem Transaction.unmarshalJSON_marshalJSON :
    (∀ e : TransactionEssence, e.JsonRoundTrips env →
      ∃ doc, e.marshalJSON env = .ok doc ∧ TransactionEssence.unmarshalJSON env doc = .ok e) ∧
    (∀ t : Transaction, t.JsonRoundTrips env →
      ∃ doc, t.marshalJSON env = .ok doc ∧ Transaction.unmarshalJSON env doc = .ok t) := by
  refine ⟨fun e h => ?_, fun t h => ?_⟩
  · obtain ⟨j, marshalled, type, raws, payload, read⟩ := e.marshalJSON_eq_ok env h
    refine ⟨j.toJson, marshalled, ?_⟩
    simp only [TransactionEssence.unmarshalJSON, liftJson_ok, Except.ok_bind', read,
      j.unmarshal_toJson (type ▸ typeNumber_fits (by decide)) raws payload]
  · obtain ⟨j, marshalled, type, raws, payload, read⟩ := t.essence.marshalJSON_eq_ok env h.essence
    obtain ⟨docs, hdocs, notNull, readBlocks⟩ :=
      elementsFromJSON_mapM_marshal "unlock block" h.unlockBlocks
    have unmarshalled : JsonTransaction.unmarshal
        (JsonTransaction.toJson ⟨payloadTransaction, some j.toJson, docs.map some⟩) =
        .ok ⟨payloadTransaction, some j.toJson, docs.map some⟩ :=
      JsonTransaction.unmarshal_toJson (typeNumber_fits (by decide)) nofun notNull
    refine ⟨JsonTransaction.toJson ⟨payloadTransaction, some j.toJson, docs.map some⟩, ?_, ?_⟩
    · simp only [Transaction.marshalJSON, marshalled, hdocs, Except.ok_bind']
      rfl
    · simp only [Transaction.unmarshalJSON, JsonTransaction.toSerializable, unmarshalled, liftJson_ok,
        Except.ok_bind', deserializeObjectFromJSON_essence type raws payload, wrapError_ok, read,
        unlockBlocksFromJSONRawMsg, readBlocks]
      rfl

end Json

/-- A sample element code: an element is written as its kind's `type` and its position. -/
def JsonCodec.indexed {α Obj : Type} [DecidableEq α] (ty : Int) (table : List α) (obj : α → Obj) :
    JsonCodec α Obj where
  marshal x := .ok (.obj [("type", .num ty), ("index", .num (table.indexOf x))])
  select t := if t = ty then .ok fun doc => do
      let members ← unmarshalMap doc
      match memberValue "index" members with
      | some (.num k) => match table[k.toNat]? with
        | some x => .ok (obj x)
        | none => .error (.element "index out of range")
      | _ => .error (.element "no index")
    else .error (.element "unknown type")

def sampleJsonEnv : JsonEnv where
  input := .indexed 0 [⟨[4], 0⟩] .ok
  output := .indexed 3 [.simple ⟨.ed25519 [1], 1⟩] .ok
  payload := .indexed 2 [⟨[7], [8]⟩] (.indexation ∘ .ok)
  unlockBlock := .indexed 0 [.signature ⟨[], []⟩] .ok

/-- A sample: one input, one output, an indexation payload and one unlock block. -/
def sampleJsonTx : Transaction :=
  ⟨⟨[⟨[4], 0⟩], [.simple ⟨.ed25519 [1], 1⟩], some ⟨[7], [8]⟩⟩, [.signature ⟨[], []⟩]⟩

theorem sample_json_round_trip :
    sampleJsonTx.essence.JsonRoundTrips sampleJsonEnv ∧ sampleJsonTx.JsonRoundTrips sampleJsonEnv ∧
    (∃ doc, sampleJsonTx.essence.marshalJSON sampleJsonEnv = .ok doc ∧
      TransactionEssence.unmarshalJSON sampleJsonEnv doc = .ok sampleJsonTx.essence) ∧
    ∃ doc, sampleJsonTx.marshalJSON sampleJsonEnv = .ok doc ∧
      Transaction.unmarshalJSON sampleJsonEnv doc = .ok sampleJsonTx := by
  have essence : sampleJsonTx.essence.JsonRoundTrips sampleJsonEnv :=
    ⟨List.forall_mem_singleton.mpr ⟨_, rfl, rfl⟩, List.forall_mem_singleton.mpr ⟨_, rfl, rfl⟩,
      by rintro _ ⟨⟩; exact ⟨_, rfl, rfl⟩⟩
  have tx : sampleJsonTx.JsonRoundTrips sampleJsonEnv :=
    ⟨essence, List.forall_mem_singleton.mpr ⟨_, rfl, rfl⟩⟩
  exact ⟨essence, tx, (Transaction.unmarshalJSON_marshalJSON sampleJsonEnv).1 _ essence,
    (Transaction.unmarshalJSON_marshalJSON sampleJsonEnv).2 _ tx⟩

end Iotago
