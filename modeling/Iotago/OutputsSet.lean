import Iotago.Semantic.WorkingSet

/-! `Transaction.OutputsSet`: every output filed under the output id of its slot. The
slot index is converted by `uint16(index)`, which wraps past 65535; but the set is only
built once the transaction has an id, and the id hashes a serialization whose
`uint16`-counted output slice refuses more than 65535 outputs. So every slot gets a key
of its own and no output is lost. -/
namespace Iotago

/-- `Transaction.OutputsSet`. -/
def Transaction.outputsSet (env : CodecEnv) (t : Transaction) : Except Err OutputSet := do
  let txId ← t.id env
  return t.essence.outputs.enum.foldl (fun set p => set.insert ⟨txId, UInt16.ofNat p.1⟩ p.2) ∅

def slotEntries (txId : TransactionID) (outputs : List Output) : List (Σ _ : OutputID, Output) :=
  outputs.enum.map fun p => ⟨⟨txId, UInt16.ofNat p.1⟩, p.2⟩

theorem outputsSet_fold (txId : TransactionID) (outputs : List Output) :
    outputs.enum.foldl (fun set p => set.insert ⟨txId, UInt16.ofNat p.1⟩ p.2) (∅ : OutputSet) =
      (slotEntries txId outputs).foldl (fun set e => set.insert e.1 e.2) ∅ := by
  rw [slotEntries, List.foldl_map]

/-- Below 65536 slots, `uint16(index)` gives every slot its own output id. -/
theorem slotEntries_nodupKeys {txId : TransactionID} {outputs : List Output}
    (short : outputs.length ≤ 65535) : (slotEntries txId outputs).NodupKeys := by
  have keys : (slotEntries txId outputs).keys =
      (List.range outputs.length).map fun i => (⟨txId, UInt16.ofNat i⟩ : OutputID) := by
    rw [List.keys, slotEntries, List.map_map, ← List.enum_map_fst, List.map_map]
    rfl
  rw [List.NodupKeys, keys]
  refine (List.nodup_range _).map_on fun i hi j hj same => ?_
  have := congrArg UInt16.toNat (OutputID.mk.inj same).2
  simp only [UInt16.toNat_ofNat'] at this
  rw [List.mem_range] at hi hj
  omega

theorem mem_slotEntries {txId : TransactionID} {outputs : List Output} {i : Nat}
    (hi : i < outputs.length) : ⟨⟨txId, UInt16.ofNat i⟩, outputs[i]⟩ ∈ slotEntries txId outputs :=
  List.mem_map.mpr ⟨(i, outputs[i]), List.mem_enum_iff_getElem?.mpr (List.getElem?_eq_getElem hi),
    rfl⟩

theorem outputsSet_eq_ok {env : CodecEnv} {t : Transaction} {set : OutputSet}
    (h : t.outputsSet env = .ok set) :
    ∃ txId, t.id env = .ok txId ∧ t.essence.outputs.length ≤ 65535 ∧
      ∀ k, set.lookup k = (slotEntries txId t.essence.outputs).dlookup k := by
  simp only [Transaction.outputsSet, Except.bind_eq_ok] at h
  obtain ⟨txId, hid, h⟩ := h
  cases h
  have short := Transaction.id_outputs_length_le env hid
  refine ⟨txId, hid, short, fun k => ?_⟩
  rw [outputsSet_fold, lookup_foldl_insert_of_nodupKeys _ k (slotEntries_nodupKeys short)]
  simp

theorem Transaction.outputsSet_loses_no_output {env : CodecEnv} {t : Transaction}
    {set : OutputSet} (h : t.outputsSet env = .ok set) :
    ∃ txId, t.id env = .ok txId ∧ t.essence.outputs.length ≤ 65535 ∧
      set.entries.length = t.essence.outputs.length ∧
      ∀ i (hi : i < t.essence.outputs.length),
        set.lookup ⟨txId, UInt16.ofNat i⟩ = some t.essence.outputs[i] := by
  obtain ⟨txId, hid, short, look⟩ := outputsSet_eq_ok h
  have nodup : (slotEntries txId t.essence.outputs).NodupKeys := slotEntries_nodupKeys short
  have same : set.entries.Perm (slotEntries txId t.essence.outputs) :=
    List.lookup_ext set.nodupKeys nodup fun k v => by rw [← AList.lookup, look]
  refine ⟨txId, hid, short, by simp [same.length_eq, slotEntries], fun i hi => ?_⟩
  rw [look]
  exact List.mem_dlookup nodup (mem_slotEntries hi)

/-- A sample: a transaction with two outputs to two addresses. -/
def samplePairOutputs : List Output := [.simple ⟨.ed25519 [1], 1⟩, .simple ⟨.ed25519 [2], 2⟩]

def samplePair : Transaction := ⟨⟨[⟨[4], 0⟩], samplePairOutputs, none⟩, [.signature ⟨[], []⟩]⟩

def samplePairEnv : CodecEnv :=
  (Env.indexed [⟨[4], 0⟩] samplePairOutputs [.signature ⟨[], []⟩] (by decide) (by decide)
    (by decide)).toCodecEnv

theorem sample_pair_outputs_set : ∃ set txId, samplePair.outputsSet samplePairEnv = .ok set ∧
    samplePair.id samplePairEnv = .ok txId ∧ set.entries.length = 2 ∧
    set.lookup ⟨txId, 1⟩ = some (.simple ⟨.ed25519 [2], 2⟩) := by
  obtain ⟨set, built⟩ : ∃ set, samplePair.outputsSet samplePairEnv = .ok set := ⟨_, rfl⟩
  obtain ⟨txId, hid, -, count, look⟩ := Transaction.outputsSet_loses_no_output built
  exact ⟨set, txId, built, hid, count, look 1 (by decide)⟩

end Iotago
