import Iotago.Semantic.Pipeline

/-! `TxSemanticDeposit` with its `uint64` accumulators: each loop is a fold whose sums
are natural sums taken modulo `2^64`. -/
namespace Iotago

theorem UInt64.toNat_ofNat' (n : Nat) : (UInt64.ofNat n).toNat = n % 2 ^ 64 := rfl

theorem UInt64.lt_iff_toNat_lt' {x y : UInt64} : x < y ↔ x.toNat < y.toNat := Iff.rfl

theorem UInt64.toNat_mod' (x : UInt64) : x.toNat % 2 ^ 64 = x.toNat :=
  Nat.mod_eq_of_lt (UInt64.toNat_lt x)

theorem UInt64.toNat_add_mod (x y : UInt64) (k : Nat) :
    ((x + y).toNat + k) % 2 ^ 64 = (x.toNat + y.toNat + k) % 2 ^ 64 := by
  rw [UInt64.toNat_add]; exact Nat.mod_add_mod ..

/-- The natural sum of the credits to `ident`. -/
def amountTotal (ident : Bytes) (credits : List (Bytes × UInt64)) : Nat :=
  ((credits.filter (·.1 == ident)).map (·.2.toNat)).sum

theorem amountTotal_cons (ident : Bytes) (c : Bytes × UInt64) (credits : List (Bytes × UInt64)) :
    amountTotal ident (c :: credits) =
      (if c.1 = ident then c.2.toNat else 0) + amountTotal ident credits := by
  by_cases h : c.1 = ident <;> simp [amountTotal, List.filter_cons, h]

theorem amountTotal_perm (ident : Bytes) {l l' : List (Bytes × UInt64)} (p : l.Perm l') :
    amountTotal ident l = amountTotal ident l' :=
  ((p.filter _).map _).sum_eq

def addAmounts (m : AmountPerIdent) (credits : List (Bytes × UInt64)) : AmountPerIdent :=
  credits.foldl (fun m c => addAmount m c.1 c.2) m

theorem addAmounts_lookup (m : AmountPerIdent) (credits : List (Bytes × UInt64)) (ident : Bytes) :
    (addAmounts m credits).lookup ident =
      if ident ∈ m ∨ ident ∈ credits.map Prod.fst then
        some (UInt64.ofNat (((m.lookup ident).getD 0).toNat + amountTotal ident credits))
      else none := by
  induction credits generalizing m with
  | nil =>
    by_cases mem : ident ∈ m
    · obtain ⟨v, hv⟩ := Option.isSome_iff_exists.mp (AList.lookup_isSome.mpr mem)
      simp only [addAmounts, List.foldl_nil, mem, true_or, if_true, hv, Option.getD_some,
        amountTotal, List.filter_nil, List.map_nil, List.sum_nil, Nat.add_zero]
      exact congrArg some (UInt64.toNat.inj (by rw [UInt64.toNat_ofNat', UInt64.toNat_mod']))
    · simp [addAmounts, mem, AList.lookup_eq_none.mpr mem]
  | cons c rest ih =>
    have step : addAmounts m (c :: rest) = addAmounts (addAmount m c.1 c.2) rest := rfl
    rw [step, ih]
    by_cases hc : c.1 = ident
    · subst hc
      rw [if_pos (by simp [addAmount]), if_pos (by simp)]
      simp only [addAmount, AList.lookup_insert, Option.getD_some, amountTotal_cons, if_true]
      refine congrArg some (UInt64.toNat.inj ?_)
      rw [UInt64.toNat_ofNat', UInt64.toNat_ofNat', UInt64.toNat_add_mod, Nat.add_assoc]
    · have hne : ident ≠ c.1 := Ne.symm hc
      simp only [addAmount, AList.lookup_insert_ne hne, AList.mem_insert, hne, false_or,
        amountTotal_cons, hc, if_false, Nat.zero_add, List.map_cons, List.mem_cons]

theorem addAmounts_empty_lookup (credits : List (Bytes × UInt64)) (ident : Bytes) :
    (addAmounts ∅ credits).lookup ident =
      if ident ∈ credits.map Prod.fst then some (UInt64.ofNat (amountTotal ident credits))
      else none := by
  rw [addAmounts_lookup]
  simp only [AList.not_mem_empty, false_or, AList.lookup_empty, Option.getD_none,
    UInt64.toNat_zero, Nat.zero_add]

/-- The natural sum of the deposits of `outputs`. -/
def depositTotal (outputs : List Output) : Nat := (outputs.map (·.deposit.toNat)).sum

theorem depositTotal_perm {l l' : List Output} (p : l.Perm l') : depositTotal l = depositTotal l' :=
  (p.map _).sum_eq

/-- The dust deposit return an input owes, as `dustDepositReturn` finds it. -/
def returnOwed (o : Output) : Option (Bytes × UInt64) :=
  match o.featureBlocks with
  | none => none
  | some blocks =>
    match dustDepositReturnOf blocks, senderOf blocks with
    | some amount, some a => some (a.key, amount)
    | _, _ => none

theorem dustDepositReturn_eq_ok {o : Output} {x : Option (Bytes × UInt64)}
    (h : dustDepositReturn o = .ok x) : x = returnOwed o := by
  unfold dustDepositReturn at h
  unfold returnOwed
  cases hb : o.featureBlocks with
  | none =>
    simp only [hb] at h
    cases h
    rfl
  | some blocks =>
    simp only [hb, Except.bind_eq_ok, liftErr_eq_ok, featureBlocksSet_eq_ok] at h
    obtain ⟨_, ⟨-, hset⟩, h⟩ := h
    rw [hset] at h
    cases hr : dustDepositReturnOf blocks with
    | none =>
      simp only [hr] at h
      cases h
      simp [hr]
    | some amount =>
      simp only [hr, requireSender, Except.bind_eq_ok] at h
      obtain ⟨a, ha, h⟩ := h
      split at ha
      · cases ha
        cases h
        simp [*]
      · cases ha

def returnsOwed (entries : List (Σ _ : OutputID, Output)) : List (Bytes × UInt64) :=
  entries.filterMap (returnOwed ·.2)

theorem returnsOwed_perm {l l' : List (Σ _ : OutputID, Output)} (p : l.Perm l') :
    (returnsOwed l).Perm (returnsOwed l') :=
  p.filterMap _

theorem depositInputs_eq_ok {entries : List (Σ _ : OutputID, Output)} {inSum inSum' : UInt64}
    {returns returns' : AmountPerIdent}
    (h : depositInputs entries inSum returns = .ok (inSum', returns')) :
    inSum'.toNat = (inSum.toNat + depositTotal (entries.map (·.2))) % 2 ^ 64 ∧
      returns' = addAmounts returns (returnsOwed entries) := by
  induction entries generalizing inSum returns with
  | nil =>
    cases h
    exact ⟨(UInt64.toNat_mod' _).symm, rfl⟩
  | cons e rest ih =>
    obtain ⟨id, o⟩ := e
    simp only [depositInputs, Except.bind_eq_ok] at h
    obtain ⟨r, hr, h⟩ := h
    have owed := dustDepositReturn_eq_ok hr
    subst owed
    have sum : ∀ s' : UInt64, s'.toNat = ((inSum + o.deposit).toNat + depositTotal (rest.map (·.2))) % 2 ^ 64 →
        s'.toNat = (inSum.toNat + depositTotal ((⟨id, o⟩ :: rest).map (·.2))) % 2 ^ 64 := by
      intro s' hs
      rw [hs, UInt64.toNat_add_mod]
      simp [depositTotal, Nat.add_assoc]
    cases hro : returnOwed o with
    | none =>
      simp only [hro] at h
      obtain ⟨hs, rfl⟩ := ih h
      exact ⟨sum _ hs, by simp [returnsOwed, hro]⟩
    | some c =>
      simp only [hro] at h
      obtain ⟨hs, rfl⟩ := ih h
      exact ⟨sum _ hs, by simp [returnsOwed, hro]; rfl⟩

theorem depositInputs_isOk {entries : List (Σ _ : OutputID, Output)} {inSum : UInt64}
    {returns : AmountPerIdent} :
    (∃ p, depositInputs entries inSum returns = .ok p) ↔
      ∀ e ∈ entries, ∃ x, dustDepositReturn e.2 = .ok x := by
  induction entries generalizing inSum returns with
  | nil => simp [depositInputs]
  | cons e rest ih =>
    obtain ⟨id, o⟩ := e
    simp only [depositInputs, Except.bind_eq_ok, List.mem_cons, forall_eq_or_imp]
    constructor
    · rintro ⟨p, r, hr, h⟩
      refine ⟨⟨r, hr⟩, ?_⟩
      cases r with
      | none => exact ih.mp ⟨p, h⟩
      | some c => exact ih.mp ⟨p, h⟩
    · rintro ⟨⟨r, hr⟩, later⟩
      cases r with
      | none =>
        obtain ⟨p, hp⟩ := ih.mpr later
        exact ⟨p, none, hr, hp⟩
      | some c =>
        obtain ⟨p, hp⟩ := ih.mpr later
        exact ⟨p, some c, hr, hp⟩

/-- The plain transfer an output makes: its address's key and its deposit. -/
def transferOf (o : Output) : Option (Bytes × UInt64) :=
  (simpleTransferAddress o).map fun a => (a.key, o.deposit)

theorem depositOutputs_eq (outputs : List Output) (outSum : UInt64) (transfers : AmountPerIdent) :
    (depositOutputs outputs outSum transfers).1.toNat =
        (outSum.toNat + depositTotal outputs) % 2 ^ 64 ∧
      (depositOutputs outputs outSum transfers).2 =
        addAmounts transfers (outputs.filterMap transferOf) := by
  induction outputs generalizing outSum transfers with
  | nil => exact ⟨(UInt64.toNat_mod' _).symm, rfl⟩
  | cons o rest ih =>
    have sum : ((outSum + o.deposit).toNat + depositTotal rest) % 2 ^ 64 =
        (outSum.toNat + depositTotal (o :: rest)) % 2 ^ 64 := by
      rw [UInt64.toNat_add_mod]
      simp [depositTotal, Nat.add_assoc]
    cases ha : simpleTransferAddress o with
    | none =>
      simp only [depositOutputs, ha]
      exact ⟨(ih _ _).1.trans sum, by simp [(ih _ _).2, transferOf, ha]⟩
    | some a =>
      simp only [depositOutputs, ha]
      exact ⟨(ih _ _).1.trans sum, by simp [(ih _ _).2, transferOf, ha]; rfl⟩

theorem checkReturnAmounts_eq_ok {transfers : AmountPerIdent} {owed : List (Σ _ : Bytes, UInt64)} :
    checkReturnAmounts transfers owed = .ok () ↔
      ∀ r ∈ owed, ∃ tr, transfers.lookup r.1 = some tr ∧ r.2.toNat ≤ tr.toNat := by
  induction owed with
  | nil => simp [checkReturnAmounts]
  | cons r rest ih =>
    obtain ⟨ident, returnSum⟩ := r
    simp only [checkReturnAmounts, List.mem_cons, forall_eq_or_imp]
    cases ht : transfers.lookup ident with
    | none => simp [fail]
    | some outSum =>
      by_cases short : outSum < returnSum
      · simp [short, fail, UInt64.lt_iff_toNat_lt'.mp short]
      · simp [short, ih, Nat.le_of_not_lt (UInt64.lt_iff_toNat_lt'.not.mp short)]

theorem forall_mem_addAmounts_entries {credits : List (Bytes × UInt64)}
    {P : (Σ _ : Bytes, UInt64) → Prop} :
    (∀ r ∈ (addAmounts ∅ credits).entries, P r) ↔
      ∀ ident ∈ credits.map Prod.fst, P ⟨ident, UInt64.ofNat (amountTotal ident credits)⟩ := by
  constructor
  · intro h ident mem
    refine h _ (AList.mem_lookup_iff.mp ?_)
    rw [addAmounts_empty_lookup, if_pos mem]
    rfl
  · rintro h ⟨ident, v⟩ mem
    have look := AList.mem_lookup_iff.mpr mem
    rw [addAmounts_empty_lookup] at look
    split_ifs at look with credited
    · simp only [Option.mem_def, Option.some.injEq] at look
      subst look
      exact h ident credited
    · simp at look

theorem txSemanticDeposit_eq_ok_iff (σ : MapOrder) (ws : WorkingSet) :
    txSemanticDeposit σ ws = .ok () ↔
      (∀ e ∈ ws.inputSet.entries, ∃ x, dustDepositReturn e.2 = .ok x) ∧
      depositTotal (ws.inputSet.entries.map (·.2)) % 2 ^ 64 =
        depositTotal ws.tx.essence.outputs % 2 ^ 64 ∧
      ∀ ident ∈ (returnsOwed ws.inputSet.entries).map Prod.fst,
        ident ∈ (ws.tx.essence.outputs.filterMap transferOf).map Prod.fst ∧
        amountTotal ident (returnsOwed ws.inputSet.entries) % 2 ^ 64 ≤
          amountTotal ident (ws.tx.essence.outputs.filterMap transferOf) % 2 ^ 64 := by
  have p := σ.deposit.perm ws.inputSet.entries
  obtain ⟨outEq, transfersEq⟩ := depositOutputs_eq ws.tx.essence.outputs 0 ∅
  rcases hout : depositOutputs ws.tx.essence.outputs 0 ∅ with ⟨outSum, transfers⟩
  rw [hout] at outEq transfersEq
  cases hin : depositInputs (σ.deposit.arrange ws.inputSet.entries) 0 ∅ with
  | error e =>
    have stuck : ¬ ∀ e ∈ ws.inputSet.entries, ∃ x, dustDepositReturn e.2 = .ok x := fun all => by
      obtain ⟨q, hq⟩ := depositInputs_isOk.mpr fun e mem => all e (p.subset mem)
      rw [hin] at hq
      cases hq
    simp only [txSemanticDeposit, hin, Except.error_bind', reduceCtorEq, stuck, false_and]
  | ok q =>
    obtain ⟨inSum, returns⟩ := q
    obtain ⟨inEq, rfl⟩ := depositInputs_eq_ok hin
    have readable : ∀ e ∈ ws.inputSet.entries, ∃ x, dustDepositReturn e.2 = .ok x :=
      fun e mem => depositInputs_isOk.mp ⟨_, hin⟩ e (p.symm.subset mem)
    simp only [UInt64.toNat_zero, Nat.zero_add] at outEq inEq
    dsimp only at outEq transfersEq
    subst transfersEq
    rw [depositTotal_perm (p.map _)] at inEq
    have sums : inSum = outSum ↔ depositTotal (ws.inputSet.entries.map (·.2)) % 2 ^ 64 =
        depositTotal ws.tx.essence.outputs % 2 ^ 64 := by
      rw [← inEq, ← outEq]
      exact ⟨congrArg _, UInt64.toNat.inj⟩
    have owed := returnsOwed_perm p
    simp only [txSemanticDeposit, hin, hout, Except.ok_bind', fail, Except.ite_error_eq_ok,
      not_not, sums, checkReturnAmounts_eq_ok, Arrangement.mem_arrange]
    rw [forall_mem_addAmounts_entries]
    simp only [addAmounts_empty_lookup, (owed.map Prod.fst).mem_iff,
      fun ident => amountTotal_perm ident owed, iff_true_intro readable, true_and]
    refine and_congr_right fun _ => forall₂_congr fun ident _ => ?_
    by_cases credited : ident ∈ (ws.tx.essence.outputs.filterMap transferOf).map Prod.fst
    · simp only [credited, if_true, Option.some.injEq, UInt64.toNat_ofNat', exists_eq_left',
        true_and]
    · simp only [credited, if_false, reduceCtorEq, false_and, exists_const]

/-- A sample: returns of `2^64 - 1` and `1` owed to one address, which the outputs pay
`2`. The return sum `2^64` wraps to `0` before it is compared. -/
def sampleReturnee : Address := .ed25519 [2]

def sampleReturnInputs : List UTXOInput := [⟨[8], 0⟩, ⟨[8], 1⟩]

def sampleReturnOutput : Output := .simple ⟨sampleReturnee, 2⟩

def sampleReturnBlocks : List UnlockBlock := [.signature ⟨[], []⟩, .reference 0]

def sampleReturnTx : Transaction :=
  ⟨⟨sampleReturnInputs, [sampleReturnOutput], none⟩, sampleReturnBlocks⟩

def sampleOwing (amount : UInt64) : Output :=
  .extended ⟨.ed25519 [1], 1, [], [.sender sampleReturnee, .dustDepositReturn amount]⟩

def sampleReturnInputSet : OutputSet :=
  ((∅ : OutputSet).insert ⟨[8], 0⟩ (sampleOwing 18446744073709551615)).insert ⟨[8], 1⟩
    (sampleOwing 1)

def sampleReturnEnv : Env :=
  .indexed sampleReturnInputs [sampleReturnOutput] sampleReturnBlocks (by decide) (by decide)
    (by decide)

theorem sample_return_wraps : ∃ ws, newSemValiContextWorkingSet sampleReturnEnv .identity
      sampleReturnTx sampleReturnInputSet = .ok ws ∧
    txSemanticDeposit .identity ws = .ok () ∧
    amountTotal sampleReturnee.key (returnsOwed ws.inputSet.entries) = 2 ^ 64 ∧
    amountTotal sampleReturnee.key (ws.tx.essence.outputs.filterMap transferOf) = 2 ∧
    semanticallyValidate sampleReturnEnv .identity ⟨0, 0⟩ sampleReturnTx sampleReturnInputSet =
      .ok () := by
  obtain ⟨ws, built⟩ : ∃ ws, newSemValiContextWorkingSet sampleReturnEnv .identity sampleReturnTx
      sampleReturnInputSet = .ok ws := ⟨_, rfl⟩
  obtain ⟨msg, txId, -, -, hws⟩ := newSemValiContextWorkingSet_eq_ok built
  have inputSet : ws.inputSet = sampleReturnInputSet := by rw [hws]
  have tx : ws.tx = sampleReturnTx := by rw [hws]
  refine ⟨ws, built, (txSemanticDeposit_eq_ok_iff _ _).mpr ⟨?_, ?_, ?_⟩, ?_, ?_, rfl⟩
  all_goals simp only [inputSet, tx]
  · have entries : sampleReturnInputSet.entries =
        [⟨⟨[8], 1⟩, sampleOwing 1⟩, ⟨⟨[8], 0⟩, sampleOwing 18446744073709551615⟩] := rfl
    rw [entries]
    rintro e (_ | ⟨_, _ | ⟨_, ⟨⟩⟩⟩) <;> exact ⟨_, rfl⟩
  all_goals decide

end Iotago
