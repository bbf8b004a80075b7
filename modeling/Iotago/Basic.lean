import Mathlib

namespace Iotago

abbrev Bytes := List UInt8

/-- `width` little-endian bytes of `n`, as `binary.LittleEndian.PutUintN` writes them. -/
def leBytes : Nat → Nat → Bytes
  | 0, _ => []
  | w + 1, n => UInt8.ofNat (n % 256) :: leBytes w (n / 256)

def leValue : Bytes → Nat
  | [] => 0
  | b :: rest => b.toNat + 256 * leValue rest

@[simp] theorem leBytes_length (w n : Nat) : (leBytes w n).length = w := by
  induction w generalizing n with
  | zero => rfl
  | succ w ih => simp [leBytes, ih]

@[simp] theorem UInt8.toNat_ofNat' (n : Nat) : (UInt8.ofNat n).toNat = n % 256 :=
  BitVec.toNat_ofNat ..

@[simp] theorem UInt16.toNat_ofNat' (n : Nat) : (UInt16.ofNat n).toNat = n % 65536 :=
  BitVec.toNat_ofNat ..

theorem leValue_leBytes (w n : Nat) : leValue (leBytes w n) = n % 256 ^ w := by
  induction w generalizing n with
  | zero => simp [leBytes, leValue, Nat.mod_one]
  | succ w ih => simp only [leBytes, leValue, UInt8.toNat_ofNat', ih, Nat.pow_succ', Nat.mod_mul]; omega

theorem leValue_lt (bs : Bytes) : leValue bs < 256 ^ bs.length := by
  induction bs with
  | nil => simp [leValue]
  | cons b bs ih =>
    have hb := UInt8.toNat_lt b
    simp only [leValue, List.length_cons, Nat.pow_succ]
    omega

theorem leBytes_leValue (bs : Bytes) : leBytes bs.length (leValue bs) = bs := by
  induction bs with
  | nil => rfl
  | cons b bs ih =>
    have hb := UInt8.toNat_lt b
    have hlow : (b.toNat + 256 * leValue bs) % 256 = b.toNat := by omega
    have hhigh : (b.toNat + 256 * leValue bs) / 256 = leValue bs := by omega
    simp only [List.length_cons, leBytes, leValue, hlow, hhigh, ih, List.cons.injEq, and_true]
    exact UInt8.toNat.inj (by simp only [UInt8.toNat_ofNat']; omega)

@[simp] theorem Except.ok_bind' {ε α β : Type} (a : α) (f : α → Except ε β) :
    (Except.ok a >>= f) = f a := rfl

@[simp] theorem Except.error_bind' {ε α β : Type} (e : ε) (f : α → Except ε β) :
    (Except.error e >>= f) = Except.error e := rfl

@[simp] theorem Except.throw_eq_error {ε α : Type} (e : ε) : (throw e : Except ε α) = .error e := rfl

theorem Except.bind_eq_ok {ε α β : Type} {x : Except ε α} {f : α → Except ε β} {b : β} :
    x >>= f = .ok b ↔ ∃ a, x = .ok a ∧ f a = .ok b := by
  cases x <;> simp

@[simp] theorem Except.ite_error_eq_ok {ε α : Type} {c : Prop} [Decidable c] {e : ε}
    {x : Except ε α} {b : α} : (if c then .error e else x) = .ok b ↔ ¬c ∧ x = .ok b := by
  split_ifs <;> simp [*]

theorem Except.map_eq_ok {ε α β : Type} {x : Except ε α} {f : α → β} {b : β} :
    f <$> x = .ok b ↔ ∃ a, x = .ok a ∧ f a = b := by
  cases x <;> simp [Functor.map, Except.map]

/-- `DeSerializationMode`: the validation and lexical-ordering flags. -/
structure DeSerializationMode where
  performValidation : Bool
  performLexicalOrdering : Bool
deriving DecidableEq, Repr

def deSeriModeNoValidation : DeSerializationMode := ⟨false, false⟩
def deSeriModePerformValidation : DeSerializationMode := ⟨true, false⟩
/-- `DeSeriModePerformValidation | DeSeriModePerformLexicalOrdering`, the mode of `SigningMessage`. -/
def deSeriModeSigning : DeSerializationMode := ⟨true, true⟩

@[simp] theorem deSeriModeNoValidation_performValidation :
    deSeriModeNoValidation.performValidation = false := rfl

@[simp] theorem deSeriModePerformValidation_performValidation :
    deSeriModePerformValidation.performValidation = true := rfl

@[simp] theorem deSeriModeSigning_performValidation :
    deSeriModeSigning.performValidation = true := rfl

/-- One iteration order of a Go map: every loop may see the entries in any order. -/
structure Arrangement (α : Type) where
  arrange : List α → List α
  perm : ∀ l, (arrange l).Perm l

def Arrangement.identity (α : Type) : Arrangement α := ⟨id, fun _ => List.Perm.refl _⟩

def Arrangement.reversed (α : Type) : Arrangement α := ⟨List.reverse, List.reverse_perm⟩

@[simp] theorem Arrangement.arrange_nil {α : Type} (a : Arrangement α) : a.arrange [] = [] :=
  List.Perm.eq_nil (a.perm [])

@[simp] theorem Arrangement.arrange_singleton {α : Type} (a : Arrangement α) (x : α) :
    a.arrange [x] = [x] :=
  List.perm_singleton.mp (a.perm [x])

theorem Arrangement.mem_arrange {α : Type} (a : Arrangement α) {l : List α} {x : α} :
    x ∈ a.arrange l ↔ x ∈ l :=
  (a.perm l).mem_iff

end Iotago
