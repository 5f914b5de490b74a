import Mathlib.Algebra.Group.Nat.Defs
import Mathlib.Logic.Basic

/-!
# Computations that return, fail or crash

A computation ends with a value, with an error its caller handles, or with a crash that ends the
program. `Meets mayCrash x Q` says that the value, if there is one, is in `Q`, and that a crash happens
only where `mayCrash` allows it: with `True` this is partial correctness, with `False` the absence of
crashes besides. The rules take computations apart, folds by an invariant that sees the rest of the
list.

Arithmetic that is checked crashes where its result is out of range: unsigned on natural numbers in the
range of 64 bits (`add64` and so on) and on words (`addU64`, `addU8`), signed on integers (`int64`).
-/

namespace Fallible

/-- How a computation ends without a value. -/
inductive Failure (ε κ : Type)
  | err (e : ε)
  | crash (c : κ)
  deriving DecidableEq, Repr

abbrev Result (ε κ α : Type) := Except (Failure ε κ) α

variable {ε κ α β : Type}

def fail (e : ε) : Result ε κ α := .error (.err e)

def crash (c : κ) : Result ε κ α := .error (.crash c)

/-- The value, if there is one, is in `Q`; a crash needs `mayCrash`. -/
def Meets (mayCrash : Prop) (x : Result ε κ α) (Q : α → Prop) : Prop :=
  match x with
  | .ok a => Q a
  | .error (.err _) => True
  | .error (.crash _) => mayCrash

variable {mayCrash : Prop} {x : Result ε κ α} {Q : α → Prop}

@[simp] lemma meets_ok {a : α} : Meets mayCrash (.ok a : Result ε κ α) Q ↔ Q a := Iff.rfl

@[simp] lemma meets_pure {a : α} : Meets mayCrash (pure a : Result ε κ α) Q ↔ Q a := Iff.rfl

@[simp] lemma meets_fail {e : ε} : Meets mayCrash (fail e : Result ε κ α) Q := trivial

@[simp] lemma meets_crash {c : κ} : Meets mayCrash (crash c : Result ε κ α) Q ↔ mayCrash := Iff.rfl

namespace Meets

lemma mono {R : α → Prop} (h : Meets mayCrash x Q) (hR : ∀ a, Q a → R a) : Meets mayCrash x R := by
  unfold Meets at h ⊢
  split
  · exact hR _ h
  · trivial
  · exact h

/-- What does not crash meets its specification where crashes are allowed. -/
theorem weaken (h : Meets False x Q) : Meets mayCrash x Q := by
  unfold Meets at h ⊢
  split
  · exact h
  · trivial
  · cases h

/-- The value is the one the computation returns. -/
theorem with_eq (h : Meets mayCrash x Q) : Meets mayCrash x fun a => x = .ok a ∧ Q a := by
  match x with
  | .ok a => exact ⟨rfl, h⟩
  | .error (.err _) => trivial
  | .error (.crash _) => exact h

lemma bind {f : α → Result ε κ β} {R : β → Prop} (h : Meets mayCrash x Q)
    (hf : ∀ a, Q a → Meets mayCrash (f a) R) : Meets mayCrash (x >>= f) R := by
  match x with
  | .ok a => exact hf a h
  | .error (.err _) => trivial
  | .error (.crash _) => exact h

/-- A fold with an invariant on the rest of the list and the state. -/
theorem foldlM {f : α → β → Result ε κ α} {I : List β → α → Prop}
    (hstep : ∀ b l a, I (b :: l) a → Meets mayCrash (f a b) (I l)) {l : List β} {a : α} (h : I l a) :
    Meets mayCrash (l.foldlM f a) (I []) := by
  induction l generalizing a with
  | nil => exact h
  | cons b l ih =>
    rw [List.foldlM_cons]
    exact (hstep b l a h).bind fun a' ha' => ih ha'

lemma of_eq_ok {a : α} (h : Meets mayCrash x Q) (hx : x = .ok a) : Q a := by
  rwa [hx] at h

lemma ne_crash (h : Meets False x Q) (c : κ) : x ≠ crash c := by
  rintro rfl
  exact h

end Meets

@[simp] lemma ok_bind {a : α} (f : α → Result ε κ β) : ((.ok a : Result ε κ α) >>= f) = f a := rfl

@[simp] lemma error_bind {failure : Failure ε κ} (f : α → Result ε κ β) :
    ((.error failure : Result ε κ α) >>= f) = .error failure := rfl

lemma bind_eq_ok {f : α → Result ε κ β} {b : β} (h : (x >>= f) = .ok b) : ∃ a, x = .ok a ∧ f a = .ok b := by
  match x with
  | .ok a => exact ⟨a, rfl, h⟩
  | .error _ => cases h

/-! ## Checked 64-bit arithmetic -/

/-- What checked arithmetic crashes with, where there are no other crashes. -/
inductive Overflow
  | overflow
  deriving DecidableEq, Repr

/-- Crashes among which is that of checked arithmetic. -/
class Overflows (κ : Type) where
  overflow : κ

instance : Overflows Overflow := ⟨.overflow⟩

variable [Overflows κ]

def add64 (a b : ℕ) : Result ε κ ℕ := if a + b < 2 ^ 64 then pure (a + b) else crash Overflows.overflow

def sub64 (a b : ℕ) : Result ε κ ℕ := if b ≤ a then pure (a - b) else crash Overflows.overflow

def mul64 (a b : ℕ) : Result ε κ ℕ := if a * b < 2 ^ 64 then pure (a * b) else crash Overflows.overflow

lemma add64_of_lt {a b : ℕ} (h : a + b < 2 ^ 64) : (add64 a b : Result ε κ ℕ) = .ok (a + b) :=
  if_pos h

lemma add64_meets (a b : ℕ) : Meets True (add64 a b : Result ε κ ℕ) fun n => n = a + b := by
  unfold add64
  split
  · rfl
  · trivial

lemma add64_ok {a b c : ℕ} (h : (add64 a b : Result ε κ ℕ) = .ok c) : c = a + b := (add64_meets a b).of_eq_ok h

lemma sub64_of_le {a b : ℕ} (h : b ≤ a) : (sub64 a b : Result ε κ ℕ) = .ok (a - b) :=
  if_pos h

lemma mul64_of_lt {a b : ℕ} (h : a * b < 2 ^ 64) : (mul64 a b : Result ε κ ℕ) = .ok (a * b) :=
  if_pos h

/-- `add64` on words. -/
def addU64 (a b : UInt64) : Result ε κ UInt64 :=
  if a.toNat + b.toNat < 2 ^ 64 then pure (a + b) else crash Overflows.overflow

/-- `mul64` on words. -/
def mulU64 (a b : UInt64) : Result ε κ UInt64 :=
  if a.toNat * b.toNat < 2 ^ 64 then pure (a * b) else crash Overflows.overflow

/-- Checked addition of bytes. -/
def addU8 (a b : UInt8) : Result ε κ UInt8 :=
  if a.toNat + b.toNat < 2 ^ 8 then pure (a + b) else crash Overflows.overflow

lemma addU64_of_lt {a b : UInt64} (h : a.toNat + b.toNat < 2 ^ 64) :
    (addU64 a b : Result ε κ UInt64) = .ok (a + b) :=
  if_pos h

lemma mulU64_of_lt {a b : UInt64} (h : a.toNat * b.toNat < 2 ^ 64) :
    (mulU64 a b : Result ε κ UInt64) = .ok (a * b) :=
  if_pos h

lemma addU8_of_lt {a b : UInt8} (h : a.toNat + b.toNat < 2 ^ 8) :
    (addU8 a b : Result ε κ UInt8) = .ok (a + b) :=
  if_pos h

/-- The result of arithmetic on words of `w` bits. -/
def checked (w n : ℕ) : Result ε κ ℕ := if n < 2 ^ w then pure n else crash Overflows.overflow

lemma checked_of_lt {w n : ℕ} (h : n < 2 ^ w) : (checked w n : Result ε κ ℕ) = .ok n := if_pos h

/-- The result of signed arithmetic. -/
def int64 (x : ℤ) : Result ε κ ℤ :=
  if -9223372036854775808 ≤ x ∧ x < 9223372036854775808 then pure x else crash Overflows.overflow

lemma int64_of_mem {x : ℤ} (hlow : -9223372036854775808 ≤ x) (hhigh : x < 9223372036854775808) :
    (int64 x : Result ε κ ℤ) = .ok x :=
  if_pos ⟨hlow, hhigh⟩

end Fallible
