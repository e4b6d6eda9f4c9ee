/-
Results of kernel calls.

A call that fails hands back an error number: an `int` function returns its
negative, and a function that returns a pointer returns an error pointer, which
is not NULL.
-/
import Mathlib.Data.Nat.Notation

namespace AtomDrivers
namespace Linux

def maxErrno : Nat := 4095

structure ErrNo where
  no : Nat
  pos : 0 < no
  le : no ≤ maxErrno
  deriving DecidableEq, Repr

/-- `none` is success. -/
abbrev Outcome := Option ErrNo

def Outcome.toInt : Outcome → Int
  | none => 0
  | some e => -(e.no : Int)

@[simp] theorem Outcome.toInt_eq_zero {o : Outcome} : o.toInt = 0 ↔ o = none := by
  cases o with
  | none => simp [Outcome.toInt]
  | some e =>
    have hpos : 0 < e.no := e.pos
    simp only [Outcome.toInt, reduceCtorEq, iff_false]
    omega

@[simp] theorem Outcome.toInt_neg {o : Outcome} : o.toInt < 0 ↔ o ≠ none := by
  cases o with
  | none => simp [Outcome.toInt]
  | some e =>
    have hpos : 0 < e.no := e.pos
    simp only [Outcome.toInt, ne_eq, reduceCtorEq, not_false_iff, iff_true]
    omega

inductive Pointer
  | null
  | err (e : ErrNo)
  | object
  deriving DecidableEq, Repr

namespace Pointer

/-- What a call returns that reports its failure by an error pointer. -/
def ofOutcome : Outcome → Pointer
  | none => object
  | some e => err e

/-- `IS_ERR` -/
def isErr : Pointer → Bool
  | err _ => true
  | _ => false

/-- `PTR_ERR`, as far as it is asked for: 0 where the pointer is no error. -/
def ptrErr : Pointer → Int
  | err e => -(e.no : Int)
  | _ => 0

@[simp] theorem isErr_ofOutcome (o : Outcome) : (ofOutcome o).isErr = o.isSome := by
  cases o <;> rfl

@[simp] theorem ptrErr_ofOutcome (o : Outcome) : (ofOutcome o).ptrErr = o.toInt := by
  cases o <;> rfl

@[simp] theorem ofOutcome_ne_null (o : Outcome) : ofOutcome o ≠ null := by
  cases o <;> simp [ofOutcome]

@[simp] theorem ofOutcome_eq_object {o : Outcome} : ofOutcome o = object ↔ o = none := by
  cases o <;> simp [ofOutcome]

end Pointer

end Linux
end AtomDrivers
