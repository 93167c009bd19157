import TuffSafety.Ast

/-!
# Faults of a program

Why a program is rejected. A fault names what is wrong and the types involved, never a place.
-/
namespace TuffSafety

/-- Where a value flows to. -/
inductive Slot where
  | initializer (name : String)
  | assignment (name : String)
  | returned
  | body (function : String)
  | argument (param function : String)
  | field (field struct : String)
deriving DecidableEq, Repr

/-- The construct whose condition is tested. -/
inductive Guard where
  | ifBranch
  | whileLoop
deriving DecidableEq, Repr

inductive CheckFault where
  | mismatch (slot : Slot) (expected actual : String)
  | logicalOperand (op : BinaryOp) (actual : String)
  | arithmeticOperand (op : BinaryOp) (actual : String)
  | notOperand (actual : String)
  | negOperand (actual : String)
  | conditionNotBool (guard : Guard) (actual : String)
  | rangeBound (actual : String)
  | returnFromVoid (actual : String)
  | unknownStruct (name : String)
  | unknownField (struct field : String)
  | arity (function : String) (expected actual : Nat)
  | mayBeZero (slot : Slot)
  | divisorMayBeZero
  | moduloMayBeZero
  | overflow (op : BinaryOp) (low high : Int)
  | overflowUnproven (op : BinaryOp)
  | indexOutOfBounds (low high length : Int)
  | indexUnproven
  | nullArgument (param function : String)
  | nullMember (property : String)
  | nullIndex
  | nonExhaustive (missing : List String)
deriving DecidableEq, Repr

end TuffSafety
