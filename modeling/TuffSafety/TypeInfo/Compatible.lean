import TuffSafety.Text.Split
import TuffSafety.TypeInfo

/-!
# Compatibility of types by name
-/
namespace TuffSafety.TypeInfo

/-- The text behind a start that it has to have. -/
def dropStart? : List Char → List Char → Option (List Char)
  | [], text => some text
  | c :: start, d :: text => if c = d then dropStart? start text else none
  | _ :: _, [] => none

/-- Whether a name is one of those that bars separate in another. -/
def isUnionMember (union name : String) : Bool :=
  union.toList.contains '|' &&
    ((Text.splitOn '|' union.toList).map Text.trim).contains name.toList

/-- Whether a mutable pointer stands where a pointer to the same target is wanted. -/
def isMutablePointerTo (expected actual : String) : Bool :=
  match dropStart? "*".toList expected.toList, dropStart? "*mut ".toList actual.toList with
  | some target, some target' =>
    (dropStart? "*mut ".toList expected.toList).isNone && target == target'
  | _, _ => false

/-- Equal names, a member of an expected union, or a mutable pointer where a pointer is wanted. -/
def namedCompatible (expected actual : String) : Bool :=
  expected == actual || isUnionMember expected actual || isMutablePointerTo expected actual

/-- Any numeric type may stand for another; an unsigned one takes only values that are known not to
be negative. -/
def numericCompatible (expected : String) (actual : TypeInfo) : Bool :=
  expected == actual.name ||
    (TypeName.isNumeric expected && actual.isNumeric &&
      (!TypeName.isUnsigned expected || actual.min.any (0 ≤ ·)))

end TuffSafety.TypeInfo
