import TuffSafety.OrderedMap
import TuffSafety.TypeInfo.Patch

/-!
# Flow facts

Facts hold a patch for each name that a guard has told something about. Only comparisons of a name
with an integer literal tell something; `&&` does when it holds and `||` when it does not.
-/
namespace TuffSafety

abbrev Facts : Type := OrderedMap Patch

namespace Facts

def empty : Facts := OrderedMap.empty

/-- Lays a patch over what is known about a name. -/
def add (facts : Facts) (name : String) (patch : Patch) : Facts :=
  facts.alter name fun known => (known.getD Patch.empty).overlay patch

def addAll (facts : Facts) (patches : List (String × Patch)) : Facts :=
  patches.foldl (fun facts e => facts.add e.1 e.2) facts

/-- Drops what is known about a name. -/
def forget (facts : Facts) (name : String) : Facts :=
  facts.erase name

def forgetAll (facts : Facts) (names : List String) : Facts :=
  names.foldl forget facts

/-- The facts with newer ones laid over them. -/
def merge (facts newer : Facts) : Facts :=
  facts.addAll newer.entries

/-- The patches of a comparison that holds, in the order in which they are learned. A name compared
with the null literal is a pointer that is not null. -/
def ofComparison (left : Expr) (op : BinaryOp) (right : Expr) : List (String × Patch) :=
  match left, right with
  | .ident name _, value =>
    match value.intLiteral?.bind (Patch.ofComparison? op) with
    | some patch =>
      if op = .ne ∧ value.isNullLiteral then [(name, patch), (name, .notNull)] else [(name, patch)]
    | none => []
  | value, .ident name _ => if op = .ne ∧ value.isNullLiteral then [(name, .notNull)] else []
  | _, _ => []

/-- The patches that follow from the outcome of a condition. -/
def learned : Expr → Bool → List (String × Patch)
  | .binary .and left right _, truth =>
    if truth then learned left true ++ learned right true else []
  | .binary .or left right _, truth =>
    if truth then [] else learned left false ++ learned right false
  | .binary op left right _, true => ofComparison left op right
  | .binary op left right _, false =>
    match op.negated? with
    | some op => ofComparison left op right
    | none => []
  | _, _ => []

/-- The facts that follow from the outcome of a condition. -/
def derive (condition : Expr) (truth : Bool) : Facts :=
  empty.addAll (learned condition truth)

end Facts

end TuffSafety
