import TuffSafety.TypeInfo

/-!
# Patches

A patch is partial knowledge about a value, learned from a guard or written as a refinement. Newer
patches override older ones field by field; narrowing a type by a patch keeps the tighter bounds.
-/
namespace TuffSafety

structure Patch where
  min : Option Int := none
  max : Option Int := none
  nonZero : Option Bool := none
  /-- Whether the value is a pointer that is not null. -/
  nonNull : Bool := false
deriving DecidableEq, Repr

namespace Patch

def empty : Patch := {}

def atLeast (n : Int) : Patch :=
  { min := some n }

def atMost (n : Int) : Patch :=
  { max := some n }

def exactly (n : Int) : Patch :=
  { min := some n, max := some n, nonZero := some (n != 0) }

def notZero : Patch :=
  { nonZero := some true }

def notNull : Patch :=
  { nonNull := true }

/-- What a type says about its values. -/
def ofInfo (t : TypeInfo) : Patch :=
  { min := t.min, max := t.max, nonZero := if t.nonZero then some true else none }

/-- What a comparison of a value with a number says about the value, if a patch can hold it. -/
def ofComparison? (op : BinaryOp) (n : Int) : Option Patch :=
  match op with
  | .lt => some (atMost (n - 1))
  | .le => some (atMost n)
  | .gt => some (atLeast (n + 1))
  | .ge => some (atLeast n)
  | .eq => some (exactly n)
  | .ne => if n = 0 then some notZero else none
  | _ => none

/-- The fields of the newer patch where it has them, of the older one elsewhere. -/
def overlay (older newer : Patch) : Patch where
  min := newer.min <|> older.min
  max := newer.max <|> older.max
  nonZero := newer.nonZero <|> older.nonZero
  nonNull := older.nonNull || newer.nonNull

end Patch

namespace TypeInfo

/-- A nullable pointer that is known not to be null is the pointer itself. -/
def withoutNull (t : TypeInfo) : TypeInfo :=
  match t.nullablePointer with
  | some pointer => { t with name := pointer, unionTags := [], nonZero := true, nullablePointer := none }
  | none => t

/-- The tighter of two lower bounds. -/
def tightenMin (known learned : Option Int) : Option Int :=
  match known, learned with
  | some a, some b => some (Max.max a b)
  | known, none => known
  | none, learned => learned

/-- The tighter of two upper bounds. -/
def tightenMax (known learned : Option Int) : Option Int :=
  match known, learned with
  | some a, some b => some (Min.min a b)
  | known, none => known
  | none, learned => learned

/-- The type narrowed by a patch; contradictory bounds are dropped. -/
def narrow (t : TypeInfo) (p : Patch) : TypeInfo :=
  let t := if p.nonNull then t.withoutNull else t
  normalize
    { t with
      min := tightenMin t.min p.min
      max := tightenMax t.max p.max
      nonZero := t.nonZero || p.nonZero == some true }

end TypeInfo

end TuffSafety
