import TuffSafety.Bound

/-!
# What is known about a value

A `TypeInfo` is a type name with what has been proven about the value: integer bounds, whether it
can be zero, array lengths, the members of a union and the pointer behind a nullable pointer.
-/
namespace TuffSafety

namespace TypeName

def unknown : String := "Unknown"

def void : String := "Void"

def bool : String := "Bool"

def numeric : List String :=
  ["I8", "I16", "I32", "I64", "I128", "U8", "U16", "U32", "U64", "U128", "USize", "ISize", "F32",
    "F64"]

def unsigned : List String :=
  ["U8", "U16", "U32", "U64", "U128", "USize"]

def isNumeric (name : String) : Bool :=
  numeric.contains name

def isUnsigned (name : String) : Bool :=
  unsigned.contains name

/-- A single capital letter stands for a generic parameter. -/
def isVariable (name : String) : Bool :=
  match name.toList with
  | [c] => c.isUpper
  | _ => false

/-- The bounds that a type name alone implies. -/
def range (name : String) : Option Int × Option Int :=
  if name = "I32" then (some Bound.int32.1, some Bound.int32.2)
  else if isUnsigned name then (some 0, none)
  else (none, none)

end TypeName

structure TypeInfo where
  name : String
  min : Option Int := none
  max : Option Int := none
  nonZero : Bool := false
  /-- The number of initialised slots of an array. -/
  arrayInit : Option Int := none
  /-- The capacity of an array. -/
  arrayTotal : Option Int := none
  /-- The names of the members of a union. -/
  unionTags : List String := []
  /-- The pointer type that the value has once it is known not to be null. -/
  nullablePointer : Option String := none
deriving DecidableEq, Repr

namespace TypeInfo

/-- A name without any bounds. -/
def bare (name : String) : TypeInfo :=
  { name }

/-- A name with the bounds it implies. -/
def named (name : String) : TypeInfo :=
  { name, min := (TypeName.range name).1, max := (TypeName.range name).2 }

def unknown : TypeInfo :=
  bare TypeName.unknown

def void : TypeInfo :=
  bare TypeName.void

def bool : TypeInfo :=
  bare TypeName.bool

/-- The single value `n`. -/
def literal (name : String) (n : Int) : TypeInfo :=
  { name, min := some n, max := some n, nonZero := n != 0 }

def isUnknown (t : TypeInfo) : Bool :=
  t.name == TypeName.unknown

def isVoid (t : TypeInfo) : Bool :=
  t.name == TypeName.void

def isBool (t : TypeInfo) : Bool :=
  t.name == TypeName.bool

def isNumeric (t : TypeInfo) : Bool :=
  TypeName.isNumeric t.name

theorem isUnknown_of_isNumeric {t : TypeInfo} (h : t.isNumeric = true) : t.isUnknown = false := by
  refine beq_false_of_ne fun hname => ?_
  rw [isNumeric, hname] at h
  exact absurd h (by decide)

def isNullable (t : TypeInfo) : Bool :=
  t.nullablePointer.isSome

/-- Both bounds, when they are known. -/
def interval (t : TypeInfo) : Option Interval :=
  match t.min, t.max with
  | some a, some b => some (a, b)
  | _, _ => none

/-- Drops both bounds when they contradict each other, and notes that the value is not zero when
both are known and leave zero out. -/
def normalize (t : TypeInfo) : TypeInfo :=
  match t.interval with
  | some (a, b) =>
    if a > b then { t with min := none, max := none }
    else if a > 0 ∨ b < 0 then { t with nonZero := true }
    else t
  | none => t

def withBounds (t : TypeInfo) (min max : Option Int) : TypeInfo :=
  normalize { t with min, max }

/-- What holds of both: the hull of the bounds. Different names have nothing in common. -/
def join (a b : TypeInfo) : TypeInfo :=
  if a.name = b.name then
    { name := a.name
      min := Bound.lesser a.min b.min
      max := Bound.greater a.max b.max
      nonZero := a.nonZero && b.nonZero
      arrayInit := Bound.lesser a.arrayInit b.arrayInit
      arrayTotal := Bound.lesser a.arrayTotal b.arrayTotal
      unionTags := a.unionTags
      nullablePointer := a.nullablePointer <|> b.nullablePointer }
  else unknown

/-- The same type with the bounds that its name implies and no others. -/
def widened (t : TypeInfo) : TypeInfo :=
  { t with min := (TypeName.range t.name).1, max := (TypeName.range t.name).2, nonZero := false }

def text (t : TypeInfo) : String :=
  t.name

def boundText : Option Int → String
  | some n => toString n
  | none => "?"

/-- The name with its bounds, when one is known. -/
def boundedText (t : TypeInfo) : String :=
  if t.min.isSome || t.max.isSome then
    t.name ++ "[" ++ boundText t.min ++ ", " ++ boundText t.max ++ "]"
  else t.name

end TypeInfo

end TuffSafety
