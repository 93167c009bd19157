import TuffSafety.Facts

/-!
# Declarations of a program

The top-level declarations by name, and the meaning of type expressions under them. Aliases are
followed until one is met again.
-/
namespace TuffSafety

structure FnSignature where
  decl : FnDecl
  /-- A foreign function has no body, and its arguments are not checked. -/
  foreign : Bool

/-- What a type name is declared to stand for. -/
inductive Alias where
  | target (type : TypeExpr)
  /-- A foreign type is known by name only. -/
  | opaqueType

structure Global where
  name : String
  type : TypeExpr

structure Declarations where
  structs : OrderedMap StructDecl := .empty
  enums : OrderedMap EnumDecl := .empty
  functions : OrderedMap FnSignature := .empty
  aliases : OrderedMap Alias := .empty
  /-- The annotated top-level variables, in order. -/
  globals : List Global := []

namespace Declarations

/-- Takes up a top-level statement; a later declaration of a name replaces an earlier one. -/
def add (d : Declarations) : Stmt → Declarations
  | .structDecl decl => { d with structs := d.structs.insert decl.name decl }
  | .enumDecl decl => { d with enums := d.enums.insert decl.name decl }
  | .fnDecl decl => { d with functions := d.functions.insert decl.name ⟨decl, false⟩ }
  | .foreignFn decl => { d with functions := d.functions.insert decl.name ⟨decl, true⟩ }
  | .typeAlias name _ target _ _ => { d with aliases := d.aliases.insert name (.target target) }
  | .foreignType name _ _ => { d with aliases := d.aliases.insert name .opaqueType }
  | .letDecl name (some type) _ _ => { d with globals := d.globals ++ [⟨name, type⟩] }
  | .foreignLet name type _ => { d with globals := d.globals ++ [⟨name, type⟩] }
  | _ => d

def ofStatements (body : List Stmt) : Declarations :=
  body.foldl add {}

def ofProgram (program : Program) : Declarations :=
  ofStatements program.body

def isAlias (d : Declarations) (name : String) : Bool :=
  d.aliases.contains name

end Declarations

namespace TypeInfo

/-- The names that a side of a union adds to its members. -/
def members (t : TypeInfo) : List String :=
  if t.unionTags.isEmpty then [t.name] else t.unionTags

/-- Adds the members that are known and not there yet. -/
def addMembers (tags : List String) (t : TypeInfo) : List String :=
  (t.members.filter (· != TypeName.unknown)).foldl (fun tags name => addNew name tags) tags

end TypeInfo

namespace TypeExpr

def isPointer : TypeExpr → Bool
  | pointer .. => true
  | _ => false

/-- The type `USize == 0USize`, whose only value is null. -/
def isNull : TypeExpr → Bool
  | refined (named name _) op value => op = .eq && name = "USize" && value.isNullLiteral
  | _ => false

/-- The name of the pointer side of a union of a pointer with null. -/
def nullablePointer? (left right : TypeExpr) (leftInfo rightInfo : TypeInfo) : Option String :=
  if left.isPointer && right.isNull then some leftInfo.name
  else if right.isPointer && left.isNull then some rightInfo.name
  else none

def literal? : Option Expr → Option Int
  | some e => e.intLiteral?
  | none => none

/-- What a type expression means when names mean what `meaning` says. -/
def resolve (meaning : String → TypeInfo) : TypeExpr → TypeInfo
  | named name _ => meaning name
  | refined base op value =>
    let info := base.resolve meaning
    match value.intLiteral?.bind (Patch.ofComparison? op) with
    | some patch => info.narrow patch
    | none => info
  | union left right =>
    let leftInfo := left.resolve meaning
    let rightInfo := right.resolve meaning
    { name := leftInfo.name ++ "|" ++ rightInfo.name
      unionTags := TypeInfo.addMembers (TypeInfo.addMembers [] leftInfo) rightInfo
      nullablePointer := nullablePointer? left right leftInfo rightInfo }
  | array _ init total =>
    { TypeInfo.bare "Array" with arrayInit := literal? init, arrayTotal := literal? total }
  | pointer mutable target =>
    let info := target.resolve meaning
    { info with name := (if mutable then "*mut " else "*") ++ info.name }
  | tuple _ => .unknown

end TypeExpr

namespace Declarations

/-- An alias of a union keeps its own name, so that it can be referred to; any other alias means
what its target means, unless that is unknown. -/
def aliasMeaning (name : String) (target : TypeInfo) : TypeInfo :=
  if !target.unionTags.isEmpty then
    { TypeInfo.named name with
      unionTags := target.unionTags, nullablePointer := target.nullablePointer }
  else if target.isUnknown then .named name
  else target

/-- What a name means after the aliases in `visited` have been followed; at most `depth` more are. -/
def meaning (d : Declarations) : Nat → List String → String → TypeInfo
  | 0, _, name => .named name
  | depth + 1, visited, name =>
    match d.aliases.get? name with
    | some (.target target) =>
      if name ∈ visited then .named name
      else aliasMeaning name (target.resolve (d.meaning depth (name :: visited)))
    | _ => .named name

/-- What a type name means. -/
def resolveName (d : Declarations) (name : String) : TypeInfo :=
  d.meaning (d.aliases.size + 1) [] name

/-- What a type expression means. -/
def resolve (d : Declarations) (type : TypeExpr) : TypeInfo :=
  type.resolve d.resolveName

/-- What an annotation means; without one nothing is known. -/
def resolve? (d : Declarations) : Option TypeExpr → TypeInfo
  | some type => d.resolve type
  | none => .unknown

end Declarations

end TuffSafety
