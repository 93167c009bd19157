import TuffSafety.Location

/-!
# The syntax tree

Nodes that a diagnostic can blame carry an optional location; integer literals
are signed 64-bit numbers.
-/
namespace TuffSafety

inductive BinaryOp where
  | add | sub | mul | div | mod
  | eq | ne | lt | le | gt | ge
  | and | or
deriving DecidableEq, Repr

namespace BinaryOp

def all : List BinaryOp :=
  [add, sub, mul, div, mod, eq, ne, lt, le, gt, ge, and, or]

def symbol : BinaryOp → String
  | add => "+"
  | sub => "-"
  | mul => "*"
  | div => "/"
  | mod => "%"
  | eq => "=="
  | ne => "!="
  | lt => "<"
  | le => "<="
  | gt => ">"
  | ge => ">="
  | and => "&&"
  | or => "||"

def ofSymbol? (text : String) : Option BinaryOp :=
  all.find? fun op => op.symbol == text

def isArithmetic : BinaryOp → Bool
  | add | sub | mul | div | mod => true
  | _ => false

def isComparison : BinaryOp → Bool
  | eq | ne | lt | le | gt | ge => true
  | _ => false

def isLogical : BinaryOp → Bool
  | and | or => true
  | _ => false

/-- The comparison that holds exactly when this one does not. -/
def negated? : BinaryOp → Option BinaryOp
  | lt => some ge
  | ge => some lt
  | le => some gt
  | gt => some le
  | eq => some ne
  | ne => some eq
  | _ => none

end BinaryOp

inductive UnaryOp where
  | not | neg | ref | refMut
deriving DecidableEq, Repr

namespace UnaryOp

def all : List UnaryOp :=
  [not, neg, ref, refMut]

def symbol : UnaryOp → String
  | not => "!"
  | neg => "-"
  | ref => "&"
  | refMut => "&mut"

def ofSymbol? (text : String) : Option UnaryOp :=
  all.find? fun op => op.symbol == text

end UnaryOp

/-- The value that a literal pattern compares with. -/
inductive LiteralValue where
  | bool (value : Bool)
  | int (value : Int64)
  | str (value : String)
deriving DecidableEq

/-- A field of a struct pattern and the name it is bound to. -/
structure PatternField where
  field : String
  bind : String
deriving DecidableEq, Repr

inductive Pattern where
  | wildcard
  | literal (value : LiteralValue)
  | name (name : String)
  | struct (name : String) (fields : List PatternField)
deriving DecidableEq

namespace Pattern

/-- The type name that a name or struct pattern covers. -/
def covers? : Pattern → Option String
  | name n => some n
  | struct n _ => some n
  | _ => none

def isWildcard : Pattern → Bool
  | wildcard => true
  | _ => false

end Pattern

structure EnumDecl where
  name : String
  variants : List String
  exported : Bool
  loc : Option Loc
deriving DecidableEq, Repr

mutual

inductive Expr where
  | number (value : Int64) (suffix : Option String) (loc : Option Loc)
  | float (value : Float) (loc : Option Loc)
  | bool (value : Bool) (loc : Option Loc)
  | string (value : String) (loc : Option Loc)
  | char (value : String) (loc : Option Loc)
  | ident (name : String) (loc : Option Loc)
  | binary (op : BinaryOp) (left right : Expr) (loc : Option Loc)
  | unary (op : UnaryOp) (operand : Expr) (loc : Option Loc)
  | call (callee : Expr) (args : List Expr) (loc : Option Loc)
  | member (object : Expr) (property : String) (loc : Option Loc)
  | index (target position : Expr) (loc : Option Loc)
  | structInit (name : String) (fields : List FieldInit) (loc : Option Loc)
  | ite (condition thenBranch : Expr) (elseBranch : Option Expr) (loc : Option Loc)
  | matchOn (target : Expr) (cases : List MatchCase) (loc : Option Loc)
  | isPattern (operand : Expr) (pattern : Pattern) (loc : Option Loc)
  | unwrap (operand : Expr) (loc : Option Loc)
  | block (body : Block)

structure FieldInit where
  key : String
  value : Expr

structure MatchCase where
  pattern : Pattern
  body : Expr

structure Block where
  statements : List Stmt
  loc : Option Loc

inductive Stmt where
  | fnDecl (decl : FnDecl)
  /-- A function without a body, defined elsewhere. -/
  | foreignFn (decl : FnDecl)
  | structDecl (decl : StructDecl)
  | enumDecl (decl : EnumDecl)
  | typeAlias (name : String) (generics : List String) (target : TypeExpr) (exported : Bool)
      (loc : Option Loc)
  /-- A type known by name only. -/
  | foreignType (name : String) (generics : List String) (loc : Option Loc)
  | letDecl (name : String) (type : Option TypeExpr) (value : Expr) (loc : Option Loc)
  | foreignLet (name : String) (type : TypeExpr) (loc : Option Loc)
  | block (body : Block)
  | expr (expr : Expr) (loc : Option Loc)
  | assign (target value : Expr) (loc : Option Loc)
  | ret (value : Option Expr) (loc : Option Loc)
  | ite (condition thenBranch : Expr) (elseBranch : Option Expr) (loc : Option Loc)
  | whileLoop (condition : Expr) (body : Block) (loc : Option Loc)
  | forLoop (iterator : String) (first last : Expr) (body : Block) (loc : Option Loc)
  | breakLoop (loc : Option Loc)
  | continueLoop (loc : Option Loc)

structure FnDecl where
  name : String
  generics : List String
  params : List Param
  returnType : Option TypeExpr
  body : Option Expr
  exported : Bool
  loc : Option Loc

structure Param where
  name : String
  type : Option TypeExpr

structure StructDecl where
  name : String
  generics : List String
  fields : List FieldDecl
  exported : Bool
  loc : Option Loc

structure FieldDecl where
  name : String
  type : TypeExpr

inductive TypeExpr where
  | named (name : String) (args : List TypeExpr)
  /-- `base op value`, such as `USize < 3`. -/
  | refined (base : TypeExpr) (op : BinaryOp) (value : Expr)
  | union (left right : TypeExpr)
  /-- `[element; init; total]`: `init` initialised slots out of `total`. -/
  | array (element : TypeExpr) (init total : Option Expr)
  | pointer (mutable : Bool) (target : TypeExpr)
  | tuple (members : List TypeExpr)

end

/-- A compilation unit. -/
structure Program where
  body : List Stmt

namespace StructDecl

/-- The first field of that name. -/
def field? (decl : StructDecl) (name : String) : Option FieldDecl :=
  decl.fields.find? fun f => f.name == name

end StructDecl

namespace TypeExpr

/-- The name a type is shown by, refinements left out. -/
def displayName : TypeExpr → String
  | named name _ => name
  | refined base _ _ => base.displayName
  | union left right => left.displayName ++ "|" ++ right.displayName
  | array .. => "Array"
  | pointer true target => "*mut " ++ target.displayName
  | pointer false target => "*" ++ target.displayName
  | tuple _ => "Tuple"

end TypeExpr

namespace Expr

/-- The node's own location, or the one of the operand that stands first in the text. -/
def loc? : Expr → Option Loc
  | number _ _ loc => loc
  | float _ loc => loc
  | bool _ loc => loc
  | string _ loc => loc
  | char _ loc => loc
  | ident _ loc => loc
  | binary _ left _ loc => loc <|> left.loc?
  | unary _ _ loc => loc
  | call callee _ loc => loc <|> callee.loc?
  | member object _ loc => loc <|> object.loc?
  | index target _ loc => loc <|> target.loc?
  | structInit _ _ loc => loc
  | ite _ _ _ loc => loc
  | matchOn _ _ loc => loc
  | isPattern operand _ loc => loc <|> operand.loc?
  | unwrap operand loc => loc <|> operand.loc?
  | block body => body.loc

/-- The value of an integer literal, also under a minus sign; the least 64-bit number has no
negation. -/
def intLiteral? : Expr → Option Int
  | number value _ _ => some value.toInt
  | unary .neg (number value _ _) _ => if value = Int64.minValue then none else some (-value.toInt)
  | _ => none

/-- The literal that compares a pointer with null. -/
def isNullLiteral : Expr → Bool
  | number value suffix _ => value = 0 && suffix = some "USize"
  | _ => false

def isBlock : Expr → Bool
  | block _ => true
  | _ => false

def isMatch : Expr → Bool
  | matchOn .. => true
  | _ => false

end Expr

namespace Stmt

def loc? : Stmt → Option Loc
  | fnDecl decl => decl.loc
  | foreignFn decl => decl.loc
  | structDecl decl => decl.loc
  | enumDecl decl => decl.loc
  | typeAlias _ _ _ _ loc => loc
  | foreignType _ _ loc => loc
  | letDecl _ _ _ loc => loc
  | foreignLet _ _ loc => loc
  | block body => body.loc
  | expr e loc => loc <|> e.loc?
  | assign target _ loc => loc <|> target.loc?
  | ret _ loc => loc
  | ite _ _ _ loc => loc
  | whileLoop _ _ loc => loc
  | forLoop _ _ _ _ loc => loc
  | breakLoop loc => loc
  | continueLoop loc => loc

end Stmt

end TuffSafety
