import TuffSafety.Ast
import TuffSafety.OrderedMap

/-!
# Assigned names

The names that statements and expressions assign to. Nested functions have names of their own and
are left out.
-/
namespace TuffSafety

namespace Assigned

def target : Expr → List String
  | .ident name _ => [name]
  | _ => []

mutual

/-- The targets of the assignments inside an expression, in order and with repetitions. -/
def expr : Expr → List String
  | .block ⟨statements, _⟩ => stmts statements
  | .ite condition thenBranch elseBranch _ =>
    expr condition ++ expr thenBranch ++ expr? elseBranch
  | .matchOn value cases _ => expr value ++ matchCases cases
  | .binary _ left right _ => expr left ++ expr right
  | .unary _ operand _ => expr operand
  | .call callee args _ => expr callee ++ exprs args
  | .member object _ _ => expr object
  | .index value position _ => expr value ++ expr position
  | .structInit _ fields _ => fieldInits fields
  | .isPattern operand _ _ => expr operand
  | .unwrap operand _ => expr operand
  | .number .. => []
  | .float .. => []
  | .bool .. => []
  | .string .. => []
  | .char .. => []
  | .ident .. => []

def expr? : Option Expr → List String
  | some e => expr e
  | none => []

def exprs : List Expr → List String
  | [] => []
  | e :: es => expr e ++ exprs es

def fieldInits : List FieldInit → List String
  | [] => []
  | ⟨_, value⟩ :: fs => expr value ++ fieldInits fs

def matchCases : List MatchCase → List String
  | [] => []
  | ⟨_, body⟩ :: cs => expr body ++ matchCases cs

def stmts : List Stmt → List String
  | [] => []
  | s :: ss => stmt s ++ stmts ss

def stmt : Stmt → List String
  | .assign left value _ => target left ++ expr value
  | .block ⟨statements, _⟩ => stmts statements
  | .expr e _ => expr e
  | .letDecl _ _ value _ => expr value
  | .ret value _ => expr? value
  | .ite condition thenBranch elseBranch _ =>
    expr condition ++ expr thenBranch ++ expr? elseBranch
  | .whileLoop condition ⟨statements, _⟩ _ => expr condition ++ stmts statements
  | .forLoop _ _ _ ⟨statements, _⟩ _ => stmts statements
  | .fnDecl _ => []
  | .foreignFn _ => []
  | .structDecl _ => []
  | .enumDecl _ => []
  | .typeAlias .. => []
  | .foreignType .. => []
  | .foreignLet .. => []
  | .breakLoop _ => []
  | .continueLoop _ => []

end

end Assigned

/-- Names without repetitions, in the order of their first occurrence. -/
def distinctNames (names : List String) : List String :=
  names.foldl (fun seen name => addNew name seen) []

/-- The names that an expression assigns to. -/
def Expr.assigned (e : Expr) : List String :=
  distinctNames (Assigned.expr e)

/-- The names that a block assigns to. -/
def Block.assigned (b : Block) : List String :=
  distinctNames (Assigned.stmts b.statements)

end TuffSafety
