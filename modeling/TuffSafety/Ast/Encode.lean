import TuffSafety.Ast
import TuffSafety.Json.Value

/-!
# The syntax tree as JSON

A node is an object whose first member `kind` names the form of the node. Lists and flags are always
written; absent optional fields are left out.
-/
namespace TuffSafety

open Json (optional strings)

def Loc.encode (loc : Loc) : Json :=
  .object (optional "filePath" (loc.filePath.map .string) ++
    [⟨"line", .int loc.line.toNat⟩, ⟨"column", .int loc.column.toNat⟩])

namespace Encode

def node (kind : String) (fields : List JsonMember) : Json :=
  .object (⟨"kind", .string kind⟩ :: fields)

def loc (loc : Option Loc) : List JsonMember :=
  optional "loc" (loc.map Loc.encode)

def literalValue : LiteralValue → Json
  | .bool value => .bool value
  | .int value => .int value.toInt
  | .str value => .string value

def patternField (f : PatternField) : Json :=
  .object [⟨"field", .string f.field⟩, ⟨"bind", .string f.bind⟩]

def pattern : Pattern → Json
  | .wildcard => node "WildcardPattern" []
  | .literal value => node "LiteralPattern" [⟨"value", literalValue value⟩]
  | .name name => node "NamePattern" [⟨"name", .string name⟩]
  | .struct name fields =>
    node "StructPattern" [⟨"name", .string name⟩, ⟨"fields", .array (fields.map patternField)⟩]

def enumDecl (decl : EnumDecl) : List JsonMember :=
  [⟨"name", .string decl.name⟩, ⟨"variants", strings decl.variants⟩, ⟨"exported", .bool decl.exported⟩]
    ++ loc decl.loc

mutual

def expr : Expr → Json
  | .number value suffix place =>
    node "NumberLiteral" (⟨"value", .int value.toInt⟩ :: optional "numberType" (suffix.map .string)
      ++ loc place)
  | .float value place => node "FloatLiteral" (⟨"value", .float value⟩ :: loc place)
  | .bool value place => node "BoolLiteral" (⟨"value", .bool value⟩ :: loc place)
  | .string value place => node "StringLiteral" (⟨"value", .string value⟩ :: loc place)
  | .char value place => node "CharLiteral" (⟨"value", .string value⟩ :: loc place)
  | .ident name place => node "Identifier" (⟨"name", .string name⟩ :: loc place)
  | .binary op left right place =>
    node "BinaryExpr" (⟨"op", .string op.symbol⟩ :: ⟨"left", expr left⟩ :: ⟨"right", expr right⟩
      :: loc place)
  | .unary op operand place =>
    node "UnaryExpr" (⟨"op", .string op.symbol⟩ :: ⟨"expr", expr operand⟩ :: loc place)
  | .call callee args place =>
    node "CallExpr" (⟨"callee", expr callee⟩ :: ⟨"args", .array (exprs args)⟩ :: loc place)
  | .member object property place =>
    node "MemberExpr" (⟨"object", expr object⟩ :: ⟨"property", .string property⟩ :: loc place)
  | .index target position place =>
    node "IndexExpr" (⟨"target", expr target⟩ :: ⟨"index", expr position⟩ :: loc place)
  | .structInit name fields place =>
    node "StructInit" (⟨"name", .string name⟩ :: ⟨"fields", .array (fieldInits fields)⟩ :: loc place)
  | .ite condition thenBranch elseBranch place =>
    node "IfExpr" (⟨"condition", expr condition⟩ :: ⟨"thenBranch", expr thenBranch⟩
      :: optional "elseBranch" (expr? elseBranch) ++ loc place)
  | .matchOn target cases place =>
    node "MatchExpr" (⟨"target", expr target⟩ :: ⟨"cases", .array (matchCases cases)⟩ :: loc place)
  | .isPattern operand tested place =>
    node "IsExpr" (⟨"expr", expr operand⟩ :: ⟨"pattern", pattern tested⟩ :: loc place)
  | .unwrap operand place => node "UnwrapExpr" (⟨"expr", expr operand⟩ :: loc place)
  | .block body => node "Block" (block body)

def expr? : Option Expr → Option Json
  | some e => some (expr e)
  | none => none

def exprs : List Expr → List Json
  | [] => []
  | e :: es => expr e :: exprs es

def fieldInits : List FieldInit → List Json
  | [] => []
  | ⟨key, value⟩ :: fs => .object [⟨"key", .string key⟩, ⟨"value", expr value⟩] :: fieldInits fs

def matchCases : List MatchCase → List Json
  | [] => []
  | ⟨tested, body⟩ :: cs =>
    .object [⟨"pattern", pattern tested⟩, ⟨"body", expr body⟩] :: matchCases cs

/-- The fields of a block. The body of a loop is written without a kind. -/
def block : Block → List JsonMember
  | ⟨statements, place⟩ => ⟨"statements", .array (stmts statements)⟩ :: loc place

def stmts : List Stmt → List Json
  | [] => []
  | s :: ss => stmt s :: stmts ss

def stmt : Stmt → Json
  | .fnDecl decl => node "FnDecl" (fnDecl decl)
  | .foreignFn decl => node "ExternFnDecl" (fnDecl decl)
  | .structDecl decl => node "StructDecl" (structDecl decl)
  | .enumDecl decl => node "EnumDecl" (enumDecl decl)
  | .typeAlias name generics target exported place =>
    node "TypeAlias" (⟨"name", .string name⟩ :: ⟨"generics", strings generics⟩
      :: ⟨"aliasedType", typeExpr target⟩ :: ⟨"exported", .bool exported⟩ :: loc place)
  | .foreignType name generics place =>
    node "ExternTypeDecl" (⟨"name", .string name⟩ :: ⟨"generics", strings generics⟩ :: loc place)
  | .letDecl name type value place =>
    node "LetDecl" (⟨"name", .string name⟩ :: optional "type" (typeExpr? type)
      ++ ⟨"value", expr value⟩ :: loc place)
  | .foreignLet name type place =>
    node "ExternLetDecl" (⟨"name", .string name⟩ :: ⟨"type", typeExpr type⟩ :: loc place)
  | .block body => node "Block" (block body)
  | .expr e place => node "ExprStmt" (⟨"expr", expr e⟩ :: loc place)
  | .assign target value place =>
    node "AssignStmt" (⟨"target", expr target⟩ :: ⟨"value", expr value⟩ :: loc place)
  | .ret value place => node "ReturnStmt" (optional "value" (expr? value) ++ loc place)
  | .ite condition thenBranch elseBranch place =>
    node "IfStmt" (⟨"condition", expr condition⟩ :: ⟨"thenBranch", expr thenBranch⟩
      :: optional "elseBranch" (expr? elseBranch) ++ loc place)
  | .whileLoop condition body place =>
    node "WhileStmt" (⟨"condition", expr condition⟩ :: ⟨"body", .object (block body)⟩ :: loc place)
  | .forLoop iterator first last body place =>
    node "ForStmt" (⟨"iterator", .string iterator⟩ :: ⟨"start", expr first⟩ :: ⟨"end", expr last⟩
      :: ⟨"body", .object (block body)⟩ :: loc place)
  | .breakLoop place => node "BreakStmt" (loc place)
  | .continueLoop place => node "ContinueStmt" (loc place)

def fnDecl : FnDecl → List JsonMember
  | ⟨name, generics, parameters, returnType, body, exported, place⟩ =>
    ⟨"name", .string name⟩ :: ⟨"generics", strings generics⟩
      :: ⟨"params", .array (params parameters)⟩
      :: optional "returnType" (typeExpr? returnType) ++ optional "body" (expr? body)
      ++ ⟨"exported", .bool exported⟩ :: loc place

def params : List Param → List Json
  | [] => []
  | ⟨name, type⟩ :: ps =>
    .object (⟨"name", .string name⟩ :: optional "type" (typeExpr? type)) :: params ps

def structDecl : StructDecl → List JsonMember
  | ⟨name, generics, fields, exported, place⟩ =>
    ⟨"name", .string name⟩ :: ⟨"generics", strings generics⟩
      :: ⟨"fields", .array (fieldDecls fields)⟩ :: ⟨"exported", .bool exported⟩ :: loc place

def fieldDecls : List FieldDecl → List Json
  | [] => []
  | ⟨name, type⟩ :: fs =>
    .object [⟨"name", .string name⟩, ⟨"type", typeExpr type⟩] :: fieldDecls fs

def typeExpr : TypeExpr → Json
  | .named name args =>
    node "NamedType" [⟨"name", .string name⟩, ⟨"genericArgs", .array (typeExprs args)⟩]
  | .refined base op value =>
    node "RefinementType" [⟨"base", typeExpr base⟩, ⟨"op", .string op.symbol⟩,
      ⟨"valueExpr", expr value⟩]
  | .union left right => node "UnionType" [⟨"left", typeExpr left⟩, ⟨"right", typeExpr right⟩]
  | .array element init total =>
    node "ArrayType" (⟨"element", typeExpr element⟩ :: optional "init" (expr? init)
      ++ optional "total" (expr? total))
  | .pointer mutable target =>
    node "PointerType" [⟨"mutable", .bool mutable⟩, ⟨"to", typeExpr target⟩]
  | .tuple members => node "TupleType" [⟨"members", .array (typeExprs members)⟩]

def typeExpr? : Option TypeExpr → Option Json
  | some t => some (typeExpr t)
  | none => none

def typeExprs : List TypeExpr → List Json
  | [] => []
  | t :: ts => typeExpr t :: typeExprs ts

end

end Encode

def Program.encode (program : Program) : Json :=
  .object [⟨"body", .array (Encode.stmts program.body)⟩]

end TuffSafety
