import TuffSafety.Ast.Encode
import TuffSafety.Json.Decode

/-!
# The syntax tree from JSON

The shapes are those that encoding writes. A list or a flag may be left out, and so may an optional
field.
-/
namespace TuffSafety

namespace Decode

def loc : Json → Decoded Loc :=
  plainRecord "Loc" ["filePath", "line", "column"] fun r =>
    Loc.mk <$> r.optional "filePath" text <*> r.required "line" uint32 <*> r.required "column" uint32

/-- The location of a node. -/
def Record.place (r : Record) : Ranked (Option Loc) :=
  r.optional "loc" Decode.loc

def literalValue : Json → Decoded LiteralValue
  | .bool value => .ok (.bool value)
  | .int value =>
    if -0x8000000000000000 ≤ value ∧ value ≤ 0x7fffffffffffffff then .ok (.int (Int64.ofInt value))
    else .error (.noVariant "LiteralValue")
  | .string value => .ok (.str value)
  | _ => .error (.noVariant "LiteralValue")

def patternField : Json → Decoded PatternField :=
  plainRecord "PatternField" ["field", "bind"] fun r =>
    PatternField.mk <$> r.required "field" text <*> r.required "bind" text

def patternForms : Forms Pattern :=
  [("WildcardPattern", noFields .wildcard),
    ("LiteralPattern", record "LiteralPattern" ["value"] fun r =>
      Pattern.literal <$> r.required "value" literalValue),
    ("NamePattern", record "NamePattern" ["name"] fun r =>
      Pattern.name <$> r.required "name" text),
    ("StructPattern", record "StructPattern" ["name", "fields"] fun r =>
      Pattern.struct <$> r.required "name" text <*> r.list "fields" patternField)]

def pattern : Json → Decoded Pattern :=
  tagged "Pattern" patternForms

def binaryOp : Json → Decoded BinaryOp :=
  symbol (BinaryOp.all.map fun op => (op.symbol, op))

def unaryOp : Json → Decoded UnaryOp :=
  symbol (UnaryOp.all.map fun op => (op.symbol, op))

def enumDecl : Fields → Decoded EnumDecl :=
  record "EnumDecl" ["name", "variants", "exported", "loc"] fun r =>
    EnumDecl.mk <$> r.required "name" text <*> r.list "variants" text <*> r.flag "exported" <*> r.place

mutual

def expr : Nat → Json → Decoded Expr
  | 0, _ => JsonFault.malformed.raise
  | n + 1, value => tagged "Expr"
    [("NumberLiteral", record "NumberLiteral" ["value", "numberType", "loc"] fun r =>
        Expr.number <$> r.required "value" int64 <*> r.optional "numberType" text <*> r.place),
      ("FloatLiteral", record "FloatLiteral" ["value", "loc"] fun r =>
        Expr.float <$> r.required "value" float <*> r.place),
      ("BoolLiteral", record "BoolLiteral" ["value", "loc"] fun r =>
        Expr.bool <$> r.required "value" bool <*> r.place),
      ("StringLiteral", record "StringLiteral" ["value", "loc"] fun r =>
        Expr.string <$> r.required "value" text <*> r.place),
      ("CharLiteral", record "CharLiteral" ["value", "loc"] fun r =>
        Expr.char <$> r.required "value" text <*> r.place),
      ("Identifier", record "Identifier" ["name", "loc"] fun r =>
        Expr.ident <$> r.required "name" text <*> r.place),
      ("BinaryExpr", record "BinaryExpr" ["op", "left", "right", "loc"] fun r =>
        Expr.binary <$> r.required "op" binaryOp <*> r.required "left" (expr n)
          <*> r.required "right" (expr n) <*> r.place),
      ("UnaryExpr", record "UnaryExpr" ["op", "expr", "loc"] fun r =>
        Expr.unary <$> r.required "op" unaryOp <*> r.required "expr" (expr n) <*> r.place),
      ("CallExpr", record "CallExpr" ["callee", "args", "loc"] fun r =>
        Expr.call <$> r.required "callee" (expr n) <*> r.list "args" (expr n) <*> r.place),
      ("MemberExpr", record "MemberExpr" ["object", "property", "loc"] fun r =>
        Expr.member <$> r.required "object" (expr n) <*> r.required "property" text <*> r.place),
      ("IndexExpr", record "IndexExpr" ["target", "index", "loc"] fun r =>
        Expr.index <$> r.required "target" (expr n) <*> r.required "index" (expr n) <*> r.place),
      ("StructInit", record "StructInit" ["name", "fields", "loc"] fun r =>
        Expr.structInit <$> r.required "name" text <*> r.list "fields" (fieldInit n) <*> r.place),
      ("IfExpr", record "IfNode" ["condition", "thenBranch", "elseBranch", "loc"] fun r =>
        Expr.ite <$> r.required "condition" (expr n) <*> r.required "thenBranch" (expr n)
          <*> r.optional "elseBranch" (expr n) <*> r.place),
      ("MatchExpr", record "MatchExpr" ["target", "cases", "loc"] fun r =>
        Expr.matchOn <$> r.required "target" (expr n) <*> r.list "cases" (matchCase n) <*> r.place),
      ("IsExpr", record "IsExpr" ["expr", "pattern", "loc"] fun r =>
        Expr.isPattern <$> r.required "expr" (expr n) <*> r.required "pattern" pattern <*> r.place),
      ("UnwrapExpr", record "UnwrapExpr" ["expr", "loc"] fun r =>
        Expr.unwrap <$> r.required "expr" (expr n) <*> r.place),
      ("Block", fun fields => (block n fields).map Expr.block)] value

def fieldInit : Nat → Json → Decoded FieldInit
  | 0, _ => JsonFault.malformed.raise
  | n + 1, value => plainRecord "FieldInit" ["key", "value"] (fun r =>
    FieldInit.mk <$> r.required "key" text <*> r.required "value" (expr n)) value

def matchCase : Nat → Json → Decoded MatchCase
  | 0, _ => JsonFault.malformed.raise
  | n + 1, value => plainRecord "MatchCase" ["pattern", "body"] (fun r =>
    MatchCase.mk <$> r.required "pattern" pattern <*> r.required "body" (expr n)) value

def block : Nat → Fields → Decoded Block
  | 0, _ => JsonFault.malformed.raise
  | n + 1, fields => record "Block" ["statements", "loc"] (fun r =>
    Block.mk <$> r.list "statements" (stmt n) <*> r.place) fields

/-- The body of a loop has no kind. -/
def loopBody : Nat → Json → Decoded Block
  | 0, _ => JsonFault.malformed.raise
  | n + 1, value => plainRecord "Block" ["statements", "loc"] (fun r =>
    Block.mk <$> r.list "statements" (stmt n) <*> r.place) value

def stmtForms : Nat → Forms Stmt
  | 0 => []
  | n + 1 =>
    [("FnDecl", fun fields => (fnDecl n fields).map Stmt.fnDecl),
      ("ExternFnDecl", fun fields => (fnDecl n fields).map Stmt.foreignFn),
      ("StructDecl", record "StructDecl" ["name", "generics", "fields", "exported", "loc"] fun r =>
        (fun name generics fields exported place =>
            Stmt.structDecl ⟨name, generics, fields, exported, place⟩)
          <$> r.required "name" text <*> r.list "generics" text <*> r.list "fields" (fieldDecl n)
          <*> r.flag "exported" <*> r.place),
      ("EnumDecl", fun fields => (enumDecl fields).map Stmt.enumDecl),
      ("TypeAlias", record "TypeAlias" ["name", "generics", "aliasedType", "exported", "loc"] fun r =>
        Stmt.typeAlias <$> r.required "name" text <*> r.list "generics" text
          <*> r.required "aliasedType" (typeExpr n) <*> r.flag "exported" <*> r.place),
      ("ExternTypeDecl", record "ExternTypeDecl" ["name", "generics", "loc"] fun r =>
        Stmt.foreignType <$> r.required "name" text <*> r.list "generics" text <*> r.place),
      ("LetDecl", record "LetDecl" ["name", "type", "value", "loc"] fun r =>
        Stmt.letDecl <$> r.required "name" text <*> r.optional "type" (typeExpr n)
          <*> r.required "value" (expr n) <*> r.place),
      ("ExternLetDecl", record "ExternLetDecl" ["name", "type", "loc"] fun r =>
        Stmt.foreignLet <$> r.required "name" text <*> r.required "type" (typeExpr n) <*> r.place),
      ("Block", fun fields => (block n fields).map Stmt.block),
      ("ExprStmt", record "ExprStmt" ["expr", "loc"] fun r =>
        Stmt.expr <$> r.required "expr" (expr n) <*> r.place),
      ("AssignStmt", record "AssignStmt" ["target", "value", "loc"] fun r =>
        Stmt.assign <$> r.required "target" (expr n) <*> r.required "value" (expr n) <*> r.place),
      ("ReturnStmt", record "ReturnStmt" ["value", "loc"] fun r =>
        Stmt.ret <$> r.optional "value" (expr n) <*> r.place),
      ("IfStmt", record "IfNode" ["condition", "thenBranch", "elseBranch", "loc"] fun r =>
        Stmt.ite <$> r.required "condition" (expr n) <*> r.required "thenBranch" (expr n)
          <*> r.optional "elseBranch" (expr n) <*> r.place),
      ("WhileStmt", record "WhileStmt" ["condition", "body", "loc"] fun r =>
        Stmt.whileLoop <$> r.required "condition" (expr n) <*> r.required "body" (loopBody n)
          <*> r.place),
      ("ForStmt", record "ForStmt" ["iterator", "start", "end", "body", "loc"] fun r =>
        Stmt.forLoop <$> r.required "iterator" text <*> r.required "start" (expr n)
          <*> r.required "end" (expr n) <*> r.required "body" (loopBody n) <*> r.place),
      ("BreakStmt", record "Jump" ["loc"] fun r => Stmt.breakLoop <$> r.place),
      ("ContinueStmt", record "Jump" ["loc"] fun r => Stmt.continueLoop <$> r.place)]

def stmt : Nat → Json → Decoded Stmt
  | 0, _ => JsonFault.malformed.raise
  | n + 1, value => tagged "Stmt" (stmtForms n) value

def fnDecl : Nat → Fields → Decoded FnDecl
  | 0, _ => JsonFault.malformed.raise
  | n + 1, fields =>
    record "FnDecl" ["name", "generics", "params", "returnType", "body", "exported", "loc"] (fun r =>
      FnDecl.mk <$> r.required "name" text <*> r.list "generics" text <*> r.list "params" (param n)
        <*> r.optional "returnType" (typeExpr n) <*> r.optional "body" (expr n)
        <*> r.flag "exported" <*> r.place) fields

def param : Nat → Json → Decoded Param
  | 0, _ => JsonFault.malformed.raise
  | n + 1, value => plainRecord "Param" ["name", "type"] (fun r =>
    Param.mk <$> r.required "name" text <*> r.optional "type" (typeExpr n)) value

def fieldDecl : Nat → Json → Decoded FieldDecl
  | 0, _ => JsonFault.malformed.raise
  | n + 1, value => plainRecord "FieldDecl" ["name", "type"] (fun r =>
    FieldDecl.mk <$> r.required "name" text <*> r.required "type" (typeExpr n)) value

def typeExpr : Nat → Json → Decoded TypeExpr
  | 0, _ => JsonFault.malformed.raise
  | n + 1, value => tagged "TypeExpr"
    [("NamedType", record "NamedType" ["name", "genericArgs"] fun r =>
        TypeExpr.named <$> r.required "name" text <*> r.list "genericArgs" (typeExpr n)),
      ("RefinementType", record "RefinementType" ["base", "op", "valueExpr"] fun r =>
        TypeExpr.refined <$> r.required "base" (typeExpr n) <*> r.required "op" binaryOp
          <*> r.required "valueExpr" (expr n)),
      ("UnionType", record "UnionType" ["left", "right"] fun r =>
        TypeExpr.union <$> r.required "left" (typeExpr n) <*> r.required "right" (typeExpr n)),
      ("ArrayType", record "ArrayType" ["element", "init", "total"] fun r =>
        TypeExpr.array <$> r.required "element" (typeExpr n) <*> r.optional "init" (expr n)
          <*> r.optional "total" (expr n)),
      ("PointerType", record "PointerType" ["mutable", "to"] fun r =>
        TypeExpr.pointer <$> r.flag "mutable" <*> r.required "to" (typeExpr n)),
      ("TupleType", record "TupleType" ["members"] fun r =>
        TypeExpr.tuple <$> r.list "members" (typeExpr n))] value

end

/-- More levels than the nodes of a text can be nested. -/
def levels : Nat := 3 * nestingLimit

/-- A statement of a program: it lies within two open containers and opens one itself. -/
def topStmt : Doc → Decoded Stmt :=
  docTagged "Stmt" (stmtForms levels) (nestingLimit - 3)

end Decode

/-- Reads a program from JSON. -/
def Program.decode (text : String) : Decoded Program :=
  Decode.wholeText
    (fun doc => Program.mk <$> Decode.soleField "Program" "body" [] (Decode.docList Decode.topStmt) doc)
    text

/-- The JSON text of a program. -/
def Program.toJson (program : Program) : String :=
  program.encode.pretty

/-- Whether the JSON text of a program describes that program. -/
def Program.roundTrips (program : Program) : Bool :=
  match Program.decode program.toJson with
  | .ok read => read.toJson == program.toJson
  | .error _ => false

end TuffSafety
