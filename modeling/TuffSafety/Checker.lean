import TuffSafety.Checker.Rules

/-!
# The checker

Every expression and statement is given a type, from left to right, and the rules are applied to
what is known at each point. The first fault ends the check.
-/
namespace TuffSafety

namespace Checker

mutual

/-- The type of an expression, inside a function with the given return type. -/
def expr (c : Checker) : Expr → Option TypeInfo → Step
  | .number value suffix _, _, flow => .ok (.literal (suffix.getD "I32") value.toInt, flow)
  | .float .., _, flow => .ok (.bare "F64", flow)
  | .bool .., _, flow => .ok (.bool, flow)
  | .string .., _, flow => .ok (.bare "*Str", flow)
  | .char .., _, flow => .ok (.bare "Char", flow)
  | .ident name _, _, flow => .ok (c.lookup name flow, flow)
  | .binary op left right loc, ret, flow =>
    if op.isLogical then
      shortCircuit op left right loc (c.expr left ret) (c.expr right ret) flow
    else do
      let (leftInfo, flow) ← c.expr left ret flow
      let (rightInfo, flow) ← c.expr right ret flow
      if op.isComparison then return (.bool, flow)
      else
        let result ← c.arithmetic op leftInfo rightInfo loc
        return (result, flow)
  | .unary op operand loc, ret, flow => do
    let (info, flow) ← c.expr operand ret flow
    let result ← Checker.unary op info loc
    return (result, flow)
  | .call callee args loc, ret, flow => do
    let (infos, flow) ← c.args args ret loc flow
    match callee with
    | .ident .. =>
      match c.signature? callee with
      | some sig =>
        let result ← c.call sig infos loc
        return (result, flow)
      | none => return (.unknown, flow)
    | callee =>
      let (_, flow) ← c.expr callee ret flow
      return (.unknown, flow)
  | .member object property loc, ret, flow => do
    let (info, flow) ← c.expr object ret flow
    let result ← c.member info property loc
    return (result, flow)
  | .index target position loc, ret, flow => do
    let (targetInfo, flow) ← c.expr target ret flow
    let (positionInfo, flow) ← c.expr position ret flow
    let result ← c.index targetInfo positionInfo loc
    return (result, flow)
  | .structInit name fields loc, ret, flow =>
    match c.decls.structs.get? name with
    | none => reject (.unknownStruct name) loc
    | some decl => do
      let flow ← c.fieldInits decl loc fields ret flow
      return (.bare name, flow)
  | .ite condition thenBranch elseBranch loc, ret, flow =>
    ifElse condition loc (c.expr condition ret) (c.expr thenBranch ret) (c.expr? elseBranch ret) flow
  | .matchOn target cases loc, ret, flow => do
    let (info, flow) ← c.expr target ret flow
    c.requireExhaustive info (cases.map MatchCase.pattern) loc
    c.matchCases loc cases ret none flow
  | .isPattern operand _ _, ret, flow => do
    let (_, flow) ← c.expr operand ret flow
    return (.bool, flow)
  | .unwrap operand _, ret, flow => c.expr operand ret flow
  | .block ⟨statements, _⟩, ret, flow => nested .empty (c.stmts statements ret .void) flow

def expr? (c : Checker) : Option Expr → Option TypeInfo → Option Step
  | some e, ret => some (c.expr e ret)
  | none, _ => none

/-- The types of arguments, each with the place it is blamed on. -/
def args (c : Checker) : List Expr → Option TypeInfo → Option Loc → Flow →
    Attempt (List (TypeInfo × Option Loc) × Flow)
  | [], _, _, flow => .ok ([], flow)
  | e :: es, ret, loc, flow => do
    let (info, flow) ← c.expr e ret flow
    let (infos, flow) ← c.args es ret loc flow
    return ((info, e.loc? <|> loc) :: infos, flow)

def fieldInits (c : Checker) (decl : StructDecl) (loc : Option Loc) :
    List FieldInit → Option TypeInfo → Flow → Attempt Flow
  | [], _, flow => .ok flow
  | ⟨key, value⟩ :: fs, ret, flow =>
    match decl.field? key with
    | none => reject (.unknownField decl.name key) (value.loc? <|> loc)
    | some declared => do
      let (info, flow) ← c.expr value ret flow
      c.requireAssignable (.field key decl.name) (c.decls.resolve declared.type) info
        (value.loc? <|> loc)
      c.fieldInits decl loc fs ret flow

/-- The cases of a match from left to right; their types are joined. -/
def matchCases (c : Checker) (loc : Option Loc) :
    List MatchCase → Option TypeInfo → Option TypeInfo → Step
  | [], _, joined, flow => .ok (joined.getD .unknown, flow)
  | ⟨pattern, body⟩ :: cs, ret, joined, flow => do
    let (info, flow) ← c.matchArm pattern loc (c.expr body ret) flow
    let joined := match joined with
      | some previous => previous.join info
      | none => info
    c.matchCases loc cs ret (some joined) flow

/-- Statements one after the other; the type is that of the last one. -/
def stmts (c : Checker) : List Stmt → Option TypeInfo → TypeInfo → Step
  | [], _, last, flow => .ok (last, flow)
  | s :: ss, ret, _, flow => do
    let (info, flow) ← c.stmt s ret flow
    c.stmts ss ret info flow

/-- The type of a statement: that of its value if it is an expression, a block or an `if`. -/
def stmt (c : Checker) : Stmt → Option TypeInfo → Step
  | .fnDecl decl, _, flow => do
    c.fnDecl decl
    return (.void, flow)
  | .letDecl name type value loc, ret, flow => do
    let (info, flow) ← c.expr value ret flow
    let flow ← c.declare name type info (value.loc? <|> loc) flow
    return (.void, flow)
  | .assign target value loc, ret, flow => do
    let (info, flow) ← c.expr value ret flow
    match target with
    | .ident name _ =>
      let flow ← c.assign name info (value.loc? <|> loc) flow
      return (.void, flow)
    | target =>
      let (_, flow) ← c.expr target ret flow
      return (.void, flow)
  | .ret none loc, ret, flow => do
    c.returnValue ret .void loc
    return (.void, flow)
  | .ret (some value) loc, ret, flow => do
    let (info, flow) ← c.expr value ret flow
    c.returnValue ret info (value.loc? <|> loc)
    return (.void, flow)
  | .expr e _, ret, flow => c.expr e ret flow
  | .block ⟨statements, _⟩, ret, flow => nested .empty (c.stmts statements ret .void) flow
  | .ite condition thenBranch elseBranch loc, ret, flow =>
    ifElse condition loc (c.expr condition ret) (c.expr thenBranch ret) (c.expr? elseBranch ret) flow
  | .whileLoop condition ⟨statements, place⟩ loc, ret, flow =>
    Checker.whileLoop condition ⟨statements, place⟩ loc (c.expr condition ret)
      (nested .empty (c.stmts statements ret .void)) flow
  | .forLoop iterator first last ⟨statements, place⟩ loc, ret, flow => do
    let flow ← rangeBound first loc (c.expr first ret) flow
    let flow ← rangeBound last loc (c.expr last ret) flow
    Checker.forLoop iterator ⟨statements, place⟩ (nested .empty (c.stmts statements ret .void)) flow
  | .foreignFn _, _, flow => .ok (.void, flow)
  | .structDecl _, _, flow => .ok (.void, flow)
  | .enumDecl _, _, flow => .ok (.void, flow)
  | .typeAlias .., _, flow => .ok (.void, flow)
  | .foreignType .., _, flow => .ok (.void, flow)
  | .foreignLet .., _, flow => .ok (.void, flow)
  | .breakLoop _, _, flow => .ok (.void, flow)
  | .continueLoop _, _, flow => .ok (.void, flow)

/-- A function is checked on its own, seeing only the globals and its parameters. -/
def fnDecl (c : Checker) : FnDecl → Attempt Unit
  | ⟨_, _, _, _, none, _, _⟩ => .ok ()
  | ⟨name, _, params, returnType, some body, _, loc⟩ => do
    let expected := returnType.map c.decls.resolve
    let (info, _) ← c.expr body expected (c.fnStart params)
    c.fnResult name expected info (body.loc? <|> loc)

end

end Checker

/-- Verifies a program; strict mode also asks for the safety proofs. -/
def Program.check (program : Program) (strict : Bool) : Except (Located CheckFault) Unit := do
  let c := Checker.ofDeclarations (.ofProgram program) strict
  let _ ← c.stmts program.body none .void { scope := c.globals.child }
  return ()

end TuffSafety
