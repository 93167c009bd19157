import TuffSafety.Assigned
import TuffSafety.Checker.Fault
import TuffSafety.Declarations
import TuffSafety.Scope
import TuffSafety.TypeInfo.Compatible

/-!
# Rules of the checker

The rule of each construct, given what is known about its parts. Safety rules apply in strict mode
only; the others always do.
-/
namespace TuffSafety

/-- What the rules look up, and whether they are strict about safety. -/
structure Checker where
  decls : Declarations
  /-- The annotated top-level variables, visible in every function. -/
  globals : Scope
  strict : Bool

namespace Checker

abbrev Attempt : Type → Type :=
  Except (Located CheckFault)

/-- What a part of a program does: it yields a type and changes what is known. -/
abbrev Step : Type :=
  Flow → Attempt (TypeInfo × Flow)

def reject {α : Type} (cause : CheckFault) (loc : Option Loc) : Attempt α :=
  .error ⟨cause, loc⟩

def globalScope (d : Declarations) : Scope :=
  d.globals.foldl (fun s g => s.declare g.name (.fixed (d.resolve g.type))) .empty

def ofDeclarations (decls : Declarations) (strict : Bool) : Checker where
  decls := decls
  globals := globalScope decls
  strict := strict

/-! ### Values flowing into slots -/

/-- Whether a value of one type may stand where another type is expected. -/
def isAssignable (c : Checker) (expected actual : TypeInfo) : Bool :=
  expected.isUnknown || actual.isUnknown
    || TypeInfo.namedCompatible expected.name actual.name
    || TypeName.isVariable expected.name || TypeName.isVariable actual.name
    || TypeInfo.numericCompatible expected.name actual
    || c.decls.isAlias expected.name

def requireAssignable (c : Checker) (slot : Slot) (expected actual : TypeInfo) (loc : Option Loc) :
    Attempt Unit :=
  if c.isAssignable expected actual then .ok ()
  else reject (.mismatch slot expected.name actual.name) loc

/-- A slot that excludes zero takes only values that are known not to be zero. -/
def requireNonZero (c : Checker) (slot : Slot) (expected actual : TypeInfo) (loc : Option Loc) :
    Attempt Unit :=
  if c.strict && expected.nonZero && !actual.nonZero && !actual.isUnknown then
    reject (.mayBeZero slot) loc
  else .ok ()

def requireFit (c : Checker) (slot : Slot) (expected actual : TypeInfo) (loc : Option Loc) :
    Attempt Unit := do
  c.requireAssignable slot expected actual loc
  c.requireNonZero slot expected actual loc

/-! ### Expressions -/

/-- The present value of a name, narrowed by the fact about it. Names that are not bound are looked
up among the declarations. -/
def lookup (c : Checker) (name : String) (flow : Flow) : TypeInfo :=
  match flow.scope.get? name with
  | some b =>
    match flow.facts.get? name with
    | some patch => b.current.narrow patch
    | none => b.current
  | none =>
    if c.decls.functions.contains name then .bare "Fn"
    else if c.decls.structs.contains name || c.decls.enums.contains name then .bare name
    else .unknown

def isBoolOrUnknown (t : TypeInfo) : Bool :=
  t.isBool || t.isUnknown

def isNumericOrUnknown (t : TypeInfo) : Bool :=
  t.isNumeric || t.isUnknown

/-- An integer literal without a suffix is an `I32`; the type of the other operand wins. -/
def arithmeticName (left right : TypeInfo) : String :=
  if left.name = "I32" then right.name else left.name

def isFloatName (name : String) : Bool :=
  name = "F32" || name = "F64"

/-- The bounds of a result have to be known and to lie within 32 bits. -/
def checkOverflow (op : BinaryOp) (bounds : Option Interval) (loc : Option Loc) : Attempt Unit :=
  match bounds with
  | none => reject (.overflowUnproven op) loc
  | some (low, high) =>
    if low < Bound.int32.1 ∨ Bound.int32.2 < high then reject (.overflow op low high) loc else .ok ()

def divisionFault : BinaryOp → CheckFault
  | .mod => .moduloMayBeZero
  | _ => .divisorMayBeZero

/-- The bounds that an operation gives to its result. -/
def resultBounds (op : BinaryOp) (left right : TypeInfo) : Option Interval :=
  match left.interval, right.interval with
  | some l, some r => Interval.propagate op l r
  | _, _ => none

/-- Arithmetic. An operand of unknown type passes, but owes the same proofs. -/
def arithmetic (c : Checker) (op : BinaryOp) (left right : TypeInfo) (loc : Option Loc) :
    Attempt TypeInfo := do
  if !isNumericOrUnknown left then reject (.arithmeticOperand op left.name) loc
  if !isNumericOrUnknown right then reject (.arithmeticOperand op right.name) loc
  let unknown := left.isUnknown || right.isUnknown
  let name := arithmeticName left right
  if op = .div ∨ op = .mod then
    if c.strict && !right.nonZero then reject (divisionFault op) loc
    return if unknown then .unknown else .bare name
  else
    let bounds := resultBounds op left right
    if c.strict && !isFloatName name then checkOverflow op bounds loc
    return if unknown then .unknown
      else (TypeInfo.bare name).withBounds (bounds.map Prod.fst) (bounds.map Prod.snd)

def logical (op : BinaryOp) (left right : TypeInfo) (loc : Option Loc) : Attempt TypeInfo := do
  if !isBoolOrUnknown left then reject (.logicalOperand op left.name) loc
  if !isBoolOrUnknown right then reject (.logicalOperand op right.name) loc
  return .bool

/-- The right operand of `&&` and `||` runs only when the left one did not decide the result. What
it assigns is forgotten behind it. -/
def shortCircuit (op : BinaryOp) (left right : Expr) (loc : Option Loc)
    (inferLeft inferRight : Step) : Step := fun flow => do
  let (leftInfo, flow) ← inferLeft flow
  let learned := Facts.derive left (op = .and)
  let (rightInfo, inner) ← inferRight { flow with facts := flow.facts.merge learned }
  let result ← logical op leftInfo rightInfo loc
  return (result, ⟨inner.scope, flow.facts.forgetAll right.assigned⟩)

def negate (b : Option Int) : Option Int :=
  b.bind fun n => Bound.checked (-n)

def unary (op : UnaryOp) (operand : TypeInfo) (loc : Option Loc) : Attempt TypeInfo :=
  match op with
  | .not => if isBoolOrUnknown operand then .ok .bool else reject (.notOperand operand.name) loc
  | .neg =>
    if operand.isUnknown then .ok operand
    else if operand.isNumeric then
      .ok (TypeInfo.withBounds { TypeInfo.bare operand.name with nonZero := operand.nonZero }
        (negate operand.max) (negate operand.min))
    else reject (.negOperand operand.name) loc
  | .ref => .ok { operand with name := "*" ++ operand.name, nonZero := true, nullablePointer := none }
  | .refMut =>
    .ok { operand with name := "*mut " ++ operand.name, nonZero := true, nullablePointer := none }

/-- The rule of one argument. A foreign function does not have its argument types checked. -/
def argument (c : Checker) (sig : FnSignature) (param : Param) (actual : TypeInfo) (loc : Option Loc) :
    Attempt Unit := do
  let expected := c.decls.resolve? param.type
  let slot := Slot.argument param.name sig.decl.name
  if c.strict && actual.isNullable && expected.name.toList.head? == some '*'
      && !expected.isNullable then
    reject (.nullArgument param.name sig.decl.name) loc
  if !sig.foreign then c.requireAssignable slot expected actual loc
  c.requireNonZero slot expected actual loc

/-- The arguments against the parameters, as far as there are both. -/
def arguments (c : Checker) (sig : FnSignature) :
    List Param → List (TypeInfo × Option Loc) → Attempt Unit
  | param :: params, (actual, loc) :: rest => do
    c.argument sig param actual loc
    c.arguments sig params rest
  | _, _ => .ok ()

def call (c : Checker) (sig : FnSignature) (args : List (TypeInfo × Option Loc)) (loc : Option Loc) :
    Attempt TypeInfo := do
  let params := sig.decl.params
  if !sig.foreign && params.length != args.length then
    reject (.arity sig.decl.name params.length args.length) loc
  c.arguments sig params args
  return c.decls.resolve? sig.decl.returnType

/-- The signature of a callee that is the name of a declared function. -/
def signature? (c : Checker) : Expr → Option FnSignature
  | .ident name _ => c.decls.functions.get? name
  | _ => none

/-- The name behind a pointer. -/
def pointee (name : String) : String :=
  match TypeInfo.dropStart? "*mut ".toList name.toList with
  | some rest => String.ofList rest
  | none =>
    match TypeInfo.dropStart? "*".toList name.toList with
    | some rest => String.ofList rest
    | none => name

def field (c : Checker) (decl : StructDecl) (name : String) (loc : Option Loc) : Attempt TypeInfo :=
  match decl.field? name with
  | some f => .ok (c.decls.resolve f.type)
  | none => reject (.unknownField decl.name name) loc

def member (c : Checker) (object : TypeInfo) (property : String) (loc : Option Loc) :
    Attempt TypeInfo :=
  if c.strict && object.isNullable then reject (.nullMember property) loc
  else if (property = "length" || property = "init") && object.name = "Array" then
    .ok ((TypeInfo.bare "USize").withBounds (some 0) (object.arrayTotal <|> object.arrayInit))
  else match c.decls.structs.get? (pointee object.name) with
    | some decl => c.field decl property loc
    | none => .ok .unknown

/-- An index has to be known to lie within the initialised part of the array. The elements' type is
not tracked. -/
def index (c : Checker) (target position : TypeInfo) (loc : Option Loc) : Attempt TypeInfo :=
  if !c.strict then .ok .unknown
  else if target.isNullable then reject .nullIndex loc
  else match target.arrayInit, position.interval with
    | some length, some (low, high) =>
      if low < 0 ∨ length ≤ high then reject (.indexOutOfBounds low high length) loc
      else .ok .unknown
    | some _, none => reject .indexUnproven loc
    | none, _ => if target.name = "Array" then reject .indexUnproven loc else .ok .unknown

/-! ### Branches -/

def requireCondition (guard : Guard) (condition : TypeInfo) (loc : Option Loc) : Attempt Unit :=
  if isBoolOrUnknown condition then .ok () else reject (.conditionNotBool guard condition.name) loc

/-- Runs a part in a frame of its own, under facts that hold there. -/
def nested (learned : Facts) (body : Step) : Step := fun flow => do
  let (result, inner) ← body { flow.child with facts := flow.facts.merge learned }
  return (result, flow.settle inner)

/-- Each branch starts from what the condition tells when it leads there. -/
def ifElse (condition : Expr) (loc : Option Loc) (inferCondition inferThen : Step)
    (inferElse : Option Step) : Step := fun flow => do
  let (tested, flow) ← inferCondition flow
  requireCondition .ifBranch tested (condition.loc? <|> loc)
  let (thenInfo, flow) ← nested (Facts.derive condition true) inferThen flow
  match inferElse with
  | some inferElse =>
    let (elseInfo, flow) ← nested (Facts.derive condition false) inferElse flow
    return (thenInfo.join elseInfo, flow)
  | none => return (.bare thenInfo.name, flow)

/-- The members of a union that no case of a match names. -/
def missingCases (tags : List String) (patterns : List Pattern) : List String :=
  tags.filter fun tag => !(patterns.filterMap Pattern.covers?).contains tag

def requireExhaustive (c : Checker) (target : TypeInfo) (patterns : List Pattern) (loc : Option Loc) :
    Attempt Unit :=
  if c.strict && !patterns.any Pattern.isWildcard then
    match missingCases target.unionTags patterns with
    | [] => .ok ()
    | missing => reject (.nonExhaustive missing) loc
  else .ok ()

/-- Declares the names that a struct pattern binds; the fields of a struct that is not declared are
of unknown type. -/
def bindFields (c : Checker) (struct : String) (loc : Option Loc) :
    List PatternField → Flow → Attempt Flow
  | [], flow => .ok flow
  | f :: fs, flow => do
    let info ← match c.decls.structs.get? struct with
      | some decl => c.field decl f.field loc
      | none => .ok .unknown
    c.bindFields struct loc fs
      ⟨flow.scope.declare f.bind (.fixed info), flow.facts.forget f.bind⟩

def bindPattern (c : Checker) (pattern : Pattern) (loc : Option Loc) (flow : Flow) : Attempt Flow :=
  match pattern with
  | .struct name fields => c.bindFields name loc fields flow
  | _ => .ok flow

/-- One case of a match. -/
def matchArm (c : Checker) (pattern : Pattern) (loc : Option Loc) (body : Step) : Step := fun flow => do
  let start ← c.bindPattern pattern loc flow.child
  let (result, inner) ← body start
  return (result, flow.settle inner)

/-! ### Statements -/

/-- A variable with an annotation is declared with it, any other with the widened type of its
initial value. Facts about a name that it shadows are dropped. -/
def declare (c : Checker) (name : String) (type : Option TypeExpr) (value : TypeInfo)
    (loc : Option Loc) (flow : Flow) : Attempt Flow := do
  let b ← match type with
    | some type => do
      let expected := c.decls.resolve type
      c.requireFit (.initializer name) expected value loc
      pure ⟨expected, expected.narrow (.ofInfo value)⟩
    | none => pure ⟨value.widened, value⟩
  return ⟨flow.scope.declare name b, flow.facts.forget name⟩

/-- An assignment to a name; one that is not bound is left alone. -/
def assign (c : Checker) (name : String) (value : TypeInfo) (loc : Option Loc) (flow : Flow) :
    Attempt Flow :=
  match flow.scope.get? name with
  | none => .ok flow
  | some b => do
    c.requireFit (.assignment name) b.declared value loc
    return ⟨flow.scope.update name (b.declared.narrow (.ofInfo value)), flow.facts.forget name⟩

def returnValue (c : Checker) (expected : Option TypeInfo) (value : TypeInfo) (loc : Option Loc) :
    Attempt Unit :=
  match expected with
  | none => .ok ()
  | some expected =>
    if expected.isVoid then
      if value.isVoid || value.isUnknown then .ok () else reject (.returnFromVoid value.name) loc
    else c.requireFit .returned expected value loc

/-- What holds at the start of every round of a loop: nothing is known about the names that the
body assigns. -/
def loopStart (body : Block) (flow : Flow) : Flow :=
  flow.child.loosen body.assigned

def whileLoop (condition : Expr) (body : Block) (loc : Option Loc)
    (inferCondition inferBody : Step) : Step := fun flow => do
  let (tested, inner) ← inferCondition (loopStart body flow)
  requireCondition .whileLoop tested (condition.loc? <|> loc)
  let learned := Facts.derive condition true
  let (_, inner) ← inferBody { inner with facts := inner.facts.merge learned }
  return (.void, flow.settle inner)

def rangeBound (bound : Expr) (loc : Option Loc) (inferBound : Step) (flow : Flow) : Attempt Flow := do
  let (info, flow) ← inferBound flow
  if isNumericOrUnknown info then return flow
  else reject (.rangeBound info.name) (bound.loc? <|> loc)

/-- The type of the variable of a loop over a range. -/
def iteratorInfo : TypeInfo :=
  (TypeInfo.bare "I32").withBounds (some 0) none

def forLoop (iterator : String) (body : Block) (inferBody : Step) : Step := fun flow => do
  let start := loopStart body flow
  let (_, inner) ← inferBody
    ⟨start.scope.declare iterator (.fixed iteratorInfo), start.facts.forget iterator⟩
  return (.void, flow.settle inner)

/-- What holds at the start of a function: the globals and the parameters. -/
def fnStart (c : Checker) (params : List Param) : Flow where
  scope := params.foldl (fun s p => s.declare p.name (.fixed (c.decls.resolve? p.type))) c.globals.child

/-- The value of a body against the return type. -/
def fnResult (c : Checker) (name : String) (expected : Option TypeInfo) (value : TypeInfo)
    (loc : Option Loc) : Attempt Unit :=
  match expected with
  | none => .ok ()
  | some expected =>
    if value.isUnknown || value.isVoid || expected.isUnknown || expected.isVoid then .ok ()
    else c.requireFit (.body name) expected value loc

end Checker

end TuffSafety
