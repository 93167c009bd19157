import TuffSafety.Ast.Parse.Stream

/-!
# Parsing

Recursive descent over the token list, with binding strengths for the infix operators. Every call
spends one unit of an allowance; `Program.parse` starts with more than a token list of that length
can spend.
-/
namespace TuffSafety

namespace Parse

def exhausted {α : Type} (ts : List Token) : Attempt (α × List Token) :=
  fail .exhausted ts

/-- `value.method(a)` means `method(value, a)`. -/
def callOf (callee : Expr) (args : List Expr) : Expr :=
  match callee with
  | .member object property loc => .call (.ident property loc) (object :: args) loc
  | callee => .call callee args callee.loc?

/-- An `if` whose first branch is a block is a statement of its own. -/
def ifStatement? : Expr → Option Stmt
  | .ite condition thenBranch elseBranch loc =>
    if thenBranch.isBlock then some (.ite condition thenBranch elseBranch loc) else none
  | _ => none

mutual

/-- One or more type terms with bars between them, grouped to the left. -/
def typeExpr : Nat → List Token → Attempt (TypeExpr × List Token)
  | 0, ts => exhausted ts
  | n + 1, ts => do
    let (left, ts) ← typeTerm n ts
    unionTail n left ts

def unionTail : Nat → TypeExpr → List Token → Attempt (TypeExpr × List Token)
  | 0, _, ts => exhausted ts
  | n + 1, left, ts =>
    match accept .pipe ts with
    | (false, ts) => .ok (left, ts)
    | (true, ts) => do
      let (right, ts) ← typeTerm n ts
      unionTail n (.union left right) ts

def typeTerm : Nat → List Token → Attempt (TypeExpr × List Token)
  | 0, ts => exhausted ts
  | n + 1, ⟨.symbol .star, _⟩ :: ts => do
    let (mutable, ts) := accept .kwMut ts
    let (target, ts) ← typeTerm n ts
    .ok (.pointer mutable target, ts)
  | n + 1, ⟨.symbol .lbracket, _⟩ :: ts => do
    let (element, ts) ← typeExpr n ts
    match accept .semicolon ts with
    | (false, ts) =>
      let ((), ts) ← expect .rbracket "after array type" ts
      .ok (.array element none none, ts)
    | (true, ts) =>
      let (init, ts) ← expression n 0 ts
      let ((), ts) ← expect .semicolon "in array type" ts
      let (total, ts) ← expression n 0 ts
      let ((), ts) ← expect .rbracket "after array type" ts
      .ok (.array element (some init) (some total), ts)
  | n + 1, ⟨.symbol .lparen, _⟩ :: ts => do
    let (members, ts) ← if startsWith .rparen ts then .ok ([], ts) else typeList n ts
    let ((), ts) ← expect .rparen "for tuple type" ts
    .ok (.tuple members, ts)
  | n + 1, ts => do
    let (name, ts) ← qualifiedName ts
    let (args, ts) ← typeArguments n ts
    refinement n (.named name args) ts

/-- One or more types with commas between them. -/
def typeList : Nat → List Token → Attempt (List TypeExpr × List Token)
  | 0, ts => exhausted ts
  | n + 1, ts => do
    let (first, ts) ← typeExpr n ts
    match accept .comma ts with
    | (false, ts) => .ok ([first], ts)
    | (true, ts) =>
      let (rest, ts) ← typeList n ts
      .ok (first :: rest, ts)

/-- Types between angle brackets. A `<` that no type follows is left for a refinement. -/
def typeArguments : Nat → List Token → Attempt (List TypeExpr × List Token)
  | 0, ts => exhausted ts
  | n + 1, ts =>
    match accept .lt ts with
    | (true, inner) =>
      if startsType (kind inner) then do
        let (args, ts) ← typeList n inner
        let ((), ts) ← expect .gt "in generic args" ts
        .ok (args, ts)
      else .ok ([], ts)
    | (false, ts) => .ok ([], ts)

/-- A comparison with a value behind a type name. -/
def refinement : Nat → TypeExpr → List Token → Attempt (TypeExpr × List Token)
  | 0, _, ts => exhausted ts
  | _ + 1, base, [] => .ok (base, [])
  | n + 1, base, t :: ts =>
    match refinementOp? t.kind with
    | some op =>
      if startsRefinementValue (kind ts) then do
        let (value, ts) ← expression n 0 ts
        .ok (.refined base op value, ts)
      else .ok (base, t :: ts)
    | none => .ok (base, t :: ts)

/-- A colon and a type, or nothing. -/
def annotation : Nat → List Token → Attempt (Option TypeExpr × List Token)
  | 0, ts => exhausted ts
  | n + 1, ts =>
    match accept .colon ts with
    | (false, ts) => .ok (none, ts)
    | (true, ts) => do
      let (type, ts) ← typeExpr n ts
      .ok (some type, ts)

/-- An expression whose infix operators bind at least as strongly as `level`; a question mark
behind it unwraps it. -/
def expression : Nat → Nat → List Token → Attempt (Expr × List Token)
  | 0, _, ts => exhausted ts
  | n + 1, level, ts => do
    let (left, ts) ← unary n ts
    let (whole, ts) ← infixTail n level left ts
    match accept .question ts with
    | (true, ts) => .ok (.unwrap whole whole.loc?, ts)
    | (false, ts) => .ok (whole, ts)

def infixTail : Nat → Nat → Expr → List Token → Attempt (Expr × List Token)
  | 0, _, _, ts => exhausted ts
  | _ + 1, _, left, [] => .ok (left, [])
  | n + 1, level, left, t :: ts =>
    match Infix.ofToken? t.kind with
    | none => .ok (left, t :: ts)
    | some sign =>
      if sign.precedence < level then .ok (left, t :: ts)
      else match sign with
        | .is => do
          let (pattern, ts) ← pattern ts
          infixTail n level (.isPattern left pattern (left.loc? <|> some t.loc)) ts
        | .op op => do
          let (right, ts) ← expression n (sign.precedence + 1) ts
          infixTail n level (.binary op left right (left.loc? <|> some t.loc)) ts

def unary : Nat → List Token → Attempt (Expr × List Token)
  | 0, ts => exhausted ts
  | n + 1, ⟨.symbol .bang, pos⟩ :: ts => do
    let (operand, ts) ← unary n ts
    .ok (.unary .not operand (some (Loc.ofPos pos)), ts)
  | n + 1, ⟨.symbol .minus, pos⟩ :: ts => do
    let (operand, ts) ← unary n ts
    .ok (.unary .neg operand (some (Loc.ofPos pos)), ts)
  | n + 1, ⟨.symbol .amp, pos⟩ :: ts => do
    let (mutable, ts) := accept .kwMut ts
    let (operand, ts) ← unary n ts
    .ok (.unary (if mutable then .refMut else .ref) operand (some (Loc.ofPos pos)), ts)
  | n + 1, ts => primary n ts

/-- An operand with its calls, member accesses and indexings. -/
def primary : Nat → List Token → Attempt (Expr × List Token)
  | 0, ts => exhausted ts
  | n + 1, ts => do
    let (operand, ts) ← atom n ts
    suffixes n operand ts

def atom : Nat → List Token → Attempt (Expr × List Token)
  | 0, ts => exhausted ts
  | _ + 1, ⟨.number value suffix, pos⟩ :: ts => .ok (.number value suffix (some (Loc.ofPos pos)), ts)
  | _ + 1, ⟨.float value, pos⟩ :: ts => .ok (.float value (some (Loc.ofPos pos)), ts)
  | _ + 1, ⟨.symbol .kwTrue, pos⟩ :: ts => .ok (.bool true (some (Loc.ofPos pos)), ts)
  | _ + 1, ⟨.symbol .kwFalse, pos⟩ :: ts => .ok (.bool false (some (Loc.ofPos pos)), ts)
  | _ + 1, ⟨.string value, pos⟩ :: ts => .ok (.string value (some (Loc.ofPos pos)), ts)
  | _ + 1, ⟨.char value, pos⟩ :: ts => .ok (.char value (some (Loc.ofPos pos)), ts)
  | n + 1, ⟨.symbol .lparen, _⟩ :: ts => do
    let (inner, ts) ← expression n 0 ts
    let ((), ts) ← expect .rparen "after expression" ts
    .ok (inner, ts)
  | n + 1, ⟨.symbol .lbrace, pos⟩ :: ts => do
    let (body, ts) ← block n ⟨.symbol .lbrace, pos⟩ ts
    .ok (.block body, ts)
  | n + 1, ⟨.symbol .kwIf, pos⟩ :: ts => do
    let ((), ts) ← expect .lparen "after if" ts
    let (condition, ts) ← expression n 0 ts
    let ((), ts) ← expect .rparen "after if condition" ts
    let (thenBranch, ts) ← branch n ts
    match accept .kwElse ts with
    | (false, ts) => .ok (.ite condition thenBranch none (some (Loc.ofPos pos)), ts)
    | (true, ts) =>
      let (elseBranch, ts) ← branch n ts
      .ok (.ite condition thenBranch (some elseBranch) (some (Loc.ofPos pos)), ts)
  | n + 1, ⟨.symbol .kwMatch, pos⟩ :: ts => do
    let ((), ts) ← expect .lparen "after match" ts
    let (target, ts) ← expression n 0 ts
    let ((), ts) ← expect .rparen "after match target" ts
    let ((), ts) ← expect .lbrace "for match" ts
    let (cases, ts) ← matchCases n ts
    let ((), ts) ← expect .rbrace "for match" ts
    .ok (.matchOn target cases (some (Loc.ofPos pos)), ts)
  | n + 1, ⟨.ident name, pos⟩ :: ts =>
    match accept .lbrace ts with
    | (false, ts) => .ok (.ident name (some (Loc.ofPos pos)), ts)
    | (true, ts) => do
      let (fields, ts) ← if startsWith .rbrace ts then .ok ([], ts) else fieldInits n ts
      let ((), ts) ← expect .rbrace "in struct init" ts
      .ok (.structInit name fields (some (Loc.ofPos pos)), ts)
  | _ + 1, ts => fail (.unexpectedToken (kind ts)) ts

/-- A block, or any expression. -/
def branch : Nat → List Token → Attempt (Expr × List Token)
  | 0, ts => exhausted ts
  | n + 1, ⟨.symbol .lbrace, pos⟩ :: ts => do
    let (body, ts) ← block n ⟨.symbol .lbrace, pos⟩ ts
    .ok (.block body, ts)
  | n + 1, ts => expression n 0 ts

/-- The cases of a match, up to its closing brace. -/
def matchCases : Nat → List Token → Attempt (List MatchCase × List Token)
  | 0, ts => exhausted ts
  | n + 1, ⟨.symbol .kwCase, _⟩ :: ts => do
    let (pattern, ts) ← pattern ts
    let ((), ts) ← expect .assign "after case pattern" ts
    let (body, ts) ← branch n ts
    let ((), ts) ← expect .semicolon "after case body" ts
    let (rest, ts) ← matchCases n ts
    .ok (⟨pattern, body⟩ :: rest, ts)
  | _ + 1, ts => if startsWith .rbrace ts then .ok ([], ts) else fail (.expectedCase (kind ts)) ts

/-- One or more `key: value` with commas between them; a comma may also close the list. -/
def fieldInits : Nat → List Token → Attempt (List FieldInit × List Token)
  | 0, ts => exhausted ts
  | n + 1, ts => do
    let (key, ts) ← ident ts
    let ((), ts) ← expect .colon "in struct init" ts
    let (value, ts) ← expression n 0 ts
    match accept .comma ts with
    | (false, ts) => .ok ([⟨key, value⟩], ts)
    | (true, ts) =>
      if startsWith .rbrace ts then .ok ([⟨key, value⟩], ts)
      else
        let (rest, ts) ← fieldInits n ts
        .ok (⟨key, value⟩ :: rest, ts)

def suffixes : Nat → Expr → List Token → Attempt (Expr × List Token)
  | 0, _, ts => exhausted ts
  | n + 1, base, ⟨.symbol .lparen, _⟩ :: ts => do
    let (args, ts) ← if startsWith .rparen ts then .ok ([], ts) else arguments n ts
    let ((), ts) ← expect .rparen "after call args" ts
    suffixes n (callOf base args) ts
  | n + 1, base, ⟨.symbol .dot, _⟩ :: ts => do
    let (property, ts) ← ident ts
    suffixes n (.member base property base.loc?) ts
  | n + 1, base, ⟨.symbol .lbracket, pos⟩ :: ts => do
    let (position, ts) ← expression n 0 ts
    let ((), ts) ← expect .rbracket "after index" ts
    suffixes n (.index base position (base.loc? <|> some (Loc.ofPos pos))) ts
  | _ + 1, base, ts => .ok (base, ts)

/-- One or more expressions with commas between them. -/
def arguments : Nat → List Token → Attempt (List Expr × List Token)
  | 0, ts => exhausted ts
  | n + 1, ts => do
    let (first, ts) ← expression n 0 ts
    match accept .comma ts with
    | (false, ts) => .ok ([first], ts)
    | (true, ts) =>
      let (rest, ts) ← arguments n ts
      .ok (first :: rest, ts)

/-- The rest of a block whose opening brace was read. -/
def block : Nat → Token → List Token → Attempt (Block × List Token)
  | 0, _, ts => exhausted ts
  | n + 1, opening, ts => do
    let (statements, ts) ← statements n ts
    let ((), ts) ← expect .rbrace "" ts
    .ok (⟨statements, some opening.loc⟩, ts)

/-- A block that has to come next. -/
def requiredBlock : Nat → List Token → Attempt (Block × List Token)
  | 0, ts => exhausted ts
  | n + 1, ⟨.symbol .lbrace, pos⟩ :: ts => block n ⟨.symbol .lbrace, pos⟩ ts
  | _ + 1, ts => fail (.expectedSymbol .lbrace "" (kind ts)) ts

/-- Statements up to a closing brace or the end. -/
def statements : Nat → List Token → Attempt (List Stmt × List Token)
  | 0, ts => exhausted ts
  | n + 1, ts =>
    if startsWith .rbrace ts || atEnd ts then .ok ([], ts)
    else do
      let (first, ts) ← statement n ts
      let (rest, ts) ← statements n ts
      .ok (first :: rest, ts)

def statement : Nat → List Token → Attempt (Stmt × List Token)
  | 0, ts => exhausted ts
  | n + 1, ⟨.symbol .kwOut, _⟩ :: ⟨.symbol .kwFn, pos⟩ :: ts => fnDecl n true pos ts
  | n + 1, ⟨.symbol .kwOut, _⟩ :: ⟨.symbol .kwStruct, pos⟩ :: ts => structDecl n true pos ts
  | n + 1, ⟨.symbol .kwOut, _⟩ :: ⟨.symbol .kwEnum, pos⟩ :: ts => enumDecl n true pos ts
  | n + 1, ⟨.symbol .kwOut, _⟩ :: ⟨.symbol .kwType, pos⟩ :: ts => typeAlias n true pos ts
  | _ + 1, ⟨.symbol .kwOut, _⟩ :: ts => fail .expectedDeclaration ts
  | n + 1, ⟨.symbol .kwLet, pos⟩ :: ts => do
    let (name, ts) ← ident ts
    let (type, ts) ← annotation n ts
    let ((), ts) ← expect .assign "in let declaration" ts
    let (value, ts) ← expression n 0 ts
    let ((), ts) ← expect .semicolon "after let declaration" ts
    .ok (.letDecl name type value (some (Loc.ofPos pos)), ts)
  | n + 1, ⟨.symbol .kwStruct, pos⟩ :: ts => structDecl n false pos ts
  | n + 1, ⟨.symbol .kwEnum, pos⟩ :: ts => enumDecl n false pos ts
  | n + 1, ⟨.symbol .kwType, pos⟩ :: ts => typeAlias n false pos ts
  | n + 1, ⟨.symbol .kwFn, pos⟩ :: ts => fnDecl n false pos ts
  | n + 1, ⟨.symbol .kwForeign, pos⟩ :: ts => foreignItem n pos ts
  | n + 1, ⟨.symbol .kwReturn, pos⟩ :: ts => do
    let (value, ts) ← if startsWith .semicolon ts then .ok (none, ts) else do
      let (value, ts) ← expression n 0 ts
      .ok (some value, ts)
    let ((), ts) ← expect .semicolon "after return" ts
    .ok (.ret value (some (Loc.ofPos pos)), ts)
  | n + 1, ⟨.symbol .kwIf, pos⟩ :: ts => do
    let (whole, ts) ← primary n (⟨.symbol .kwIf, pos⟩ :: ts)
    match ifStatement? whole with
    | some stmt => .ok (stmt, ts)
    | none =>
      let ((), ts) ← expect .semicolon "after if expression statement" ts
      .ok (.expr whole whole.loc?, ts)
  | n + 1, ⟨.symbol .kwWhile, pos⟩ :: ts => do
    let ((), ts) ← expect .lparen "after while" ts
    let (condition, ts) ← expression n 0 ts
    let ((), ts) ← expect .rparen "after while condition" ts
    let (body, ts) ← requiredBlock n ts
    .ok (.whileLoop condition body (some (Loc.ofPos pos)), ts)
  | n + 1, ⟨.symbol .kwFor, pos⟩ :: ts => do
    let ((), ts) ← expect .lparen "after for" ts
    let (iterator, ts) ← ident ts
    let ((), ts) ← expect .kwIn "in for loop" ts
    let (first, ts) ← expression n 0 ts
    let ((), ts) ← expect .dotDot "in for range" ts
    let (last, ts) ← expression n 0 ts
    let ((), ts) ← expect .rparen "after for header" ts
    let (body, ts) ← requiredBlock n ts
    .ok (.forLoop iterator first last body (some (Loc.ofPos pos)), ts)
  | _ + 1, ⟨.symbol .kwBreak, pos⟩ :: ts => do
    let ((), ts) ← expect .semicolon "after break" ts
    .ok (.breakLoop (some (Loc.ofPos pos)), ts)
  | _ + 1, ⟨.symbol .kwContinue, pos⟩ :: ts => do
    let ((), ts) ← expect .semicolon "after continue" ts
    .ok (.continueLoop (some (Loc.ofPos pos)), ts)
  | n + 1, ⟨.symbol .lbrace, pos⟩ :: ts => do
    let (body, ts) ← block n ⟨.symbol .lbrace, pos⟩ ts
    .ok (.block body, ts)
  | n + 1, ts => expressionStatement n ts

/-- An assignment or an expression. The semicolon of an expression may be left out before a closing
brace, and behind a match or a block. -/
def expressionStatement : Nat → List Token → Attempt (Stmt × List Token)
  | 0, ts => exhausted ts
  | n + 1, ts => do
    let (target, ts) ← expression n 0 ts
    match accept .assign ts with
    | (true, ts) =>
      let (value, ts) ← expression n 0 ts
      let ((), ts) ← expect .semicolon "after assignment" ts
      .ok (.assign target value target.loc?, ts)
    | (false, ts) =>
      match accept .semicolon ts with
      | (true, ts) => .ok (.expr target target.loc?, ts)
      | (false, ts) =>
        if startsWith .rbrace ts || target.isMatch || target.isBlock then
          .ok (.expr target target.loc?, ts)
        else fail (.expectedSymbol .semicolon "after expression statement" (kind ts)) ts

/-- A function whose keyword stands at `pos`. -/
def fnDecl : Nat → Bool → Pos → List Token → Attempt (Stmt × List Token)
  | 0, _, _, ts => exhausted ts
  | n + 1, exported, pos, ts => do
    let (decl, ts) ← signature n pos ts
    let ((), ts) ← expect .fatArrow "in function declaration" ts
    let (body, ts) ← fnBody n ts
    .ok (.fnDecl { decl with body := some body, exported := exported }, ts)

/-- Name, generics, parameters and return type of a function. -/
def signature : Nat → Pos → List Token → Attempt (FnDecl × List Token)
  | 0, _, ts => exhausted ts
  | n + 1, pos, ts => do
    let (name, ts) ← ident ts
    let (generics, ts) ← generics ts
    let ((), ts) ← expect .lparen "in function declaration" ts
    let (params, ts) ← if startsWith .rparen ts then .ok ([], ts) else params n ts
    let ((), ts) ← expect .rparen "after params" ts
    let (returnType, ts) ← annotation n ts
    .ok (⟨name, generics, params, returnType, none, false, some (Loc.ofPos pos)⟩, ts)

/-- A block with an optional semicolon, or an expression whose semicolon may be left out before a
closing brace or the end. -/
def fnBody : Nat → List Token → Attempt (Expr × List Token)
  | 0, ts => exhausted ts
  | n + 1, ⟨.symbol .lbrace, pos⟩ :: ts => do
    let (body, ts) ← block n ⟨.symbol .lbrace, pos⟩ ts
    .ok (.block body, (accept .semicolon ts).2)
  | n + 1, ts => do
    let (body, ts) ← expression n 0 ts
    if startsWith .rbrace ts || atEnd ts then .ok (body, ts)
    else
      let ((), ts) ← expect .semicolon "after expression function" ts
      .ok (body, ts)

/-- One or more parameters with commas between them. -/
def params : Nat → List Token → Attempt (List Param × List Token)
  | 0, ts => exhausted ts
  | n + 1, ts => do
    let (name, ts) ← ident ts
    let (type, ts) ← annotation n ts
    match accept .comma ts with
    | (false, ts) => .ok ([⟨name, type⟩], ts)
    | (true, ts) =>
      let (rest, ts) ← params n ts
      .ok (⟨name, type⟩ :: rest, ts)

def structDecl : Nat → Bool → Pos → List Token → Attempt (Stmt × List Token)
  | 0, _, _, ts => exhausted ts
  | n + 1, exported, pos, ts => do
    let (name, ts) ← ident ts
    let (generics, ts) ← generics ts
    let ((), ts) ← expect .lbrace "after struct name" ts
    let (fields, ts) ← fieldDecls n ts
    let ((), ts) ← expect .rbrace "after struct body" ts
    .ok (.structDecl ⟨name, generics, fields, exported, some (Loc.ofPos pos)⟩, ts)

/-- The fields of a struct body; each may be followed by a comma or a semicolon. -/
def fieldDecls : Nat → List Token → Attempt (List FieldDecl × List Token)
  | 0, ts => exhausted ts
  | n + 1, ts =>
    if startsWith .rbrace ts || atEnd ts then .ok ([], ts)
    else do
      let (name, ts) ← ident ts
      let ((), ts) ← expect .colon "in struct field" ts
      let (type, ts) ← typeExpr n ts
      let ts := match accept .comma ts with
        | (true, ts) => ts
        | (false, ts) => (accept .semicolon ts).2
      let (rest, ts) ← fieldDecls n ts
      .ok (⟨name, type⟩ :: rest, ts)

def enumDecl : Nat → Bool → Pos → List Token → Attempt (Stmt × List Token)
  | 0, _, _, ts => exhausted ts
  | _ + 1, exported, pos, ts => do
    let (name, ts) ← ident ts
    let ((), ts) ← expect .lbrace "after enum name" ts
    let (variants, ts) ← variants ts
    let ((), ts) ← expect .rbrace "after enum body" ts
    .ok (.enumDecl ⟨name, variants, exported, some (Loc.ofPos pos)⟩, ts)

def typeAlias : Nat → Bool → Pos → List Token → Attempt (Stmt × List Token)
  | 0, _, _, ts => exhausted ts
  | n + 1, exported, pos, ts => do
    let (name, ts) ← ident ts
    let (generics, ts) ← generics ts
    let ((), ts) ← expect .assign "for type alias" ts
    let (target, ts) ← typeExpr n ts
    let ((), ts) ← expect .semicolon "after type alias" ts
    .ok (.typeAlias name generics target exported (some (Loc.ofPos pos)), ts)

/-- A function, variable or type defined elsewhere. -/
def foreignItem : Nat → Pos → List Token → Attempt (Stmt × List Token)
  | 0, _, ts => exhausted ts
  | n + 1, pos, ⟨.symbol .kwFn, _⟩ :: ts => do
    let (decl, ts) ← signature n pos ts
    let ((), ts) ← expect .semicolon "after extern fn" ts
    .ok (.foreignFn decl, ts)
  | n + 1, pos, ⟨.symbol .kwLet, _⟩ :: ts => do
    let (name, ts) ← ident ts
    let ((), ts) ← expect .colon "in extern let" ts
    let (type, ts) ← typeExpr n ts
    let ((), ts) ← expect .semicolon "after extern let" ts
    .ok (.foreignLet name type (some (Loc.ofPos pos)), ts)
  | _ + 1, pos, ⟨.symbol .kwType, _⟩ :: ts => do
    let (name, ts) ← ident ts
    let (generics, ts) ← generics ts
    let ((), ts) ← expect .semicolon "after extern type" ts
    .ok (.foreignType name generics (some (Loc.ofPos pos)), ts)
  | _ + 1, _, ts => fail .expectedForeignItem ts

end

/-- Statements up to the end of the tokens. -/
def topLevel : Nat → List Token → Attempt (List Stmt)
  | 0, ts => fail .exhausted ts
  | n + 1, ts =>
    if atEnd ts then .ok []
    else do
      let (first, ts) ← statement n ts
      let rest ← topLevel n ts
      .ok (first :: rest)

/-- More calls than can be nested while reading that many tokens. -/
def allowance (tokens : Nat) : Nat :=
  8 * tokens + 8

end Parse

/-- The program that a token list spells. -/
def Program.parse (tokens : List Token) : Except (Located ParseFault) Program := do
  let body ← Parse.topLevel (Parse.allowance tokens.length) tokens
  .ok ⟨body⟩

end TuffSafety
