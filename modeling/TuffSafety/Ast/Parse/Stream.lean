import TuffSafety.Ast
import TuffSafety.Token

/-!
# Reading from a token list

A reader takes the tokens that are left and gives a value with the tokens behind it, or a fault
blamed on the first token left. The end token is never passed over.
-/
namespace TuffSafety

/-- Why tokens do not form a program. -/
inductive ParseFault where
  /-- A symbol was required at some place of a construct. -/
  | expectedSymbol (symbol : Symbol) (place : String) (found : TokenKind)
  | expectedCase (found : TokenKind)
  | expectedDeclaration
  | expectedForeignItem
  | expectedIdentifier (found : TokenKind)
  | unexpectedToken (found : TokenKind)
  | invalidPattern (found : TokenKind)
  /-- The recursion allowance ran out. -/
  | exhausted

namespace Parse

abbrev Attempt : Type → Type :=
  Except (Located ParseFault)

/-- The kind of the first token left. -/
def kind : List Token → TokenKind
  | [] => .eof
  | t :: _ => t.kind

def place? : List Token → Option Loc
  | [] => none
  | t :: _ => some t.loc

/-- Fails at the first token left. -/
def fail {α : Type} (cause : ParseFault) (ts : List Token) : Attempt α :=
  .error ⟨cause, place? ts⟩

def startsWith (s : Symbol) : List Token → Bool
  | ⟨.symbol s', _⟩ :: _ => s' = s
  | _ => false

/-- Whether no token but the end is left. -/
def atEnd : List Token → Bool
  | [] => true
  | ⟨.eof, _⟩ :: _ => true
  | _ => false

/-- Passes over a symbol if it comes first, and tells whether it did. -/
def accept (s : Symbol) : List Token → Bool × List Token
  | ⟨.symbol s', pos⟩ :: ts => if s' = s then (true, ts) else (false, ⟨.symbol s', pos⟩ :: ts)
  | ts => (false, ts)

/-- Passes over a symbol that has to come first. -/
def expect (s : Symbol) (place : String) (ts : List Token) : Attempt (Unit × List Token) :=
  match accept s ts with
  | (true, rest) => .ok ((), rest)
  | (false, ts) => fail (.expectedSymbol s place (kind ts)) ts

def ident : List Token → Attempt (String × List Token)
  | ⟨.ident name, _⟩ :: ts => .ok (name, ts)
  | ts => fail (.expectedIdentifier (kind ts)) ts

/-- One or more names with commas between them. -/
def identList : List Token → Attempt (List String × List Token)
  | ⟨.ident name, _⟩ :: ⟨.symbol .comma, _⟩ :: ts => do
    let (names, ts) ← identList ts
    .ok (name :: names, ts)
  | ⟨.ident name, _⟩ :: ts => .ok ([name], ts)
  | ts => fail (.expectedIdentifier (kind ts)) ts

/-- Names between angle brackets, or nothing. -/
def generics (ts : List Token) : Attempt (List String × List Token) :=
  match accept .lt ts with
  | (false, ts) => .ok ([], ts)
  | (true, ts) => do
    let (names, ts) ← if startsWith .gt ts then .ok ([], ts) else identList ts
    let ((), ts) ← expect .gt "after generics" ts
    .ok (names, ts)

/-- The further parts of a name qualified by `::`. -/
def nameTail : List Token → Attempt (String × List Token)
  | ⟨.symbol .colonColon, _⟩ :: ⟨.ident part, _⟩ :: ts => do
    let (rest, ts) ← nameTail ts
    .ok ("::" ++ part ++ rest, ts)
  | ⟨.symbol .colonColon, _⟩ :: ts => fail (.expectedIdentifier (kind ts)) ts
  | ts => .ok ("", ts)

def qualifiedName (ts : List Token) : Attempt (String × List Token) := do
  let (name, ts) ← ident ts
  let (rest, ts) ← nameTail ts
  .ok (name ++ rest, ts)

/-- The names of an enum body; each may be followed by a comma or a semicolon. -/
def variants : List Token → Attempt (List String × List Token)
  | ⟨.ident name, _⟩ :: ⟨.symbol .comma, _⟩ :: ts => do
    let (names, ts) ← variants ts
    .ok (name :: names, ts)
  | ⟨.ident name, _⟩ :: ⟨.symbol .semicolon, _⟩ :: ts => do
    let (names, ts) ← variants ts
    .ok (name :: names, ts)
  | ⟨.ident name, _⟩ :: ts => do
    let (names, ts) ← variants ts
    .ok (name :: names, ts)
  | ts =>
    if startsWith .rbrace ts || atEnd ts then .ok ([], ts)
    else fail (.expectedIdentifier (kind ts)) ts

/-- A pattern. A struct pattern binds each field to its own name. -/
def pattern : List Token → Attempt (Pattern × List Token)
  | ⟨.ident name, _⟩ :: ts =>
    if name = "_" then .ok (.wildcard, ts)
    else match accept .lbrace ts with
      | (false, ts) => .ok (.name name, ts)
      | (true, ts) => do
        let (fields, ts) ← if startsWith .rbrace ts then .ok ([], ts) else identList ts
        let ((), ts) ← expect .rbrace "in pattern" ts
        .ok (.struct name (fields.map fun f => ⟨f, f⟩), ts)
  | ⟨.number value _, _⟩ :: ts => .ok (.literal (.int value), ts)
  | ⟨.symbol .kwTrue, _⟩ :: ts => .ok (.literal (.bool true), ts)
  | ⟨.symbol .kwFalse, _⟩ :: ts => .ok (.literal (.bool false), ts)
  | ⟨.string value, _⟩ :: ts => .ok (.literal (.str value), ts)
  | ts => fail (.invalidPattern (kind ts)) ts

/-- What stands between two operands. -/
inductive Infix where
  | op (op : BinaryOp)
  /-- The pattern test `is`. -/
  | is
deriving DecidableEq, Repr

namespace Infix

def ofSymbol? : Symbol → Option Infix
  | .orOr => some (op .or)
  | .andAnd => some (op .and)
  | .eq => some (op .eq)
  | .ne => some (op .ne)
  | .lt => some (op .lt)
  | .le => some (op .le)
  | .gt => some (op .gt)
  | .ge => some (op .ge)
  | .kwIs => some is
  | .plus => some (op .add)
  | .minus => some (op .sub)
  | .star => some (op .mul)
  | .slash => some (op .div)
  | .percent => some (op .mod)
  | _ => none

def ofToken? : TokenKind → Option Infix
  | .symbol s => ofSymbol? s
  | _ => none

/-- How strongly operands are bound. -/
def precedence : Infix → Nat
  | op .or => 1
  | op .and => 2
  | op .eq | op .ne => 3
  | op .lt | op .le | op .gt | op .ge | is => 4
  | op .add | op .sub => 5
  | op .mul | op .div | op .mod => 6

end Infix

/-- The operator of a refinement type. -/
def refinementOp? : TokenKind → Option BinaryOp
  | .symbol .ne => some .ne
  | .symbol .eq => some .eq
  | .symbol .lt => some .lt
  | .symbol .le => some .le
  | .symbol .gt => some .gt
  | .symbol .ge => some .ge
  | _ => none

def startsType : TokenKind → Bool
  | .ident _ | .symbol .star | .symbol .lbracket | .symbol .lparen => true
  | _ => false

def startsRefinementValue : TokenKind → Bool
  | .number .. | .float _ | .ident _ | .string _ | .char _
  | .symbol .kwTrue | .symbol .kwFalse | .symbol .lparen | .symbol .minus | .symbol .bang => true
  | _ => false

end Parse

end TuffSafety
