import TuffSafety.Ast.Parse.Stream
import TuffSafety.Checker.Fault
import TuffSafety.Diagnostic.Report
import TuffSafety.Token.Scan
import TuffSafety.TypeInfo

/-!
# Wording of faults

The code, message, hint and explanation of every cause of failure.
-/
namespace TuffSafety

namespace LexFault

def code : LexFault → Code
  | unexpectedChar _ => .lexUnexpectedChar
  | unterminatedString => .lexUnterminatedString
  | unterminatedChar => .lexUnterminatedChar
  | unterminatedComment => .lexUnterminatedComment
  | invalidNumber _ => .lexInvalidNumber

def message : LexFault → String
  | unexpectedChar c => s!"Unexpected character '{c}'"
  | unterminatedString => "Unterminated string literal"
  | unterminatedChar => "Unterminated char literal"
  | unterminatedComment => "Unterminated block comment"
  | invalidNumber digits => s!"Invalid numeric literal '{digits}'"

def hint : LexFault → String
  | unexpectedChar _ => "Remove the character or replace it with valid syntax."
  | unterminatedString => "Close the string with a matching double quote."
  | unterminatedChar => "Close the char literal with a matching single quote."
  | unterminatedComment => "Close the comment with */."
  | invalidNumber _ => "Integer literals must fit in a signed 64-bit value."

def report (fault : LexFault) (pos : Pos) : Report where
  code := fault.code
  message := fault.message
  loc := some (Loc.ofPos pos)
  hint := some fault.hint

end LexFault

namespace ParseFault

def code : ParseFault → Code
  | expectedSymbol .. | expectedCase _ | expectedDeclaration | expectedForeignItem =>
    .parseExpectedToken
  | expectedIdentifier _ => .parseExpectedIdentifier
  | unexpectedToken _ => .parseUnexpectedToken
  | invalidPattern _ => .parseInvalidPattern
  | exhausted => .generic

def message : ParseFault → String
  | expectedSymbol symbol place found =>
    let gap := if place.isEmpty then "" else " "
    s!"Expected '{symbol.spelling}'{gap}{place}, got {found.describe}"
  | expectedCase found => s!"Expected case in match, got {found.describe}"
  | expectedDeclaration => "Expected declaration after 'out'"
  | expectedForeignItem => "Expected 'fn', 'let', or 'type' after 'extern'"
  | expectedIdentifier found => s!"Expected identifier, got {found.describe}"
  | unexpectedToken found => s!"Unexpected token {found.describe}"
  | invalidPattern found => s!"Expected pattern, got {found.describe}"
  | exhausted => "The program is nested too deeply"

def hint : ParseFault → Option String
  | expectedSymbol .. | expectedCase _ =>
    some "Check token order, punctuation, and delimiters around this location."
  | expectedDeclaration =>
    some "Use 'out' before a top-level fn/struct/enum/type declaration."
  | unexpectedToken _ => some "Ensure expressions and statements use valid Tuff syntax."
  | expectedForeignItem | expectedIdentifier _ | invalidPattern _ | exhausted => none

def report (fault : ParseFault) (loc : Option Loc) : Report where
  code := fault.code
  message := fault.message
  loc := loc
  hint := fault.hint

end ParseFault

namespace Slot

/-- How a value that does not fit is introduced. -/
def text : Slot → String
  | initializer name => s!"Initializer of '{name}'"
  | assignment name => s!"Assignment to '{name}'"
  | returned => "Return value"
  | body function => s!"Body of '{function}'"
  | argument param function => s!"Argument '{param}' of '{function}'"
  | field name struct => s!"Field '{name}' of '{struct}'"

/-- How a slot that asks something of its values is introduced. -/
def requirer : Slot → String
  | argument param function => s!"Parameter '{param}' of '{function}'"
  | slot => slot.text

end Slot

def Guard.text : Guard → String
  | ifBranch => "If"
  | whileLoop => "While"

namespace CheckFault

def code : CheckFault → Code
  | mismatch .. | logicalOperand .. | arithmeticOperand .. | notOperand _ | negOperand _
  | conditionNotBool .. | rangeBound _ | returnFromVoid _ => .typeMismatch
  | unknownStruct _ => .typeUnknownStruct
  | unknownField .. => .typeUnknownField
  | arity .. => .typeArityMismatch
  | mayBeZero _ => .safetyNonZeroRefinement
  | divisorMayBeZero => .safetyDivByZero
  | moduloMayBeZero => .safetyModByZero
  | overflow .. => .safetyOverflow
  | overflowUnproven _ => .safetyOverflowUnproven
  | indexOutOfBounds .. => .safetyArrayBounds
  | indexUnproven => .safetyArrayBoundsUnproven
  | nullArgument .. | nullMember _ | nullIndex => .safetyNullablePointerGuard
  | nonExhaustive _ => .matchNonExhaustive

def message : CheckFault → String
  | mismatch slot expected actual => s!"{slot.text}: expected {expected}, got {actual}"
  | logicalOperand op actual =>
    s!"Logical operator '{op.symbol}' requires Bool operands, got {actual}"
  | arithmeticOperand op actual =>
    s!"Arithmetic operator '{op.symbol}' requires numeric operands, got {actual}"
  | notOperand actual => s!"Operator '!' requires a Bool operand, got {actual}"
  | negOperand actual => s!"Operator '-' requires a numeric operand, got {actual}"
  | conditionNotBool guard actual => s!"{guard.text} condition must be Bool, got {actual}"
  | rangeBound actual => s!"For range bounds must be numeric, got {actual}"
  | returnFromVoid actual => s!"Cannot return {actual} from a function returning Void"
  | unknownStruct name => s!"Unknown struct '{name}'"
  | unknownField struct field => s!"Struct '{struct}' has no field '{field}'"
  | arity function expected actual =>
    s!"Function '{function}' expects {expected} argument(s), got {actual}"
  | mayBeZero slot => s!"{slot.requirer} requires a non-zero value"
  | divisorMayBeZero => "Division denominator may be zero"
  | moduloMayBeZero => "Modulo divisor may be zero"
  | overflow op _ _ => s!"Integer overflow/underflow proven possible for '{op.symbol}'"
  | overflowUnproven op => s!"Cannot prove overflow safety for '{op.symbol}'"
  | indexOutOfBounds .. => "Array index may be out of bounds"
  | indexUnproven => "Cannot prove array index bound safety"
  | nullArgument param function =>
    s!"Nullable pointer passed to parameter '{param}' of '{function}'"
  | nullMember property => s!"Cannot access '{property}' through a nullable pointer"
  | nullIndex => "Cannot index through a nullable pointer"
  | nonExhaustive missing =>
    "Non-exhaustive match: missing case for " ++ ", ".intercalate missing

def hint : CheckFault → Option String
  | mismatch _ expected actual =>
    if TypeName.isUnsigned expected && TypeName.isNumeric actual then
      some ("Prove the value is >= 0 with a guard or refinement before narrowing into an unsigned "
        ++ "type.")
    else some "Change the value or the annotation so that the types agree."
  | logicalOperand .. => some "Compare the value explicitly, e.g. 'x != 0'."
  | arithmeticOperand .. => some "Only numeric types support arithmetic."
  | returnFromVoid _ => some "Remove the returned value or declare a return type."
  | unknownStruct _ => some "Declare the struct before constructing it."
  | arity function expected _ => some s!"Call '{function}' with exactly {expected} argument(s)."
  | mayBeZero _ =>
    some "Prove the value != 0 via a control-flow guard or a '!= 0' refinement."
  | divisorMayBeZero =>
    some "Prove denominator != 0 via refinement type or control-flow guard."
  | moduloMayBeZero => some "Prove modulo divisor != 0 via guard or refinement."
  | overflow .. => some "Constrain operands or use a larger intermediate numeric type."
  | overflowUnproven _ => some "Add range checks or widen arithmetic before narrowing."
  | indexOutOfBounds .. => some "Ensure 0 <= index < initialized length."
  | indexUnproven =>
    some "Guard the index against a literal bound or refine it, e.g. 'USize < 3'."
  | nullArgument .. | nullMember _ | nullIndex =>
    some "Guard the pointer with 'if (p != 0USize)' before using it."
  | nonExhaustive _ => some "Add missing case arms or a wildcard case '_'."
  | notOperand _ | negOperand _ | conditionNotBool .. | rangeBound _ | unknownField .. => none

def details : CheckFault → Option String
  | overflow _ low high => some s!"result range is [{low}, {high}]"
  | indexOutOfBounds low high length =>
    some s!"index is in [{low}, {high}], initialized length is {length}"
  | _ => none

def report (fault : CheckFault) (loc : Option Loc) : Report where
  code := fault.code
  message := fault.message
  loc := loc
  hint := fault.hint
  details := fault.details

end CheckFault

end TuffSafety
