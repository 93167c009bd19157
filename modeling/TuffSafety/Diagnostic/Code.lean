/-!
# Diagnostic codes

Every fault is classified by a code whose text is stable, so that tools can match on it.
-/
namespace TuffSafety

inductive Code where
  | lexUnexpectedChar
  | lexUnterminatedString
  | lexUnterminatedChar
  | lexUnterminatedComment
  | lexInvalidNumber
  | parseExpectedToken
  | parseUnexpectedToken
  | parseExpectedIdentifier
  | parseInvalidPattern
  | typeUnknownStruct
  | typeUnknownField
  | typeArityMismatch
  | typeMismatch
  | safetyDivByZero
  | safetyModByZero
  | safetyOverflow
  | safetyOverflowUnproven
  | safetyArrayBounds
  | safetyArrayBoundsUnproven
  | safetyNonZeroRefinement
  | safetyNullablePointerGuard
  | matchNonExhaustive
  | generic
deriving DecidableEq, Repr

namespace Code

def all : List Code :=
  [lexUnexpectedChar, lexUnterminatedString, lexUnterminatedChar, lexUnterminatedComment,
    lexInvalidNumber, parseExpectedToken, parseUnexpectedToken, parseExpectedIdentifier,
    parseInvalidPattern, typeUnknownStruct, typeUnknownField, typeArityMismatch, typeMismatch,
    safetyDivByZero, safetyModByZero, safetyOverflow, safetyOverflowUnproven, safetyArrayBounds,
    safetyArrayBoundsUnproven, safetyNonZeroRefinement, safetyNullablePointerGuard,
    matchNonExhaustive, generic]

def text : Code → String
  | lexUnexpectedChar => "E_LEX_UNEXPECTED_CHARACTER"
  | lexUnterminatedString => "E_LEX_UNTERMINATED_STRING"
  | lexUnterminatedChar => "E_LEX_UNTERMINATED_CHAR"
  | lexUnterminatedComment => "E_LEX_UNTERMINATED_BLOCK_COMMENT"
  | lexInvalidNumber => "E_LEX_INVALID_NUMBER"
  | parseExpectedToken => "E_PARSE_EXPECTED_TOKEN"
  | parseUnexpectedToken => "E_PARSE_UNEXPECTED_TOKEN"
  | parseExpectedIdentifier => "E_PARSE_EXPECTED_IDENTIFIER"
  | parseInvalidPattern => "E_PARSE_INVALID_PATTERN"
  | typeUnknownStruct => "E_TYPE_UNKNOWN_STRUCT"
  | typeUnknownField => "E_TYPE_UNKNOWN_FIELD"
  | typeArityMismatch => "E_TYPE_ARITY_MISMATCH"
  | typeMismatch => "E_TYPE_MISMATCH"
  | safetyDivByZero => "E_SAFETY_DIV_BY_ZERO"
  | safetyModByZero => "E_SAFETY_MOD_BY_ZERO"
  | safetyOverflow => "E_SAFETY_OVERFLOW"
  | safetyOverflowUnproven => "E_SAFETY_OVERFLOW_UNPROVEN"
  | safetyArrayBounds => "E_SAFETY_ARRAY_BOUNDS"
  | safetyArrayBoundsUnproven => "E_SAFETY_ARRAY_BOUNDS_UNPROVEN"
  | safetyNonZeroRefinement => "E_SAFETY_NONZERO_REFINEMENT"
  | safetyNullablePointerGuard => "E_SAFETY_NULLABLE_POINTER_GUARD"
  | matchNonExhaustive => "E_MATCH_NON_EXHAUSTIVE"
  | generic => "E_GENERIC"

/-- What a code means, in one line. -/
def summary : Code → String
  | lexUnexpectedChar => "The source contains a character that does not start any token."
  | lexUnterminatedString => "A string literal is missing its closing quote."
  | lexUnterminatedChar => "A character literal is missing its closing quote."
  | lexUnterminatedComment => "A block comment is missing its closing '*/'."
  | lexInvalidNumber => "A numeric literal is malformed or does not fit in 64 bits."
  | parseExpectedToken => "The parser required a specific token here."
  | parseUnexpectedToken =>
    "The parser found a token that cannot start or continue this construct."
  | parseExpectedIdentifier => "A name was required here."
  | parseInvalidPattern => "A match or 'is' pattern is malformed."
  | typeUnknownStruct => "A struct literal names a struct that was never declared."
  | typeUnknownField =>
    "A struct literal or member access names a field the struct does not declare."
  | typeArityMismatch =>
    "A call passes a different number of arguments than the function declares."
  | typeMismatch => "A value's type is not assignable to the type its context expects."
  | safetyDivByZero => "A division's denominator was not proven non-zero."
  | safetyModByZero => "A modulo's divisor was not proven non-zero."
  | safetyOverflow => "Integer arithmetic is proven able to leave the 32-bit signed range."
  | safetyOverflowUnproven =>
    "Integer arithmetic could not be bounded, so overflow safety is unproven."
  | safetyArrayBounds =>
    "An index is proven able to fall outside the initialized length of an array."
  | safetyArrayBoundsUnproven =>
    "An index or array length could not be bounded, so bounds safety is unproven."
  | safetyNonZeroRefinement =>
    "A value flowing into a '!= 0' refined slot was not proven non-zero."
  | safetyNullablePointerGuard =>
    "A nullable pointer was used before being guarded against null."
  | matchNonExhaustive => "A match over a union type does not cover every member."
  | generic => "An error without a more specific code."

def ofText? (text : String) : Option Code :=
  all.find? fun code => code.text == text

def unknownMessage (text : String) : String :=
  s!"unknown error code '{text}'"

/-- Whether faults of this code are raised only by the strict safety checks. -/
def isSafety : Code → Bool
  | safetyDivByZero | safetyModByZero | safetyOverflow | safetyOverflowUnproven | safetyArrayBounds
  | safetyArrayBoundsUnproven | safetyNonZeroRefinement | safetyNullablePointerGuard
  | matchNonExhaustive => true
  | _ => false

theorem mem_all (code : Code) : code ∈ all := by
  cases code <;> decide

end Code

end TuffSafety
