import TuffSafety.Decimal.Layout
import TuffSafety.Location

/-!
# Tokens

The fixed symbols of the language, and the kinds of token that carry a value.
-/
namespace TuffSafety

/-- A keyword or a punctuation mark. -/
inductive Symbol where
  | kwFn | kwLet | kwStruct | kwEnum | kwType | kwMatch | kwCase | kwIf | kwElse | kwFor | kwWhile
  | kwIn | kwReturn | kwBreak | kwContinue | kwIs | kwForeign | kwMut | kwOut | kwTrue | kwFalse
  | lparen | rparen | lbrace | rbrace | lbracket | rbracket
  | comma | colon | colonColon | semicolon | dot | dotDot
  | plus | minus | star | slash | percent
  | lt | gt | le | ge | assign | eq | ne | bang | question
  | pipe | pipeGt | orOr | amp | andAnd | fatArrow
deriving DecidableEq, Repr

namespace Symbol

def spelling : Symbol → String
  | kwFn => "fn"
  | kwLet => "let"
  | kwStruct => "struct"
  | kwEnum => "enum"
  | kwType => "type"
  | kwMatch => "match"
  | kwCase => "case"
  | kwIf => "if"
  | kwElse => "else"
  | kwFor => "for"
  | kwWhile => "while"
  | kwIn => "in"
  | kwReturn => "return"
  | kwBreak => "break"
  | kwContinue => "continue"
  | kwIs => "is"
  | kwForeign => "extern"
  | kwMut => "mut"
  | kwOut => "out"
  | kwTrue => "true"
  | kwFalse => "false"
  | lparen => "("
  | rparen => ")"
  | lbrace => "\x7b"
  | rbrace => "\x7d"
  | lbracket => "["
  | rbracket => "]"
  | comma => ","
  | colon => ":"
  | colonColon => "::"
  | semicolon => ";"
  | dot => "."
  | dotDot => ".."
  | plus => "+"
  | minus => "-"
  | star => "*"
  | slash => "/"
  | percent => "%"
  | lt => "<"
  | gt => ">"
  | le => "<="
  | ge => ">="
  | assign => "="
  | eq => "=="
  | ne => "!="
  | bang => "!"
  | question => "?"
  | pipe => "|"
  | pipeGt => "|>"
  | orOr => "||"
  | amp => "&"
  | andAnd => "&&"
  | fatArrow => "=>"

/-- The keyword spelled by a word, if it is one. -/
def keyword? : String → Option Symbol
  | "fn" => some kwFn
  | "let" => some kwLet
  | "struct" => some kwStruct
  | "enum" => some kwEnum
  | "type" => some kwType
  | "match" => some kwMatch
  | "case" => some kwCase
  | "if" => some kwIf
  | "else" => some kwElse
  | "for" => some kwFor
  | "while" => some kwWhile
  | "in" => some kwIn
  | "return" => some kwReturn
  | "break" => some kwBreak
  | "continue" => some kwContinue
  | "is" => some kwIs
  | "extern" => some kwForeign
  | "mut" => some kwMut
  | "out" => some kwOut
  | "true" => some kwTrue
  | "false" => some kwFalse
  | _ => none

/-- The mark made of two characters, if they make one. -/
def ofPair? : Char → Char → Option Symbol
  | '=', '>' => some fatArrow
  | '=', '=' => some eq
  | '!', '=' => some ne
  | '<', '=' => some le
  | '>', '=' => some ge
  | '&', '&' => some andAnd
  | '|', '|' => some orOr
  | '|', '>' => some pipeGt
  | ':', ':' => some colonColon
  | '.', '.' => some dotDot
  | _, _ => none

/-- The mark made of a single character, if it makes one. -/
def ofChar? : Char → Option Symbol
  | '(' => some lparen
  | ')' => some rparen
  | '\x7b' => some lbrace
  | '\x7d' => some rbrace
  | '[' => some lbracket
  | ']' => some rbracket
  | ',' => some comma
  | ':' => some colon
  | ';' => some semicolon
  | '.' => some dot
  | '+' => some plus
  | '-' => some minus
  | '*' => some star
  | '/' => some slash
  | '%' => some percent
  | '<' => some lt
  | '>' => some gt
  | '=' => some assign
  | '!' => some bang
  | '?' => some question
  | '|' => some pipe
  | '&' => some amp
  | _ => none

end Symbol

/-- What a token is. Quoted text keeps its escapes as they were written. -/
inductive TokenKind where
  | symbol (s : Symbol)
  | ident (name : String)
  | number (value : Int64) (suffix : Option String)
  | float (value : Float)
  | string (text : String)
  | char (text : String)
  | eof

namespace TokenKind

/-- How messages name a token. -/
def describe : TokenKind → String
  | symbol s => s!"'{s.spelling}'"
  | ident name => s!"identifier '{name}'"
  | number value suffix => "number '" ++ toString value.toInt ++ suffix.getD "" ++ "'"
  | float value => s!"number '{Decimal.Layout.message.text value}'"
  | string _ => "string literal"
  | char _ => "char literal"
  | eof => "end of input"

end TokenKind

structure Token where
  kind : TokenKind
  pos : Pos

namespace Token

def loc (t : Token) : Loc :=
  Loc.ofPos t.pos

end Token

end TuffSafety
