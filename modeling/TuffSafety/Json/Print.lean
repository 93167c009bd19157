import TuffSafety.Decimal.Layout
import TuffSafety.Json.Value

/-!
# Writing JSON

Values are laid out on several lines, indented by two spaces a level. Each function writes in front
of a given rest of the text.
-/
namespace TuffSafety.Json

def hexDigit (n : Nat) : Char :=
  (Nat.toDigits 16 n).headD '0'

/-- How a character is written inside quotes. -/
def escaped (c : Char) : List Char :=
  match c with
  | '"' => ['\\', '"']
  | '\\' => ['\\', '\\']
  | '\n' => ['\\', 'n']
  | '\r' => ['\\', 'r']
  | '\t' => ['\\', 't']
  | '\x08' => ['\\', 'b']
  | '\x0c' => ['\\', 'f']
  | c =>
    if c.toNat < 0x20 then ['\\', 'u', '0', '0', hexDigit (c.toNat / 16), hexDigit (c.toNat % 16)]
    else [c]

def writeString (text : String) (rest : List Char) : List Char :=
  '"' :: text.toList.flatMap escaped ++ '"' :: rest

/-- A line break and the indentation of the next line. -/
def newline (level : Nat) (rest : List Char) : List Char :=
  '\n' :: List.replicate (2 * level) ' ' ++ rest

/-- A number that is not finite has no written form and becomes null. -/
def floatText (x : Float) : String :=
  match Decimal.Magnitude.ofFloat x with
  | .finite .. => Decimal.Layout.json.text x
  | _ => "null"

mutual

def write : Nat → Json → List Char → List Char
  | _, .null, rest => "null".toList ++ rest
  | _, .bool true, rest => "true".toList ++ rest
  | _, .bool false, rest => "false".toList ++ rest
  | _, .int value, rest => (toString value).toList ++ rest
  | _, .float value, rest => (floatText value).toList ++ rest
  | _, .string value, rest => writeString value rest
  | _, .array [], rest => '[' :: ']' :: rest
  | level, .array (item :: items), rest =>
    '[' :: newline (level + 1) (write (level + 1) item
      (writeItems (level + 1) items (newline level (']' :: rest))))
  | _, .object [], rest => '\x7b' :: '\x7d' :: rest
  | level, .object (⟨key, value⟩ :: members), rest =>
    '\x7b' :: newline (level + 1) (writeString key (':' :: ' ' :: write (level + 1) value
      (writeMembers (level + 1) members (newline level ('\x7d' :: rest)))))

/-- The items behind the first one, each behind a comma on a line of its own. -/
def writeItems : Nat → List Json → List Char → List Char
  | _, [], rest => rest
  | level, item :: items, rest =>
    ',' :: newline level (write level item (writeItems level items rest))

def writeMembers : Nat → List JsonMember → List Char → List Char
  | _, [], rest => rest
  | level, ⟨key, value⟩ :: members, rest =>
    ',' :: newline level (writeString key (':' :: ' ' :: write level value
      (writeMembers level members rest)))

end

/-- The text of a value. -/
def pretty (value : Json) : String :=
  String.ofList (write 0 value [])

end TuffSafety.Json
