import TuffSafety.Json.Number

/-!
# JSON documents

A document is a JSON text as far as it can be read: where the text stops being JSON, the fault stands
in place of what should have come. So a reader of the document meets faults of shape and faults of
the text in the order in which they stand in the text.

Some texts are well formed but have no value: a number too large, or a surrogate without its partner.
They are faults only for a reader that wants the value.
-/
namespace TuffSafety

/-- Why a text is not JSON. -/
inductive JsonFault where
  | malformed
  /-- The text ends too early. -/
  | incomplete
deriving DecidableEq, Repr

mutual

inductive Doc where
  | null
  | bool (value : Bool)
  /-- A number, without a value if it is too large. -/
  | number (value : Option Json)
  | string (value : Except JsonFault String)
  | array (items : DocItems)
  | object (members : DocMembers)
  /-- A text that is no value, with the fault for a reader of the value and for one that skips it. -/
  | broken (reading skipping : JsonFault)

inductive DocItems where
  | closed
  /-- The array does not go on, with the fault for a reader that wants another item and for one that
  wants the closing bracket. -/
  | cut (wantingItem wantingEnd : JsonFault)
  | item (value : Doc) (rest : DocItems)

inductive DocMembers where
  | closed
  | cut (reading skipping : JsonFault)
  | member (key : Except JsonFault String) (value : Doc) (rest : DocMembers)

end

namespace Doc

def isBlank (c : Char) : Bool :=
  c == ' ' || c == '\n' || c == '\t' || c == '\r'

def skipBlanks (text : List Char) : List Char :=
  text.dropWhile isBlank

/-- A document and the text behind it, if reading can go on there. -/
abbrev Reading (α : Type) : Type :=
  α × Option (List Char)

/-- The fault of a text that lacks something. -/
def lack : List Char → JsonFault
  | [] => .incomplete
  | _ :: _ => .malformed

/-! ### Words and numbers -/

/-- The rest of a word whose first letter was read. -/
def word (value : Doc) : List Char → List Char → Reading Doc
  | [], text => (value, some text)
  | _ :: _, [] => (.broken .incomplete .incomplete, none)
  | c :: cs, d :: text => if c = d then word value cs text else (.broken .malformed .malformed, none)

/-- A number that breaks off. One that skips it does not tell the end of the text from other
faults. -/
def brokenNumber (text : List Char) : Reading Doc :=
  (.broken (lack text) .malformed, none)

def finishNumber (numeral : Json.Numeral) (text : List Char) : Reading Doc :=
  (.number numeral.value, some text)

def isExponentMark (c : Char) : Bool :=
  c == 'e' || c == 'E'

/-- The exponent, its mark read. -/
def exponent (numeral : Json.Numeral) (text : List Char) : Reading Doc :=
  let (negative, text) := match text with
    | '-' :: rest => (true, rest)
    | '+' :: rest => (false, rest)
    | text => (false, text)
  let (digits, rest) := text.span Char.isDigit
  if digits.isEmpty then brokenNumber rest
  else finishNumber { numeral with exponent := some (negative, digits) } rest

def optionalExponent (numeral : Json.Numeral) : List Char → Reading Doc
  | c :: text => if isExponentMark c then exponent numeral text else finishNumber numeral (c :: text)
  | [] => finishNumber numeral []

/-- What may follow the whole part of a number. -/
def afterWhole (numeral : Json.Numeral) : List Char → Reading Doc
  | '.' :: text =>
    let (digits, rest) := text.span Char.isDigit
    if digits.isEmpty then brokenNumber rest
    else optionalExponent { numeral with fraction := some digits } rest
  | text => optionalExponent numeral text

/-- The number behind its sign. A zero stands alone before the point. -/
def unsignedNumber (negative : Bool) (text : List Char) : Reading Doc :=
  match text with
  | '0' :: rest =>
    if rest.head?.any Char.isDigit then (.broken .malformed .malformed, none)
    else afterWhole ⟨negative, ['0'], none, none⟩ rest
  | text =>
    let (digits, rest) := text.span Char.isDigit
    if digits.isEmpty then brokenNumber rest
    else afterWhole ⟨negative, digits, none, none⟩ rest

/-! ### Strings -/

/-- A character of a string, or the code unit of an escape. -/
inductive Piece where
  | char (c : Char)
  | unit (n : Nat)
deriving DecidableEq, Repr

def hexValue? (c : Char) : Option Nat :=
  if c.isDigit then some (c.toNat - '0'.toNat)
  else if 'a' ≤ c ∧ c ≤ 'f' then some (c.toNat - 'a'.toNat + 10)
  else if 'A' ≤ c ∧ c ≤ 'F' then some (c.toNat - 'A'.toNat + 10)
  else none

def unit? (a b c d : Char) : Option Nat := do
  let a ← hexValue? a
  let b ← hexValue? b
  let c ← hexValue? c
  let d ← hexValue? d
  some (((a * 16 + b) * 16 + c) * 16 + d)

def escape? : Char → Option Char
  | '"' => some '"'
  | '\\' => some '\\'
  | '/' => some '/'
  | 'b' => some '\x08'
  | 'f' => some '\x0c'
  | 'n' => some '\n'
  | 'r' => some '\r'
  | 't' => some '\t'
  | _ => none

/-- A code unit needs four bytes; with fewer left the text ends too early. -/
def unitFault (text : List Char) : JsonFault :=
  if (String.ofList text).utf8ByteSize < 4 then .incomplete else .malformed

/-- The pieces of a string up to its closing quote, and the text behind that. -/
def pieces : List Char → List Piece × Except JsonFault (List Char)
  | [] => ([], .error .incomplete)
  | '"' :: text => ([], .ok text)
  | ['\\'] => ([], .error .incomplete)
  | '\\' :: 'u' :: a :: b :: c :: d :: text =>
    match unit? a b c d with
    | some n =>
      let (rest, stop) := pieces text
      (.unit n :: rest, stop)
    | none => ([], .error .malformed)
  | '\\' :: 'u' :: text => ([], .error (unitFault text))
  | '\\' :: e :: text =>
    match escape? e with
    | some c =>
      let (rest, stop) := pieces text
      (.char c :: rest, stop)
    | none => ([], .error .malformed)
  | c :: text =>
    if c.toNat < 0x20 then ([], .error .malformed)
    else
      let (rest, stop) := pieces text
      (.char c :: rest, stop)

def isLeading (n : Nat) : Bool :=
  0xd800 ≤ n && n ≤ 0xdbff

def isTrailing (n : Nat) : Bool :=
  0xdc00 ≤ n && n ≤ 0xdfff

/-- The characters that pieces stand for; `stop` is how the pieces end. Surrogates come in pairs. -/
def charsOf (stop : Except JsonFault Unit) : List Piece → Except JsonFault (List Char)
  | [] => stop.map fun _ => []
  | .char c :: rest => (charsOf stop rest).map (c :: ·)
  | .unit n :: .unit m :: rest =>
    if isLeading n then
      if isTrailing m then
        (charsOf stop rest).map (Char.ofNat (0x10000 + (n - 0xd800) * 0x400 + (m - 0xdc00)) :: ·)
      else .error .malformed
    else if isTrailing n then .error .malformed
    else (charsOf stop (.unit m :: rest)).map (Char.ofNat n :: ·)
  | [.unit n] =>
    if isLeading n then
      match stop with
      | .error fault => .error fault
      | .ok () => .error .malformed
    else if isTrailing n then .error .malformed
    else stop.map fun _ => [Char.ofNat n]
  | .unit n :: .char c :: rest =>
    if isLeading n || isTrailing n then .error .malformed
    else (charsOf stop (.char c :: rest)).map (Char.ofNat n :: ·)

/-- What became of a string whose opening quote was read. -/
inductive QuotedText where
  | whole (value : Except JsonFault String) (rest : List Char)
  | broken (reading skipping : JsonFault)

def quotedText (text : List Char) : QuotedText :=
  match pieces text with
  | (ps, .ok rest) => .whole ((charsOf (.ok ()) ps).map String.ofList) rest
  | (ps, .error fault) =>
    match charsOf (.error fault) ps with
    | .error reading => .broken reading fault
    | .ok _ => .broken fault fault

/-! ### Values -/

mutual

/-- The value at the front of a text, read with at most `depth` nested calls. -/
def value : Nat → List Char → Reading Doc
  | 0, _ => (.broken .malformed .malformed, none)
  | depth + 1, text =>
    match skipBlanks text with
    | [] => (.broken .incomplete .incomplete, none)
    | '[' :: rest =>
      let (items, rest) := firstItem depth rest
      (.array items, rest)
    | '\x7b' :: rest =>
      let (members, rest) := firstMember depth rest
      (.object members, rest)
    | '"' :: rest =>
      match quotedText rest with
      | .whole value rest => (.string value, some rest)
      | .broken reading skipping => (.broken reading skipping, none)
    | 'n' :: rest => word .null "ull".toList rest
    | 't' :: rest => word (.bool true) "rue".toList rest
    | 'f' :: rest => word (.bool false) "alse".toList rest
    | '-' :: rest => unsignedNumber true rest
    | c :: rest =>
      if c.isDigit then unsignedNumber false (c :: rest)
      else (.broken .malformed .malformed, none)

def firstItem : Nat → List Char → Reading DocItems
  | 0, _ => (.cut .malformed .malformed, none)
  | depth + 1, text =>
    match skipBlanks text with
    | [] => (.cut .incomplete .incomplete, none)
    | ']' :: rest => (.closed, some rest)
    | text => item depth text

/-- An item and those behind it. -/
def item : Nat → List Char → Reading DocItems
  | 0, _ => (.cut .malformed .malformed, none)
  | depth + 1, text =>
    match value depth text with
    | (first, none) => (.item first (.cut .malformed .malformed), none)
    | (first, some rest) =>
      let (items, rest) := nextItem depth rest
      (.item first items, rest)

def nextItem : Nat → List Char → Reading DocItems
  | 0, _ => (.cut .malformed .malformed, none)
  | depth + 1, text =>
    match skipBlanks text with
    | [] => (.cut .incomplete .incomplete, none)
    | ']' :: rest => (.closed, some rest)
    | ',' :: rest =>
      match skipBlanks rest with
      | [] => (.cut .incomplete .malformed, none)
      | ']' :: _ => (.cut .malformed .malformed, none)
      | rest => item depth rest
    | _ => (.cut .malformed .malformed, none)

def firstMember : Nat → List Char → Reading DocMembers
  | 0, _ => (.cut .malformed .malformed, none)
  | depth + 1, text =>
    match skipBlanks text with
    | '\x7d' :: rest => (.closed, some rest)
    | text => member depth text

/-- A member and those behind it. -/
def member : Nat → List Char → Reading DocMembers
  | 0, _ => (.cut .malformed .malformed, none)
  | depth + 1, '"' :: text =>
    match quotedText text with
    | .broken reading skipping => (.cut reading skipping, none)
    | .whole key rest =>
      match skipBlanks rest with
      | ':' :: rest =>
        match value depth rest with
        | (first, none) => (.member key first (.cut .malformed .malformed), none)
        | (first, some rest) =>
          let (members, rest) := nextMember depth rest
          (.member key first members, rest)
      | rest => (.member key (.broken (lack rest) (lack rest)) (.cut .malformed .malformed), none)
  | _ + 1, text => (.cut (lack text) (lack text), none)

def nextMember : Nat → List Char → Reading DocMembers
  | 0, _ => (.cut .malformed .malformed, none)
  | depth + 1, text =>
    match skipBlanks text with
    | [] => (.cut .incomplete .incomplete, none)
    | '\x7d' :: rest => (.closed, some rest)
    | ',' :: rest => member depth (skipBlanks rest)
    | _ => (.cut .malformed .malformed, none)

end

/-- The document of a text, and the text behind it. -/
def read (text : String) : Reading Doc :=
  value (4 * text.length + 4) text.toList

/-! ### Using a document -/

mutual

/-- Passes over a document that is not wanted. -/
def skip : Doc → Except JsonFault Unit
  | .null => .ok ()
  | .bool _ => .ok ()
  | .number _ => .ok ()
  | .string _ => .ok ()
  | .array items => skipItems items
  | .object members => skipMembers members
  | .broken _ skipping => .error skipping

def skipItems : DocItems → Except JsonFault Unit
  | .closed => .ok ()
  | .cut fault _ => .error fault
  | .item value rest => do
    skip value
    skipItems rest

def skipMembers : DocMembers → Except JsonFault Unit
  | .closed => .ok ()
  | .cut _ skipping => .error skipping
  | .member _ value rest => do
    skip value
    skipMembers rest

end

mutual

/-- The value of a document in which at most `room` arrays and objects are open at once. -/
def buffer : Nat → Doc → Except JsonFault Json
  | _, .null => .ok .null
  | _, .bool value => .ok (.bool value)
  | _, .number (some value) => .ok value
  | _, .number none => .error .malformed
  | _, .string value => value.map .string
  | 0, .array _ => .error .malformed
  | 0, .object _ => .error .malformed
  | room + 1, .array items => do
    let values ← bufferItems room items
    .ok (.array values)
  | room + 1, .object members => do
    let values ← bufferMembers room members
    .ok (.object values)
  | _, .broken reading _ => .error reading

def bufferItems : Nat → DocItems → Except JsonFault (List Json)
  | _, .closed => .ok []
  | _, .cut fault _ => .error fault
  | room, .item value rest => do
    let first ← buffer room value
    let others ← bufferItems room rest
    .ok (first :: others)

def bufferMembers : Nat → DocMembers → Except JsonFault (List JsonMember)
  | _, .closed => .ok []
  | _, .cut reading _ => .error reading
  | room, .member key value rest => do
    let key ← key
    let first ← buffer room value
    let others ← bufferMembers room rest
    .ok (⟨key, first⟩ :: others)

end

end Doc

end TuffSafety
