import TuffSafety.Json.Doc
import TuffSafety.Json.Print
import TuffSafety.Text.Shown

/-!
# Decoding JSON

Values of the domain from JSON values. Records are written as objects or, position by position, as
arrays; a tagged node is a record whose kind tells its form. Of several faults in an object the one
that stands first in the text is reported, and missing fields come last, in declaration order.
-/
namespace TuffSafety

/-- Why a JSON text does not describe a value. -/
inductive DecodeError where
  | text (fault : JsonFault)
  | invalidType (found wanted : String)
  | invalidValue (found wanted : String)
  | invalidLength (length : Nat) (wanted : String)
  | missingField (name : String)
  | duplicateField (name : String)
  | unknownVariant (name : String) (known : List String)
  | noVariant (type : String)
deriving DecidableEq, Repr

namespace DecodeError

def quoted (name : String) : String :=
  "`" ++ name ++ "`"

/-- The message of an error of shape; an error of the text has none of its own. -/
def message : DecodeError → String
  | text _ => "not a JSON text"
  | invalidType found wanted => s!"invalid type: {found}, expected {wanted}"
  | invalidValue found wanted => s!"invalid value: {found}, expected {wanted}"
  | invalidLength length wanted => s!"invalid length {length}, expected {wanted}"
  | missingField name => "missing field " ++ quoted name
  | duplicateField name => "duplicate field " ++ quoted name
  | unknownVariant name known =>
    "unknown variant " ++ quoted name ++ ", expected one of " ++ ", ".intercalate (known.map quoted)
  | noVariant type => "data did not match any variant of untagged enum " ++ type

end DecodeError

/-- Decoding ends with a value or the first fault. -/
abbrev Decoded : Type → Type :=
  Except DecodeError

def JsonFault.raise {α : Type} (fault : JsonFault) : Decoded α :=
  .error (.text fault)

namespace Json

/-- How messages name a value that was not wanted. -/
def found : Json → String
  | null => "null"
  | bool value => "boolean " ++ DecodeError.quoted (toString value)
  | int value => "integer " ++ DecodeError.quoted (toString value)
  | float value => "floating point " ++ DecodeError.quoted (floatText value)
  | string value => "string " ++ Text.shown value
  | array _ => "sequence"
  | object _ => "map"

def unwanted {α : Type} (wanted : String) (value : Json) : Decoded α :=
  .error (.invalidType value.found wanted)

end Json

namespace Decode

/-! ### Simple values -/

def text : Json → Decoded String
  | .string value => .ok value
  | value => value.unwanted "a string"

def bool : Json → Decoded Bool
  | .bool value => .ok value
  | value => value.unwanted "a boolean"

/-- A whole number between two bounds. -/
def integer (wanted : String) (low high : Int) : Json → Decoded Int
  | .int value =>
    if low ≤ value ∧ value ≤ high then .ok value
    else .error (.invalidValue (Json.int value).found wanted)
  | value => value.unwanted wanted

def int64 (value : Json) : Decoded Int64 :=
  (integer "i64" (-0x8000000000000000) 0x7fffffffffffffff value).map Int64.ofInt

def uint32 (value : Json) : Decoded UInt32 :=
  (integer "u32" 0 0xffffffff value).map fun n => n.toNat.toUInt32

def float : Json → Decoded Float
  | .float value => .ok value
  | .int value => .ok (Float.ofInt value)
  | value => value.unwanted "f64"

/-- A value that may be absent, which null says. -/
def optional {α : Type} (decode : Json → Decoded α) : Json → Decoded (Option α)
  | .null => .ok none
  | value => (decode value).map some

def all {α : Type} (decode : Json → Decoded α) : List Json → Decoded (List α)
  | [] => .ok []
  | value :: values => do
    let first ← decode value
    let rest ← all decode values
    .ok (first :: rest)

def list {α : Type} (decode : Json → Decoded α) : Json → Decoded (List α)
  | .array values => all decode values
  | value => value.unwanted "a sequence"

/-! ### Records -/

/-- The written fields of a record, by name or by position. -/
inductive Fields where
  | named (members : List JsonMember)
  | positional (values : List Json)

/-- A result whose fault has a rank: the place in the text where it was met. -/
structure Ranked (α : Type) where
  result : Except (Nat × DecodeError) α

namespace Ranked

def fail {α : Type} (rank : Nat) (error : DecodeError) : Ranked α :=
  ⟨.error (rank, error)⟩

def ranked {α : Type} (rank : Nat) (result : Decoded α) : Ranked α :=
  ⟨result.mapError fun error => (rank, error)⟩

/-- Of two faults the one with the lower rank stays, of equal ones the first. -/
def apply {α β : Type} (f : Ranked (α → β)) (x : Ranked α) : Ranked β :=
  match f.result, x.result with
  | .ok f, .ok x => ⟨.ok (f x)⟩
  | .ok _, .error e => ⟨.error e⟩
  | .error e, .ok _ => ⟨.error e⟩
  | .error e, .error e' => ⟨.error (if e'.1 < e.1 then e' else e)⟩

instance : Applicative Ranked where
  pure x := ⟨.ok x⟩
  seq f x := apply f (x ())

end Ranked

/-- A record with its name and the names of its fields in declaration order. -/
structure Record where
  name : String
  fieldNames : List String
  fields : Fields

namespace Record

def elements (n : Nat) : String :=
  if n = 1 then "1 element" else s!"{n} elements"

/-- The places and values of the members of a name. -/
def occurrences (name : String) (members : List JsonMember) : List (Nat × Json) :=
  (members.zipIdx.filter fun (m, _) => m.key == name).map fun (m, i) => (i, m.value)

/-- A field that is absent has the given value, or is missed if there is none. -/
def field {α : Type} (r : Record) (name : String) (absent : Option α) (decode : Json → Decoded α) :
    Ranked α :=
  match r.fields with
  | .named members =>
    match occurrences name members with
    | [] =>
      match absent with
      | some value => pure value
      | none => .fail members.length (.missingField name)
    | [(i, value)] => .ranked i (decode value)
    | (i, value) :: (j, _) :: _ =>
      match decode value with
      | .error error => .fail i error
      | .ok _ => .fail j (.duplicateField name)
  | .positional values =>
    let i := r.fieldNames.idxOf name
    match values[i]?, absent with
    | some value, _ => .ranked i (decode value)
    | none, some value => pure value
    | none, none =>
      .fail i (.invalidLength i s!"struct {r.name} with {elements r.fieldNames.length}")

def required {α : Type} (r : Record) (name : String) (decode : Json → Decoded α) : Ranked α :=
  r.field name none decode

/-- A field that may be left out or null. -/
def optional {α : Type} (r : Record) (name : String) (decode : Json → Decoded α) :
    Ranked (Option α) :=
  r.field name (some none) (Decode.optional decode)

/-- A list field that may be left out. -/
def list {α : Type} (r : Record) (name : String) (decode : Json → Decoded α) : Ranked (List α) :=
  r.field name (some []) (Decode.list decode)

/-- A flag that may be left out. -/
def flag (r : Record) (name : String) : Ranked Bool :=
  r.field name (some false) Decode.bool

end Record

/-- Reads a record; positions behind its last field are a fault. -/
def record {α : Type} (name : String) (fieldNames : List String) (build : Record → Ranked α)
    (fields : Fields) : Decoded α :=
  match (build ⟨name, fieldNames, fields⟩).result with
  | .error (_, error) => .error error
  | .ok value =>
    match fields with
    | .positional values =>
      if fieldNames.length < values.length then
        .error (.invalidLength values.length
          (Record.elements fieldNames.length ++ " in sequence"))
      else .ok value
    | .named _ => .ok value

/-- Reads a record that stands on its own. -/
def plainRecord {α : Type} (name : String) (fieldNames : List String) (build : Record → Ranked α) :
    Json → Decoded α
  | .object members => record name fieldNames build (.named members)
  | .array values => record name fieldNames build (.positional values)
  | value => value.unwanted ("struct " ++ name)

/-! ### Variants -/

/-- What to do with the fields of a node, for each kind in declaration order. -/
abbrev Forms (α : Type) : Type :=
  List (String × (Fields → Decoded α))

def variant {β : Type} (variants : List (String × β)) (name : String) : Decoded β :=
  match variants.lookup name with
  | some value => .ok value
  | none => .error (.unknownVariant name (variants.map Prod.fst))

/-- The form of a node inside another one: a kind may also be given by its number. -/
def kind {β : Type} (variants : List (String × β)) : Json → Decoded β
  | .string name => variant variants name
  | .int n =>
    if 0 ≤ n then
      match variants[n.toNat]? with
      | some (_, value) => .ok value
      | none =>
        .error (.invalidValue (Json.int n).found s!"variant index 0 <= i < {variants.length}")
    else (Json.int n).unwanted "variant identifier"
  | value => value.unwanted "variant identifier"

/-- Divides the members of a node into its kind and the others. -/
def splitKind {β : Type} (decodeKind : Json → Decoded β) :
    Option β → List JsonMember → Decoded (β × List JsonMember)
  | some form, [] => .ok (form, [])
  | none, [] => .error (.missingField "kind")
  | seen, ⟨key, value⟩ :: rest =>
    if key = "kind" then
      match seen with
      | some _ => .error (.duplicateField "kind")
      | none => do
        let form ← decodeKind value
        splitKind decodeKind (some form) rest
    else do
      let (form, members) ← splitKind decodeKind seen rest
      .ok (form, ⟨key, value⟩ :: members)

/-- Reads a node inside another one. -/
def tagged {α : Type} (type : String) (forms : Forms α) : Json → Decoded α
  | .object members => do
    let (form, members) ← splitKind (kind forms) none members
    form (.named members)
  | .array [] => .error (.missingField "kind")
  | .array (first :: values) => do
    let form ← kind forms first
    form (.positional values)
  | value => value.unwanted ("internally tagged enum " ++ type)

/-- The fields of a form that has none. -/
def noFields {α : Type} (value : α) : Fields → Decoded α
  | .positional (first :: values) =>
    .error (.invalidLength (first :: values).length (Record.elements 0 ++ " in sequence"))
  | _ => .ok value

/-- A variant without fields, written as its name or as an object with the name as its only key and
nothing as the value. -/
def symbol {β : Type} (variants : List (String × β)) : Json → Decoded β
  | .string name => variant variants name
  | .object [⟨name, value⟩] => do
    let chosen ← variant variants name
    match value with
    | .null => .ok chosen
    | .object [] => .ok chosen
    | value => value.unwanted "unit"
  | .object _ => .error (.invalidValue (Json.object []).found "map with a single key")
  | value => value.unwanted "string or map"

/-! ### Reading from a document -/

/-- The fault of a document that is not of the wanted type. -/
def unwantedDoc {α : Type} (wanted : String) : Doc → Decoded α
  | .null => Json.null.unwanted wanted
  | .bool value => (Json.bool value).unwanted wanted
  | .number (some value) => value.unwanted wanted
  | .number none => JsonFault.malformed.raise
  | .string (.ok value) => (Json.string value).unwanted wanted
  | .string (.error fault) => fault.raise
  | .array _ => (Json.array []).unwanted wanted
  | .object _ => (Json.object []).unwanted wanted
  | .broken reading _ => reading.raise

def ofText {α : Type} : Except JsonFault α → Decoded α
  | .ok value => .ok value
  | .error fault => fault.raise

def docBool : Doc → Decoded Bool
  | .bool value => .ok value
  | doc => unwantedDoc "a boolean" doc

/-- The items of an array, one after the other. -/
def docItems {α : Type} (decode : Doc → Decoded α) : DocItems → Decoded (List α)
  | .closed => .ok []
  | .cut fault _ => fault.raise
  | .item value rest => do
    let first ← decode value
    let others ← docItems decode rest
    .ok (first :: others)

def docList {α : Type} (decode : Doc → Decoded α) : Doc → Decoded (List α)
  | .array items => docItems decode items
  | doc => unwantedDoc "a sequence" doc

/-- The value of the only field of a record, if it is written. Other members are passed over. -/
def soleMember {α : Type} (field : String) (decode : Doc → Decoded α) :
    Option α → DocMembers → Decoded (Option α)
  | seen, .closed => .ok seen
  | _, .cut fault _ => fault.raise
  | seen, .member key value rest => do
    let key ← ofText key
    if key = field then
      match seen with
      | some _ => .error (.duplicateField field)
      | none =>
        let found ← decode value
        soleMember field decode (some found) rest
    else
      ofText value.skip
      soleMember field decode seen rest

/-- The end of an array that has no further items. -/
def endOfItems : DocItems → Decoded Unit
  | .closed => .ok ()
  | .cut _ fault => fault.raise
  | .item .. => JsonFault.malformed.raise

/-- Reads a record with one field, which may be left out. -/
def soleField {α : Type} (name field : String) (absent : α) (decode : Doc → Decoded α) :
    Doc → Decoded α
  | .object members => do
    let found ← soleMember field decode none members
    .ok (found.getD absent)
  | .array .closed => .ok absent
  | .array (.cut fault _) => fault.raise
  | .array (.item value rest) => do
    let found ← decode value
    endOfItems rest
    .ok found
  | doc => unwantedDoc ("struct " ++ name) doc

/-- The form of a node that stands in no other node. -/
def docKind {β : Type} (variants : List (String × β)) : Doc → Decoded β
  | .string (.ok name) => variant variants name
  | doc => unwantedDoc "variant identifier" doc

/-- Divides the members of a node into its kind and the others, which are read completely. -/
def docSplitKind {β : Type} (room : Nat) (decodeKind : Doc → Decoded β) :
    Option β → DocMembers → Decoded (β × List JsonMember)
  | some form, .closed => .ok (form, [])
  | none, .closed => .error (.missingField "kind")
  | _, .cut fault _ => fault.raise
  | seen, .member key value rest => do
    let key ← ofText key
    if key = "kind" then
      match seen with
      | some _ => .error (.duplicateField "kind")
      | none =>
        let form ← decodeKind value
        docSplitKind room decodeKind (some form) rest
    else
      let value ← ofText (value.buffer room)
      let (form, members) ← docSplitKind room decodeKind seen rest
      .ok (form, ⟨key, value⟩ :: members)

/-- Reads a node that stands in no other node; inside it at most `room` arrays and objects are open
at once. -/
def docTagged {α : Type} (type : String) (forms : Forms α) (room : Nat) : Doc → Decoded α
  | .object members => do
    let (form, members) ← docSplitKind room (docKind forms) none members
    form (.named members)
  | .array .closed => .error (.missingField "kind")
  | .array (.cut fault _) => fault.raise
  | .array (.item first rest) => do
    let form ← docKind forms first
    let values ← ofText (Doc.bufferItems room rest)
    form (.positional values)
  | doc => unwantedDoc ("internally tagged enum " ++ type) doc

/-- Reads a whole text; only blanks may follow the document. -/
def wholeText {α : Type} (decode : Doc → Decoded α) (text : String) : Decoded α :=
  match Doc.read text with
  | (doc, rest) => do
    let found ← decode doc
    match (rest.getD []).dropWhile Doc.isBlank with
    | [] => .ok found
    | _ :: _ => JsonFault.malformed.raise

end Decode

/-- The number of arrays and objects that may be open at once in a text. -/
def nestingLimit : Nat := 127

end TuffSafety
