import TuffSafety.Ast.Decode
import TuffSafety.Diagnostic.Report
import TuffSafety.Text.Style

/-!
# Diagnostics

A diagnostic is a report made ready to be shown: what the report lacks is filled in, and every
section has a text. It is laid out in four indented sections, or written as JSON.
-/
namespace TuffSafety

structure Diagnostic where
  code : Code
  message : String
  loc : Option Loc
  source : String
  reason : String
  fix : String
deriving DecidableEq, Repr

namespace Diagnostic

def missingSource : String :=
  "<source unavailable>"

def usualReason : String :=
  "This violates the language rules or safety guarantees enforced by the compiler."

def usualFix : String :=
  "Update the code near this location so it satisfies the expected syntax, typing, and safety constraints."

/-- The diagnostic of a report. The source line comes from the report if it has one, else from the
source text. -/
def ofReport (report : Report) (source : Option String) : Diagnostic where
  code := report.code
  message := report.message
  loc := report.loc
  source :=
    let excerpt := report.excerpt <|> (do Text.excerpt? (← source) (← report.loc))
    excerpt.getD missingSource
  reason := report.details.getD usualReason
  fix := report.hint.getD usualFix

def location (d : Diagnostic) : String :=
  match d.loc with
  | some loc => loc.text
  | none => "<unknown>"

/-! ### Layout -/

/-- Starts every line of a text with four spaces. -/
def indent (text : String) : List Char :=
  "    ".toList ++ text.toList.flatMap fun c => if c = '\n' then "\n    ".toList else [c]

/-- The lines of the layout; an indented text counts as one. -/
def rows (paint : Text.Paint) (d : Diagnostic) : List (List Char) :=
  let heading := fun (label : String) => ' ' :: ' ' :: paint .bold label.toList
  [paint .boldRed d.code.text.toList ++ ' ' :: paint .cyan d.location.toList,
    heading "source:", paint .dim (indent d.source),
    heading "cause:", indent d.message,
    heading "reason:", indent d.reason,
    heading "fix:", paint .green (indent d.fix)]

def render (paint : Text.Paint) (d : Diagnostic) : String :=
  String.ofList (List.intercalate ['\n'] (d.rows paint))

def plain (d : Diagnostic) : String :=
  d.render .off

def coloured (d : Diagnostic) : String :=
  d.render .on

/-! ### JSON -/

def encode (d : Diagnostic) : Json :=
  .object ([⟨"code", .string d.code.text⟩, ⟨"message", .string d.message⟩] ++
    Json.optional "loc" (d.loc.map Loc.encode) ++
    [⟨"source", .string d.source⟩, ⟨"reason", .string d.reason⟩, ⟨"fix", .string d.fix⟩])

def toJson (d : Diagnostic) : String :=
  d.encode.pretty

end Diagnostic

namespace Decode

def code : Json → Decoded Code :=
  symbol (Code.all.map fun code => (code.text, code))

def diagnostic : Json → Decoded Diagnostic :=
  plainRecord "Diagnostic" ["code", "message", "loc", "source", "reason", "fix"] fun r =>
    Diagnostic.mk <$> r.required "code" code <*> r.required "message" text <*> r.place <*>
      r.required "source" text <*> r.required "reason" text <*> r.required "fix" text

end Decode

namespace Diagnostic

def decode (text : String) : Decoded Diagnostic :=
  Decode.wholeText (fun doc => do Decode.diagnostic (← Decode.ofText (doc.buffer nestingLimit))) text

/-- Whether the JSON text is read back as the same diagnostic. -/
def roundTrips (d : Diagnostic) : Bool :=
  match decode d.toJson with
  | .ok found => decide (found = d)
  | .error _ => false

end Diagnostic

end TuffSafety
