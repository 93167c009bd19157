import TuffSafety.Diagnostic.Code
import TuffSafety.Text.Lines

/-!
# Reports

A report is a fault put into words: its code, message and place, with a hint, an explanation and the
source line where they are known.
-/
namespace TuffSafety

structure Report where
  code : Code
  message : String
  loc : Option Loc := none
  hint : Option String := none
  details : Option String := none
  excerpt : Option String := none
deriving DecidableEq, Repr

namespace Report

/-- `[CODE] message @ line:column`, without the place when it is not known. -/
def display (r : Report) : String :=
  let place := match r.loc with
    | some loc => s!" @ {loc.line.toNat}:{loc.column.toNat}"
    | none => ""
  s!"[{r.code.text}] {r.message}{place}"

/-- Adds the source line, unless the report has one or its place lies outside the source. -/
def withExcerpt (r : Report) (source : String) : Report :=
  match r.excerpt, r.loc with
  | none, some loc => { r with excerpt := Text.excerpt? source loc }
  | _, _ => r

/-- Sets the file of a place that has none. -/
def inFile (r : Report) (path : String) : Report :=
  { r with loc := r.loc.map fun loc => loc.inFile path }

end Report

end TuffSafety
