import TuffSafety.Location
import TuffSafety.Text.Split

/-!
# Lines and excerpts

A line ends at a newline or at a carriage return with a newline. Text behind the last line end is a
line unless it is empty.
-/
namespace TuffSafety.Text

/-- A piece that a newline ended, without a carriage return before it. -/
def dropReturn (piece : List Char) : List Char :=
  if piece.getLast? = some '\r' then piece.dropLast else piece

def linesOfPieces : List (List Char) → List (List Char)
  | [] => []
  | [last] => if last.isEmpty then [] else [last]
  | piece :: rest => dropReturn piece :: linesOfPieces rest

def lines (source : String) : List (List Char) :=
  linesOfPieces (splitOn '\n' source.toList)

/-- The line at a location with a caret under its column. -/
def excerpt? (source : String) (loc : Loc) : Option String :=
  match loc.line.toNat with
  | 0 => none
  | index + 1 =>
    (lines source)[index]?.map fun line =>
      String.ofList (line ++ '\n' :: List.replicate (loc.column.toNat - 1) ' ' ++ ['^'])

end TuffSafety.Text
