import TuffSafety.Text.Split

/-!
# Paths

A path is kept as it was written, as a list of names: empty names are dropped, and so is `.` unless
the path starts with it. The name `..` stays, since what it means depends on the directories.
-/
namespace TuffSafety

structure Path where
  absolute : Bool := false
  names : List String
  /-- Written with a slash or a dot at the end, so that it can only name a directory. -/
  directory : Bool := false
deriving DecidableEq, Repr

namespace Path

/-- Whether a piece between slashes carries no name. -/
def isVoid (piece : List Char) : Bool :=
  piece = [] || piece = ['.']

def ofText (text : String) : Path :=
  let pieces := Text.splitOn '/' text.toList
  let own := pieces.filter fun piece => !isVoid piece
  let kept := if pieces.head? = some ['.'] then ['.'] :: own else own
  { absolute := text.toList.head? = some '/'
    names := kept.map String.ofList
    directory := (pieces.getLast?.map isVoid).getD true }

def text (p : Path) : String :=
  (if p.absolute then "/" else "") ++ "/".intercalate p.names ++
    (if p.directory && !p.names.isEmpty then "/" else "")

def here : Path where
  names := ["."]

/-- The file of that name in the directory at this path. -/
def child (p : Path) (name : String) : Path where
  absolute := p.absolute
  names := p.names ++ [name]

/-- The path without its last name, unless it has none. -/
def parent? (p : Path) : Option Path :=
  if p.names.isEmpty then none
  else some { absolute := p.absolute, names := p.names.dropLast }

/-- A list and what is left of it when names are taken off its end, one by one. -/
def shortened : List String → List (List String)
  | [] => [[]]
  | name :: names => (shortened names).map (name :: ·) ++ [[]]

/-- The path and the paths above it as far as they are written, nearest first. -/
def ancestors (p : Path) : List Path :=
  (shortened p.names).map fun names => { absolute := p.absolute, names }

/-- What stands behind the last dot of the last name, unless nothing stands before the dot. -/
def extension? (p : Path) : Option String :=
  match p.names.getLast? with
  | none => none
  | some ".." => none
  | some name =>
    match (Text.splitOn '.' name.toList).reverse with
    | last :: before :: more =>
      if before.isEmpty && more.isEmpty then none else some (String.ofList last)
    | _ => none

end Path

end TuffSafety
