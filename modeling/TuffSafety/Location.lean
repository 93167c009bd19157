/-!
# Places in a source text

`Pos` is where a scan stands; `Loc` is what a node of the syntax tree or a diagnostic carries.
-/
namespace TuffSafety

/-- A line and a column, both counted from one; columns count characters. They are 32-bit numbers, so
counting goes on with zero behind the greatest. -/
structure Pos where
  line : UInt32
  column : UInt32
deriving DecidableEq, Repr

namespace Pos

def start : Pos := ⟨1, 1⟩

/-- The place behind the character `c` standing at this place. -/
def after (p : Pos) (c : Char) : Pos :=
  if c = '\n' then ⟨p.line + 1, 1⟩ else ⟨p.line, p.column + 1⟩

def afterAll (p : Pos) (text : List Char) : Pos :=
  text.foldl after p

end Pos

/-- The location a node or a diagnostic carries. Lines and columns are 32-bit numbers, and the file
is absent for text that has no path. -/
structure Loc where
  filePath : Option String := none
  line : UInt32
  column : UInt32
deriving DecidableEq, Repr

namespace Loc

def ofPos (p : Pos) : Loc where
  line := p.line
  column := p.column

/-- `path:line:column`, with `<memory>` for text without a path. -/
def text (loc : Loc) : String :=
  let path := loc.filePath.getD "<memory>"
  s!"{path}:{loc.line.toNat}:{loc.column.toNat}"

/-- The location with its file set, unless it has one already. -/
def inFile (loc : Loc) (path : String) : Loc :=
  { loc with filePath := some (loc.filePath.getD path) }

end Loc

/-- A cause of failure and the place it is blamed on, if there is one. -/
structure Located (φ : Type) where
  cause : φ
  loc : Option Loc
deriving DecidableEq, Repr

end TuffSafety
