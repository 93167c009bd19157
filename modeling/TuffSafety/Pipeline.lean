import TuffSafety.Ast.Parse
import TuffSafety.Checker
import TuffSafety.Diagnostic.Wording

/-!
# From source text to a verdict

A pipeline parses and verifies text. Its reports carry the offending source line and, when the
pipeline has one, the file.
-/
namespace TuffSafety

structure Pipeline where
  /-- Whether the safety proofs are asked for. -/
  strict : Bool := true
  file : Option String := none

namespace Pipeline

def inFile (p : Pipeline) (r : Report) : Report :=
  match p.file with
  | some path => r.inFile path
  | none => r

def locate (p : Pipeline) (source : String) (r : Report) : Report :=
  p.inFile (r.withExcerpt source)

def parse (p : Pipeline) (source : String) : Except Report Program :=
  match Token.scan source with
  | .error (fault, pos) => .error (p.locate source (fault.report pos))
  | .ok tokens =>
    match Program.parse tokens with
    | .error ⟨cause, loc⟩ => .error (p.locate source (cause.report loc))
    | .ok program => .ok program

/-- Parses and verifies a source text. -/
def check (p : Pipeline) (source : String) : Except Report Program := do
  let program ← p.parse source
  match program.check p.strict with
  | .error ⟨cause, loc⟩ => .error (p.locate source (cause.report loc))
  | .ok () => .ok program

/-- Verifies a program that has no source text. -/
def checkProgram (p : Pipeline) (program : Program) : Except Report Program :=
  match program.check p.strict with
  | .error ⟨cause, loc⟩ => .error (p.inFile (cause.report loc))
  | .ok () => .ok program

end Pipeline

end TuffSafety
