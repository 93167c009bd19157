import TuffSafety.Command

/-!
# The program

Reads files from the disk and prints what the command line answers.
-/
namespace TuffSafety

/-- The content of a file, or nothing if it cannot be read. -/
def readFile (path : Path) : IO (Option String) := do
  try
    let content ← IO.FS.readFile path.text
    pure (some content)
  catch _ => pure none

end TuffSafety

def main (arguments : List String) : IO UInt32 := do
  let stdout ← IO.getStdout
  let stderr ← IO.getStderr
  let output ← TuffSafety.Command.run TuffSafety.readFile (← stdout.isTty) arguments
  stdout.putStr output.out
  stdout.flush
  stderr.putStr output.err
  stderr.flush
  pure output.status.toUInt32
