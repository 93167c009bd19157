import TuffSafety.Command.Arguments
import TuffSafety.Diagnostic
import TuffSafety.Pipeline
import TuffSafety.Project.Settings

/-!
# The command line

What an invocation prints and how it ends, given a way to read files: status 0 when the input is
verified, 1 when it is rejected with a diagnostic, and 2 for misuse or an input that cannot be read.
-/
namespace TuffSafety.Command

open Text (Paint)

structure Output where
  status : UInt8
  out : String := ""
  err : String := ""
deriving DecidableEq, Repr

def versionText : String :=
  "tuff 0.4.0"

namespace Output

def done (text : String) : Output where
  status := 0
  out := text ++ "\n"

def failed (paint : Paint) (message : String) : Output where
  status := 2
  err := String.ofList (paint .boldRed "error:".toList) ++ " " ++ message ++ "\n"

end Output

/-! ### Help -/

def flagLine (flag : Flag) : String :=
  let letter := match flag.letter? with
    | some c => String.ofList ['-', c, ',', ' ']
    | none => "    "
  s!"  {letter}--{flag.name}  {flag.summary}"

def commandLines : Level → List String
  | .top => ["", "Commands:", "  check    Parse and verify a Tuff source file",
      "  explain  Describe a diagnostic code, or list every code", "  help     Print help"]
  | _ => []

def helpText (level : Level) : String :=
  "\n".intercalate (["Usage: " ++ level.usage] ++ commandLines level ++ ["", "Options:"] ++
    level.flags.map flagLine)

/-! ### Explaining codes -/

/-- Pads a text with spaces on the right. -/
def padRight (width : Nat) (text : String) : String :=
  text ++ String.ofList (List.replicate (width - text.length) ' ')

def codeLine (code : Code) : String :=
  padRight 34 code.text ++ " " ++ code.summary

def explain (paint : Paint) : Option String → Output
  | none => .done ("\n".intercalate (Code.all.map codeLine))
  | some text =>
    match Code.ofText? text with
    | some code => .done (String.ofList (paint .bold code.text.toList) ++ ": " ++ code.summary)
    | none => .failed paint (Code.unknownMessage text)

/-! ### Checking a file -/

namespace Check

def path (request : Check) : Path :=
  Path.ofText request.file

/-- The directory in which the search for settings starts. -/
def start (request : Check) : Path :=
  match request.path.parent? with
  | none => .here
  | some dir => if !dir.absolute && dir.names.isEmpty then .here else dir

/-- Whether the file holds a program as JSON and not as source text. -/
def isEncoded (request : Check) : Bool :=
  request.ast || request.path.extension? = some "json"

/-- A flag decides over the settings of the project. -/
def settings {m : Type → Type} [Monad m] (read : Path → m (Option String)) (request : Check) :
    m Settings := do
  let found ← Settings.discover read request.start
  if request.relaxed then pure { strictSafety := false }
  else if request.strict then pure { strictSafety := true }
  else pure found

def verified (paint : Paint) (request : Check) : Output :=
  if request.json then
    .done (Json.object [⟨"file", .string request.file⟩, ⟨"status", .string "ok"⟩]).pretty
  else .done (String.ofList (paint .boldGreen "verified".toList) ++ " " ++ request.file)

def rejected (paint : Paint) (request : Check) (d : Diagnostic) : Output :=
  if request.json then { status := 1, out := d.toJson ++ "\n" }
  else { status := 1, err := d.render paint ++ "\n" }

/-- The answer for the content of the file. -/
def judge (paint : Paint) (request : Check) (settings : Settings) (content : String) : Output :=
  let pipeline : Pipeline := { strict := settings.strictSafety, file := some request.file }
  if request.isEncoded then
    match Program.decode content with
    | .error error =>
      .failed paint s!"{request.file} is not a valid JSON program: {error.message}"
    | .ok program =>
      match pipeline.checkProgram program with
      | .ok _ => request.verified paint
      | .error report => request.rejected paint (.ofReport report none)
  else
    match pipeline.check content with
    | .ok _ => request.verified paint
    | .error report => request.rejected paint (.ofReport report (some content))

def run {m : Type → Type} [Monad m] (read : Path → m (Option String)) (paint : Paint)
    (request : Check) : m Output := do
  match ← read request.path with
  | none => pure (.failed paint s!"failed to read {request.file}")
  | some content =>
    let settings ← request.settings read
    pure (request.judge paint settings content)

end Check

/-! ### Running -/

def stopped (paint : Paint) : Stop → Output
  | .help level => .done (helpText level)
  | .version => .done versionText
  | .misuse cause => .failed paint cause.message

/-- Runs a command line; colours are used if they are wanted and not switched off. -/
def run {m : Type → Type} [Monad m] (read : Path → m (Option String)) (colours : Bool)
    (arguments : List String) : m Output :=
  match Invocation.ofArguments arguments with
  | .error stop => pure (stopped (.ofBool colours) stop)
  | .ok ⟨job, wanted⟩ =>
    let paint := Paint.ofBool (colours && wanted)
    match job with
    | .check request => request.run read paint
    | .explain code => pure (explain paint code)

/-- Runs a command line on a file tree, without colours. -/
def runIn (tree : FileTree) (arguments : List String) : Output :=
  Id.run (run (fun path => pure (tree.read? path)) false arguments)

end TuffSafety.Command
