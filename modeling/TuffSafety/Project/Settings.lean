import TuffSafety.Json.Decode
import TuffSafety.Project.FileTree

/-!
# Project settings

The settings of a project stand in a file `tuff.json` at or above the directory of the input. A file
that is not there or cannot be decoded is passed over; without any the checks are strict.
-/
namespace TuffSafety

structure Settings where
  /-- Whether the safety proofs are asked for. -/
  strictSafety : Bool := true
deriving DecidableEq, Repr

namespace Settings

def fileName : String :=
  "tuff.json"

def ofDoc (doc : Doc) : Decoded Settings :=
  Settings.mk <$> Decode.soleField "TuffConfig" "typecheck" true
    (Decode.soleField "CheckOptions" "strictSafety" true Decode.docBool) doc

def decode (text : String) : Decoded Settings :=
  Decode.wholeText ofDoc text

def encode (s : Settings) : Json :=
  .object [⟨"typecheck", .object [⟨"strictSafety", .bool s.strictSafety⟩]⟩]

/-- Where the settings for a directory may stand, nearest first. -/
def places (start : Path) : List Path :=
  start.ancestors.map fun dir => dir.child fileName

/-- The nearest settings file, whether or not it can be decoded. -/
def find? (tree : FileTree) (start : Path) : Option Path :=
  (places start).find? tree.isFile

/-- The settings a text holds, if it can be decoded. -/
def usable? (text : String) : Option Settings :=
  (decode text).toOption

/-- The settings of the first place that has usable ones. -/
def firstUsable {m : Type → Type} [Monad m] (read : Path → m (Option String)) :
    List Path → m Settings
  | [] => pure {}
  | place :: rest => do
    match (← read place).bind usable? with
    | some settings => pure settings
    | none => firstUsable read rest

/-- The settings for a directory. -/
def discover {m : Type → Type} [Monad m] (read : Path → m (Option String)) (start : Path) :
    m Settings :=
  firstUsable read (places start)

end Settings

end TuffSafety
