/-!
# Coloured text

Terminal styles as escape sequences. A styled text is opened once and closed once; where the text
itself closes a style, the style is opened again.
-/
namespace TuffSafety.Text

inductive Style where
  | bold
  | dim
  | green
  | cyan
  | boldRed
  | boldGreen
deriving DecidableEq, Repr

namespace Style

def code : Style → String
  | bold => "1"
  | dim => "2"
  | green => "32"
  | cyan => "36"
  | boldRed => "1;31"
  | boldGreen => "1;32"

def opening (style : Style) : List Char :=
  '\x1b' :: '[' :: style.code.toList ++ ['m']

def closing : List Char :=
  ['\x1b', '[', '0', 'm']

/-- The text with an opening behind every closing in it. -/
def reopened (style : Style) : List Char → List Char
  | '\x1b' :: '[' :: '0' :: 'm' :: rest => closing ++ style.opening ++ reopened style rest
  | c :: rest => c :: reopened style rest
  | [] => []

def apply (style : Style) (text : List Char) : List Char :=
  style.opening ++ style.reopened text ++ closing

end Style

/-- How a styled text is written. -/
abbrev Paint : Type :=
  Style → List Char → List Char

namespace Paint

/-- Styles are left out. -/
def off : Paint :=
  fun _ text => text

def on : Paint :=
  Style.apply

def ofBool (colours : Bool) : Paint :=
  if colours then on else off

end Paint

end TuffSafety.Text
