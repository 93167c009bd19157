import TuffSafety.Diagnostic
import TuffSafety.Proofs.Positions

/-!
# The layout of a diagnostic can be read back

A diagnostic is laid out as a line with its code and location and four sections, each a heading and an
indented text. The texts come from the user and may hold anything: newlines, blank lines, lines that
look like a heading. Every line of them is indented by four spaces, and a heading by two only, so a
section ends where the indentation does. `Sections.ofPlain?` reads the layout that way and finds every
text as it was.
-/
namespace TuffSafety

namespace Code

theorem text_plain (code : Code) : ' ' ∉ code.text.toList ∧ '\n' ∉ code.text.toList := by
  cases code <;> decide

theorem ofText?_text (code : Code) : ofText? code.text = some code := by
  cases code <;> rfl

end Code

/-! ### Reading a layout -/

/-- What a layout shows. -/
structure Sections where
  code : Code
  location : String
  source : String
  cause : String
  reason : String
  fix : String
deriving DecidableEq, Repr

namespace Sections

/-- What stands in front of every line of a section. -/
def margin : List Char :=
  [' ', ' ', ' ', ' ']

def isIndented (line : List Char) : Bool :=
  margin.isPrefixOf line

def heading (label : String) : List Char :=
  ' ' :: ' ' :: label.toList

/-- The text below a heading, as far as it is indented, and the lines behind it. -/
def part? (label : String) : List (List Char) → Option (String × List (List Char))
  | [] => none
  | first :: lines =>
    if first = heading label then
      let own := (lines.takeWhile isIndented).map (List.drop margin.length)
      some (String.ofList (['\n'].intercalate own), lines.dropWhile isIndented)
    else none

/-- The code up to the first space of a line, and the location behind it. -/
def header? (line : List Char) : Option (Code × String) := do
  let code ← Code.ofText? (String.ofList (line.takeWhile (· ≠ ' ')))
  return (code, String.ofList ((line.dropWhile (· ≠ ' ')).drop 1))

def ofLines? : List (List Char) → Option Sections
  | [] => none
  | first :: lines => do
    let (code, location) ← header? first
    let (source, lines) ← part? "source:" lines
    let (cause, lines) ← part? "cause:" lines
    let (reason, lines) ← part? "reason:" lines
    let (fix, _) ← part? "fix:" lines
    return { code, location, source, cause, reason, fix }

def ofPlain? (text : String) : Option Sections :=
  ofLines? (Text.splitOn '\n' text.toList)

/-! ### Lines of a section -/

/-- The lines of a section as they are laid out. -/
def laidOut (label text : String) : List (List Char) :=
  heading label :: (Text.splitOn '\n' text.toList).map (margin ++ ·)

theorem isIndented_margin (line : List Char) : isIndented (margin ++ line) = true :=
  List.isPrefixOf_iff_prefix.mpr (List.prefix_append margin line)

/-- The lines behind a section start with one that is not indented, if there are any. -/
theorem part?_laidOut (label text : String) (lines : List (List Char))
    (h : ∀ line ∈ lines.head?, isIndented line = false) :
    part? label (laidOut label text ++ lines) = some (text, lines) := by
  have hown : ∀ line ∈ (Text.splitOn '\n' text.toList).map (margin ++ ·), isIndented line = true := by
    intro line hline
    obtain ⟨piece, -, rfl⟩ := List.mem_map.mp hline
    exact isIndented_margin piece
  have htake : lines.takeWhile isIndented = [] := by
    cases lines with
    | nil => rfl
    | cons line lines => exact List.takeWhile_cons_of_neg (by simp [h line rfl])
  have hdrop : lines.dropWhile isIndented = lines := by
    cases lines with
    | nil => rfl
    | cons line lines => exact List.dropWhile_cons_of_neg (by simp [h line rfl])
  have hback : ((Text.splitOn '\n' text.toList).map (margin ++ ·)).map (List.drop margin.length) =
      Text.splitOn '\n' text.toList := by
    rw [List.map_map]
    exact List.map_id'' (fun line => List.drop_left' rfl) _
  rw [laidOut, List.cons_append, part?, if_pos rfl, List.takeWhile_append_of_pos hown,
    List.dropWhile_append_of_pos hown, htake, hdrop, List.append_nil, hback]
  dsimp only
  rw [Text.intercalate_splitOn, String.ofList_toList]

/-- The last section ends with the layout, any other with the heading of the next one. -/
theorem part?_last (label text : String) :
    part? label (laidOut label text) = some (text, []) := by
  have h := part?_laidOut label text [] fun line hline => by cases hline
  rwa [List.append_nil] at h

theorem part?_next (label text : String) {label' : String} (text' : String)
    (lines : List (List Char)) (h : isIndented (heading label') = false) :
    part? label (laidOut label text ++ (laidOut label' text' ++ lines)) =
      some (text, laidOut label' text' ++ lines) := by
  apply part?_laidOut
  intro line hline
  cases hline
  exact h

theorem header?_eq (code : Code) (location : String) :
    header? (code.text.toList ++ ' ' :: location.toList) = some (code, location) := by
  have hspace : ∀ c ∈ code.text.toList, decide (c ≠ ' ') = true := by
    intro c hc
    exact decide_eq_true fun heq => code.text_plain.1 (heq ▸ hc)
  simp only [header?, List.takeWhile_append_of_pos hspace, List.dropWhile_append_of_pos hspace]
  simp [Code.ofText?_text]

end Sections

/-! ### The lines of a layout -/

namespace Diagnostic

open Sections (margin laidOut)

def sections (d : Diagnostic) : Sections where
  code := d.code
  location := d.location
  source := d.source
  cause := d.message
  reason := d.reason
  fix := d.fix

/-- Indenting a text keeps its first line and puts the margin in front of the later ones. -/
theorem splitOn_indented (text : List Char) :
    ∃ first later, Text.splitOn '\n' text = first :: later ∧
      Text.splitOn '\n' (text.flatMap fun c => if c = '\n' then "\n    ".toList else [c]) =
        first :: later.map (margin ++ ·) := by
  induction text with
  | nil => exact ⟨[], [], rfl, rfl⟩
  | cons c text ih =>
    obtain ⟨first, later, htext, hindented⟩ := ih
    rw [List.flatMap_cons]
    by_cases hc : c = '\n'
    · -- The margin that replaces the newline comes to stand in front of what was the first line.
      refine ⟨[], first :: later, ?_, ?_⟩
      · rw [hc, Text.splitOn_separator, htext]
      · rw [if_pos hc]
        change Text.splitOn '\n' ('\n' :: (margin ++ _)) = _
        rw [Text.splitOn_separator, Text.splitOn_prepend (by decide) hindented]
        rfl
    · have hfront : '\n' ∉ [c] := by simpa using Ne.symm hc
      refine ⟨c :: first, later, Text.splitOn_prepend hfront htext, ?_⟩
      rw [if_neg hc]
      exact Text.splitOn_prepend hfront hindented

theorem splitOn_indent (text : String) :
    Text.splitOn '\n' (indent text) = (Text.splitOn '\n' text.toList).map (margin ++ ·) := by
  obtain ⟨first, later, htext, hindented⟩ := splitOn_indented text.toList
  rw [htext]
  exact Text.splitOn_prepend (by decide) hindented

theorem splitOn_plain {d : Diagnostic} (h : '\n' ∉ d.location.toList) :
    Text.splitOn '\n' d.plain.toList =
      (d.code.text.toList ++ ' ' :: d.location.toList) ::
        (laidOut "source:" d.source ++ (laidOut "cause:" d.message ++
          (laidOut "reason:" d.reason ++ laidOut "fix:" d.fix))) := by
  have hheader : '\n' ∉ d.code.text.toList ++ ' ' :: d.location.toList := by
    rw [List.mem_append, List.mem_cons]
    rintro (hcode | hspace | hlocation)
    · exact d.code.text_plain.2 hcode
    · exact absurd hspace (by decide)
    · exact h hlocation
  have hheading : ∀ label ∈ ["source:", "cause:", "reason:", "fix:"],
      Text.splitOn '\n' (' ' :: ' ' :: label.toList) = [Sections.heading label] := by
    decide
  rw [plain, render, String.toList_ofList, rows, Text.splitOn_intercalate (List.cons_ne_nil _ _)]
  simp only [Text.Paint.off, List.flatMap_cons, List.flatMap_nil, List.append_nil,
    Text.splitOn_of_not_mem hheader, splitOn_indent, laidOut]
  rw [hheading "source:" (by decide), hheading "cause:" (by decide), hheading "reason:" (by decide),
    hheading "fix:" (by decide)]
  rfl

/-- The reader finds what was laid out. -/
theorem ofPlain?_plain {d : Diagnostic} (h : '\n' ∉ d.location.toList) :
    Sections.ofPlain? d.plain = some d.sections := by
  have hcause : Sections.isIndented (Sections.heading "cause:") = false := rfl
  have hreason : Sections.isIndented (Sections.heading "reason:") = false := rfl
  have hfix : Sections.isIndented (Sections.heading "fix:") = false := rfl
  have hlast := Sections.part?_next "reason:" d.reason d.fix [] hfix
  rw [List.append_nil] at hlast
  simp only [Sections.ofPlain?, splitOn_plain h, Sections.ofLines?, Sections.header?_eq,
    Sections.part?_next _ _ _ _ hcause, Sections.part?_next _ _ _ _ hreason, hlast,
    Sections.part?_last, Option.bind_eq_bind, Option.bind_some]
  rfl

end Diagnostic

/-- Where locations have no newline, the layout of a diagnostic is read back as it was, so diagnostics
that are laid out alike agree in everything that is shown. -/
theorem layout_unambiguous :
    (∀ d : Diagnostic, '\n' ∉ d.location.toList →
      Sections.ofPlain? d.plain = some d.sections) ∧
    ∀ d d' : Diagnostic, '\n' ∉ d.location.toList → '\n' ∉ d'.location.toList →
      d.plain = d'.plain →
      d.code = d'.code ∧ d.location = d'.location ∧ d.source = d'.source ∧
        d.message = d'.message ∧ d.reason = d'.reason ∧ d.fix = d'.fix := by
  refine ⟨fun d => Diagnostic.ofPlain?_plain, ?_⟩
  intro d d' h h' hplain
  have hread := Diagnostic.ofPlain?_plain h
  rw [hplain, Diagnostic.ofPlain?_plain h'] at hread
  obtain ⟨hcode, hlocation, hsource, hcause, hreason, hfix⟩ :=
    Sections.mk.inj (Option.some.inj hread)
  exact ⟨hcode.symm, hlocation.symm, hsource.symm, hcause.symm, hreason.symm, hfix.symm⟩

namespace Forged

/-- A diagnostic whose message goes on like a section of its own. -/
def diagnostic (filePath : Option String) : Diagnostic where
  code := .typeMismatch
  message := "bad\n  reason:\n    none\n\n  fix:\n"
  loc := some { filePath, line := 1, column := 3 }
  source := "let x\n  ^"
  reason := "the types differ\n  cause:"
  fix := ""

end Forged

/-- Texts that imitate headings are told apart from them, and places that are written alike are the
only difference that a layout hides. -/
theorem layout_unambiguous_forged :
    Forged.diagnostic none ≠ Forged.diagnostic (some "<memory>") ∧
      Sections.ofPlain? (Forged.diagnostic none).plain = some (Forged.diagnostic none).sections ∧
      (Forged.diagnostic none).message = (Forged.diagnostic (some "<memory>")).message := by
  have hnone : '\n' ∉ (Forged.diagnostic none).location.toList := by decide +kernel
  have hsome : '\n' ∉ (Forged.diagnostic (some "<memory>")).location.toList := by decide +kernel
  obtain ⟨hread, hunique⟩ := layout_unambiguous
  exact ⟨by decide, hread _ hnone, (hunique _ _ hnone hsome rfl).2.2.2.1⟩

end TuffSafety
