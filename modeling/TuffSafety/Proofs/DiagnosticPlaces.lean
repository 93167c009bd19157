import TuffSafety.Pipeline
import TuffSafety.Proofs.Reading
import TuffSafety.Proofs.Rendering

/-!
# Every diagnostic points at a token

A report about a source text carries a location. It is the place of the first character of a token of
the text, of the token or comment that cannot be read, or, for a text that stops too early, of its
end. The excerpt of the report shows the line of that place. In a text of fewer than 2^32 characters
only the end can stand in a column that has no number.
-/
namespace TuffSafety

namespace Loc

/-- The location shows the line and the column, both counted from one, of the place behind a text. -/
def Shows (l : Loc) (before : List Char) : Prop :=
  l.line.toNat = before.count '\n' + 1 ∧ l.column.toNat = (Text.lastLine before).length + 1

variable {before rest text : List Char} {c : Char}

theorem ofPos_shows (h : before.length + 1 < 0x100000000) :
    (ofPos (Pos.start.afterAll before)).Shows before := by
  rw [Pos.start_afterAll]
  exact Pos.behind_shows_of_length h

/-- A text that is not made of newlines alone has fewer lines than 2^32. -/
theorem ofPos_shows_end (h : text.length < 0x100000000) (hc : c ∈ text) (hne : c ≠ '\n')
    (hlast : (Text.lastLine text).length < 0xffffffff) :
    (ofPos (Pos.start.afterAll text)).Shows text := by
  have hcount : text.count '\n' < text.length := by
    refine Nat.lt_of_le_of_ne List.count_le_length fun heq => hne ?_
    exact (List.count_eq_length.mp heq c hc).symm
  rw [Pos.start_afterAll]
  exact Pos.behind_shows (by omega) (by omega)

/-- A place with a character behind it is not the end. -/
theorem Shows.not_end {l : Loc} (hl : l.Shows before) : ¬ l.Shows (before ++ c :: rest) := by
  rintro ⟨hline, hcolumn⟩
  have hcount : (c :: rest).count '\n' = 0 := by
    rw [hl.1, List.count_append] at hline
    omega
  have hnewline : '\n' ∉ c :: rest := List.count_eq_zero.mp hcount
  rw [hl.2, Text.lastLine_append hnewline, List.length_append, List.length_cons] at hcolumn
  omega

end Loc

namespace Text

/-- At a character that is no newline there is a line. -/
theorem lineAt_cons_ne_nil {before rest : List Char} {c : Char} (hne : c ≠ '\n') :
    ¬ ('\n' ∉ c :: rest ∧ lineAt before (c :: rest) = []) := by
  rintro ⟨hnewline, hline⟩
  rw [lineAt, if_neg hnewline, List.takeWhile_cons_of_pos (by simpa using hne)] at hline
  exact List.cons_ne_nil _ _ (List.append_eq_nil_iff.mp hline).2

theorem lineAt_nil (text : List Char) : lineAt text [] = lastLine text :=
  List.append_nil _

end Text

namespace Pipeline

/-- A report that is given its source keeps its place and shows the line there. -/
theorem locate_report (p : Pipeline) (source : String) {r : Report} {l : Loc} (hloc : r.loc = some l)
    (hfile : l.filePath = none) (hexcerpt : r.excerpt = none) :
    (p.locate source r).loc = some { l with filePath := p.file } ∧
      (p.locate source r).excerpt = Text.excerpt? source l := by
  obtain ⟨code, message, loc, hint, details, excerpt⟩ := r
  obtain ⟨file, line, column⟩ := l
  subst hloc hfile hexcerpt
  obtain ⟨strict, path⟩ := p
  cases path <;> exact ⟨rfl, rfl⟩

/-- What is shown of a place between two parts of the source. -/
def ShowsLine (source : String) (before rest : List Char) (l : Loc) (excerpt : Option String) : Prop :=
  ∀ shown, excerpt = some shown →
    (Text.lines source)[l.line.toNat - 1]? = some (Text.lineAt before rest) ∧
      shown = Text.underlined (Text.lineAt before rest) (l.column.toNat - 1)

variable {source : String} {before rest : List Char} {l : Loc}

theorem excerpt_showsLine (hsource : source.toList = before ++ rest)
    (hline : l.line.toNat = before.count '\n' + 1) :
    ShowsLine source before rest l (Text.excerpt? source l) := by
  intro shown hshown
  rw [Text.excerpt?_eq hsource hline] at hshown
  split at hshown
  · cases hshown
  · rename_i hexists
    refine ⟨?_, (Option.some.inj hshown).symm⟩
    rw [hline, Nat.add_sub_cancel, Text.lines_get? hsource, if_neg hexists]

/-- A report at the first character of something. -/
theorem report_at_char (p : Pipeline) {r : Report} {c : Char} {cs : List Char}
    (hsource : source.toList = before ++ c :: cs) (hlen : source.length < 0x100000000) (hne : c ≠ '\n')
    (hloc : r.loc = some (Loc.ofPos (Pos.start.afterAll before))) (hexcerpt : r.excerpt = none) :
    ∃ l, (p.locate source r).loc = some l ∧ l.filePath = p.file ∧ l.Shows before ∧
      ¬ l.Shows source.toList ∧ (p.locate source r).excerpt ≠ none ∧
      ShowsLine source before (c :: cs) l (p.locate source r).excerpt := by
  rw [← String.length_toList, hsource] at hlen
  obtain ⟨hplace, hshown⟩ := p.locate_report source hloc rfl hexcerpt
  have hshows : (Loc.ofPos (Pos.start.afterAll before)).Shows before := by
    apply Loc.ofPos_shows
    rw [List.length_append, List.length_cons] at hlen
    omega
  have hend : ¬ (Loc.ofPos (Pos.start.afterAll before)).Shows source.toList := by
    rw [hsource]
    exact hshows.not_end
  refine ⟨_, hplace, rfl, hshows, hend, ?_, ?_⟩
  · rw [hshown, Text.excerpt?_eq hsource hshows.1, if_neg (Text.lineAt_cons_ne_nil hne)]
    exact Option.some_ne_none _
  · rw [hshown]
    exact excerpt_showsLine hsource hshows.1

/-- A report at the end of a text that is not made of newlines alone. -/
theorem report_at_end (p : Pipeline) {r : Report} {c : Char} (hlen : source.length < 0x100000000)
    (hlast : (Text.lastLine source.toList).length < 0xffffffff) (hc : c ∈ source.toList) (hne : c ≠ '\n')
    (hloc : r.loc = some (Loc.ofPos (Pos.start.afterAll source.toList)))
    (hexcerpt : r.excerpt = none) :
    ∃ l, (p.locate source r).loc = some l ∧ l.filePath = p.file ∧ l.Shows source.toList ∧
      ((p.locate source r).excerpt = none ↔ Text.lastLine source.toList = []) ∧
      ShowsLine source source.toList [] l (p.locate source r).excerpt := by
  rw [← String.length_toList] at hlen
  obtain ⟨hplace, hshown⟩ := p.locate_report source hloc rfl hexcerpt
  have hshows := Loc.ofPos_shows_end hlen hc hne hlast
  have hsource : source.toList = source.toList ++ [] := (List.append_nil _).symm
  refine ⟨_, hplace, rfl, hshows, ?_, ?_⟩
  · rw [hshown, Text.excerpt?_eq hsource hshows.1, Text.lineAt_nil]
    simp
  · rw [hshown]
    exact excerpt_showsLine hsource hshows.1

end Pipeline

/-! ### The places of tokens -/

theorem Scan.TokenStarts.head {source : String} {before rest : List Char}
    (h : TokenStarts source before rest) :
    ∃ c cs, rest = c :: cs ∧ c ≠ '\n' ∧ source.toList = before ++ c :: cs := by
  obtain ⟨⟨hsource, -⟩, kind, next, hfound⟩ := h
  obtain ⟨-, -, c, cs, rfl, hne⟩ := step_found hfound
  exact ⟨c, cs, rfl, hne, hsource⟩

theorem Scan.FaultStarts.head {source : String} {before rest : List Char} {fault : LexFault}
    (h : FaultStarts source before rest fault) :
    ∃ c cs, rest = c :: cs ∧ c ≠ '\n' ∧ source.toList = before ++ c :: cs := by
  obtain ⟨⟨hsource, -⟩, hfailed⟩ := h
  obtain ⟨c, cs, rfl, hne⟩ := step_failed hfailed
  exact ⟨c, cs, rfl, hne, hsource⟩

section

variable {source : String} {tokens : List Token} {l : Loc}

theorem Token.scan_hasEnd (h : Token.scan source = .ok tokens) : ∃ t ∈ tokens, t.kind = .eof := by
  obtain ⟨passed, rfl, -⟩ := Token.scan_ok h
  exact ⟨_, List.mem_append_right _ List.mem_cons_self, rfl⟩

theorem Parse.AtWord.starts (h : Token.scan source = .ok tokens) (hl : AtWord tokens l) :
    ∃ before rest, l = Loc.ofPos (Pos.start.afterAll before) ∧
      Scan.TokenStarts source before rest := by
  obtain ⟨t, ht, hkind, rfl⟩ := hl
  obtain ⟨passed, rfl, hpassed⟩ := Token.scan_ok h
  rcases List.mem_append.mp ht with ht | ht
  · obtain ⟨-, before, rest, hpos, hstarts⟩ := hpassed t ht
    exact ⟨before, rest, congrArg Loc.ofPos hpos, hstarts⟩
  · rw [List.mem_singleton.mp ht] at hkind
    exact absurd rfl hkind

theorem Parse.AtToken.starts (h : Token.scan source = .ok tokens) (hl : AtToken tokens l) :
    (∃ before rest, l = Loc.ofPos (Pos.start.afterAll before) ∧
      Scan.TokenStarts source before rest) ∨
      l = Loc.ofPos (Pos.start.afterAll source.toList) := by
  obtain ⟨t, ht, rfl⟩ := hl
  obtain ⟨passed, rfl, hpassed⟩ := Token.scan_ok h
  rcases List.mem_append.mp ht with ht | ht
  · obtain ⟨-, before, rest, hpos, hstarts⟩ := hpassed t ht
    exact .inl ⟨before, rest, congrArg Loc.ofPos hpos, hstarts⟩
  · rw [List.mem_singleton.mp ht]
    exact .inr rfl

/-- A text without tokens is the empty program, so one that fails has a character to show. -/
theorem Program.parse_fails_nonblank {fault : Located ParseFault}
    (h : Token.scan source = .ok tokens) (hparse : Program.parse tokens = .error fault) :
    ∃ c ∈ source.toList, c ≠ '\n' := by
  obtain ⟨passed, rfl, hpassed⟩ := Token.scan_ok h
  cases passed with
  | nil => cases hparse
  | cons t passed =>
    obtain ⟨-, before, rest, -, hstarts⟩ := hpassed t List.mem_cons_self
    obtain ⟨c, cs, -, hne, hsource⟩ := hstarts.head
    exact ⟨c, hsource ▸ List.mem_append_right _ List.mem_cons_self, hne⟩

end

/-- A report is made by the first stage that fails. -/
theorem Pipeline.check_error {p : Pipeline} {source : String} {e : Report}
    (h : p.check source = .error e) :
    (∃ fault pos, Token.scan source = .error (fault, pos) ∧ e = p.locate source (fault.report pos)) ∨
      ∃ tokens, Token.scan source = .ok tokens ∧
        ((∃ cause loc, Program.parse tokens = .error ⟨cause, loc⟩ ∧
            e = p.locate source (cause.report loc)) ∨
          ∃ program cause loc, Program.parse tokens = .ok program ∧
            program.check p.strict = .error ⟨cause, loc⟩ ∧ e = p.locate source (cause.report loc)) := by
  unfold Pipeline.check Pipeline.parse at h
  cases hscan : Token.scan source with
  | error fault =>
    rw [hscan] at h
    exact .inl ⟨fault.1, fault.2, rfl, (Except.error.inj h).symm⟩
  | ok tokens =>
    rw [hscan] at h
    refine .inr ⟨tokens, rfl, ?_⟩
    dsimp only at h
    cases hparse : Program.parse tokens with
    | error fault =>
      rw [hparse] at h
      exact .inl ⟨fault.cause, fault.loc, rfl, (Except.error.inj h).symm⟩
    | ok program =>
      rw [hparse] at h
      dsimp only [bind, Except.bind] at h
      cases hcheck : program.check p.strict with
      | error fault =>
        rw [hcheck] at h
        exact .inr ⟨program, fault.cause, fault.loc, rfl, hcheck, (Except.error.inj h).symm⟩
      | ok =>
        rw [hcheck] at h
        cases h

/-- Every report about a text carries a location, if the text has fewer than 2^32 characters and the end
of its last line a column with a number. A fault of the scanner points at the first character of what
cannot be read, a fault of the parser at the first character of a token or at the end, and a fault of
the checker at the first character of a token, never at the end. The excerpt is missing exactly at an
end behind a newline, and otherwise shows the line of the place with a caret under its column. -/
theorem diagnostic_points_at_token (p : Pipeline) (source : String) (e : Report)
    (hlen : source.length < 0x100000000) (hlast : (Text.lastLine source.toList).length < 0xffffffff)
    (h : p.check source = .error e) :
    ∃ l before rest, e.loc = some l ∧ l.filePath = p.file ∧ source.toList = before ++ rest ∧
      l.Shows before ∧
      ((∃ fault pos, Token.scan source = .error (fault, pos) ∧
          Scan.FaultStarts source before rest fault) ∨
        ∃ tokens, Token.scan source = .ok tokens ∧
          ((∃ fault, Program.parse tokens = .error fault ∧
              (Scan.TokenStarts source before rest ∨ rest = [])) ∨
            ∃ program fault, Program.parse tokens = .ok program ∧
              program.check p.strict = .error fault ∧ Scan.TokenStarts source before rest ∧
                ¬ l.Shows source.toList)) ∧
      (e.excerpt = none ↔ l.Shows source.toList ∧ Text.lastLine source.toList = []) ∧
      ∀ shown, e.excerpt = some shown →
        (Text.lines source)[l.line.toNat - 1]? = some (Text.lineAt before rest) ∧
          shown = Text.underlined (Text.lineAt before rest) (l.column.toNat - 1) := by
  rcases Pipeline.check_error h with
    ⟨fault, pos, hscan, rfl⟩ |
    ⟨tokens, hscan, ⟨cause, loc, hparse, rfl⟩ | ⟨program, cause, loc, hparse, hcheck, rfl⟩⟩
  · obtain ⟨before, rest, rfl, hstarts⟩ := Token.scan_error hscan
    obtain ⟨c, cs, rfl, hne, hsource⟩ := hstarts.head
    obtain ⟨l, hloc, hfile, hshows, hend, hexcerpt, hline⟩ :=
      p.report_at_char (r := fault.report _) hsource hlen hne rfl rfl
    exact ⟨l, before, c :: cs, hloc, hfile, hsource, hshows, .inl ⟨fault, _, hscan, hstarts⟩,
      iff_of_false hexcerpt fun h => hend h.1, hline⟩
  · obtain ⟨l, rfl, hl⟩ := Program.parse_blames (Token.scan_hasEnd hscan) _ hparse
    rcases hl.starts hscan with ⟨before, rest, rfl, hstarts⟩ | rfl
    · obtain ⟨c, cs, rfl, hne, hsource⟩ := hstarts.head
      obtain ⟨l, hloc, hfile, hshows, hend, hexcerpt, hline⟩ :=
        p.report_at_char (r := cause.report _) hsource hlen hne rfl rfl
      exact ⟨l, before, c :: cs, hloc, hfile, hsource, hshows,
        .inr ⟨tokens, hscan, .inl ⟨_, hparse, .inl hstarts⟩⟩,
        iff_of_false hexcerpt fun h => hend h.1, hline⟩
    · obtain ⟨c, hc, hne⟩ := Program.parse_fails_nonblank hscan hparse
      obtain ⟨l, hloc, hfile, hend, hexcerpt, hline⟩ :=
        p.report_at_end (r := cause.report _) hlen hlast hc hne rfl rfl
      exact ⟨l, source.toList, [], hloc, hfile, (List.append_nil _).symm, hend,
        .inr ⟨tokens, hscan, .inl ⟨_, hparse, .inr rfl⟩⟩,
        hexcerpt.trans (and_iff_right hend).symm, hline⟩
  · have hplaced := Program.parse_placed (Token.scan_hasEnd hscan) hparse
    obtain ⟨l, rfl, hl⟩ := Program.check_blames hplaced p.strict _ hcheck
    obtain ⟨before, rest, rfl, hstarts⟩ := hl.starts hscan
    obtain ⟨c, cs, rfl, hne, hsource⟩ := hstarts.head
    obtain ⟨l, hloc, hfile, hshows, hend, hexcerpt, hline⟩ :=
      p.report_at_char (r := cause.report _) hsource hlen hne rfl rfl
    exact ⟨l, before, c :: cs, hloc, hfile, hsource, hshows,
      .inr ⟨tokens, hscan, .inr ⟨program, _, hparse, hcheck, hstarts, hend⟩⟩,
      iff_of_false hexcerpt fun h => hend h.1, hline⟩

namespace Negated

/-- A number is negated as if it were a truth value, on the second line. -/
def source : String := "\n !1;"

def tokens : List Token :=
  [⟨.symbol .bang, ⟨2, 2⟩⟩, ⟨.number 1 none, ⟨2, 3⟩⟩, ⟨.symbol .semicolon, ⟨2, 4⟩⟩]

theorem passes : Scan.Passes ⟨Pos.start, source.toList⟩ tokens ⟨⟨2, 5⟩, []⟩ := by
  refine .skip (show Scan.step _ = .skipped ⟨⟨2, 1⟩, [' ', '!', '1', ';']⟩ from rfl) ?_
  refine .skip (show Scan.step _ = .skipped ⟨⟨2, 2⟩, ['!', '1', ';']⟩ from rfl) ?_
  refine .take (show Scan.step _ = .found _ ⟨⟨2, 3⟩, ['1', ';']⟩ from rfl) ?_
  refine .take (show Scan.step _ = .found _ ⟨⟨2, 4⟩, [';']⟩ from rfl) ?_
  exact .take (show Scan.step _ = .found _ ⟨⟨2, 5⟩, []⟩ from rfl) .here

theorem scan_source : Token.scan source = .ok (tokens ++ [⟨.eof, ⟨2, 5⟩⟩]) :=
  passes.tokens_eq rfl

/-- The program that the tokens spell. -/
def program : Program :=
  ⟨[.expr (.unary .not (.number 1 none (some ⟨none, 2, 3⟩)) (some ⟨none, 2, 2⟩)) (some ⟨none, 2, 2⟩)]⟩

theorem parse_tokens : Program.parse (tokens ++ [⟨.eof, ⟨2, 5⟩⟩]) = .ok program := by
  rfl

theorem check_program (strict : Bool) :
    program.check strict = .error ⟨.notOperand "I32", some ⟨none, 2, 2⟩⟩ := by
  cases strict <;> rfl

theorem check_source : ∃ e, Pipeline.check {} source = .error e := by
  unfold Pipeline.check Pipeline.parse
  rw [scan_source]
  dsimp only
  rw [parse_tokens]
  dsimp only [bind, Except.bind]
  rw [check_program]
  exact ⟨_, rfl⟩

end Negated

/-- The report about the misplaced negation points at the exclamation mark. -/
theorem diagnostic_points_at_negation :
    Negated.source.length < 0x100000000 ∧ (Text.lastLine Negated.source.toList).length < 0xffffffff ∧
      ∃ e l before rest, Pipeline.check {} Negated.source = .error e ∧
      e.loc = some l ∧ Scan.TokenStarts Negated.source before rest ∧ l.Shows before ∧
      ¬ l.Shows Negated.source.toList ∧ e.excerpt ≠ none := by
  have hlen : Negated.source.length < 0x100000000 := by decide
  have hlast : (Text.lastLine Negated.source.toList).length < 0xffffffff := by decide
  obtain ⟨e, hcheck⟩ := Negated.check_source
  obtain ⟨l, before, rest, hloc, -, -, hshows, hstage, hexcerpt, -⟩ :=
    diagnostic_points_at_token {} Negated.source e hlen hlast hcheck
  rcases hstage with ⟨fault, pos, hscan, -⟩ | ⟨tokens, hscan, hstage⟩
  · rw [Negated.scan_source] at hscan
    cases hscan
  · rw [Negated.scan_source] at hscan
    obtain rfl := Except.ok.inj hscan
    rcases hstage with ⟨fault, hparse, -⟩ | ⟨program, fault, -, -, hstarts, hend⟩
    · rw [Negated.parse_tokens] at hparse
      cases hparse
    · exact ⟨hlen, hlast, e, l, before, rest, hcheck, hloc, hstarts, hshows, hend,
        fun hnone => hend (hexcerpt.mp hnone).1⟩

namespace Unfinished

/-- The word `let` and spaces. -/
def pieces (n : Nat) : List Piece := [⟨.symbol .kwLet, ' ' :: List.replicate n ' '⟩]

def text (n : Nat) : List Char := Piece.textAll (pieces n)

theorem newline_not_mem (n : Nat) : '\n' ∉ text n := by
  simp [text, pieces, Piece.textAll, Piece.text, TokenKind.render, Symbol.spelling, List.mem_replicate]

theorem length_text (n : Nat) : (text n).length = n + 4 := by
  simp [text, pieces, Piece.textAll, Piece.text, TokenKind.render, Symbol.spelling]

theorem spaced_pieces (n : Nat) : Piece.Spaced (pieces n) :=
  .cons (.symbol .kwLet) rfl (.spaces n) .nil

theorem scan_text (n : Nat) :
    Token.scan (String.ofList (text n)) =
      .ok [⟨.symbol .kwLet, ⟨1, 1⟩⟩, ⟨.eof, ⟨1, (n + 5).toUInt32⟩⟩] := by
  have hscan := Token.scan_textAll .nil (spaced_pieces n)
  rw [List.nil_append, ← text, Pos.behind_of_not_mem (newline_not_mem n), length_text] at hscan
  rw [hscan]
  rfl

theorem parse_tokens (start stop : Pos) :
    ∃ cause, Program.parse [⟨.symbol .kwLet, start⟩, ⟨.eof, stop⟩] =
      .error ⟨cause, some (Loc.ofPos stop)⟩ :=
  ⟨_, rfl⟩

/-- The text stops too early, and the report points at the end as far as columns can be counted. -/
theorem check_text (n : Nat) :
    ∃ e, Pipeline.check {} (String.ofList (text n)) = .error e ∧
      e.loc = some ⟨none, 1, (n + 5).toUInt32⟩ ∧
      e.excerpt = some (Text.underlined (text n) ((n + 5).toUInt32.toNat - 1)) := by
  obtain ⟨cause, hparse⟩ := parse_tokens ⟨1, 1⟩ ⟨1, (n + 5).toUInt32⟩
  obtain ⟨hloc, hexcerpt⟩ := Pipeline.locate_report {} (String.ofList (text n))
    (r := cause.report (some (Loc.ofPos ⟨1, (n + 5).toUInt32⟩))) rfl rfl rfl
  refine ⟨_, ?_, hloc, ?_⟩
  · unfold Pipeline.check Pipeline.parse
    rw [scan_text]
    dsimp only
    rw [hparse]
    rfl
  · have hsource : (String.ofList (text n)).toList = text n ++ [] := by
      rw [String.toList_ofList, List.append_nil]
    have hline : (Loc.ofPos ⟨1, (n + 5).toUInt32⟩).line.toNat = (text n).count '\n' + 1 := by
      rw [List.count_eq_zero.mpr (newline_not_mem n)]
      rfl
    have hlast := Text.lastLine_of_not_mem (newline_not_mem n)
    rw [hexcerpt, Text.excerpt?_eq hsource hline, Text.lineAt_nil, hlast, if_neg]
    · rfl
    · intro h
      have hlen := length_text n
      rw [h.2] at hlen
      cases hlen

end Unfinished

open Unfinished in
/-- The end of a line of 2^32-1 characters stands in column 2^32. It is reported in column zero, and
the caret stands under the first character. -/
theorem diagnostic_column_wraps :
    let source := String.ofList (text 0xfffffffb)
    source.length = 0xffffffff ∧ (Text.lastLine source.toList).length + 1 = 0x100000000 ∧
      ∃ e l, Pipeline.check {} source = .error e ∧ e.loc = some l ∧ l.line = 1 ∧ l.column = 0 ∧
        ¬ l.Shows source.toList ∧ e.excerpt = some (Text.underlined source.toList 0) := by
  intro source
  have hsource : source.toList = text 0xfffffffb := String.toList_ofList
  have hlast : (Text.lastLine source.toList).length + 1 = 0x100000000 := by
    rw [hsource, Text.lastLine_of_not_mem (newline_not_mem _), length_text]
  obtain ⟨e, hcheck, hloc, hexcerpt⟩ := check_text 0xfffffffb
  refine ⟨?_, hlast, e, _, hcheck, hloc, rfl, rfl, fun h => ?_, ?_⟩
  · rw [← String.length_toList, hsource, length_text]
  · have hcolumn := h.2.trans hlast
    cases hcolumn
  · rw [hsource]
    exact hexcerpt

end TuffSafety
