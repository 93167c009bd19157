import Mathlib.Data.List.Induction
import TuffSafety.Text.Lines
import TuffSafety.Token.Scan

/-!
# Where the tokens of a text stand

The scanner counts lines and columns while it moves. Whatever it has read, its place is the one that
counting with 32 bits gives: one line for every newline behind it, one column for every character since
the last of them. A scan is a run of single steps, and every token carries the place the scanner had reached when
the token's first character was next.
-/
namespace TuffSafety

/-! ### Counting lines and columns -/

namespace Text

/-- The text behind the last newline. -/
def lastLine (text : List Char) : List Char :=
  (text.reverse.takeWhile (· != '\n')).reverse

theorem lastLine_snoc_newline (text : List Char) : lastLine (text ++ ['\n']) = [] := by
  simp [lastLine]

theorem lastLine_append {text' : List Char} (h : '\n' ∉ text') (text : List Char) :
    lastLine (text ++ text') = lastLine text ++ text' := by
  have hall : ∀ c ∈ text'.reverse, (c != '\n') = true := by
    intro c hc
    rw [bne_iff_ne]
    rintro rfl
    exact h (List.mem_reverse.mp hc)
  unfold lastLine
  rw [List.reverse_append, List.takeWhile_append_of_pos hall, List.reverse_append,
    List.reverse_reverse]

theorem lastLine_of_not_mem {text : List Char} (h : '\n' ∉ text) : lastLine text = text :=
  lastLine_append h []

/-- What stands before a newline does not count. -/
theorem lastLine_append_newline (text text' : List Char) :
    lastLine (text ++ '\n' :: text') = lastLine text' := by
  induction text' using List.reverseRecOn with
  | nil => exact lastLine_snoc_newline text
  | append_singleton text' c ih =>
    rw [← List.cons_append, ← List.append_assoc]
    by_cases hc : c = '\n'
    · rw [hc, lastLine_snoc_newline, lastLine_snoc_newline]
    · have hnot : '\n' ∉ [c] := by simpa using Ne.symm hc
      rw [lastLine_append hnot, lastLine_append hnot, ih]

theorem lastLine_length_le (text : List Char) : (lastLine text).length ≤ text.length := by
  have h := (List.takeWhile_prefix (l := text.reverse) (· != '\n')).length_le
  rwa [lastLine, List.length_reverse, ← @List.length_reverse _ text]

end Text

namespace Pos

theorem afterAll_append (p : Pos) (text text' : List Char) :
    p.afterAll (text ++ text') = (p.afterAll text).afterAll text' :=
  List.foldl_append

/-- The place behind a text: a line for every newline, a column for every character since the last. -/
def behind (text : List Char) : Pos :=
  ⟨(text.count '\n' + 1).toUInt32, ((Text.lastLine text).length + 1).toUInt32⟩

/-- Moving character by character counts the newlines and the characters behind the last one. -/
theorem start_afterAll (text : List Char) : start.afterAll text = behind text := by
  induction text using List.reverseRecOn with
  | nil => rfl
  | append_singleton text c ih =>
    rw [afterAll_append, ih, afterAll, List.foldl_cons, List.foldl_nil, after, behind, behind]
    by_cases hc : c = '\n'
    · rw [if_pos hc, hc, Text.lastLine_snoc_newline, List.count_append]
      exact congrArg (Pos.mk · 1) (UInt32.ofNat_add ..).symm
    · have hnot : '\n' ∉ [c] := by simpa using Ne.symm hc
      rw [if_neg hc, Text.lastLine_append hnot, List.count_append, List.count_eq_zero.mpr hnot,
        List.length_append]
      exact congrArg (Pos.mk _ ·) (UInt32.ofNat_add ..).symm

theorem behind_of_not_mem {text : List Char} (h : '\n' ∉ text) :
    behind text = ⟨1, (text.length + 1).toUInt32⟩ := by
  rw [behind, List.count_eq_zero.mpr h, Text.lastLine_of_not_mem h]
  rfl

theorem behind_afterAll (before text : List Char) :
    (behind before).afterAll text = behind (before ++ text) := by
  rw [← start_afterAll, ← start_afterAll, afterAll_append]

/-- The line and the column, both counted from one, of the place behind a text. -/
def Shows (p : Pos) (before : List Char) : Prop :=
  p.line.toNat = before.count '\n' + 1 ∧ p.column.toNat = (Text.lastLine before).length + 1

/-- Counting is right as long as there is a number for the line and for the column. -/
theorem behind_shows {before : List Char} (hline : before.count '\n' + 1 < 0x100000000)
    (hcolumn : (Text.lastLine before).length + 1 < 0x100000000) : (behind before).Shows before :=
  ⟨UInt32.toNat_ofNat_of_lt' hline, UInt32.toNat_ofNat_of_lt' hcolumn⟩

theorem behind_shows_of_length {before : List Char} (h : before.length + 1 < 0x100000000) :
    (behind before).Shows before := by
  have hcount : before.count '\n' ≤ before.length := List.count_le_length
  have hlast := Text.lastLine_length_le before
  exact behind_shows (by omega) (by omega)

end Pos

/-! ### The lines of a text -/

namespace Text

theorem splitOn_ne_nil (separator : Char) (text : List Char) : splitOn separator text ≠ [] := by
  cases text with
  | nil => exact List.cons_ne_nil _ _
  | cons c cs =>
    rw [splitOn]
    split
    · exact List.cons_ne_nil _ _
    · split <;> exact List.cons_ne_nil _ _

section Pieces

variable {separator : Char}

theorem splitOn_separator (text : List Char) :
    splitOn separator (separator :: text) = [] :: splitOn separator text := by
  rw [splitOn, if_pos rfl]

theorem splitOn_other {c : Char} (hc : c ≠ separator) (text : List Char) :
    ∃ piece pieces, splitOn separator text = piece :: pieces ∧
      splitOn separator (c :: text) = (c :: piece) :: pieces := by
  rw [splitOn, if_neg hc]
  cases h : splitOn separator text with
  | nil => exact absurd h (splitOn_ne_nil _ _)
  | cons piece pieces => exact ⟨piece, pieces, rfl, rfl⟩

/-- Text without a separator belongs to the first piece. -/
theorem splitOn_prepend {front text piece : List Char} {pieces : List (List Char)}
    (hfront : separator ∉ front) (htext : splitOn separator text = piece :: pieces) :
    splitOn separator (front ++ text) = (front ++ piece) :: pieces := by
  induction front with
  | nil => exact htext
  | cons c front ih =>
    rw [List.mem_cons, not_or] at hfront
    obtain ⟨piece', pieces', hrest, hcons⟩ := splitOn_other (Ne.symm hfront.1) (front ++ text)
    obtain ⟨rfl, rfl⟩ := List.cons.inj (hrest.symm.trans (ih hfront.2))
    exact hcons

theorem splitOn_of_not_mem {text : List Char} (h : separator ∉ text) :
    splitOn separator text = [text] := by
  have hempty : splitOn separator [] = [[]] := rfl
  simpa using splitOn_prepend h hempty

theorem not_mem_of_mem_splitOn {text piece : List Char} (h : piece ∈ splitOn separator text) :
    separator ∉ piece := by
  induction text generalizing piece with
  | nil =>
    obtain rfl := List.mem_singleton.mp h
    exact List.not_mem_nil
  | cons c text ih =>
    by_cases hc : c = separator
    · rw [hc, splitOn_separator] at h
      rcases List.mem_cons.mp h with rfl | h
      · exact List.not_mem_nil
      · exact ih h
    · obtain ⟨first, pieces, htext, hcons⟩ := splitOn_other hc text
      rw [htext] at ih
      rw [hcons] at h
      rcases List.mem_cons.mp h with rfl | h
      · rw [List.mem_cons, not_or]
        exact ⟨Ne.symm hc, ih List.mem_cons_self⟩
      · exact ih (List.mem_cons_of_mem first h)

theorem splitOn_append (text rest : List Char) :
    splitOn separator (text ++ separator :: rest) =
      splitOn separator text ++ splitOn separator rest := by
  induction text with
  | nil => exact splitOn_separator rest
  | cons c text ih =>
    by_cases hc : c = separator
    · rw [hc, List.cons_append, splitOn_separator, splitOn_separator, ih, List.cons_append]
    · obtain ⟨piece, pieces, htext, hcons⟩ := splitOn_other hc text
      obtain ⟨piece', pieces', hwhole, hcons'⟩ := splitOn_other hc (text ++ separator :: rest)
      rw [ih, htext, List.cons_append] at hwhole
      obtain ⟨rfl, rfl⟩ := List.cons.inj hwhole
      rw [List.cons_append, hcons, hcons', List.cons_append]

theorem splitOn_intercalate {parts : List (List Char)} (h : parts ≠ []) :
    splitOn separator ([separator].intercalate parts) = parts.flatMap (splitOn separator) := by
  induction parts with
  | nil => exact absurd rfl h
  | cons part parts ih =>
    cases parts with
    | nil => simp
    | cons part' parts =>
      rw [List.intercalate_cons_cons, List.append_assoc, List.singleton_append, splitOn_append,
        ih (List.cons_ne_nil _ _), ← List.flatMap_cons]

theorem intercalate_splitOn (separator : Char) (text : List Char) :
    [separator].intercalate (splitOn separator text) = text := by
  induction text with
  | nil => rfl
  | cons c text ih =>
    obtain ⟨piece, pieces, htext⟩ := List.exists_cons_of_ne_nil (splitOn_ne_nil separator text)
    by_cases hc : c = separator
    · rw [hc, splitOn_separator, htext, List.intercalate_cons_cons, ← htext, ih]
      rfl
    · obtain ⟨piece, pieces, htext, hcons⟩ := splitOn_other hc text
      rw [htext] at ih
      rw [hcons]
      cases pieces with
      | nil =>
        rw [List.intercalate_singleton] at ih ⊢
        rw [ih]
      | cons piece' pieces =>
        rw [List.intercalate_cons_cons] at ih ⊢
        rw [← ih]
        rfl

end Pieces

theorem length_splitOn (text : List Char) :
    (splitOn '\n' text).length = text.count '\n' + 1 := by
  induction text with
  | nil => rfl
  | cons c text ih =>
    by_cases hc : c = '\n'
    · rw [hc, splitOn_separator, List.length_cons, ih, List.count_cons_self]
    · obtain ⟨piece, pieces, htext, hcons⟩ := splitOn_other hc text
      rw [hcons, List.count_cons_of_ne hc, ← ih, htext]
      rfl

theorem head_splitOn (text : List Char) :
    (splitOn '\n' text)[0]? = some (text.takeWhile (· != '\n')) := by
  induction text with
  | nil => rfl
  | cons c text ih =>
    by_cases hc : c = '\n'
    · rw [hc, splitOn_separator]
      simp
    · obtain ⟨piece, pieces, htext, hcons⟩ := splitOn_other hc text
      rw [htext] at ih
      have hpiece : piece = text.takeWhile (· != '\n') := Option.some.inj ih
      rw [hcons, List.takeWhile_cons_of_pos (by simpa using hc), ← hpiece]
      rfl

/-- The piece that a place lies in reaches from the newline before it to the newline behind it. -/
theorem piece_at (before rest : List Char) :
    (splitOn '\n' (before ++ rest))[before.count '\n']? =
      some (lastLine before ++ rest.takeWhile (· != '\n')) := by
  induction before with
  | nil => exact head_splitOn rest
  | cons c before ih =>
    rw [List.cons_append]
    by_cases hc : c = '\n'
    · rw [hc, splitOn_separator, List.count_cons_self, List.getElem?_cons_succ, ih]
      exact congrArg (fun line => some (line ++ _)) (lastLine_append_newline [] before).symm
    · obtain ⟨piece, pieces, htext, hcons⟩ := splitOn_other hc (before ++ rest)
      rw [hcons, List.count_cons_of_ne hc]
      rw [htext] at ih
      by_cases hmem : '\n' ∈ before
      · -- the piece is a later one, which the first character does not touch
        obtain ⟨k, hk⟩ := Nat.exists_eq_add_of_lt (List.count_pos_iff.mpr hmem)
        obtain ⟨front, back, rfl⟩ := List.append_of_mem hmem
        rw [← List.cons_append, lastLine_append_newline, ← lastLine_append_newline front back]
        rw [hk, Nat.zero_add, List.getElem?_cons_succ] at ih ⊢
        exact ih
      · have hcount : before.count '\n' = 0 := List.count_eq_zero.mpr hmem
        have hmem' : '\n' ∉ c :: before := by
          rw [List.mem_cons, not_or]
          exact ⟨Ne.symm hc, hmem⟩
        rw [hcount] at ih ⊢
        rw [lastLine_of_not_mem hmem']
        rw [lastLine_of_not_mem hmem] at ih
        rw [Option.some.inj ih]
        rfl

/-- Every piece but the last was ended by a newline; the last one is a line unless it is empty. -/
theorem linesOfPieces_get? {pieces : List (List Char)} {k : Nat} {piece : List Char}
    (h : pieces[k]? = some piece) :
    (linesOfPieces pieces)[k]? =
      if k + 1 < pieces.length then some (dropReturn piece)
      else if piece = [] then none else some piece := by
  induction pieces generalizing k with
  | nil => cases h
  | cons first rest ih =>
    cases rest with
    | nil =>
      cases k with
      | zero =>
        obtain rfl := Option.some.inj h
        cases first <;> rfl
      | succ k => cases h
    | cons second rest =>
      cases k with
      | zero =>
        obtain rfl := Option.some.inj h
        rfl
      | succ k =>
        rw [linesOfPieces, List.getElem?_cons_succ, ih h]
        · simp only [List.length_cons, Nat.add_lt_add_iff_right]
        · exact List.cons_ne_nil _ _

/-- The line that a place lies in, given what stands before the place and what stands behind it. A
carriage return that stands before the newline belongs to the line end. -/
def lineAt (before rest : List Char) : List Char :=
  let line := lastLine before ++ rest.takeWhile (· != '\n')
  if '\n' ∈ rest then dropReturn line else line

theorem lines_get? {source : String} {before rest : List Char}
    (h : source.toList = before ++ rest) :
    (lines source)[before.count '\n']? =
      if '\n' ∉ rest ∧ lineAt before rest = [] then none else some (lineAt before rest) := by
  have hlines := linesOfPieces_get? (piece_at before rest)
  rw [lines, h, hlines, length_splitOn, List.count_append]
  unfold lineAt
  by_cases hmem : '\n' ∈ rest
  · have hpos : 0 < rest.count '\n' := List.count_pos_iff.mpr hmem
    rw [if_pos (by omega), if_neg (fun h => h.1 hmem), if_pos hmem]
  · have hzero : rest.count '\n' = 0 := List.count_eq_zero.mpr hmem
    rw [if_neg (by omega)]
    simp only [hmem, not_false_eq_true, true_and, if_false]

/-- A line with a caret under one of its columns, counted from zero. -/
def underlined (line : List Char) (column : Nat) : String :=
  String.ofList (line ++ '\n' :: List.replicate column ' ' ++ ['^'])

/-- The excerpt at a location shows the line that the location lies in. -/
theorem excerpt?_eq {source : String} {loc : Loc} {before rest : List Char}
    (h : source.toList = before ++ rest) (hline : loc.line.toNat = before.count '\n' + 1) :
    excerpt? source loc =
      if '\n' ∉ rest ∧ lineAt before rest = [] then none
      else some (underlined (lineAt before rest) (loc.column.toNat - 1)) := by
  rw [excerpt?, hline]
  dsimp only
  rw [lines_get? h]
  split <;> rfl

end Text

/-! ### One step of the scanner -/

namespace Scan

/-- The second cursor stands further on in the same text, at the place counting gives. -/
def Ahead (cur next : Cursor) : Prop :=
  ∃ read, cur.rest = read ++ next.rest ∧ next.pos = cur.pos.afterAll read

namespace Ahead

theorem refl (cur : Cursor) : Ahead cur cur :=
  ⟨[], rfl, rfl⟩

theorem trans {a b c : Cursor} (hab : Ahead a b) (hbc : Ahead b c) : Ahead a c := by
  obtain ⟨read, hrest, hpos⟩ := hab
  obtain ⟨read', hrest', hpos'⟩ := hbc
  refine ⟨read ++ read', ?_, ?_⟩
  · rw [hrest, hrest', List.append_assoc]
  · rw [hpos', hpos, Pos.afterAll_append]

theorem of_rest {cur : Cursor} {c : Char} {cs : List Char} (h : cur.rest = c :: cs) :
    Ahead cur ⟨cur.pos.after c, cs⟩ :=
  ⟨[c], h, rfl⟩

theorem char (pos : Pos) (c : Char) (cs : List Char) : Ahead ⟨pos, c :: cs⟩ ⟨pos.after c, cs⟩ :=
  of_rest rfl

/-- Past one character and further. -/
theorem cons {pos : Pos} {c : Char} {cs : List Char} {next : Cursor}
    (h : Ahead ⟨pos.after c, cs⟩ next) : Ahead ⟨pos, c :: cs⟩ next :=
  (char pos c cs).trans h

end Ahead

theorem spanWhile_ahead (p : Char → Bool) (pos : Pos) (cs : List Char) :
    Ahead ⟨pos, cs⟩ (spanWhile p pos cs).2 := by
  induction cs generalizing pos with
  | nil => exact .refl _
  | cons c cs ih =>
    rw [spanWhile]
    split
    · exact .cons (ih _)
    · exact .refl _

theorem quoted_ahead {quote : Char} {pos : Pos} {cs text : List Char} {next : Cursor}
    (h : quoted quote pos cs = some (text, next)) : Ahead ⟨pos, cs⟩ next := by
  fun_induction quoted quote pos cs generalizing text with
  | case1 => cases h
  | case2 => cases h
  | case3 pos c cs ih =>
    obtain ⟨⟨text', next'⟩, hquoted, heq⟩ := Option.map_eq_some_iff.1 h
    obtain ⟨-, rfl⟩ := Prod.mk.inj heq
    exact .cons (.cons (ih hquoted))
  | case4 pos cs =>
    obtain ⟨-, rfl⟩ := Prod.mk.inj (Option.some.inj h)
    exact .char ..
  | case5 pos c cs _ _ _ ih =>
    obtain ⟨⟨text', next'⟩, hquoted, heq⟩ := Option.map_eq_some_iff.1 h
    obtain ⟨-, rfl⟩ := Prod.mk.inj heq
    exact .cons (ih hquoted)

theorem blockComment_ahead {pos : Pos} {cs : List Char} {next : Cursor}
    (h : blockComment pos cs = some next) : Ahead ⟨pos, cs⟩ next := by
  fun_induction blockComment pos cs with
  | case1 => cases h
  | case2 pos cs =>
    obtain rfl := Option.some.inj h
    exact .cons (.char ..)
  | case3 pos c cs _ ih => exact .cons (ih h)

/-- A token was read: its kind is not the end, and the cursor stands behind it. -/
def Reads (cur : Cursor) (result : Except LexFault (TokenKind × Cursor)) : Prop :=
  ∀ kind next, result = .ok (kind, next) → kind ≠ .eof ∧ Ahead cur next

theorem Reads.of_ahead {cur cur' : Cursor} {result : Except LexFault (TokenKind × Cursor)}
    (hahead : Ahead cur cur') (h : Reads cur' result) : Reads cur result := by
  intro kind next hresult
  obtain ⟨hkind, hnext⟩ := h kind next hresult
  exact ⟨hkind, hahead.trans hnext⟩

theorem Reads.ok {cur next : Cursor} {kind : TokenKind} (hkind : kind ≠ .eof)
    (h : Ahead cur next) : Reads cur (.ok (kind, next)) := by
  intro kind' next' heq
  obtain ⟨rfl, rfl⟩ := Prod.mk.inj (Except.ok.inj heq)
  exact ⟨hkind, h⟩

theorem Reads.error {cur : Cursor} {fault : LexFault} : Reads cur (.error fault) := by
  intro kind next heq
  cases heq

theorem integerToken_reads (base : Nat) (digits : List Char) (cur : Cursor) :
    Reads cur (integerToken base digits cur) := by
  unfold integerToken
  dsimp only
  split
  · exact .ok (by intro h; cases h) (spanWhile_ahead ..)
  · exact .error

theorem basedNumber_reads (base : Nat) (cur : Cursor) : Reads cur (basedNumber base cur) := by
  unfold basedNumber
  dsimp only
  split
  · exact .error
  · exact .of_ahead (spanWhile_ahead ..) (integerToken_reads _ _ _)

theorem decimalNumber_reads (cur : Cursor) : Reads cur (decimalNumber cur) := by
  have hwhole := spanWhile_ahead isDigitOrGap cur.pos cur.rest
  unfold decimalNumber
  dsimp only
  split
  · rename_i d cs hrest
    split
    · have hpoint := hwhole.trans (.of_rest hrest)
      have hfraction := hpoint.trans (spanWhile_ahead isDigitOrGap _ (d :: cs))
      exact .ok (by intro h; cases h) (hfraction.trans (spanWhile_ahead ..))
    · exact .of_ahead hwhole (integerToken_reads _ _ _)
  · exact .of_ahead hwhole (integerToken_reads _ _ _)

theorem number_reads (cur : Cursor) : Reads cur (number cur) := by
  obtain ⟨pos, rest⟩ := cur
  unfold number
  split
  · rename_i cs hrest
    obtain rfl : rest = _ := hrest
    exact .of_ahead (.cons (.char ..)) (basedNumber_reads _ _)
  · rename_i cs hrest
    obtain rfl : rest = _ := hrest
    exact .of_ahead (.cons (.char ..)) (basedNumber_reads _ _)
  · rename_i cs hrest
    obtain rfl : rest = _ := hrest
    exact .of_ahead (.cons (.char ..)) (basedNumber_reads _ _)
  · exact decimalNumber_reads _

theorem word_reads (cur : Cursor) : Reads cur (.ok (word cur)) := by
  have hrun := spanWhile_ahead isWordChar cur.pos cur.rest
  unfold word
  dsimp only
  split
  · exact .ok (by intro h; cases h) hrun
  · exact .ok (by intro h; cases h) hrun

theorem quotedToken_reads {quote : Char} {make : String → TokenKind} {fault : LexFault}
    (hmake : ∀ text, make text ≠ .eof) (pos : Pos) (cs : List Char) :
    Reads ⟨pos, quote :: cs⟩ (quotedToken quote make fault pos cs) := by
  unfold quotedToken
  split
  · rename_i text next hquoted
    exact .ok (hmake _) (.cons (quoted_ahead hquoted))
  · exact .error

theorem mark_reads (pos : Pos) (c : Char) (cs : List Char) :
    Reads ⟨pos, c :: cs⟩ (mark pos c cs) := by
  unfold mark
  dsimp only
  split
  · rename_i d ds
    split
    · exact .ok (by intro h; cases h) (.cons (.char ..))
    · split
      · exact .ok (by intro h; cases h) (.char ..)
      · exact .error
  · split
    · exact .ok (by intro h; cases h) (.char ..)
    · exact .error

theorem token_reads (pos : Pos) (c : Char) (cs : List Char) :
    Reads ⟨pos, c :: cs⟩ (token pos c cs) := by
  unfold token
  split
  · exact word_reads _
  · split
    · exact number_reads _
    · split
      · rename_i hquote
        subst hquote
        exact quotedToken_reads (fun _ h => by cases h) pos cs
      · split
        · rename_i hquote
          subst hquote
          exact quotedToken_reads (fun _ h => by cases h) pos cs
        · exact mark_reads pos c cs

/-- What one step passes over, it passes over at the right places. -/
theorem step_skipped_ahead {cur next : Cursor} (h : step cur = .skipped next) : Ahead cur next := by
  obtain ⟨pos, rest⟩ := cur
  unfold step at h
  split at h
  · cases h
  · rename_i cs hrest
    obtain rfl : rest = _ := hrest
    obtain rfl := Step.skipped.inj h
    exact .cons (.cons (spanWhile_ahead ..))
  · rename_i cs hrest
    obtain rfl : rest = _ := hrest
    split at h
    · rename_i next' hcomment
      obtain rfl := Step.skipped.inj h
      exact .cons (.cons (blockComment_ahead hcomment))
    · cases h
  · rename_i c cs _ _ hrest
    obtain rfl : rest = _ := hrest
    split at h
    · obtain rfl := Step.skipped.inj h
      exact .char ..
    · split at h <;> cases h

/-- A token starts with a character that is no newline. -/
theorem step_found {cur next : Cursor} {kind : TokenKind} (h : step cur = .found kind next) :
    kind ≠ .eof ∧ Ahead cur next ∧ ∃ c cs, cur.rest = c :: cs ∧ c ≠ '\n' := by
  obtain ⟨pos, rest⟩ := cur
  unfold step at h
  split at h
  · cases h
  · cases h
  · split at h <;> cases h
  · rename_i c cs _ _ hrest
    obtain rfl : rest = _ := hrest
    split at h
    · cases h
    · rename_i hblank
      split at h
      · rename_i kind' next' htoken
        obtain ⟨rfl, rfl⟩ := Step.found.inj h
        obtain ⟨hkind, hahead⟩ := token_reads pos c cs _ _ htoken
        refine ⟨hkind, hahead, c, cs, rfl, ?_⟩
        rintro rfl
        exact hblank rfl
      · cases h

theorem step_failed {cur : Cursor} {fault : LexFault} (h : step cur = .failed fault) :
    ∃ c cs, cur.rest = c :: cs ∧ c ≠ '\n' := by
  obtain ⟨pos, rest⟩ := cur
  unfold step at h
  split at h
  · cases h
  · cases h
  · rename_i cs hrest
    exact ⟨'/', _, hrest, by decide⟩
  · rename_i c cs _ _ hrest
    split at h
    · cases h
    · rename_i hblank
      refine ⟨c, cs, hrest, ?_⟩
      rintro rfl
      exact hblank rfl

theorem step_finished {cur : Cursor} (h : step cur = .finished) : cur.rest = [] := by
  unfold step at h
  split at h
  · assumption
  · cases h
  · split at h <;> cases h
  · split at h
    · cases h
    · split at h <;> cases h

/-! ### A whole scan -/

/-- The scanner gets from one cursor to another by single steps, finding these tokens on its way. -/
inductive Passes : Cursor → List Token → Cursor → Prop where
  | here {cur} : Passes cur [] cur
  | skip {cur next last tokens} (hstep : step cur = .skipped next)
      (h : Passes next tokens last) : Passes cur tokens last
  | take {cur next last kind tokens} (hstep : step cur = .found kind next)
      (h : Passes next tokens last) : Passes cur (⟨kind, cur.pos⟩ :: tokens) last

theorem Passes.ahead {cur last : Cursor} {tokens : List Token} (h : Passes cur tokens last) :
    Ahead cur last := by
  induction h with
  | here => exact .refl _
  | skip hstep _ ih => exact (step_skipped_ahead hstep).trans ih
  | take hstep _ ih => exact (step_found hstep).2.1.trans ih

/-- Where a token was found, the scanner stood. -/
theorem Passes.of_mem {cur last : Cursor} {tokens : List Token} (h : Passes cur tokens last)
    {t : Token} (ht : t ∈ tokens) :
    ∃ passed here next, Passes cur passed here ∧ here.pos = t.pos ∧ step here = .found t.kind next := by
  induction h with
  | here => cases ht
  | skip hstep _ ih =>
    obtain ⟨passed, here, next, hpasses, hpos, hfound⟩ := ih ht
    exact ⟨passed, here, next, .skip hstep hpasses, hpos, hfound⟩
  | take hstep _ ih =>
    rcases List.mem_cons.mp ht with rfl | ht
    · exact ⟨[], _, _, .here, rfl, hstep⟩
    · obtain ⟨passed, here, next, hpasses, hpos, hfound⟩ := ih ht
      exact ⟨_, here, next, .take hstep hpasses, hpos, hfound⟩

/-- A scan that succeeds gets to the end of the text. -/
theorem tokens_ok {cur : Cursor} {found : List Token} (h : tokens cur = .ok found) :
    ∃ passed last, Passes cur passed last ∧ last.rest = [] ∧ found = passed ++ [⟨.eof, last.pos⟩] := by
  fun_induction tokens cur generalizing found with
  | case1 cur hstep =>
    obtain rfl := Except.ok.inj h
    exact ⟨[], cur, .here, step_finished hstep, rfl⟩
  | case2 cur next hstep _ ih =>
    obtain ⟨passed, last, hpasses, hrest, rfl⟩ := ih h
    exact ⟨passed, last, .skip hstep hpasses, hrest, rfl⟩
  | case3 cur kind next hstep _ rest hnext ih =>
    obtain rfl := Except.ok.inj h
    obtain ⟨passed, last, hpasses, hrest, rfl⟩ := ih hnext
    exact ⟨_, last, .take hstep hpasses, hrest, rfl⟩
  | case4 => cases h
  | case5 => cases h

theorem tokens_finished {cur : Cursor} (h : step cur = .finished) :
    tokens cur = .ok [⟨.eof, cur.pos⟩] := by
  rw [tokens]
  split <;> (rename_i heq; cases h.symm.trans heq)
  rfl

theorem tokens_skipped {cur next : Cursor} (h : step cur = .skipped next) :
    tokens cur = tokens next := by
  rw [tokens]
  split <;> (rename_i heq; cases h.symm.trans heq)
  rfl

theorem tokens_take {cur next : Cursor} {kind : TokenKind} (h : step cur = .found kind next) :
    tokens cur = (tokens next).map (⟨kind, cur.pos⟩ :: ·) := by
  rw [tokens]
  split <;> (rename_i heq; cases h.symm.trans heq)
  cases tokens next <;> rfl

theorem tokens_found {cur next : Cursor} {kind : TokenKind} {rest : List Token}
    (h : step cur = .found kind next) (hrest : tokens next = .ok rest) :
    tokens cur = .ok (⟨kind, cur.pos⟩ :: rest) := by
  rw [tokens_take h, hrest]
  rfl

theorem tokens_failed {cur : Cursor} {fault : LexFault} (h : step cur = .failed fault) :
    tokens cur = .error (fault, cur.pos) := by
  rw [tokens]
  split <;> (rename_i heq; cases h.symm.trans heq)
  rfl

/-- A scan that has come to a place goes on from there. -/
theorem Passes.tokens_from {cur last : Cursor} {passed : List Token} (h : Passes cur passed last) :
    tokens cur = (tokens last).map (passed ++ ·) := by
  induction h with
  | @here cur => cases tokens cur <;> rfl
  | skip hstep _ ih => exact (tokens_skipped hstep).trans ih
  | @take cur next last kind passed hstep _ ih =>
    rw [tokens_take hstep, ih]
    cases tokens last <;> rfl

/-- A run to the end of the text is its scan. -/
theorem Passes.tokens_eq {cur last : Cursor} {passed : List Token} (h : Passes cur passed last)
    (hend : last.rest = []) : tokens cur = .ok (passed ++ [⟨.eof, last.pos⟩]) := by
  rw [h.tokens_from, tokens_finished (by rw [step, hend])]
  rfl

/-- A scan that fails stands at the first character of what it cannot read. -/
theorem tokens_error {cur : Cursor} {fault : LexFault} {pos : Pos}
    (h : tokens cur = .error (fault, pos)) :
    ∃ passed last, Passes cur passed last ∧ last.pos = pos ∧ step last = .failed fault := by
  fun_induction tokens cur with
  | case1 => cases h
  | case2 cur next hstep _ ih =>
    obtain ⟨passed, last, hpasses, hlast⟩ := ih h
    exact ⟨passed, last, .skip hstep hpasses, hlast⟩
  | case3 => cases h
  | case4 cur kind next hstep _ e hnext ih =>
    obtain rfl := Except.error.inj h
    obtain ⟨passed, last, hpasses, hlast⟩ := ih hnext
    exact ⟨_, last, .take hstep hpasses, hlast⟩
  | case5 cur fault' hstep =>
    obtain ⟨rfl, rfl⟩ := Prod.mk.inj (Except.error.inj h)
    exact ⟨[], cur, .here, rfl, hstep⟩

/-- Scanning the text from its start, the scanner comes to stand between these two parts. -/
def Stands (source : String) (before rest : List Char) : Prop :=
  source.toList = before ++ rest ∧
    ∃ passed, Passes ⟨Pos.start, source.toList⟩ passed ⟨Pos.start.afterAll before, rest⟩

/-- The scanner finds a token whose first character is the first one behind the place. -/
def TokenStarts (source : String) (before rest : List Char) : Prop :=
  Stands source before rest ∧ ∃ kind next, step ⟨Pos.start.afterAll before, rest⟩ = .found kind next

/-- What the scanner cannot read, a token or a comment, starts right behind the place. -/
def FaultStarts (source : String) (before rest : List Char) (fault : LexFault) : Prop :=
  Stands source before rest ∧ step ⟨Pos.start.afterAll before, rest⟩ = .failed fault

theorem stands_of_passes {source : String} {passed : List Token} {last : Cursor}
    (h : Passes ⟨Pos.start, source.toList⟩ passed last) :
    ∃ before, last.pos = Pos.start.afterAll before ∧ Stands source before last.rest := by
  obtain ⟨before, hrest, hpos⟩ := h.ahead
  refine ⟨before, hpos, hrest, passed, ?_⟩
  rw [← hpos]
  exact h

end Scan

/-- The tokens of a text: each one but the last starts at its place, and the last is its end. -/
theorem Token.scan_ok {source : String} {tokens : List Token} (h : Token.scan source = .ok tokens) :
    ∃ passed, tokens = passed ++ [⟨.eof, Pos.start.afterAll source.toList⟩] ∧
      ∀ t ∈ passed, t.kind ≠ .eof ∧
        ∃ before rest, t.pos = Pos.start.afterAll before ∧ Scan.TokenStarts source before rest := by
  obtain ⟨passed, last, hpasses, hend, rfl⟩ := Scan.tokens_ok h
  obtain ⟨before, hpos, hsource, -⟩ := Scan.stands_of_passes hpasses
  rw [hend, List.append_nil] at hsource
  refine ⟨passed, by rw [hpos, hsource], fun t ht => ?_⟩
  obtain ⟨passed', here, next, hhere, hpos', hfound⟩ := hpasses.of_mem ht
  obtain ⟨before', hplace, hstands⟩ := Scan.stands_of_passes hhere
  refine ⟨(Scan.step_found hfound).1, before', here.rest, hpos' ▸ hplace, hstands, t.kind, next, ?_⟩
  rw [← hplace]
  exact hfound

theorem Token.scan_error {source : String} {fault : LexFault} {pos : Pos}
    (h : Token.scan source = .error (fault, pos)) :
    ∃ before rest, pos = Pos.start.afterAll before ∧ Scan.FaultStarts source before rest fault := by
  obtain ⟨passed, last, hpasses, rfl, hfailed⟩ := Scan.tokens_error h
  obtain ⟨before, hplace, hstands⟩ := Scan.stands_of_passes hpasses
  refine ⟨before, last.rest, hplace, hstands, ?_⟩
  rw [← hplace]
  exact hfailed

end TuffSafety
