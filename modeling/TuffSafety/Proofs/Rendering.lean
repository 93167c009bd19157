import Mathlib.Data.List.Infix
import TuffSafety.Proofs.Positions

/-!
# Rendered tokens are read back

A token has a rendering: a fixed symbol its spelling, a name itself, a number its decimal digits and
its suffix, quoted text its quotes. Between the renderings stand blanks and comments. Scanning a text
that was written so finds the tokens again, each at the place where its rendering starts, as long as
lines and columns can be counted with 32 bits.
-/
namespace TuffSafety

namespace Symbol

def keywords : List Symbol :=
  [kwFn, kwLet, kwStruct, kwEnum, kwType, kwMatch, kwCase, kwIf, kwElse, kwFor, kwWhile, kwIn,
    kwReturn, kwBreak, kwContinue, kwIs, kwForeign, kwMut, kwOut, kwTrue, kwFalse]

theorem keyword?_spelling : ∀ s ∈ keywords, keyword? s.spelling = some s := by
  decide

/-- A word is recognised as a keyword exactly if it is the spelling of one. -/
theorem keyword?_eq_some_iff {word : String} {s : Symbol} :
    keyword? word = some s ↔ s ∈ keywords ∧ s.spelling = word := by
  constructor
  · intro h
    unfold keyword? at h
    split at h
    all_goals
      cases h
      try exact ⟨by decide, rfl⟩
  · rintro ⟨hs, rfl⟩
    exact keyword?_spelling s hs

end Symbol

/-! ### Writing tokens -/

namespace TokenKind

/-- Floats and the end of a text are not written. -/
def render : TokenKind → List Char
  | symbol s => s.spelling.toList
  | ident name => name.toList
  | number value suffix => Nat.toDigits 10 value.toInt.toNat ++ (suffix.getD "").toList
  | string text => '"' :: text.toList ++ ['"']
  | char text => '\'' :: text.toList ++ ['\'']
  | float _ | eof => []

/-- Text that can stand between quotes: each backslash protects a character, and what is not protected
is not the quote. -/
inductive Quotable (quote : Char) : List Char → Prop where
  | nil : Quotable quote []
  | escaped {text} (c : Char) (h : Quotable quote text) : Quotable quote ('\\' :: c :: text)
  | plain {c text} (hquote : c ≠ quote) (hslash : c ≠ '\\') (h : Quotable quote text) :
      Quotable quote (c :: text)

/-- The tokens whose rendering tells them: a name is no keyword, a number is not negative, and the
suffix of a zero is not taken for a mark of its base. -/
inductive Renderable : TokenKind → Prop where
  | symbol (s : Symbol) : Renderable (symbol s)
  | ident {name : String} {c cs} (hname : name.toList = c :: cs) (hstart : Scan.isWordStart c)
      (hrest : ∀ d ∈ cs, Scan.isWordChar d) (hkeyword : ∀ s ∈ Symbol.keywords, s.spelling ≠ name) :
      Renderable (ident name)
  | number {value : Int64} (hvalue : 0 ≤ value.toInt) : Renderable (number value none)
  | suffixed {value : Int64} {suffix : String} {c cs} (hvalue : 0 ≤ value.toInt)
      (hsuffix : suffix.toList = c :: cs) (hletter : c.isAlpha) (hrest : ∀ d ∈ cs, d.isAlphanum)
      (hbase : value = 0 → c ≠ 'x' ∧ c ≠ 'b' ∧ c ≠ 'o') : Renderable (number value (some suffix))
  | string {text : String} (h : Quotable '"' text.toList) : Renderable (string text)
  | char {text : String} (h : Quotable '\'' text.toList) : Renderable (char text)

theorem Renderable.render_length_pos {kind : TokenKind} (h : kind.Renderable) :
    0 < kind.render.length := by
  rw [List.length_pos_iff]
  cases h with
  | symbol s => cases s <;> exact List.cons_ne_nil _ _
  | ident hname =>
    rw [render, hname]
    exact List.cons_ne_nil _ _
  | number | suffixed =>
    rw [render]
    exact List.append_ne_nil_of_left_ne_nil Nat.toDigits_ne_nil _
  | string | char => exact List.cons_ne_nil _ _

end TokenKind

/-- A run of blanks, line comments up to their newline and closed block comments. -/
inductive Trivia : List Char → Prop where
  | nil : Trivia []
  | blank {c text} (hc : Scan.isBlank c) (h : Trivia text) : Trivia (c :: text)
  | line {body text} (hbody : '\n' ∉ body) (h : Trivia text) :
      Trivia ('/' :: '/' :: body ++ '\n' :: text)
  | block {body text} (hbody : ¬ ['*', '/'] <:+: body) (h : Trivia text) :
      Trivia ('/' :: '*' :: body ++ '*' :: '/' :: text)

theorem Trivia.spaces (n : Nat) : Trivia (List.replicate n ' ') := by
  induction n with
  | zero => exact .nil
  | succ n ih => exact .blank rfl ih

/-- A token and what stands behind it. -/
structure Piece where
  kind : TokenKind
  gap : List Char

namespace Piece

def text (p : Piece) : List Char :=
  p.kind.render ++ p.gap

def textAll (pieces : List Piece) : List Char :=
  pieces.flatMap text

/-- Every token can be rendered and is separated from the next one by trivia that starts with a blank.
Behind the last one the text may end. -/
inductive Spaced : List Piece → Prop where
  | nil : Spaced []
  | last {kind} (hkind : kind.Renderable) : Spaced [⟨kind, []⟩]
  | cons {kind c gap pieces} (hkind : kind.Renderable) (hblank : Scan.isBlank c)
      (hgap : Trivia gap) (h : Spaced pieces) : Spaced (⟨kind, c :: gap⟩ :: pieces)

/-- Each piece, with the text that stands before it. -/
def places (before : List Char) : List Piece → List (List Char × Piece)
  | [] => []
  | p :: pieces => (before, p) :: places (before ++ p.text) pieces

/-- The token that is written at a place. -/
def token (place : List Char × Piece) : Token :=
  ⟨place.2.kind, .behind place.1⟩

/-- The token is that of the piece, and has the line and the column where its rendering starts. -/
def Found (place : List Char × Piece) (t : Token) : Prop :=
  t.kind = place.2.kind ∧ t.pos.Shows place.1

theorem found_token {before gap rest : List Char} {kind : TokenKind} (hkind : kind.Renderable)
    (hlen : (before ++ (kind.render ++ gap ++ rest)).length < 0x100000000) :
    Found (before, ⟨kind, gap⟩) (token (before, ⟨kind, gap⟩)) := by
  have hpos := hkind.render_length_pos
  simp only [List.length_append] at hlen
  have hbefore : before.length + 1 < 0x100000000 := by omega
  exact ⟨rfl, Pos.behind_shows_of_length hbefore⟩

/-- In a text of fewer than 2^32 characters there is a line and a column for every token. -/
theorem Spaced.found {pieces : List Piece} (h : Spaced pieces) (before : List Char)
    (hlen : (before ++ textAll pieces).length < 0x100000000) :
    List.Forall₂ Found (places before pieces) ((places before pieces).map token) := by
  induction h generalizing before with
  | nil => exact .nil
  | last hkind => exact .cons (found_token hkind hlen) .nil
  | cons hkind _ _ _ ih =>
    refine .cons (found_token hkind hlen) (ih _ ?_)
    rw [List.append_assoc]
    exact hlen

end Piece

namespace Scan

/-! ### Runs of characters -/

/-- The text is at its end or goes on with a character without the property. -/
def Stops (p : Char → Bool) (rest : List Char) : Prop :=
  ∀ c, rest.head? = some c → p c = false

theorem spanWhile_append {p : Char → Bool} {run rest : List Char} (hrun : ∀ c ∈ run, p c)
    (hrest : Stops p rest) (pos : Pos) :
    spanWhile p pos (run ++ rest) = (run, ⟨pos.afterAll run, rest⟩) := by
  induction run generalizing pos with
  | nil =>
    cases rest with
    | nil => rfl
    | cons c cs => rw [List.nil_append, spanWhile, hrest c rfl]; rfl
  | cons c run ih =>
    have ih := ih (fun d hd => hrun d (List.mem_cons_of_mem c hd)) (pos.after c)
    rw [List.cons_append, spanWhile, if_pos (hrun c List.mem_cons_self), ih]
    rfl

theorem blockComment_append {body : List Char} (h : ¬ ['*', '/'] <:+: body) (pos : Pos)
    (rest : List Char) :
    blockComment pos (body ++ '*' :: '/' :: rest) = some ⟨pos.afterAll (body ++ ['*', '/']), rest⟩ := by
  induction body generalizing pos with
  | nil => rfl
  | cons c body ih =>
    rw [List.infix_cons_iff, not_or] at h
    have hopen : ∀ cs, c = '*' → body ++ '*' :: '/' :: rest = '/' :: cs → False := by
      rintro cs rfl hcs
      cases body with
      | nil => cases hcs
      | cons d body =>
        obtain ⟨rfl, -⟩ := List.cons.inj hcs
        exact h.1 ⟨body, rfl⟩
    rw [List.cons_append, blockComment.eq_3 _ _ _ hopen, ih h.2]
    rfl

theorem quoted_append {quote : Char} {text : List Char} (h : TokenKind.Quotable quote text)
    (hquote : quote ≠ '\\') (pos : Pos) (rest : List Char) :
    quoted quote pos (text ++ quote :: rest) =
      some (text, ⟨pos.afterAll (text ++ [quote]), rest⟩) := by
  induction h generalizing pos with
  | nil =>
    rw [List.nil_append, quoted.eq_4 _ _ _ _ (fun h _ => hquote h) (fun _ _ h _ => hquote h),
      if_pos rfl]
    rfl
  | escaped c _ ih =>
    rw [List.cons_append, List.cons_append, quoted, ih]
    rfl
  | plain hc hslash _ ih =>
    rw [List.cons_append, quoted.eq_4 _ _ _ _ (fun h _ => hslash h) (fun _ _ h _ => hslash h),
      if_neg hc, ih]
    rfl

/-! ### Blanks and comments -/

theorem isBlank_cases {c : Char} (h : isBlank c) :
    c = ' ' ∨ c = '\t' ∨ c = '\n' ∨ c = '\r' ∨ c = '\x0c' := by
  simpa [isBlank, or_assoc] using h

theorem step_blank {c : Char} (h : isBlank c) (pos : Pos) (cs : List Char) :
    step ⟨pos, c :: cs⟩ = .skipped ⟨pos.after c, cs⟩ := by
  rcases isBlank_cases h with rfl | rfl | rfl | rfl | rfl <;> rfl

theorem step_lineComment {body : List Char} (h : '\n' ∉ body) (pos : Pos) (rest : List Char) :
    step ⟨pos, '/' :: '/' :: (body ++ '\n' :: rest)⟩ =
      .skipped ⟨pos.afterAll ('/' :: '/' :: body), '\n' :: rest⟩ := by
  have hrun : ∀ c ∈ body, (c != '\n') = true := by
    intro c hc
    rw [bne_iff_ne]
    rintro rfl
    exact h hc
  have hstops : Stops (· != '\n') ('\n' :: rest) := by
    intro c hc
    obtain rfl := Option.some.inj hc
    rfl
  simp only [step, spanWhile_append hrun hstops]
  rfl

theorem step_blockComment {body : List Char} (h : ¬ ['*', '/'] <:+: body) (pos : Pos)
    (rest : List Char) :
    step ⟨pos, '/' :: '*' :: (body ++ '*' :: '/' :: rest)⟩ =
      .skipped ⟨pos.afterAll ('/' :: '*' :: (body ++ ['*', '/'])), rest⟩ := by
  simp only [step, blockComment_append h]
  rfl

/-- Trivia are passed over. -/
theorem tokens_trivia {gap : List Char} (h : Trivia gap) (pos : Pos) (rest : List Char) :
    tokens ⟨pos, gap ++ rest⟩ = tokens ⟨pos.afterAll gap, rest⟩ := by
  induction h generalizing pos with
  | nil => rfl
  | blank hc _ ih => exact (tokens_skipped (step_blank hc _ _)).trans (ih _)
  | @line body text hbody _ ih =>
    have hnewline := step_blank (rfl : isBlank '\n' = true) (pos.afterAll ('/' :: '/' :: body))
      (text ++ rest)
    rw [List.append_assoc, List.cons_append, List.cons_append, List.cons_append,
      tokens_skipped (step_lineComment hbody pos _), tokens_skipped hnewline, ih,
      Pos.afterAll_append]
    rfl
  | @block body text hbody _ ih =>
    rw [List.append_assoc, List.cons_append, List.cons_append, List.cons_append, List.cons_append,
      tokens_skipped (step_blockComment hbody pos _), ih, Pos.afterAll_append, ← List.cons_append,
      ← List.cons_append, Pos.afterAll_append]
    rfl

/-! ### Words and marks -/

/-- The text is at its end or goes on with a blank. -/
def Delimited (rest : List Char) : Prop :=
  ∀ c, rest.head? = some c → isBlank c

theorem Delimited.stops {rest : List Char} (h : Delimited rest) {p : Char → Bool}
    (hp : ∀ c, isBlank c → p c = false) : Stops p rest :=
  fun c hc => hp c (h c hc)

theorem isWordChar_of_isBlank {c : Char} (h : isBlank c) : isWordChar c = false := by
  rcases isBlank_cases h with rfl | rfl | rfl | rfl | rfl <;> rfl

theorem isBlank_of_isWordChar {c : Char} (h : isWordChar c) : isBlank c = false := by
  by_contra hblank
  rw [Bool.not_eq_false] at hblank
  rw [isWordChar_of_isBlank hblank] at h
  cases h

theorem isWordChar_of_isWordStart {c : Char} (h : isWordStart c) : isWordChar c := by
  simp only [isWordStart, isWordChar, Char.isAlphanum, Bool.or_eq_true] at h ⊢
  exact h.imp_left .inl

/-- Where neither a blank nor a comment starts, a step is what becomes of the token there. -/
theorem step_eq_of_token {pos : Pos} {c : Char} {cs : List Char} {outcome : Step}
    (hblank : isBlank c = false) (hcomment : c = '/' → Delimited cs)
    (hok : ∀ kind next, token pos c cs = .ok (kind, next) → outcome = .found kind next)
    (herror : ∀ fault, token pos c cs = .error fault → outcome = .failed fault) :
    step ⟨pos, c :: cs⟩ = outcome := by
  unfold step
  split
  · rename_i heq
    cases heq
  · rename_i heq
    obtain ⟨rfl, rfl⟩ := List.cons.inj heq
    cases hcomment rfl '/' rfl
  · rename_i heq
    obtain ⟨rfl, rfl⟩ := List.cons.inj heq
    cases hcomment rfl '*' rfl
  · rename_i heq
    obtain ⟨rfl, rfl⟩ := List.cons.inj heq
    rw [hblank]
    cases htoken : token pos c cs with
    | error fault => exact (herror fault htoken).symm
    | ok found => exact (hok found.1 found.2 htoken).symm

theorem step_of_token {pos : Pos} {c : Char} {cs : List Char} {kind : TokenKind} {next : Cursor}
    (hblank : isBlank c = false) (hcomment : c = '/' → Delimited cs)
    (h : token pos c cs = .ok (kind, next)) : step ⟨pos, c :: cs⟩ = .found kind next := by
  refine step_eq_of_token hblank hcomment (fun kind' next' h' => ?_) (fun fault h' => ?_)
  · cases h.symm.trans h'
    rfl
  · cases h.symm.trans h'

theorem step_of_fault {pos : Pos} {c : Char} {cs : List Char} {fault : LexFault}
    (hblank : isBlank c = false) (hcomment : c = '/' → Delimited cs)
    (h : token pos c cs = .error fault) : step ⟨pos, c :: cs⟩ = .failed fault := by
  refine step_eq_of_token hblank hcomment (fun kind' next' h' => ?_) (fun fault' h' => ?_)
  · cases h.symm.trans h'
  · cases h.symm.trans h'
    rfl

theorem word_append {run rest : List Char} (hrun : ∀ c ∈ run, isWordChar c) (hrest : Delimited rest)
    (pos : Pos) :
    word ⟨pos, run ++ rest⟩ =
      (((Symbol.keyword? (String.ofList run)).map TokenKind.symbol).getD (.ident (String.ofList run)),
        ⟨pos.afterAll run, rest⟩) := by
  unfold word
  dsimp only
  rw [spanWhile_append hrun (hrest.stops fun _ => isWordChar_of_isBlank)]
  cases Symbol.keyword? (String.ofList run) <;> rfl

/-- A word is read up to its end, and is a keyword if it is spelled as one. -/
theorem step_word {c : Char} {cs rest : List Char} {kind : TokenKind} (hstart : isWordStart c)
    (hcs : ∀ d ∈ cs, isWordChar d) (hrest : Delimited rest)
    (hkind : ((Symbol.keyword? (String.ofList (c :: cs))).map TokenKind.symbol).getD
      (.ident (String.ofList (c :: cs))) = kind) (pos : Pos) :
    step ⟨pos, c :: cs ++ rest⟩ = .found kind ⟨pos.afterAll (c :: cs), rest⟩ := by
  have hc := isWordChar_of_isWordStart hstart
  have hrun : ∀ d ∈ c :: cs, isWordChar d := List.forall_mem_cons.mpr ⟨hc, hcs⟩
  refine step_of_token (isBlank_of_isWordChar hc) ?_ ?_
  · rintro rfl
    cases hstart
  · have hword := word_append hrun hrest pos
    rw [hkind] at hword
    rw [token, if_pos hstart]
    exact congrArg Except.ok hword

theorem ofPair?_isBlank {c d : Char} (h : isBlank d) : Symbol.ofPair? c d = none := by
  unfold Symbol.ofPair?
  split
  case h_11 => rfl
  all_goals cases h

theorem mark_single {c : Char} {s : Symbol} {rest : List Char} (h : Symbol.ofChar? c = some s)
    (hrest : Delimited rest) (pos : Pos) :
    mark pos c rest = .ok (.symbol s, ⟨pos.after c, rest⟩) := by
  unfold mark
  rw [h]
  cases rest with
  | nil => rfl
  | cons d ds =>
    dsimp only
    rw [ofPair?_isBlank (hrest d rfl)]

theorem mark_pair {c d : Char} {s : Symbol} (h : Symbol.ofPair? c d = some s) (pos : Pos)
    (rest : List Char) :
    mark pos c (d :: rest) = .ok (.symbol s, ⟨(pos.after c).after d, rest⟩) := by
  unfold mark
  dsimp only
  rw [h]

theorem token_of_ofChar? {c : Char} {s : Symbol} (h : Symbol.ofChar? c = some s) (pos : Pos)
    (cs : List Char) : token pos c cs = mark pos c cs := by
  unfold Symbol.ofChar? at h
  split at h
  case h_23 => cases h
  all_goals rfl

theorem isBlank_of_ofChar? {c : Char} {s : Symbol} (h : Symbol.ofChar? c = some s) :
    isBlank c = false := by
  unfold Symbol.ofChar? at h
  split at h
  case h_23 => cases h
  all_goals rfl

/-- A mark of two characters starts with one that is a mark of its own and opens no comment. -/
theorem ofChar?_of_ofPair? {c d : Char} {s : Symbol} (h : Symbol.ofPair? c d = some s) :
    c ≠ '/' ∧ ∃ s', Symbol.ofChar? c = some s' := by
  unfold Symbol.ofPair? at h
  split at h
  case h_11 => cases h
  all_goals exact ⟨by decide, _, rfl⟩

theorem spelling_keyword : ∀ s ∈ Symbol.keywords,
    s.spelling.toList.head?.any isWordStart ∧ s.spelling.toList.all isWordChar := by
  decide

theorem spelling_mark (s : Symbol) (h : s ∉ Symbol.keywords) :
    (∃ c, s.spelling.toList = [c] ∧ Symbol.ofChar? c = some s) ∨
      ∃ c d, s.spelling.toList = [c, d] ∧ Symbol.ofPair? c d = some s := by
  cases s with
  | lparen | rparen | lbrace | rbrace | lbracket | rbracket | comma | colon | semicolon | dot | plus
  | minus | star | slash | percent | lt | gt | assign | bang | question | pipe | amp =>
    exact .inl ⟨_, rfl, rfl⟩
  | colonColon | dotDot | le | ge | eq | ne | pipeGt | orOr | andAnd | fatArrow =>
    exact .inr ⟨_, _, rfl, rfl⟩
  | _ => exact absurd (by decide) h

theorem step_symbol (s : Symbol) {rest : List Char} (hrest : Delimited rest) (pos : Pos) :
    step ⟨pos, s.spelling.toList ++ rest⟩ =
      .found (.symbol s) ⟨pos.afterAll s.spelling.toList, rest⟩ := by
  by_cases hs : s ∈ Symbol.keywords
  · have hkeyword := Symbol.keyword?_spelling s hs
    obtain ⟨hstart, hword⟩ := spelling_keyword s hs
    cases hspelling : s.spelling.toList with
    | nil =>
      rw [hspelling] at hstart
      cases hstart
    | cons c cs =>
      rw [hspelling] at hstart hword
      refine step_word hstart (fun d hd => List.all_eq_true.mp hword d (List.mem_cons_of_mem c hd))
        hrest ?_ pos
      rw [← hspelling, String.ofList_toList, hkeyword]
      rfl
  · rcases spelling_mark s hs with ⟨c, hspelling, hc⟩ | ⟨c, d, hspelling, hpair⟩
    · rw [hspelling]
      refine step_of_token (isBlank_of_ofChar? hc) (fun _ => hrest) ?_
      exact (token_of_ofChar? hc pos rest).trans (mark_single hc hrest pos)
    · obtain ⟨hslash, s', hc⟩ := ofChar?_of_ofPair? hpair
      rw [hspelling]
      refine step_of_token (isBlank_of_ofChar? hc) (fun h => absurd h hslash) ?_
      exact (token_of_ofChar? hc pos (d :: rest)).trans (mark_pair hpair pos rest)

/-! ### Numbers -/

theorem digitValue_digitChar {d : Nat} (h : d < 10) : digitValue d.digitChar = d := by
  rw [digitValue, if_pos (by rw [Nat.isDigit_digitChar]; exact decide_eq_true h)]
  exact Nat.toNat_digitChar_sub_48_of_lt_ten h

theorem natOfDigits?_snoc {digits : List Char} {n : Nat} (h : natOfDigits? 10 digits = some n)
    {c : Char} (hc : digitValue c < 10) :
    natOfDigits? 10 (digits ++ [c]) = some (n * 10 + digitValue c) := by
  have hempty : (digits ++ [c]).isEmpty = false := by simp
  unfold natOfDigits? at h ⊢
  split at h
  · cases h
  · rw [hempty, if_neg Bool.false_ne_true, List.foldlM_append, h]
    simp [hc]

/-- The decimal digits of a number denote that number. -/
theorem natOfDigits?_toDigits (n : Nat) : natOfDigits? 10 (Nat.toDigits 10 n) = some n := by
  induction n using Nat.strongRecOn with
  | ind n ih =>
    by_cases hn : n < 10
    · have hdigit := digitValue_digitChar hn
      rw [Nat.toDigits_of_lt_base hn, natOfDigits?, List.isEmpty_cons, if_neg Bool.false_ne_true,
        List.foldlM_cons, hdigit, if_pos hn, Nat.zero_mul, Nat.zero_add]
      rfl
    · have hdigit := digitValue_digitChar (Nat.mod_lt n (by decide : 0 < 10))
      have hsnoc := natOfDigits?_snoc (ih (n / 10) (by omega)) (c := (n % 10).digitChar) (by omega)
      rw [Nat.toDigits_of_base_le (by decide) (by omega), hsnoc, hdigit]
      exact congrArg some (by omega)

theorem int64OfDigits?_toDigits {value : Int64} (h : 0 ≤ value.toInt) :
    int64OfDigits? 10 (Nat.toDigits 10 value.toInt.toNat) = some value := by
  have hbound := value.toInt_lt
  have hvalue : Int64.ofNat value.toInt.toNat = value := by
    rw [← Int64.ofInt_eq_ofNat, Int.toNat_of_nonneg h, Int64.ofInt_toInt]
  unfold int64OfDigits?
  rw [natOfDigits?_toDigits]
  dsimp only
  rw [if_pos (by omega), hvalue]

theorem withoutGaps_eq {text : List Char} (h : '_' ∉ text) : withoutGaps text = text := by
  refine List.filter_eq_self.mpr fun c hc => ?_
  rw [bne_iff_ne]
  rintro rfl
  exact h hc

theorem suffixOf_letter {c : Char} {cs : List Char} (hletter : c.isAlpha)
    (hrest : ∀ d ∈ cs, d.isAlphanum) : suffixOf (c :: cs) = some (String.ofList (c :: cs)) := by
  have hgap : '_' ∉ c :: cs := by
    rw [List.mem_cons, not_or]
    constructor
    · rintro rfl
      cases hletter
    · intro h
      cases hrest _ h
  unfold suffixOf
  rw [withoutGaps_eq hgap]
  rfl

/-- Digits that no base mark can be read from make a decimal number. -/
theorem number_decimal {pos : Pos} {text : List Char}
    (h : ∀ d cs, text = '0' :: d :: cs → d ≠ 'x' ∧ d ≠ 'b' ∧ d ≠ 'o') :
    number ⟨pos, text⟩ = decimalNumber ⟨pos, text⟩ := by
  unfold number
  split
  · exact absurd rfl (h _ _ ‹_›).1
  · exact absurd rfl (h _ _ ‹_›).2.1
  · exact absurd rfl (h _ _ ‹_›).2.2
  · rfl

theorem isDigit_of_isAlpha {c : Char} (h : c.isAlpha) : c.isDigit = false := by
  by_contra hdigit
  rw [Bool.not_eq_false, Char.isDigit_iff_toNat] at hdigit
  have hnine : c.toNat ≤ 57 := hdigit.2
  rcases Bool.or_eq_true_iff.mp h with hupper | hlower
  · have hletter : 65 ≤ c.toNat := (of_decide_eq_true hupper).1
    omega
  · have hletter : 97 ≤ c.toNat := of_decide_eq_true (Bool.and_eq_true_iff.mp hlower).1
    omega

theorem isWordStart_of_isDigit {c : Char} (h : c.isDigit) : isWordStart c = false := by
  rw [isWordStart, Bool.or_eq_false_iff]
  constructor
  · by_contra hletter
    rw [Bool.not_eq_false] at hletter
    rw [isDigit_of_isAlpha hletter] at h
    cases h
  · rw [beq_eq_false_iff_ne]
    rintro rfl
    cases h

/-- What may stand behind the digits of a number: its suffix or a blank. -/
def EndsDigits (tail : List Char) : Prop :=
  ∀ c, tail.head? = some c → c.isAlpha ∨ isBlank c

theorem EndsDigits.stops {tail : List Char} (h : EndsDigits tail) : Stops isDigitOrGap tail := by
  intro c hc
  rcases h c hc with hletter | hblank
  · rw [isDigitOrGap, isDigit_of_isAlpha hletter, Bool.false_or, beq_eq_false_iff_ne]
    rintro rfl
    cases hletter
  · rcases isBlank_cases hblank with rfl | rfl | rfl | rfl | rfl <;> rfl

/-- Digits and gaps up to something that is neither, nor a point, make an integer. -/
theorem decimalNumber_run {run tail : List Char} (hrun : ∀ c ∈ run, isDigitOrGap c)
    (htail : Stops isDigitOrGap tail) (hpoint : tail.head? ≠ some '.') (pos : Pos) :
    decimalNumber ⟨pos, run ++ tail⟩ =
      integerToken 10 (withoutGaps run) ⟨pos.afterAll run, tail⟩ := by
  unfold decimalNumber
  dsimp only
  rw [spanWhile_append hrun htail]
  dsimp only
  split
  · exact absurd rfl hpoint
  · rfl

theorem decimalNumber_append {digits tail : List Char} (hdigits : ∀ c ∈ digits, c.isDigit)
    (htail : EndsDigits tail) (pos : Pos) :
    decimalNumber ⟨pos, digits ++ tail⟩ = integerToken 10 digits ⟨pos.afterAll digits, tail⟩ := by
  have hrun : ∀ c ∈ digits, isDigitOrGap c := by
    intro c hc
    rw [isDigitOrGap, hdigits c hc, Bool.true_or]
  have hgap : '_' ∉ digits := fun h => by cases hdigits _ h
  have hpoint : tail.head? ≠ some '.' := by
    intro h
    rcases htail '.' h with hpoint | hpoint <;> cases hpoint
  rw [decimalNumber_run hrun htail.stops hpoint, withoutGaps_eq hgap]

/-- Digits that fit make a number, with the word characters behind them as its suffix. -/
theorem integerToken_fits {base : Nat} {digits suffix rest : List Char} {value : Int64}
    (hvalue : int64OfDigits? base digits = some value) (hsuffix : ∀ c ∈ suffix, c.isAlphanum)
    (hrest : Stops isWordChar rest) (pos : Pos) :
    integerToken base digits ⟨pos, suffix ++ rest⟩ =
      .ok (.number value (suffixOf suffix), ⟨pos.afterAll suffix, rest⟩) := by
  have hrun : ∀ c ∈ suffix, isWordChar c := by
    intro c hc
    rw [isWordChar, hsuffix c hc, Bool.true_or]
  unfold integerToken
  dsimp only
  rw [spanWhile_append hrun hrest, hvalue]

/-- The only number whose digits are a single zero is zero. -/
theorem eq_zero_of_toDigits {value : Int64} (hvalue : 0 ≤ value.toInt)
    (h : Nat.toDigits 10 value.toInt.toNat = ['0']) : value = 0 := by
  have hdigits := int64OfDigits?_toDigits hvalue
  rw [h] at hdigits
  exact (Option.some.inj hdigits).symm

/-- Behind the first digit stands another digit or what ends the digits, never a base mark. -/
theorem digits_unmarked {digits tail : List Char} (hne : digits ≠ [])
    (hdigits : ∀ c ∈ digits, isDigitOrGap c)
    (htail : digits = ['0'] → ∀ c, tail.head? = some c → c ≠ 'x' ∧ c ≠ 'b' ∧ c ≠ 'o')
    (d : Char) (cs : List Char) (h : digits ++ tail = '0' :: d :: cs) :
    d ≠ 'x' ∧ d ≠ 'b' ∧ d ≠ 'o' := by
  cases digits with
  | nil => exact absurd rfl hne
  | cons c digits =>
    cases digits with
    | nil =>
      obtain ⟨rfl, rfl⟩ := List.cons.inj h
      exact htail rfl d rfl
    | cons c' digits =>
      obtain ⟨-, hcs⟩ := List.cons.inj h
      obtain ⟨rfl, -⟩ := List.cons.inj hcs
      have hdigit := hdigits c' (by simp)
      refine ⟨?_, ?_, ?_⟩ <;> (rintro rfl; cases hdigit)

/-- A digit starts a number. -/
theorem token_of_isDigit {c : Char} (h : c.isDigit) (pos : Pos) (cs : List Char) :
    token pos c cs = number ⟨pos, c :: cs⟩ := by
  rw [token, isWordStart_of_isDigit h, if_neg Bool.false_ne_true, if_pos h]

theorem isBlank_of_isDigit {c : Char} (h : c.isDigit) : isBlank c = false := by
  refine isBlank_of_isWordChar ?_
  rw [isWordChar, Char.isAlphanum, h, Bool.or_true, Bool.true_or]

theorem step_number {value : Int64} (hvalue : 0 ≤ value.toInt) {suffix rest : List Char}
    (hsuffix : ∀ d ∈ suffix, d.isAlphanum)
    (hhead : ∀ c, suffix.head? = some c → c.isAlpha ∧ (value = 0 → c ≠ 'x' ∧ c ≠ 'b' ∧ c ≠ 'o'))
    (hrest : Delimited rest) (pos : Pos) :
    step ⟨pos, Nat.toDigits 10 value.toInt.toNat ++ suffix ++ rest⟩ =
      .found (.number value (suffixOf suffix))
        ⟨pos.afterAll (Nat.toDigits 10 value.toInt.toNat ++ suffix), rest⟩ := by
  have hdigits : ∀ c ∈ Nat.toDigits 10 value.toInt.toNat, c.isDigit :=
    fun c => Nat.isDigit_of_mem_toDigits (by decide) (by decide)
  have hends : EndsDigits (suffix ++ rest) := by
    intro c hc
    cases suffix with
    | nil => exact .inr (hrest c hc)
    | cons d suffix => exact .inl (hhead c hc).1
  have hbase : value = 0 → ∀ c, (suffix ++ rest).head? = some c → c ≠ 'x' ∧ c ≠ 'b' ∧ c ≠ 'o' := by
    intro hzero c hc
    cases suffix with
    | nil => rcases isBlank_cases (hrest c hc) with rfl | rfl | rfl | rfl | rfl <;> decide
    | cons d suffix => exact (hhead c hc).2 hzero
  have hnumber : number ⟨pos, Nat.toDigits 10 value.toInt.toNat ++ (suffix ++ rest)⟩ =
      .ok (.number value (suffixOf suffix),
        ⟨pos.afterAll (Nat.toDigits 10 value.toInt.toNat ++ suffix), rest⟩) := by
    have hrun : ∀ c ∈ Nat.toDigits 10 value.toInt.toNat, isDigitOrGap c := by
      intro c hc
      rw [isDigitOrGap, hdigits c hc, Bool.true_or]
    have hunmarked := digits_unmarked Nat.toDigits_ne_nil hrun
      fun h => hbase (eq_zero_of_toDigits hvalue h)
    rw [number_decimal hunmarked, decimalNumber_append hdigits hends,
      integerToken_fits (int64OfDigits?_toDigits hvalue) hsuffix
        (hrest.stops fun _ => isWordChar_of_isBlank), Pos.afterAll_append]
  rw [List.append_assoc]
  cases hcs : Nat.toDigits 10 value.toInt.toNat with
  | nil => exact absurd hcs Nat.toDigits_ne_nil
  | cons c cs =>
    rw [hcs] at hdigits hnumber
    have hdigit := hdigits c List.mem_cons_self
    refine step_of_token (isBlank_of_isDigit hdigit) ?_ ((token_of_isDigit hdigit pos _).trans hnumber)
    rintro rfl
    cases hdigit

/-! ### Quoted text -/

theorem step_quoted {quote : Char} {make : String → TokenKind} {fault : LexFault} {text : List Char}
    (hquote : quote = '"' ∨ quote = '\'')
    (htoken : ∀ pos cs, token pos quote cs = quotedToken quote make fault pos cs)
    (h : TokenKind.Quotable quote text) (pos : Pos) (rest : List Char) :
    step ⟨pos, quote :: (text ++ quote :: rest)⟩ =
      .found (make (String.ofList text)) ⟨pos.afterAll (quote :: (text ++ [quote])), rest⟩ := by
  have hblank : isBlank quote = false := by rcases hquote with rfl | rfl <;> rfl
  have hcomment : quote ≠ '/' := by rcases hquote with rfl | rfl <;> decide
  have hslash : quote ≠ '\\' := by rcases hquote with rfl | rfl <;> decide
  refine step_of_token hblank (fun h => absurd h hcomment) ?_
  rw [htoken, quotedToken, quoted_append h hslash]
  rfl

/-! ### Whole texts -/

/-- A rendering that nothing but a blank follows is read as its token. -/
theorem step_render {kind : TokenKind} (h : kind.Renderable) {rest : List Char}
    (hrest : Delimited rest) (pos : Pos) :
    step ⟨pos, kind.render ++ rest⟩ = .found kind ⟨pos.afterAll kind.render, rest⟩ := by
  cases h with
  | symbol s => exact step_symbol s hrest pos
  | @ident name c cs hname hstart hcs hkeyword =>
    have hnone : Symbol.keyword? name = none := by
      refine Option.eq_none_iff_forall_ne_some.mpr fun s hs => ?_
      obtain ⟨hmem, hspelling⟩ := Symbol.keyword?_eq_some_iff.mp hs
      exact hkeyword s hmem hspelling
    have hname' : String.ofList (c :: cs) = name := by rw [← hname, String.ofList_toList]
    rw [TokenKind.render, hname]
    exact step_word hstart hcs hrest (by rw [hname', hnone]; rfl) pos
  | @number value hvalue =>
    have hfound := @step_number value hvalue [] rest (by simp) (by simp) hrest pos
    exact hfound
  | @suffixed value suffix c cs hvalue hsuffix hletter hcs hbase =>
    have hall : ∀ d ∈ c :: cs, d.isAlphanum := by
      refine List.forall_mem_cons.mpr ⟨?_, hcs⟩
      rw [Char.isAlphanum, hletter, Bool.true_or]
    have hhead : ∀ d, (c :: cs).head? = some d →
        d.isAlpha ∧ (value = 0 → d ≠ 'x' ∧ d ≠ 'b' ∧ d ≠ 'o') := by
      intro d hd
      obtain rfl := Option.some.inj hd
      exact ⟨hletter, hbase⟩
    have hfound := step_number hvalue hall hhead hrest pos
    rw [suffixOf_letter hletter hcs, ← hsuffix, String.ofList_toList] at hfound
    exact hfound
  | @string text htext =>
    have hfound := @step_quoted '"' .string .unterminatedString _ (.inl rfl) (fun _ _ => rfl) htext
      pos rest
    rw [String.ofList_toList] at hfound
    rw [TokenKind.render, List.append_assoc]
    exact hfound
  | @char text htext =>
    have hfound := @step_quoted '\'' .char .unterminatedChar _ (.inr rfl) (fun _ _ => rfl) htext
      pos rest
    rw [String.ofList_toList] at hfound
    rw [TokenKind.render, List.append_assoc]
    exact hfound

theorem tokens_piece {p : Piece} (hkind : p.kind.Renderable) (hgap : Trivia p.gap)
    {before rest : List Char} (hrest : Delimited (p.gap ++ rest)) {found : List Token}
    (h : tokens ⟨.behind (before ++ p.text), rest⟩ = .ok found) :
    tokens ⟨.behind before, p.text ++ rest⟩ = .ok (⟨p.kind, .behind before⟩ :: found) := by
  rw [Piece.text, List.append_assoc]
  refine tokens_found (step_render hkind hrest (.behind before)) ?_
  rw [tokens_trivia hgap, Pos.behind_afterAll, Pos.behind_afterAll, List.append_assoc]
  exact h

/-- Wherever the pieces of a text start, their tokens are found from there on. -/
theorem tokens_pieces {pieces : List Piece} (h : Piece.Spaced pieces) (before : List Char) :
    tokens ⟨.behind before, Piece.textAll pieces⟩ =
      .ok ((Piece.places before pieces).map Piece.token ++
        [⟨.eof, .behind (before ++ Piece.textAll pieces)⟩]) := by
  induction h generalizing before with
  | nil =>
    rw [tokens_finished rfl, Piece.textAll, List.flatMap_nil, List.append_nil]
    rfl
  | @last kind hkind =>
    have hrest : Delimited [] := fun c hc => by cases hc
    have hfound := @tokens_piece ⟨kind, []⟩ hkind .nil before [] hrest _ (tokens_finished rfl)
    rw [List.append_nil] at hfound
    rw [Piece.textAll, List.flatMap_singleton]
    exact hfound
  | @cons kind c gap pieces hkind hblank hgap _ ih =>
    have hrest : Delimited (c :: gap ++ Piece.textAll pieces) := by
      intro d hd
      obtain rfl := Option.some.inj hd
      exact hblank
    have hfound := @tokens_piece ⟨kind, c :: gap⟩ hkind (.blank hblank hgap) before _ hrest _ (ih _)
    rw [List.append_assoc] at hfound
    exact hfound

end Scan

theorem Token.scan_textAll {lead : List Char} {pieces : List Piece} (hlead : Trivia lead)
    (hpieces : Piece.Spaced pieces) :
    Token.scan (String.ofList (lead ++ Piece.textAll pieces)) =
      .ok ((Piece.places lead pieces).map Piece.token ++
        [⟨.eof, .behind (lead ++ Piece.textAll pieces)⟩]) := by
  rw [Token.scan, String.toList_ofList, Scan.tokens_trivia hlead, Pos.start_afterAll]
  exact Scan.tokens_pieces hpieces lead

/-- A text of fewer than 2^32 characters that is written for tokens, with any trivia between them, is
scanned into just these tokens and the end, each at the line and column where its rendering starts. So
is the end, if there is a number for its line and its column. -/
theorem scan_pieces {lead : List Char} {pieces : List Piece} (hlead : Trivia lead)
    (hpieces : Piece.Spaced pieces) (hlen : (lead ++ Piece.textAll pieces).length < 0x100000000) :
    ∃ found last,
      Token.scan (String.ofList (lead ++ Piece.textAll pieces)) = .ok (found ++ [⟨.eof, last⟩]) ∧
      List.Forall₂ Piece.Found (Piece.places lead pieces) found ∧
      ((lead ++ Piece.textAll pieces).length + 1 < 0x100000000 →
        last.Shows (lead ++ Piece.textAll pieces)) :=
  ⟨_, _, Token.scan_textAll hlead hpieces, hpieces.found lead hlen, Pos.behind_shows_of_length⟩

namespace Commented

/-- A number with a suffix, a quoted quote, a mark of two characters and a name that starts like a
keyword. -/
def source : String := "/* a **/0USize\t//b\n \"\\\"\" ..\niff"

def tokens : List Token :=
  [⟨.number 0 (some "USize"), ⟨1, 9⟩⟩, ⟨.string "\\\"", ⟨2, 2⟩⟩, ⟨.symbol .dotDot, ⟨2, 7⟩⟩,
    ⟨.ident "iff", ⟨3, 1⟩⟩]

def lead : List Char := "/* a **/".toList

def pieces : List Piece :=
  [⟨.number 0 (some "USize"), "\t//b\n ".toList⟩, ⟨.string "\\\"", [' ']⟩, ⟨.symbol .dotDot, ['\n']⟩,
    ⟨.ident "iff", []⟩]

theorem trivia_lead : Trivia lead :=
  @Trivia.block [' ', 'a', ' ', '*'] [] (by decide) .nil

theorem spaced_pieces : Piece.Spaced pieces := by
  have hsuffix := List.all_eq_true.mp (show ['S', 'i', 'z', 'e'].all Char.isAlphanum = true from rfl)
  have hword := List.all_eq_true.mp (show ['f', 'f'].all Scan.isWordChar = true from rfl)
  refine .cons (.suffixed (by decide) rfl rfl hsuffix (by decide)) rfl
    (@Trivia.line ['b'] [' '] (by decide) (.blank rfl .nil)) ?_
  refine .cons (.string (.escaped '"' .nil)) rfl .nil ?_
  refine .cons (.symbol .dotDot) rfl .nil ?_
  exact .last (.ident rfl rfl hword (by decide))

end Commented

open Commented in
/-- Comments and newlines move the tokens and hide none of them. -/
theorem scan_pieces_commented :
    Trivia lead ∧ Piece.Spaced pieces ∧ source.length < 0x100000000 ∧
      Token.scan source = .ok (tokens ++ [⟨.eof, ⟨3, 4⟩⟩]) ∧
      List.Forall₂ Piece.Found (Piece.places lead pieces) tokens ∧
      (⟨3, 4⟩ : Pos).Shows source.toList := by
  have htext : String.ofList (lead ++ Piece.textAll pieces) = source := by decide
  have hlen : (lead ++ Piece.textAll pieces).length + 1 < 0x100000000 := by decide
  have hscan : Token.scan source = .ok (tokens ++ [⟨.eof, ⟨3, 4⟩⟩]) := by
    rw [← htext]
    exact Token.scan_textAll trivia_lead spaced_pieces
  obtain ⟨found, last, hfound, hplaces, hlast⟩ :=
    scan_pieces trivia_lead spaced_pieces (Nat.lt_of_succ_lt hlen)
  rw [htext, hscan] at hfound
  obtain ⟨rfl, heq⟩ := List.append_inj' (Except.ok.inj hfound) rfl
  cases heq
  have hend := hlast hlen
  rw [← @String.toList_ofList (lead ++ Piece.textAll pieces), htext] at hend
  exact ⟨trivia_lead, spaced_pieces, by decide, hscan, hplaces, hend⟩

namespace Wide

/-- What stands before the second name. -/
def before (n : Nat) : List Char := 'a' :: ' ' :: List.replicate n ' '

/-- Two names on one line, far apart. -/
def pieces (n : Nat) : List Piece :=
  [⟨.ident "a", ' ' :: List.replicate n ' '⟩, ⟨.ident "b", []⟩]

theorem spaced_pieces (n : Nat) : Piece.Spaced (pieces n) :=
  .cons (.ident rfl rfl (fun _ h => by cases h) (by decide)) rfl (.spaces n)
    (.last (.ident rfl rfl (fun _ h => by cases h) (by decide)))

theorem newline_not_mem (n : Nat) : '\n' ∉ before n := by
  simp [before, List.mem_replicate]

theorem length_before (n : Nat) : (before n).length = n + 2 := by
  simp [before]

theorem textAll_pieces (n : Nat) : Piece.textAll (pieces n) = before n ++ ['b'] := rfl

theorem scan_text (n : Nat) :
    Token.scan (String.ofList (Piece.textAll (pieces n))) =
      .ok [⟨.ident "a", ⟨1, 1⟩⟩, ⟨.ident "b", ⟨1, (n + 3).toUInt32⟩⟩,
        ⟨.eof, ⟨1, (n + 4).toUInt32⟩⟩] := by
  have hend : '\n' ∉ before n ++ ['b'] := by
    rw [List.mem_append, not_or]
    exact ⟨newline_not_mem n, by decide⟩
  have hscan := Token.scan_textAll .nil (spaced_pieces n)
  rw [List.nil_append, textAll_pieces, Pos.behind_of_not_mem hend, List.length_append,
    length_before] at hscan
  have hsecond : Piece.token (before n, ⟨.ident "b", []⟩) = ⟨.ident "b", ⟨1, (n + 3).toUInt32⟩⟩ := by
    rw [Piece.token, Pos.behind_of_not_mem (newline_not_mem n), length_before]
  rw [textAll_pieces, hscan, ← hsecond]
  rfl

end Wide

open Wide in
/-- In a text of 2^32 characters a column may have no number: the second name stands in column 2^32
and is found in column zero. -/
theorem scan_column_wraps :
    Piece.Spaced (pieces 0xfffffffd) ∧
      Piece.places [] (pieces 0xfffffffd) =
        [([], ⟨.ident "a", ' ' :: List.replicate 0xfffffffd ' '⟩),
          (before 0xfffffffd, ⟨.ident "b", []⟩)] ∧
      (Piece.textAll (pieces 0xfffffffd)).length = 0x100000000 ∧
      (Text.lastLine (before 0xfffffffd)).length + 1 = 0x100000000 ∧
      Token.scan (String.ofList (Piece.textAll (pieces 0xfffffffd))) =
        .ok [⟨.ident "a", ⟨1, 1⟩⟩, ⟨.ident "b", ⟨1, 0⟩⟩, ⟨.eof, ⟨1, 1⟩⟩] ∧
      ¬ (⟨1, 0⟩ : Pos).Shows (before 0xfffffffd) := by
  have hlast : (Text.lastLine (before 0xfffffffd)).length + 1 = 0x100000000 := by
    rw [Text.lastLine_of_not_mem (newline_not_mem _), length_before]
  refine ⟨spaced_pieces _, rfl, ?_, hlast, scan_text 0xfffffffd, fun h => ?_⟩
  · rw [textAll_pieces, List.length_append, length_before]
    rfl
  · have hcolumn := h.2.trans hlast
    cases hcolumn

end TuffSafety
