import TuffSafety.Decimal.Nearest
import TuffSafety.Token

/-!
# Scanning

A source text becomes tokens, one step at a time. Each step looks at the front of the
remaining text, skips a blank or a comment or reads one token, and leaves a shorter rest.
-/
namespace TuffSafety

/-- Why a text cannot be divided into tokens. -/
inductive LexFault where
  | unexpectedChar (c : Char)
  | unterminatedString
  | unterminatedChar
  | unterminatedComment
  | invalidNumber (digits : String)
deriving DecidableEq, Repr

/-- The unread rest of a text and where it starts. -/
structure Cursor where
  pos : Pos
  rest : List Char
deriving DecidableEq, Repr

namespace Scan

def isBlank (c : Char) : Bool :=
  c == ' ' || c == '\t' || c == '\n' || c == '\r' || c == '\x0c'

def isWordStart (c : Char) : Bool :=
  c.isAlpha || c == '_'

def isWordChar (c : Char) : Bool :=
  c.isAlphanum || c == '_'

def isHexDigit (c : Char) : Bool :=
  c.isDigit || ('a' ≤ c && c ≤ 'f') || ('A' ≤ c && c ≤ 'F')

/-- Digits may be grouped by underscores. -/
def isDigitOrGap (c : Char) : Bool :=
  c.isDigit || c == '_'

def isHexDigitOrGap (c : Char) : Bool :=
  isHexDigit c || c == '_'

def withoutGaps (text : List Char) : List Char :=
  text.filter (· != '_')

/-- The longest run of characters with the property, and the cursor behind it. -/
def spanWhile (p : Char → Bool) : Pos → List Char → List Char × Cursor
  | pos, [] => ([], ⟨pos, []⟩)
  | pos, c :: cs =>
    if p c then
      let (run, next) := spanWhile p (pos.after c) cs
      (c :: run, next)
    else ([], ⟨pos, c :: cs⟩)

/-- The text up to the closing quote, which is passed over; a backslash protects the character
behind it. -/
def quoted (quote : Char) : Pos → List Char → Option (List Char × Cursor)
  | _, [] => none
  | _, ['\\'] => none
  | pos, '\\' :: c :: cs =>
    (quoted quote ((pos.after '\\').after c) cs).map fun (text, next) => ('\\' :: c :: text, next)
  | pos, c :: cs =>
    if c = quote then some ([], ⟨pos.after c, cs⟩)
    else (quoted quote (pos.after c) cs).map fun (text, next) => (c :: text, next)

/-- The cursor behind the end of a block comment whose opening was read. -/
def blockComment : Pos → List Char → Option Cursor
  | _, [] => none
  | pos, '*' :: '/' :: cs => some ⟨(pos.after '*').after '/', cs⟩
  | pos, c :: cs => blockComment (pos.after c) cs

def digitValue (c : Char) : Nat :=
  if c.isDigit then c.toNat - '0'.toNat
  else if 'a' ≤ c then c.toNat - 'a'.toNat + 10
  else c.toNat - 'A'.toNat + 10

/-- The number that digits of a base denote; none without digits or with one outside the base. -/
def natOfDigits? (base : Nat) (digits : List Char) : Option Nat :=
  if digits.isEmpty then none
  else digits.foldlM (fun n c => if digitValue c < base then some (n * base + digitValue c) else none) 0

def int64OfDigits? (base : Nat) (digits : List Char) : Option Int64 :=
  match natOfDigits? base digits with
  | some n => if n < 0x8000000000000000 then some (Int64.ofNat n) else none
  | none => none

def suffixOf (run : List Char) : Option String :=
  let suffix := withoutGaps run
  if suffix.isEmpty then none else some (String.ofList suffix)

/-- An integer token with the digits read so far, its suffix standing at the cursor. -/
def integerToken (base : Nat) (digits : List Char) (cur : Cursor) :
    Except LexFault (TokenKind × Cursor) :=
  let (suffix, next) := spanWhile isWordChar cur.pos cur.rest
  match int64OfDigits? base digits with
  | some value => .ok (.number value (suffixOf suffix), next)
  | none => .error (.invalidNumber (String.ofList digits))

/-- The integer behind a base mark such as `0x`. Every base reads hexadecimal digits; a letter among
those of a smaller base is a fault of the whole run. -/
def basedNumber (base : Nat) (cur : Cursor) : Except LexFault (TokenKind × Cursor) :=
  let (run, next) := spanWhile isHexDigitOrGap cur.pos cur.rest
  if base ≠ 16 && run.any Char.isAlpha then .error (.invalidNumber (String.ofList run))
  else integerToken base (withoutGaps run) next

/-- The float whose digits before and behind the point are given, rounded to nearest. -/
def floatOfDigits (whole fraction : List Char) : Float :=
  let digits := (whole ++ fraction).foldl (fun n c => n * 10 + digitValue c) 0
  Decimal.toFloat ⟨digits, -fraction.length⟩

/-- A decimal integer or float. A point belongs to the number only when a digit follows it. -/
def decimalNumber (cur : Cursor) : Except LexFault (TokenKind × Cursor) :=
  let (whole, next) := spanWhile isDigitOrGap cur.pos cur.rest
  match next.rest with
  | '.' :: d :: cs =>
    if d.isDigit then
      let (fraction, next) := spanWhile isDigitOrGap (next.pos.after '.') (d :: cs)
      let (_, next) := spanWhile isWordChar next.pos next.rest
      .ok (.float (floatOfDigits (withoutGaps whole) (withoutGaps fraction)), next)
    else integerToken 10 (withoutGaps whole) next
  | _ => integerToken 10 (withoutGaps whole) next

def number (cur : Cursor) : Except LexFault (TokenKind × Cursor) :=
  match cur.rest with
  | '0' :: 'x' :: cs => basedNumber 16 ⟨(cur.pos.after '0').after 'x', cs⟩
  | '0' :: 'b' :: cs => basedNumber 2 ⟨(cur.pos.after '0').after 'b', cs⟩
  | '0' :: 'o' :: cs => basedNumber 8 ⟨(cur.pos.after '0').after 'o', cs⟩
  | _ => decimalNumber cur

def word (cur : Cursor) : TokenKind × Cursor :=
  let (run, next) := spanWhile isWordChar cur.pos cur.rest
  let name := String.ofList run
  match Symbol.keyword? name with
  | some k => (.symbol k, next)
  | none => (.ident name, next)

def quotedToken (quote : Char) (make : String → TokenKind) (fault : LexFault) (pos : Pos)
    (cs : List Char) : Except LexFault (TokenKind × Cursor) :=
  match quoted quote (pos.after quote) cs with
  | some (text, next) => .ok (make (String.ofList text), next)
  | none => .error fault

/-- The mark at the front of a text, two characters if they make one. -/
def mark (pos : Pos) (c : Char) (cs : List Char) : Except LexFault (TokenKind × Cursor) :=
  let single := match Symbol.ofChar? c with
    | some s => .ok (.symbol s, ⟨pos.after c, cs⟩)
    | none => .error (.unexpectedChar c)
  match cs with
  | d :: ds =>
    match Symbol.ofPair? c d with
    | some s => .ok (.symbol s, ⟨(pos.after c).after d, ds⟩)
    | none => single
  | [] => single

/-- The token whose first character is `c`. -/
def token (pos : Pos) (c : Char) (cs : List Char) : Except LexFault (TokenKind × Cursor) :=
  if isWordStart c then .ok (word ⟨pos, c :: cs⟩)
  else if c.isDigit then number ⟨pos, c :: cs⟩
  else if c = '"' then quotedToken '"' .string .unterminatedString pos cs
  else if c = '\'' then quotedToken '\'' .char .unterminatedChar pos cs
  else mark pos c cs

/-- What one step finds at the front of a text. -/
inductive Step where
  | finished
  | skipped (next : Cursor)
  | found (kind : TokenKind) (next : Cursor)
  | failed (fault : LexFault)

def step (cur : Cursor) : Step :=
  match cur.rest with
  | [] => .finished
  | '/' :: '/' :: cs => .skipped (spanWhile (· != '\n') ((cur.pos.after '/').after '/') cs).2
  | '/' :: '*' :: cs =>
    match blockComment ((cur.pos.after '/').after '*') cs with
    | some next => .skipped next
    | none => .failed .unterminatedComment
  | c :: cs =>
    if isBlank c then .skipped ⟨cur.pos.after c, cs⟩
    else match token cur.pos c cs with
      | .ok (kind, next) => .found kind next
      | .error fault => .failed fault

theorem spanWhile_length_le (p : Char → Bool) (pos : Pos) (cs : List Char) :
    (spanWhile p pos cs).2.rest.length ≤ cs.length := by
  induction cs generalizing pos with
  | nil => simp [spanWhile]
  | cons c cs ih =>
    rw [spanWhile]
    split
    · have := ih (pos.after c)
      simp only [List.length_cons]
      omega
    · simp

theorem quoted_length_lt {quote : Char} {pos : Pos} {cs text : List Char} {next : Cursor}
    (h : quoted quote pos cs = some (text, next)) : next.rest.length < cs.length := by
  fun_induction quoted quote pos cs generalizing text with
  | case1 => simp at h
  | case2 => simp at h
  | case3 pos c cs ih =>
    obtain ⟨⟨t, n⟩, hn, heq⟩ := Option.map_eq_some_iff.1 h
    obtain ⟨-, rfl⟩ := Prod.mk.inj heq
    have := ih hn
    simp only [List.length_cons]
    omega
  | case4 pos cs =>
    obtain ⟨-, rfl⟩ := Prod.mk.inj (Option.some.inj h)
    simp
  | case5 pos c cs _ _ _ ih =>
    obtain ⟨⟨t, n⟩, hn, heq⟩ := Option.map_eq_some_iff.1 h
    obtain ⟨-, rfl⟩ := Prod.mk.inj heq
    have := ih hn
    simp only [List.length_cons]
    omega

theorem blockComment_length_lt {pos : Pos} {cs : List Char} {next : Cursor}
    (h : blockComment pos cs = some next) : next.rest.length < cs.length := by
  fun_induction blockComment pos cs with
  | case1 => simp at h
  | case2 pos cs =>
    obtain rfl := Option.some.inj h
    simp only [List.length_cons]
    omega
  | case3 pos c cs _ ih =>
    have := ih h
    simp only [List.length_cons]
    omega

theorem spanWhile_length_lt {p : Char → Bool} {pos : Pos} {c : Char} {cs : List Char}
    (h : p c = true) : (spanWhile p pos (c :: cs)).2.rest.length < (c :: cs).length := by
  have := spanWhile_length_le p (pos.after c) cs
  rw [spanWhile, if_pos h]
  simp only [List.length_cons]
  omega

theorem integerToken_length_le {base : Nat} {digits : List Char} {cur next : Cursor}
    {kind : TokenKind} (h : integerToken base digits cur = .ok (kind, next)) :
    next.rest.length ≤ cur.rest.length := by
  have hle := spanWhile_length_le isWordChar cur.pos cur.rest
  simp only [integerToken] at h
  split at h
  · obtain ⟨-, rfl⟩ := Prod.mk.inj (Except.ok.inj h)
    exact hle
  · simp at h

theorem basedNumber_length_le {base : Nat} {cur next : Cursor} {kind : TokenKind}
    (h : basedNumber base cur = .ok (kind, next)) : next.rest.length ≤ cur.rest.length := by
  have hle := spanWhile_length_le isHexDigitOrGap cur.pos cur.rest
  simp only [basedNumber] at h
  split at h
  · simp at h
  · have := integerToken_length_le h
    omega

theorem decimalNumber_length_lt {pos : Pos} {c : Char} {cs : List Char} {next : Cursor}
    {kind : TokenKind} (hc : c.isDigit = true)
    (h : decimalNumber ⟨pos, c :: cs⟩ = .ok (kind, next)) :
    next.rest.length < (c :: cs).length := by
  have hp : isDigitOrGap c = true := by simp [isDigitOrGap, hc]
  have hlt := @spanWhile_length_lt _ pos c cs hp
  simp only [decimalNumber] at h
  split at h
  · rename_i d ds hrest
    split at h
    · obtain ⟨-, rfl⟩ := Prod.mk.inj (Except.ok.inj h)
      have h1 := spanWhile_length_le isDigitOrGap
        ((spanWhile isDigitOrGap pos (c :: cs)).2.pos.after '.') (d :: ds)
      have h2 := spanWhile_length_le isWordChar
        (spanWhile isDigitOrGap ((spanWhile isDigitOrGap pos (c :: cs)).2.pos.after '.') (d :: ds)).2.pos
        (spanWhile isDigitOrGap ((spanWhile isDigitOrGap pos (c :: cs)).2.pos.after '.') (d :: ds)).2.rest
      simp only [hrest, List.length_cons] at hlt h1 h2 ⊢
      omega
    · have := integerToken_length_le h
      omega
  · have := integerToken_length_le h
    omega

theorem number_length_lt {pos : Pos} {c : Char} {cs : List Char} {next : Cursor}
    {kind : TokenKind} (hc : c.isDigit = true) (h : number ⟨pos, c :: cs⟩ = .ok (kind, next)) :
    next.rest.length < (c :: cs).length := by
  simp only [number] at h
  split at h
  all_goals first
    | exact decimalNumber_length_lt hc h
    | (rename_i ds hrest
       have := basedNumber_length_le h
       rw [hrest]
       simp only [List.length_cons] at this ⊢
       omega)

theorem word_length_lt {pos : Pos} {c : Char} {cs : List Char} (hc : isWordStart c = true) :
    (word ⟨pos, c :: cs⟩).2.rest.length < (c :: cs).length := by
  have hp : isWordChar c = true := by
    simp only [isWordStart, isWordChar, Char.isAlphanum, Bool.or_eq_true] at hc ⊢
    rcases hc with hc | hc
    · exact .inl (.inl hc)
    · exact .inr hc
  have hlt := @spanWhile_length_lt _ pos c cs hp
  simp only [word]
  split <;> exact hlt

theorem quotedToken_length_lt {quote : Char} {make : String → TokenKind} {fault : LexFault}
    {pos : Pos} {cs : List Char} {kind : TokenKind} {next : Cursor}
    (h : quotedToken quote make fault pos cs = .ok (kind, next)) : next.rest.length < cs.length := by
  simp only [quotedToken] at h
  split at h
  · rename_i text n hq
    obtain ⟨-, rfl⟩ := Prod.mk.inj (Except.ok.inj h)
    exact quoted_length_lt hq
  · simp at h

theorem mark_length_lt {pos : Pos} {c : Char} {cs : List Char} {kind : TokenKind} {next : Cursor}
    (h : mark pos c cs = .ok (kind, next)) : next.rest.length < (c :: cs).length := by
  simp only [mark] at h
  repeat' split at h
  all_goals first
    | (simp at h; done)
    | (obtain ⟨-, rfl⟩ := Prod.mk.inj (Except.ok.inj h)
       simp only [List.length_cons]
       omega)

theorem token_length_lt {pos : Pos} {c : Char} {cs : List Char} {kind : TokenKind} {next : Cursor}
    (h : token pos c cs = .ok (kind, next)) : next.rest.length < (c :: cs).length := by
  simp only [token] at h
  split at h
  · rename_i hc
    have := @word_length_lt pos c cs hc
    rw [Except.ok.inj h] at this
    exact this
  · split at h
    · exact number_length_lt ‹_› h
    · split at h
      · exact Nat.lt_succ_of_lt (quotedToken_length_lt h)
      · split at h
        · exact Nat.lt_succ_of_lt (quotedToken_length_lt h)
        · exact mark_length_lt h

theorem step_skipped_length_lt {cur next : Cursor} (h : step cur = .skipped next) :
    next.rest.length < cur.rest.length := by
  simp only [step] at h
  split at h
  · simp at h
  · rename_i cs hrest
    obtain rfl := Step.skipped.inj h
    have := spanWhile_length_le (· != '\n') ((cur.pos.after '/').after '/') cs
    simp only [hrest, List.length_cons]
    omega
  · rename_i cs hrest
    split at h
    · rename_i n hn
      obtain rfl := Step.skipped.inj h
      have := blockComment_length_lt hn
      simp only [hrest, List.length_cons]
      omega
    · simp at h
  · rename_i c cs _ _ hrest
    split at h
    · obtain rfl := Step.skipped.inj h
      simp [hrest]
    · split at h <;> simp at h

theorem step_found_length_lt {cur next : Cursor} {kind : TokenKind}
    (h : step cur = .found kind next) : next.rest.length < cur.rest.length := by
  simp only [step] at h
  split at h
  · simp at h
  · simp at h
  · split at h <;> simp at h
  · rename_i c cs _ _ hrest
    split at h
    · simp at h
    · split at h
      · rename_i k n hk
        obtain ⟨-, rfl⟩ := Step.found.inj h
        rw [hrest]
        exact token_length_lt hk
      · simp at h

/-- All tokens from the cursor on, with the end of the text as the last one; otherwise the first
fault and the place where the faulty token or comment starts. -/
def tokens (cur : Cursor) : Except (LexFault × Pos) (List Token) :=
  match h : step cur with
  | .finished => .ok [⟨.eof, cur.pos⟩]
  | .skipped next =>
    have := step_skipped_length_lt h
    tokens next
  | .found kind next =>
    have := step_found_length_lt h
    match tokens next with
    | .ok rest => .ok (⟨kind, cur.pos⟩ :: rest)
    | .error e => .error e
  | .failed fault => .error (fault, cur.pos)
termination_by cur.rest.length

end Scan

/-- The tokens of a source text. -/
def Token.scan (source : String) : Except (LexFault × Pos) (List Token) :=
  Scan.tokens ⟨Pos.start, source.toList⟩

end TuffSafety
