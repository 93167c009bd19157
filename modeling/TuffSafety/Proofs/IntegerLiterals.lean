import Mathlib.Data.Nat.Digits.Defs
import TuffSafety.Diagnostic.Wording
import TuffSafety.Proofs.Rendering

/-!
# Integer literals

An integer is written in one of four bases, with underscores anywhere behind its first digit and with an
optional suffix. Wherever a scan comes to stand in front of such a literal, it takes exactly its text as
one token with the value of the digits, or it fails there because that value is no 64-bit number. The
value is the sum of the digits at their places and not what the scanner computes.
-/
namespace TuffSafety

inductive Radix where
  | binary
  | octal
  | decimal
  | hexadecimal
deriving DecidableEq, Repr

namespace Radix

def base : Radix → Nat
  | binary => 2
  | octal => 8
  | decimal => 10
  | hexadecimal => 16

/-- What stands in front of the digits. -/
def mark : Radix → List Char
  | binary => ['0', 'b']
  | octal => ['0', 'o']
  | decimal => []
  | hexadecimal => ['0', 'x']

theorem base_le (radix : Radix) : radix.base ≤ 16 := by
  cases radix <;> decide

theorem base_le_ten (radix : Radix) : radix.base ≠ 16 → radix.base ≤ 10 := by
  cases radix <;> decide

end Radix

/-- A digit as it is written, and how many underscores follow it. -/
structure Digit (base : Nat) where
  value : Fin base
  /-- Whether a letter is written as a capital. -/
  capital : Bool := false
  gaps : Nat := 0
deriving DecidableEq, Repr

namespace Digit

variable {base : Nat}

def char (d : Digit base) : Char :=
  if d.capital then d.value.val.digitChar.toUpper else d.value.val.digitChar

def text (d : Digit base) : List Char :=
  d.char :: List.replicate d.gaps '_'

end Digit

/-- An integer literal. Its suffix, if there is one, starts with a letter that is no digit of any base
and that makes no base mark of a single zero. -/
structure IntegerLiteral where
  radix : Radix
  first : Digit radix.base
  later : List (Digit radix.base) := []
  suffix : List Char := []
  alphanumeric : ∀ c ∈ suffix, c.isAlphanum
  suffix_start : ∀ c, suffix.head? = some c → c.isAlpha ∧ c ∉ "abcdefABCDEF".toList
  unmarked : radix = .decimal → (first :: later).flatMap Digit.text = ['0'] →
    ∀ c, suffix.head? = some c → c ≠ 'x' ∧ c ≠ 'o'

namespace IntegerLiteral

def digits (l : IntegerLiteral) : List (Digit l.radix.base) :=
  l.first :: l.later

/-- The digits with the underscores between and behind them. -/
def run (l : IntegerLiteral) : List Char :=
  l.digits.flatMap Digit.text

def text (l : IntegerLiteral) : List Char :=
  l.radix.mark ++ l.run ++ l.suffix

/-- The number that the digits denote in their base, the last of them counting once. -/
def value (l : IntegerLiteral) : Nat :=
  Nat.ofDigits l.radix.base (l.digits.map fun d => d.value.val).reverse

def suffix? (l : IntegerLiteral) : Option String :=
  if l.suffix.isEmpty then none else some (String.ofList l.suffix)

/-- The digits without the underscores. -/
def spelling (l : IntegerLiteral) : List Char :=
  l.digits.map Digit.char

end IntegerLiteral

/-! ### Digits -/

section Digits

open Scan

/-- Every digit below sixteen in either spelling is read as itself, and one below ten as no letter. -/
theorem digitChar_read : ∀ (d : Fin 16) (capital : Bool),
    let c := if capital then d.val.digitChar.toUpper else d.val.digitChar
    isHexDigit c ∧ c ≠ '_' ∧ digitValue c = d.val ∧ (d.val < 10 → c.isDigit ∧ ¬ c.isAlpha) := by
  decide

/-- A hexadecimal digit is a decimal one or a letter up to `f`. -/
theorem isHexDigit_cases {c : Char} (h : isHexDigit c) :
    isWordChar c ∧ (c.isDigit ∨ c ∈ "abcdefABCDEF".toList) := by
  have hsmall : ∀ n : Fin 128, isHexDigit (Char.ofNat n) → isWordChar (Char.ofNat n) ∧
      ((Char.ofNat n).isDigit ∨ Char.ofNat n ∈ "abcdefABCDEF".toList) := by
    decide +kernel
  have hlt : c.toNat < 128 := by
    simp only [isHexDigit, Bool.or_eq_true, Bool.and_eq_true, decide_eq_true_eq] at h
    rcases h with (hdigit | ⟨-, hle⟩) | ⟨-, hle⟩
    · have hnine : c.toNat ≤ 57 := (Char.isDigit_iff_toNat.mp hdigit).2
      omega
    · have hletter : c.toNat ≤ 102 := hle
      omega
    · have hletter : c.toNat ≤ 70 := hle
      omega
  have hc := hsmall ⟨c.toNat, hlt⟩
  rw [Char.ofNat_toNat] at hc
  exact hc h

variable {base : Nat}

theorem Digit.char_read (hbase : base ≤ 16) (d : Digit base) :
    isHexDigit d.char ∧ d.char ≠ '_' ∧ digitValue d.char = d.value.val ∧
      (base ≤ 10 → d.char.isDigit ∧ ¬ d.char.isAlpha) := by
  obtain ⟨hhex, hgap, hvalue, hten⟩ :=
    digitChar_read ⟨d.value.val, d.value.isLt.trans_le hbase⟩ d.capital
  exact ⟨hhex, hgap, hvalue, fun hle => hten (d.value.isLt.trans_le hle)⟩

theorem withoutGaps_digits (hbase : base ≤ 16) (ds : List (Digit base)) :
    withoutGaps (ds.flatMap Digit.text) = ds.map Digit.char := by
  induction ds with
  | nil => rfl
  | cons d ds ih =>
    have hchar : (d.char != '_') = true := bne_iff_ne.mpr (d.char_read hbase).2.1
    have hgaps : (List.replicate d.gaps '_').filter (· != '_') = [] := by simp
    have htext : d.text.filter (· != '_') = [d.char] := by
      rw [Digit.text, List.filter_cons, if_pos hchar, hgaps]
    rw [List.flatMap_cons, withoutGaps, List.filter_append, htext, List.map_cons, ← ih]
    rfl

/-- Reading digits from the left adds each at its place. -/
theorem foldlM_digits (hbase : base ≤ 16) (ds : List (Digit base)) (n : Nat) :
    (ds.map Digit.char).foldlM
        (fun n c => if digitValue c < base then some (n * base + digitValue c) else none) n =
      some ((ds.map fun d => d.value.val).foldl (fun n d => d + base * n) n) := by
  induction ds generalizing n with
  | nil => rfl
  | cons d ds ih =>
    have hvalue := (d.char_read hbase).2.2.1
    rw [List.map_cons, List.foldlM_cons, hvalue, if_pos d.value.isLt]
    refine (ih (n * base + d.value.val)).trans ?_
    rw [List.map_cons, List.foldl_cons, Nat.mul_comm n, Nat.add_comm (base * n)]

theorem natOfDigits?_digits (hbase : base ≤ 16) {ds : List (Digit base)} (hne : ds ≠ []) :
    natOfDigits? base (ds.map Digit.char) =
      some (Nat.ofDigits base (ds.map fun d => d.value.val).reverse) := by
  have hempty : (ds.map Digit.char).isEmpty = false := by simpa using hne
  rw [natOfDigits?, hempty, if_neg Bool.false_ne_true, foldlM_digits hbase, Nat.ofDigits_eq_foldr,
    List.foldr_reverse]
  rfl

end Digits

namespace Scan

/-! ### What follows a literal -/

/-- The text is at its end or goes on with neither a word character nor a point. -/
def EndsLiteral (rest : List Char) : Prop :=
  ∀ c, rest.head? = some c → isWordChar c = false ∧ c ≠ '.'

theorem EndsLiteral.stops {rest : List Char} (h : EndsLiteral rest) : Stops isWordChar rest :=
  fun c hc => (h c hc).1

theorem Stops.of_imp {p q : Char → Bool} {rest : List Char} (h : Stops q rest)
    (himp : ∀ c, p c = true → q c = true) : Stops p rest := by
  intro c hc
  cases hp : p c with
  | false => rfl
  | true => exact (himp c hp).symm.trans (h c hc)

variable {l : IntegerLiteral} {rest : List Char}

/-- Neither the suffix nor what follows the literal goes on with its digits. -/
theorem stops_digits (hrest : EndsLiteral rest) : Stops isHexDigitOrGap (l.suffix ++ rest) := by
  intro c hc
  rw [← Bool.not_eq_true, isHexDigitOrGap, Bool.or_eq_true, beq_iff_eq]
  cases hsuffix : l.suffix with
  | nil =>
    rw [hsuffix] at hc
    have hword := (hrest c hc).1
    rintro (hhex | rfl)
    · exact Bool.false_ne_true (hword.symm.trans (isHexDigit_cases hhex).1)
    · cases hword
  | cons d suffix =>
    rw [hsuffix] at hc
    obtain ⟨hletter, hother⟩ := l.suffix_start c (by rw [hsuffix]; exact hc)
    rintro (hhex | rfl)
    · rcases (isHexDigit_cases hhex).2 with hdigit | hhex
      · exact Bool.false_ne_true ((isDigit_of_isAlpha hletter).symm.trans hdigit)
      · exact hother hhex
    · cases hletter

theorem head_ne_point (hrest : EndsLiteral rest) : (l.suffix ++ rest).head? ≠ some '.' := by
  intro hc
  cases hsuffix : l.suffix with
  | nil =>
    rw [hsuffix] at hc
    exact (hrest '.' hc).2 rfl
  | cons d suffix =>
    have hletter := (l.suffix_start '.' (by rw [hsuffix] at hc ⊢; exact hc)).1
    cases hletter

/-- A lone zero is not taken for the start of a base mark. -/
theorem ne_mark (hradix : l.radix = .decimal) (hzero : l.run = ['0']) (hrest : EndsLiteral rest)
    {c : Char} (hc : (l.suffix ++ rest).head? = some c) : c ≠ 'x' ∧ c ≠ 'b' ∧ c ≠ 'o' := by
  cases hsuffix : l.suffix with
  | nil =>
    rw [hsuffix] at hc
    have hword := (hrest c hc).1
    refine ⟨?_, ?_, ?_⟩ <;> (rintro rfl; cases hword)
  | cons d suffix =>
    have hhead : l.suffix.head? = some c := by
      rw [hsuffix] at hc ⊢
      exact hc
    obtain ⟨hx, ho⟩ := l.unmarked hradix hzero c hhead
    refine ⟨hx, ?_, ho⟩
    rintro rfl
    exact (l.suffix_start 'b' hhead).2 (by decide)

/-! ### The token of a literal -/

theorem mem_run {c : Char} (h : c ∈ l.run) : c = '_' ∨ ∃ d ∈ l.digits, c = d.char := by
  obtain ⟨d, hd, hc⟩ := List.mem_flatMap.mp h
  rcases List.mem_cons.mp hc with hchar | hgap
  · exact .inr ⟨d, hd, hchar⟩
  · exact .inl (List.eq_of_mem_replicate hgap)

theorem isHexDigitOrGap_run {c : Char} (h : c ∈ l.run) : isHexDigitOrGap c := by
  rcases mem_run h with rfl | ⟨d, -, rfl⟩
  · rfl
  · rw [isHexDigitOrGap, (d.char_read l.radix.base_le).1, Bool.true_or]

theorem isDigitOrGap_run (hbase : l.radix.base ≤ 10) {c : Char} (h : c ∈ l.run) :
    isDigitOrGap c ∧ ¬ c.isAlpha := by
  rcases mem_run h with rfl | ⟨d, -, rfl⟩
  · decide
  · obtain ⟨hdigit, hletter⟩ := (d.char_read l.radix.base_le).2.2.2 hbase
    exact ⟨by rw [isDigitOrGap, hdigit, Bool.true_or], hletter⟩

theorem basedNumber_run {base : Nat} {run tail : List Char} (hrun : ∀ c ∈ run, isHexDigitOrGap c)
    (hletters : base ≠ 16 → ∀ c ∈ run, ¬ c.isAlpha) (htail : Stops isHexDigitOrGap tail) (pos : Pos) :
    basedNumber base ⟨pos, run ++ tail⟩ =
      integerToken base (withoutGaps run) ⟨pos.afterAll run, tail⟩ := by
  have hplain : (decide (base ≠ 16) && run.any Char.isAlpha) = false := by
    rw [Bool.and_eq_false_iff, decide_eq_false_iff_not, List.any_eq_false]
    by_cases hbase : base = 16
    · exact .inl (not_not_intro hbase)
    · exact .inr (hletters hbase)
  unfold basedNumber
  dsimp only
  rw [spanWhile_append hrun htail, hplain]
  rfl

theorem number_marked {radix : Radix} (h : radix ≠ .decimal) (pos : Pos) (cs : List Char) :
    number ⟨pos, radix.mark ++ cs⟩ = basedNumber radix.base ⟨pos.afterAll radix.mark, cs⟩ := by
  cases radix with
  | decimal => exact absurd rfl h
  | _ => rfl

/-- The digits are taken up to the suffix, whatever the base. -/
theorem number_literal (l : IntegerLiteral) (hrest : EndsLiteral rest) (pos : Pos) :
    number ⟨pos, l.text ++ rest⟩ =
      integerToken l.radix.base l.spelling ⟨pos.afterAll (l.radix.mark ++ l.run), l.suffix ++ rest⟩ := by
  have hspelling : withoutGaps l.run = l.spelling := withoutGaps_digits l.radix.base_le l.digits
  have hstops : Stops isHexDigitOrGap (l.suffix ++ rest) := stops_digits hrest
  rw [IntegerLiteral.text, List.append_assoc, List.append_assoc, Pos.afterAll_append, ← hspelling]
  -- Only a decimal run is scanned by its own class of digits, and only it may look like a mark.
  by_cases hradix : l.radix = .decimal
  · have hbase : l.radix.base = 10 := by rw [hradix]; rfl
    have hmark : l.radix.mark = [] := by rw [hradix]; rfl
    have hrun : ∀ c ∈ l.run, isDigitOrGap c := fun c hc => (isDigitOrGap_run hbase.le hc).1
    have hgap : ∀ c, isDigitOrGap c = true → isHexDigitOrGap c = true := by
      intro c hc
      rw [isDigitOrGap, Bool.or_eq_true] at hc
      rw [isHexDigitOrGap, isHexDigit, Bool.or_eq_true, Bool.or_eq_true, Bool.or_eq_true]
      exact hc.imp_left fun h => .inl (.inl h)
    have hne : l.run ≠ [] := List.cons_ne_nil _ _
    have hunmarked := digits_unmarked hne hrun fun hzero c => ne_mark hradix hzero hrest
    rw [hmark, hbase, List.nil_append, number_decimal hunmarked,
      decimalNumber_run hrun (hstops.of_imp hgap) (head_ne_point hrest)]
    rfl
  · have hletters : l.radix.base ≠ 16 → ∀ c ∈ l.run, ¬ c.isAlpha := by
      intro hbase c hc
      exact (isDigitOrGap_run (l.radix.base_le_ten hbase) hc).2
    rw [number_marked hradix, basedNumber_run (fun c => isHexDigitOrGap_run) hletters hstops]

theorem text_starts (l : IntegerLiteral) : ∃ c cs, l.text = c :: cs ∧ c.isDigit := by
  cases hradix : l.radix with
  | decimal =>
    have hbase : l.radix.base ≤ 10 := by rw [hradix]; decide
    have hdigit := ((l.first.char_read l.radix.base_le).2.2.2 hbase).1
    rw [IntegerLiteral.text, hradix]
    exact ⟨l.first.char, _, rfl, hdigit⟩
  | _ =>
    rw [IntegerLiteral.text, hradix]
    exact ⟨'0', _, rfl, rfl⟩

theorem suffixOf_suffix (l : IntegerLiteral) : suffixOf l.suffix = l.suffix? := by
  unfold IntegerLiteral.suffix?
  cases hsuffix : l.suffix with
  | nil => rfl
  | cons c suffix =>
    have hletter := (l.suffix_start c (by rw [hsuffix]; rfl)).1
    refine suffixOf_letter hletter fun d hd => l.alphanumeric d ?_
    rw [hsuffix]
    exact List.mem_cons_of_mem c hd

theorem int64OfDigits?_spelling (l : IntegerLiteral) :
    int64OfDigits? l.radix.base l.spelling =
      if l.value < 0x8000000000000000 then some (Int64.ofNat l.value) else none := by
  have hne : l.digits ≠ [] := List.cons_ne_nil _ _
  rw [int64OfDigits?, IntegerLiteral.spelling, natOfDigits?_digits l.radix.base_le hne]
  rfl

theorem step_fits (hrest : EndsLiteral rest) (hvalue : l.value < 0x8000000000000000) (pos : Pos) :
    step ⟨pos, l.text ++ rest⟩ =
      .found (.number (Int64.ofNat l.value) l.suffix?) ⟨pos.afterAll l.text, rest⟩ := by
  have hint := int64OfDigits?_spelling l
  rw [if_pos hvalue] at hint
  have hnumber := number_literal l hrest pos
  rw [integerToken_fits hint l.alphanumeric hrest.stops, suffixOf_suffix, ← Pos.afterAll_append]
    at hnumber
  obtain ⟨c, cs, htext, hdigit⟩ := text_starts l
  rw [htext, List.cons_append] at hnumber ⊢
  refine step_of_token (isBlank_of_isDigit hdigit) ?_ ((token_of_isDigit hdigit pos _).trans ?_)
  · rintro rfl
    cases hdigit
  · rw [hnumber, ← htext]
    rfl

theorem step_overflows (hrest : EndsLiteral rest) (hvalue : 0x8000000000000000 ≤ l.value)
    (pos : Pos) :
    step ⟨pos, l.text ++ rest⟩ = .failed (.invalidNumber (String.ofList l.spelling)) := by
  have hint := int64OfDigits?_spelling l
  rw [if_neg (Nat.not_lt.mpr hvalue)] at hint
  have hnumber := number_literal l hrest pos
  rw [integerToken, hint] at hnumber
  obtain ⟨c, cs, htext, hdigit⟩ := text_starts l
  rw [htext, List.cons_append] at hnumber ⊢
  refine step_of_fault (isBlank_of_isDigit hdigit) ?_ ((token_of_isDigit hdigit pos _).trans hnumber)
  rintro rfl
  cases hdigit

end Scan

/-- Wherever a scan comes to an integer literal that ends there, it finds one number with the value of
its digits and its suffix and goes on behind it, if that value is below 2^63; otherwise the whole scan
fails with an invalid number at the first character of the literal. -/
theorem integer_literal_scanned (l : IntegerLiteral) (before : List Char) {rest : List Char}
    {passed : List Token} (hrest : Scan.EndsLiteral rest)
    (hpasses : Scan.Passes ⟨Pos.start, before ++ (l.text ++ rest)⟩ passed
      ⟨Pos.start.afterAll before, l.text ++ rest⟩) :
    (l.value < 0x8000000000000000 →
      ∃ value : Int64, value.toInt = l.value ∧
        Token.scan (String.ofList (before ++ (l.text ++ rest))) =
          (Scan.tokens ⟨Pos.start.afterAll (before ++ l.text), rest⟩).map fun later =>
            passed ++ ⟨.number value l.suffix?, Pos.start.afterAll before⟩ :: later) ∧
    (0x8000000000000000 ≤ l.value →
      ∃ fault, Token.scan (String.ofList (before ++ (l.text ++ rest))) =
          .error (fault, Pos.start.afterAll before) ∧
        (fault.report (Pos.start.afterAll before)).code.text = "E_LEX_INVALID_NUMBER" ∧
        (fault.report (Pos.start.afterAll before)).loc =
          some (Loc.ofPos (Pos.start.afterAll before))) := by
  have hscan := hpasses.tokens_from
  rw [Token.scan, String.toList_ofList, hscan]
  constructor
  · intro hvalue
    refine ⟨Int64.ofNat l.value, Int64.toInt_ofNat_of_lt hvalue, ?_⟩
    rw [Scan.tokens_take (Scan.step_fits hrest hvalue _), Pos.afterAll_append]
    cases Scan.tokens ⟨(Pos.start.afterAll before).afterAll l.text, rest⟩ <;> rfl
  · intro hvalue
    refine ⟨.invalidNumber (String.ofList l.spelling), ?_, rfl, rfl⟩
    rw [Scan.tokens_failed (Scan.step_overflows hrest hvalue _)]
    rfl

namespace IntegerLiteral

/-- `0xF_7U8` -/
def byte : IntegerLiteral where
  radix := .hexadecimal
  first := { value := ⟨15, by decide⟩, capital := true, gaps := 1 }
  later := [{ value := ⟨7, by decide⟩ }]
  suffix := ['U', '8']
  alphanumeric := List.all_eq_true.mp (show ['U', '8'].all Char.isAlphanum = true from rfl)
  suffix_start := by
    intro c hc
    cases hc
    decide
  unmarked := by
    intro h
    cases h

/-- `0b1_000…`, a one with 63 zeros behind it. -/
def firstTooGreat : IntegerLiteral where
  radix := .binary
  first := { value := ⟨1, by decide⟩, gaps := 1 }
  later := List.replicate 63 { value := ⟨0, by decide⟩ }
  alphanumeric := by
    intro c hc
    cases hc
  suffix_start := by
    intro c hc
    cases hc
  unmarked := by
    intro h
    cases h

end IntegerLiteral

/-- Behind a blank, a byte in hexadecimal is found with its suffix, and the least number that is too
great is refused at its first digit. -/
theorem integer_literal_scanned_samples :
    (∃ value : Int64, value.toInt = 247 ∧
      Token.scan " 0xF_7U8;" = (Scan.tokens ⟨⟨1, 9⟩, [';']⟩).map fun later =>
        [] ++ ⟨.number value (some "U8"), ⟨1, 2⟩⟩ :: later) ∧
    IntegerLiteral.firstTooGreat.value = 0x8000000000000000 ∧
    ∃ fault, Token.scan (String.ofList ([' '] ++ (IntegerLiteral.firstTooGreat.text ++ [';']))) =
        .error (fault, ⟨1, 2⟩) ∧
      (fault.report ⟨1, 2⟩).code.text = "E_LEX_INVALID_NUMBER" := by
  have hrest : Scan.EndsLiteral [';'] := by
    intro c hc
    cases hc
    decide
  have hvalue : IntegerLiteral.firstTooGreat.value = 0x8000000000000000 := by decide +kernel
  refine ⟨?_, hvalue, ?_⟩
  · have h := integer_literal_scanned .byte [' '] hrest (.skip rfl .here)
    exact h.1 (by decide +kernel)
  · have h := integer_literal_scanned .firstTooGreat [' '] hrest (.skip rfl .here)
    obtain ⟨fault, hscan, hcode, -⟩ := h.2 hvalue.ge
    exact ⟨fault, hscan, hcode⟩

end TuffSafety
