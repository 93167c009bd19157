import Mathlib.Data.List.TakeDrop
import TuffSafety.Json.Doc
import TuffSafety.Json.Print

/-!
# Written JSON is read back

A value is written and read again: quoting is undone by unquoting, digits give back the number they
spell, and the layout of arrays and objects is passed over. What comes out is the same value, as long
as it holds no floats and its whole numbers fit into 64 bits.
-/
namespace TuffSafety

namespace Json

mutual

/-- The document that a value is read as. -/
def doc : Json → Doc
  | .null => .null
  | .bool value => .bool value
  | .int value => .number (some (.int value))
  | .float value => .number (some (.float value))
  | .string value => .string (.ok value)
  | .array items => .array (docItems items)
  | .object members => .object (docMembers members)

def docItems : List Json → DocItems
  | [] => .closed
  | item :: items => .item (doc item) (docItems items)

def docMembers : List JsonMember → DocMembers
  | [] => .closed
  | ⟨key, value⟩ :: members => .member (.ok key) (doc value) (docMembers members)

end

mutual

/-- How many arrays and objects are open at once, at most. -/
def depth : Json → Nat
  | .array items => itemsDepth items + 1
  | .object members => membersDepth members + 1
  | _ => 0

def itemsDepth : List Json → Nat
  | [] => 0
  | item :: items => max (depth item) (itemsDepth items)

def membersDepth : List JsonMember → Nat
  | [] => 0
  | ⟨_, value⟩ :: members => max (depth value) (membersDepth members)

end

/-- A value that its text tells exactly: it holds no floats, and its numbers fit into 64 bits. -/
inductive Exact : Json → Prop where
  | null : Exact .null
  | bool {value} : Exact (.bool value)
  | int {value} (hlow : -0x8000000000000000 ≤ value) (hhigh : value < 0x10000000000000000) :
      Exact (.int value)
  | string {value} : Exact (.string value)
  | array {items} (h : ∀ item ∈ items, Exact item) : Exact (.array items)
  | object {members} (h : ∀ m ∈ members, Exact m.value) : Exact (.object members)

end Json

/-! ### Whole numbers -/

namespace Json.Numeral

theorem push?_of_lt {n : Nat} {c : Char} (h : n * 10 + digit c < 0x10000000000000000) :
    push? n c = some (n * 10 + digit c) := by
  unfold push?
  exact if_pos h

-- The definition is unfolded by `dsimp`: making its equations evaluates the bound.
theorem wholeDigits_push {n m : Nat} {c : Char} (h : push? n c = some m) (cs : List Char) :
    wholeDigits n (c :: cs) = wholeDigits m cs := by
  dsimp only [wholeDigits]
  rw [h]

theorem wholeDigits_full {n : Nat} {c : Char} (h : push? n c = none) (cs : List Char) :
    wholeDigits n (c :: cs) = (n, cs.length + 1) := by
  dsimp only [wholeDigits]
  rw [h]

theorem wholeDigits_snoc {n m k : Nat} {digits : List Char} (h : wholeDigits n digits = (m, 0))
    {c : Char} (hc : push? m c = some k) : wholeDigits n (digits ++ [c]) = (k, 0) := by
  induction digits generalizing n with
  | nil =>
    obtain ⟨rfl, -⟩ := Prod.mk.inj (show (n, 0) = (m, 0) from h)
    exact wholeDigits_push hc []
  | cons d digits ih =>
    rw [List.cons_append]
    cases hd : push? n d with
    | some n' =>
      rw [wholeDigits_push hd] at h ⊢
      exact ih h
    | none =>
      rw [wholeDigits_full hd] at h
      cases (Prod.mk.inj h).2

theorem digit_digitChar {d : Nat} (h : d < 10) : digit d.digitChar = d :=
  Nat.toNat_digitChar_sub_48_of_lt_ten h

/-- The decimal digits of a number spell that number. -/
theorem wholeDigits_toDigits (n : Nat) (h : n < 0x10000000000000000) :
    wholeDigits 0 (Nat.toDigits 10 n) = (n, 0) := by
  induction n using Nat.strongRecOn with
  | ind n ih =>
    by_cases hn : n < 10
    · have hpush : push? 0 n.digitChar = some (0 * 10 + digit n.digitChar) :=
        push?_of_lt (by rw [digit_digitChar hn]; omega)
      rw [digit_digitChar hn, Nat.zero_mul, Nat.zero_add] at hpush
      rw [Nat.toDigits_of_lt_base hn]
      exact wholeDigits_push hpush []
    · have hdigit := digit_digitChar (Nat.mod_lt n (by decide : 0 < 10))
      have hvalue : n / 10 * 10 + digit (n % 10).digitChar = n := by omega
      have hpush : push? (n / 10) (n % 10).digitChar = some n := by
        rw [push?_of_lt (by omega), hvalue]
      rw [Nat.toDigits_of_base_le (by decide) (by omega)]
      exact wholeDigits_snoc (ih (n / 10) (by omega) (by omega)) hpush

/-- The first digit of a number is a zero only if the number is. -/
theorem toDigits_head (n : Nat) (h : 0 < n) :
    ∃ c cs, Nat.toDigits 10 n = c :: cs ∧ c ≠ '0' := by
  induction n using Nat.strongRecOn with
  | ind n ih =>
    by_cases hn : n < 10
    · refine ⟨n.digitChar, [], Nat.toDigits_of_lt_base hn, ?_⟩
      rw [Ne, Nat.digitChar_eq_zero]
      omega
    · obtain ⟨c, cs, hdigits, hc⟩ := ih (n / 10) (by omega) (by omega)
      refine ⟨c, cs ++ [(n % 10).digitChar], ?_, hc⟩
      rw [Nat.toDigits_of_base_le (by decide) (by omega), hdigits, List.cons_append]

end Json.Numeral

namespace Doc

open Json Numeral

/-- What may follow a value that was written: a comma, a line break or nothing. -/
def Delimited (rest : List Char) : Prop :=
  ∀ c, rest.head? = some c → c = ',' ∨ c = '\n'

theorem delimited_nil : Delimited [] := by
  intro c h
  cases h

theorem delimited_comma (rest : List Char) : Delimited (',' :: rest) := by
  intro c h
  exact .inl (Option.some.inj h).symm

theorem delimited_newline (level : Nat) (rest : List Char) : Delimited (newline level rest) := by
  intro c h
  exact .inr (Option.some.inj h).symm

theorem Delimited.head_not_digit {rest : List Char} (h : Delimited rest) :
    rest.head?.any Char.isDigit = false := by
  cases rest with
  | nil => rfl
  | cons c cs => rcases h c rfl with rfl | rfl <;> rfl

theorem Delimited.afterWhole {rest : List Char} (h : Delimited rest) (numeral : Numeral) :
    afterWhole numeral rest = finishNumber numeral rest := by
  cases rest with
  | nil => rfl
  | cons c cs => rcases h c rfl with rfl | rfl <;> rfl

theorem span_digits {digits rest : List Char} (hdigits : ∀ c ∈ digits, c.isDigit = true)
    (hrest : rest.head?.any Char.isDigit = false) :
    (digits ++ rest).span Char.isDigit = (digits, rest) := by
  have htake : rest.takeWhile Char.isDigit = [] ∧ rest.dropWhile Char.isDigit = rest := by
    cases rest with
    | nil => exact ⟨rfl, rfl⟩
    | cons c cs =>
      have hc : c.isDigit = false := hrest
      simp [hc]
  rw [List.span_eq_takeWhile_dropWhile, List.takeWhile_append_of_pos hdigits,
    List.dropWhile_append_of_pos hdigits, htake.1, htake.2, List.append_nil]

theorem isDigit_toDigits {n : Nat} : ∀ c ∈ Nat.toDigits 10 n, c.isDigit = true :=
  fun _ hc => Nat.isDigit_of_mem_toDigits (by decide) (by decide) hc

/-- The digits of a number are read up to what follows them. -/
theorem unsignedNumber_toDigits (negative : Bool) {n : Nat} (hn : n < 0x10000000000000000)
    {rest : List Char} (hrest : Delimited rest) :
    unsignedNumber negative (Nat.toDigits 10 n ++ rest) =
      (.number (some (integerOf negative n)), some rest) := by
  have hvalue : (⟨negative, Nat.toDigits 10 n, none, none⟩ : Numeral).value =
      some (integerOf negative n) := by
    rw [Numeral.value, wholeDigits_toDigits n hn]
    rfl
  have hfinish : finishNumber ⟨negative, Nat.toDigits 10 n, none, none⟩ rest =
      (.number (some (integerOf negative n)), some rest) := by
    rw [finishNumber, hvalue]
  rcases Nat.eq_zero_or_pos n with rfl | hpos
  · rw [Nat.toDigits_zero] at hfinish ⊢
    change (if rest.head?.any Char.isDigit then _ else
      Doc.afterWhole ⟨negative, ['0'], none, none⟩ rest) = _
    rw [hrest.head_not_digit, hrest.afterWhole]
    exact hfinish
  · obtain ⟨c, cs, hdigits, hc⟩ := toDigits_head n hpos
    have hspan := span_digits (isDigit_toDigits (n := n)) hrest.head_not_digit
    unfold unsignedNumber
    split
    · rename_i heq
      rw [hdigits, List.cons_append] at heq
      exact absurd (List.cons.inj heq).1 hc
    · rw [hspan, hdigits]
      dsimp only
      rw [List.isEmpty_cons, hrest.afterWhole, ← hdigits]
      exact hfinish

theorem skipBlanks_cons {c : Char} (h : isBlank c = false) (cs : List Char) :
    skipBlanks (c :: cs) = c :: cs := by
  rw [skipBlanks, List.dropWhile_cons_of_neg (by rw [h]; decide)]

theorem isDigit_not_blank {c : Char} (h : c.isDigit = true) : isBlank c = false := by
  cases hblank : isBlank c with
  | false => rfl
  | true =>
    simp only [isBlank, Bool.or_eq_true, beq_iff_eq] at hblank
    rcases hblank with ((rfl | rfl) | rfl) | rfl <;> cases h

/-- A number starts with a digit. -/
theorem value_digit {c : Char} (h : c.isDigit = true) (depth : Nat) (cs : List Char) :
    value (depth + 1) (c :: cs) = unsignedNumber false (c :: cs) := by
  rw [value, skipBlanks_cons (isDigit_not_blank h)]
  split <;> cases ‹c :: cs = _›
  any_goals cases h
  exact if_pos h

theorem value_int {v : Int} (hlow : -0x8000000000000000 ≤ v) (hhigh : v < 0x10000000000000000)
    (depth : Nat) {rest : List Char} (hrest : Delimited rest) :
    value (depth + 1) ((toString v).toList ++ rest) = (.number (some (.int v)), some rest) := by
  rw [Int.toString_eq_repr, Int.repr_eq_if]
  by_cases hv : 0 ≤ v
  · have hnat : integerOf false v.toNat = .int v := congrArg Json.int (Int.toNat_of_nonneg hv)
    rw [if_pos hv, Nat.toList_repr, ← hnat, ← unsignedNumber_toDigits false (by omega) hrest]
    obtain ⟨c, cs, hdigits⟩ := List.exists_cons_of_ne_nil (Nat.toDigits_ne_nil (n := v.toNat) (b := 10))
    have hc : c.isDigit = true := isDigit_toDigits c (hdigits ▸ List.mem_cons_self)
    rw [hdigits, List.cons_append]
    exact value_digit hc depth _
  · have hnat : integerOf true (-v).toNat = .int v := by
      have hbounds : (decide (0 < (-v).toNat) && decide ((-v).toNat ≤ 0x8000000000000000)) = true := by
        rw [Bool.and_eq_true, decide_eq_true_eq, decide_eq_true_eq]
        omega
      have hneg : -((-v).toNat : Int) = v := by omega
      unfold integerOf
      rw [hbounds, hneg]
      rfl
    rw [if_neg hv, String.toList_append, Nat.toList_repr, ← hnat,
      ← unsignedNumber_toDigits true (by omega) hrest]
    rfl

/-! ### Strings -/

theorem unit?_hexDigits {n : Nat} (h : n < 0x20) :
    unit? '0' '0' (hexDigit (n / 16)) (hexDigit (n % 16)) = some n := by
  have hall : ∀ n : Fin 0x20, unit? '0' '0' (hexDigit (n / 16)) (hexDigit (n % 16)) = some n.val := by
    decide
  exact hall ⟨n, h⟩

/-- A code unit that is no surrogate stands for itself. -/
theorem charsOf_unit {n : Nat} (h : n < 0x20) (ps : List Piece) :
    charsOf (.ok ()) (.unit n :: ps) = (charsOf (.ok ()) ps).map (Char.ofNat n :: ·) := by
  have hleading : isLeading n = false := by
    rw [isLeading, decide_eq_false (by omega), Bool.false_and]
  have htrailing : isTrailing n = false := by
    rw [isTrailing, decide_eq_false (by omega), Bool.false_and]
  cases ps with
  | nil =>
    conv_lhs => rw [charsOf, hleading, htrailing]
    rfl
  | cons p ps =>
    cases p with
    | char c =>
      conv_lhs => rw [charsOf, hleading, htrailing]
      rfl
    | unit m =>
      conv_lhs => rw [charsOf, hleading, htrailing]
      rfl

/-- Reading the escape of a character gives one piece, which stands for the character. -/
theorem pieces_escaped (c : Char) (text : List Char) :
    ∃ p, pieces (escaped c ++ text) = (p :: (pieces text).1, (pieces text).2) ∧
      ∀ ps, charsOf (.ok ()) (p :: ps) = (charsOf (.ok ()) ps).map (c :: ·) := by
  unfold escaped
  split
  · exact ⟨.char '"', rfl, fun _ => rfl⟩
  · exact ⟨.char '\\', rfl, fun _ => rfl⟩
  · exact ⟨.char '\n', rfl, fun _ => rfl⟩
  · exact ⟨.char '\r', rfl, fun _ => rfl⟩
  · exact ⟨.char '\t', rfl, fun _ => rfl⟩
  · exact ⟨.char '\x08', rfl, fun _ => rfl⟩
  · exact ⟨.char '\x0c', rfl, fun _ => rfl⟩
  · rename_i hquote hbackslash _ _ _ _ _
    split
    · rename_i hcontrol
      refine ⟨.unit c.toNat, ?_, fun ps => ?_⟩
      · simp only [List.cons_append, List.nil_append]
        rw [pieces, unit?_hexDigits hcontrol]
      · rw [charsOf_unit hcontrol, Char.ofNat_toNat]
    · rename_i hcontrol
      refine ⟨.char c, ?_, fun _ => rfl⟩
      rw [List.singleton_append, pieces, if_neg hcontrol]
      · exact hquote
      all_goals
        intros
        exact hbackslash ‹c = '\\'›

/-- Unquoting undoes quoting. -/
theorem quotedText_escaped (text : String) (rest : List Char) :
    quotedText (text.toList.flatMap escaped ++ '"' :: rest) = .whole (.ok text) rest := by
  have hpieces : ∀ cs : List Char, ∃ ps, pieces (cs.flatMap escaped ++ '"' :: rest) = (ps, .ok rest) ∧
      charsOf (.ok ()) ps = .ok cs := by
    intro cs
    induction cs with
    | nil => exact ⟨[], rfl, rfl⟩
    | cons c cs ih =>
      obtain ⟨ps, hps, hchars⟩ := ih
      obtain ⟨p, hp, hchar⟩ := pieces_escaped c (cs.flatMap escaped ++ '"' :: rest)
      refine ⟨p :: ps, ?_, ?_⟩
      · rw [List.flatMap_cons, List.append_assoc, hp, hps]
      · rw [hchar, hchars]
        rfl
  obtain ⟨ps, hps, hchars⟩ := hpieces text.toList
  rw [quotedText, hps]
  dsimp only
  rw [hchars]
  exact congrArg (fun value => QuotedText.whole (.ok value) rest) (String.ofList_toList ..)

/-! ### Layout -/

theorem skipBlanks_newline (level : Nat) (text : List Char) :
    skipBlanks (newline level text) = skipBlanks text := by
  have hblank : ∀ c ∈ '\n' :: List.replicate (2 * level) ' ', isBlank c = true := by
    intro c hc
    rcases List.mem_cons.mp hc with rfl | hc
    · rfl
    · rw [List.eq_of_mem_replicate hc]
      rfl
  exact List.dropWhile_append_of_pos hblank

theorem length_newline (level : Nat) (text : List Char) :
    (newline level text).length = 2 * level + 1 + text.length := by
  simp only [newline, List.length_append, List.length_cons, List.length_replicate]

theorem length_writeString (text : String) (rest : List Char) :
    rest.length + 2 ≤ (writeString text rest).length := by
  simp only [writeString, List.length_append, List.length_cons]
  omega

/-- The text of a whole number starts with a sign or a digit. -/
theorem toString_starts (v : Int) :
    ∃ c cs, (toString v).toList = c :: cs ∧ (c = '-' ∨ c.isDigit = true) := by
  rw [Int.toString_eq_repr, Int.repr_eq_if]
  split
  · obtain ⟨c, cs, hdigits⟩ :=
      List.exists_cons_of_ne_nil (Nat.toDigits_ne_nil (n := v.toNat) (b := 10))
    refine ⟨c, cs, ?_, .inr (isDigit_toDigits c (hdigits ▸ List.mem_cons_self))⟩
    rw [Nat.toList_repr, hdigits]
  · refine ⟨'-', (-v).toNat.repr.toList, ?_, .inl rfl⟩
    rw [String.toList_append]
    rfl

/-- A character that may start a value. -/
def Starts (c : Char) : Prop :=
  isBlank c = false ∧ c ≠ ']'

theorem write_starts {j : Json} (h : j.Exact) (level : Nat) (rest : List Char) :
    ∃ c cs, write level j rest = c :: cs ∧ Starts c := by
  cases h with
  | null => exact ⟨'n', _, rfl, by decide, by decide⟩
  | @bool value =>
    cases value
    · exact ⟨'f', _, rfl, by decide, by decide⟩
    · exact ⟨'t', _, rfl, by decide, by decide⟩
  | @int value hlow hhigh =>
    obtain ⟨c, cs, htext, hc⟩ := toString_starts value
    refine ⟨c, cs ++ rest, by rw [write, htext, List.cons_append], ?_⟩
    rcases hc with rfl | hc
    · exact ⟨by decide, by decide⟩
    · refine ⟨isDigit_not_blank hc, ?_⟩
      rintro rfl
      cases hc
  | string => exact ⟨'"', _, rfl, by decide, by decide⟩
  | @array items _ =>
    cases items with
    | nil => exact ⟨'[', _, rfl, by decide, by decide⟩
    | cons => exact ⟨'[', _, by rw [write], by decide, by decide⟩
  | @object members _ =>
    cases members with
    | nil => exact ⟨'\x7b', _, rfl, by decide, by decide⟩
    | cons m members =>
      obtain ⟨key, value⟩ := m
      exact ⟨'\x7b', _, by rw [write], by decide, by decide⟩

mutual

theorem length_lt_write :
    ∀ {j : Json}, j.Exact → ∀ level rest, rest.length < (write level j rest).length
  | .null, _, _, rest => by
    rw [write, List.length_append]
    exact Nat.lt_add_of_pos_left (by decide)
  | .bool true, _, _, rest => by
    rw [write, List.length_append]
    exact Nat.lt_add_of_pos_left (by decide)
  | .bool false, _, _, rest => by
    rw [write, List.length_append]
    exact Nat.lt_add_of_pos_left (by decide)
  | .int value, _, _, rest => by
    obtain ⟨c, cs, htext, -⟩ := toString_starts value
    rw [write, htext, List.length_append, List.length_cons]
    omega
  | .string text, _, _, rest => by
    have := length_writeString text rest
    rw [write]
    omega
  | .array [], _, _, rest => by
    rw [write, List.length_cons, List.length_cons]
    omega
  | .array (item :: items), .array h, level, rest => by
    obtain ⟨hitem, hitems⟩ := List.forall_mem_cons.mp h
    have hfirst := length_lt_write hitem (level + 1)
      (writeItems (level + 1) items (newline level (']' :: rest)))
    have hrest := length_le_writeItems hitems (level + 1) (newline level (']' :: rest))
    rw [length_newline, List.length_cons] at hrest
    rw [write, List.length_cons, length_newline]
    omega
  | .object [], _, _, rest => by
    rw [write, List.length_cons, List.length_cons]
    omega
  | .object (⟨key, value⟩ :: members), .object h, level, rest => by
    obtain ⟨hvalue, hmembers⟩ := List.forall_mem_cons.mp h
    have hvalue : value.Exact := hvalue
    have hfirst := length_lt_write hvalue (level + 1)
      (writeMembers (level + 1) members (newline level ('\x7d' :: rest)))
    have hrest := length_le_writeMembers hmembers (level + 1) (newline level ('\x7d' :: rest))
    have hkey := length_writeString key (':' :: ' ' :: write (level + 1) value
      (writeMembers (level + 1) members (newline level ('\x7d' :: rest))))
    rw [length_newline, List.length_cons] at hrest
    rw [List.length_cons, List.length_cons] at hkey
    rw [write, List.length_cons, length_newline]
    omega

theorem length_le_writeItems :
    ∀ {items : List Json}, (∀ item ∈ items, item.Exact) →
      ∀ level rest, rest.length ≤ (writeItems level items rest).length
  | [], _, _, rest => Nat.le_refl _
  | item :: items, h, level, rest => by
    obtain ⟨hitem, hitems⟩ := List.forall_mem_cons.mp h
    have hfirst := length_lt_write hitem level (writeItems level items rest)
    have hrest := length_le_writeItems hitems level rest
    rw [writeItems, List.length_cons, length_newline]
    omega

theorem length_le_writeMembers :
    ∀ {members : List JsonMember}, (∀ m ∈ members, m.value.Exact) →
      ∀ level rest, rest.length ≤ (writeMembers level members rest).length
  | [], _, _, rest => Nat.le_refl _
  | ⟨key, value⟩ :: members, h, level, rest => by
    obtain ⟨hvalue, hmembers⟩ := List.forall_mem_cons.mp h
    have hvalue : value.Exact := hvalue
    have hfirst := length_lt_write hvalue level (writeMembers level members rest)
    have hrest := length_le_writeMembers hmembers level rest
    have hkey := length_writeString key (':' :: ' ' :: write level value
      (writeMembers level members rest))
    rw [List.length_cons, List.length_cons] at hkey
    rw [writeMembers, List.length_cons, length_newline]
    omega

end

/-! ### Values -/

section

variable {depth level : Nat} {c : Char} {cs rest : List Char}

theorem value_blank (depth : Nat) (text : List Char) : value depth (' ' :: text) = value depth text := by
  cases depth <;> rfl

theorem firstItem_starts (h : Starts c) :
    firstItem (depth + 1) (newline level (c :: cs)) = item depth (c :: cs) := by
  rw [firstItem, skipBlanks_newline, skipBlanks_cons h.1]
  split
  · cases ‹c :: cs = []›
  · rename_i heq
    exact absurd (List.cons.inj heq).1 h.2
  · rfl

theorem nextItem_comma (h : Starts c) :
    nextItem (depth + 1) (',' :: newline level (c :: cs)) = item depth (c :: cs) := by
  rw [nextItem, skipBlanks_cons (by decide)]
  simp only [skipBlanks_newline, skipBlanks_cons h.1]
  split
  · cases ‹c :: cs = []›
  · rename_i heq
    exact absurd (List.cons.inj heq).1 h.2
  · rfl

theorem nextItem_close :
    nextItem (depth + 1) (newline level (']' :: rest)) = (.closed, some rest) := by
  rw [nextItem, skipBlanks_newline, skipBlanks_cons (by decide)]
  rfl

theorem firstMember_quote :
    firstMember (depth + 1) (newline level ('"' :: cs)) = member depth ('"' :: cs) := by
  rw [firstMember, skipBlanks_newline, skipBlanks_cons (by decide)]
  rfl

theorem nextMember_comma :
    nextMember (depth + 1) (',' :: newline level ('"' :: cs)) = member depth ('"' :: cs) := by
  rw [nextMember, skipBlanks_cons (by decide)]
  change member depth (skipBlanks (newline level ('"' :: cs))) = _
  rw [skipBlanks_newline, skipBlanks_cons (by decide)]

theorem nextMember_close :
    nextMember (depth + 1) (newline level ('\x7d' :: rest)) = (.closed, some rest) := by
  rw [nextMember, skipBlanks_newline, skipBlanks_cons (by decide)]
  rfl

/-- An item that is read is followed by the rest of the array. -/
theorem item_of_value {text : List Char} {first : Doc} {items : DocItems} {behind : List Char}
    (hfirst : value depth text = (first, some behind))
    (hrest : nextItem depth behind = (items, some rest)) :
    item (depth + 1) text = (.item first items, some rest) := by
  rw [item, hfirst]
  dsimp only
  rw [hrest]

theorem member_of_value {key : String} {text : List Char} {first : Doc} {members : DocMembers}
    {behind : List Char} (hfirst : value depth text = (first, some behind))
    (hrest : nextMember depth behind = (members, some rest)) :
    member (depth + 1) (writeString key (':' :: ' ' :: text)) =
      (.member (.ok key) first members, some rest) := by
  rw [writeString, List.cons_append, member, quotedText_escaped]
  dsimp only
  rw [skipBlanks_cons (by decide)]
  simp only [value_blank, hfirst, hrest]

end

theorem delimited_writeItems (level outer : Nat) (items : List Json) (text : List Char) :
    Delimited (writeItems level items (newline outer text)) := by
  cases items with
  | nil => exact delimited_newline outer text
  | cons item items => exact delimited_comma _

theorem delimited_writeMembers (level outer : Nat) (members : List JsonMember) (text : List Char) :
    Delimited (writeMembers level members (newline outer text)) := by
  cases members with
  | nil => exact delimited_newline outer text
  | cons m members =>
    obtain ⟨key, value⟩ := m
    exact delimited_comma _

theorem value_array {depth : Nat} {text rest : List Char} {items : DocItems}
    (h : firstItem depth text = (items, some rest)) :
    value (depth + 1) ('[' :: text) = (.array items, some rest) := by
  rw [value, skipBlanks_cons (by decide)]
  change (Doc.array (firstItem depth text).1, (firstItem depth text).2) = _
  rw [h]

theorem value_object {depth : Nat} {text rest : List Char} {members : DocMembers}
    (h : firstMember depth text = (members, some rest)) :
    value (depth + 1) ('\x7b' :: text) = (.object members, some rest) := by
  rw [value, skipBlanks_cons (by decide)]
  change (Doc.object (firstMember depth text).1, (firstMember depth text).2) = _
  rw [h]

theorem value_string (depth : Nat) (text : String) (rest : List Char) :
    value (depth + 1) (writeString text rest) = (.string (.ok text), some rest) := by
  rw [writeString, List.cons_append, value, skipBlanks_cons (by decide)]
  simp only [quotedText_escaped]

mutual

/-- A written value is read back, and what follows it is left. Twice the length of its text is
allowance enough. -/
theorem value_write :
    ∀ {j : Json}, j.Exact → ∀ (level : Nat) {n : Nat} {rest : List Char}, Delimited rest →
      2 * (write level j rest).length ≤ n + 2 * rest.length →
        value n (write level j rest) = (j.doc, some rest)
  | j, h, level, 0, rest, _, hn => by
    have := length_lt_write h level rest
    omega
  | .null, _, _, n + 1, rest, _, _ => rfl
  | .bool true, _, _, n + 1, rest, _, _ => rfl
  | .bool false, _, _, n + 1, rest, _, _ => rfl
  | .int value, .int hlow hhigh, _, n + 1, rest, hrest, _ => value_int hlow hhigh n hrest
  | .string text, _, _, n + 1, rest, _, _ => value_string n text rest
  | .array [], _, _, n + 1, rest, _, hn => by
    rw [write] at hn ⊢
    obtain ⟨k, rfl⟩ : ∃ k, n = k + 1 := ⟨n - 1, by simp only [List.length_cons] at hn; omega⟩
    exact value_array rfl
  | .array (item :: items), .array h, level, n + 1, rest, _, hn => by
    obtain ⟨hitem, hitems⟩ := List.forall_mem_cons.mp h
    have hfirst := length_lt_write hitem (level + 1)
      (writeItems (level + 1) items (newline level (']' :: rest)))
    have hrest := length_le_writeItems hitems (level + 1) (newline level (']' :: rest))
    rw [length_newline, List.length_cons] at hrest
    rw [write, List.length_cons, length_newline] at hn
    obtain ⟨k, rfl⟩ : ∃ k, n = k + 2 := ⟨n - 2, by omega⟩
    obtain ⟨c, cs, hwrite, hstarts⟩ := write_starts hitem (level + 1)
      (writeItems (level + 1) items (newline level (']' :: rest)))
    have hvalue := value_write hitem (level + 1)
      (delimited_writeItems (level + 1) level items (']' :: rest)) (n := k) (by omega)
    have hnext := nextItem_write hitems (level + 1) level rest (n := k) (by omega)
    rw [write]
    refine value_array ?_
    rw [hwrite] at hvalue ⊢
    rw [firstItem_starts hstarts]
    exact item_of_value hvalue hnext
  | .object [], _, _, n + 1, rest, _, hn => by
    rw [write] at hn ⊢
    obtain ⟨k, rfl⟩ : ∃ k, n = k + 1 := ⟨n - 1, by simp only [List.length_cons] at hn; omega⟩
    exact value_object rfl
  | .object (⟨key, value⟩ :: members), .object h, level, n + 1, rest, _, hn => by
    obtain ⟨hvalue, hmembers⟩ := List.forall_mem_cons.mp h
    have hvalue : value.Exact := hvalue
    have hfirst := length_lt_write hvalue (level + 1)
      (writeMembers (level + 1) members (newline level ('\x7d' :: rest)))
    have hrest := length_le_writeMembers hmembers (level + 1) (newline level ('\x7d' :: rest))
    have hkey := length_writeString key (':' :: ' ' :: write (level + 1) value
      (writeMembers (level + 1) members (newline level ('\x7d' :: rest))))
    rw [length_newline, List.length_cons] at hrest
    rw [List.length_cons, List.length_cons] at hkey
    rw [write, List.length_cons, length_newline] at hn
    obtain ⟨k, rfl⟩ : ∃ k, n = k + 2 := ⟨n - 2, by omega⟩
    have hread := value_write hvalue (level + 1)
      (delimited_writeMembers (level + 1) level members ('\x7d' :: rest)) (n := k) (by omega)
    have hnext := nextMember_write hmembers (level + 1) level rest (n := k) (by omega)
    rw [write]
    refine value_object ?_
    rw [writeString, List.cons_append, firstMember_quote]
    exact member_of_value hread hnext

theorem nextItem_write :
    ∀ {items : List Json}, (∀ item ∈ items, item.Exact) →
      ∀ (level outer : Nat) (rest : List Char) {n : Nat},
      2 * (writeItems level items (newline outer (']' :: rest))).length ≤ n + 2 * rest.length →
        nextItem n (writeItems level items (newline outer (']' :: rest))) = (docItems items, some rest)
  | [], _, level, outer, rest, n, hn => by
    rw [writeItems, length_newline, List.length_cons] at hn
    obtain ⟨k, rfl⟩ : ∃ k, n = k + 1 := ⟨n - 1, by omega⟩
    exact nextItem_close
  | item :: items, h, level, outer, rest, n, hn => by
    obtain ⟨hitem, hitems⟩ := List.forall_mem_cons.mp h
    have hfirst := length_lt_write hitem level (writeItems level items (newline outer (']' :: rest)))
    have hrest := length_le_writeItems hitems level (newline outer (']' :: rest))
    rw [length_newline, List.length_cons] at hrest
    rw [writeItems, List.length_cons, length_newline] at hn
    obtain ⟨k, rfl⟩ : ∃ k, n = k + 2 := ⟨n - 2, by omega⟩
    obtain ⟨c, cs, hwrite, hstarts⟩ := write_starts hitem level
      (writeItems level items (newline outer (']' :: rest)))
    have hvalue := value_write hitem level (delimited_writeItems level outer items (']' :: rest))
      (n := k) (by omega)
    have hnext := nextItem_write hitems level outer rest (n := k) (by omega)
    rw [writeItems]
    rw [hwrite] at hvalue ⊢
    rw [nextItem_comma hstarts]
    exact item_of_value hvalue hnext

theorem nextMember_write :
    ∀ {members : List JsonMember}, (∀ m ∈ members, m.value.Exact) →
      ∀ (level outer : Nat) (rest : List Char) {n : Nat},
      2 * (writeMembers level members (newline outer ('\x7d' :: rest))).length ≤ n + 2 * rest.length →
        nextMember n (writeMembers level members (newline outer ('\x7d' :: rest))) =
          (docMembers members, some rest)
  | [], _, level, outer, rest, n, hn => by
    rw [writeMembers, length_newline, List.length_cons] at hn
    obtain ⟨k, rfl⟩ : ∃ k, n = k + 1 := ⟨n - 1, by omega⟩
    exact nextMember_close
  | ⟨key, value⟩ :: members, h, level, outer, rest, n, hn => by
    obtain ⟨hvalue, hmembers⟩ := List.forall_mem_cons.mp h
    have hvalue : value.Exact := hvalue
    have hfirst := length_lt_write hvalue level
      (writeMembers level members (newline outer ('\x7d' :: rest)))
    have hrest := length_le_writeMembers hmembers level (newline outer ('\x7d' :: rest))
    have hkey := length_writeString key (':' :: ' ' :: write level value
      (writeMembers level members (newline outer ('\x7d' :: rest))))
    rw [length_newline, List.length_cons] at hrest
    rw [List.length_cons, List.length_cons] at hkey
    rw [writeMembers, List.length_cons, length_newline] at hn
    obtain ⟨k, rfl⟩ : ∃ k, n = k + 2 := ⟨n - 2, by omega⟩
    have hread := value_write hvalue level (delimited_writeMembers level outer members ('\x7d' :: rest))
      (n := k) (by omega)
    have hnext := nextMember_write hmembers level outer rest (n := k) (by omega)
    rw [writeMembers, writeString, List.cons_append, nextMember_comma]
    exact member_of_value hread hnext

end

/-- The text of a value describes the value. -/
theorem read_pretty {j : Json} (h : j.Exact) : read j.pretty = (j.doc, some []) := by
  rw [read, pretty, String.toList_ofList]
  refine value_write h 0 delimited_nil ?_
  rw [String.length_ofList]
  omega

/-! ### Room for a value -/

mutual

/-- A value is taken from its document if there is room for its arrays and objects. -/
theorem buffer_doc : ∀ {j : Json} {room : Nat}, j.depth ≤ room → buffer room j.doc = .ok j
  | .null, _, _ => by rw [doc, buffer]
  | .bool value, _, _ => by rw [doc, buffer]
  | .int value, _, _ => by rw [doc, buffer]
  | .float value, _, _ => by rw [doc, buffer]
  | .string value, _, _ => by
    rw [doc, buffer]
    rfl
  | .array items, 0, h => by
    rw [depth] at h
    omega
  | .array items, room + 1, h => by
    rw [depth] at h
    rw [doc, buffer, bufferItems_docItems (by omega)]
    rfl
  | .object members, 0, h => by
    rw [depth] at h
    omega
  | .object members, room + 1, h => by
    rw [depth] at h
    rw [doc, buffer, bufferMembers_docMembers (by omega)]
    rfl

theorem bufferItems_docItems :
    ∀ {items : List Json} {room : Nat}, itemsDepth items ≤ room →
      bufferItems room (docItems items) = .ok items
  | [], _, _ => by rw [docItems, bufferItems]
  | item :: items, room, h => by
    rw [itemsDepth] at h
    rw [docItems, bufferItems, buffer_doc (by omega), bufferItems_docItems (by omega)]
    rfl

theorem bufferMembers_docMembers :
    ∀ {members : List JsonMember} {room : Nat}, membersDepth members ≤ room →
      bufferMembers room (docMembers members) = .ok members
  | [], _, _ => by rw [docMembers, bufferMembers]
  | ⟨key, value⟩ :: members, room, h => by
    rw [membersDepth] at h
    rw [docMembers, bufferMembers, buffer_doc (by omega), bufferMembers_docMembers (by omega)]
    rfl

end

end Doc

end TuffSafety
