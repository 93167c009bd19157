import TuffSafety.Proofs.ExpressionPrinting
import TuffSafety.Proofs.ReadingProgress

/-!
# The loops of the parser

A loop goes round with a reader that takes one entry: until a closing brace or the end, as long as a
comma follows, or as long as a suffix follows. Each of these readers passes over a token whenever it
succeeds, so no loop stays where it is, and the parser as a whole reaches the end or fails. How many
units of the allowance it is given does not matter, as long as there are eight for each token and eight
more.
-/
namespace TuffSafety

namespace Parse

variable {all ts rest : List Token} {α β : Type} {passed : Nat}

section Loops

variable (stop goesOn : List Token → Bool) (round : Nat → List Token → Attempt (α × List Token))
  (link : Nat → α → List Token → Attempt (α × List Token))

/-- Rounds until the tokens tell to stop. -/
def repeated : Nat → List Token → Attempt (List α × List Token)
  | 0, ts => exhausted ts
  | n + 1, ts =>
    if stop ts then .ok ([], ts)
    else do
      let (first, ts) ← round n ts
      let (rest, ts) ← repeated n ts
      .ok (first :: rest, ts)

/-- Rounds with commas between them. -/
def separated : Nat → List Token → Attempt (List α × List Token)
  | 0, ts => exhausted ts
  | n + 1, ts => do
    let (first, ts) ← round n ts
    match accept .comma ts with
    | (false, ts) => .ok ([first], ts)
    | (true, ts) =>
      let (rest, ts) ← separated n ts
      .ok (first :: rest, ts)

/-- Rounds as long as the tokens tell to go on, each with what the one before it made. -/
def chained : Nat → α → List Token → Attempt (α × List Token)
  | 0, _, ts => exhausted ts
  | n + 1, a, ts =>
    if goesOn ts then do
      let (a, ts) ← link n a ts
      chained n a ts
    else .ok (a, ts)

end Loops

/-- Whether a list in braces stops. -/
def closes (ts : List Token) : Bool :=
  startsWith .rbrace ts || atEnd ts

/-- A comma or a semicolon may close an entry. -/
def skipSeparator (ts : List Token) : List Token :=
  match accept .comma ts with
  | (true, ts) => ts
  | (false, ts) => (accept .semicolon ts).2

/-- One field of a struct body. -/
def fieldDecl (n : Nat) (ts : List Token) : Attempt (FieldDecl × List Token) := do
  let (name, ts) ← ident ts
  let ((), ts) ← expect .colon "in struct field" ts
  let (type, ts) ← typeExpr n ts
  .ok (⟨name, type⟩, skipSeparator ts)

/-- One name of an enum body. -/
def variant (ts : List Token) : Attempt (String × List Token) := do
  let (name, ts) ← ident ts
  .ok (name, skipSeparator ts)

/-- One case of a match. -/
def matchCase (n : Nat) : List Token → Attempt (MatchCase × List Token)
  | ⟨.symbol .kwCase, _⟩ :: ts => do
    let (pattern, ts) ← pattern ts
    let ((), ts) ← expect .assign "after case pattern" ts
    let (body, ts) ← branch n ts
    let ((), ts) ← expect .semicolon "after case body" ts
    .ok (⟨pattern, body⟩, ts)
  | ts => fail (.expectedCase (kind ts)) ts

/-- One parameter. -/
def param (n : Nat) (ts : List Token) : Attempt (Param × List Token) := do
  let (name, ts) ← ident ts
  let (type, ts) ← annotation n ts
  .ok (⟨name, type⟩, ts)

def startsSuffix (ts : List Token) : Bool :=
  startsWith .lparen ts || startsWith .dot ts || startsWith .lbracket ts

/-- One call, member access or indexing behind an operand. -/
def suffix (n : Nat) (base : Expr) : List Token → Attempt (Expr × List Token)
  | ⟨.symbol .lparen, _⟩ :: ts => do
    let (args, ts) ← if startsWith .rparen ts then .ok ([], ts) else arguments n ts
    let ((), ts) ← expect .rparen "after call args" ts
    .ok (callOf base args, ts)
  | ⟨.symbol .dot, _⟩ :: ts => do
    let (property, ts) ← ident ts
    .ok (.member base property base.loc?, ts)
  | ⟨.symbol .lbracket, pos⟩ :: ts => do
    let (position, ts) ← expression n 0 ts
    let ((), ts) ← expect .rbracket "after index" ts
    .ok (.index base position (base.loc? <|> some (Loc.ofPos pos)), ts)
  | ts => fail (.unexpectedToken (kind ts)) ts

theorem topLevel_eq (n : Nat) (ts : List Token) :
    topLevel n ts = (repeated atEnd statement n ts).map Prod.fst := by
  induction n generalizing ts with
  | zero => rfl
  | succ n ih =>
    rw [topLevel, repeated]
    split
    · rfl
    · cases statement n ts with
      | error fault => rfl
      | ok p =>
        obtain ⟨first, ts⟩ := p
        change (topLevel n ts >>= fun rest => .ok (first :: rest)) =
          (repeated atEnd statement n ts >>= fun p => .ok (first :: p.1, p.2)).map Prod.fst
        rw [ih]
        cases repeated atEnd statement n ts <;> rfl

theorem statements_eq (n : Nat) (ts : List Token) :
    statements n ts = repeated closes statement n ts := by
  induction n generalizing ts with
  | zero => rfl
  | succ n ih =>
    have hrest : repeated closes statement n = statements n := funext fun ts => (ih ts).symm
    rw [repeated, hrest]
    rfl

theorem arguments_eq (n : Nat) (ts : List Token) :
    arguments n ts = separated (fun n => expression n 0) n ts := by
  induction n generalizing ts with
  | zero => rfl
  | succ n ih =>
    have hrest : separated (fun n => expression n 0) n = arguments n :=
      funext fun ts => (ih ts).symm
    rw [separated, hrest]
    rfl

theorem params_eq (n : Nat) (ts : List Token) : params n ts = separated param n ts := by
  induction n generalizing ts with
  | zero => rfl
  | succ n ih =>
    have hrest : separated param n = params n := funext fun ts => (ih ts).symm
    rw [separated, hrest, param]
    simp only [bind_assoc]
    rfl

theorem fieldDecls_eq (n : Nat) (ts : List Token) :
    fieldDecls n ts = repeated closes fieldDecl n ts := by
  induction n generalizing ts with
  | zero => rfl
  | succ n ih =>
    have hrest : repeated closes fieldDecl n = fieldDecls n := funext fun ts => (ih ts).symm
    rw [repeated, hrest, fieldDecl]
    simp only [bind_assoc]
    rfl

theorem matchCases_eq (n : Nat) (ts : List Token) :
    matchCases n ts = repeated (startsWith .rbrace) matchCase n ts := by
  induction n generalizing ts with
  | zero => rfl
  | succ n ih =>
    rw [repeated]
    unfold matchCases
    split <;> cases ‹n + 1 = _›
    · simp only [ih, matchCase, bind_assoc]
      rfl
    · rename_i hcase
      rw [matchCase]
      · rfl
      · exact hcase

theorem exists_of_startsWith {s : Symbol} (h : startsWith s ts = true) :
    ∃ pos rest, ts = ⟨.symbol s, pos⟩ :: rest := by
  unfold startsWith at h
  split at h
  · obtain rfl := of_decide_eq_true h
    exact ⟨_, _, rfl⟩
  · cases h

theorem suffixes_eq (n : Nat) (base : Expr) (ts : List Token) :
    suffixes n base ts = chained startsSuffix suffix n base ts := by
  induction n generalizing base ts with
  | zero => rfl
  | succ n ih =>
    rw [chained]
    unfold suffixes
    split <;> cases ‹n + 1 = _›
    · rename_i pos ts
      rw [if_pos (show startsSuffix (⟨.symbol .lparen, pos⟩ :: ts) = true from rfl), suffix]
      dsimp only
      split <;>
      · simp only [ih, bind_assoc]
        rfl
    · rename_i pos ts
      rw [if_pos (show startsSuffix (⟨.symbol .dot, pos⟩ :: ts) = true from rfl), suffix]
      simp only [ih, bind_assoc]
      rfl
    · rename_i pos ts
      rw [if_pos (show startsSuffix (⟨.symbol .lbracket, pos⟩ :: ts) = true from rfl), suffix]
      simp only [ih, bind_assoc]
      rfl
    · rename_i hparen hdot hbracket
      refine (if_neg fun hstarts => ?_).symm
      rw [startsSuffix, Bool.or_eq_true, Bool.or_eq_true] at hstarts
      rcases hstarts with (hstarts | hstarts) | hstarts
      · obtain ⟨pos, rest, rfl⟩ := exists_of_startsWith hstarts
        exact hparen pos rest rfl
      · obtain ⟨pos, rest, rfl⟩ := exists_of_startsWith hstarts
        exact hdot pos rest rfl
      · obtain ⟨pos, rest, rfl⟩ := exists_of_startsWith hstarts
        exact hbracket pos rest rfl

theorem skipSeparator_eq_self
    (hcomma : ∀ pos rest, ts ≠ ⟨.symbol .comma, pos⟩ :: rest)
    (hsemicolon : ∀ pos rest, ts ≠ ⟨.symbol .semicolon, pos⟩ :: rest) : skipSeparator ts = ts := by
  have hkind : ∀ s, (∀ pos rest, ts ≠ ⟨.symbol s, pos⟩ :: rest) → kind ts ≠ .symbol s := by
    intro s hs hkind
    cases ts with
    | nil => cases hkind
    | cons t rest =>
      obtain ⟨k, pos⟩ := t
      cases hkind
      exact hs pos rest rfl
  rw [skipSeparator, accept_of_kind_ne (hkind .comma hcomma)]
  dsimp only
  rw [accept_of_kind_ne (hkind .semicolon hsemicolon)]

/-- One round reads a name, the others read the rest. -/
theorem repeated_variant {n : Nat} {name : String} {pos : Pos} (hskip : skipSeparator ts = rest)
    (hrest : variants rest = repeated closes (fun _ => variant) n rest) :
    repeated closes (fun _ => variant) (n + 1) (⟨.ident name, pos⟩ :: ts) =
      (variants rest >>= fun p => .ok (name :: p.1, p.2)) := by
  rw [hrest, ← hskip]
  rfl

theorem variants_eq {n : Nat} {ts : List Token} (hn : ts.length < n) :
    variants ts = repeated closes (fun _ => variant) n ts := by
  induction n generalizing ts with
  | zero => cases hn
  | succ n ih =>
    unfold variants
    split
    · rename_i name pos pos' rest
      have hskip : skipSeparator (⟨.symbol .comma, pos'⟩ :: rest) = rest := rfl
      rw [List.length_cons, List.length_cons] at hn
      exact (repeated_variant hskip (ih (by omega))).symm
    · rename_i name pos pos' rest
      have hskip : skipSeparator (⟨.symbol .semicolon, pos'⟩ :: rest) = rest := rfl
      rw [List.length_cons, List.length_cons] at hn
      exact (repeated_variant hskip (ih (by omega))).symm
    · rename_i hcomma hsemicolon
      rw [List.length_cons] at hn
      exact (repeated_variant (skipSeparator_eq_self hcomma hsemicolon) (ih (by omega))).symm
    · rename_i hname
      rw [repeated, variant, ident]
      · rfl
      · exact hname

/-! ### Procedures -/

theorem Left.skipSeparator (h : Left passed all ts) : Left passed all (skipSeparator ts) := by
  unfold Parse.skipSeparator
  split
  · exact h.accept ‹_›
  · exact (h.accept ‹_›).accept (s := .semicolon) rfl

section Rounds

variable {n : Nat}

theorem fieldDecl_runs (h : HasEnd ts) :
    Runs 1 ts (needed 0 ts ≤ n + 1) (fieldDecl n ts) (fieldDecl (n + 1) ts) :=
  (ident_runs h).bind fun _ _ h => h.expect.bind fun _ _ h =>
    ((typeExpr_runs n h.hasEnd).later h).bind fun _ _ h => .ok h.skipSeparator

theorem variant_runs {enough : Prop} (h : HasEnd ts) : Runs 1 ts enough (variant ts) (variant ts) :=
  (ident_runs h).bind fun _ _ h => .ok h.skipSeparator

theorem matchCase_runs (h : HasEnd ts) :
    Runs 1 ts (needed 0 ts ≤ n + 1) (matchCase n ts) (matchCase (n + 1) ts) := by
  unfold matchCase
  split
  · have h := Left.symbol h
    exact ((pattern_runs h.hasEnd).after h).bind fun _ _ h => h.expect.bind fun _ _ h =>
      ((branch_runs n h.hasEnd).later h).bind fun _ _ h => h.expect.bind fun _ _ h => .ok h
  · exact .fail (by simp)

theorem param_runs (h : HasEnd ts) :
    Runs 1 ts (needed 0 ts ≤ n + 1) (param n ts) (param (n + 1) ts) :=
  (ident_runs h).bind fun _ _ h => ((annotation_runs n h.hasEnd).later h).bind fun _ _ h => .ok h

theorem suffix_runs (base : Expr) (h : HasEnd ts) :
    Runs 1 ts (needed 0 ts ≤ n + 1) (suffix n base ts) (suffix (n + 1) base ts) := by
  unfold suffix
  split
  · have h := Left.symbol h
    exact ((arguments_runs n h.hasEnd).later h).bindUnless h fun _ _ h =>
      h.expect.bind fun _ _ h => .ok h
  · exact (Left.symbol h).ident.bind fun _ _ h => .ok h
  · have h := Left.symbol h
    exact ((expression_runs n 0 h.hasEnd).later h).bind fun _ _ h => h.expect.bind fun _ _ h => .ok h
  · exact .fail (by simp)

theorem repeated_runs {stop : List Token → Bool} {round : Nat → List Token → Attempt (α × List Token)}
    (hround : ∀ n {ts}, HasEnd ts → Runs 1 ts (needed 5 ts ≤ n) (round n ts) (round (n + 1) ts))
    (n : Nat) {ts : List Token} (h : HasEnd ts) :
    Runs 0 ts (needed 6 ts ≤ n) (repeated stop round n ts) (repeated stop round (n + 1) ts) := by
  induction n generalizing ts with
  | zero => exact .exhausted
  | succ n ih =>
    unfold repeated
    split
    · exact .ok (.refl h)
    · exact .weaken (((hround n h).first (by decide)).bind fun _ _ h =>
        ((ih h.hasEnd).later h).bind fun _ _ h => .ok h)

end Rounds

/-- The readers that never succeed without passing over a token, the rounds of the loops among them. -/
inductive Procedure where
  | statement
  | expression (level : Nat)
  | unary
  | primary
  | block
  | pattern
  | typeExpr
  | typeTerm
  | fieldDecl
  | variant
  | matchCase
  | param
  | suffix (base : Expr)

namespace Procedure

def Result : Procedure → Type
  | statement => Stmt
  | expression _ | unary | primary | suffix _ => Expr
  | block => Block
  | pattern => Pattern
  | typeExpr | typeTerm => TypeExpr
  | fieldDecl => FieldDecl
  | variant => String
  | matchCase => MatchCase
  | param => Param

def run : (p : Procedure) → Nat → List Token → Attempt (p.Result × List Token)
  | statement, n, ts => Parse.statement n ts
  | expression level, n, ts => Parse.expression n level ts
  | unary, n, ts => Parse.unary n ts
  | primary, n, ts => Parse.primary n ts
  | block, n, ts => Parse.requiredBlock n ts
  | pattern, _, ts => Parse.pattern ts
  | typeExpr, n, ts => Parse.typeExpr n ts
  | typeTerm, n, ts => Parse.typeTerm n ts
  | fieldDecl, n, ts => Parse.fieldDecl n ts
  | variant, _, ts => Parse.variant ts
  | matchCase, n, ts => Parse.matchCase n ts
  | param, n, ts => Parse.param n ts
  | suffix base, n, ts => Parse.suffix n base ts

theorem run_runs (p : Procedure) (n : Nat) (h : HasEnd ts) :
    Runs 1 ts (allowance ts.length ≤ n) (p.run n ts) (p.run (n + 1) ts) := by
  have hlayer : ∀ layer : Fin 8, allowance ts.length ≤ n → needed layer ts ≤ n := by
    intro layer henough
    have := layer.isLt
    unfold allowance at henough
    unfold needed
    omega
  have hround : allowance ts.length ≤ n → needed 0 ts ≤ n + 1 :=
    fun henough => Nat.le_succ_of_le (hlayer 0 henough)
  cases p with
  | statement => exact (statement_runs n h).mono (hlayer _)
  | expression level => exact (expression_runs n level h).mono (hlayer _)
  | unary => exact (unary_runs n h).mono (hlayer _)
  | primary => exact (primary_runs n h).mono (hlayer _)
  | block => exact (requiredBlock_runs n h).mono (hlayer _)
  | pattern => exact pattern_runs h
  | typeExpr => exact (typeExpr_runs n h).mono (hlayer _)
  | typeTerm => exact (typeTerm_runs n h).mono (hlayer _)
  | fieldDecl => exact (fieldDecl_runs h).mono hround
  | variant => exact variant_runs h
  | matchCase => exact (matchCase_runs h).mono hround
  | param => exact (param_runs h).mono hround
  | suffix base => exact (suffix_runs base h).mono hround

end Procedure

/-- Each loop goes round with a procedure: the statements of a program and of a block, the fields of a
struct, the names of an enum, the cases of a match, parameters, arguments and suffixes. -/
structure Loops : Prop where
  program : ∀ n ts, topLevel n ts = (repeated atEnd Procedure.statement.run n ts).map Prod.fst
  block : ∀ n ts, statements n ts = repeated closes Procedure.statement.run n ts
  struct : ∀ n ts, fieldDecls n ts = repeated closes Procedure.fieldDecl.run n ts
  enum : ∀ n ts, ts.length < n → variants ts = repeated closes Procedure.variant.run n ts
  cases : ∀ n ts, matchCases n ts = repeated (startsWith .rbrace) Procedure.matchCase.run n ts
  params : ∀ n ts, params n ts = separated Procedure.param.run n ts
  arguments : ∀ n ts, arguments n ts = separated (Procedure.expression 0).run n ts
  suffixes : ∀ n base ts, suffixes n base ts =
    chained startsSuffix (fun n base => (Procedure.suffix base).run n) n base ts

theorem loops : Loops where
  program := topLevel_eq
  block := statements_eq
  struct := fieldDecls_eq
  enum := fun _ _ hn => variants_eq hn
  cases := matchCases_eq
  params := params_eq
  arguments := arguments_eq
  suffixes := suffixes_eq

/-! ### Positions -/

/-- The last token is the end, and no other one is. -/
def EndsOnce (tokens : List Token) : Prop :=
  ∃ words last, tokens = words ++ [last] ∧ last.kind = .eof ∧ ∀ t ∈ words, t.kind ≠ .eof

section Positions

variable {tokens : List Token} {i : Nat}

theorem EndsOnce.hasEnd (h : EndsOnce tokens) : HasEnd tokens := by
  obtain ⟨words, last, rfl, hlast, -⟩ := h
  exact ⟨last, List.mem_append_right _ List.mem_cons_self, hlast⟩

theorem EndsOnce.hasEnd_drop (h : EndsOnce tokens) (hi : i < tokens.length) :
    HasEnd (tokens.drop i) := by
  obtain ⟨words, last, rfl, hlast, -⟩ := h
  rw [List.length_append, List.length_singleton] at hi
  rw [List.drop_append_of_le_length (by omega)]
  exact ⟨last, List.mem_append_right _ List.mem_cons_self, hlast⟩

/-- What is left behind a position begins at a later one, at the end at the latest. -/
theorem Left.exists_position (h : Left passed (tokens.drop i) rest) :
    ∃ j, i + passed ≤ j ∧ j < tokens.length ∧ rest = tokens.drop j := by
  obtain ⟨t, ht, -⟩ := h.hasEnd
  have hrest : 0 < rest.length := List.length_pos_of_mem ht
  have hlength := h.length_le
  rw [List.length_drop] at hlength
  refine ⟨tokens.length - rest.length, by omega, by omega, ?_⟩
  exact List.suffix_iff_eq_drop.mp (h.isSuffix.trans (List.drop_suffix i tokens))

/-- An answer that one more unit never changes is the same for every greater allowance. -/
theorem eq_of_settled (answer : Nat → β) {n m : Nat} (h : ∀ k, n ≤ k → answer (k + 1) = answer k)
    (hm : n ≤ m) : answer m = answer n := by
  induction hm with
  | refl => rfl
  | step hk ih => exact (h _ hk).trans ih

theorem map_ne_exhausted {r : Attempt α} (f : α → β)
    (h : ∀ place, r ≠ .error ⟨.exhausted, place⟩) (place : Option Loc) :
    r.map f ≠ .error ⟨.exhausted, place⟩ := by
  intro heq
  cases r with
  | error fault => exact h place (congrArg Except.error (Except.error.inj heq))
  | ok a => cases heq

theorem topLevel_settled (h : HasEnd tokens) {n : Nat} (hn : allowance tokens.length ≤ n) :
    topLevel (n + 1) tokens = topLevel n tokens ∧
      ∀ place, topLevel n tokens ≠ .error ⟨.exhausted, place⟩ := by
  have hruns : Runs 0 tokens (needed 6 tokens ≤ n) (repeated atEnd statement n tokens)
      (repeated atEnd statement (n + 1) tokens) := repeated_runs statement_runs n h
  have hneeded : needed 6 tokens ≤ n := by
    unfold allowance at hn
    unfold needed
    omega
  rw [topLevel_eq, topLevel_eq, hruns.settled hneeded]
  exact ⟨rfl, map_ne_exhausted _ (hruns.lasts hneeded)⟩

end Positions

end Parse

theorem Program.parse_eq_map (tokens : List Token) :
    Program.parse tokens =
      (Parse.topLevel (Parse.allowance tokens.length) tokens).map Program.mk := by
  rw [Program.parse]
  cases Parse.topLevel (Parse.allowance tokens.length) tokens <;> rfl

/-- The parser gets on and never passes the end. From every position every procedure that succeeds
ends at a later one, at the end at the latest; the rounds of all loops are procedures. Eight units for
each token that is left and eight more are enough: no procedure runs out of them, nor does the parser,
and a greater allowance gives the same answer. -/
theorem parser_advances {tokens : List Token} (hend : Parse.EndsOnce tokens) :
    (∀ (p : Parse.Procedure) n i a rest, i < tokens.length →
      p.run n (tokens.drop i) = .ok (a, rest) →
      ∃ j, i < j ∧ j < tokens.length ∧ rest = tokens.drop j) ∧
    Parse.Loops ∧
    (∀ (p : Parse.Procedure) n i, i < tokens.length → Parse.allowance (tokens.length - i) ≤ n →
      (∀ place, p.run n (tokens.drop i) ≠ .error ⟨.exhausted, place⟩) ∧
      ∀ m, n ≤ m → p.run m (tokens.drop i) = p.run n (tokens.drop i)) ∧
    (∀ place, Program.parse tokens ≠ .error ⟨.exhausted, place⟩) ∧
    ∀ n, Parse.allowance tokens.length ≤ n →
      Program.parse tokens = (Parse.topLevel n tokens).map Program.mk := by
  refine ⟨?_, Parse.loops, ?_, ?_, ?_⟩
  · intro p n i a rest hi hrun
    exact ((p.run_runs n (hend.hasEnd_drop hi)).leaves a rest hrun).exists_position
  · intro p n i hi hn
    rw [← List.length_drop] at hn
    refine ⟨(p.run_runs n (hend.hasEnd_drop hi)).lasts hn, fun m hm => ?_⟩
    refine Parse.eq_of_settled (fun k => p.run k (tokens.drop i)) (fun k hk => ?_) hm
    exact (p.run_runs k (hend.hasEnd_drop hi)).settled (Nat.le_trans hn hk)
  · rw [Program.parse_eq_map]
    exact Parse.map_ne_exhausted _ (Parse.topLevel_settled hend.hasEnd (Nat.le_refl _)).2
  · intro n hn
    have hsame := Parse.eq_of_settled (fun k => Parse.topLevel k tokens)
      (fun k hk => (Parse.topLevel_settled hend.hasEnd hk).1) hn
    rw [Program.parse_eq_map, ← hsame]

namespace Parse

/-- The tokens of `{ a.b(1); }`. -/
def calling : List Token :=
  [.symbol .lbrace, .ident "a", .symbol .dot, .ident "b", .symbol .lparen, .number 1 none,
    .symbol .rparen, .symbol .semicolon, .symbol .rbrace, .eof].map fun kind => ⟨kind, ⟨1, 1⟩⟩

theorem calling_endsOnce : EndsOnce calling := by
  have hwords : ∀ t ∈ calling.dropLast, isEnd t.kind = false := by decide
  exact ⟨calling.dropLast, ⟨.eof, ⟨1, 1⟩⟩, rfl, rfl, fun t ht => ne_eof (hwords t ht)⟩

end Parse

/-- The statement in the block ends before the closing brace, and no allowance is too great. -/
theorem parser_advances_calling :
    (∃ a, Parse.Procedure.statement.run 80 (Parse.calling.drop 1) = .ok (a, Parse.calling.drop 8)) ∧
      (∃ j, 1 < j ∧ j < Parse.calling.length ∧ Parse.calling.drop 8 = Parse.calling.drop j) ∧
      (∀ place, Program.parse Parse.calling ≠ .error ⟨.exhausted, place⟩) ∧
      Program.parse Parse.calling = (Parse.topLevel 1000 Parse.calling).map Program.mk := by
  obtain ⟨hadvance, -, -, hlasts, hsame⟩ := parser_advances Parse.calling_endsOnce
  have hrun : ∃ a, Parse.Procedure.statement.run 80 (Parse.calling.drop 1) =
      .ok (a, Parse.calling.drop 8) := ⟨_, rfl⟩
  obtain ⟨a, ha⟩ := hrun
  exact ⟨⟨a, ha⟩, hadvance .statement 80 1 a _ (by decide) ha, hlasts, hsame 1000 (by decide)⟩

end TuffSafety
