import TuffSafety.Ast.Parse
import TuffSafety.Proofs.Unlocated

/-!
# Printed expressions are parsed back

Operators, calls, member accesses and indexings are printed with no more parentheses than the binding
strengths ask for. The parser reads the tokens back into the expression they were printed from, and
stops where they end. It reads a chain of infix operators in a loop: what it has read so far is one
operand of the next operator, so the invariant is about the chain that the loop holds.
-/
namespace TuffSafety

/-! ### Printing -/

def BinaryOp.sign : BinaryOp → Symbol
  | add => .plus
  | sub => .minus
  | mul => .star
  | div => .slash
  | mod => .percent
  | eq => .eq
  | ne => .ne
  | lt => .lt
  | le => .le
  | gt => .gt
  | ge => .ge
  | and => .andAnd
  | or => .orOr

def BinaryOp.precedence (op : BinaryOp) : Nat :=
  (Parse.Infix.op op).precedence

def UnaryOp.signs : UnaryOp → List TokenKind
  | not => [.symbol .bang]
  | neg => [.symbol .minus]
  | ref => [.symbol .amp]
  | refMut => [.symbol .amp, .symbol .kwMut]

namespace Expr

def isBinary : Expr → Bool
  | binary .. => true
  | _ => false

/-- A suffix behind it would be taken for a suffix of its last operand. -/
def isOperation : Expr → Bool
  | binary .. | unary .. => true
  | _ => false

/-- An infix operator that binds more weakly than the level. -/
def bindsBelow (level : Nat) : Expr → Bool
  | binary op .. => op.precedence < level
  | _ => false

def parens (needed : Bool) (tokens : List TokenKind) : List TokenKind :=
  if needed then .symbol .lparen :: tokens ++ [.symbol .rparen] else tokens

mutual

/-- The tokens of an expression, without parentheses around it. -/
def bare : Expr → List TokenKind
  | number value suffix _ => [.number value suffix]
  | float value _ => [.float value]
  | bool value _ => [.symbol (if value then .kwTrue else .kwFalse)]
  | string value _ => [.string value]
  | char value _ => [.char value]
  | ident name _ => [.ident name]
  | binary op left right _ =>
    parens (left.bindsBelow op.precedence) (bare left) ++
      .symbol op.sign :: parens (right.bindsBelow (op.precedence + 1)) (bare right)
  | unary op operand _ => op.signs ++ parens operand.isBinary (bare operand)
  | call callee args _ =>
    parens callee.isOperation (bare callee) ++
      .symbol .lparen :: (bareArgs args ++ [.symbol .rparen])
  | member object property _ =>
    parens object.isOperation (bare object) ++ [.symbol .dot, .ident property]
  | index target position _ =>
    parens target.isOperation (bare target) ++
      .symbol .lbracket :: (bare position ++ [.symbol .rbracket])
  | _ => []

def bareArgs : List Expr → List TokenKind
  | [] => []
  | [e] => bare e
  | e :: es => bare e ++ .symbol .comma :: bareArgs es

end

/-- The tokens of an expression that stands where operators have to bind as strongly as the level. -/
def print (e : Expr) (level : Nat) : List TokenKind :=
  parens (e.bindsBelow level) (bare e)

theorem isBinary_of_isOperation {e : Expr} (h : e.isOperation = false) : e.isBinary = false := by
  cases e with
  | binary => cases h
  | _ => rfl

theorem print_of_isBinary {e : Expr} (h : e.isBinary = false) (level : Nat) :
    e.print level = e.bare := by
  cases e with
  | binary => cases h
  | _ => rfl

theorem print_zero (e : Expr) : e.print 0 = e.bare := by
  cases e <;> rfl

/-- The expressions that are printed. A call of a member is a method call, which is another tree. -/
inductive Printable : Expr → Prop where
  | number {value suffix loc} : Printable (number value suffix loc)
  | float {value loc} : Printable (float value loc)
  | bool {value loc} : Printable (bool value loc)
  | string {value loc} : Printable (string value loc)
  | char {value loc} : Printable (char value loc)
  | ident {name loc} : Printable (ident name loc)
  | binary {op left right loc} (hleft : Printable left) (hright : Printable right) :
      Printable (binary op left right loc)
  | unary {op operand loc} (h : Printable operand) : Printable (unary op operand loc)
  | call {callee args loc} (hcallee : Printable callee) (hargs : ∀ e ∈ args, Printable e)
      (hmember : ∀ object property loc, callee ≠ member object property loc) :
      Printable (call callee args loc)
  | member {object property loc} (h : Printable object) : Printable (member object property loc)
  | index {target position loc} (htarget : Printable target) (hposition : Printable position) :
      Printable (index target position loc)

end Expr

namespace Parse

/-! ### What follows an expression -/

/-- The rest does not go on with a suffix, an unwrapping or the fields of a struct. -/
def Quiet (rest : List Token) : Prop :=
  ∀ s ∈ [Symbol.question, .lparen, .dot, .lbracket, .lbrace], kind rest ≠ .symbol s

/-- Nor does it go on with an infix operator that binds at least as strongly as the level. -/
def Follows (level : Nat) (rest : List Token) : Prop :=
  Quiet rest ∧ ∀ sign, Infix.ofToken? (kind rest) = some sign → sign.precedence < level

theorem accept_symbol (s : Symbol) (pos : Pos) (ts : List Token) :
    accept s (⟨.symbol s, pos⟩ :: ts) = (true, ts) :=
  if_pos rfl

theorem accept_of_kind_ne {s : Symbol} {ts : List Token} (h : kind ts ≠ .symbol s) :
    accept s ts = (false, ts) := by
  unfold accept
  split
  · rename_i s' pos ts
    refine if_neg ?_
    rintro rfl
    exact h rfl
  · rfl

theorem expect_symbol (s : Symbol) (place : String) (pos : Pos) (ts : List Token) :
    expect s place (⟨.symbol s, pos⟩ :: ts) = .ok ((), ts) := by
  rw [expect, accept_symbol]

theorem suffixes_quiet {rest : List Token} (h : Quiet rest) (n : Nat) (e : Expr) :
    suffixes (n + 1) e rest = .ok (e, rest) := by
  refine suffixes.eq_5 _ _ _ ?_ ?_ ?_
  · rintro pos ts rfl
    exact h .lparen (by decide) rfl
  · rintro pos ts rfl
    exact h .dot (by decide) rfl
  · rintro pos ts rfl
    exact h .lbracket (by decide) rfl

theorem infixTail_follows {level : Nat} {rest : List Token} (h : Follows level rest) (n : Nat)
    (e : Expr) : infixTail (n + 1) level e rest = .ok (e, rest) := by
  cases rest with
  | nil => rfl
  | cons t ts =>
    unfold infixTail
    cases hsign : Infix.ofToken? t.kind with
    | none => rfl
    | some sign => exact if_pos (h.2 sign hsign)

/-! ### Reading back -/

theorem map_kind_cons {k : TokenKind} {kinds : List TokenKind} {ts : List Token}
    (h : ts.map Token.kind = k :: kinds) :
    ∃ pos ts', ts = ⟨k, pos⟩ :: ts' ∧ ts'.map Token.kind = kinds := by
  obtain ⟨⟨_, pos⟩, ts', rfl, rfl, htail⟩ := List.map_eq_cons_iff.mp h
  exact ⟨pos, ts', rfl, htail⟩

/-- An operand and the infix operators behind it. -/
def chain (n level : Nat) (ts : List Token) : Attempt (Expr × List Token) := do
  let (left, ts) ← unary n ts
  infixTail n level left ts

theorem expression_of_chain {n level : Nat} {ts rest : List Token} {e : Expr}
    (h : chain n level ts = .ok (e, rest)) (hrest : Quiet rest) :
    expression (n + 1) level ts = .ok (e, rest) := by
  have hquestion := accept_of_kind_ne (hrest .question (by decide))
  unfold chain at h
  unfold expression
  cases hunary : unary n ts with
  | error fault =>
    rw [hunary] at h
    cases h
  | ok left =>
    rw [hunary] at h
    have htail : infixTail n level left.1 left.2 = .ok (e, rest) := h
    dsimp only [bind, Except.bind]
    rw [htail]
    dsimp only
    rw [hquestion]

section

-- From an expression to its first atom the calls are nested four deep, so four units of the allowance
-- for each token are enough. A loop spends one of them for each operator or suffix it takes.
variable (e : Expr) (kinds : List TokenKind)

/-- Before any rest that is not a block, the tokens are read as an operand without suffixes. -/
def ReadsAtom : Prop :=
  ∀ ⦃ts rest : List Token⦄ ⦃n : Nat⦄, ts.map Token.kind = kinds → kind rest ≠ .symbol .lbrace →
    4 * ts.length + 1 ≤ n → ∃ e', Unlocated.expr e' = Unlocated.expr e ∧
      atom n (ts ++ rest) = .ok (e', rest)

/-- The tokens are read as the start of an operand, and its suffixes are what comes next. -/
def ReadsBase : Prop :=
  ∀ ⦃ts rest : List Token⦄ ⦃n : Nat⦄, ts.map Token.kind = kinds → kind rest ≠ .symbol .lbrace →
    4 * ts.length + 2 ≤ n → ∃ m e', n ≤ m + ts.length ∧ Unlocated.expr e' = Unlocated.expr e ∧
      primary n (ts ++ rest) = suffixes m e' rest

def ReadsOperand : Prop :=
  ∀ ⦃ts rest : List Token⦄ ⦃n : Nat⦄, ts.map Token.kind = kinds → Quiet rest →
    4 * ts.length + 3 ≤ n → ∃ e', Unlocated.expr e' = Unlocated.expr e ∧
      unary n (ts ++ rest) = .ok (e', rest)

/-- At every level up to the one that the tokens were printed for, the loop over infix operators comes
to hold the expression. -/
def ReadsChain (level : Nat) : Prop :=
  ∀ ⦃ts rest : List Token⦄ ⦃n level' : Nat⦄, level' ≤ level → ts.map Token.kind = kinds →
    Follows (level + 1) rest → 4 * ts.length + 3 ≤ n →
      ∃ m e', n ≤ m + ts.length ∧ Unlocated.expr e' = Unlocated.expr e ∧
        chain n level' (ts ++ rest) = infixTail m level' e' rest

def ReadsWhole (level : Nat) : Prop :=
  ∀ ⦃ts rest : List Token⦄ ⦃n : Nat⦄, ts.map Token.kind = kinds → Follows level rest →
    4 * ts.length + 4 ≤ n → ∃ e', Unlocated.expr e' = Unlocated.expr e ∧
      expression n level (ts ++ rest) = .ok (e', rest)

end

variable {e : Expr} {kinds : List TokenKind} {level : Nat}

theorem Follows.mono {level level' : Nat} {rest : List Token} (h : Follows level rest)
    (hle : level ≤ level') : Follows level' rest :=
  ⟨h.1, fun sign hsign => Nat.lt_of_lt_of_le (h.2 sign hsign) hle⟩

theorem ReadsChain.whole (h : ReadsChain e kinds level) : ReadsWhole e kinds level := by
  intro ts rest n hts hrest hn
  cases n with
  | zero => omega
  | succ n =>
    obtain ⟨m, e', hm, he, hchain⟩ :=
      h (Nat.le_refl level) hts (hrest.mono (Nat.le_succ level)) (show 4 * ts.length + 3 ≤ n by omega)
    cases m with
    | zero => omega
    | succ m =>
      rw [infixTail_follows hrest] at hchain
      exact ⟨e', he, expression_of_chain hchain hrest.1⟩

theorem ReadsOperand.chain (h : ReadsOperand e kinds) (level : Nat) : ReadsChain e kinds level := by
  intro ts rest n level' _ hts hrest hn
  obtain ⟨e', he, hunary⟩ := h hts hrest.1 hn
  refine ⟨n, e', Nat.le_add_right _ _, he, ?_⟩
  rw [Parse.chain, hunary]
  rfl

/-- The tokens that an operand without operators starts with. -/
def startsAtom : TokenKind → Bool
  | .number .. | .float _ | .string _ | .char _ | .ident _
  | .symbol .kwTrue | .symbol .kwFalse | .symbol .lparen => true
  | _ => false

theorem unary_atom {t : Token} (h : startsAtom t.kind) (n : Nat) (ts : List Token) :
    unary (n + 1) (t :: ts) = primary n (t :: ts) := by
  refine unary.eq_5 _ _ ?_ ?_ ?_
  all_goals
    intro pos ts' heq
    obtain ⟨rfl, -⟩ := List.cons.inj heq
    cases h

theorem ReadsBase.operand (h : ReadsBase e kinds) (hhead : ∃ k ks, kinds = k :: ks ∧ startsAtom k) :
    ReadsOperand e kinds := by
  intro ts rest n hts hrest hn
  obtain ⟨k, ks, rfl, hk⟩ := hhead
  obtain ⟨pos, ts, rfl, -⟩ := map_kind_cons hts
  cases n with
  | zero => omega
  | succ n =>
    obtain ⟨m, e', hm, he, hprimary⟩ :=
      h hts (hrest .lbrace (by decide)) (Nat.le_of_succ_le_succ hn)
    cases m with
    | zero => omega
    | succ m =>
      rw [suffixes_quiet hrest] at hprimary
      exact ⟨e', he, (unary_atom hk n _).trans hprimary⟩

theorem ReadsAtom.base (h : ReadsAtom e kinds) (hne : kinds ≠ []) : ReadsBase e kinds := by
  intro ts rest n hts hrest hn
  cases n with
  | zero => omega
  | succ n =>
    obtain ⟨e', he, hatom⟩ := h hts hrest (show 4 * ts.length + 1 ≤ n by omega)
    have hlength : 0 < ts.length := by
      rw [List.length_pos_iff]
      rintro rfl
      exact hne hts.symm
    refine ⟨n, e', by omega, he, ?_⟩
    rw [primary, hatom]
    rfl

/-- No expression goes on with that symbol. -/
def endsExpression (s : Symbol) : Bool :=
  s ∉ [Symbol.question, .lparen, .dot, .lbracket, .lbrace] && (Infix.ofSymbol? s).isNone

theorem follows_symbol {s : Symbol} (h : endsExpression s) (level : Nat) (pos : Pos)
    (ts : List Token) : Follows level (⟨.symbol s, pos⟩ :: ts) := by
  rw [endsExpression, Bool.and_eq_true, decide_eq_true_eq, Option.isNone_iff_eq_none] at h
  constructor
  · intro s' hs' heq
    obtain rfl := TokenKind.symbol.inj heq
    exact h.1 hs'
  · intro sign hsign
    cases h.2.symm.trans hsign

/-- Parentheses make any expression an operand. -/
theorem ReadsWhole.parens (h : ReadsWhole e kinds 0) :
    ReadsAtom e (.symbol .lparen :: kinds ++ [.symbol .rparen]) := by
  intro ts rest n hts _ hn
  obtain ⟨front, closing, rfl, hfront, hclosing⟩ := List.map_eq_append_iff.mp hts
  obtain ⟨pos, inner, rfl, hinner⟩ := map_kind_cons hfront
  obtain ⟨pos', _, rfl, hnil⟩ := map_kind_cons hclosing
  obtain rfl := List.map_eq_nil_iff.mp hnil
  rw [List.length_append, List.length_cons, List.length_singleton] at hn
  cases n with
  | zero => omega
  | succ n =>
    have hrest : Follows 0 (⟨.symbol .rparen, pos'⟩ :: rest) := follows_symbol rfl 0 pos' rest
    obtain ⟨e', he, hexpression⟩ := h hinner hrest (show 4 * inner.length + 4 ≤ n by omega)
    refine ⟨e', he, ?_⟩
    rw [List.append_assoc, List.cons_append, atom, List.singleton_append, hexpression]
    dsimp only [bind, Except.bind]
    rw [expect_symbol]

/-! ### Operators and suffixes -/

/-- How an expression is read in the three positions that it can be printed in. -/
structure ReadsBack (e : Expr) : Prop where
  base : ReadsBase e (Expr.parens e.isOperation e.bare)
  operand : ReadsOperand e (Expr.parens e.isBinary e.bare)
  chain : ∀ level, ReadsChain e (e.print level) level

theorem ReadsBack.whole (h : ReadsBack e) (level : Nat) : ReadsWhole e (e.print level) level :=
  (h.chain level).whole

theorem ReadsBack.of_base (hoperation : e.isOperation = false) (h : ReadsBase e e.bare)
    (hhead : ∃ k ks, e.bare = k :: ks ∧ startsAtom k) : ReadsBack e := by
  have hbinary := Expr.isBinary_of_isOperation hoperation
  have hoperand := h.operand hhead
  constructor
  · rwa [hoperation]
  · rwa [hbinary]
  · intro level
    rw [Expr.print_of_isBinary hbinary]
    exact hoperand.chain level

theorem ReadsBack.of_operand (hoperation : e.isOperation = true) (hbinary : e.isBinary = false)
    (h : ReadsOperand e e.bare) : ReadsBack e := by
  have hchain := h.chain
  constructor
  · rw [hoperation]
    exact (hchain 0).whole.parens.base (List.cons_ne_nil _ _)
  · rwa [hbinary]
  · intro level
    rw [Expr.print_of_isBinary hbinary]
    exact hchain level

/-- Up to its own strength an infix operator needs no parentheses. -/
theorem ReadsBack.of_chain {op : BinaryOp} {left right : Expr} {loc : Option Loc}
    (h : ∀ level ≤ op.precedence, ReadsChain (.binary op left right loc)
      (Expr.binary op left right loc).bare level) : ReadsBack (.binary op left right loc) := by
  have hatom := (h 0 (Nat.zero_le _)).whole.parens
  have hbase := hatom.base (List.cons_ne_nil _ _)
  have hoperand := hbase.operand ⟨_, _, rfl, rfl⟩
  refine ⟨hbase, hoperand, fun level => ?_⟩
  by_cases hlevel : op.precedence < level
  · have hprint : (Expr.binary op left right loc).bindsBelow level = true := decide_eq_true hlevel
    rw [Expr.print, hprint]
    exact hoperand.chain level
  · have hprint : (Expr.binary op left right loc).bindsBelow level = false := decide_eq_false hlevel
    rw [Expr.print, hprint]
    exact h level (Nat.le_of_not_lt hlevel)

/-! ### Literals -/

theorem ReadsAtom.of_token {k : TokenKind}
    (h : ∀ n pos rest, kind rest ≠ .symbol .lbrace →
      ∃ e', atom (n + 1) (⟨k, pos⟩ :: rest) = .ok (e', rest) ∧ Unlocated.expr e' = Unlocated.expr e) :
    ReadsAtom e [k] := by
  intro ts rest n hts hrest hn
  obtain ⟨pos, _, rfl, hnil⟩ := map_kind_cons hts
  obtain rfl := List.map_eq_nil_iff.mp hnil
  cases n with
  | zero => omega
  | succ n =>
    obtain ⟨e', hatom, hsame⟩ := h n pos rest hrest
    exact ⟨e', hsame, hatom⟩

theorem ReadsBack.of_token {k : TokenKind} (hbare : e.bare = [k]) (hk : startsAtom k)
    (hoperation : e.isOperation = false)
    (h : ∀ n pos rest, kind rest ≠ .symbol .lbrace →
      ∃ e', atom (n + 1) (⟨k, pos⟩ :: rest) = .ok (e', rest) ∧ Unlocated.expr e' = Unlocated.expr e) :
    ReadsBack e := by
  have hbase := (ReadsAtom.of_token h).base (List.cons_ne_nil k [])
  rw [← hbare] at hbase
  exact .of_base hoperation hbase ⟨k, [], hbare, hk⟩

theorem atom_ident (n : Nat) (name : String) (pos : Pos) {rest : List Token}
    (h : kind rest ≠ .symbol .lbrace) :
    atom (n + 1) (⟨.ident name, pos⟩ :: rest) = .ok (.ident name (some (Loc.ofPos pos)), rest) := by
  rw [atom, accept_of_kind_ne h]

/-! ### Infix operators -/

theorem ofSymbol?_sign (op : BinaryOp) : Infix.ofSymbol? op.sign = some (.op op) := by
  cases op <;> rfl

theorem follows_sign (op : BinaryOp) (pos : Pos) (ts : List Token) :
    Follows (op.precedence + 1) (⟨.symbol op.sign, pos⟩ :: ts) := by
  constructor
  · intro s hs heq
    obtain rfl := TokenKind.symbol.inj heq
    revert hs
    cases op <;> decide
  · intro sign hsign
    obtain rfl := Option.some.inj ((ofSymbol?_sign op).symm.trans hsign)
    exact Nat.lt_succ_self _

/-- The loop takes an operator that binds strongly enough, with its right operand. -/
theorem infixTail_sign {op : BinaryOp} {level n : Nat} (hlevel : level ≤ op.precedence)
    {left right : Expr} {pos : Pos} {ts rest : List Token}
    (h : expression n (op.precedence + 1) ts = .ok (right, rest)) :
    infixTail (n + 1) level left (⟨.symbol op.sign, pos⟩ :: ts) =
      infixTail n level (.binary op left right (left.loc? <|> some (Loc.ofPos pos))) rest := by
  have hsign : Infix.ofToken? (.symbol op.sign) = some (.op op) := ofSymbol?_sign op
  unfold BinaryOp.precedence at hlevel h
  rw [infixTail, hsign]
  dsimp only
  rw [if_neg (Nat.not_lt.mpr hlevel), h]
  rfl

theorem ReadsBack.binary {op : BinaryOp} {left right : Expr} {loc : Option Loc}
    (hleft : ReadsBack left) (hright : ReadsBack right) : ReadsBack (.binary op left right loc) := by
  refine .of_chain fun level hlevel => ?_
  intro ts rest n level' hlevel' hts hrest hn
  obtain ⟨lefts, behind, rfl, hlefts, hbehind⟩ := List.map_eq_append_iff.mp hts
  obtain ⟨pos, rights, rfl, hrights⟩ := map_kind_cons hbehind
  rw [List.length_append, List.length_cons] at hn
  -- the loop holds the left operand when it comes to the operator
  obtain ⟨m, left', hm, hsame, hchain⟩ := hleft.chain op.precedence (Nat.le_trans hlevel' hlevel)
    hlefts (follows_sign op pos (rights ++ rest)) (show 4 * lefts.length + 3 ≤ n by omega)
  cases m with
  | zero => omega
  | succ m =>
    have hfollows := hrest.mono (Nat.succ_le_succ hlevel)
    obtain ⟨right', hsame', hexpression⟩ :=
      hright.whole (op.precedence + 1) hrights hfollows (show 4 * rights.length + 4 ≤ m by omega)
    have hloop := hchain.trans (infixTail_sign (Nat.le_trans hlevel' hlevel) hexpression)
    rw [List.append_assoc, List.cons_append, List.length_append, List.length_cons]
    refine ⟨m, _, by omega, ?_, hloop⟩
    rw [Unlocated.expr, Unlocated.expr, hsame, hsame']

/-! ### Signs before an operand -/

/-- The tokens that an expression starts with. -/
def startsOperand : TokenKind → Bool
  | .symbol .bang | .symbol .minus | .symbol .amp => true
  | k => startsAtom k

theorem startsOperand_of_startsAtom {k : TokenKind} (h : startsAtom k) : startsOperand k := by
  unfold startsOperand
  split
  · rfl
  · rfl
  · rfl
  · exact h

theorem parens_head {needed : Bool} {kinds : List TokenKind} {p : TokenKind → Bool}
    (hparen : p (.symbol .lparen)) (h : needed = false → ∃ k ks, kinds = k :: ks ∧ p k) :
    ∃ k ks, Expr.parens needed kinds = k :: ks ∧ p k := by
  cases needed with
  | true => exact ⟨_, _, rfl, hparen⟩
  | false => exact h rfl

theorem append_head {kinds : List TokenKind} {p : TokenKind → Bool}
    (h : ∃ k ks, kinds = k :: ks ∧ p k) (kinds' : List TokenKind) :
    ∃ k ks, kinds ++ kinds' = k :: ks ∧ p k := by
  obtain ⟨k, ks, rfl, hk⟩ := h
  exact ⟨k, ks ++ kinds', rfl, hk⟩

/-- An expression starts as an operand does, and without operators as an operand without signs. -/
theorem bare_head (h : e.Printable) :
    (∃ k ks, e.bare = k :: ks ∧ startsOperand k) ∧
      (e.isOperation = false → ∃ k ks, e.bare = k :: ks ∧ startsAtom k) := by
  have hatom : ∀ e : Expr, (∃ k ks, e.bare = k :: ks ∧ startsAtom k) →
      (∃ k ks, e.bare = k :: ks ∧ startsOperand k) ∧
        (e.isOperation = false → ∃ k ks, e.bare = k :: ks ∧ startsAtom k) := by
    intro e he
    refine ⟨?_, fun _ => he⟩
    obtain ⟨k, ks, hbare, hk⟩ := he
    exact ⟨k, ks, hbare, startsOperand_of_startsAtom hk⟩
  induction h with
  | number | float | string | char | ident => exact hatom _ ⟨_, _, rfl, rfl⟩
  | @bool value => exact hatom _ ⟨_, _, rfl, by cases value <;> rfl⟩
  | binary _ _ ihleft _ =>
    refine ⟨append_head (parens_head rfl fun _ => ihleft.1) _, fun h => ?_⟩
    cases h
  | @unary op _ _ _ _ =>
    refine ⟨append_head ?_ _, fun h => ?_⟩
    · cases op <;> exact ⟨_, _, rfl, rfl⟩
    · cases h
  | call _ _ _ ih _ | member _ ih | index _ _ ih _ =>
    exact hatom _ (append_head (parens_head rfl ih.2) _)

theorem unary_signs {op : UnaryOp} {signs ts rest : List Token} {n : Nat} {operand : Expr}
    (hsigns : signs.map Token.kind = op.signs) (hmut : kind ts ≠ .symbol .kwMut)
    (h : unary n ts = .ok (operand, rest)) :
    ∃ loc, unary (n + 1) (signs ++ ts) = .ok (.unary op operand loc, rest) := by
  cases op with
  | not | neg =>
    obtain ⟨pos, _, rfl, hnil⟩ := map_kind_cons hsigns
    obtain rfl := List.map_eq_nil_iff.mp hnil
    refine ⟨some (Loc.ofPos pos), ?_⟩
    rw [List.singleton_append, unary, h]
    rfl
  | ref =>
    obtain ⟨pos, _, rfl, hnil⟩ := map_kind_cons hsigns
    obtain rfl := List.map_eq_nil_iff.mp hnil
    refine ⟨some (Loc.ofPos pos), ?_⟩
    rw [List.singleton_append, unary, accept_of_kind_ne hmut]
    dsimp only
    rw [h]
    rfl
  | refMut =>
    obtain ⟨pos, _, rfl, htail⟩ := map_kind_cons hsigns
    obtain ⟨pos', _, rfl, hnil⟩ := map_kind_cons htail
    obtain rfl := List.map_eq_nil_iff.mp hnil
    refine ⟨some (Loc.ofPos pos), ?_⟩
    rw [List.cons_append, List.singleton_append, unary, accept_symbol]
    dsimp only
    rw [h]
    rfl

theorem ReadsBack.unary {op : UnaryOp} {operand : Expr} {loc : Option Loc}
    (hprintable : operand.Printable) (h : ReadsBack operand) : ReadsBack (.unary op operand loc) := by
  refine .of_operand rfl rfl ?_
  intro ts rest n hts hrest hn
  obtain ⟨signs, inner, rfl, hsigns, hinner⟩ := List.map_eq_append_iff.mp hts
  have hmut : kind (inner ++ rest) ≠ .symbol .kwMut := by
    obtain ⟨k, ks, hhead, hk⟩ : ∃ k ks, Expr.parens operand.isBinary operand.bare = k :: ks ∧
        startsOperand k := parens_head rfl fun _ => (bare_head hprintable).1
    rw [hhead] at hinner
    obtain ⟨pos, _, rfl, -⟩ := map_kind_cons hinner
    rintro rfl
    cases hk
  have hlength : 0 < signs.length := by
    rw [← @List.length_map _ _ _ Token.kind, hsigns]
    cases op <;> decide
  rw [List.length_append] at hn
  cases n with
  | zero => omega
  | succ n =>
    obtain ⟨operand', hsame, hunary⟩ :=
      h.operand hinner hrest (show 4 * inner.length + 3 ≤ n by omega)
    obtain ⟨loc', hread⟩ := unary_signs hsigns hmut hunary
    refine ⟨_, ?_, (congrArg _ (List.append_assoc ..)).trans hread⟩
    rw [Unlocated.expr, Unlocated.expr, hsame]

/-! ### Suffixes -/

/-- One suffix behind an operand takes the loop over suffixes one turn further. -/
theorem ReadsBase.suffix {object : Expr} {k : TokenKind} {behind : List TokenKind}
    (h : ReadsBase object kinds) (hk : k ≠ .symbol .lbrace)
    (hsuffix : ∀ ⦃object' ts rest n⦄, Unlocated.expr object' = Unlocated.expr object →
      ts.map Token.kind = k :: behind → 4 * ts.length + 1 ≤ n →
        ∃ e', Unlocated.expr e' = Unlocated.expr e ∧
          suffixes (n + 1) object' (ts ++ rest) = suffixes n e' rest) :
    ReadsBase e (kinds ++ k :: behind) := by
  intro ts rest n hts hrest hn
  obtain ⟨front, back, rfl, hfront, hback⟩ := List.map_eq_append_iff.mp hts
  have hlbrace : kind (back ++ rest) ≠ .symbol .lbrace := by
    obtain ⟨pos, _, rfl, -⟩ := map_kind_cons hback
    exact hk
  have hlength : 0 < back.length := by
    rw [← @List.length_map _ _ _ Token.kind, hback]
    exact Nat.succ_pos _
  rw [List.length_append] at hn
  obtain ⟨m, object', hm, hsame, hprimary⟩ :=
    h hfront hlbrace (show 4 * front.length + 2 ≤ n by omega)
  cases m with
  | zero => omega
  | succ m =>
    obtain ⟨e', he, hloop⟩ := hsuffix hsame hback (show 4 * back.length + 1 ≤ m by omega)
    rw [List.append_assoc, List.length_append]
    exact ⟨m, e', by omega, he, hprimary.trans hloop⟩

theorem ReadsBack.of_suffix {object : Expr} {k : TokenKind} {behind : List TokenKind}
    (hprintable : e.Printable) (hoperation : e.isOperation = false) (h : ReadsBack object)
    (hbare : e.bare = Expr.parens object.isOperation object.bare ++ k :: behind)
    (hk : k ≠ .symbol .lbrace)
    (hsuffix : ∀ ⦃object' ts rest n⦄, Unlocated.expr object' = Unlocated.expr object →
      ts.map Token.kind = k :: behind → 4 * ts.length + 1 ≤ n →
        ∃ e', Unlocated.expr e' = Unlocated.expr e ∧
          suffixes (n + 1) object' (ts ++ rest) = suffixes n e' rest) : ReadsBack e := by
  refine .of_base hoperation ?_ ((bare_head hprintable).2 hoperation)
  rw [hbare]
  exact h.base.suffix hk hsuffix

theorem ReadsBack.member {object : Expr} {property : String} {loc : Option Loc}
    (hprintable : object.Printable) (h : ReadsBack object) :
    ReadsBack (.member object property loc) := by
  refine .of_suffix (.member hprintable) rfl h rfl (by simp) ?_
  intro object' ts rest n hsame hts hn
  obtain ⟨pos, _, rfl, htail⟩ := map_kind_cons hts
  obtain ⟨pos', _, rfl, hnil⟩ := map_kind_cons htail
  obtain rfl := List.map_eq_nil_iff.mp hnil
  refine ⟨.member object' property object'.loc?, ?_, ?_⟩
  · rw [Unlocated.expr, Unlocated.expr, hsame]
  · rw [List.cons_append, suffixes]
    rfl

theorem ReadsBack.index {target position : Expr} {loc : Option Loc} (htarget : target.Printable)
    (hposition : position.Printable) (h : ReadsBack target) (h' : ReadsBack position) :
    ReadsBack (.index target position loc) := by
  refine .of_suffix (.index htarget hposition) rfl h rfl (by simp) ?_
  intro target' ts rest n hsame hts hn
  obtain ⟨pos, _, rfl, htail⟩ := map_kind_cons hts
  obtain ⟨inner, closing, rfl, hinner, hclosing⟩ := List.map_eq_append_iff.mp htail
  obtain ⟨pos', _, rfl, hnil⟩ := map_kind_cons hclosing
  obtain rfl := List.map_eq_nil_iff.mp hnil
  rw [List.length_cons, List.length_append, List.length_singleton] at hn
  have hfollows : Follows 0 (⟨.symbol .rbracket, pos'⟩ :: rest) := follows_symbol rfl 0 pos' rest
  rw [← Expr.print_zero] at hinner
  obtain ⟨position', hsame', hexpression⟩ :=
    h'.whole 0 hinner hfollows (show 4 * inner.length + 4 ≤ n by omega)
  refine ⟨.index target' position' (target'.loc? <|> some (Loc.ofPos pos)), ?_, ?_⟩
  · rw [Unlocated.expr, Unlocated.expr, hsame, hsame']
  · rw [List.cons_append, List.append_assoc, List.singleton_append, suffixes, hexpression]
    dsimp only [bind, Except.bind]
    rw [expect_symbol]

/-! ### Calls -/

theorem arguments_read {args : List Expr} (hargs : ∀ e ∈ args, ReadsBack e) (hne : args ≠ [])
    {ts : List Token} (hts : ts.map Token.kind = Expr.bareArgs args) {n : Nat}
    (hn : 4 * ts.length + 5 ≤ n) (pos : Pos) (rest : List Token) :
    ∃ args', Unlocated.exprs args' = Unlocated.exprs args ∧
      arguments n (ts ++ ⟨.symbol .rparen, pos⟩ :: rest) =
        .ok (args', ⟨.symbol .rparen, pos⟩ :: rest) := by
  induction args generalizing ts n with
  | nil => exact absurd rfl hne
  | cons e args ih =>
    have he := hargs e List.mem_cons_self
    cases n with
    | zero => omega
    | succ n =>
      cases args with
      | nil =>
        rw [Expr.bareArgs, ← Expr.print_zero] at hts
        have hfollows : Follows 0 (⟨.symbol .rparen, pos⟩ :: rest) := follows_symbol rfl 0 pos rest
        obtain ⟨e', hsame, hexpression⟩ :=
          he.whole 0 hts hfollows (show 4 * ts.length + 4 ≤ n by omega)
        refine ⟨[e'], congrArg (fun e => [e]) hsame, ?_⟩
        rw [arguments, hexpression]
        rfl
      | cons next args =>
        obtain ⟨front, back, rfl, hfront, hback⟩ := List.map_eq_append_iff.mp hts
        obtain ⟨pos', back, rfl, htail⟩ := map_kind_cons hback
        rw [← Expr.print_zero] at hfront
        rw [List.length_append, List.length_cons] at hn
        have hfollows := @follows_symbol .comma rfl 0 pos' (back ++ ⟨.symbol .rparen, pos⟩ :: rest)
        obtain ⟨e', hsame, hexpression⟩ :=
          he.whole 0 hfront hfollows (show 4 * front.length + 4 ≤ n by omega)
        obtain ⟨args', hsame', harguments⟩ := ih (fun e he => hargs e (List.mem_cons_of_mem _ he))
          (List.cons_ne_nil _ _) htail (show 4 * back.length + 5 ≤ n by omega)
        refine ⟨e' :: args', ?_, ?_⟩
        · rw [Unlocated.exprs, Unlocated.exprs, hsame, hsame']
        · rw [List.append_assoc, List.cons_append, arguments, hexpression]
          dsimp only [bind, Except.bind]
          rw [accept_symbol]
          dsimp only
          rw [harguments]

theorem bareArgs_head (h : e.Printable) (args : List Expr) :
    ∃ k ks, Expr.bareArgs (e :: args) = k :: ks ∧ startsOperand k := by
  cases args with
  | nil => exact (bare_head h).1
  | cons => exact append_head (bare_head h).1 _

theorem startsWith_rparen {k : TokenKind} (h : startsOperand k) {pos : Pos} {ts : List Token} :
    startsWith .rparen (⟨k, pos⟩ :: ts) = false := by
  unfold startsWith
  split
  · rename_i heq
    obtain ⟨hhead, -⟩ := List.cons.inj heq
    obtain ⟨rfl, -⟩ := Token.mk.inj hhead
    refine decide_eq_false ?_
    rintro rfl
    cases h
  · rfl

theorem callOf_same {callee callee' : Expr} {args args' : List Expr} {loc : Option Loc}
    (hmember : ∀ object property loc, callee ≠ .member object property loc)
    (hcallee : Unlocated.expr callee' = Unlocated.expr callee)
    (hargs : Unlocated.exprs args' = Unlocated.exprs args) :
    Unlocated.expr (callOf callee' args') = Unlocated.expr (.call callee args loc) := by
  have hcall : callOf callee' args' = .call callee' args' callee'.loc? := by
    unfold callOf
    split
    · rename_i object property place
      cases callee with
      | member => exact absurd rfl (hmember _ _ _)
      | _ => cases hcallee
    · rfl
  rw [hcall, Unlocated.expr, Unlocated.expr, hcallee, hargs]

theorem ReadsBack.call {callee : Expr} {args : List Expr} {loc : Option Loc}
    (hcallee : callee.Printable) (hargs : ∀ e ∈ args, e.Printable)
    (hmember : ∀ object property loc, callee ≠ .member object property loc) (h : ReadsBack callee)
    (h' : ∀ e ∈ args, ReadsBack e) : ReadsBack (.call callee args loc) := by
  refine .of_suffix (.call hcallee hargs hmember) rfl h rfl (by simp) ?_
  intro callee' ts rest n hsame hts hn
  obtain ⟨pos, _, rfl, htail⟩ := map_kind_cons hts
  obtain ⟨inner, closing, rfl, hinner, hclosing⟩ := List.map_eq_append_iff.mp htail
  obtain ⟨pos', _, rfl, hnil⟩ := map_kind_cons hclosing
  obtain rfl := List.map_eq_nil_iff.mp hnil
  rw [List.length_cons, List.length_append, List.length_singleton] at hn
  rw [List.cons_append, List.append_assoc, List.singleton_append, suffixes]
  cases args with
  | nil =>
    obtain rfl := List.map_eq_nil_iff.mp hinner
    refine ⟨callOf callee' [], callOf_same hmember hsame rfl, ?_⟩
    have hstart : startsWith .rparen (⟨.symbol .rparen, pos'⟩ :: rest) = true := rfl
    rw [List.nil_append, hstart, if_pos rfl]
    dsimp only [bind, Except.bind]
    rw [expect_symbol]
  | cons first args =>
    have hstart : startsWith .rparen (inner ++ ⟨.symbol .rparen, pos'⟩ :: rest) = false := by
      obtain ⟨k, ks, hhead, hk⟩ := bareArgs_head (hargs first List.mem_cons_self) args
      rw [hhead] at hinner
      obtain ⟨pos, _, rfl, -⟩ := map_kind_cons hinner
      exact startsWith_rparen hk
    obtain ⟨args', hsame', harguments⟩ := arguments_read h' (List.cons_ne_nil _ _) hinner
      (show 4 * inner.length + 5 ≤ n by omega) pos' rest
    refine ⟨callOf callee' args', callOf_same hmember hsame hsame', ?_⟩
    rw [hstart, if_neg Bool.false_ne_true, harguments]
    dsimp only [bind, Except.bind]
    rw [expect_symbol]

/-! ### Whole expressions -/

theorem readsBack (h : e.Printable) : ReadsBack e := by
  induction h with
  | number | float | string | char => exact .of_token rfl rfl rfl fun _ _ _ _ => ⟨_, rfl, rfl⟩
  | @bool value =>
    cases value <;> exact .of_token rfl rfl rfl fun _ _ _ _ => ⟨_, rfl, rfl⟩
  | @ident name =>
    exact .of_token rfl rfl rfl fun n pos rest hrest => ⟨_, atom_ident n name pos hrest, rfl⟩
  | binary _ _ ihleft ihright => exact ihleft.binary ihright
  | unary h ih => exact .unary h ih
  | call hcallee hargs hmember ihcallee ihargs => exact .call hcallee hargs hmember ihcallee ihargs
  | member h ih => exact .member h ih
  | index htarget hposition ihtarget ihposition => exact .index htarget hposition ihtarget ihposition

end Parse

/-- Parsing inverts printing. At every level, the tokens that an expression is printed as are read back
into that expression, at other locations, and whatever may follow is left, with at least the allowance
for that many tokens. -/
theorem expression_print {e : Expr} (h : e.Printable) (level : Nat) {ts rest : List Token}
    (hts : ts.map Token.kind = e.print level) (hrest : Parse.Follows level rest) {n : Nat}
    (hn : Parse.allowance ts.length ≤ n) :
    ∃ e', Parse.expression n level (ts ++ rest) = .ok (e', rest) ∧
      Unlocated.expr e' = Unlocated.expr e := by
  unfold Parse.allowance at hn
  obtain ⟨e', hsame, hexpression⟩ :=
    (Parse.readsBack h).whole level hts hrest (show 4 * ts.length + 4 ≤ n by omega)
  exact ⟨e', hexpression, hsame⟩

namespace Parenthesised

/-- A sum that needs parentheses times a negated suffix chain that needs none. -/
def product : Expr :=
  .binary .mul (.binary .add (.ident "a" none) (.ident "b" none) none)
    (.unary .neg (.index (.call (.ident "f" none) [.member (.ident "x" none) "y" none] none)
      (.number 0 none none) none) none) none

/-- The tokens of `(a + b) * -f(x.y)[0]`. -/
def tokens : List Token :=
  [⟨.symbol .lparen, ⟨1, 1⟩⟩, ⟨.ident "a", ⟨1, 2⟩⟩, ⟨.symbol .plus, ⟨1, 4⟩⟩, ⟨.ident "b", ⟨1, 6⟩⟩,
    ⟨.symbol .rparen, ⟨1, 7⟩⟩, ⟨.symbol .star, ⟨1, 9⟩⟩, ⟨.symbol .minus, ⟨1, 11⟩⟩,
    ⟨.ident "f", ⟨1, 12⟩⟩, ⟨.symbol .lparen, ⟨1, 13⟩⟩, ⟨.ident "x", ⟨1, 14⟩⟩, ⟨.symbol .dot, ⟨1, 15⟩⟩,
    ⟨.ident "y", ⟨1, 16⟩⟩, ⟨.symbol .rparen, ⟨1, 17⟩⟩, ⟨.symbol .lbracket, ⟨1, 18⟩⟩,
    ⟨.number 0 none, ⟨1, 19⟩⟩, ⟨.symbol .rbracket, ⟨1, 20⟩⟩]

/-- The weaker operator in `|| c` is left alone. -/
def rest : List Token :=
  [⟨.symbol .orOr, ⟨1, 22⟩⟩, ⟨.ident "c", ⟨1, 25⟩⟩]

theorem printable_product : product.Printable := by
  refine .binary (.binary .ident .ident) (.unary (.index (.call .ident ?_ ?_) .number))
  · intro e he
    obtain rfl := List.mem_singleton.mp he
    exact .member .ident
  · intro object property loc h
    cases h

theorem follows_rest : Parse.Follows 2 rest := by
  constructor
  · intro s hs heq
    obtain rfl := TokenKind.symbol.inj heq
    revert hs
    decide
  · intro sign hsign
    obtain rfl := Option.some.inj hsign
    decide

end Parenthesised

open Parenthesised in
/-- The product is read back up to the weaker operator behind it. -/
theorem expression_print_product :
    product.Printable ∧ tokens.map Token.kind = product.print 2 ∧ Parse.Follows 2 rest ∧
      ∃ e, Parse.expression (Parse.allowance tokens.length) 2 (tokens ++ rest) = .ok (e, rest) ∧
        Unlocated.expr e = Unlocated.expr product :=
  ⟨printable_product, rfl, follows_rest,
    expression_print printable_product 2 rfl follows_rest (Nat.le_refl _)⟩

end TuffSafety
