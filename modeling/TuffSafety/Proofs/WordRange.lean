import TuffSafety.Proofs.ExpressionSafety

/-!
# Numbers of 32 bits

Numbers are computed from literals and variables of 32 bits. An expression that is accepted has a
number as its value, and so has every part of it that is evaluated. That these numbers have 32 bits is
proved by the checker for sums, differences and products, and follows for remainders. A literal may be
any number, though, and there is one number of 32 bits whose negation and whose quotient by `-1` is
not one. The numbers stay within 32 bits exactly if none of the three comes up; the type of the result
is `I32` in any case.
-/
namespace TuffSafety

/-- The numbers of 32 bits. -/
def Word (n : Int) : Prop :=
  Bound.int32.1 ≤ n ∧ n ≤ Bound.int32.2

instance (n : Int) : Decidable (Word n) :=
  inferInstanceAs (Decidable (_ ∧ _))

namespace Expr

/-! ### The expressions and what is evaluated of them -/

inductive Kind where
  | number
  | truth

/-- Numbers made of literals and of the given names, and the conditions that choose between them. -/
inductive OfKind (names : String → Prop) : Kind → Expr → Prop where
  | literal {value loc} : OfKind names .number (.number value none loc)
  | ident {name loc} (h : names name) : OfKind names .number (.ident name loc)
  | neg {e loc} (he : OfKind names .number e) : OfKind names .number (.unary .neg e loc)
  | arithmetic {op l r loc} (hop : op.isLogical = false) (hcmp : op.isComparison = false)
      (hl : OfKind names .number l) (hr : OfKind names .number r) :
      OfKind names .number (.binary op l r loc)
  | ite {cond t e loc} (hc : OfKind names .truth cond) (ht : OfKind names .number t)
      (he : OfKind names .number e) : OfKind names .number (.ite cond t (some e) loc)
  | bool {value loc} : OfKind names .truth (.bool value loc)
  | comparison {op l r loc} (hop : op.isLogical = false) (hcmp : op.isComparison = true)
      (hl : OfKind names .number l) (hr : OfKind names .number r) :
      OfKind names .truth (.binary op l r loc)
  | not {e loc} (he : OfKind names .truth e) : OfKind names .truth (.unary .not e loc)
  | logical {op l r loc} (hop : op.isLogical = true) (hl : OfKind names .truth l)
      (hr : OfKind names .truth r) : OfKind names .truth (.binary op l r loc)

theorem OfKind.plain {names : String → Prop} {kind : Kind} {e : Expr} (he : e.OfKind names kind) :
    e.Plain fun _ => False := by
  induction he with
  | literal => exact .number fun _ h => by cases h
  | ident => exact .ident
  | neg _ ih => exact .neg ih
  | arithmetic _ _ _ _ ihl ihr | comparison _ _ _ _ ihl ihr | logical _ _ _ ihl ihr =>
    exact .binary ihl ihr
  | ite _ _ _ ihc iht ihe => exact .ite ihc iht ihe
  | bool => exact .bool
  | not _ ih => exact .not ih

/-- The parts whose values are asked for in an evaluation. -/
inductive Evaluates (env : Env) : Expr → Expr → Prop where
  | self {e} : Evaluates env e e
  | operand {op e loc part} (h : Evaluates env e part) : Evaluates env (.unary op e loc) part
  | left {op l r loc part} (h : Evaluates env l part) : Evaluates env (.binary op l r loc) part
  | right {op l r loc part} (hop : op.isLogical = false) (h : Evaluates env r part) :
      Evaluates env (.binary op l r loc) part
  | andRight {l r loc part} (hl : l.eval env = .ok (.bool true)) (h : Evaluates env r part) :
      Evaluates env (.binary .and l r loc) part
  | orRight {l r loc part} (hl : l.eval env = .ok (.bool false)) (h : Evaluates env r part) :
      Evaluates env (.binary .or l r loc) part
  | condition {cond t e loc part} (h : Evaluates env cond part) :
      Evaluates env (.ite cond t e loc) part
  | thenBranch {cond t e loc part} (hc : cond.eval env = .ok (.bool true))
      (h : Evaluates env t part) : Evaluates env (.ite cond t e loc) part
  | elseBranch {cond t e loc part} (hc : cond.eval env = .ok (.bool false))
      (h : Evaluates env e part) : Evaluates env (.ite cond t (some e) loc) part

/-- The part has a value of more than 32 bits, though what it is computed from has none. -/
inductive Oversteps (env : Env) : Expr → Prop where
  | literal {value suffix loc} (h : ¬ Word value.toInt) :
      Oversteps env (.number value suffix loc)
  | negation {e loc} (h : e.eval env = .ok (.int Bound.int32.1)) : Oversteps env (.unary .neg e loc)
  | quotient {l r loc} (hl : l.eval env = .ok (.int Bound.int32.1))
      (hr : r.eval env = .ok (.int (-1))) : Oversteps env (.binary .div l r loc)

namespace Evaluates

variable {env : Env} {e mid part : Expr}

theorem trans (h : e.Evaluates env mid) (h' : mid.Evaluates env part) : e.Evaluates env part := by
  induction h with
  | self => exact h'
  | operand _ ih => exact .operand (ih h')
  | left _ ih => exact .left (ih h')
  | right hop _ ih => exact .right hop (ih h')
  | andRight hl _ ih => exact .andRight hl (ih h')
  | orRight hl _ ih => exact .orRight hl (ih h')
  | condition _ ih => exact .condition (ih h')
  | thenBranch hc _ ih => exact .thenBranch hc (ih h')
  | elseBranch hc _ ih => exact .elseBranch hc (ih h')

theorem ofKind (h : e.Evaluates env part) {names : String → Prop} {kind : Kind}
    (he : e.OfKind names kind) : ∃ kind', part.OfKind names kind' := by
  induction h generalizing kind with
  | self => exact ⟨kind, he⟩
  | operand _ ih =>
    cases he with
    | neg he | not he => exact ih he
  | left _ ih =>
    cases he with
    | arithmetic _ _ hl _ | comparison _ _ hl _ | logical _ hl _ => exact ih hl
  | right _ _ ih | andRight _ _ ih | orRight _ _ ih =>
    cases he with
    | arithmetic _ _ _ hr | comparison _ _ _ hr | logical _ _ hr => exact ih hr
  | condition _ ih =>
    cases he with
    | ite hc _ _ => exact ih hc
  | thenBranch _ _ ih =>
    cases he with
    | ite _ ht _ => exact ih ht
  | elseBranch _ _ ih =>
    cases he with
    | ite _ _ he => exact ih he

end Evaluates

end Expr

/-! ### Values of parts -/

namespace Value

/-- A comparison of numbers has an outcome. -/
theorem integer_comparison {op : BinaryOp} (hcmp : op.isComparison = true) (a b : Int) :
    ∃ truth, integer op a b = .ok (.bool truth) := by
  cases op with
  | eq | ne | lt | le | gt | ge => exact ⟨_, rfl⟩
  | add | sub | mul | div | mod | and | or => cases hcmp

theorem fit_eq_ok {n : Int} {v : Value} (h : fit n = .ok v) :
    v = .int n ∧ Word n := by
  unfold fit at h
  split at h
  · cases h
    exact ⟨rfl, ‹_›⟩
  · cases h

/-- The operations that have numbers for results have numbers for operands. -/
theorem operate_eq_int {op : BinaryOp} {x y : Value} {n : Int} (h : operate op x y = .ok (.int n)) :
    ∃ a b, x = .int a ∧ y = .int b ∧ integer op a b = .ok (.int n) := by
  unfold operate at h
  split at h
  · exact ⟨_, _, rfl, rfl, h⟩
  · cases h
  · cases h
  · cases h

theorem natAbs_remainder_lt (a : Int) {b : Int} (hb : b ≠ 0) : (a.tmod b).natAbs < b.natAbs := by
  rw [Int.natAbs_tmod]
  exact Nat.mod_lt _ (Int.natAbs_pos.mpr hb)

theorem quotient_word {a b : Int} (ha : Word a) (hb : b ≠ 0) (hno : ¬ (a = Bound.int32.1 ∧ b = -1)) :
    Word (a.tdiv b) := by
  have habs := Int.natAbs_tdiv_le_natAbs a b
  have hsum := Int.mul_tdiv_add_tmod a b
  have hrest := natAbs_remainder_lt a hb
  simp only [Word, Bound.int32] at ha hno ⊢
  refine ⟨by omega, ?_⟩
  -- Only `-2 ^ 31` is far enough from zero, and only `-1` leaves it there.
  refine Classical.byContradiction fun hout => ?_
  have hquotient : a.tdiv b = 0x80000000 := by omega
  rw [hquotient] at hsum
  omega

theorem remainder_word {a b : Int} (hb : Word b) (hzero : b ≠ 0) : Word (a.tmod b) := by
  have hrest := natAbs_remainder_lt a hzero
  simp only [Word, Bound.int32] at hb ⊢
  omega

/-- Of the operations on numbers of 32 bits only one division leads out of them. -/
theorem integer_word {op : BinaryOp} {a b n : Int} (h : integer op a b = .ok (.int n)) (ha : Word a)
    (hb : Word b) (hno : ¬ (op = .div ∧ a = Bound.int32.1 ∧ b = -1)) : Word n := by
  have hfit : ∀ m, fit m = .ok (.int n) → Word n := by
    intro m hm
    obtain ⟨heq, hword⟩ := fit_eq_ok hm
    cases heq
    exact hword
  cases op with
  | add | sub | mul => exact hfit _ h
  | div =>
    rw [integer] at h
    split at h
    · cases h
    · rename_i hzero
      cases h
      exact quotient_word ha hzero fun hleast => hno ⟨rfl, hleast⟩
  | mod =>
    rw [integer] at h
    split at h
    · cases h
    · rename_i hzero
      cases h
      exact remainder_word hb hzero
  | eq | ne | lt | le | gt | ge | and | or => cases h

/-- Any other operation on numbers gives a number or crashes. -/
theorem integer_arithmetic {op : BinaryOp} (hop : op.isLogical = false)
    (hcmp : op.isComparison = false) (a b : Int) :
    (∃ n, integer op a b = .ok (.int n)) ∨ ∃ crash, integer op a b = .error (.crash crash) := by
  have hfit : ∀ n, (∃ m, fit n = .ok (.int m)) ∨ ∃ crash, fit n = .error (.crash crash) := by
    intro n
    unfold fit
    split
    · exact .inl ⟨n, rfl⟩
    · exact .inr ⟨.overflow, rfl⟩
  cases op with
  | add | sub | mul => exact hfit _
  | div | mod =>
    rw [integer]
    split
    · exact .inr ⟨.zeroDivisor, rfl⟩
    · exact .inl ⟨_, rfl⟩
  | and | or => cases hop
  | eq | ne | lt | le | gt | ge => cases hcmp

end Value

namespace Expr

variable {env : Env} {cond l r t e part : Expr} {loc : Option Loc} {op : BinaryOp} {v : Value}

theorem eval_left_ok (h : (binary op l r loc).eval env = .ok v) : ∃ a, l.eval env = .ok a := by
  cases hop : op.isLogical with
  | false =>
    obtain ⟨a, _, ha, _⟩ := eval_binary_ok hop h
    exact ⟨a, ha⟩
  | true =>
    cases op <;> cases hop
    · rcases eval_and_ok h with ⟨hl, _⟩ | ⟨hl, _⟩ <;> exact ⟨_, hl⟩
    · rcases eval_or_ok h with ⟨hl, _⟩ | ⟨hl, _⟩ <;> exact ⟨_, hl⟩

theorem eval_condition_ok {otherwise : Option Expr} (h : (ite cond t otherwise loc).eval env = .ok v) :
    ∃ b, cond.eval env = .ok (.bool b) := by
  cases otherwise with
  | none => cases h
  | some e => rcases eval_ite_ok h with ⟨hc, _⟩ | ⟨hc, _⟩ <;> exact ⟨_, hc⟩

/-- A value can only be found through values of the parts that are evaluated. -/
theorem Evaluates.eval_ok (hp : e.Evaluates env part) (h : e.eval env = .ok v) :
    ∃ w, part.eval env = .ok w := by
  induction hp generalizing v with
  | self => exact ⟨v, h⟩
  | @operand op _ _ _ _ ih =>
    cases op with
    | neg =>
      obtain ⟨n, hn, _⟩ := eval_neg_ok h
      exact ih hn
    | not =>
      obtain ⟨b, hb, _⟩ := eval_not_ok h
      exact ih hb
    | ref | refMut => cases h
  | left _ ih =>
    obtain ⟨a, ha⟩ := eval_left_ok h
    exact ih ha
  | right hop _ ih =>
    obtain ⟨_, b, _, hb, _⟩ := eval_binary_ok hop h
    exact ih hb
  | andRight hl _ ih =>
    rcases eval_and_ok h with ⟨hl', _⟩ | ⟨_, b, hb, _⟩
    · cases hl.symm.trans hl'
    · exact ih hb
  | orRight hl _ ih =>
    rcases eval_or_ok h with ⟨hl', _⟩ | ⟨_, b, hb, _⟩
    · cases hl.symm.trans hl'
    · exact ih hb
  | condition _ ih =>
    obtain ⟨b, hb⟩ := eval_condition_ok h
    exact ih hb
  | @thenBranch _ _ otherwise _ _ hc _ ih =>
    cases otherwise with
    | none => cases h
    | some =>
      rcases eval_ite_ok h with ⟨_, ht⟩ | ⟨hc', _⟩
      · exact ih ht
      · cases hc.symm.trans hc'
  | elseBranch hc _ ih =>
    rcases eval_ite_ok h with ⟨hc', _⟩ | ⟨_, he⟩
    · cases hc.symm.trans hc'
    · exact ih he

/-! ### Leaving the range -/

theorem Oversteps.eval (h : e.Oversteps env) :
    ∃ n, e.eval env = .ok (.int n) ∧ ¬ Word n := by
  cases h with
  | literal h => exact ⟨_, rfl, h⟩
  | negation h =>
    refine ⟨-Bound.int32.1, ?_, by decide⟩
    rw [Expr.eval, h]
    rfl
  | quotient hl hr =>
    refine ⟨Bound.int32.1.tdiv (-1), ?_, by decide⟩
    rw [Expr.eval_binary rfl, hl, hr]
    rfl

/-- By induction on the expression: a number of more than 32 bits comes from a part that oversteps. -/
theorem OfKind.in_range {names : String → Prop} {kind : Kind} (he : e.OfKind names kind)
    (hnames : ∀ name n, names name → env name = some (.int n) → Word n)
    (hno : ∀ part, e.Evaluates env part → ¬ part.Oversteps env) {n : Int}
    (h : e.eval env = .ok (.int n)) : Word n := by
  induction he generalizing n with
  | literal =>
    cases h
    exact Decidable.byContradiction fun hout => hno _ .self (.literal hout)
  | @ident name loc hname =>
    rw [eval] at h
    split at h
    · cases h
      exact hnames name n hname ‹_›
    · cases h
  | neg _ ih =>
    obtain ⟨m, hm, hn⟩ := eval_neg_ok h
    cases hn
    have hin := ih (fun part hp => hno part (.operand hp)) hm
    have hleast : m ≠ Bound.int32.1 := fun hleast => hno _ .self (.negation (hleast ▸ hm))
    simp only [Word, Bound.int32] at hin hleast ⊢
    omega
  | arithmetic hop _ _ _ ihl ihr | comparison hop _ _ _ ihl ihr =>
    obtain ⟨x, y, hx, hy, hv⟩ := eval_binary_ok hop h
    obtain ⟨a, b, rfl, rfl, hn⟩ := Value.operate_eq_int hv
    have ha := ihl (fun part hp => hno part (.left hp)) hx
    have hb := ihr (fun part hp => hno part (.right hop hp)) hy
    refine Value.integer_word hn ha hb ?_
    rintro ⟨rfl, rfl, rfl⟩
    exact hno _ .self (.quotient hx hy)
  | ite _ _ _ _ iht ihe =>
    rcases eval_ite_ok h with ⟨hc, ht⟩ | ⟨hc, he⟩
    · exact iht (fun part hp => hno part (.thenBranch hc hp)) ht
    · exact ihe (fun part hp => hno part (.elseBranch hc hp)) he
  | bool => cases h
  | not =>
    obtain ⟨_, _, hn⟩ := eval_not_ok h
    cases hn
  | @logical op l r loc hop =>
    cases op <;> cases hop
    · rcases eval_and_ok h with ⟨_, hn⟩ | ⟨_, _, _, hn⟩ <;> cases hn
    · rcases eval_or_ok h with ⟨_, hn⟩ | ⟨_, _, _, hn⟩ <;> cases hn

end Expr

/-! ### What the checker accepts -/

/-- A binding of a number whose bounds lie within 32 bits. -/
structure Binding.IsWord (b : Binding) : Prop where
  name : b.current.name = "I32"
  notNullable : b.current.nullablePointer = none
  low : ∃ low, b.current.min = some low ∧ Bound.int32.1 ≤ low
  high : ∃ high, b.current.max = some high ∧ high ≤ Bound.int32.2

def Flow.HasWord (flow : Flow) (name : String) : Prop :=
  ∃ b, flow.scope.get? name = some b ∧ b.IsWord

theorem Binding.IsWord.word {b : Binding} (h : b.IsWord) {n : Int} (hn : b.current.Admits n) :
    Word n := by
  obtain ⟨low, hlow, hle⟩ := h.low
  obtain ⟨high, hhigh, hge⟩ := h.high
  exact ⟨Int.le_trans hle (hn.low low hlow), Int.le_trans (hn.high high hhigh) hge⟩

theorem TypeInfo.admits_widened_iff {t : TypeInfo} (hname : t.name = "I32") {n : Int} :
    t.widened.Admits n ↔ Word n := by
  rw [widened, hname]
  constructor
  · exact fun h => ⟨h.low _ rfl, h.high _ rfl⟩
  · rintro ⟨hlow, hhigh⟩
    refine ⟨?_, ?_, fun hzero => by cases hzero⟩
    · intro low heq
      cases heq
      exact hlow
    · intro high heq
      cases heq
      exact hhigh

namespace Checker

variable {c : Checker} {op : BinaryOp} {operand left right t : TypeInfo} {loc : Option Loc}

theorem negation_name (h : unary .neg operand loc = .ok t) (hname : operand.name = "I32") :
    t.name = "I32" := by
  rw [unary] at h
  split at h
  · cases h
    exact hname
  · split at h
    · cases h
      rw [TypeInfo.withBounds_name]
      exact hname
    · cases h

theorem arithmetic_name (h : c.arithmetic op left right loc = .ok t) (hl : left.name = "I32")
    (hr : right.name = "I32") : t.name = "I32" := by
  have hknown : (left.isUnknown || right.isUnknown) = false := by
    rw [TypeInfo.isUnknown, TypeInfo.isUnknown, hl, hr]
    rfl
  have hname : arithmeticName left right = "I32" := by
    rw [arithmeticName, if_pos hl, hr]
  rcases arithmetic_ok h with ⟨_, _, ⟨hunknown, _⟩ | rfl⟩ | ⟨_, _, ⟨hunknown, _⟩ | rfl⟩
  · rw [hknown] at hunknown
    cases hunknown
  · exact hname
  · rw [hknown] at hunknown
    cases hunknown
  · rw [TypeInfo.withBounds_name]
    exact hname

/-- An accepted operation on numbers gives a number that obeys the inferred type. -/
theorem arithmetic_value (hstrict : c.strict = true) (hop : op.isLogical = false)
    (hcmp : op.isComparison = false) (h : c.arithmetic op left right loc = .ok t)
    (hleft : left.name = "I32") (hright : right.name = "I32") {a b : Int} (ha : left.Admits a)
    (hb : right.Admits b) : ∃ n, Value.integer op a b = .ok (.int n) ∧ t.Admits n := by
  have hsafe : Safe t.Describes (Value.integer op a b) :=
    arithmetic_safe hstrict hop hcmp h (TypeInfo.describes_int (by rw [hleft]; rfl) ha)
      (TypeInfo.describes_int (by rw [hright]; rfl) hb)
  rcases Value.integer_arithmetic hop hcmp a b with ⟨n, hn⟩ | ⟨crash, hcrash⟩
  · rw [hn] at hsafe
    exact ⟨n, hn, hsafe.admits n rfl⟩
  · rw [hcrash] at hsafe
    exact hsafe.elim

end Checker

namespace Expr

variable {c : Checker} {names : String → Prop} {kind : Kind} {e : Expr} {ret : Option TypeInfo}
  {flow flow' : Flow} {t : TypeInfo} {env : Env}

theorem OfKind.name_eq (he : e.OfKind names kind) (hnames : ∀ name, names name → flow.HasWord name)
    (h : c.expr e ret flow = .ok (t, flow')) (hkind : kind = .number) : t.name = "I32" := by
  induction he generalizing flow t flow' with
  | literal =>
    rw [Checker.expr] at h
    cases h
    rfl
  | ident hname =>
    rw [Checker.expr] at h
    cases h
    obtain ⟨b, hb, hword⟩ := hnames _ hname
    rw [Checker.lookup_eq hb hword.notNullable]
    exact hword.name
  | neg _ ih =>
    obtain ⟨operand, hop, hu⟩ := Checker.expr_unary_ok h
    exact Checker.negation_name hu (ih hnames hop rfl)
  | arithmetic hop hcmp hl _ ihl ihr =>
    obtain ⟨left, mid, right, hl', hr', ⟨hcmp', _⟩ | ⟨_, ht⟩⟩ := Checker.expr_binary_ok hop h
    · rw [hcmp] at hcmp'
      cases hcmp'
    · obtain rfl := hl.plain.flow_eq hl'
      exact Checker.arithmetic_name ht (ihl hnames hl' rfl) (ihr hnames hr' rfl)
  | ite hc hth _ _ iht ihe =>
    rw [Checker.expr] at h
    obtain ⟨tested, mid, thenInfo, after, hc', ht, elseInfo, he, rfl⟩ := Checker.ifElse_ok h
    obtain rfl := hc.plain.flow_eq hc'
    obtain ⟨inner, ht', rfl⟩ := Checker.nested_ok ht
    obtain ⟨inner', he', rfl⟩ := Checker.nested_ok he
    obtain rfl := hth.plain.flow_eq ht'
    rw [Flow.settle_under] at he'
    -- The branch that is not taken has a say in the type, so the name does not come from the values.
    have hthen : thenInfo.name = "I32" := iht (by exact hnames) ht' rfl
    have helse : elseInfo.name = "I32" := ihe (by exact hnames) he' rfl
    rw [TypeInfo.join, if_pos (hthen.trans helse.symm)]
    exact hthen
  | bool | comparison | not | logical => cases hkind

/-- A value of a kind; a number obeys the type that was inferred for it. -/
def Kind.Has : Kind → TypeInfo → Value → Prop
  | .number, t, v => ∃ n, v = .int n ∧ t.Admits n
  | .truth, _, v => ∃ b, v = .bool b

/-- By induction on the expression: an accepted one has a value, of its kind. -/
theorem OfKind.eval_has (he : e.OfKind names kind) (hstrict : c.strict = true)
    (hnames : ∀ name, names name → flow.HasWord name)
    (hvalues : ∀ name, names name → ∃ n, env name = some (.int n)) (hd : flow.Describes env)
    (h : c.expr e ret flow = .ok (t, flow')) : ∃ v, e.eval env = .ok v ∧ kind.Has t v := by
  induction he generalizing flow t flow' with
  | literal =>
    rw [Checker.expr] at h
    cases h
    exact ⟨_, rfl, _, rfl, TypeInfo.admits_literal _ _⟩
  | @ident name loc hname =>
    rw [Checker.expr] at h
    cases h
    obtain ⟨n, hn⟩ := hvalues name hname
    exact ⟨_, eval_ident hn loc, n, rfl, (Checker.lookup_describes hd hn).admits n rfl⟩
  | neg he ih =>
    obtain ⟨operand, hop, hu⟩ := Checker.expr_unary_ok h
    obtain ⟨_, hv, n, rfl, hn⟩ := ih hnames hd hop
    have hname := he.name_eq hnames hop rfl
    refine ⟨.int (-n), by rw [eval, hv]; rfl, -n, rfl, ?_⟩
    refine (Checker.negation_describes hu ?_ (TypeInfo.describes_int ?_ hn)).admits _ rfl
    · rw [TypeInfo.isUnknown, hname]
      intro hunknown
      cases hunknown
    · rw [hname]
      rfl
  | arithmetic hop hcmp hl hr ihl ihr =>
    obtain ⟨left, mid, right, hl', hr', ⟨hcmp', _⟩ | ⟨_, ht⟩⟩ := Checker.expr_binary_ok hop h
    · rw [hcmp] at hcmp'
      cases hcmp'
    · obtain rfl := hl.plain.flow_eq hl'
      obtain ⟨_, hlv, a, rfl, ha⟩ := ihl hnames hd hl'
      obtain ⟨_, hrv, b, rfl, hb⟩ := ihr hnames hd hr'
      obtain ⟨n, hn, hadmits⟩ := Checker.arithmetic_value hstrict hop hcmp ht
        (hl.name_eq hnames hl' rfl) (hr.name_eq hnames hr' rfl) ha hb
      refine ⟨.int n, ?_, n, rfl, hadmits⟩
      rw [eval_binary hop, hlv, hrv]
      exact hn
  | ite hc hth hel ihc iht ihe =>
    rw [Checker.expr] at h
    obtain ⟨tested, mid, thenInfo, after, hc', ht, elseInfo, he, rfl⟩ := Checker.ifElse_ok h
    obtain rfl := hc.plain.flow_eq hc'
    obtain ⟨inner, ht', rfl⟩ := Checker.nested_ok ht
    obtain ⟨inner', he', rfl⟩ := Checker.nested_ok he
    obtain rfl := hth.plain.flow_eq ht'
    rw [Flow.settle_under] at he'
    obtain ⟨_, hv, truth, rfl⟩ := ihc hnames hd hc'
    have hlearned := Facts.derive_holds hv
    cases truth with
    | true =>
      obtain ⟨v, htv, n, rfl, hn⟩ := iht (by exact hnames) (hd.under hlearned) ht'
      exact ⟨_, by rw [eval, hv]; exact htv, n, rfl, TypeInfo.admits_join (.inl hn)⟩
    | false =>
      obtain ⟨v, hev, n, rfl, hn⟩ := ihe (by exact hnames) (hd.under hlearned) he'
      exact ⟨_, by rw [eval, hv]; exact hev, n, rfl, TypeInfo.admits_join (.inr hn)⟩
  | bool => exact ⟨_, rfl, _, rfl⟩
  | comparison hop hcmp hl hr ihl ihr =>
    obtain ⟨left, mid, right, hl', hr', _⟩ := Checker.expr_binary_ok hop h
    obtain rfl := hl.plain.flow_eq hl'
    obtain ⟨_, hlv, a, rfl, _⟩ := ihl hnames hd hl'
    obtain ⟨_, hrv, b, rfl, _⟩ := ihr hnames hd hr'
    obtain ⟨truth, htruth⟩ := Value.integer_comparison hcmp a b
    refine ⟨.bool truth, ?_, truth, rfl⟩
    rw [eval_binary hop, hlv, hrv]
    exact htruth
  | not _ ih =>
    obtain ⟨operand, hop, _⟩ := Checker.expr_unary_ok h
    obtain ⟨_, hv, b, rfl⟩ := ih hnames hd hop
    exact ⟨.bool !b, by rw [eval, hv]; rfl, _, rfl⟩
  | @logical op l r loc hop hl _ ihl ihr =>
    rw [Checker.expr, if_pos hop] at h
    obtain ⟨left, mid, right, inner, hl', hr', _, rfl⟩ := Checker.shortCircuit_ok h
    obtain rfl := hl.plain.flow_eq hl'
    obtain ⟨_, hlv, b, rfl⟩ := ihl hnames hd hl'
    cases op <;> cases hop
    · cases b with
      | false => exact ⟨.bool false, by rw [eval, hlv]; rfl, _, rfl⟩
      | true =>
        obtain ⟨_, hrv, b, rfl⟩ := ihr (by exact hnames) (hd.learn (Facts.derive_holds hlv)) hr'
        exact ⟨.bool b, by rw [eval, hlv, hrv]; rfl, _, rfl⟩
    · cases b with
      | true => exact ⟨.bool true, by rw [eval, hlv]; rfl, _, rfl⟩
      | false =>
        obtain ⟨_, hrv, b, rfl⟩ := ihr (by exact hnames) (hd.learn (Facts.derive_holds hlv)) hr'
        exact ⟨.bool b, by rw [eval, hlv, hrv]; rfl, _, rfl⟩

end Expr

/-- Accepted numbers of variables of 32 bits have type `I32`, and no part that is evaluated crashes.
All numbers that come up have 32 bits exactly if no part that is evaluated is a literal of more, the
negation of the least number of 32 bits or its quotient by `-1`. The result obeys its type; the type
that is left when its bounds are widened holds of it exactly if it has 32 bits. -/
theorem accepted_number_range {c : Checker} {e : Expr} {ret : Option TypeInfo} {flow flow' : Flow}
    {t : TypeInfo} {env : Env} (hstrict : c.strict = true) (he : e.OfKind flow.HasWord .number)
    (hd : flow.Describes env) (hvalues : ∀ name, flow.HasWord name → ∃ n, env name = some (.int n))
    (h : c.expr e ret flow = .ok (t, flow')) :
    t.name = "I32" ∧ (∀ part, e.Evaluates env part → ∃ v, part.eval env = .ok v) ∧
      ((∀ part n, e.Evaluates env part → part.eval env = .ok (.int n) → Word n) ↔
        ∀ part, e.Evaluates env part → ¬ part.Oversteps env) ∧
      ∃ n, e.eval env = .ok (.int n) ∧ t.Admits n ∧ (t.widened.Admits n ↔ Word n) := by
  have hname := he.name_eq (fun _ hword => hword) h rfl
  obtain ⟨_, hv, n, rfl, hn⟩ := he.eval_has hstrict (fun _ hword => hword) hvalues hd h
  refine ⟨hname, fun part hp => hp.eval_ok hv, ⟨?_, ?_⟩, n, hv, hn, TypeInfo.admits_widened_iff hname⟩
  · intro hall part hp hover
    obtain ⟨m, hm, hout⟩ := hover.eval
    exact hout (hall part m hp hm)
  · intro hno part m hp hm
    obtain ⟨kind, hkind⟩ := hp.ofKind he
    refine hkind.in_range ?_ (fun part' hp' => hno part' (hp.trans hp')) hm
    rintro name k ⟨b, hb, hword⟩ hk
    obtain ⟨b', hb', _, hadmits⟩ := hd.bound name _ hk
    cases hb.symm.trans hb'
    exact hword.word (hadmits k rfl)

namespace Extreme

def x : Expr := .ident "x" none

def number (value : Int64) : Expr := .number value none none

/-- The expression `-(x + 1)` -/
def successor : Expr := .unary .neg (.binary .add x (number 1) none) none

/-- The function `fn f(x: I32): I32 => e;` -/
def program (e : Expr) : Program :=
  ⟨[.fnDecl ⟨"f", [], [⟨"x", some (.named "I32" [])⟩], some (.named "I32" []), some e, false, none⟩]⟩

def checker : Checker := .ofDeclarations {} true

def flow (t : TypeInfo) : Flow where
  scope := Scope.empty.declare "x" (.fixed t)

/-- The least number of 32 bits. -/
def env : Env := fun name => if name = "x" then some (.int (-0x80000000)) else none

theorem get?_flow {t : TypeInfo} {name : String} {b : Binding}
    (h : (flow t).scope.get? name = some b) : name = "x" ∧ b = .fixed t := by
  rw [flow, Scope.get?_declare] at h
  split at h
  · cases h
    exact ⟨‹_›, rfl⟩
  · cases h

theorem flow_describes {t : TypeInfo} (ht : t.Ordinary) (hn : t.Admits (-0x80000000)) :
    (flow t).Describes env := by
  refine ⟨?_, Facts.hold_empty _⟩
  intro name v hv
  unfold env at hv
  split at hv
  · cases hv
    refine ⟨.fixed t, ?_, ht, fun n heq => ?_⟩
    · rw [flow, Scope.get?_declare, if_pos ‹_›]
    · cases heq
      exact hn
  · cases hv

theorem env_values (t : TypeInfo) (name : String) (h : (flow t).HasWord name) :
    ∃ n, env name = some (.int n) := by
  obtain ⟨b, hb, _⟩ := h
  obtain ⟨rfl, _⟩ := get?_flow hb
  exact ⟨_, rfl⟩

theorem x_ofKind {t : TypeInfo} (h : (Binding.fixed t).IsWord) :
    x.OfKind (flow t).HasWord .number :=
  .ident ⟨.fixed t, rfl, h⟩

/-- `I32 <= 0` -/
def small : TypeInfo := { TypeInfo.named "I32" with max := some 0 }

theorem named_isWord : (Binding.fixed (.named "I32")).IsWord :=
  ⟨rfl, rfl, ⟨_, rfl, by decide⟩, _, rfl, by decide⟩

theorem small_isWord : (Binding.fixed small).IsWord :=
  ⟨rfl, rfl, ⟨_, rfl, by decide⟩, _, rfl, by decide⟩

theorem successor_stays (part : Expr) (h : successor.Evaluates env part) : ¬ part.Oversteps env := by
  intro hover
  cases h with
  | self =>
    cases hover with
    | negation heq => cases heq
  | operand h =>
    cases h with
    | self => cases hover
    | left h =>
      cases h with
      | self => cases hover
    | right _ h =>
      cases h with
      | self =>
        cases hover with
        | literal hout => exact hout (by decide)

end Extreme

open Extreme in
/-- For the least `x` of 32 bits `-(x + 1)` is the greatest number of 32 bits. -/
theorem accepted_number_range_successor :
    successor.OfKind (flow small).HasWord .number ∧ (flow small).Describes env ∧
      checker.expr successor none (flow small) =
        .ok ({ TypeInfo.bare "I32" with min := some (-1), max := some 0x7fffffff }, flow small) ∧
      successor.eval env = .ok (.int 0x7fffffff) ∧
      ∀ part n, successor.Evaluates env part → part.eval env = .ok (.int n) → Word n := by
  have hkind : successor.OfKind (flow small).HasWord .number :=
    .neg (.arithmetic rfl rfl (x_ofKind small_isWord) .literal)
  have hd : (flow small).Describes env := flow_describes ⟨rfl, rfl⟩ (by decide)
  have hrange := accepted_number_range (show checker.strict = true from rfl) hkind hd (env_values small)
    (show checker.expr successor none (flow small) = .ok (_, flow small) from rfl)
  exact ⟨hkind, hd, rfl, rfl, hrange.2.2.1.mpr successor_stays⟩

/-- A number that is accepted as an `I32` and has more than 32 bits. -/
structure Extreme.Exceeds (e : Expr) : Prop where
  ofKind : e.OfKind (flow (.named "I32")).HasWord .number
  accepted : (program e).check true = .ok ()
  typed : ∃ t, checker.expr e none (flow (.named "I32")) = .ok (t, flow (.named "I32")) ∧
    t.name = "I32" ∧ ∃ n, e.eval env = .ok (.int n) ∧ ¬ Word n ∧ ¬ t.widened.Admits n

open Extreme in
/-- The literal `3000000000`, the negation of the least number and its quotient by `-1`. -/
theorem accepted_number_escapes :
    (flow (.named "I32")).Describes env ∧ Exceeds (number 3000000000) ∧
      Exceeds (.unary .neg x none) ∧ Exceeds (.binary .div x (.unary .neg (number 1) none) none) := by
  have hx := x_ofKind named_isWord
  refine ⟨flow_describes ⟨rfl, rfl⟩ (by decide), ⟨.literal, rfl, ?_⟩, ⟨.neg hx, rfl, ?_⟩,
    .arithmetic rfl rfl hx (.neg .literal), rfl, ?_⟩
  · exact ⟨_, rfl, rfl, 3000000000, rfl, by decide, by decide⟩
  · exact ⟨_, rfl, rfl, 0x80000000, rfl, by decide, by decide⟩
  · exact ⟨_, rfl, rfl, 0x80000000, rfl, by decide, by decide⟩

end TuffSafety
