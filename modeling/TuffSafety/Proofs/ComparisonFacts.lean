import TuffSafety.Checker
import TuffSafety.Proofs.Evaluation

/-!
# What guards tell

A guard without effects is a formula of `&&`, `||` and comparisons over parts that the checker does not
look into. Names stand for integers, and an opaque part may turn out either way. Whatever they are, the
facts that are derived from the outcome of the guard are true. A single comparison of a name with a
literal is told exactly, unless it comes down to `!=` with a number other than zero, or the literal is
the negation of the least 64-bit number, which stands for no 64-bit number; then nothing is told.
-/
namespace TuffSafety

/-- The comparison that holds when this one had the given outcome. -/
def BinaryOp.outcome (op : BinaryOp) (truth : Bool) : BinaryOp :=
  if truth then op else op.negated?.getD op

namespace Expr

/-- The number that a literal stands for, with a minus sign in front of it or without. -/
def signed? : Expr → Option Int
  | number value _ _ => some value.toInt
  | unary .neg (number value _ _) _ => some (-value.toInt)
  | _ => none

/-- Whether the outcome of a guard is looked for in the parts of the expression. -/
def isFormula : Expr → Bool
  | binary op .. => op.isLogical || op.isComparison
  | _ => false

/-- An integer for which an operand of a comparison may stand, when names stand for the given ones.
Nothing is said about an operand that is neither a name nor a literal. -/
inductive Amounts (names : String → Int) : Expr → Int → Prop
  | name {name loc} : Amounts names (ident name loc) (names name)
  | literal {e n} (h : e.signed? = some n) : Amounts names e n
  | other {e n} (hname : ∀ name loc, e ≠ ident name loc) (h : e.signed? = none) : Amounts names e n

/-- An outcome that a guard may have, when names stand for the given integers. A part that is no formula
may have either outcome, wherever it occurs. -/
inductive Yields (names : String → Int) : Expr → Bool → Prop
  | andFails {l r loc} : Yields names l false → Yields names (binary .and l r loc) false
  | and {l r loc b} : Yields names l true → Yields names r b → Yields names (binary .and l r loc) b
  | orHolds {l r loc} : Yields names l true → Yields names (binary .or l r loc) true
  | or {l r loc b} : Yields names l false → Yields names r b → Yields names (binary .or l r loc) b
  | compare {op l r loc m n b} : l.Amounts names m → r.Amounts names n →
      Value.integer op m n = .ok (.bool b) → Yields names (binary op l r loc) b
  | other {e b} (h : e.isFormula = false) : Yields names e b

/-- A literal that stands for a 64-bit number is read as that number. -/
theorem intLiteral?_of_signed? {e : Expr} {v : Int64} (h : e.signed? = some v.toInt) :
    e.intLiteral? = some v.toInt := by
  unfold signed? at h
  split at h
  · exact h
  · rename_i value _ _ _
    have hvalue : -value.toInt = v.toInt := Option.some.inj h
    have hne : value ≠ Int64.minValue := by
      rintro rfl
      have hmin : Int64.minValue.toInt = -0x8000000000000000 := rfl
      have hlt := v.toInt_lt
      omega
    rw [intLiteral?, if_neg hne]
    exact h
  · cases h

theorem signed?_of_intLiteral? {e : Expr} {n : Int} (h : e.intLiteral? = some n) :
    e.signed? = some n := by
  unfold intLiteral? at h
  split at h
  · exact h
  · split at h
    · cases h
    · exact h
  · cases h

/-- What is read as a number is a 64-bit number. -/
theorem int64_of_intLiteral? {e : Expr} {n : Int} (h : e.intLiteral? = some n) :
    ∃ v : Int64, n = v.toInt := by
  unfold intLiteral? at h
  split at h
  · exact ⟨_, (Option.some.inj h).symm⟩
  · rename_i value _ _ _
    split at h
    · cases h
    · rename_i hne
      have hn : -value.toInt = n := Option.some.inj h
      have hlt := value.toInt_lt
      have hgt : -0x8000000000000000 ≠ value.toInt := fun heq => hne (Int64.toInt_inj.mp heq.symm)
      have hle := value.le_toInt
      exact ⟨Int64.ofInt n, (Int64.toInt_ofInt_of_le (by omega) (by omega)).symm⟩
  · cases h

variable {names : String → Int} {name : String} {loc : Option Loc} {e : Expr} {n : Int}

theorem amounts_ident_iff : (ident name loc).Amounts names n ↔ n = names name := by
  constructor
  · intro h
    cases h with
    | name => rfl
    | literal h => cases h
    | other hname => exact (hname name loc rfl).elim
  · rintro rfl
    exact .name

theorem amounts_literal_iff {v : Int} (hv : e.signed? = some v) : e.Amounts names n ↔ n = v := by
  constructor
  · intro h
    cases h with
    | name => cases hv
    | literal h => exact Option.some.inj (h.symm.trans hv)
    | other _ h => cases h.symm.trans hv
  · rintro rfl
    exact .literal hv

end Expr

/-! ### Comparisons and their outcomes -/

theorem BinaryOp.isComparison_of_negated? {op op' : BinaryOp} (h : op.negated? = some op') :
    op.isComparison = true := by
  cases op <;> first | rfl | cases h

/-- A comparison fails exactly when the opposite one holds. -/
theorem integer_outcome_iff {op : BinaryOp} (hop : op.isComparison = true) {a b : Int} {truth : Bool} :
    Value.integer op a b = .ok (.bool truth) ↔
      Value.integer (op.outcome truth) a b = .ok (.bool true) := by
  cases truth with
  | true => rfl
  | false =>
    cases op <;> cases hop <;>
      simp only [BinaryOp.outcome, BinaryOp.negated?, Option.getD_some, Bool.false_eq_true, if_false,
        Value.integer, Except.ok.injEq, Value.bool.injEq, decide_eq_false_iff_not, decide_eq_true_eq,
        beq_eq_false_iff_ne, beq_iff_eq, bne_eq_false_iff_eq, bne_iff_ne] <;>
      omega

namespace Patch

variable {op : BinaryOp} {p : Patch} {n m : Int}

theorem overlay_notNull (p : Patch) : p.overlay .notNull = { p with nonNull := true } := by
  obtain ⟨min, max, nonZero, nonNull⟩ := p
  simp [overlay, notNull]

/-- The patch of a comparison allows exactly the numbers of which the comparison holds. -/
theorem admits_ofComparison?_iff (hp : ofComparison? op m = some p) :
    p.Admits n ↔ Value.integer op n m = .ok (.bool true) := by
  refine ⟨fun h => ?_, admits_ofComparison? hp⟩
  cases op with
  | lt =>
    cases hp
    have hle : n ≤ m - 1 := Bound.atMost_some.mp h.high
    simp only [Value.integer, Except.ok.injEq, Value.bool.injEq, decide_eq_true_eq]
    omega
  | le =>
    cases hp
    have hle : n ≤ m := Bound.atMost_some.mp h.high
    simpa only [Value.integer, Except.ok.injEq, Value.bool.injEq, decide_eq_true_eq] using hle
  | gt =>
    cases hp
    have hle : m + 1 ≤ n := Bound.atLeast_some.mp h.low
    simp only [Value.integer, Except.ok.injEq, Value.bool.injEq, decide_eq_true_eq]
    omega
  | ge =>
    cases hp
    have hle : m ≤ n := Bound.atLeast_some.mp h.low
    simpa only [Value.integer, Except.ok.injEq, Value.bool.injEq, decide_eq_true_eq] using hle
  | eq =>
    cases hp
    have hge : m ≤ n := Bound.atLeast_some.mp h.low
    have hle : n ≤ m := Bound.atMost_some.mp h.high
    simp only [Value.integer, Except.ok.injEq, Value.bool.injEq, beq_iff_eq]
    omega
  | ne =>
    rw [ofComparison?] at hp
    split at hp
    · rename_i hzero
      cases hp
      have hn : n ≠ 0 := h.zero rfl
      simpa only [Value.integer, Except.ok.injEq, Value.bool.injEq, bne_iff_ne, hzero] using hn
    · cases hp
  | _ => cases hp

/-- Only `!=` with a number other than zero cannot be held by a patch. -/
theorem ofComparison?_of_told (hop : op.isComparison = true) (h : op = .ne → m = 0) :
    ∃ p, ofComparison? op m = some p := by
  cases op with
  | ne => exact ⟨.notZero, if_pos (h rfl)⟩
  | lt | le | gt | ge | eq => exact ⟨_, rfl⟩
  | _ => cases hop

end Patch

namespace Facts

variable {op : BinaryOp} {name : String} {value left right : Expr} {place loc : Option Loc}

/-- What a comparison of a name with a literal tells about the name when it holds. -/
def told (op : BinaryOp) (value : Expr) : Option Patch :=
  (value.intLiteral?.bind (Patch.ofComparison? op)).map fun p =>
    if op = .ne ∧ value.isNullLiteral then { p with nonNull := true } else p

theorem learned_comparison (hop : op.isComparison = true) (truth : Bool) :
    learned (.binary op (.ident name place) value loc) truth =
      ofComparison (.ident name place) (op.outcome truth) value := by
  cases op <;> cases hop <;> cases truth <;> rfl

theorem ofComparison_ident_none (h : value.intLiteral?.bind (Patch.ofComparison? op) = none) :
    ofComparison (.ident name place) op value = [] := by
  simp only [ofComparison, h]

theorem ofComparison_ident_some {p : Patch}
    (h : value.intLiteral?.bind (Patch.ofComparison? op) = some p) :
    ofComparison (.ident name place) op value =
      if op = .ne ∧ value.isNullLiteral then [(name, p), (name, .notNull)] else [(name, p)] := by
  simp only [ofComparison, h]

/-- The facts that the outcome of a single comparison leaves. -/
theorem get?_derive_comparison (hop : op.isComparison = true) (name : String) (place : Option Loc)
    (value : Expr) (loc : Option Loc) (truth : Bool) :
    (derive (.binary op (.ident name place) value loc) truth).get? name =
      told (op.outcome truth) value := by
  rw [derive, learned_comparison hop, told]
  cases hp : value.intLiteral?.bind (Patch.ofComparison? (op.outcome truth)) with
  | none =>
    rw [ofComparison_ident_none hp]
    rfl
  | some p =>
    have hfirst : (empty.add name p).get? name = some p := by
      rw [get?_add, if_pos rfl]
      obtain ⟨min, max, nonZero, nonNull⟩ := p
      simp [empty, Patch.overlay, Patch.empty]
    rw [ofComparison_ident_some hp, Option.map_some]
    by_cases hnull : op.outcome truth = .ne ∧ value.isNullLiteral = true
    · rw [if_pos hnull, if_pos hnull, ← Patch.overlay_notNull]
      change ((empty.add name p).add name .notNull).get? name = _
      rw [get?_add, if_pos rfl, hfirst]
      rfl
    · rw [if_neg hnull, if_neg hnull]
      exact hfirst

/-- A comparison that no patch can hold tells nothing. -/
theorem derive_comparison_empty (hop : op.isComparison = true) {truth : Bool}
    (h : value.intLiteral?.bind (Patch.ofComparison? (op.outcome truth)) = none) :
    derive (.binary op (.ident name place) value loc) truth = empty := by
  rw [derive, learned_comparison hop, ofComparison_ident_none h]
  rfl

/-! ### The facts are true -/

variable {names : String → Int}

theorem ofComparison_admits {m n : Int} (hl : left.Amounts names m) (hr : right.Amounts names n)
    (h : Value.integer op m n = .ok (.bool true)) :
    ∀ e ∈ ofComparison left op right, e.2.Admits (names e.1) := by
  intro e he
  rcases mem_ofComparison he with ⟨place, v, rfl, hv, hp⟩ | ⟨hnull, _⟩
  · cases Expr.amounts_ident_iff.mp hl
    cases (Expr.amounts_literal_iff (Expr.signed?_of_intLiteral? hv)).mp hr
    exact admits_ofComparison? hp h
  · rw [hnull]
    exact Patch.admits_notNull _

theorem not_mem_ofComparison (hop : op.isComparison = false) {e : String × Patch} :
    e ∉ ofComparison left op right := by
  intro he
  rcases mem_ofComparison he with ⟨_, _, _, _, hp⟩ | ⟨_, rfl, _⟩
  · cases op <;> first | cases hp | cases hop
  · cases hop

/-- Whatever the names stand for and the opaque parts come to, what the guard tells is true. -/
theorem learned_admits {cond : Expr} {truth : Bool} (h : cond.Yields names truth) :
    ∀ e ∈ learned cond truth, e.2.Admits (names e.1) := by
  refine learned_forall (R := fun cond truth => cond.Yields names truth)
    (Q := fun name p => p.Admits (names name)) ?_ ?_ ?_ ?_ cond truth h
  · intro l r loc h
    cases h with
    | and hl hr => exact ⟨hl, hr⟩
    | compare _ _ h => cases h
    | other h => cases h
  · intro l r loc h
    cases h with
    | or hl hr => exact ⟨hl, hr⟩
    | compare _ _ h => cases h
    | other h => cases h
  · intro op l r loc hand hor h
    cases h with
    | and => exact (hand rfl).elim
    | orHolds | or => exact (hor rfl).elim
    | compare hl hr h => exact ofComparison_admits hl hr h
    | other h =>
      exact fun e he => (not_mem_ofComparison (Bool.or_eq_false_iff.mp h).2 he).elim
  · intro op op' l r loc hand hor hop h
    cases h with
    | andFails | and => exact (hand rfl).elim
    | or => exact (hor rfl).elim
    | compare hl hr h => exact ofComparison_admits hl hr (integer_negated hop h)
    | other h =>
      cases (BinaryOp.isComparison_of_negated? hop).symm.trans (Bool.or_eq_false_iff.mp h).2

theorem cumulative_admits_names (names : String → Int) :
    Cumulative fun name p => p.Admits (names name) :=
  ⟨fun _ => Patch.admits_empty _, fun hp hq => hp.overlay hq⟩

theorem derive_admits {cond : Expr} {truth : Bool} (h : cond.Yields names truth) (name : String) :
    ((derive cond truth).about name).Admits (names name) := by
  have hfacts : ∀ name p, (derive cond truth).get? name = some p → p.Admits (names name) :=
    (cumulative_admits_names names).addAll (fun _ _ hget => by cases hget) (learned_admits h)
  cases hget : (derive cond truth).get? name with
  | none =>
    rw [about_of_none hget]
    exact Patch.admits_empty _
  | some p =>
    rw [about_of_some hget]
    exact hfacts name p hget

/-! ### A single comparison is told exactly -/

theorem yields_comparison_iff (hop : op.isComparison = true) {m : Int}
    (hm : value.signed? = some m) {truth : Bool} :
    (Expr.binary op (.ident name place) value loc).Yields names truth ↔
      Value.integer op (names name) m = .ok (.bool truth) := by
  constructor
  · intro h
    cases h with
    | andFails | and | orHolds | or => cases hop
    | compare hl hr h =>
      cases Expr.amounts_ident_iff.mp hl
      cases (Expr.amounts_literal_iff hm).mp hr
      exact h
    | other h => cases hop.symm.trans (Bool.or_eq_false_iff.mp h).2
  · exact .compare .name (.literal hm)

theorem about_derive_comparison_iff (hop : op.isComparison = true) {v : Int64}
    (hv : value.signed? = some v.toInt) {truth : Bool} (htold : op.outcome truth = .ne → v.toInt = 0)
    (n : Int) :
    ((derive (.binary op (.ident name place) value loc) truth).about name).Admits n ↔
      Value.integer op n v.toInt = .ok (.bool truth) := by
  have hcomparison : (op.outcome truth).isComparison = true := by
    cases op <;> cases hop <;> cases truth <;> rfl
  obtain ⟨p, hp⟩ := Patch.ofComparison?_of_told hcomparison htold
  have hget := get?_derive_comparison hop name place value loc truth
  rw [told, Expr.intLiteral?_of_signed? hv, Option.bind_some, hp, Option.map_some] at hget
  rw [about_of_some hget, integer_outcome_iff hop, ← Patch.admits_ofComparison?_iff hp]
  -- Whether the pointer is known not to be null does not show in the numbers that are allowed.
  split
  · exact ⟨fun h => ⟨h.low, h.high, h.zero⟩, fun h => ⟨h.low, h.high, h.zero⟩⟩
  · rfl

end Facts

/-- Whatever integers the names stand for and however the opaque parts of a guard come out, each name
satisfies what is derived about it from the outcome. For a comparison of a name with a signed literal
that stands for a 64-bit number the converse holds as well, unless it comes down to `!=` with a number
other than zero; in all that is left, nothing is derived. -/
theorem guard_facts_exact (names : String → Int) :
    (∀ cond truth, cond.Yields names truth →
      ∀ name, ((Facts.derive cond truth).about name).Admits (names name)) ∧
      ∀ (op : BinaryOp) (name : String) (value : Expr) (m : Int) (truth : Bool)
        (place loc : Option Loc), op.isComparison = true → value.signed? = some m →
        let cond := Expr.binary op (.ident name place) value loc
        ((∃ v : Int64, m = v.toInt) → (op.outcome truth = .ne → m = 0) →
          (((Facts.derive cond truth).about name).Admits (names name) ↔ cond.Yields names truth)) ∧
        ((¬ ∃ v : Int64, m = v.toInt) ∨ (op.outcome truth = .ne ∧ m ≠ 0) →
          Facts.derive cond truth = .empty) := by
  refine ⟨fun cond truth h name => Facts.derive_admits h name, ?_⟩
  intro op name value m truth place loc hop hm cond
  refine ⟨?_, fun h => Facts.derive_comparison_empty hop ?_⟩
  · rintro ⟨v, rfl⟩ htold
    rw [Facts.about_derive_comparison_iff hop hm htold, Facts.yields_comparison_iff hop hm]
  · rw [Option.bind_eq_none_iff]
    intro k hk
    cases (Expr.signed?_of_intLiteral? hk).symm.trans hm
    rcases h with hwide | ⟨hne, hzero⟩
    · exact (hwide (Expr.int64_of_intLiteral? hk)).elim
    · rw [hne]
      exact if_neg hzero

namespace Told

def x : Expr := .ident "x" none

def number (n : Int64) : Expr := .number n none none

/-- The guard `x >= 0 && (x < 10 && check())` -/
def between : Expr :=
  .binary .and (.binary .ge x (number 0) none)
    (.binary .and (.binary .lt x (number 10) none) (.call (.ident "check" none) [] none) none) none

/-- The negation of the least 64-bit number, which stands for no 64-bit number. -/
def beyond : Expr := .unary .neg (number Int64.minValue) none

/-- The function `fn f(x: I64) => if (x == value) 10 / x else 0;` -/
def program (value : Expr) : Program where
  body := [.fnDecl ⟨"f", [], [⟨"x", some (.named "I64" [])⟩], none,
    some (.ite (.binary .eq x value none) (.binary .div (number 10) x none) (some (number 0)) none),
    false, none⟩]

end Told

open Told in
theorem guard_facts_exact_between :
    between.Yields (fun _ => 7) true ∧
      (Facts.derive between true).about "x" = { min := some 0, max := some 9 } ∧
      ((Facts.derive between true).about "x").Admits 7 ∧
      ∀ n, ((Facts.derive (.binary .lt x (.unary .neg (number 5) none) none) false).about "x").Admits n ↔
        (Expr.binary .lt x (.unary .neg (number 5) none) none).Yields (fun _ => n) false := by
  have hbetween : between.Yields (fun _ => 7) true :=
    .and (.compare .name (.literal rfl) rfl) (.and (.compare .name (.literal rfl) rfl) (.other rfl))
  refine ⟨hbetween, rfl, (guard_facts_exact fun _ => 7).1 between true hbetween "x", fun n => ?_⟩
  exact ((guard_facts_exact fun _ => n).2 .lt "x" _ (-5) false none none rfl rfl).1 ⟨-5, rfl⟩
    fun h => by cases h

open Told in
/-- A comparison with the negation of the least 64-bit number tells nothing, although it rules out zero:
a division under it is refused. With the next number it is not. -/
theorem negated_least_untold :
    let cond := Expr.binary .eq x beyond none
    Facts.derive cond true = .empty ∧ ((Facts.derive cond true).about "x").Admits 0 ∧
      ¬ cond.Yields (fun _ => 0) true ∧
      (program beyond).check true = .error ⟨.divisorMayBeZero, none⟩ ∧
      (program (.unary .neg (number (Int64.minValue + 1)) none)).check true = .ok () := by
  intro cond
  refine ⟨rfl, Patch.admits_empty 0, fun hyields => ?_, rfl, rfl⟩
  have hequal : Value.integer .eq 0 0x8000000000000000 = .ok (.bool true) :=
    (Facts.yields_comparison_iff rfl rfl).mp hyields
  cases hequal

end TuffSafety
