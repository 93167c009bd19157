import TuffSafety.Proofs.Narrowing
import TuffSafety.Proofs.Slots

/-!
# Bounds that exclude zero

A number whose bounds are both known and lie on one side of zero is known not to be zero, whether the
bounds come from a literal, a refinement, a guard, an operation or the branches of a conditional. A
division by it is accepted. One bound alone is not enough: a number that is only known to be positive
may be zero as far as the checker knows. Of the numeric types only `I32` has an upper bound of its own,
so that a guard `> 0` is a proof for it and for no other.
-/
namespace TuffSafety

theorem TypeName.isNumeric_pointer (mutable : Bool) (name : String) :
    isNumeric ((if mutable then "*mut " else "*") ++ name) = false := by
  have hstar : ∀ name ∈ numeric, name.toList.head? ≠ some '*' := by
    decide
  refine Bool.eq_false_iff.mpr fun h => hstar _ (List.contains_iff_mem.mp h) ?_
  cases mutable <;> simp

namespace TypeInfo

variable {t u : TypeInfo} {p : Patch} {n m : Int}

theorem Spans.not_excludesZero (h : t.Spans 0) : ¬ t.ExcludesZero := by
  rintro ⟨a, b, ha, hb, hside⟩
  have hlow := h.low a ha
  have hhigh := h.high b hb
  omega

/-- The bounds that a name implies leave zero in. -/
theorem spans_zero_of_range (hmin : t.min = (TypeName.range t.name).1)
    (hmax : t.max = (TypeName.range t.name).2) : t.Spans 0 := by
  unfold TypeName.range at hmin hmax
  split at hmin
  · rename_i hname
    rw [if_pos hname] at hmax
    constructor
    · rw [hmin]
      decide
    · rw [hmax]
      decide
  · rename_i hname
    rw [if_neg hname] at hmax
    constructor
    · rw [hmin]
      split <;> decide
    · rw [hmax]
      split <;> decide

/-- A hull that leaves zero out has both of its parts on one side of zero. -/
theorem ExcludesZero.of_join (h : (t.join u).ExcludesZero) :
    t.name = u.name ∧ t.ExcludesZero ∧ u.ExcludesZero := by
  unfold join at h
  split at h
  · rename_i hname
    obtain ⟨a, b, ha, hb, hside⟩ := h
    dsimp only at ha hb
    unfold Bound.lesser at ha
    unfold Bound.greater at hb
    split at ha
    · rename_i low low' hlow hlow'
      split at hb
      · rename_i high high' hhigh hhigh'
        cases ha
        cases hb
        exact ⟨hname, ⟨low, high, hlow, hhigh, by omega⟩, low', high', hlow', hhigh', by omega⟩
      · cases hb
    · cases ha
  · obtain ⟨a, _, ha, _⟩ := h
    cases ha

/-- A number whose bounds exclude zero is known not to be zero. -/
def ZeroNoted (t : TypeInfo) : Prop :=
  t.isNumeric = true → t.ExcludesZero → t.nonZero = true

theorem ZeroNoted.of_spans (h : t.Spans 0) : t.ZeroNoted := by
  intro _ hzero
  exact absurd hzero h.not_excludesZero

theorem ZeroNoted.join (ht : t.ZeroNoted) (hu : u.ZeroNoted) : (t.join u).ZeroNoted := by
  intro hnumeric hzero
  obtain ⟨hname, htzero, huzero⟩ := hzero.of_join
  unfold TypeInfo.join at hnumeric ⊢
  rw [if_pos hname] at hnumeric ⊢
  refine Bool.and_eq_true_iff.mpr ⟨ht hnumeric htzero, hu ?_ huzero⟩
  unfold isNumeric at hnumeric ⊢
  rwa [← hname]

theorem zeroNoted_closed : Closed ZeroNoted where
  congr h hname hmin hmax hnonZero := by
    unfold ZeroNoted isNumeric ExcludesZero at h ⊢
    rwa [hname, hmin, hmax, hnonZero]
  bare _ := .of_spans ⟨Bound.atLeast_none 0, Bound.atMost_none 0⟩
  named _ := .of_spans (spans_zero_of_range rfl rfl)
  literal _ n := by
    rintro _ ⟨a, b, ha, hb, hside⟩
    cases ha
    cases hb
    exact bne_iff_ne.mpr (by omega)
  bounded _ _ _ _ := fun _ hzero => normalize_nonZero_iff.mpr (.inr hzero)
  narrow _ _ := fun _ hzero => narrow_nonZero_iff.mpr (.inr (.inr hzero))
  widened _ := .of_spans (spans_zero_of_range rfl rfl)
  join := ZeroNoted.join
  pointer mutable _ _ := by
    intro hnumeric
    cases (TypeName.isNumeric_pointer mutable _).symm.trans hnumeric

/-- A positive lower bound excludes zero where an upper bound is known that does not contradict it. -/
theorem narrow_excludesZero (hn : 0 ≤ n) (hp : p.min = some (n + 1)) (hlow : Bound.AtLeast t.min m)
    (hmax : tightenMax t.max p.max = some m) (hnm : n < m) : (t.narrow p).ExcludesZero := by
  have hspans : (t.tightened p).Spans m := by
    constructor
    · refine atLeast_tightenMin hlow ?_
      rw [hp, Bound.atLeast_some]
      omega
    · intro b hb
      cases hmax.symm.trans hb
      exact Int.le_refl m
  obtain ⟨hmin', hmax'⟩ := narrow_bounds hspans.ordered
  have hpositive : ∃ a, tightenMin t.min p.min = some a ∧ 0 < a := by
    rw [hp]
    cases t.min with
    | none => exact ⟨n + 1, rfl, by omega⟩
    | some a => exact ⟨Max.max a (n + 1), rfl, by omega⟩
  obtain ⟨a, ha, hpos⟩ := hpositive
  exact ⟨a, m, hmin'.trans ha, hmax'.trans hmax, .inl hpos⟩

end TypeInfo

namespace Checker

variable {c : Checker} {flow : Flow} {ret : Option TypeInfo} {loc : Option Loc}

theorem arithmetic_quotient {op : BinaryOp} {left right : TypeInfo} (hop : op = .div ∨ op = .mod)
    (hleft : left.isNumeric = true) (hright : right.isNumeric = true)
    (hnonZero : right.nonZero = true) :
    c.arithmetic op left right loc = .ok (.bare (arithmeticName left right)) := by
  unfold arithmetic isNumericOrUnknown
  rw [hleft, hright, TypeInfo.isUnknown_of_isNumeric hleft, TypeInfo.isUnknown_of_isNumeric hright,
    hnonZero, if_pos hop, Bool.not_true, Bool.and_false]
  rfl

theorem expr_quotient {op : BinaryOp} {left right : Expr} {l r : TypeInfo} {mid flow' : Flow}
    (hop : op = .div ∨ op = .mod) (hl : c.expr left ret flow = .ok (l, mid))
    (hr : c.expr right ret mid = .ok (r, flow')) (hleft : l.isNumeric = true)
    (hright : r.isNumeric = true) (hnonZero : r.nonZero = true) :
    c.expr (.binary op left right loc) ret flow = .ok (.bare (arithmeticName l r), flow') := by
  have hplain : op.isLogical = false ∧ op.isComparison = false := by
    rcases hop with rfl | rfl <;> exact ⟨rfl, rfl⟩
  rw [expr, if_neg (by rw [hplain.1]; decide), hl]
  dsimp only [bind, Except.bind]
  rw [hr]
  dsimp only
  rw [if_neg (by rw [hplain.2]; decide), arithmetic_quotient hop hleft hright hnonZero]
  rfl

/-- A guard `name > n` with `0 ≤ n` excludes zero for a name that is known to be bounded from above. -/
theorem lookup_guarded_excludesZero {name : String} {place : Option Loc} {value : Expr} {b : Binding}
    {n m : Int} (hb : flow.scope.get? name = some b) (hvalue : value.intLiteral? = some n) (hn : 0 ≤ n)
    (hordered : (c.lookup name flow).Ordered) (hmax : (c.lookup name flow).max = some m)
    (hnm : n < m) :
    (c.lookup name (flow.learn
      (Facts.derive (.binary .gt (.ident name place) value loc) true))).ExcludesZero := by
  have hderived : (Facts.derive (.binary .gt (.ident name place) value loc) true).get? name =
      some (.atLeast (n + 1)) := by
    simp only [Facts.derive, Facts.learned, Facts.ofComparison, hvalue, Option.bind_some,
      Patch.ofComparison?]
    rw [if_neg (by simp)]
    simp [Facts.addAll, Facts.get?_add, Facts.empty, Patch.overlay, Patch.empty, Patch.atLeast]
  rcases lookup_learn c hb _ with ⟨hnone, _⟩ | hafter
  · cases hnone.symm.trans hderived
  rcases lookup_bounds (c := c) hb with ⟨_, hnone⟩ | ⟨hmin', hmax'⟩
  · cases hnone.symm.trans hmax
  rw [hafter, Facts.about_of_some hderived]
  have hlow : Bound.AtLeast (c.lookup name flow).min m := fun a ha => hordered a m ha hmax
  rw [hmin'] at hlow
  refine TypeInfo.narrow_excludesZero hn rfl (Bound.atLeast_tightenMin_iff.mp hlow).1 ?_ hnm
  exact hmax'.symm.trans hmax

end Checker

/-- From a scope in which zero is noted, whatever the facts say: zero is noted in every declared type
and in what names and expressions are found to be, and narrowing excludes zero exactly where it was
excluded, where the patch excludes it or where both bounds then do. Divisions by such numbers are
accepted. A refinement or a guard `> n` with `0 ≤ n` makes a number such a one if there is an upper
bound. -/
theorem bounds_note_zero (c : Checker) (flow : Flow) (hscope : flow.scope.Each TypeInfo.ZeroNoted) :
    (∀ type, (c.decls.resolve type).ZeroNoted) ∧
      (∀ (t : TypeInfo) (p : Patch), (t.narrow p).nonZero = true ↔
        (t.base p).nonZero = true ∨ p.nonZero = some true ∨ (t.narrow p).ExcludesZero) ∧
      (∀ name, (c.lookup name flow).ZeroNoted) ∧
      (∀ e ret t flow', c.expr e ret flow = .ok (t, flow') →
        t.ZeroNoted ∧ flow'.scope.Each TypeInfo.ZeroNoted) ∧
      (∀ op left right loc ret l mid r flow', op = .div ∨ op = .mod →
        c.expr left ret flow = .ok (l, mid) → c.expr right ret mid = .ok (r, flow') →
        l.isNumeric = true → r.isNumeric = true → r.ExcludesZero →
        c.expr (.binary op left right loc) ret flow =
          .ok (.bare (Checker.arithmeticName l r), flow')) ∧
      (∀ type value n m, value.intLiteral? = some n → 0 ≤ n → (c.decls.resolve type).max = some m →
        n < m → (c.decls.resolve (.refined type .gt value)).ExcludesZero) ∧
      ∀ name place value loc b n m, flow.scope.get? name = some b → value.intLiteral? = some n →
        0 ≤ n → (c.lookup name flow).Ordered → (c.lookup name flow).max = some m → n < m →
        (c.lookup name (flow.learn
          (Facts.derive (.binary .gt (.ident name place) value loc) true))).ExcludesZero := by
  have hclosed := TypeInfo.zeroNoted_closed
  refine ⟨?_, ?_, ?_, ?_, ?_, ?_, ?_⟩
  · intro type
    exact c.decls.resolve_closed hclosed type
  · intro t p
    exact TypeInfo.narrow_nonZero_iff
  · intro name
    exact c.lookup_closed hclosed name hscope
  · intro e ret t flow' h
    exact c.expr_keeps hclosed ret e hscope h
  · intro op left right loc ret l mid r flow' hop hl hr hleft hright hzero
    have hmid := (c.expr_keeps hclosed ret left hscope hl).2
    have hnoted := (c.expr_keeps hclosed ret right hmid hr).1
    exact Checker.expr_quotient hop hl hr hleft hright (hnoted hright hzero)
  · intro type value n m hvalue hn hmax hnm
    have hordered : (c.decls.resolve type).Ordered :=
      c.decls.resolve_closed TypeInfo.ordered_closed type
    have hrefined : c.decls.resolve (.refined type .gt value) =
        (c.decls.resolve type).narrow (.atLeast (n + 1)) := by
      unfold Declarations.resolve
      simp only [TypeExpr.resolve, hvalue, Option.bind_some, Patch.ofComparison?]
    rw [hrefined]
    refine TypeInfo.narrow_excludesZero hn rfl (fun a ha => hordered a m ha hmax) ?_ hnm
    rw [hmax]
    rfl
  · intro name place value loc b n m hb hvalue hn hordered hmax hnm
    exact Checker.lookup_guarded_excludesZero hb hvalue hn hordered hmax hnm

namespace HalfBounded

open Annotated (size number)

def guard : Expr := .binary .gt (.ident "n" none) (number 0) none

/-- The number `value` of a type. -/
def typed (name : String) (value : Int64) : Expr := .number value (some name) none

def quotient (name : String) : Expr := .binary .div (typed name 100) (.ident "n" none) none

/-- What is known about `n: USize` under a guard `n < 10`. -/
def flow : Flow where
  scope := Scope.empty.declare "n" (.fixed (.named "USize"))
  facts := Facts.empty.add "n" (.atMost 9)

/-- The function `fn f(n: U32 > 0): U32 => 100U32 / n;` -/
def refined : Program :=
  ⟨[.fnDecl ⟨"f", [], [⟨"n", some (.refined (.named "U32" []) .gt (number 0))⟩],
    some (.named "U32" []), some (quotient "U32"), false, none⟩]⟩

/-- The function `fn f(n: USize): USize => if (cond) 100USize / n else 0USize;` -/
def guarded (cond : Expr) : Program :=
  ⟨[.fnDecl ⟨"f", [], [⟨"n", some size⟩], some size,
    some (.ite cond (quotient "USize") (some (typed "USize" 0)) none), false, none⟩]⟩

end HalfBounded

open HalfBounded Annotated in
/-- Below ten, `n > 0` proves that `n` is not zero. -/
theorem bounds_note_zero_size :
    let c := Checker.ofDeclarations {} true
    let inner := flow.learn (Facts.derive guard true)
    flow.scope.Each TypeInfo.ZeroNoted ∧ (c.lookup "n" flow).nonZero = false ∧
      (c.lookup "n" inner).ExcludesZero ∧ (c.lookup "n" inner).nonZero = true ∧
      c.expr (quotient "USize") none inner = .ok (.bare "USize", inner) ∧
      (c.decls.resolve (.refined (.refined size .lt (number 10)) .gt (number 0))).nonZero = true := by
  intro c inner
  have hscope : flow.scope.Each TypeInfo.ZeroNoted :=
    Scope.Each.empty.declare ⟨TypeInfo.zeroNoted_closed.named _, TypeInfo.zeroNoted_closed.named _⟩
  obtain ⟨hresolve, _, _, _, _, hrefined, hguarded⟩ := bounds_note_zero c flow hscope
  obtain ⟨_, _, hlookup, _, hquotient, _, _⟩ := bounds_note_zero c inner hscope
  have hordered : (c.lookup "n" flow).Ordered := by
    intro a b ha hb
    cases ha
    cases hb
    decide
  have hzero := hguarded "n" none (number 0) none _ 0 9 rfl rfl (by decide) hordered rfl (by decide)
  have hzero' := hrefined (.refined size .lt (number 10)) (number 0) 0 9 rfl (by decide) rfl (by decide)
  have hdivided := hquotient .div (typed "USize" 100) (.ident "n" none) none none
    (.literal "USize" 100) inner (c.lookup "n" inner) inner (.inl rfl) rfl rfl rfl rfl hzero
  exact ⟨hscope, rfl, hzero, hlookup "n" rfl hzero, hdivided, hresolve _ rfl hzero'⟩

open HalfBounded Annotated in
/-- A refinement `> 0` gives every numeric type but one a positive lower bound and no proof. The
quotient is rejected, with the divisor refined or guarded by `> 0`; a guard with an upper bound makes
it accepted. -/
theorem half_bounded_zero_unnoted :
    (∀ name ∈ TypeName.numeric, name ≠ "I32" →
      let t := Declarations.resolve {} (.refined (.named name []) .gt (number 0))
      t.isNumeric = true ∧ t.min = some 1 ∧ t.nonZero = false) ∧
      refined.check true = .error ⟨.divisorMayBeZero, none⟩ ∧
      (guarded guard).check true = .error ⟨.divisorMayBeZero, none⟩ ∧
      (guarded (.binary .and guard (.binary .lt (.ident "n" none) (number 10) none) none)).check true =
        .ok () := by
  exact ⟨by decide, rfl, rfl, rfl⟩

end TuffSafety
