import TuffSafety.Proofs.ComparisonFacts
import TuffSafety.Proofs.GuardFacts
import TuffSafety.Proofs.Narrowing
import TuffSafety.Proofs.NullSafety

/-!
# Guards and refinement types

A comparison can be written as a guard on a variable or as a refinement of its type. Both narrow the
type in the same way, whatever the type, the comparison and the literal are, and a guard that fails does
so like the opposite comparison. The only difference is null: a guard `!= 0USize` turns a nullable
pointer into the pointer, a refinement does not.
-/
namespace TuffSafety

namespace TypeInfo

/-- That a pointer is not null says nothing new about what is not nullable. -/
theorem narrow_nonNull {t : TypeInfo} (h : t.nullablePointer = none) (p : Patch) :
    t.narrow { p with nonNull := true } = t.narrow p := by
  simp only [narrow, withoutNull_eq_self h, ite_self]

/-- A nullable pointer stays one unless it is known not to be null. -/
theorem narrow_nonNull_ne {t : TypeInfo} (h : t.isNullable = true) {p : Patch}
    (hp : p.nonNull = false) : t.narrow { p with nonNull := true } ≠ t.narrow p := by
  obtain ⟨pointer, hpointer⟩ := Option.isSome_iff_exists.mp h
  intro heq
  have hnull := congrArg nullablePointer heq
  rw [narrow_nullablePointer, narrow_nullablePointer, if_pos rfl, hp, if_neg Bool.false_ne_true,
    withoutNull, hpointer] at hnull
  cases hnull

end TypeInfo

namespace Declarations

/-- A refinement narrows the type by what the comparison says. -/
theorem resolve_refined (d : Declarations) (type : TypeExpr) (op : BinaryOp) (value : Expr) :
    d.resolve (.refined type op value) =
      (value.intLiteral?.bind (Patch.ofComparison? op)).elim (d.resolve type) (d.resolve type).narrow := by
  unfold resolve
  rw [TypeExpr.resolve]
  cases value.intLiteral?.bind (Patch.ofComparison? op) <;> rfl

end Declarations

namespace Checker

variable {c : Checker} {op : BinaryOp} {name : String} {scope : Scope} {b : Binding}

/-- A guard narrows the present type of a variable by what the comparison tells. -/
theorem lookup_comparison (hop : op.isComparison = true) (hb : scope.get? name = some b)
    (place : Option Loc) (value : Expr) (loc : Option Loc) (truth : Bool) :
    c.lookup name ⟨scope, Facts.derive (.binary op (.ident name place) value loc) truth⟩ =
      (Facts.told (op.outcome truth) value).elim b.current b.current.narrow := by
  have hget := Facts.get?_derive_comparison hop name place value loc truth
  cases htold : Facts.told (op.outcome truth) value with
  | none => exact lookup_of_none hb (hget.trans htold)
  | some p => exact lookup_of_some hb (hget.trans htold)

/-- The guard and the refinement differ exactly where the guard tells that a nullable pointer is not
null. -/
theorem lookup_comparison_eq_refined_iff (hop : op.isComparison = true) {type : TypeExpr}
    (hb : scope.get? name = some (.fixed (c.decls.resolve type))) (place : Option Loc) (value : Expr)
    (loc : Option Loc) (truth : Bool) :
    c.lookup name ⟨scope, Facts.derive (.binary op (.ident name place) value loc) truth⟩ =
        c.decls.resolve (.refined type (op.outcome truth) value) ↔
      ¬ ((c.decls.resolve type).isNullable = true ∧ op.outcome truth = .ne ∧
        value.isNullLiteral = true) := by
  rw [lookup_comparison hop hb, Declarations.resolve_refined, Facts.told]
  cases hp : value.intLiteral?.bind (Patch.ofComparison? (op.outcome truth)) with
  | none =>
    refine iff_of_true rfl ?_
    rintro ⟨_, hne, hnull⟩
    rw [hne, Expr.intLiteral?_of_isNullLiteral hnull] at hp
    cases hp
  | some p =>
    obtain ⟨m, _, hm⟩ := Option.bind_eq_some_iff.mp hp
    by_cases hnull : op.outcome truth = .ne ∧ value.isNullLiteral = true
    · rw [Option.map_some, if_pos hnull]
      cases hpointer : (c.decls.resolve type).isNullable with
      | true =>
        exact iff_of_false (TypeInfo.narrow_nonNull_ne hpointer (Facts.nonNull_ofComparison? hm))
          fun h => h ⟨rfl, hnull⟩
      | false =>
        have hplain : (c.decls.resolve type).nullablePointer = none :=
          Option.isNone_iff_eq_none.mp (Option.isSome_eq_false_iff.mp hpointer)
        exact iff_of_true (TypeInfo.narrow_nonNull hplain p) fun h => Bool.false_ne_true h.1
    · rw [Option.map_some, if_neg hnull]
      exact iff_of_true rfl fun h => hnull h.2

end Checker

/-- Let a variable have the type that `type` means. If that is not nullable, a guard `name op value` gives
the variable what the refinement `type op value` means where it holds, and what the refinement by the
opposite comparison means where it fails. If it is nullable, the same holds of every guard but one that
compares with the null literal and tells that the pointer is not null. -/
theorem guard_narrows_as_refinement {c : Checker} {op : BinaryOp} {name : String} {scope : Scope}
    {type : TypeExpr} (hop : op.isComparison = true)
    (hb : scope.get? name = some (.fixed (c.decls.resolve type))) (value : Expr)
    (place loc : Option Loc) :
    let guarded (truth : Bool) :=
      c.lookup name ⟨scope, Facts.derive (.binary op (.ident name place) value loc) truth⟩
    ((c.decls.resolve type).isNullable = false →
      guarded true = c.decls.resolve (.refined type op value) ∧
        ∃ op', op.negated? = some op' ∧ guarded false = c.decls.resolve (.refined type op' value)) ∧
      ((c.decls.resolve type).isNullable = true → ∀ truth,
        (guarded truth = c.decls.resolve (.refined type (op.outcome truth) value) ↔
          ¬ (op.outcome truth = .ne ∧ value.isNullLiteral = true))) := by
  intro guarded
  have hiff := Checker.lookup_comparison_eq_refined_iff hop hb place value loc
  refine ⟨fun hplain => ?_, fun hpointer truth => ?_⟩
  · have hsame : ∀ truth,
        guarded truth = c.decls.resolve (.refined type (op.outcome truth) value) :=
      fun truth => (hiff truth).mpr fun h => Bool.false_ne_true (hplain.symm.trans h.1)
    obtain ⟨op', hop'⟩ : ∃ op', op.negated? = some op' := by
      cases op <;> cases hop <;> exact ⟨_, rfl⟩
    refine ⟨hsame true, op', hop', ?_⟩
    rw [hsame false, BinaryOp.outcome, hop']
    rfl
  · rw [hiff truth, hpointer]
    simp only [true_and]

namespace Written

/-- The alias `type Small = USize < 10;` -/
def decls : Declarations :=
  { aliases := OrderedMap.empty.insert "Small"
      (.target (.refined (.named "USize" []) .lt (.number 10 none none))) }

def checker : Checker := .ofDeclarations decls true

def small : TypeExpr := .named "Small" []

/-- The type `*I32 | USize == 0USize` -/
def pointer : TypeExpr :=
  .union (.pointer false (.named "I32" []))
    (.refined (.named "USize" []) .eq (.number 0 (some "USize") none))

def scope : Scope :=
  (Scope.empty.declare "n" (.fixed (decls.resolve small))).declare "p" (.fixed (decls.resolve pointer))

end Written

open Written in
/-- The guard `n > 3` on `n: Small` where it holds and where it fails, and the guard `p != 0USize`. -/
theorem guard_narrows_as_refinement_small :
    let guarded (op : BinaryOp) (name : String) (value : Expr) (truth : Bool) :=
      checker.lookup name ⟨scope, Facts.derive (.binary op (.ident name none) value none) truth⟩
    let three : Expr := .number 3 none none
    let null : Expr := .number 0 (some "USize") none
    (decls.resolve small).isNullable = false ∧
      guarded .gt "n" three true = decls.resolve (.refined small .gt three) ∧
      (guarded .gt "n" three true).interval = some (4, 9) ∧
      guarded .gt "n" three false = decls.resolve (.refined small .le three) ∧
      (guarded .gt "n" three false).interval = some (0, 3) ∧
      (decls.resolve pointer).isNullable = true ∧
      guarded .ne "p" null true ≠ decls.resolve (.refined pointer .ne null) := by
  intro guarded three null
  have hn : scope.get? "n" = some (.fixed (checker.decls.resolve small)) := rfl
  have hp : scope.get? "p" = some (.fixed (checker.decls.resolve pointer)) := rfl
  have hgt : BinaryOp.gt.isComparison = true := rfl
  have hne : BinaryOp.ne.isComparison = true := rfl
  obtain ⟨hholds, op', hop', hfails⟩ :=
    (guard_narrows_as_refinement hgt hn three none none).1 rfl
  cases hop'
  have hnull := (guard_narrows_as_refinement hne hp null none none).2 rfl true
  exact ⟨rfl, hholds, rfl, hfails, rfl, rfl, fun heq => hnull.mp heq ⟨rfl, rfl⟩⟩

end TuffSafety
