import Mathlib.Data.List.Induction
import TuffSafety.Checker
import TuffSafety.Proofs.AliasGraph
import TuffSafety.Proofs.Narrowing
import TuffSafety.Proofs.NullSafety

/-!
# The members of a union

A union is spelled by nesting: its sides may be unions again, aliases of unions and refinements of
either. Its leaves are the parts that are none of these, from left to right. The members that are
noted for a union are the names of its leaves, each where it first occurs, so they do not depend on
how the leaves are grouped. A match without a wildcard is refused exactly when one of these names is
missing among its cases. A pointer to a union takes over the members of the union, so nothing is said
where one occurs.
-/
namespace TuffSafety

/-! ### Names collected once -/

/-- Adds names at the end that are not there yet. -/
def gather (tags names : List String) : List String :=
  names.foldl (fun tags name => addNew name tags) tags

section gather

variable {tags names : List String} {name : String}

@[simp] theorem gather_nil : gather tags [] = tags := rfl

@[simp] theorem gather_cons : gather tags (name :: names) = gather (addNew name tags) names := rfl

theorem mem_gather : name ∈ gather tags names ↔ name ∈ tags ∨ name ∈ names := by
  induction names generalizing tags with
  | nil => simp
  | cons first names ih =>
    rw [gather_cons, ih, mem_addNew, List.mem_cons, or_assoc, or_left_comm]

end gather

namespace TypeInfo

variable {t : TypeInfo} {tags names : List String}

theorem addMembers_eq : addMembers tags t = gather tags (t.members.filter (· != TypeName.unknown)) :=
  rfl

theorem members_of_tags (h : t.unionTags ≠ []) : t.members = t.unionTags := by
  unfold members
  rw [if_neg (by simpa using h)]

theorem members_of_plain (h : t.unionTags = []) : t.members = [t.name] := by
  unfold members
  rw [h]
  rfl

end TypeInfo

/-- A refinement changes bounds only. -/
theorem TypeExpr.resolve_refined (meaning : String → TypeInfo) (base : TypeExpr) (op : BinaryOp)
    (value : Expr) :
    ∃ min max nonZero, (refined base op value).resolve meaning =
      { base.resolve meaning with min, max, nonZero } := by
  rw [resolve]
  split
  · rename_i patch hpatch
    obtain ⟨n, -, hn⟩ := Option.bind_eq_some_iff.mp hpatch
    have hnarrow := TypeInfo.normalize_eq ((base.resolve meaning).tightened patch)
    rw [← TypeInfo.narrow_eq_normalize, TypeInfo.tightened, TypeInfo.base,
      Facts.nonNull_ofComparison? hn] at hnarrow
    exact ⟨_, _, _, hnarrow⟩
  · exact ⟨_, _, _, rfl⟩

/-! ### Leaves -/

namespace Declarations

variable {d : Declarations} {type : TypeExpr} {leaves : List TypeExpr}

/-- A union, behind aliases and refinements. -/
inductive IsUnion (d : Declarations) : TypeExpr → Prop where
  | union {left right} : IsUnion d (.union left right)
  | refined {base op value} (h : IsUnion d base) : IsUnion d (.refined base op value)
  | followed {name args target} (htarget : d.aliases.get? name = some (.target target))
      (h : IsUnion d target) : IsUnion d (.named name args)

/-- The leaves of a type from left to right: what is left when unions, refinements of unions and
aliases of unions are taken apart. -/
inductive Leaves (d : Declarations) : TypeExpr → List TypeExpr → Prop where
  | union {left right ls rs} (hleft : Leaves d left ls) (hright : Leaves d right rs) :
      Leaves d (.union left right) (ls ++ rs)
  | refined {base op value ls} (hunion : IsUnion d base) (h : Leaves d base ls) :
      Leaves d (.refined base op value) ls
  | followed {name args target ls} (htarget : d.aliases.get? name = some (.target target))
      (hunion : IsUnion d target) (h : Leaves d target ls) : Leaves d (.named name args) ls
  | leaf {e} (h : ¬ IsUnion d e) : Leaves d e [e]

/-- What a type shows when it is taken apart, aliases at their targets. -/
inductive Shows (d : Declarations) : TypeExpr → TypeExpr → Prop where
  | left {left right} : Shows d (.union left right) left
  | right {left right} : Shows d (.union left right) right
  | base {base op value} : Shows d (.refined base op value) base
  | pointee {mutable target} : Shows d (.pointer mutable target) target
  | followed {name args target} (htarget : d.aliases.get? name = some (.target target)) :
      Shows d (.named name args) target

/-- No pointer in a type points to a union. -/
def PointsPlainly (d : Declarations) (type : TypeExpr) : Prop :=
  ∀ mutable target, Relation.ReflTransGen d.Shows type (.pointer mutable target) →
    ¬ d.IsUnion target

theorem PointsPlainly.shown {part : TypeExpr} (h : d.PointsPlainly type) (hshows : d.Shows type part) :
    d.PointsPlainly part :=
  fun mutable target hpath => h mutable target (.head hshows hpath)

theorem Leaves.unique {leaves' : List TypeExpr} (h : d.Leaves type leaves)
    (h' : d.Leaves type leaves') : leaves = leaves' := by
  induction h generalizing leaves' with
  | union _ _ ihl ihr =>
    cases h' with
    | union hl hr => rw [ihl hl, ihr hr]
    | leaf hnot => exact absurd .union hnot
  | refined hunion _ ih =>
    cases h' with
    | refined _ h => exact ih h
    | leaf hnot => exact absurd (.refined hunion) hnot
  | followed htarget hunion _ ih =>
    cases h' with
    | followed htarget' _ h =>
      cases htarget.symm.trans htarget'
      exact ih h
    | leaf hnot => exact absurd (.followed htarget hunion) hnot
  | leaf hnot =>
    cases h' with
    | union => exact absurd .union hnot
    | refined hunion _ => exact absurd (.refined hunion) hnot
    | followed htarget hunion _ => exact absurd (.followed htarget hunion) hnot
    | leaf => rfl

theorem Leaves.shown {leaf : TypeExpr} (h : d.Leaves type leaves) (hleaf : leaf ∈ leaves) :
    Relation.ReflTransGen d.Shows type leaf := by
  induction h with
  | union _ _ ihl ihr =>
    rcases List.mem_append.mp hleaf with hleaf | hleaf
    · exact .head .left (ihl hleaf)
    · exact .head .right (ihr hleaf)
  | refined _ _ ih => exact .head .base (ih hleaf)
  | followed htarget _ _ ih => exact .head (.followed htarget) (ih hleaf)
  | leaf =>
    obtain rfl := List.mem_singleton.mp hleaf
    exact .refl

end Declarations

/-! ### Matches -/

namespace Figures

/-- The declarations `type Round = Circle | Disc; type Shape = Round | Square | Circle;` -/
def decls : Declarations :=
  .ofStatements
    [.typeAlias "Round" [] (.union (.named "Circle" []) (.named "Disc" [])) false none,
      .typeAlias "Shape" [] (.union (.union (.named "Round" []) (.named "Square" []))
        (.named "Circle" [])) false none]

/-- The type `(Shape < 3) | *Node`. -/
def drawn : TypeExpr :=
  .union (.refined (.named "Shape" []) .lt (.number 3 none none)) (.pointer false (.named "Node" []))

def leaves : List TypeExpr :=
  [.named "Circle" [], .named "Disc" [], .named "Square" [], .named "Circle" [],
    .pointer false (.named "Node" [])]

def rank (name : String) : Nat :=
  if name = "Shape" then 2 else if name = "Round" then 1 else 0

theorem acyclic : decls.Acyclic :=
  Declarations.acyclic_of_rank rank (by decide)

/-- A variable `s` of the type. -/
def flow : Flow :=
  { scope := Scope.empty.declare "s" (.fixed (decls.resolve drawn)) }

/-- The cases `Square { } => 1, Circle => 2`. -/
def cases : List MatchCase :=
  [⟨.struct "Square" [], .number 1 none none⟩, ⟨.name "Circle", .number 2 none none⟩]

end Figures

end TuffSafety
