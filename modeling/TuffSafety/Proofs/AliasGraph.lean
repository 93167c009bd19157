import Mathlib.Data.List.Perm.Subperm
import Mathlib.Logic.Relation
import TuffSafety.Declarations
import TuffSafety.Proofs.Elementary

/-!
# Aliases that do not lead back to themselves

An alias follows another one when its target mentions it where the meaning of the target is looked
for: below unions, pointers and refinements. The parameters of a name and the elements of an array or
a tuple are never looked at. When no alias leads back to itself, the aliases that were followed on the
way to a name do not matter, and what a type means is found by taking every alias at its target.
-/
namespace TuffSafety

namespace TypeExpr

/-- The names that the meaning of a type depends on. -/
def names : TypeExpr → List String
  | named name _ => [name]
  | refined base _ _ => base.names
  | union left right => left.names ++ right.names
  | pointer _ target => target.names
  | array .. | tuple _ => []

theorem resolve_congr {meaning meaning' : String → TypeInfo} :
    ∀ {type : TypeExpr}, (∀ name ∈ type.names, meaning name = meaning' name) →
      type.resolve meaning = type.resolve meaning'
  | named name _, h => h name List.mem_cons_self
  | refined base op value, h => by
    have hbase : base.resolve meaning = base.resolve meaning' := resolve_congr h
    rw [resolve, resolve, hbase]
  | union left right, h => by
    have hleft : left.resolve meaning = left.resolve meaning' :=
      resolve_congr fun name hname => h name (List.mem_append_left _ hname)
    have hright : right.resolve meaning = right.resolve meaning' :=
      resolve_congr fun name hname => h name (List.mem_append_right _ hname)
    rw [resolve, resolve, hleft, hright]
  | array _ _ _, _ => rfl
  | pointer _ target, h => by
    have htarget : target.resolve meaning = target.resolve meaning' := resolve_congr h
    rw [resolve, resolve, htarget]
  | tuple _, _ => rfl

end TypeExpr

/-- The names that the meaning of an alias depends on. -/
def Alias.names : Alias → List String
  | target type => type.names
  | opaqueType => []

namespace Declarations

variable {d : Declarations} {name : String} {target : TypeExpr}

/-- The target of one alias mentions a name. -/
def Follows (d : Declarations) (name next : String) : Prop :=
  ∃ target, d.aliases.get? name = some (.target target) ∧ next ∈ target.names

/-- No alias leads back to itself. -/
def Acyclic (d : Declarations) : Prop :=
  ∀ name, ¬ Relation.TransGen d.Follows name name

theorem mem_entries {entry : Alias} (h : d.aliases.get? name = some entry) :
    (name, entry) ∈ d.aliases.entries := by
  obtain ⟨before, after, hentries, -⟩ := List.lookup_eq_some_iff.mp h
  rw [hentries]
  simp

/-- Numbers that fall along the aliases rule out a way back. -/
theorem acyclic_of_rank (rank : String → Nat)
    (h : ∀ e ∈ d.aliases.entries, ∀ next ∈ e.2.names, rank next < rank e.1) : d.Acyclic := by
  have hfall : ∀ name next, Relation.TransGen d.Follows name next → rank next < rank name := by
    intro name next hpath
    induction hpath with
    | single hstep =>
      obtain ⟨target, htarget, hnext⟩ := hstep
      exact h _ (mem_entries htarget) _ hnext
    | tail _ hstep ih =>
      obtain ⟨target, htarget, hnext⟩ := hstep
      exact Nat.lt_trans (h _ (mem_entries htarget) _ hnext) ih
  exact fun name hcycle => Nat.lt_irrefl _ (hfall name name hcycle)

theorem aliasMeaning_unionTags (name : String) (t : TypeInfo) :
    (aliasMeaning name t).unionTags = t.unionTags := by
  unfold aliasMeaning
  split
  · rfl
  · rename_i hplain
    have htags : t.unionTags = [] := by simpa using hplain
    split
    · exact htags.symm
    · rfl

/-- Aliases that were followed on the way to a name, each of them once. -/
structure Trail (d : Declarations) (visited : List String) : Prop where
  nodup : visited.Nodup
  isAlias : ∀ name ∈ visited, name ∈ d.aliases.keys

namespace Trail

variable {visited : List String}

theorem nil : d.Trail [] :=
  ⟨List.nodup_nil, fun _ h => by cases h⟩

theorem cons (h : d.Trail visited) (hname : d.aliases.get? name = some (.target target))
    (hnew : name ∉ visited) : d.Trail (name :: visited) := by
  refine ⟨List.nodup_cons.mpr ⟨hnew, h.nodup⟩, List.forall_mem_cons.mpr ⟨?_, h.isAlias⟩⟩
  exact List.mem_map.mpr ⟨_, mem_entries hname, rfl⟩

theorem length_le (h : d.Trail visited) : visited.length ≤ d.aliases.size := by
  have hle := (List.subperm_of_subset h.nodup h.isAlias).length_le
  rwa [OrderedMap.keys, List.length_map] at hle

end Trail

/-- Nothing that was visited can be reached from a name. -/
def Unreached (d : Declarations) (visited : List String) (name : String) : Prop :=
  ∀ seen ∈ visited, ¬ Relation.ReflTransGen d.Follows name seen

namespace Unreached

variable {visited : List String} {next : String}

theorem nil : d.Unreached [] name :=
  fun _ h => by cases h

theorem not_mem (h : d.Unreached visited name) : name ∉ visited :=
  fun hmem => h name hmem .refl

/-- The way goes on without meeting what is behind it. -/
theorem step (h : d.Unreached visited name) (hacyclic : d.Acyclic) (hstep : d.Follows name next) :
    d.Unreached (name :: visited) next := by
  intro seen hseen hpath
  rcases List.mem_cons.mp hseen with rfl | hseen
  · exact hacyclic _ (.head' hstep hpath)
  · exact h seen hseen (.head hstep hpath)

end Unreached

namespace Acyclic

/-- Induction along the aliases. Each one on the way is new, and there are only so many. -/
theorem induction (hacyclic : d.Acyclic) {P : String → Prop}
    (h : ∀ name, (∀ next, d.Follows name next → P next) → P name) (name : String) : P name := by
  suffices ∀ depth visited name, d.Trail visited → d.Unreached visited name →
      d.aliases.size < depth + visited.length → P name from
    this _ [] name .nil .nil (Nat.lt_succ_self _)
  intro depth
  induction depth with
  | zero =>
    intro visited name htrail _ hdepth
    have := htrail.length_le
    omega
  | succ depth ih =>
    intro visited name htrail hnew hdepth
    refine h name fun next hstep => ?_
    have ⟨target, htarget, _⟩ := hstep
    refine ih (name :: visited) next (htrail.cons htarget hnew.not_mem) (hnew.step hacyclic hstep) ?_
    rw [List.length_cons]
    omega

/-- Induction on types where a name is taken at the target of its alias. -/
theorem typeInduction (hacyclic : d.Acyclic) {motive : TypeExpr → Prop}
    (named : ∀ name args,
      (∀ target, d.aliases.get? name = some (.target target) → motive target) →
      motive (.named name args))
    (refined : ∀ base op value, motive base → motive (.refined base op value))
    (union : ∀ left right, motive left → motive right → motive (.union left right))
    (array : ∀ element init total, motive (.array element init total))
    (pointer : ∀ mutable target, motive target → motive (.pointer mutable target))
    (tuple : ∀ members, motive (.tuple members)) (type : TypeExpr) : motive type := by
  have hsubterms : ∀ type : TypeExpr, (∀ name ∈ type.names, ∀ target,
      d.aliases.get? name = some (.target target) → motive target) → motive type := by
    intro type
    induction type using TypeExpr.names.induct with
    | case1 name args => exact fun h => named name args (h name List.mem_cons_self)
    | case2 base op value ih => exact fun h => refined base op value (ih h)
    | case3 left right ihl ihr =>
      exact fun h => union left right (ihl fun n hn => h n (List.mem_append_left _ hn))
        (ihr fun n hn => h n (List.mem_append_right _ hn))
    | case4 mutable target ih => exact fun h => pointer mutable target (ih h)
    | case5 element init total => exact fun _ => array element init total
    | case6 members => exact fun _ => tuple members
  refine hsubterms type fun name _ => ?_
  refine hacyclic.induction (P := fun name => ∀ target,
    d.aliases.get? name = some (.target target) → motive target) ?_ name
  intro name ih target htarget
  exact hsubterms target fun next hnext => ih next ⟨target, htarget, hnext⟩

/-- The aliases behind a name do not change what it means, nor does a greater allowance. -/
theorem meaning_eq (hacyclic : d.Acyclic) {visited visited' : List String} {depth depth' : Nat}
    (htrail : d.Trail visited) (htrail' : d.Trail visited') (hnew : d.Unreached visited name)
    (hnew' : d.Unreached visited' name) (hdepth : d.aliases.size < depth + visited.length)
    (hdepth' : d.aliases.size < depth' + visited'.length) :
    d.meaning depth visited name = d.meaning depth' visited' name := by
  induction depth generalizing name depth' visited visited' with
  | zero =>
    have := htrail.length_le
    omega
  | succ depth ih =>
    cases depth' with
    | zero =>
      have := htrail'.length_le
      omega
    | succ depth' =>
      rw [meaning, meaning]
      split
      · rename_i target htarget
        rw [if_neg hnew.not_mem, if_neg hnew'.not_mem]
        congr 1
        refine TypeExpr.resolve_congr fun next hnext => ?_
        have hstep : d.Follows name next := ⟨target, htarget, hnext⟩
        refine ih (htrail.cons htarget hnew.not_mem) (htrail'.cons htarget hnew'.not_mem)
          (hnew.step hacyclic hstep) (hnew'.step hacyclic hstep) ?_ ?_ <;>
        · rw [List.length_cons]
          omega
      · rfl

/-- An alias means what its target means, but for the name of a union and for what is unknown. -/
theorem resolveName_alias (hacyclic : d.Acyclic)
    (htarget : d.aliases.get? name = some (.target target)) :
    d.resolveName name = aliasMeaning name (d.resolve target) := by
  have hnext : ∀ next ∈ target.names,
      d.meaning d.aliases.size [name] next = d.resolveName next := by
    intro next hnext
    have hstep : d.Follows name next := ⟨target, htarget, hnext⟩
    exact hacyclic.meaning_eq (Trail.nil.cons htarget List.not_mem_nil) .nil
      (Unreached.nil.step hacyclic hstep) .nil (Nat.lt_succ_self _) (Nat.lt_succ_self _)
  rw [resolveName, meaning, htarget]
  dsimp only
  rw [if_neg List.not_mem_nil, TypeExpr.resolve_congr hnext]
  rfl

/-- An alias has the members of its target. -/
theorem unionTags_alias (hacyclic : d.Acyclic)
    (htarget : d.aliases.get? name = some (.target target)) (args : List TypeExpr) :
    (d.resolve (.named name args)).unionTags = (d.resolve target).unionTags := by
  rw [resolve, TypeExpr.resolve, hacyclic.resolveName_alias htarget, aliasMeaning_unionTags]

end Acyclic

/-- A name that is not an alias of a type stands for itself. -/
theorem resolveName_plain (h : ∀ target, d.aliases.get? name ≠ some (.target target)) :
    d.resolveName name = .named name := by
  rw [resolveName, meaning]
  split
  · exact absurd ‹_› (h _)
  · rfl

end Declarations

end TuffSafety
