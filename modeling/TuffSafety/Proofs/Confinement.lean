import TuffSafety.Proofs.Frame

/-!
# Nothing escapes an expression

The frame law read name by name. Behind an expression the visible names are those before it, declared
as they were. What is known about a name is what was known, or what its declaration says; and a name
that the expression does not assign is left alone. So declarations, loop variables, names bound by
patterns and facts of branches end with the block or branch that brought them in.
-/
namespace TuffSafety

namespace Flow.Moves

variable {P : String → Prop} {flow flow' : Flow}

theorem declared_eq (h : flow.Moves P flow') (name : String) :
    (flow'.scope.get? name).map Binding.declared = (flow.scope.get? name).map Binding.declared := by
  rcases h.binding name with hb | ⟨_, hb⟩
  · rw [hb]
  · rw [hb, Option.map_map]
    rfl

theorem visible_iff (h : flow.Moves P flow') (name : String) :
    (flow'.scope.get? name).isSome ↔ (flow.scope.get? name).isSome := by
  have hdeclared := congrArg Option.isSome (h.declared_eq name)
  rw [Option.isSome_map, Option.isSome_map] at hdeclared
  rw [hdeclared]

theorem kept_or_widened (h : flow.Moves P flow') (name : String) :
    flow'.scope.get? name = flow.scope.get? name ∨
      ∀ b, flow'.scope.get? name = some b → b.current = b.declared := by
  refine (h.binding name).imp_right ?_
  rintro ⟨_, hb⟩ b hget
  rw [hb] at hget
  obtain ⟨old, _, rfl⟩ := Option.map_eq_some_iff.mp hget
  rfl

end Flow.Moves

/-- Whatever blocks, loops, patterns and guards an expression holds, it adds and hides no name,
changes no declaration, and touches only what it assigns. -/
theorem expression_confines (c : Checker) (e : Expr) (ret : Option TypeInfo) (flow : Flow)
    (t : TypeInfo) (flow' : Flow) (h : c.expr e ret flow = .ok (t, flow')) (name : String) :
    ((flow'.scope.get? name).isSome ↔ (flow.scope.get? name).isSome) ∧
      (flow'.scope.get? name).map Binding.declared =
        (flow.scope.get? name).map Binding.declared ∧
      (flow'.scope.get? name = flow.scope.get? name ∨
        ∀ b, flow'.scope.get? name = some b → b.current = b.declared) ∧
      (flow'.facts.get? name = flow.facts.get? name ∨ flow'.facts.get? name = none) ∧
      (¬ (Node.expr e).Assigns name →
        flow'.scope.get? name = flow.scope.get? name ∧
          flow'.facts.get? name = flow.facts.get? name) := by
  have hmoves := c.expr_moves e ret h
  have hfact := (hmoves.fact name).imp_right And.right
  exact ⟨hmoves.visible_iff name, hmoves.declared_eq name, hmoves.kept_or_widened name, hfact,
    fun hname => ⟨hmoves.get?_eq hname, hmoves.facts_eq hname⟩⟩

namespace Confined

/-- The expression
`if (n > 3) { let n = 7; x = n; for (i in 0..2) { x = i; } } else match (p) { case P { n } = n; }` -/
def sample : Expr :=
  .ite (.binary .gt (.ident "n" none) (.number 3 none none) none)
    (.block ⟨[.letDecl "n" none (.number 7 none none) none,
      .assign (.ident "x" none) (.ident "n" none) none,
      .forLoop "i" (.number 0 none none) (.number 2 none none)
        ⟨[.assign (.ident "x" none) (.ident "i" none) none], none⟩ none], none⟩)
    (some (.matchOn (.ident "p" none) [⟨.struct "P" [⟨"n", "n"⟩], .ident "n" none⟩] none)) none

def checker : Checker :=
  ⟨{ structs := OrderedMap.empty.insert "P" ⟨"P", [], [⟨"n", .named "USize" []⟩], false, none⟩ },
    .empty, true⟩

/-- `n` and `x` are narrowed to a single value, and there is a fact about both. -/
def flow : Flow where
  scope := ((Scope.empty.declare "n" ⟨.named "I32", .literal "I32" 5⟩).declare
    "x" ⟨.named "I32", .literal "I32" 1⟩).declare "p" (.fixed (.bare "P"))
  facts := (Facts.empty.add "n" .notZero).add "x" .notZero

theorem assign_x_not_assigns_n (value : String) :
    ¬ (Node.stmt (.assign (.ident "x" none) (.ident value none) none)).Assigns "n" := by
  refine Node.stmt_not_assigns_of_parts (fun _ _ _ h => ?_) fun part hpart => ?_
  · simp at h
  · cases hpart <;> exact Node.ident_not_assigns

theorem loop_not_assigns_n :
    ¬ (Node.stmt (.forLoop "i" (.number 0 none none) (.number 2 none none)
      ⟨[.assign (.ident "x" none) (.ident "i" none) none], none⟩ none)).Assigns "n" := by
  refine Node.stmt_not_assigns_of_parts (fun _ _ _ h => ?_) fun part hpart => ?_
  · cases h
  · cases hpart with
    | rangeFirst => exact Node.number_not_assigns
    | rangeLast => exact Node.number_not_assigns
    | forBody =>
      refine Node.not_assigns_of_parts fun part hpart => ?_
      cases hpart with
      | block hs =>
        rw [List.mem_singleton] at hs
        subst hs
        exact assign_x_not_assigns_n "i"

theorem sample_not_assigns_n : ¬ (Node.expr sample).Assigns "n" := by
  refine Node.not_assigns_of_parts fun part hpart => ?_
  cases hpart with
  | condition =>
    refine Node.not_assigns_of_parts fun part hpart => ?_
    cases hpart with
    | left => exact Node.ident_not_assigns
    | right => exact Node.number_not_assigns
  | thenBranch =>
    refine Node.not_assigns_of_parts fun part hpart => ?_
    cases hpart with
    | block hs =>
      simp only [List.mem_cons, List.not_mem_nil, or_false] at hs
      rcases hs with rfl | rfl | rfl
      · refine Node.stmt_not_assigns_of_parts (fun _ _ _ h => ?_) fun part hpart => ?_
        · cases h
        · cases hpart
          exact Node.number_not_assigns
      · exact assign_x_not_assigns_n "n"
      · exact loop_not_assigns_n
  | elseBranch =>
    refine Node.not_assigns_of_parts fun part hpart => ?_
    cases hpart with
    | scrutinee => exact Node.ident_not_assigns
    | arm ha =>
      rw [List.mem_singleton] at ha
      subst ha
      exact Node.ident_not_assigns

end Confined

open Confined in
/-- Inside, `n` is shadowed by a variable and by a field and narrowed by the guard, and `x` is
assigned; behind it only `x` has lost its value and its fact, and the loop variable is gone. -/
theorem expression_confines_sample :
    ∃ t flow', checker.expr sample none flow = .ok (t, flow') ∧
      flow'.scope.get? "n" = some ⟨.named "I32", .literal "I32" 5⟩ ∧
      flow'.facts.get? "n" = some .notZero ∧
      flow'.scope.get? "x" = some (.fixed (.named "I32")) ∧ flow'.facts.get? "x" = none ∧
      flow'.scope.get? "i" = none := by
  obtain ⟨t, flow', h⟩ : ∃ t flow', checker.expr sample none flow = .ok (t, flow') := ⟨_, _, rfl⟩
  have hconfines := expression_confines checker sample none flow t flow' h
  obtain ⟨hbinding, hfact⟩ := (hconfines "n").2.2.2.2 sample_not_assigns_n
  refine ⟨t, flow', h, hbinding, hfact, ?_, ?_, ?_⟩
  · cases h
    rfl
  · cases h
    rfl
  · rw [← Option.not_isSome_iff_eq_none, (hconfines "i").1]
    decide

end TuffSafety
