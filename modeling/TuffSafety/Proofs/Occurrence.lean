import Mathlib.Logic.Relation
import TuffSafety.Assigned

/-!
# What occurs in a program

A node is an expression or a statement. Which nodes occur inside another one is said by listing the
direct parts of every construct; the body of a nested function is no part of the code around it.
The collection of assigned names does not look into the place of an assignment and the bounds of a
range. Every name that is collected is the target of an assignment that occurs in sight of it.
-/
namespace TuffSafety

inductive Node where
  | expr (e : Expr)
  | stmt (s : Stmt)

/-- The direct parts of a node. A block or an `if` that stands as a statement has itself, as an
expression, for its only part. -/
inductive Node.Has : Node → Node → Prop where
  | left {op l r loc} : Has (.expr (.binary op l r loc)) (.expr l)
  | right {op l r loc} : Has (.expr (.binary op l r loc)) (.expr r)
  | operand {op e loc} : Has (.expr (.unary op e loc)) (.expr e)
  | callee {callee es loc} : Has (.expr (.call callee es loc)) (.expr callee)
  | arg {callee es loc e} (he : e ∈ es) : Has (.expr (.call callee es loc)) (.expr e)
  | object {object property loc} : Has (.expr (.member object property loc)) (.expr object)
  | target {target position loc} : Has (.expr (.index target position loc)) (.expr target)
  | position {target position loc} : Has (.expr (.index target position loc)) (.expr position)
  | field {name fs loc f} (hf : f ∈ fs) : Has (.expr (.structInit name fs loc)) (.expr f.value)
  | condition {cond t e loc} : Has (.expr (.ite cond t e loc)) (.expr cond)
  | thenBranch {cond t e loc} : Has (.expr (.ite cond t e loc)) (.expr t)
  | elseBranch {cond t e loc} : Has (.expr (.ite cond t (some e) loc)) (.expr e)
  | scrutinee {target cs loc} : Has (.expr (.matchOn target cs loc)) (.expr target)
  | arm {target cs loc arm} (ha : arm ∈ cs) : Has (.expr (.matchOn target cs loc)) (.expr arm.body)
  | tested {e pattern loc} : Has (.expr (.isPattern e pattern loc)) (.expr e)
  | unwrapped {e loc} : Has (.expr (.unwrap e loc)) (.expr e)
  | block {ss loc s} (hs : s ∈ ss) : Has (.expr (.block ⟨ss, loc⟩)) (.stmt s)
  | initializer {name type value loc} : Has (.stmt (.letDecl name type value loc)) (.expr value)
  | assigned {target value loc} : Has (.stmt (.assign target value loc)) (.expr value)
  | place {target value loc} : Has (.stmt (.assign target value loc)) (.expr target)
  | returned {value loc} : Has (.stmt (.ret (some value) loc)) (.expr value)
  | exprStmt {e loc} : Has (.stmt (.expr e loc)) (.expr e)
  | blockStmt {body} : Has (.stmt (.block body)) (.expr (.block body))
  | ifStmt {cond t e loc} : Has (.stmt (.ite cond t e loc)) (.expr (.ite cond t e loc))
  | whileCondition {cond body loc} : Has (.stmt (.whileLoop cond body loc)) (.expr cond)
  | whileBody {cond body loc} : Has (.stmt (.whileLoop cond body loc)) (.expr (.block body))
  | rangeFirst {iterator low high body loc} :
      Has (.stmt (.forLoop iterator low high body loc)) (.expr low)
  | rangeLast {iterator low high body loc} :
      Has (.stmt (.forLoop iterator low high body loc)) (.expr high)
  | forBody {iterator low high body loc} :
      Has (.stmt (.forLoop iterator low high body loc)) (.expr (.block body))

namespace Node

/-- One node occurs in another, at any depth. -/
def Contains : Node → Node → Prop :=
  Relation.ReflTransGen Has

/-- An assignment to the name occurs in the node. -/
def Assigns (node : Node) (name : String) : Prop :=
  ∃ place value loc, node.Contains (.stmt (.assign (.ident name place) value loc))

/-- The parts that the collection of assigned names does not look into. -/
inductive Overlooks : Node → Node → Prop where
  | place {target value loc} : Overlooks (.stmt (.assign target value loc)) (.expr target)
  | rangeFirst {iterator low high body loc} :
      Overlooks (.stmt (.forLoop iterator low high body loc)) (.expr low)
  | rangeLast {iterator low high body loc} :
      Overlooks (.stmt (.forLoop iterator low high body loc)) (.expr high)

/-- Whether some part of a node is overlooked. -/
def isSelective : Node → Bool
  | .stmt (.assign ..) => true
  | .stmt (.forLoop ..) => true
  | _ => false

/-- The parts that the collection of assigned names looks into. -/
inductive Sees : Node → Node → Prop where
  | part {node part} (h : Has node part) (hnode : node.isSelective = false) : Sees node part
  | assigned {target value loc} : Sees (.stmt (.assign target value loc)) (.expr value)
  | forBody {iterator low high body loc} :
      Sees (.stmt (.forLoop iterator low high body loc)) (.expr (.block body))

/-- An assignment to the name occurs in the node, outside of all that is overlooked. -/
def AssignsInSight (node : Node) (name : String) : Prop :=
  ∃ place value loc, Relation.ReflTransGen Sees node (.stmt (.assign (.ident name place) value loc))

/-- A call of the function of that name occurs in the node. -/
def Calls (node : Node) (function : String) : Prop :=
  ∃ place args loc, node.Contains (.expr (.call (.ident function place) args loc))

variable {node part : Node} {name : String}

theorem Assigns.of_has (h : part.Assigns name) (hpart : node.Has part) : node.Assigns name := by
  obtain ⟨place, value, loc, hin⟩ := h
  exact ⟨place, value, loc, .head hpart hin⟩

theorem Overlooks.has (h : node.Overlooks part) : node.Has part := by
  cases h with
  | place => exact .place
  | rangeFirst => exact .rangeFirst
  | rangeLast => exact .rangeLast

theorem Sees.has (h : node.Sees part) : node.Has part := by
  cases h with
  | part h => exact h
  | assigned => exact .assigned
  | forBody => exact .forBody

theorem AssignsInSight.assigns (h : node.AssignsInSight name) : node.Assigns name := by
  obtain ⟨place, value, loc, hin⟩ := h
  exact ⟨place, value, loc, Relation.ReflTransGen.mono (fun _ _ => Sees.has) _ _ hin⟩

theorem AssignsInSight.of_sees (h : part.AssignsInSight name) (hpart : node.Sees part) :
    node.AssignsInSight name := by
  obtain ⟨place, value, loc, hin⟩ := h
  exact ⟨place, value, loc, .head hpart hin⟩

/-- No part of an expression is overlooked. -/
theorem AssignsInSight.of_has {e : Expr} (h : part.AssignsInSight name)
    (hpart : (Node.expr e).Has part) : (Node.expr e).AssignsInSight name :=
  h.of_sees (.part hpart rfl)

theorem assigns_assign (name : String) (place : Option Loc) (value : Expr) (loc : Option Loc) :
    (Node.stmt (.assign (.ident name place) value loc)).Assigns name :=
  ⟨place, value, loc, .refl⟩

/-- An expression is no assignment itself. -/
theorem not_assigns_of_parts {e : Expr} (h : ∀ part, (Node.expr e).Has part → ¬ part.Assigns name) :
    ¬ (Node.expr e).Assigns name := by
  rintro ⟨place, value, loc, hin⟩
  rcases hin.cases_head with heq | ⟨part, hpart, hin⟩
  · cases heq
  · exact h part hpart ⟨place, value, loc, hin⟩

theorem stmt_not_assigns_of_parts {s : Stmt}
    (hself : ∀ place value loc, s ≠ .assign (.ident name place) value loc)
    (h : ∀ part, (Node.stmt s).Has part → ¬ part.Assigns name) : ¬ (Node.stmt s).Assigns name := by
  rintro ⟨place, value, loc, hin⟩
  rcases hin.cases_head with heq | ⟨part, hpart, hin⟩
  · exact hself place value loc (Node.stmt.inj heq)
  · exact h part hpart ⟨place, value, loc, hin⟩

theorem ident_not_assigns {key : String} {loc : Option Loc} :
    ¬ (Node.expr (.ident key loc)).Assigns name :=
  not_assigns_of_parts fun _ hpart => by cases hpart

theorem number_not_assigns {value : Int64} {suffix : Option String} {loc : Option Loc} :
    ¬ (Node.expr (.number value suffix loc)).Assigns name :=
  not_assigns_of_parts fun _ hpart => by cases hpart

end Node

namespace Assigned

variable {name : String}

theorem target_inSight {target value : Expr} {loc : Option Loc} (h : name ∈ Assigned.target target) :
    (Node.stmt (.assign target value loc)).AssignsInSight name := by
  unfold Assigned.target at h
  split at h
  · rw [List.mem_singleton] at h
    subst h
    exact ⟨_, value, loc, .refl⟩
  · cases h

theorem of_append {names names' : List String} {node : Node} (h : name ∈ names ++ names')
    (hl : name ∈ names → node.AssignsInSight name) (hr : name ∈ names' → node.AssignsInSight name) :
    node.AssignsInSight name :=
  (List.mem_append.mp h).elim hl hr

mutual

/-- What is collected as assigned is assigned somewhere in sight. -/
theorem expr_inSight : ∀ e, name ∈ expr e → (Node.expr e).AssignsInSight name
  | .block ⟨statements, _⟩, h => by
    obtain ⟨s, hs, hsight⟩ := stmts_inSight statements h
    exact hsight.of_has (.block hs)
  | .ite condition thenBranch elseBranch _, h =>
    of_append h
      (fun h => of_append h (fun h => (expr_inSight condition h).of_has .condition)
        fun h => (expr_inSight thenBranch h).of_has .thenBranch)
      fun h => by
        obtain ⟨e, rfl, hsight⟩ := expr?_inSight elseBranch h
        exact hsight.of_has .elseBranch
  | .matchOn value cases _, h =>
    of_append h (fun h => (expr_inSight value h).of_has .scrutinee) fun h => by
      obtain ⟨arm, harm, hsight⟩ := matchCases_inSight cases h
      exact hsight.of_has (.arm harm)
  | .binary _ left right _, h =>
    of_append h (fun h => (expr_inSight left h).of_has .left)
      fun h => (expr_inSight right h).of_has .right
  | .unary _ operand _, h => (expr_inSight operand h).of_has .operand
  | .call callee args _, h =>
    of_append h (fun h => (expr_inSight callee h).of_has .callee) fun h => by
      obtain ⟨e, he, hsight⟩ := exprs_inSight args h
      exact hsight.of_has (.arg he)
  | .member object _ _, h => (expr_inSight object h).of_has .object
  | .index value position _, h =>
    of_append h (fun h => (expr_inSight value h).of_has .target)
      fun h => (expr_inSight position h).of_has .position
  | .structInit _ fields _, h => by
    obtain ⟨f, hf, hsight⟩ := fieldInits_inSight fields h
    exact hsight.of_has (.field hf)
  | .isPattern operand _ _, h => (expr_inSight operand h).of_has .tested
  | .unwrap operand _, h => (expr_inSight operand h).of_has .unwrapped

theorem expr?_inSight : ∀ e, name ∈ expr? e → ∃ e', e = some e' ∧ (Node.expr e').AssignsInSight name
  | some e, h => ⟨e, rfl, expr_inSight e h⟩

theorem exprs_inSight : ∀ es, name ∈ exprs es → ∃ e ∈ es, (Node.expr e).AssignsInSight name
  | e :: es, h => by
    rcases List.mem_append.mp h with h | h
    · exact ⟨e, List.mem_cons_self .., expr_inSight e h⟩
    · obtain ⟨e', he', hsight⟩ := exprs_inSight es h
      exact ⟨e', List.mem_cons_of_mem _ he', hsight⟩

theorem fieldInits_inSight :
    ∀ fs, name ∈ fieldInits fs → ∃ f ∈ fs, (Node.expr f.value).AssignsInSight name
  | ⟨key, value⟩ :: fs, h => by
    rcases List.mem_append.mp h with h | h
    · exact ⟨⟨key, value⟩, List.mem_cons_self .., expr_inSight value h⟩
    · obtain ⟨f, hf, hsight⟩ := fieldInits_inSight fs h
      exact ⟨f, List.mem_cons_of_mem _ hf, hsight⟩

theorem matchCases_inSight :
    ∀ cs, name ∈ matchCases cs → ∃ arm ∈ cs, (Node.expr arm.body).AssignsInSight name
  | ⟨pattern, body⟩ :: cs, h => by
    rcases List.mem_append.mp h with h | h
    · exact ⟨⟨pattern, body⟩, List.mem_cons_self .., expr_inSight body h⟩
    · obtain ⟨arm, harm, hsight⟩ := matchCases_inSight cs h
      exact ⟨arm, List.mem_cons_of_mem _ harm, hsight⟩

theorem stmts_inSight : ∀ ss, name ∈ stmts ss → ∃ s ∈ ss, (Node.stmt s).AssignsInSight name
  | s :: ss, h => by
    rcases List.mem_append.mp h with h | h
    · exact ⟨s, List.mem_cons_self .., stmt_inSight s h⟩
    · obtain ⟨s', hs', hsight⟩ := stmts_inSight ss h
      exact ⟨s', List.mem_cons_of_mem _ hs', hsight⟩

theorem stmt_inSight : ∀ s, name ∈ stmt s → (Node.stmt s).AssignsInSight name
  | .assign _ value _, h =>
    of_append h target_inSight fun h => (expr_inSight value h).of_sees .assigned
  | .block ⟨statements, _⟩, h => by
    obtain ⟨s, hs, hsight⟩ := stmts_inSight statements h
    exact (hsight.of_has (.block hs)).of_sees (.part .blockStmt rfl)
  | .expr e _, h => (expr_inSight e h).of_sees (.part .exprStmt rfl)
  | .letDecl _ _ value _, h => (expr_inSight value h).of_sees (.part .initializer rfl)
  | .ret value _, h => by
    obtain ⟨e, rfl, hsight⟩ := expr?_inSight value h
    exact hsight.of_sees (.part .returned rfl)
  | .ite condition thenBranch elseBranch _, h =>
    of_append h
      (fun h => of_append h
        (fun h => ((expr_inSight condition h).of_has .condition).of_sees (.part .ifStmt rfl))
        fun h => ((expr_inSight thenBranch h).of_has .thenBranch).of_sees (.part .ifStmt rfl))
      fun h => by
        obtain ⟨e, rfl, hsight⟩ := expr?_inSight elseBranch h
        exact (hsight.of_has .elseBranch).of_sees (.part .ifStmt rfl)
  | .whileLoop condition ⟨statements, _⟩ _, h =>
    of_append h (fun h => (expr_inSight condition h).of_sees (.part .whileCondition rfl)) fun h => by
      obtain ⟨s, hs, hsight⟩ := stmts_inSight statements h
      exact (hsight.of_has (.block hs)).of_sees (.part .whileBody rfl)
  | .forLoop _ _ _ ⟨statements, _⟩ _, h => by
    obtain ⟨s, hs, hsight⟩ := stmts_inSight statements h
    exact (hsight.of_has (.block hs)).of_sees .forBody

end

theorem expr_assigns (e : Expr) (h : name ∈ expr e) : (Node.expr e).Assigns name :=
  (expr_inSight e h).assigns

end Assigned

end TuffSafety
